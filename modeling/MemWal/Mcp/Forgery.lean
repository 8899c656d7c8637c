import MemWal.Mcp.Proxy
import MemWal.OAuth.Redirect

namespace MemWal.Mcp
open Library OAuth
open Auth (ObjectContent hexBytes hexDecode hexDigit)

section Visible

theorem visible_append {left right : String} (first : visible left = true) (second : visible right = true) :
    visible (left ++ right) = true := by
  unfold visible at first second ⊢
  rw [String.toList_append,List.all_append,first,second]
  rfl

theorem visible_hexdigit {c : Char} (hex : isAsciiHexdigit c = true) : visibleChar c = true := by
  have between : ∀ low high : Char, 0x20 ≤ low.toNat → high.toNat < 0x7f → low ≤ c → c ≤ high → visibleChar c = true := by
    intro low high above below least most
    have first : low.toNat ≤ c.toNat := least
    have last : c.toNat ≤ high.toNat := most
    simp only [visibleChar,Bool.or_eq_true,Bool.and_eq_true,decide_eq_true_eq]
    omega
  simp only [isAsciiHexdigit,hexDigit] at hex
  split at hex
  · rename_i digit
    exact between '0' '9' (by decide) (by decide) digit.1 digit.2
  · split at hex
    · rename_i small
      exact between 'a' 'f' (by decide) (by decide) small.1 small.2
    · split at hex
      · rename_i large
        exact between 'A' 'F' (by decide) (by decide) large.1 large.2
      · cases hex

theorem hexBytes_digits : ∀ (text : List Char) {bytes : Bytes}, hexBytes text = some bytes →
    ∀ c ∈ text, isAsciiHexdigit c = true
  | [],_,_ => fun _ member => absurd member List.not_mem_nil
  | [_],_,decoded => nomatch decoded
  | high :: low :: rest,_,decoded => by
    simp only [hexBytes,Option.bind_eq_bind,Option.bind_eq_some_iff] at decoded
    obtain ⟨h,first,l,second,more,tail,_⟩ := decoded
    intro c member
    rcases List.mem_cons.mp member with rfl | member
    · rw [isAsciiHexdigit,first]
      rfl
    rcases List.mem_cons.mp member with rfl | member
    · rw [isAsciiHexdigit,second]
      rfl
    · exact hexBytes_digits rest tail c member

theorem visible_hex {text : String} (hex : (hexDecode text).isSome = true) : visible text = true := by
  obtain ⟨bytes,decoded⟩ := Option.isSome_iff_exists.mp hex
  exact List.all_eq_true.mpr (fun c member => visible_hexdigit (hexBytes_digits _ decoded c member))

theorem visible_objectId {raw objectId : String} (equal : sanitizeSuiObjectId raw = .ok objectId) :
    visible objectId = true := by
  obtain ⟨digits,text,_,hex⟩ := sanitize_spelled equal
  unfold visible
  rw [text]
  refine List.all_eq_true.mpr ?_
  intro c member
  rcases List.mem_cons.mp member with rfl | member
  · decide
  rcases List.mem_cons.mp member with rfl | member
  · decide
  · exact visible_hexdigit (hex c member).hex

theorem mem_join {words : List (List Char)} {c : Char} (member : c ∈ Text.join words) : c = ' ' ∨ ∃ word ∈ words, c ∈ word := by
  induction words with
  | nil => cases member
  | cons word rest ih =>
    cases rest with
    | nil =>
      simp [Text.join,List.intercalate] at member
      exact .inr ⟨word,List.mem_cons_self,member⟩
    | cons next more =>
      have split : Text.join (word :: next :: more) = word ++ ' ' :: Text.join (next :: more) := by
        simp [Text.join,List.intercalate]
      rw [split] at member
      rcases List.mem_append.mp member with here | later
      · exact .inr ⟨word,List.mem_cons_self,here⟩
      rcases List.mem_cons.mp later with blank | later
      · exact .inl blank
      · rcases ih later with blank | ⟨other,listed,there⟩
        · exact .inl blank
        · exact .inr ⟨other,List.mem_cons_of_mem _ listed,there⟩

theorem visible_scope {raw scope : String} (equal : normalizeScopes raw = .ok scope) : visible scope = true := by
  unfold normalizeScopes at equal
  split at equal
  · cases equal
  · cases equal
  · rename_i scopes _ collected
    cases equal
    refine List.all_eq_true.mpr ?_
    intro c member
    rw [joinScopes,String.toList_ofList] at member
    rcases mem_join member with rfl | ⟨word,listed,there⟩
    · decide
    obtain ⟨scope,known,rfl⟩ := List.mem_map.mp listed
    have supported : ∀ scope ∈ supportedScopes, visible scope = true := by decide
    rcases collectScopes_mem collected known with none_ | ⟨_,known⟩
    · cases none_
    · exact List.all_eq_true.mp (supported scope known) c there

end Visible

-- What a bearer is resolved to in a run of the server.
section Resolved
variable {kit : Kit} {cfg : McpOAuthConfig} {clock : Int} {objects : Store String ObjectContent} {acts : List OAuth.Act}

theorem checkScope_normalizes {query : AuthorizeQuery} {client : ClientRow} {scope : String}
    (equal : checkScope query client = .ok scope) : normalizeScopes (requestedScope query client) = .ok scope := by
  unfold checkScope at equal
  split at equal
  · rename_i normalized ok
    split at equal
    · cases equal
      exact ok
    · cases equal
  · cases equal

structure Shown (identity : ResolvedOAuthIdentity) : Prop where
  key : visible identity.delegatePrivateKey = true
  account : visible identity.accountId = true
  scope : visible identity.scope = true

-- No part of a resolved grant is refused as the value of a header.
theorem identity_shown (keys : ∀ n, (hexDecode (kit.keyPair n).privateKey).isSome = true) {i worker : Nat}
    {presented : String} {identity : ResolvedOAuthIdentity}
    (served : Served kit cfg (fresh clock objects) acts i worker (.bearer presented) (.ok (.identity identity))) :
    Shown identity := by
  obtain ⟨p,_,_,_,row,_,_,_,found,decrypted,resolved⟩ := bearer_lookup served
  obtain ⟨token,grant,delegate,_,granted,held,same⟩ := tokenWithDelegate_some.mp found
  have descent := descent_at kit cfg clock objects acts p
  obtain ⟨sha,code,redeemed,terms⟩ := descent.grants _ _ granted
  have completed := descent.redeemed _ _ redeemed
  have account : identity.accountId = code.accountId := by
    rw [resolved,same]
    exact congrArg GrantRow.accountId terms
  have scope : identity.scope = code.scope := by
    rw [resolved,same]
    exact congrArg GrantRow.scope terms
  refine ⟨?_,?_,?_⟩
  · obtain ⟨n,sealed_⟩ := descent.delegates _ _ held
    have opens := kit.decrypt_encrypt _ _ _ _ sealed_.envelope
    rw [same] at decrypted
    rw [← Option.some.inj (opens.symm.trans decrypted)]
    exact visible_hex (keys n)
  · obtain ⟨q,sessionId,earlier,session,chosen,_,completedAt⟩ := completed_at completed
    obtain ⟨_,_,_,_,_,_,_,_,_,_,_,completion⟩ := completedAt.request
    have named := completion.named
    simp only [checkComplete,Fallible.bind_ok] at named
    obtain ⟨accountId,sanitized,_,_,_,_,_,_,equal⟩ := named
    cases equal
    rw [account]
    exact visible_objectId sanitized
  · obtain ⟨_,session,consumed,coded⟩ := descent.completed _ _ completed
    obtain ⟨first,query,opened,equal⟩ := descent.consumed _ _ consumed
    obtain ⟨client,_,holds⟩ := descent.opened _ _ _ opened
    rw [scope,coded.scope,equal]
    exact visible_scope (checkScope_normalizes holds.scope)

-- A bearer is resolved to one grant, at any two moments.
theorem sameBearer {i j worker worker' : Nat} {presented : String} {identity identity' : ResolvedOAuthIdentity}
    (served : Served kit cfg (fresh clock objects) acts i worker (.bearer presented) (.ok (.identity identity)))
    (served' : Served kit cfg (fresh clock objects) acts j worker' (.bearer presented) (.ok (.identity identity'))) :
    identity = identity' := by
  obtain ⟨p,_,_,_,row,_,_,_,found,decrypted,resolved⟩ := bearer_lookup served
  obtain ⟨q,_,_,_,other,_,_,_,found',decrypted',resolved'⟩ := bearer_lookup served'
  refine sameIdentity found found' decrypted decrypted' resolved resolved' ?_
  obtain ⟨token,_,_,there,_,_,same⟩ := tokenWithDelegate_some.mp found
  obtain ⟨token',_,_,there',_,_,same'⟩ := tokenWithDelegate_some.mp found'
  have grants : token.grantId = token'.grantId := by
    rcases Nat.le_total p q with order | order
    · obtain ⟨next,found,grant,_⟩ := (later_between order).tokens _ _ there
      cases there'.symm.trans found
      exact grant.symm
    · obtain ⟨next,found,grant,_⟩ := (later_between order).tokens _ _ there'
      cases there.symm.trans found
      exact grant
  rw [resolved,resolved',same,same']
  exact grants

end Resolved

-- A request whose bearer, if it is looked up, is resolved in a run of the server.
def From (kit : Kit) (cfg : McpOAuthConfig) (start : OAuth.World) (acts : List OAuth.Act) (inbound : HeaderMap)
    (resolved : Except OAuthBearerError ResolvedOAuthIdentity) : Prop :=
  ∀ identity, resolved = .ok identity → ∃ token i worker, bearerOf inbound = some token ∧
    Served kit cfg start acts i worker (.bearer token) (.ok (.identity identity))

-- That a request tells the sidecar no more about its caller than its grant does, and
-- nothing about a scope when it has no grant.
structure Unforged (oauthEnabled : Bool) (inbound other : HeaderMap) (clientIp clientIp' : String)
    (resolved resolved' : Except OAuthBearerError ResolvedOAuthIdentity) : Prop where
  granted : ∀ identity, classifyAndResolve oauthEnabled inbound resolved = .oauth identity →
    ∃ out, proxied oauthEnabled inbound clientIp resolved = .ok out ∧
      out.get? authorizationHeader = some ("Bearer " ++ identity.delegatePrivateKey) ∧
      out.get? accountIdHeader = some identity.accountId ∧ out.get? scopeHeader = some identity.scope
  same : ∀ identity identity', classifyAndResolve oauthEnabled inbound resolved = .oauth identity →
    classifyAndResolve oauthEnabled other resolved' = .oauth identity' → bearerOf inbound = bearerOf other →
    ∃ out out', proxied oauthEnabled inbound clientIp resolved = .ok out ∧
      proxied oauthEnabled other clientIp' resolved' = .ok out' ∧
      ∀ name ∈ [authorizationHeader,accountIdHeader,scopeHeader], out.get? name = out'.get? name
  trusted : ∀ out text, proxied oauthEnabled inbound clientIp resolved = .ok out → out.get? scopeHeader = some text →
    ∃ identity, classifyAndResolve oauthEnabled inbound resolved = .oauth identity ∧ text = identity.scope

section Forging
variable {oauthEnabled : Bool} {inbound : HeaderMap} {clientIp : String}
  {resolved : Except OAuthBearerError ResolvedOAuthIdentity} {identity : ResolvedOAuthIdentity}

theorem classify_oauth (outcome : classifyAndResolve oauthEnabled inbound resolved = .oauth identity) :
    resolved = .ok identity := by
  unfold classifyAndResolve at outcome
  split at outcome
  · cases outcome
  · split at outcome
    · cases outcome
    · split at outcome
      · cases outcome
      · split at outcome <;> cases outcome
        rfl

theorem proxied_oauth (outcome : classifyAndResolve oauthEnabled inbound resolved = .oauth identity) (shown : Shown identity) :
    ∃ out, proxied oauthEnabled inbound clientIp resolved = .ok out ∧
      out.get? authorizationHeader = some ("Bearer " ++ identity.delegatePrivateKey) ∧
      out.get? accountIdHeader = some identity.accountId ∧ out.get? scopeHeader = some identity.scope := by
  refine ⟨applyOauthHeaders (setHeader (buildForwardedHeaders inbound) clientIpHeader clientIp) identity,?_,?_⟩
  · simp only [proxied,outcome]
  · exact applied_get (visible_append (by decide) shown.key) shown.account shown.scope

-- A request that is passed on carries the scope header if it came with one.
theorem passed_scope (clientIp : String) (outcome : classifyAndResolve oauthEnabled inbound resolved = .passthrough) :
    ∃ out, proxied oauthEnabled inbound clientIp resolved = .ok out ∧
      ((out.get? scopeHeader).isSome = true ↔ ∃ header ∈ inbound, toAsciiLowercase header.1 = scopeHeader) := by
  refine ⟨setHeader (buildForwardedHeaders inbound) clientIpHeader clientIp,by simp only [proxied,outcome],?_⟩
  rw [setHeader_other (by decide),forwarded_iff]
  constructor
  · intro found
    obtain ⟨header,member,_,named⟩ := found
    exact ⟨header,member,named⟩
  · intro found
    obtain ⟨header,member,named⟩ := found
    refine ⟨header,member,?_,named⟩
    unfold shouldForward
    rw [named]
    decide

end Forging

theorem unforged_of {kit : Kit} {cfg : McpOAuthConfig} {clock : Int} {objects : Store String ObjectContent}
    {acts : List OAuth.Act} {oauthEnabled : Bool} {inbound other : HeaderMap} {clientIp clientIp' : String}
    {resolved resolved' : Except OAuthBearerError ResolvedOAuthIdentity}
    (keys : ∀ n, (hexDecode (kit.keyPair n).privateKey).isSome = true)
    (from_ : From kit cfg (fresh clock objects) acts inbound resolved)
    (from' : From kit cfg (fresh clock objects) acts other resolved') :
    Unforged oauthEnabled inbound other clientIp clientIp' resolved resolved' ↔
      (classifyAndResolve oauthEnabled inbound resolved = .passthrough →
        ∀ header ∈ inbound, toAsciiLowercase header.1 ≠ scopeHeader) := by
  constructor
  · intro unforged passed header member named
    obtain ⟨out,sent,scope⟩ := passed_scope clientIp passed
    obtain ⟨text,there⟩ := Option.isSome_iff_exists.mp (scope.mpr ⟨header,member,named⟩)
    obtain ⟨identity,outcome,_⟩ := unforged.trusted out text sent there
    rw [passed] at outcome
    cases outcome
  · intro unnamed
    have shown : ∀ identity, classifyAndResolve oauthEnabled inbound resolved = .oauth identity → Shown identity := by
      intro identity outcome
      obtain ⟨token,i,worker,_,served⟩ := from_ identity (classify_oauth outcome)
      exact identity_shown keys served
    refine ⟨fun identity outcome => proxied_oauth outcome (shown identity outcome),?_,?_⟩
    · intro identity identity' outcome outcome' bearer
      obtain ⟨token,i,worker,holds,served⟩ := from_ identity (classify_oauth outcome)
      obtain ⟨token',j,worker',holds',served'⟩ := from' identity' (classify_oauth outcome')
      have equal : token = token' := Option.some.inj (holds.symm.trans (bearer.trans holds'))
      subst equal
      have same := sameBearer served served'
      subst same
      obtain ⟨out,sent,key,account,scope⟩ := proxied_oauth outcome (shown identity outcome)
      obtain ⟨out',sent',key',account',scope'⟩ := proxied_oauth outcome' (shown identity outcome)
      refine ⟨out,out',sent,sent',?_⟩
      intro name listed
      simp only [List.mem_cons,List.not_mem_nil,or_false] at listed
      rcases listed with rfl | rfl | rfl
      · rw [key,key']
      · rw [account,account']
      · rw [scope,scope']
    · intro out text sent there
      cases outcome : classifyAndResolve oauthEnabled inbound resolved with
      | passthrough =>
        obtain ⟨out',sent',scope⟩ := passed_scope clientIp outcome
        cases sent.symm.trans sent'
        obtain ⟨header,member,named⟩ := scope.mp (by rw [there]; rfl)
        exact absurd named (unnamed outcome header member)
      | oauth identity =>
        obtain ⟨out',sent',_,_,scope⟩ := proxied_oauth outcome (shown identity outcome)
        cases sent.symm.trans sent'
        exact ⟨identity,rfl,Option.some.inj (there.symm.trans scope)⟩
      | unauthorized error =>
        simp only [proxied,outcome] at sent
        cases sent

-- Nothing is forged unless a request that is passed on comes with the scope header.
theorem unforged_iff (kit : Kit) (cfg : McpOAuthConfig) (clock : Int) (objects : Store String ObjectContent)
    (acts : List OAuth.Act) (oauthEnabled : Bool) (inbound other : HeaderMap) (clientIp clientIp' : String)
    (resolved resolved' : Except OAuthBearerError ResolvedOAuthIdentity)
    (keys : ∀ n, (hexDecode (kit.keyPair n).privateKey).isSome = true)
    (from_ : From kit cfg (fresh clock objects) acts inbound resolved)
    (from' : From kit cfg (fresh clock objects) acts other resolved') :
    Unforged oauthEnabled inbound other clientIp clientIp' resolved resolved' ↔
      (classifyAndResolve oauthEnabled inbound resolved = .passthrough →
        ∀ header ∈ inbound, toAsciiLowercase header.1 ≠ scopeHeader) :=
  unforged_of keys from_ from'

def testBearer : String × String := ("Authorization","Bearer " ++ String.ofList (List.replicate 64 'a'))

theorem testKit_keys (n : Nat) : (hexDecode (testKit.keyPair n).privateKey).isSome = true :=
  (by decide : (hexDecode "").isSome = true)

-- A kit whose private keys are hex texts that are not empty.
def hexKit : Kit := {testKit with
  keyPair := fun n => ⟨"0f",String.ofList (List.replicate 2 (Nat.digitChar (n % 10))),""⟩}

theorem hexKit_keys (n : Nat) : (hexDecode (hexKit.keyPair n).privateKey).isSome = true :=
  (by decide +kernel : (hexDecode "0f").isSome = true)

-- A client gets its tokens, and two requests come with the access token.
def bearerActs : List OAuth.Act := List.flatten [
  flowActs "http://localhost:1/callback",
  [.spawn 3 (.token none {testToken with redirectUri := some "http://localhost:1/callback"})],List.replicate 7 (.step 3 {}),
  [.spawn 4 (.bearer "mwo_xxxxxxx")],List.replicate 2 (.step 4 {}),
  [.spawn 5 (.bearer "mwo_xxxxxxx")],List.replicate 2 (.step 5 {})]

def bearerIdentity : ResolvedOAuthIdentity := ⟨testAccount,"0f","mwg_xxxxxx",defaultScopes⟩

theorem bearer_served : Served hexKit testConfig (fresh 0 testChain) bearerActs 27 4 (.bearer "mwo_xxxxxxx")
      (.ok (.identity bearerIdentity)) ∧
    Served hexKit testConfig (fresh 0 testChain) bearerActs 30 5 (.bearer "mwo_xxxxxxx")
      (.ok (.identity bearerIdentity)) := by
  decide +kernel

-- The caller of the first request names a scope and an account of its own.
def bearerHeaders : HeaderMap := [("Authorization","Bearer mwo_xxxxxxx"),("X-MemWal-Internal-OAuth-Scope","memwal:admin"),
  ("X-MemWal-Account-Id","0x1")]

def plainHeaders : HeaderMap := [("Authorization","Bearer mwo_xxxxxxx")]

theorem bearer_unforged : Unforged true bearerHeaders plainHeaders "::1" "::2" (.ok bearerIdentity) (.ok bearerIdentity) ∧
    Unforged true [testBearer,("X-MemWal-Account-Id","0x1")] plainHeaders "::1" "::2" (.error .notOAuthToken)
      (.ok bearerIdentity) := by
  have first : From hexKit testConfig (fresh 0 testChain) bearerActs bearerHeaders (.ok bearerIdentity) := by
    intro identity same
    cases same
    exact ⟨"mwo_xxxxxxx",27,4,by decide +kernel,bearer_served.1⟩
  have second : From hexKit testConfig (fresh 0 testChain) bearerActs plainHeaders (.ok bearerIdentity) := by
    intro identity same
    cases same
    exact ⟨"mwo_xxxxxxx",30,5,by decide +kernel,bearer_served.2⟩
  have legacy : From hexKit testConfig (fresh 0 testChain) bearerActs [testBearer,("X-MemWal-Account-Id","0x1")]
      (.error .notOAuthToken) := by
    intro identity same
    cases same
  constructor
  · apply (unforged_iff hexKit testConfig 0 testChain bearerActs true bearerHeaders plainHeaders "::1" "::2"
      (.ok bearerIdentity) (.ok bearerIdentity) hexKit_keys first second).mpr
    decide +kernel
  · apply (unforged_iff hexKit testConfig 0 testChain bearerActs true [testBearer,("X-MemWal-Account-Id","0x1")]
      plainHeaders "::1" "::2" (.error .notOAuthToken) (.ok bearerIdentity) hexKit_keys legacy second).mpr
    decide +kernel

def forgedHeaders : HeaderMap := [testBearer,("X-MemWal-Internal-OAuth-Scope","memwal:write")]

theorem forged_passed : classifyAndResolve true forgedHeaders (.error .notOAuthToken) = .passthrough := by decide +kernel

theorem forged_named : ∃ header ∈ forgedHeaders, toAsciiLowercase header.1 = scopeHeader := by decide +kernel

-- A caller with a delegate key of its own chooses the scope that the sidecar reads.
theorem scope_forged : ¬ ∀ (kit : Kit) (cfg : McpOAuthConfig) (clock : Int) (objects : Store String ObjectContent)
    (acts : List OAuth.Act) (oauthEnabled : Bool) (inbound other : HeaderMap) (clientIp clientIp' : String)
    (resolved resolved' : Except OAuthBearerError ResolvedOAuthIdentity),
    (∀ n, (hexDecode (kit.keyPair n).privateKey).isSome = true) →
    From kit cfg (fresh clock objects) acts inbound resolved → From kit cfg (fresh clock objects) acts other resolved' →
    Unforged oauthEnabled inbound other clientIp clientIp' resolved resolved' := by
  intro always
  have unforged := always testKit testConfig 0 .empty [] true forgedHeaders [] "::1" "::1" (.error .notOAuthToken)
    (.error .notOAuthToken) testKit_keys nofun nofun
  obtain ⟨out,sent,scope⟩ := passed_scope "::1" forged_passed
  obtain ⟨text,there⟩ := Option.isSome_iff_exists.mp (scope.mpr forged_named)
  obtain ⟨identity,outcome,_⟩ := unforged.trusted out text sent there
  rw [forged_passed] at outcome
  cases outcome

end MemWal.Mcp
