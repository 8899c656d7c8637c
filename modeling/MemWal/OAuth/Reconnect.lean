import MemWal.OAuth.ObjectIds
import MemWal.OAuth.Reconnecting

namespace MemWal.OAuth
open Library Auth

-- The keys of the account once the owner has followed the answer.
def keysThen (s : World) (raw : String) (session : SessionRow) (keys : List Bytes) : List Bytes :=
  match s.reusable raw,(s.delegates.get? session.delegateRef).bind (fun row => hexDecode row.delegatePublicKey) with
  | [],some key => addDelegateKey key keys
  | _,_ => keys

-- Whichever active row of the account is the latest, its key is still on chain.
def ReusableOnChain (s : World) (raw accountId : String) (session : SessionRow) (keys : List Bytes) : Prop :=
  ∀ e ∈ s.reusable accountId, ∃ key ∈ keysThen s raw session keys, hexDecode e.2.delegatePublicKey = some key

-- Nothing is added when the answer is a stored key.
theorem keysThen_stored {s : World} {raw : String} {session : SessionRow} {keys : List Bytes} (some_ : s.reusable raw ≠ []) :
    keysThen s raw session keys = keys := by
  unfold keysThen
  split
  · rename_i empty _
    exact absurd empty some_
  · rfl

theorem mem_addDelegateKey {key : Bytes} {keys : List Bytes} (room : keys.length < Account.maxDelegateKeys) :
    key ∈ addDelegateKey key keys := by
  unfold addDelegateKey
  split
  · exact List.mem_append_right _ List.mem_cons_self
  · rename_i full
    by_contra missing
    exact full ⟨missing,room⟩

section Completing
variable {kit : Kit} {cfg : McpOAuthConfig} {worker : Nat} {s : World}

-- What is left of a completion once its session is consumed.
theorem consumed_alone {accountId owner ownerAddress txDigest : String} {session : SessionRow} {row : DelegateRow}
    {keys : List Bytes} (own : s.delegates.get? session.delegateRef = some row)
    (hex : ∀ ref row, s.delegates.get? ref = some row → (hexDecode row.delegatePublicKey).isSome = true)
    (account : s.objects.get? accountId =
      some ⟨some (memwalAccountType cfg.account),some ⟨some owner,some true,some keys⟩⟩)
    (same : eqIgnoreAsciiCase owner ownerAddress = true) (parses : (kit.parseUrl session.redirectUri).isSome = true)
    (fresh : s.codes.get? (kit.hash (codePrefix ++ kit.random s.drawn)) = none) :
    Alone (serves kit worker) Smooth Redirects (do
        let chosen ← chooseDelegate session accountId
        let verifiedOwner ← verifyDelegate cfg ⟨accountId,ownerAddress⟩ chosen.delegate
        activate chosen accountId verifiedOwner txDigest
        issueCode kit cfg session ⟨accountId,ownerAddress⟩ chosen.delegateRef) s ↔
      (s.reusable accountId = [] → ∃ key ∈ keys, hexDecode row.delegatePublicKey = some key) ∧
      ∀ e ∈ s.reusable accountId, ∃ key ∈ keys, hexDecode e.2.delegatePublicKey = some key := by
  have one : ∀ (chosen : Chosen), (hexDecode chosen.delegate.delegatePublicKey).isSome = true →
      (Alone (serves kit worker) Smooth Redirects (do
        let verifiedOwner ← verifyDelegate cfg ⟨accountId,ownerAddress⟩ chosen.delegate
        activate chosen accountId verifiedOwner txDigest
        issueCode kit cfg session ⟨accountId,ownerAddress⟩ chosen.delegateRef) s ↔
      ∃ key ∈ keys, hexDecode chosen.delegate.delegatePublicKey = some key) := by
    intro chosen some_
    obtain ⟨key,equal⟩ := Option.isSome_iff_exists.mp some_
    rw [verifyDelegate_alone equal account same]
    constructor
    · exact fun both => ⟨key,both.1,equal⟩
    · intro found
      obtain ⟨other,listed,equal'⟩ := found
      cases equal.symm.trans equal'
      refine ⟨listed,?_⟩
      rw [activate_alone]
      apply issueCode_alone _ _ _ parses
      cases chosen.isReused with
      | true => exact fresh
      | false => exact fresh
  have listed : ∀ e ∈ s.reusable accountId, (hexDecode e.2.delegatePublicKey).isSome = true := by
    intro e member
    simp only [World.reusable,List.mem_filter] at member
    exact hex e.1 e.2 (Store.get?_eq_some.mpr member.1.1)
  refine (chooseDelegate_alone own).trans ?_
  refine and_congr (imp_congr_right (fun _ => one ⟨session.delegateRef,row,false⟩ (hex _ _ own))) ?_
  exact forall_congr' (fun e => forall_congr' (fun member => one ⟨e.1,e.2,true⟩ (listed e member)))

-- What a completion that has been asked for turns on.
theorem completion_alone {sessionId accountId owner ownerAddress : String} {req : SessionCompleteRequest}
    {session : SessionRow} {row : DelegateRow} {keys : List Bytes}
    (parsed : checkComplete req = .ok ⟨accountId,ownerAddress⟩) (found : s.sessions.get? sessionId = some session)
    (pending : session.status = .pending) (unexpired : s.clock < session.expiresAt)
    (own : s.delegates.get? session.delegateRef = some row)
    (hex : ∀ ref row, s.delegates.get? ref = some row → (hexDecode row.delegatePublicKey).isSome = true)
    (account : s.objects.get? accountId =
      some ⟨some (memwalAccountType cfg.account),some ⟨some owner,some true,some keys⟩⟩)
    (same : eqIgnoreAsciiCase owner ownerAddress = true) (parses : (kit.parseUrl session.redirectUri).isSome = true)
    (fresh : s.codes.get? (kit.hash (codePrefix ++ kit.random s.drawn)) = none) :
    Alone (serves kit worker) Smooth Redirects (sessionComplete kit cfg sessionId req) s ↔
      (s.reusable accountId = [] → ∃ key ∈ keys, hexDecode row.delegatePublicKey = some key) ∧
      ∀ e ∈ s.reusable accountId, ∃ key ∈ keys, hexDecode e.2.delegatePublicKey = some key := by
  have consumed : (s.consumeOauthSession sessionId).1 = {s with
      sessions := s.sessions.put sessionId {session with status := .consumed}
      log := s.log ++ [.sessionConsumed sessionId {session with status := .consumed}]} := by
    simp [World.consumeOauthSession,found,pending,unexpired]
  rw [sessionComplete_alone parsed found pending unexpired,consumed]
  refine (@consumed_alone _ _ _ _ _ owner _ _ _ row keys ?_ ?_ ?_ same parses ?_).trans Iff.rfl
  · exact own
  · exact hex
  · exact account
  · exact fresh

end Completing

section Reconnecting
variable {kit : Kit} {cfg : McpOAuthConfig} {worker : Nat} {s : World} {sessionId raw accountId : String}
  {req : SessionCompleteRequest} {session : SessionRow} {keys : List Bytes}

theorem redirectUriMatches_parses {candidate registered : String} (matched : redirectUriMatches kit candidate registered = true) :
    (kit.parseUrl candidate).isSome = true ∧ (kit.parseUrl registered).isSome = true := by
  unfold redirectUriMatches parseRedirectUrl at matched
  cases first : kit.parseUrl candidate <;> cases second : kit.parseUrl registered <;> simp_all

theorem Descent.parses (descent : Descent kit cfg s) (found : s.sessions.get? sessionId = some session) :
    (kit.parseUrl session.redirectUri).isSome = true := by
  obtain ⟨first,query,opened,equal⟩ := descent.sessions _ _ found
  obtain ⟨client,_,opened⟩ := descent.opened _ _ _ opened
  have matched := List.find?_some opened.redirectUri
  rw [equal]
  exact (redirectUriMatches_parses matched).2

theorem Descent.hex (descent : Descent kit cfg s) (delegateRef : String) (row : DelegateRow)
    (found : s.delegates.get? delegateRef = some row) : (hexDecode row.delegatePublicKey).isSome = true := by
  obtain ⟨n,sealed_⟩ := descent.delegates _ _ found
  rw [sealed_.publicKey]
  exact kit.publicKey_hex n

theorem Codes.unused (codes : Codes kit s) : s.codes.get? (kit.hash (codePrefix ++ kit.random s.drawn)) = none := by
  cases found : s.codes.get? (kit.hash (codePrefix ++ kit.random s.drawn)) with
  | none => rfl
  | some code =>
    obtain ⟨n,small,same⟩ := codes.drawn _ (.inl (by rw [found]; rfl))
    exact absurd same (hash_new small)

-- A spelling under which rows are stored is the one that is stored.
theorem Stocked.spelling (stocked : Stocked s) (spelled : sanitizeSuiObjectId raw = .ok accountId)
    (some_ : s.reusable raw ≠ []) : raw = accountId := by
  obtain ⟨e,member⟩ := List.exists_mem_of_ne_nil _ some_
  simp only [World.reusable,List.mem_filter,decide_eq_true_eq] at member
  obtain ⟨other,sanitized⟩ := stocked.spelled _ _ _ (Store.get?_eq_some.mpr member.1.1) member.1.2.1
  have same := (sanitize_of_canonical (sanitize_spelled sanitized)).symm.trans spelled
  cases same
  rfl

theorem answers {P : Reply → Prop} (reply : Reply) :
    (∃ other, (.ok reply : Except Failure Reply) = .ok other ∧ P other) ↔ P reply := by
  constructor
  · intro found
    obtain ⟨other,equal,holds⟩ := found
    cases equal
    exact holds
  · exact fun holds => ⟨reply,rfl,holds⟩

-- Which completions a reconnection may lead to.
theorem reconnects_answered {row : DelegateRow} (found : s.sessions.get? sessionId = some session)
    (unexpired : s.clock < session.expiresAt) (own : s.delegates.get? session.delegateRef = some row) :
    Reconnects kit cfg worker s sessionId raw accountId req ↔
      (s.reusable raw = [] → Alone (serves kit worker) Smooth Redirects (sessionComplete kit cfg sessionId req)
        (ownerFollows s accountId (.account true row.delegatePublicKey row.delegateAddress))) ∧
      ∀ e ∈ s.reusable raw, Alone (serves kit worker) Smooth Redirects (sessionComplete kit cfg sessionId req)
        (ownerFollows s accountId (.account false e.2.delegatePublicKey e.2.delegateAddress)) := by
  refine (sessionAccount_alone found unexpired own).trans ?_
  refine and_congr (imp_congr_right (fun _ => answers _)) ?_
  exact forall_congr' (fun e => imp_congr_right (fun _ => answers _))

theorem reconnects_of (descent : Descent kit cfg s) (stocked : Stocked s) (codes : Codes kit s)
    (connecting : Connecting kit cfg s sessionId raw accountId req session keys) :
    Reconnects kit cfg worker s sessionId raw accountId req ↔ ReusableOnChain s raw accountId session keys := by
  obtain ⟨owner,ownerAddress,account,parsed,same⟩ := connecting.account
  obtain ⟨row,own⟩ := Option.isSome_iff_exists.mp (stocked.keyed _ _ connecting.found)
  obtain ⟨key,decoded⟩ := Option.isSome_iff_exists.mp (descent.hex _ _ own)
  rw [reconnects_answered connecting.found connecting.unexpired own]
  unfold ReusableOnChain
  by_cases none_ : s.reusable raw = []
  · -- the owner adds the key of the session
    have follows : ownerFollows s accountId (.account true row.delegatePublicKey row.delegateAddress) =
        {s with objects := (s.objects.upsert accountId
          ⟨some (memwalAccountType cfg.account),some ⟨some owner,some true,some (addDelegateKey key keys)⟩⟩)} := by
      simp only [ownerFollows,decoded,account,Option.map_some,ObjectContent.addKey,happen]
    have added : (ownerFollows s accountId (.account true row.delegatePublicKey row.delegateAddress)).objects.get? accountId =
        some ⟨some (memwalAccountType cfg.account),some ⟨some owner,some true,some (addDelegateKey key keys)⟩⟩ := by
      rw [follows]
      simp
    have completes : Alone (serves kit worker) Smooth Redirects (sessionComplete kit cfg sessionId req)
        (ownerFollows s accountId (.account true row.delegatePublicKey row.delegateAddress)) ↔
        (s.reusable accountId = [] → ∃ k ∈ addDelegateKey key keys, hexDecode row.delegatePublicKey = some k) ∧
        ∀ e ∈ s.reusable accountId, ∃ k ∈ addDelegateKey key keys, hexDecode e.2.delegatePublicKey = some k := by
      rw [follows] at added ⊢
      exact completion_alone parsed connecting.found connecting.pending connecting.unexpired own descent.hex added
        same (descent.parses connecting.found) codes.unused
    have then_ : keysThen s raw session keys = addDelegateKey key keys := by
      simp only [keysThen,none_,own,Option.bind_some,decoded]
    rw [then_,completes]
    constructor
    · exact fun answered => (answered.1 none_).2
    · intro listed
      refine ⟨fun _ => ⟨fun _ => ⟨key,mem_addDelegateKey connecting.room,decoded⟩,listed⟩,?_⟩
      intro e member
      rw [none_] at member
      cases member
  · -- the account is named as its rows are, and one of them is answered
    cases stocked.spelling connecting.spelled none_
    have completes := @completion_alone _ _ worker _ _ _ _ _ _ _ _ _ parsed connecting.found connecting.pending connecting.unexpired
      own descent.hex account same (descent.parses connecting.found) codes.unused
    rw [keysThen_stored none_]
    have each : (∀ e ∈ s.reusable raw, Alone (serves kit worker) Smooth Redirects (sessionComplete kit cfg sessionId req)
        (ownerFollows s raw (.account false e.2.delegatePublicKey e.2.delegateAddress))) ↔
        ∀ e ∈ s.reusable raw, (s.reusable raw = [] → ∃ k ∈ keys, hexDecode row.delegatePublicKey = some k) ∧
          ∀ e ∈ s.reusable raw, ∃ k ∈ keys, hexDecode e.2.delegatePublicKey = some k :=
      forall_congr' (fun e => imp_congr_right (fun _ => completes))
    simp only [each,none_,false_implies,true_and]
    constructor
    · intro answered
      obtain ⟨e,member⟩ := List.exists_mem_of_ne_nil _ none_
      exact answered e member
    · exact fun listed _ _ => listed

end Reconnecting

-- An account reconnects unless the latest of its active keys is off the chain.
theorem reconnects_iff (kit : Kit) (cfg : McpOAuthConfig) (clock : Int) (objects : Store String ObjectContent)
    (acts : List Act) (i worker : Nat) (sessionId raw accountId : String) (req : SessionCompleteRequest)
    (session : SessionRow) (keys : List Bytes)
    (connecting : Connecting kit cfg (at_ kit cfg (fresh clock objects) acts i).shared sessionId raw accountId req
      session keys) :
    Reconnects kit cfg worker (at_ kit cfg (fresh clock objects) acts i).shared sessionId raw accountId req ↔
      ReusableOnChain (at_ kit cfg (fresh clock objects) acts i).shared raw accountId session keys :=
  reconnects_of (descent_at kit cfg clock objects acts i) (stocked_at kit cfg clock objects acts i)
    (custody_at kit cfg clock objects acts i).codes connecting

def testAccount : String := "0x" ++ String.ofList (List.replicate 64 'a')
def testOwner : String := "0x" ++ String.ofList (List.replicate 64 'b')

def testContent (keys : List Bytes) : ObjectContent :=
  ⟨some (memwalAccountType testConfig.account),some ⟨some testOwner,some true,some keys⟩⟩

def testChain : Store String ObjectContent := Store.empty.insert testAccount (testContent [])

def testRegistration : ClientRegistrationRequest := ⟨some "app",["http://localhost:1/callback"],none,none,none,none⟩

def testQuery (redirectUri : String) : AuthorizeQuery :=
  ⟨"code","mwc_",redirectUri,"verifier",some "S256",none,none,some "https://mcp.example/"⟩

def testComplete : SessionCompleteRequest := ⟨testAccount,testOwner,"signature","digest"⟩

def testSession (delegateRef : String) : SessionRow :=
  ⟨"mwc_","http://localhost:1/callback",none,defaultScopes,"https://mcp.example/","verifier",delegateRef,.pending,60000⟩

-- A client connects to the account, whose owner then removes its key, and connects again.
def testActs : List Act := List.flatten [
  [.spawn 0 (.register "ip" testRegistration)],List.replicate 2 (.step 0 {}),
  [.spawn 1 (.authorize (testQuery "http://localhost:1/callback"))],List.replicate 5 (.step 1 {}),
  [.outside (.object testAccount (some (testContent [[0x22]]))),.spawn 2 (.sessionComplete "mws_xxxx" testComplete)],
  List.replicate 8 (.step 2 {}),
  [.outside (.object testAccount (some (testContent []))),
    .spawn 3 (.authorize (testQuery "http://localhost:1/callback"))],List.replicate 5 (.step 3 {})]

theorem testAccount_spelled : sanitizeSuiObjectId testAccount = .ok testAccount := by decide +kernel

theorem testComplete_parsed : checkComplete testComplete = .ok ⟨testAccount,testOwner⟩ := by decide +kernel

theorem reconnects_first : Connecting testKit testConfig (at_ testKit testConfig (fresh 0 testChain) testActs 9).shared
      "mws_xxxx" testAccount testAccount testComplete (testSession "mwd_xxx") [] ∧
    Reconnects testKit testConfig 2 (at_ testKit testConfig (fresh 0 testChain) testActs 9).shared "mws_xxxx"
      testAccount testAccount testComplete := by
  have state : (at_ testKit testConfig (fresh 0 testChain) testActs 9).shared.sessions.get? "mws_xxxx" =
        some (testSession "mwd_xxx") ∧ (at_ testKit testConfig (fresh 0 testChain) testActs 9).shared.clock = 0 ∧
      (at_ testKit testConfig (fresh 0 testChain) testActs 9).shared.objects.get? testAccount = some (testContent []) ∧
      (at_ testKit testConfig (fresh 0 testChain) testActs 9).shared.reusable testAccount = [] := by decide +kernel
  obtain ⟨found,clock,account,none_⟩ := state
  have connecting : Connecting testKit testConfig (at_ testKit testConfig (fresh 0 testChain) testActs 9).shared
      "mws_xxxx" testAccount testAccount testComplete (testSession "mwd_xxx") [] := {
    found := found
    pending := rfl
    unexpired := by rw [clock]; decide
    spelled := testAccount_spelled
    account := ⟨testOwner,testOwner,account,testComplete_parsed,by simp [eqIgnoreAsciiCase]⟩
    room := by decide}
  refine ⟨connecting,(reconnects_iff testKit testConfig 0 testChain testActs 9 2 "mws_xxxx" testAccount testAccount
    testComplete (testSession "mwd_xxx") [] connecting).mpr ?_⟩
  intro e member
  rw [none_] at member
  cases member

-- The answer is that no key is to be added, and the completion is refused.
theorem locked_out : ¬ ∀ (kit : Kit) (cfg : McpOAuthConfig) (clock : Int) (objects : Store String ObjectContent)
    (acts : List Act) (i worker : Nat) (sessionId raw accountId : String) (req : SessionCompleteRequest)
    (session : SessionRow) (keys : List Bytes),
    Connecting kit cfg (at_ kit cfg (fresh clock objects) acts i).shared sessionId raw accountId req session keys →
    Reconnects kit cfg worker (at_ kit cfg (fresh clock objects) acts i).shared sessionId raw accountId req := by
  intro always
  have state : (at_ testKit testConfig (fresh 0 testChain) testActs 25).shared.sessions.get? "mws_xxxxxxxx" =
        some (testSession "mwd_xxxxxxx") ∧ (at_ testKit testConfig (fresh 0 testChain) testActs 25).shared.clock = 0 ∧
      (at_ testKit testConfig (fresh 0 testChain) testActs 25).shared.objects.get? testAccount = some (testContent []) ∧
      (at_ testKit testConfig (fresh 0 testChain) testActs 25).shared.reusable testAccount =
        [("mwd_xxx",⟨some testAccount,some testOwner,"22","","","app",.active,some "digest",0⟩)] := by decide +kernel
  obtain ⟨found,clock,account,stored⟩ := state
  have connecting : Connecting testKit testConfig (at_ testKit testConfig (fresh 0 testChain) testActs 25).shared
      "mws_xxxxxxxx" testAccount testAccount testComplete (testSession "mwd_xxxxxxx") [] := {
    found := found
    pending := rfl
    unexpired := by rw [clock]; decide
    spelled := testAccount_spelled
    account := ⟨testOwner,testOwner,account,testComplete_parsed,by simp [eqIgnoreAsciiCase]⟩
    room := by decide}
  have reconnects := always testKit testConfig 0 testChain testActs 25 3 _ _ _ _ _ _ connecting
  rw [reconnects_of (descent_at testKit testConfig 0 testChain testActs 25)
    (stocked_at testKit testConfig 0 testChain testActs 25) (custody_at testKit testConfig 0 testChain testActs 25).codes
    connecting] at reconnects
  unfold ReusableOnChain at reconnects
  rw [keysThen_stored (by rw [stored]; exact List.cons_ne_nil _ _),stored] at reconnects
  obtain ⟨key,listed,_⟩ := reconnects _ List.mem_cons_self
  cases listed

end MemWal.OAuth
