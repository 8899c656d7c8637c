import MemWal.OAuth.Reconnect

namespace MemWal.OAuth
open Library Auth

-- What is drawn so as to be told apart.
inductive Kind where
  | client | session | code
  deriving DecidableEq, Repr

def Kind.spell (kit : Kit) (n : Nat) : Kind → String
  | .client => clientIdPrefix ++ kit.random n
  | .session => sessionIdPrefix ++ kit.random n
  | .code => kit.hash (codePrefix ++ kit.random n)

def Fact.name? : Fact → Option (Kind × String)
  | .registered clientId _ => some (.client,clientId)
  | .opened sessionId _ _ => some (.session,sessionId)
  | .completed sha _ => some (.code,sha)
  | _ => none

-- No name is given twice.
structure Once (kit : Kit) (s : World) : Prop where
  drawn : ∀ fact ∈ s.log, ∀ name, fact.name? = some name → ∃ n, n < s.drawn ∧ name.2 = name.1.spell kit n
  once : ∀ fact ∈ s.log, ∀ other ∈ s.log, ∀ name, fact.name? = some name → other.name? = some name → fact = other

section Names
variable {kit : Kit} {cfg : McpOAuthConfig} {s now : World} {worker : Nat}

theorem Once.grow (once : Once kit s) (more : s.drawn ≤ now.drawn)
    (facts : ∀ fact ∈ now.log, fact ∈ s.log ∨ fact.name? = none) : Once kit now := by
  refine ⟨?_,?_⟩
  · intro fact member name named
    rcases facts fact member with old | nameless
    · obtain ⟨n,small,equal⟩ := once.drawn fact old name named
      exact ⟨n,Nat.lt_of_lt_of_le small more,equal⟩
    · rw [nameless] at named
      cases named
  · intro fact member other member' name named named'
    rcases facts fact member with old | nameless
    · rcases facts other member' with old' | nameless'
      · exact once.once fact old other old' name named named'
      · rw [nameless'] at named'
        cases named'
    · rw [nameless] at named
      cases named

theorem Kind.spell_inj {kind : Kind} {m n : Nat} (same : kind.spell kit m = kind.spell kit n) : m = n := by
  cases kind with
  | client => exact kit.hash_random clientIdPrefix m n (congrArg kit.hash same)
  | session => exact kit.hash_random sessionIdPrefix m n (congrArg kit.hash same)
  | code => exact kit.hash_random codePrefix m n same

theorem Once.unnamed (once : Once kit s) {kind : Kind} {fact : Fact} (member : fact ∈ s.log) :
    fact.name? ≠ some (kind,kind.spell kit s.drawn) := by
  intro named
  obtain ⟨n,small,equal⟩ := once.drawn fact member _ named
  have same := Kind.spell_inj equal
  omega

theorem Once.name (once : Once kit s) (kind : Kind) (new : Fact) (more : s.drawn < now.drawn)
    (named : new.name? = some (kind,kind.spell kit s.drawn))
    (facts : ∀ fact ∈ now.log, fact ∈ s.log ∨ fact = new) : Once kit now := by
  refine ⟨?_,?_⟩
  · intro fact member name has
    rcases facts fact member with old | rfl
    · obtain ⟨n,small,equal⟩ := once.drawn fact old name has
      exact ⟨n,Nat.lt_trans small more,equal⟩
    · cases named.symm.trans has
      exact ⟨s.drawn,more,rfl⟩
  · intro fact member other member' name has has'
    rcases facts fact member with old | rfl
    · rcases facts other member' with old' | rfl
      · exact once.once fact old other old' name has has'
      · cases named.symm.trans has'
        exact absurd has (once.unnamed old)
    · rcases facts other member' with old' | rfl
      · cases named.symm.trans has
        exact absurd has' (once.unnamed old')
      · rfl

theorem commit_drawn (op : Op) (c : Choice) : s.drawn ≤ (commit kit s worker op c).1.drawn := by
  cases op with
  | insertOauthClient client =>
    rcases insertOauthClient_cases kit s client with equal | ⟨_,_,_,equal⟩ <;> simp only [commit,equal] <;> omega
  | insertOauthDelegate key label =>
    rcases insertOauthDelegate_cases kit s key label with equal | ⟨_,_,_,equal⟩ <;> simp only [commit,equal] <;> omega
  | insertOauthSession session query =>
    rcases insertOauthSession_cases kit s session query with equal | ⟨_,_,_,equal⟩ <;> simp only [commit,equal] <;> omega
  | insertOauthCode code =>
    rcases insertOauthCode_cases kit s code with equal | ⟨_,equal⟩ <;> simp only [commit,equal] <;> omega
  | consumeOauthSession sessionId =>
    rcases consumeOauthSession_cases s sessionId with equal | ⟨_,_,_,_,equal⟩ <;> simp only [commit,equal] <;> omega
  | consumeOauthCode clientId sha =>
    rcases consumeOauthCode_cases s worker clientId sha with equal | ⟨_,_,_,_,equal⟩ <;> simp only [commit,equal] <;> omega
  | rotateOauthRefreshToken presented clientId access refresh =>
    rcases rotate_cases kit s presented clientId access refresh with ⟨_,_,equal⟩ | ⟨equal,_⟩ <;>
      simp only [commit,equal,afterRotation] <;> omega
  | insertOauthGrant grant =>
    simp only [commit,World.insertOauthGrant]
    repeat' (split <;> try dsimp only)
    all_goals omega
  | insertOauthToken start token =>
    simp only [commit,World.insertOauthToken]
    repeat' (split <;> try dsimp only)
    all_goals omega
  | _ => exact Nat.le_refl _

theorem commit_once (once : Once kit s) (op : Op) (c : Choice) : Once kit (commit kit s worker op c).1 := by
  have more := @commit_drawn kit s worker op c
  cases op with
  | insertOauthClient client =>
    simp only [commit,World.insertOauthClient]
    split
    · exact once.grow (by simp) (fun _ member => .inl member)
    · refine once.name .client (.registered (clientIdPrefix ++ kit.random s.drawn) (World.newClient kit s client
        (clientSecretPrefix ++ kit.random (s.drawn+1)))) (by simp) rfl ?_
      exact fun fact member => (List.mem_append.mp member).imp id List.mem_singleton.mp
  | insertOauthSession session query =>
    simp only [commit,World.insertOauthSession]
    split
    · exact once.grow (by simp) (fun _ member => .inl member)
    · refine once.name .session (.opened (sessionIdPrefix ++ kit.random s.drawn) session query) (by simp) rfl ?_
      exact fun fact member => (List.mem_append.mp member).imp id List.mem_singleton.mp
  | insertOauthCode code =>
    simp only [commit,World.insertOauthCode]
    split
    · exact once.grow (by simp) (fun _ member => .inl member)
    · refine once.name .code (.completed (kit.hash (codePrefix ++ kit.random s.drawn)) code) (by simp) rfl ?_
      exact fun fact member => (List.mem_append.mp member).imp id List.mem_singleton.mp
  | _ =>
    refine once.grow more ?_
    intro fact member
    rcases commit_notes member with old | notes
    · exact .inl old
    · cases fact with
      | registered _ _ => cases notes
      | opened _ _ _ => cases notes
      | completed _ _ => cases notes
      | _ => exact .inr rfl

theorem once_at (kit : Kit) (cfg : McpOAuthConfig) (clock : Int) (objects : Store String ObjectContent)
    (acts : List Act) (i : Nat) : Once kit (at_ kit cfg (fresh clock objects) acts i).shared := by
  refine Crew.invariant (J:=Once kit) (K:=fun _ _ _ _ => True) (fun _ _ _ _ => trivial) (fresh_recorded kit cfg clock objects)
    (fun _ _ _ _ _ _ _ => trivial)
    ⟨fun _ none_ => absurd none_ List.not_mem_nil,fun _ none_ => absurd none_ List.not_mem_nil⟩ ?_ ?_ ?_ i
  · intro s k op c _ _ _ once
    change Once kit (serve kit s k op c).1
    rcases serve_state kit s k op c with equal | equal
    · rw [equal]
      exact once
    · rw [equal]
      exact commit_once once op c
  · exact fun s k _ once => ⟨once.drawn,once.once⟩
  · intro s event _ once
    refine once.grow ?_ ?_
    · change s.drawn ≤ (happen s event).drawn
      cases event with
      | object objectId content => cases content <;> exact Nat.le_refl _
      | _ => exact Nat.le_refl _
    · intro fact member
      change fact ∈ (happen s event).log at member
      rw [happen_log] at member
      exact .inl member

theorem once_between {clock : Int} {objects : Store String ObjectContent} {acts : List Act} {i j : Nat} {fact other : Fact}
    (name : Kind × String) (first : fact ∈ (at_ kit cfg (fresh clock objects) acts i).shared.log)
    (second : other ∈ (at_ kit cfg (fresh clock objects) acts j).shared.log) (named : fact.name? = some name)
    (named' : other.name? = some name) : fact = other := by
  rcases Nat.le_total i j with order | order
  · exact (once_at kit cfg clock objects acts j).once _ ((later_between order).log.subset first) _ second _ named named'
  · exact (once_at kit cfg clock objects acts i).once _ first _ ((later_between order).log.subset second) _ named named'

end Names

-- A completion that answers with a redirect.
section Completing
variable {kit : Kit} {cfg : McpOAuthConfig} {worker : Nat} {calls : List Call}

theorem call_answer {op : Op} {value : Result op} (completes : Completes (serves kit worker) (call op) calls (.ok value)) :
    ∃ state choice, calls = [⟨state,op,choice⟩] ∧ (serve kit state worker op choice).2 = .ok value := by
  obtain ⟨_,_,answer,rfl,asked,given⟩ := Completes.bind_ok completes
  obtain ⟨state,choice,rfl,equal⟩ := Completes.perform asked
  cases equal
  obtain ⟨rfl,answered⟩ := Completes.orFail_ok given
  exact ⟨state,choice,rfl,answered⟩

theorem issueCode_completes {session : SessionRow} {named : Named} {delegateRef secret : String} {code : CodeRow}
    {reply : Reply}
    (completes : Completes (serves kit worker) (issueCode kit cfg session named delegateRef) calls (.ok reply))
    (written : Answered kit worker calls (.insertOauthCode code) secret) :
    ∃ target, Coded session code ∧ kit.parseUrl session.redirectUri = some target ∧
      reply = .redirectUrl (kit.withPairs target ([("code",secret)] ++ withState session.state)) := by
  obtain ⟨_,_,now,rfl,reads,completes1⟩ := Completes.bind_ok completes
  obtain ⟨_,_,drawn,rfl,writes,completes2⟩ := Completes.bind_ok completes1
  obtain ⟨_,_,target,rfl,parsed,completes3⟩ := Completes.bind_ok completes2
  obtain ⟨rfl,rfl⟩ := Completes.pure_ok completes3
  obtain ⟨_,_,rfl,_⟩ := call_ok reads
  obtain ⟨since,choice,rfl,answered⟩ := call_answer writes
  obtain ⟨none_,_⟩ := Completes.orFail_ok parsed
  subst none_
  obtain ⟨state,other,member,ok⟩ := written
  simp only [List.cons_append,List.nil_append,List.append_nil,List.mem_cons,List.not_mem_nil,or_false] at member
  rcases member with wrong | same
  · cases wrong
  · cases same
    cases answered.symm.trans ok
    exact ⟨target,⟨rfl,rfl,rfl,rfl,rfl⟩,get_ok parsed,rfl⟩

-- A part of a program that writes no code.
theorem Answered.after {stage : Stage} {α : Type} {p : Handler α} {first rest : List Call} {result : Except Failure α}
    {code : CodeRow} {secret : String} (written : Answered kit worker (first ++ rest) (.insertOauthCode code) secret)
    (completes : Completes (serves kit worker) p first result) (silent : p.Only (At stage))
    (other : ¬ At stage (.insertOauthCode code)) : Answered kit worker rest (.insertOauthCode code) secret := by
  obtain ⟨state,choice,member,answered⟩ := written
  rcases List.mem_append.mp member with before | after
  · exact absurd (completes.only silent _ before) other
  · exact ⟨state,choice,after,answered⟩

theorem redirect_completes {sessionId url secret : String} {req : SessionCompleteRequest} {code : CodeRow}
    (completes : Completes (serves kit worker) (sessionComplete kit cfg sessionId req) calls (.ok (.redirectUrl url)))
    (written : Answered kit worker calls (.insertOauthCode code) secret) :
    ∃ session target, Answered kit worker calls (.consumeOauthSession sessionId) (some session) ∧ Coded session code ∧
      kit.parseUrl session.redirectUri = some target ∧
      url = kit.withPairs target ([("code",secret)] ++ withState session.state) := by
  obtain ⟨_,_,named,rfl,parses,completes1⟩ := Completes.bind_ok completes
  obtain ⟨_,_,_,rfl,verifies,completes2⟩ := Completes.bind_ok completes1
  obtain ⟨_,_,found,rfl,consumes,completes3⟩ := Completes.bind_ok completes2
  obtain ⟨_,_,session,rfl,some_,completes4⟩ := Completes.bind_ok completes3
  obtain ⟨_,_,chosen,rfl,chooses,completes5⟩ := Completes.bind_ok completes4
  obtain ⟨_,_,owner,rfl,checks,completes6⟩ := Completes.bind_ok completes5
  obtain ⟨activates,last,_,rfl,activated,completes7⟩ := Completes.bind_ok completes6
  have after := ((((written.after parses (@Program.Only.orFail _ _ _ _ _ (At .checking) _ _) id).after verifies (verifyOwner_at _ _ _) id).after
    consumes (@call_at .cancelling _ trivial) id).after some_ (@get_at .checking _ _ _) id).after chooses
    (chooseDelegate_at _ _) id
  have written := after.after checks (verifyDelegate_at _ _) id
  have written : Answered kit worker last (.insertOauthCode code) secret := by
    obtain ⟨state,choice,member,answered⟩ := written
    rcases List.mem_append.mp member with before | after
    · exact absurd (activated.only (activate_at _ _ _ _) _ before) nofun
    · exact ⟨state,choice,after,answered⟩
  obtain ⟨target,coded,parsed,same⟩ := issueCode_completes completes7 written
  cases same
  have found := get_ok some_
  subst found
  refine ⟨session,target,?_,coded,parsed,rfl⟩
  exact (call_answered consumes).mono (fun _ there => by simp [there])

end Completing

-- A token request that presents a code as its client does.
structure Presents (kit : Kit) (s : World) (authorization : Option String) (req : TokenRequest) (code : CodeRow)
    (secret verifier : String) : Prop where
  grantType : req.grantType = "authorization_code"
  client : ∃ clientSecret client, clientCredentialsFromRequest kit authorization req = some (code.clientId,clientSecret) ∧
    s.fetchOauthClient code.clientId = some client ∧ checkSecret kit client clientSecret = .ok ()
  presented : req.code = some secret
  verified : req.codeVerifier = some verifier
  there : s.codes.get? (kit.hash secret) = some code
  unexpired : s.clock < code.expiresAt

def wrongRedirect : Failure := .oauth (.invalidGrant "redirect_uri does not match the authorization request")

-- With whichever calls fail.
abbrev Anyhow (_ : Choice) : Prop := True

section Exchanging
variable {kit : Kit} {cfg : McpOAuthConfig} {worker : Nat} {s : World} {α : Type} {post : Except Failure α → World → Prop}

theorem anyhow_call (op : Op) {next : Result op → Handler α} (failed : ∀ now, post (.error .server) now)
    (each : ∀ c value, (commit kit s worker op c).2 = .ok value →
      Alone (serves kit worker) Anyhow post (next value) (commit kit s worker op c).1) :
    Alone (serves kit worker) Anyhow post (call op >>= next) s := by
  intro c _
  cases answered : (serves kit worker s op c).2 with
  | error _ => exact failed _
  | ok value =>
    obtain ⟨equal,same⟩ := serve_ok answered
    change Alone _ _ _ (next value) (serve kit s worker op c).1
    rw [equal]
    exact each c value same

theorem grantTokens_anyhow {post : Except Failure Reply → World → Prop} (clientId : String) (code : CodeRow)
    (failed : ∀ now, post (.error .server) now) (granted : ∀ reply now, post (.ok reply) now) :
    Alone (serves kit worker) Anyhow post (grantTokens cfg clientId code) s := by
  unfold grantTokens
  refine anyhow_call _ failed (fun _ grantId _ => ?_)
  rw [Alone.bind_iff]
  refine anyhow_call .now failed (fun _ first _ => ?_)
  refine anyhow_call .now failed (fun _ second _ => ?_)
  refine anyhow_call _ failed (fun _ accessToken _ => ?_)
  refine anyhow_call _ failed (fun _ refreshToken _ => ?_)
  exact granted _ _

theorem authenticateClient_anyhow {post : Except Failure (String × ClientRow) → World → Prop} {authorization : Option String}
    {req : TokenRequest} {clientId : String} {secret : Option String} {client : ClientRow}
    (credentials : clientCredentialsFromRequest kit authorization req = some (clientId,secret))
    (known : s.fetchOauthClient clientId = some client) (checked : checkSecret kit client secret = .ok ())
    (failed : ∀ now, post (.error .server) now) (done : post (.ok (clientId,client)) s) :
    Alone (serves kit worker) Anyhow post (authenticateClient kit authorization req) s := by
  unfold authenticateClient
  rw [credentials]
  refine (Alone.orFail_bind_ok rfl).mpr ?_
  refine anyhow_call _ failed (fun _ found answered => ?_)
  simp only [commit,Except.ok.injEq] at answered
  subst answered
  rw [known]
  refine (Alone.orFail_bind_ok rfl).mpr ?_
  exact (Alone.orFail_bind_ok checked).mpr done

theorem Presents.asks {authorization : Option String} {req : TokenRequest} {code : CodeRow} {secret verifier uri : String}
    (presents : Presents kit s authorization req code secret verifier) :
    token kit cfg authorization {req with redirectUri := some uri} =
      exchangeCode kit cfg authorization {req with redirectUri := some uri} := by
  simp only [token,presents.grantType]

theorem Presents.consumes {authorization : Option String} {req : TokenRequest} {code : CodeRow} {secret verifier : String}
    (presents : Presents kit s authorization req code secret verifier) :
    (s.consumeOauthCode worker code.clientId (kit.hash secret)).2 = some code := by
  simp [World.consumeOauthCode,presents.there,presents.unexpired]

-- An exchange comes down to the checks of its code.
theorem exchange_anyhow {post : Except Failure Reply → World → Prop} {authorization : Option String} {req : TokenRequest}
    {code : CodeRow} {secret verifier uri : String} (presents : Presents kit s authorization req code secret verifier)
    (failed : ∀ now, post (.error .server) now)
    (checked : (checkCode kit code uri verifier req.resource = .ok () ∧ ∀ reply now, post (.ok reply) now) ∨
      ∃ error, checkCode kit code uri verifier req.resource = .error error ∧ ∀ now, post (.error (.oauth error)) now) :
    Alone (serves kit worker) Anyhow post (token kit cfg authorization {req with redirectUri := some uri}) s := by
  obtain ⟨clientSecret,client,credentials,known,secretOk⟩ := presents.client
  rw [presents.asks,exchangeCode,Alone.bind_iff]
  refine authenticateClient_anyhow credentials known secretOk failed ?_
  refine (Alone.orFail_bind_ok (Fallible.require_ok.mpr presents.presented)).mpr ?_
  refine (Alone.orFail_bind_ok (Fallible.require_ok.mpr rfl)).mpr ?_
  refine (Alone.orFail_bind_ok (Fallible.require_ok.mpr presents.verified)).mpr ?_
  refine anyhow_call _ failed (fun _ found answered => ?_)
  simp only [commit,Except.ok.injEq] at answered
  rw [← answered,presents.consumes]
  refine (Alone.orFail_bind_ok rfl).mpr ?_
  rcases checked with ⟨ok,granted⟩ | ⟨error,refused,ends⟩
  · refine (Alone.orFail_bind_ok ok).mpr ?_
    exact grantTokens_anyhow _ _ failed granted
  · exact (Alone.orFail_bind_error refused).mpr (ends _)

-- With no call failing, a check that fails is what the exchange ends with.
theorem exchange_smooth {post : Except Failure Reply → World → Prop} {authorization : Option String} {req : TokenRequest}
    {code : CodeRow} {secret verifier uri : String} {error : OAuthError}
    (presents : Presents kit s authorization req code secret verifier)
    (refused : checkCode kit code uri verifier req.resource = .error error)
    (exchanged : Alone (serves kit worker) Smooth post
      (token kit cfg authorization {req with redirectUri := some uri}) s) : ∃ now, post (.error (.oauth error)) now := by
  obtain ⟨clientSecret,client,credentials,known,secretOk⟩ := presents.client
  have authenticated : Alone (serves kit worker) Smooth
      (fun outcome now => outcome = .ok (code.clientId,client) ∧ now = s)
      (authenticateClient kit authorization {req with redirectUri := some uri}) s := by
    unfold authenticateClient
    rw [show clientCredentialsFromRequest kit authorization {req with redirectUri := some uri} =
      some (code.clientId,clientSecret) from credentials,alone_get rfl,
      alone_sure (.fetchOauthClient code.clientId) (some client) s (fun _ _ => by simp only [commit,known]),
      alone_get rfl,Alone.orFail_bind_ok secretOk]
    exact ⟨rfl,rfl⟩
  have ends : Alone (serves kit worker) Smooth (fun outcome _ => outcome = .error (.oauth error))
      (token kit cfg authorization {req with redirectUri := some uri}) s := by
    rw [presents.asks,exchangeCode,Alone.bind_iff]
    refine authenticated.weaken ?_
    intro _ now found
    obtain ⟨rfl,same⟩ := found
    rw [same]
    refine (alone_get presents.presented).mpr ((alone_get rfl).mpr ((alone_get presents.verified).mpr ?_))
    refine (alone_sure (.consumeOauthCode code.clientId (kit.hash secret)) (some code)
      (s.consumeOauthCode worker code.clientId (kit.hash secret)).1
      (fun _ _ => by simp only [commit,presents.consumes])).mpr ?_
    refine (alone_get rfl).mpr ?_
    exact (Alone.orFail_bind_error refused).mpr rfl
  obtain ⟨_,now,rfl,holds⟩ := Alone.meet ⟨{},smooth_default,smooth_default⟩ ends exchanged
  exact ⟨now,holds⟩

end Exchanging

-- That the code goes to the URI that was asked for, and is exchanged with that one only.
structure Agrees (kit : Kit) (cfg : McpOAuthConfig) (worker : Nat) (s : World) (query : AuthorizeQuery)
    (url secret : String) (authorization : Option String) (req : TokenRequest) : Prop where
  sent : ∃ target, kit.parseUrl query.redirectUri = some target ∧
    url = kit.withPairs target ([("code",secret)] ++ withState query.state)
  passes : Alone (serves kit worker) Anyhow (fun outcome _ => outcome ≠ .error wrongRedirect)
    (token kit cfg authorization {req with redirectUri := some query.redirectUri}) s
  others : ∀ uri, uri ≠ query.redirectUri → Alone (serves kit worker) Anyhow (fun outcome _ => ∀ reply, outcome ≠ .ok reply)
    (token kit cfg authorization {req with redirectUri := some uri}) s

theorem checkCode_redirect {kit : Kit} {code : CodeRow} {uri verifier : String} {resource : Option String} :
    (code.redirectUri ≠ uri → checkCode kit code uri verifier resource =
      .error (.invalidGrant "redirect_uri does not match the authorization request")) ∧
    (code.redirectUri = uri → checkCode kit code uri verifier resource ≠
      .error (.invalidGrant "redirect_uri does not match the authorization request")) := by
  constructor
  · intro different
    simp [checkCode,Fallible.ensure,different,bind,Except.bind]
  · intro same
    unfold checkCode
    simp only [Fallible.ensure,same,if_true,bind,Except.bind]
    split
    · rename_i failed
      split at failed <;> cases failed
      decide
    · split
      · intro wrong
        cases wrong
      · decide

theorem agrees_iff {kit : Kit} {cfg : McpOAuthConfig} {worker : Nat} {s : World} {query : AuthorizeQuery}
    {url secret verifier : String} {authorization : Option String} {req : TokenRequest} {code : CodeRow} {target : Url}
    (presents : Presents kit s authorization req code secret verifier) (parsed : kit.parseUrl code.redirectUri = some target)
    (sent : url = kit.withPairs target ([("code",secret)] ++ withState query.state)) :
    Agrees kit cfg worker s query url secret authorization req ↔ code.redirectUri = query.redirectUri := by
  constructor
  · intro agrees
    by_contra different
    obtain ⟨now,wrong⟩ := exchange_smooth presents (checkCode_redirect.1 different) (agrees.passes.fewer (fun _ _ => trivial))
    exact wrong rfl
  · intro same
    refine ⟨⟨target,same ▸ parsed,sent⟩,?_,?_⟩
    · refine exchange_anyhow presents (fun _ => by decide) ?_
      cases checked : checkCode kit code query.redirectUri verifier req.resource with
      | ok _ => exact .inl ⟨rfl,fun _ _ => nofun⟩
      | error error =>
        refine .inr ⟨error,rfl,fun _ wrong => ?_⟩
        cases wrong
        exact checkCode_redirect.2 same checked
    · intro uri different
      refine exchange_anyhow presents (fun _ _ => nofun) (.inr ⟨_,checkCode_redirect.1 ?_,fun _ _ => nofun⟩)
      exact fun equal => different (equal.symm.trans same)

theorem agreement_of {kit : Kit} {cfg : McpOAuthConfig} {clock : Int} {objects : Store String ObjectContent}
    {acts : List Act} {i j k worker p w : Nat} {query : AuthorizeQuery} {client : ClientRow} {sessionId url : String}
    {session : SessionRow} {complete : SessionCompleteRequest} {code row : CodeRow} {secret verifier : String}
    {authorization : Option String} {req : TokenRequest}
    (registered : .registered query.clientId client ∈ (at_ kit cfg (fresh clock objects) acts i).shared.log)
    (opened : .opened sessionId session query ∈ (at_ kit cfg (fresh clock objects) acts j).shared.log)
    (completed : Served kit cfg (fresh clock objects) acts k worker (.sessionComplete sessionId complete)
      (.ok (.redirectUrl url)))
    (written : Answered kit worker (callsOf kit cfg (fresh clock objects) acts k worker) (.insertOauthCode code) secret)
    (presents : Presents kit (at_ kit cfg (fresh clock objects) acts p).shared authorization req row secret verifier) :
    Agrees kit cfg w (at_ kit cfg (fresh clock objects) acts p).shared query url secret authorization req ↔
      matchingUri kit query client = some query.redirectUri := by
  obtain ⟨consumed,target,consumes,coded,parsed,sent⟩ := redirect_completes completed.completes written
  obtain ⟨made,member,_,first,asked,known,there,before,holds,same⟩ := consumed_opened (fun _ inside => inside) consumes
  obtain ⟨q,_,_,_,_,state,_⟩ := call_position member
  rw [state] at there before
  cases once_between (.session,sessionId) there opened rfl rfl
  cases once_between (.client,query.clientId) before registered rfl rfl
  -- the row that is presented is the one that was written
  obtain ⟨since,choice,inside,answered⟩ := written
  obtain ⟨q',_,_,_,_,state',next⟩ := call_position inside
  have stored : .completed (kit.hash secret) code ∈ (at_ kit cfg (fresh clock objects) acts (q'+1)).shared.log := by
    obtain ⟨equal,ok⟩ := serve_ok answered
    rw [next,equal]
    rcases insertOauthCode_cases kit since code with failed | ⟨_,done⟩
    · simp only [commit,failed] at ok
      cases ok
    · simp only [commit,done,Except.ok.injEq] at ok ⊢
      rw [← ok]
      exact List.mem_append_right _ List.mem_cons_self
  have presented := (descent_at kit cfg clock objects acts p).codes _ _ presents.there
  cases once_between (.code,kit.hash secret) stored presented rfl rfl
  have uri : code.redirectUri = session.redirectUri := by
    rw [coded.redirectUri,same]
  have state_ : consumed.state = query.state := by
    rw [same]
    exact holds.state
  rw [agrees_iff presents (by rw [uri,← parsed,same]) (by rw [sent,state_]),uri,holds.redirectUri,Option.some.injEq]

-- The URI is kept when it is the first of the client's that matches it.
theorem redirect_agreement_iff (kit : Kit) (cfg : McpOAuthConfig) (clock : Int) (objects : Store String ObjectContent)
    (acts : List Act) (i j k worker p w : Nat) (query : AuthorizeQuery) (client : ClientRow) (sessionId url : String)
    (session : SessionRow) (complete : SessionCompleteRequest) (code row : CodeRow) (secret verifier : String)
    (authorization : Option String) (req : TokenRequest)
    (registered : .registered query.clientId client ∈ (at_ kit cfg (fresh clock objects) acts i).shared.log)
    (opened : .opened sessionId session query ∈ (at_ kit cfg (fresh clock objects) acts j).shared.log)
    (completed : Served kit cfg (fresh clock objects) acts k worker (.sessionComplete sessionId complete)
      (.ok (.redirectUrl url)))
    (written : Answered kit worker (callsOf kit cfg (fresh clock objects) acts k worker) (.insertOauthCode code) secret)
    (presents : Presents kit (at_ kit cfg (fresh clock objects) acts p).shared authorization req row secret verifier) :
    Agrees kit cfg w (at_ kit cfg (fresh clock objects) acts p).shared query url secret authorization req ↔
      matchingUri kit query client = some query.redirectUri :=
  agreement_of registered opened completed written presents

-- A client registers one loopback port and asks for the one it listens on.
def flowActs (redirectUri : String) : List Act := List.flatten [
  [.spawn 0 (.register "ip" testRegistration)],List.replicate 2 (.step 0 {}),
  [.spawn 1 (.authorize (testQuery redirectUri))],List.replicate 5 (.step 1 {}),
  [.outside (.object testAccount (some (testContent [[0x22]]))),.spawn 2 (.sessionComplete "mws_xxxx" testComplete)],
  List.replicate 8 (.step 2 {})]

def testClient : ClientRow := ⟨none,"app",["http://localhost:1/callback"],["authorization_code","refresh_token"],["code"],
  "none",defaultScopes,.active,0⟩

def testCode : CodeRow := ⟨"mwc_","http://localhost:1/callback",defaultScopes,"https://mcp.example/","verifier","mwd_xxx",
  testAccount,testOwner,60000⟩

def testToken : TokenRequest := ⟨"authorization_code",some "mwac_xxxxx",none,some "verifier",none,some "mwc_",none,none⟩

-- What is to be seen of such a flow.
def FlowSeen (redirectUri url : String) : Prop :=
  .registered "mwc_" testClient ∈ (at_ testKit testConfig (fresh 0 testChain) (flowActs redirectUri) 19).shared.log ∧
  .opened "mws_xxxx" (testSession "mwd_xxx") (testQuery redirectUri) ∈
    (at_ testKit testConfig (fresh 0 testChain) (flowActs redirectUri) 19).shared.log ∧
  Served testKit testConfig (fresh 0 testChain) (flowActs redirectUri) 10 2 (.sessionComplete "mws_xxxx" testComplete)
    (.ok (.redirectUrl url)) ∧
  ((callsOf testKit testConfig (fresh 0 testChain) (flowActs redirectUri) 10 2).any (fun made =>
    decide (made.op = .insertOauthCode testCode) &&
      decide ((serve testKit made.state 2 (.insertOauthCode testCode) made.choice).2 = .ok "mwac_xxxxx"))) = true ∧
  (at_ testKit testConfig (fresh 0 testChain) (flowActs redirectUri) 19).shared.fetchOauthClient "mwc_" = some testClient ∧
  (at_ testKit testConfig (fresh 0 testChain) (flowActs redirectUri) 19).shared.codes.get? "mwac_xxxxx" = some testCode ∧
  (at_ testKit testConfig (fresh 0 testChain) (flowActs redirectUri) 19).shared.clock = 0

instance (redirectUri url : String) : Decidable (FlowSeen redirectUri url) := by
  unfold FlowSeen
  infer_instance

section Flow
variable {redirectUri url : String}

theorem FlowSeen.written (seen : FlowSeen redirectUri url) :
    Answered testKit 2 (callsOf testKit testConfig (fresh 0 testChain) (flowActs redirectUri) 10 2)
      (.insertOauthCode testCode) "mwac_xxxxx" := by
  obtain ⟨_,_,_,written,_⟩ := seen
  obtain ⟨⟨state,op,choice⟩,member,holds⟩ := List.any_eq_true.mp written
  simp only [Bool.and_eq_true,decide_eq_true_eq] at holds
  obtain ⟨rfl,answered⟩ := holds
  exact ⟨state,choice,member,answered⟩

theorem FlowSeen.presents (seen : FlowSeen redirectUri url) :
    Presents testKit (at_ testKit testConfig (fresh 0 testChain) (flowActs redirectUri) 19).shared none testToken testCode
      "mwac_xxxxx" "verifier" := by
  obtain ⟨_,_,_,_,known,there,clock⟩ := seen
  refine ⟨rfl,⟨none,testClient,rfl,known,rfl⟩,rfl,rfl,there,?_⟩
  rw [clock]
  decide

end Flow

theorem flow_seen : FlowSeen "http://localhost:2/callback" "http://localhost:1/callback?code=mwac_xxxxx" := by
  decide +kernel

theorem loopback_disagrees : ¬ Agrees testKit testConfig 3 (at_ testKit testConfig (fresh 0 testChain)
      (flowActs "http://localhost:2/callback") 19).shared (testQuery "http://localhost:2/callback")
      "http://localhost:1/callback?code=mwac_xxxxx" "mwac_xxxxx" none testToken := by
  have exact_ := redirect_agreement_iff testKit testConfig 0 testChain (flowActs "http://localhost:2/callback") 19 19 10 2
    19 3 (testQuery "http://localhost:2/callback") testClient "mws_xxxx" "http://localhost:1/callback?code=mwac_xxxxx"
    (testSession "mwd_xxx") testComplete testCode testCode "mwac_xxxxx" "verifier" none testToken flow_seen.1 flow_seen.2.1
    flow_seen.2.2.1 flow_seen.written flow_seen.presents
  rw [exact_]
  decide +kernel

-- The port that is asked for is not the one that is answered.
theorem loopback_port_lost : ¬ ∀ (kit : Kit) (cfg : McpOAuthConfig) (clock : Int) (objects : Store String ObjectContent)
    (acts : List Act) (i j k worker p w : Nat) (query : AuthorizeQuery) (client : ClientRow) (sessionId url : String)
    (session : SessionRow) (complete : SessionCompleteRequest) (code row : CodeRow) (secret verifier : String)
    (authorization : Option String) (req : TokenRequest),
    .registered query.clientId client ∈ (at_ kit cfg (fresh clock objects) acts i).shared.log →
    .opened sessionId session query ∈ (at_ kit cfg (fresh clock objects) acts j).shared.log →
    Served kit cfg (fresh clock objects) acts k worker (.sessionComplete sessionId complete) (.ok (.redirectUrl url)) →
    Answered kit worker (callsOf kit cfg (fresh clock objects) acts k worker) (.insertOauthCode code) secret →
    Presents kit (at_ kit cfg (fresh clock objects) acts p).shared authorization req row secret verifier →
    Agrees kit cfg w (at_ kit cfg (fresh clock objects) acts p).shared query url secret authorization req := by
  intro always
  have agrees := always testKit testConfig 0 testChain (flowActs "http://localhost:2/callback") 19 19 10 2 19 3
    (testQuery "http://localhost:2/callback") testClient "mws_xxxx" "http://localhost:1/callback?code=mwac_xxxxx"
    (testSession "mwd_xxx") testComplete testCode testCode "mwac_xxxxx" "verifier" none testToken flow_seen.1
    flow_seen.2.1 flow_seen.2.2.1 flow_seen.written flow_seen.presents
  rw [agreement_of flow_seen.1 flow_seen.2.1 flow_seen.2.2.1 flow_seen.written flow_seen.presents] at agrees
  revert agrees
  decide +kernel

end MemWal.OAuth
