import MemWal.OAuth.Lifecycle

namespace MemWal.OAuth
open Library Auth

section Held
variable {kit : Kit} {s : World} {worker j : Nat}

-- A call changes what its worker holds and no more.
theorem commit_held (different : j ≠ worker) (op : Op) (c : Choice) :
    (commit kit s worker op c).1.held.get? j = s.held.get? j := by
  cases op with
  | insertOauthClient client =>
    rcases insertOauthClient_cases kit s client with equal | ⟨_,_,_,equal⟩ <;> simp only [commit,equal]
  | insertOauthDelegate key label =>
    rcases insertOauthDelegate_cases kit s key label with equal | ⟨_,_,_,equal⟩ <;> simp only [commit,equal]
  | insertOauthSession session query =>
    rcases insertOauthSession_cases kit s session query with equal | ⟨_,_,_,equal⟩ <;> simp only [commit,equal]
  | consumeOauthSession sessionId =>
    rcases consumeOauthSession_cases s sessionId with equal | ⟨_,_,_,_,equal⟩ <;> simp only [commit,equal]
  | insertOauthCode code =>
    rcases insertOauthCode_cases kit s code with equal | ⟨_,equal⟩ <;> simp only [commit,equal]
  | consumeOauthCode clientId sha =>
    rcases consumeOauthCode_cases s worker clientId sha with equal | ⟨_,_,_,_,equal⟩
    · simp only [commit,equal]
    · simp only [commit,equal,Store.get?_upsert,if_neg different]
  | insertOauthGrant grant =>
    simp only [commit,World.insertOauthGrant]
    split
    · rfl
    · dsimp only
      split
      · simp only [Store.get?_upsert,if_neg different]
      · rfl
  | insertOauthToken start token =>
    simp only [commit,World.insertOauthToken]
    split
    · rfl
    · dsimp only
      split
      · simp only [Store.get?_upsert,if_neg different]
      · simp only [Store.get?_erase,if_neg different]
      · rfl
  | rotateOauthRefreshToken presented clientId access refresh =>
    rcases rotate_cases kit s presented clientId access refresh with ⟨_,_,equal⟩ | ⟨equal,_⟩
    · simp only [commit,equal]
      rfl
    · simp only [commit,equal]
  | _ => rfl

theorem serve_held (different : j ≠ worker) (op : Op) (c : Choice) :
    (serve kit s worker op c).1.held.get? j = s.held.get? j := by
  rcases serve_state kit s worker op c with equal | equal
  · rw [equal]
  · rw [equal]
    exact commit_held different op c

-- What its worker holds after a call that went through.

theorem held_code {clientId sha : String} {c : Choice} {code : CodeRow}
    (consumed : (commit kit s worker (.consumeOauthCode clientId sha) c).2 = .ok (some code)) :
    (commit kit s worker (.consumeOauthCode clientId sha) c).1.held.get? worker = some (.code sha) := by
  rcases consumeOauthCode_cases s worker clientId sha with equal | ⟨_,_,_,_,equal⟩
  · simp only [commit,equal] at consumed
    cases consumed
  · simp only [commit,equal]
    simp

theorem held_grant {sha grantId : String} {grant : GrantRow} {c : Choice}
    (holds : s.held.get? worker = some (.code sha))
    (inserted : (commit kit s worker (.insertOauthGrant grant) c).2 = .ok grantId) :
    (commit kit s worker (.insertOauthGrant grant) c).1.held.get? worker = some (.grant sha grantId) := by
  rcases insertOauthGrant_cases kit s worker grant holds with equal | ⟨_,_,_,equal⟩
  · simp only [commit,equal] at inserted
    cases inserted
  · simp only [commit,equal] at inserted ⊢
    cases inserted
    simp

theorem held_access {sha start secret : String} {token : TokenRow} {c : Choice}
    (holds : s.held.get? worker = some (.grant sha token.grantId)) (access : token.tokenType = .access)
    (inserted : (commit kit s worker (.insertOauthToken start token) c).2 = .ok secret) :
    (commit kit s worker (.insertOauthToken start token) c).1.held.get? worker =
      some (.access sha token.grantId) := by
  rcases insertOauthToken_cases kit s worker start token (.access sha holds access) with equal | ⟨_,_,equal⟩
  · simp only [commit,equal] at inserted
    cases inserted
  · simp only [commit,equal,Store.get?_upsert,if_true]

theorem happen_held (event : Event) : (happen s event).held = s.held := by
  cases event with
  | object objectId content => cases content <;> rfl
  | _ => rfl

end Held

def grantTerms (kit : Kit) (cfg : McpOAuthConfig) : Terms (server kit cfg).service where
  Inv := Custody kit
  Rely k s now := Later s now ∧ now.held.get? k = s.held.get? k
  Allowed := MayCall
  Given _ _ _ _ := True
  refl _ s := ⟨.refl s,rfl⟩
  trans _ _ _ _ first second := ⟨first.1.trans second.1,second.2.trans first.2⟩
  serves _ _ op c custody allowed _ :=
    ⟨serve_keeps custody allowed c,fun _ different => ⟨serve_later op c,serve_held different op c⟩⟩
  abandons _ k custody := ⟨abandon_keeps custody k,fun _ different =>
    ⟨.of_same rfl rfl rfl rfl (List.prefix_refl _),(Store.get?_erase _ _ _).trans (if_neg different)⟩⟩

-- The calls of each part of the flow.
inductive Stage where
  | registering | opening | naming | checking | completing | cancelling | presenting | refreshing | exchanging
  deriving DecidableEq, Repr

def At : Stage → Op → Prop
  | _,.now | _,.fetchOauthClient _ | _,.touchOauthClientLastUsed _ => True
  | .registering,.incrRegistrations _ | .registering,.expireRegistrations _ _
  | .registering,.countUnconsumedOauthClients _ | .registering,.insertOauthClient _ => True
  | .opening,.insertOauthDelegate _ _ | .opening,.insertOauthSession _ _ => True
  | .naming,.fetchOauthSession _ | .naming,.findReusableOauthDelegate _ | .naming,.fetchOauthDelegate _ => True
  | .checking,.findReusableOauthDelegate _ | .checking,.fetchOauthDelegate _ | .checking,.verifyPersonal _ _ _
  | .checking,.getObject _ => True
  | .completing,.findReusableOauthDelegate _ | .completing,.fetchOauthDelegate _ | .completing,.verifyPersonal _ _ _
  | .completing,.consumeOauthSession _ | .completing,.getObject _ | .completing,.activateOauthDelegate _ _ _ _
  | .completing,.insertOauthCode _ | .cancelling,.consumeOauthSession _ => True
  | .presenting,.fetchOauthTokenWithDelegate _ | .presenting,.revokeOauthToken _ | .presenting,.revokeOauthGrant _ => True
  | .refreshing,.fetchOauthTokenWithDelegate _ | .refreshing,.revokeOauthGrant _
  | .refreshing,.rotateOauthRefreshToken _ _ _ _ => True
  | .exchanging,.fetchOauthTokenWithDelegate _ | .exchanging,.revokeOauthGrant _ | .exchanging,.consumeOauthCode _ _
  | .exchanging,.insertOauthGrant _ | .exchanging,.insertOauthToken _ _
  | .exchanging,.rotateOauthRefreshToken _ _ _ _ => True
  | _,_ => False

section Stages
variable {kit : Kit} {cfg : McpOAuthConfig} {stage : Stage}

theorem attempt_at {op : Op} (here : At stage op) : (attempt op).Only (At stage) := .perform here

theorem call_at {op : Op} (here : At stage op) : (call op).Only (At stage) :=
  .bind (attempt_at here) (fun _ => .orFail _)

theorem get_at {α : Type} (value : Option α) (error : Failure) : (get value error).Only (At stage) := .orFail _

theorem check_at (condition : Prop) [Decidable condition] (error : Failure) : (check condition error).Only (At stage) :=
  .orFail _

theorem throttle_at (ip : String) : (throttle cfg ip).Only (At .registering) := by
  unfold throttle
  split
  · trivial
  · refine .bind (attempt_at trivial) (fun incremented => .bind ?_ (fun _ => check_at _ _))
    unfold expireFirst
    split
    · exact .bind (attempt_at trivial) (fun _ => trivial)
    · trivial

theorem registerClient_at (ip : String) (req : ClientRegistrationRequest) :
    (registerClient kit cfg ip req).Only (At .registering) := by
  refine .bind (throttle_at ip) (fun _ => .bind (attempt_at trivial) (fun _ => .bind (check_at _ _) (fun _ => ?_)))
  exact .bind (.orFail _) (fun _ => .bind (call_at trivial) (fun _ => trivial))

theorem bounceError_at (query : AuthorizeQuery) (redirectUri error description : String) :
    (bounceError kit query redirectUri error description).Only (At .opening) :=
  .bind (get_at _ _) (fun _ => trivial)

theorem openSession_at (query : AuthorizeQuery) (redirectUri resource delegateRef scope : String) :
    (openSession cfg query redirectUri resource delegateRef scope).Only (At .opening) := by
  refine .bind (call_at trivial) (fun now => .bind (attempt_at trivial) (fun opened => ?_))
  split
  · trivial
  · exact .bind (attempt_at trivial) (fun _ => trivial)

theorem authorizeClient_at (query : AuthorizeQuery) (client : ClientRow) (redirectUri : String) :
    (authorizeClient kit cfg query client redirectUri).Only (At .opening) := by
  unfold authorizeClient
  split
  · exact bounceError_at _ _ _ _
  · refine .bind (attempt_at trivial) (fun inserted => ?_)
    split
    · trivial
    · split
      · exact bounceError_at _ _ _ _
      · exact openSession_at _ _ _ _ _

theorem authorize_at (query : AuthorizeQuery) : (authorize kit cfg query).Only (At .opening) := by
  refine .bind (attempt_at trivial) (fun fetched => ?_)
  split
  · trivial
  · trivial
  · split
    · trivial
    · exact authorizeClient_at _ _ _

theorem sessionAccount_at (sessionId accountId : String) : (sessionAccount sessionId accountId).Only (At .naming) := by
  refine .bind (call_at trivial) (fun _ => .bind (get_at _ _) (fun _ => .bind (call_at trivial) (fun reusable => ?_)))
  cases reusable with
  | some existing => trivial
  | none => exact .bind (call_at trivial) (fun _ => .bind (get_at _ _) (fun _ => trivial))

theorem verifyOwner_at (sessionId : String) (named : Named) (signature : String) :
    (verifyOwner sessionId named signature).Only (At .checking) :=
  .bind (attempt_at trivial) (fun _ => .orFail _)

theorem chooseDelegate_at (session : SessionRow) (accountId : String) :
    (chooseDelegate session accountId).Only (At .checking) := by
  refine .bind (call_at trivial) (fun reusable => ?_)
  cases reusable with
  | some existing => trivial
  | none => exact .bind (call_at trivial) (fun _ => .bind (get_at _ _) (fun _ => trivial))

theorem verifyDelegate_at (named : Named) (delegate : DelegateRow) :
    (verifyDelegate cfg named delegate).Only (At .checking) :=
  .bind (get_at _ _) (fun _ => .bind (attempt_at trivial) (fun _ => .bind (.orFail _) (fun _ =>
    .bind (check_at _ _) (fun _ => trivial))))

theorem activate_at (chosen : Chosen) (accountId verifiedOwner txDigest : String) :
    (activate chosen accountId verifiedOwner txDigest).Only
      (· = .activateOauthDelegate chosen.delegateRef accountId verifiedOwner txDigest) := by
  unfold activate
  split
  · trivial
  · exact .bind (.perform rfl) (fun _ => .orFail _)

theorem checks_completing {α : Type} {p : Handler α} (only : p.Only (At .checking)) : p.Only (At .completing) :=
  only.mono (fun op here => by cases op <;> trivial)

theorem sessionComplete_at (sessionId : String) (req : SessionCompleteRequest) :
    (sessionComplete kit cfg sessionId req).Only (At .completing) := by
  refine .bind (.orFail _) (fun named => .bind (checks_completing (verifyOwner_at _ _ _)) (fun _ => ?_))
  refine .bind (call_at trivial) (fun _ => .bind (get_at _ _) (fun session => ?_))
  refine .bind (checks_completing (chooseDelegate_at _ _)) (fun chosen => ?_)
  refine .bind (checks_completing (verifyDelegate_at _ _)) (fun _ => ?_)
  refine .bind ((activate_at _ _ _ _).mono (fun op same => same ▸ trivial)) (fun _ => ?_)
  exact .bind (call_at trivial) (fun _ => .bind (call_at trivial) (fun _ => .bind (get_at _ _) (fun _ => trivial)))

theorem sessionCancel_at (sessionId : String) (error : Option String) :
    (sessionCancel kit sessionId error).Only (At .cancelling) :=
  .bind (call_at trivial) (fun _ => .bind (get_at _ _) (fun _ => .bind (get_at _ _) (fun _ => trivial)))

theorem authenticateClient_at (authorization : Option String) (req : TokenRequest) :
    (authenticateClient kit authorization req).Only (At stage) :=
  .bind (get_at _ _) (fun _ => .bind (call_at trivial) (fun _ => .bind (get_at _ _) (fun _ =>
    .bind (.orFail _) (fun _ => trivial))))

theorem revoke_at (presented : String) : (revoke kit presented).Only (At .presenting) := by
  refine .bind (attempt_at trivial) (fun fetched => ?_)
  split
  · split
    · exact .bind (attempt_at trivial) (fun _ => trivial)
    · exact .bind (attempt_at trivial) (fun _ => trivial)
  · trivial

theorem resolveOauthBearer_at (presented : String) : (resolveOauthBearer kit cfg presented).Only (At .presenting) :=
  .bind (check_at _ _) (fun _ => .bind (attempt_at trivial) (fun _ => .bind (.orFail _) (fun _ =>
    .bind (get_at _ _) (fun _ => .bind (call_at trivial) (fun _ => .bind (.orFail _) (fun _ =>
      .bind (get_at _ _) (fun _ => trivial)))))))

theorem mintTokenPair_at (grantId : String) : (mintTokenPair cfg grantId).Only (At stage) :=
  .bind (call_at trivial) (fun _ => .bind (call_at trivial) (fun _ => trivial))

theorem exchangeCode_at (authorization : Option String) (req : TokenRequest) :
    (exchangeCode kit cfg authorization req).Only (At .exchanging) := by
  refine .bind (authenticateClient_at _ _) (fun _ => .bind (get_at _ _) (fun _ => .bind (get_at _ _) (fun _ => ?_)))
  refine .bind (get_at _ _) (fun _ => .bind (call_at trivial) (fun _ => .bind (get_at _ _) (fun _ => ?_)))
  refine .bind (.orFail _) (fun _ => .bind (call_at trivial) (fun _ => .bind (mintTokenPair_at _) (fun _ => ?_)))
  exact .bind (call_at trivial) (fun _ => .bind (call_at trivial) (fun _ => trivial))

theorem refresh_at (authorization : Option String) (req : TokenRequest) :
    (refresh kit cfg authorization req).Only (At .refreshing) := by
  refine .bind (authenticateClient_at _ _) (fun _ => .bind (get_at _ _) (fun _ => .bind (call_at trivial) (fun _ => ?_)))
  refine .bind (get_at _ _) (fun _ => .bind (.orFail _) (fun _ => ?_))
  split
  · exact .bind (call_at trivial) (fun _ => trivial)
  · refine .bind (call_at trivial) (fun _ => .bind (check_at _ _) (fun _ => .bind (mintTokenPair_at _) (fun _ => ?_)))
    exact .bind (call_at trivial) (fun _ => .bind (get_at _ _) (fun _ => trivial))

def stageOf : Request → Stage
  | .register _ _ => .registering
  | .authorize _ => .opening
  | .sessionAccount _ _ => .naming
  | .sessionComplete _ _ => .completing
  | .sessionCancel _ _ => .cancelling
  | .token _ _ => .exchanging
  | .revoke _ | .bearer _ => .presenting

theorem handle_at (request : Request) : (handle kit cfg request).Only (At (stageOf request)) := by
  cases request with
  | register ip req => exact registerClient_at ip req
  | authorize query => exact authorize_at query
  | sessionAccount sessionId accountId => exact sessionAccount_at sessionId accountId
  | sessionComplete sessionId req => exact sessionComplete_at sessionId req
  | sessionCancel sessionId error => exact sessionCancel_at sessionId error
  | revoke presented => exact revoke_at presented
  | bearer presented => exact .bind (resolveOauthBearer_at presented) (fun _ => trivial)
  | token authorization req =>
    simp only [handle,token,stageOf]
    split
    · exact exchangeCode_at authorization req
    · exact (refresh_at authorization req).mono (fun op here => by cases op <;> trivial)
    · trivial

end Stages

-- Calls in a program of which only the conduct is asked.
section Steps
variable {kit : Kit} {cfg : McpOAuthConfig} {t : Terms (server kit cfg).service} {k : Nat} {s : World} {α : Type}

theorem keeps_attempt {post : Except Failure α → World → Prop} {op : Op} {next : Answer op → Handler α}
    (allowed : ∀ now, t.Rely k s now → t.Inv now → t.Allowed now k op)
    (each : ∀ now c answer, t.Rely k s now → t.Inv now → t.Given now k op c → (serve kit now k op c).2 = answer →
      t.Inv (serve kit now k op c).1 → Keeps t k post (next answer) (serve kit now k op c).1) :
    Keeps t k post (attempt op >>= next) s := by
  intro now since inv
  refine ⟨allowed now since inv,fun c given => ?_⟩
  exact each now c _ since inv given rfl (t.serves now k op c inv (allowed now since inv) given).1

theorem keeps_call {post : Except Failure α → World → Prop} {op : Op} {next : Result op → Handler α}
    (allowed : ∀ now, t.Rely k s now → t.Inv now → t.Allowed now k op)
    (ok : ∀ now c result, t.Rely k s now → t.Inv now → t.Given now k op c →
      (commit kit now k op c).2 = .ok result → t.Inv (commit kit now k op c).1 →
      Keeps t k post (next result) (commit kit now k op c).1)
    (failed : ∀ now, post (.error .server) now) : Keeps t k post (call op >>= next) s := by
  intro now since inv
  refine ⟨allowed now since inv,fun c given => ?_⟩
  have kept := (t.serves now k op c inv (allowed now since inv) given).1
  change Keeps t k _ (Program.bind (Program.orFail (fun _ => Failure.server) (serve kit now k op c).2) next)
    (serve kit now k op c).1
  change t.Inv (serve kit now k op c).1 at kept
  cases answered : (serve kit now k op c).2 with
  | error _ => exact failed _
  | ok result =>
    obtain ⟨works,equal⟩ := serve_ok answered
    rw [works] at kept ⊢
    exact ok now c result since inv given equal kept

theorem keeps_get {β : Type} {value : Option β} {error : Failure} {next : β → Handler α}
    (some_ : ∀ found, value = some found → Keeps t k (fun _ _ => True) (next found) s) :
    Keeps t k (fun _ _ => True) (get value error >>= next) s :=
  Keeps.orFail_bind (fun found equal => some_ found (Fallible.require_ok.mp equal)) (fun _ _ => trivial)

theorem keeps_orFail {β ε : Type} {convert : ε → Failure} {given : Except ε β} {next : β → Handler α}
    (ok : ∀ value, given = .ok value → Keeps t k (fun _ _ => True) (next value) s) :
    Keeps t k (fun _ _ => True) (Program.orFail convert given >>= next) s :=
  Keeps.orFail_bind ok (fun _ _ => trivial)

end Steps

section Programs
variable {kit : Kit} {cfg : McpOAuthConfig} {k : Nat} {s : World}

theorem keeps_at {α : Type} {p : Handler α} {stage : Stage} (other : stage ∉ [Stage.refreshing,.exchanging])
    (only : p.Only (At stage)) (s : World) : Keeps (grantTerms kit cfg) k (fun _ _ => True) p s := by
  refine Keeps.of_only ?_ only s
  intro op here now
  cases stage with
  | refreshing | exchanging => exact absurd (by decide) other
  | _ => cases op <;> trivial

-- The two times at which the rows of a pair are written.
theorem mintTokenPair_keeps {P : World → Prop} {grantId : String}
    (stable : ∀ s now, Later s now → now.held.get? k = s.held.get? k → P s → P now) (start : P s) :
    Keeps (grantTerms kit cfg) k (fun result now => ∀ pair, result = .ok pair → P now ∧
        (pair.1.grantId = grantId ∧ pair.1.tokenType = .access) ∧ pair.2.grantId = grantId ∧ pair.2.tokenType = .refresh)
      (mintTokenPair cfg grantId) s := by
  refine keeps_call (fun _ _ _ => trivial) ?_ (fun _ => nofun)
  intro first c time since _ _ _ _
  have before := stable s first since.1 since.2 start
  refine keeps_call (fun _ _ _ => trivial) ?_ (fun _ => nofun)
  intro second d time since _ _ _ _ pair equal
  cases equal
  exact ⟨stable first second since.1 since.2 before,⟨rfl,rfl⟩,rfl,rfl⟩

theorem grantTokens_keeps {clientId sha : String} {code : CodeRow} (holds : s.held.get? k = some (.code sha)) :
    Keeps (grantTerms kit cfg) k (fun _ _ => True) (grantTokens cfg clientId code) s := by
  refine keeps_call (fun now since _ => ⟨sha,since.2.trans holds⟩) ?_ (fun _ => trivial)
  intro now c grantId since _ _ inserted kept
  have granted := held_grant (since.2.trans holds) inserted
  refine Keeps.bind kept (mintTokenPair_keeps (P:=fun now => now.held.get? k = some (.grant sha grantId))
    (fun _ _ _ same held => same.trans held) granted) ?_ (fun _ _ _ _ => trivial)
  intro pair now _ minted
  obtain ⟨held,⟨sameAccess,isAccess⟩,sameRefresh,isRefresh⟩ := minted pair rfl
  have first : ∀ after, (grantTerms kit cfg).Rely k now after →
      after.held.get? k = some (.grant sha pair.1.grantId) :=
    fun after since => since.2.trans (held.trans (by rw [sameAccess]))
  refine keeps_call (fun after since _ => ⟨sha,_,_,.access sha (first after since) isAccess⟩) ?_ (fun _ => trivial)
  intro after c accessToken since _ _ inserted _
  have half := held_access (first after since) isAccess inserted
  refine keeps_call ?_ (fun _ _ _ _ _ _ _ _ => trivial) (fun _ => trivial)
  intro last since _
  exact ⟨sha,_,_,.refresh sha (since.2.trans (half.trans (by rw [sameAccess,sameRefresh]))) isRefresh⟩

theorem exchangeCode_keeps (authorization : Option String) (req : TokenRequest) (custody : Custody kit s) :
    Keeps (grantTerms kit cfg) k (fun _ _ => True) (exchangeCode kit cfg authorization req) s := by
  refine Keeps.bind custody (@keeps_at _ _ _ _ _ .presenting (by decide) (authenticateClient_at _ _) s) ?_ (fun _ _ _ _ => trivial)
  intro client now _ _
  refine keeps_get (fun code _ => keeps_get (fun redirectUri _ => keeps_get (fun codeVerifier _ => ?_)))
  refine keeps_call (fun _ _ _ => trivial) ?_ (fun _ => trivial)
  intro now c consumed since _ _ answered _
  refine keeps_get (fun codeRow found => keeps_orFail (fun _ _ => ?_))
  subst found
  exact grantTokens_keeps (held_code answered)

theorem rotate_keeps {presented clientId : String} {preview : TokenWithDelegateRow}
    (known : ∃ row, s.tokens.get? presented = some row ∧ row.grantId = preview.grantId) :
    Keeps (grantTerms kit cfg) k (fun _ _ => True) (rotate cfg presented clientId preview) s := by
  have stable : ∀ s now, Later s now →
      (∃ row, s.tokens.get? presented = some row ∧ row.grantId = preview.grantId) →
      ∃ row, now.tokens.get? presented = some row ∧ row.grantId = preview.grantId := by
    intro s now later given
    obtain ⟨row,found,same⟩ := given
    obtain ⟨next,after,grant,_⟩ := later.tokens presented row found
    exact ⟨next,after,grant.trans same⟩
  refine keeps_call (fun _ _ _ => trivial) ?_ (fun _ => trivial)
  intro now c time since _ _ _ kept
  refine keeps_orFail (fun _ _ => ?_)
  refine Keeps.bind kept (mintTokenPair_keeps (P:=fun now => ∃ row, now.tokens.get? presented = some row ∧
    row.grantId = preview.grantId) (fun s now later _ => stable s now later) (stable s now since.1 known)) ?_
    (fun _ _ _ _ => trivial)
  intro pair now _ minted
  obtain ⟨known,⟨sameAccess,isAccess⟩,sameRefresh,isRefresh⟩ := minted pair rfl
  refine keeps_call ?_ (fun _ _ _ _ _ _ _ _ => keeps_get (fun _ _ => trivial)) (fun _ => trivial)
  intro after since _
  obtain ⟨row,found,same⟩ := stable now after since.1 known
  refine ⟨isAccess,isRefresh,fun other there => ?_⟩
  cases found.symm.trans there
  exact ⟨sameAccess.trans same.symm,sameRefresh.trans same.symm⟩

theorem refresh_keeps (authorization : Option String) (req : TokenRequest) (custody : Custody kit s) :
    Keeps (grantTerms kit cfg) k (fun _ _ => True) (refresh kit cfg authorization req) s := by
  refine Keeps.bind custody (@keeps_at _ _ _ _ _ .presenting (by decide) (authenticateClient_at _ _) s) ?_ (fun _ _ _ _ => trivial)
  intro client now custody _
  refine keeps_get (fun presented _ => keeps_call (fun _ _ _ => trivial) ?_ (fun _ => trivial))
  intro now c fetched since _ _ answered _
  refine keeps_get (fun preview found => keeps_orFail (fun _ _ => ?_))
  subst found
  split
  · exact keeps_call (fun _ _ _ => trivial) (fun _ _ _ _ _ _ _ _ => trivial) (fun _ => trivial)
  · refine rotate_keeps ?_
    simp only [commit,Except.ok.injEq] at answered ⊢
    obtain ⟨row,_,_,found,_,_,same⟩ := tokenWithDelegate_some.mp answered
    rw [same]
    exact ⟨row,found,rfl⟩

theorem handle_keeps (request : Request) (custody : Custody kit s) :
    Keeps (grantTerms kit cfg) k (fun _ _ => True) (handle kit cfg request) s := by
  cases request with
  | register ip req => exact keeps_at (by decide) (registerClient_at ip req) s
  | authorize query => exact keeps_at (by decide) (authorize_at query) s
  | sessionAccount sessionId accountId => exact keeps_at (by decide) (sessionAccount_at sessionId accountId) s
  | sessionComplete sessionId req => exact keeps_at (by decide) (sessionComplete_at sessionId req) s
  | sessionCancel sessionId error => exact keeps_at (by decide) (sessionCancel_at sessionId error) s
  | revoke presented => exact keeps_at (by decide) (revoke_at presented) s
  | bearer presented =>
    exact Keeps.bind custody (keeps_at (by decide) (resolveOauthBearer_at presented) s) (fun _ _ _ _ => trivial)
      (fun _ _ _ _ => trivial)
  | token authorization req =>
    simp only [handle,token]
    split
    · exact exchangeCode_keeps authorization req custody
    · exact refresh_keeps authorization req custody
    · trivial

end Programs

def grantContract (kit : Kit) (cfg : McpOAuthConfig) : (server kit cfg).Contract (grantTerms kit cfg) where
  Idle _ _ := True
  stays _ _ _ _ _ := trivial
  leaves _ _ _ := trivial
  happens s event custody :=
    ⟨happen_keeps custody event,fun _ => ⟨happen_later event,by rw [show (server kit cfg).happen s event = happen s event
      from rfl,happen_held]⟩⟩
  programs request _ _ custody _ := handle_keeps request custody

theorem fresh_custody (kit : Kit) (clock : Int) (objects : Store String ObjectContent) :
    Custody kit (fresh clock objects) := by
  refine ⟨⟨?_,nofun,fun _ => Nat.zero_le _⟩,⟨?_,nofun,fun _ => Nat.zero_le _⟩,
    ⟨fun _ _ => ⟨rfl,fun _ => rfl⟩,fun _ => ⟨Nat.zero_le _,fun _ => Nat.zero_le _⟩,nofun,nofun⟩,
    ⟨nofun,nofun,fun _ => Nat.zero_le _,fun _ rotated => absurd rfl rotated⟩,nofun⟩
  · intro id found
    rcases found with there | counted
    · cases there
    · exact absurd rfl counted
  · intro sha found
    rcases found with there | counted
    · cases there
    · exact absurd rfl counted

theorem start_sound (kit : Kit) (cfg : McpOAuthConfig) (clock : Int) (objects : Store String ObjectContent) :
    Crew.Sound (grantContract kit cfg) (⟨fresh clock objects,.empty⟩ : Pooled) :=
  ⟨fresh_custody kit clock objects,(fun _ _ found => nomatch found),fun _ _ => trivial⟩

theorem custody_at (kit : Kit) (cfg : McpOAuthConfig) (clock : Int) (objects : Store String ObjectContent)
    (acts : List Act) (i : Nat) : Custody kit (at_ kit cfg (fresh clock objects) acts i).shared :=
  (Crew.sound_before (fun _ _ _ _ => trivial) (start_sound kit cfg clock objects) i).inv

end MemWal.OAuth
