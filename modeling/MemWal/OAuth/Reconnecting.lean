import MemWal.Account.Types
import MemWal.Library.Alone
import MemWal.OAuth.Bearers

namespace MemWal.OAuth
open Library Auth

-- No call fails, and the wallet's signature is good.
structure Smooth (c : Choice) : Prop where
  works : c.fault = none
  verified : c.verified = true

theorem smooth_default : Smooth {} := ⟨rfl,rfl⟩

-- The owner's transaction on the account.
def addDelegateKey (key : Bytes) (keys : List Bytes) : List Bytes :=
  if key ∉ keys ∧ keys.length < Account.maxDelegateKeys then keys ++ [key] else keys

def ObjectContent.addKey (key : Bytes) (content : ObjectContent) : ObjectContent := {content with
  fields := content.fields.map (fun fields => {fields with delegateKeys := fields.delegateKeys.map (addDelegateKey key)})}

def ownerFollows (s : World) (accountId : String) : Reply → World
  | .account true publicKey _ =>
    match hexDecode publicKey with
    | some key => happen s (.object accountId ((s.objects.get? accountId).map (ObjectContent.addKey key)))
    | none => s
  | _ => s

-- The consent page on its own: it asks which key is to be added, has the owner
-- follow the answer, and completes the session.
def Reconnects (kit : Kit) (cfg : McpOAuthConfig) (worker : Nat) (s : World) (sessionId raw accountId : String)
    (req : SessionCompleteRequest) : Prop :=
  Alone (serves kit worker) Smooth (fun answer s => ∃ reply, answer = .ok reply ∧
    Alone (serves kit worker) Smooth (fun outcome _ => ∃ url, outcome = .ok (.redirectUrl url))
      (sessionComplete kit cfg sessionId req) (ownerFollows s accountId reply)) (sessionAccount sessionId raw) s

-- A pending session and an active account with room for a key, whose owner signs.
structure Connecting (kit : Kit) (cfg : McpOAuthConfig) (s : World) (sessionId raw accountId : String)
    (req : SessionCompleteRequest) (session : SessionRow) (keys : List Bytes) : Prop where
  found : s.sessions.get? sessionId = some session
  pending : session.status = .pending
  unexpired : s.clock < session.expiresAt
  spelled : sanitizeSuiObjectId raw = .ok accountId
  account : ∃ owner ownerAddress, s.objects.get? accountId =
      some ⟨some (memwalAccountType cfg.account),some ⟨some owner,some true,some keys⟩⟩ ∧
    checkComplete req = .ok ⟨accountId,ownerAddress⟩ ∧ eqIgnoreAsciiCase owner ownerAddress = true
  room : keys.length < Account.maxDelegateKeys

section Calls
variable {kit : Kit} {cfg : McpOAuthConfig} {worker : Nat} {s : World} {α : Type} {post : Except Failure α → World → Prop}

theorem alone_call (op : Op) {next : Result op → Handler α} (value : Choice → Result op) (after : Choice → World)
    (commits : ∀ c, Smooth c → commit kit s worker op c = (after c,.ok (value c))) :
    Alone (serves kit worker) Smooth post (call op >>= next) s ↔
      ∀ c, Smooth c → Alone (serves kit worker) Smooth post (next (value c)) (after c) := by
  refine forall_congr' (fun c => imp_congr_right (fun smooth => ?_))
  have served : serves kit worker s op c = (after c,.ok (value c)) :=
    (serve_works smooth.works).trans (commits c smooth)
  rw [served]
  exact Iff.rfl

-- A call of which nothing is left to chance.
theorem alone_sure (op : Op) {next : Result op → Handler α} (value : Result op) (after : World)
    (commits : ∀ c, Smooth c → commit kit s worker op c = (after,.ok value)) :
    Alone (serves kit worker) Smooth post (call op >>= next) s ↔
      Alone (serves kit worker) Smooth post (next value) after := by
  rw [alone_call op (fun _ => value) (fun _ => after) commits]
  exact ⟨fun all => all {} smooth_default,fun one _ _ => one⟩

theorem alone_get {β : Type} {value : Option β} {error : Failure} {found : β} {next : β → Handler α}
    (there : value = some found) :
    Alone (serves kit worker) Smooth post (get value error >>= next) s ↔
      Alone (serves kit worker) Smooth post (next found) s :=
  Alone.orFail_bind_ok (Fallible.require_ok.mpr there)

theorem alone_attempt (op : Op) {next : Answer op → Handler α} (value : Result op) (after : World)
    (commits : ∀ c, Smooth c → commit kit s worker op c = (after,.ok value)) :
    Alone (serves kit worker) Smooth post (attempt op >>= next) s ↔
      Alone (serves kit worker) Smooth post (next (.ok value)) after := by
  have each : ∀ c, Smooth c → serves kit worker s op c = (after,.ok value) :=
    fun c smooth => (serve_works smooth.works).trans (commits c smooth)
  constructor
  · intro all
    have one := all {} smooth_default
    rw [each {} smooth_default] at one
    exact one
  · intro one c smooth
    rw [each c smooth]
    exact one

theorem alone_check {condition : Prop} [Decidable condition] {error : Failure} {next : Unit → Handler α}
    (holds : condition) : Alone (serves kit worker) Smooth post (check condition error >>= next) s ↔
      Alone (serves kit worker) Smooth post (next ()) s :=
  Alone.orFail_bind_ok (Fallible.ensure_ok.mpr holds)

theorem reusable_pick (s : World) (accountId : String) (next : Option (String × DelegateRow) → Prop) :
    (∀ c, Smooth c → next (s.findReusableOauthDelegate accountId c.pick)) ↔
      (s.reusable accountId = [] → next none) ∧ ∀ e ∈ s.reusable accountId, next (some e) := by
  constructor
  · intro all
    refine ⟨?_,?_⟩
    · intro empty
      have one := all {} smooth_default
      simp only [World.findReusableOauthDelegate,empty] at one
      exact one
    · intro e member
      obtain ⟨i,small,equal⟩ := List.mem_iff_getElem.mp member
      have one := all {pick := i} ⟨rfl,rfl⟩
      simp only [World.findReusableOauthDelegate,Nat.mod_eq_of_lt small,List.getElem?_eq_getElem small,equal] at one
      exact one
  · intro both c smooth
    unfold World.findReusableOauthDelegate
    cases found : (s.reusable accountId)[c.pick % (s.reusable accountId).length]? with
    | some e => exact both.2 e (List.mem_of_getElem? found)
    | none =>
      refine both.1 (List.eq_nil_iff_length_eq_zero.mpr ?_)
      by_contra some_
      have small := List.getElem?_eq_none_iff.mp found
      have under := Nat.mod_lt c.pick (Nat.pos_of_ne_zero some_)
      omega

end Calls

-- Whether a completion succeeds is asked of each part, given what comes after it.
section Parts
variable {kit : Kit} {cfg : McpOAuthConfig} {worker : Nat} {s : World}

abbrev Redirects (outcome : Except Failure Reply) (_ : World) : Prop := ∃ url, outcome = .ok (.redirectUrl url)

theorem issueCode_alone {session : SessionRow} (named : Named) (delegateRef : String)
    (fresh : s.codes.get? (kit.hash (codePrefix ++ kit.random s.drawn)) = none)
    (parses : (kit.parseUrl session.redirectUri).isSome = true) :
    Alone (serves kit worker) Smooth Redirects (issueCode kit cfg session named delegateRef) s := by
  obtain ⟨target,parsed⟩ := Option.isSome_iff_exists.mp parses
  have inserts : ∀ code, ∃ after, s.insertOauthCode kit code = (after,.ok (codePrefix ++ kit.random s.drawn)) := by
    intro code
    simp only [World.insertOauthCode,fresh]
    exact ⟨_,rfl⟩
  refine (alone_sure .now s.clock s (fun _ _ => rfl)).mpr ?_
  obtain ⟨after,inserted⟩ := inserts ⟨session.clientId,session.redirectUri,session.scope,session.resource,
    session.codeChallenge,delegateRef,named.accountId,named.ownerAddress,s.clock + cfg.codeTtlSecs * 1000⟩
  refine (alone_sure (.insertOauthCode _) _ after (fun _ _ => inserted)).mpr ?_
  exact (alone_get parsed).mpr ⟨_,rfl⟩

theorem chooseDelegate_alone {session : SessionRow} {accountId : String} {row : DelegateRow} {next : Chosen → Handler Reply}
    (own : s.delegates.get? session.delegateRef = some row) :
    Alone (serves kit worker) Smooth Redirects (chooseDelegate session accountId >>= next) s ↔
      (s.reusable accountId = [] →
        Alone (serves kit worker) Smooth Redirects (next ⟨session.delegateRef,row,false⟩) s) ∧
      ∀ e ∈ s.reusable accountId, Alone (serves kit worker) Smooth Redirects (next ⟨e.1,e.2,true⟩) s := by
  have fetched : Alone (serves kit worker) Smooth (Afterwards (serves kit worker) Smooth Redirects next)
      (reuseOrFetch session none) s ↔ Alone (serves kit worker) Smooth Redirects (next ⟨session.delegateRef,row,false⟩) s :=
    (alone_sure (.fetchOauthDelegate session.delegateRef) (some row) s (fun _ _ => by simp only [commit,own])).trans
      (alone_get rfl)
  rw [Alone.bind_iff]
  refine (alone_call (.findReusableOauthDelegate accountId) (fun c => s.findReusableOauthDelegate accountId c.pick)
    (fun _ => s) (fun _ _ => rfl)).trans ?_
  refine (reusable_pick s accountId (fun found => Alone (serves kit worker) Smooth
    (Afterwards (serves kit worker) Smooth Redirects next) (reuseOrFetch session found) s)).trans ?_
  exact and_congr (imp_congr_right (fun _ => fetched)) Iff.rfl

theorem checkAccount_active (config : Config) (key : Bytes) (owner : String) (keys : List Bytes) :
    checkAccount config key (some ⟨some (memwalAccountType config),some ⟨some owner,some true,some keys⟩⟩) =
      if key ∈ keys then .ok owner else .error .keyNotFound := by
  by_cases listed : key ∈ keys <;> simp [checkAccount,Fallible.require,Fallible.ensure,listed,bind,Except.bind,pure,Except.pure]

-- The check of the chosen key against the account.
theorem verifyDelegate_alone {accountId ownerAddress owner : String} {row : DelegateRow} {key : Bytes}
    {keys : List Bytes} {next : String → Handler Reply} (hex : hexDecode row.delegatePublicKey = some key)
    (account : s.objects.get? accountId =
      some ⟨some (memwalAccountType cfg.account),some ⟨some owner,some true,some keys⟩⟩)
    (same : eqIgnoreAsciiCase owner ownerAddress = true) :
    Alone (serves kit worker) Smooth Redirects (verifyDelegate cfg ⟨accountId,ownerAddress⟩ row >>= next) s ↔
      key ∈ keys ∧ Alone (serves kit worker) Smooth Redirects (next owner) s := by
  have checked := checkAccount_active cfg.account key owner keys
  rw [Alone.bind_iff,verifyDelegate,alone_get hex,
    alone_attempt (.getObject accountId) (s.objects.get? accountId) s (fun _ _ => rfl),account]
  by_cases listed : key ∈ keys
  · rw [if_pos listed] at checked
    refine (Alone.orFail_bind_ok checked).trans ((alone_check same).trans ?_)
    simp only [listed,true_and]
    exact Iff.rfl
  · rw [if_neg listed] at checked
    refine (Alone.orFail_bind_error checked).trans ?_
    simp [listed,Afterwards]

theorem activate_alone {chosen : Chosen} {accountId owner txDigest : String} {next : Unit → Handler Reply} :
    Alone (serves kit worker) Smooth Redirects (activate chosen accountId owner txDigest >>= next) s ↔
      Alone (serves kit worker) Smooth Redirects (next ())
        (if chosen.isReused then s else s.activateOauthDelegate chosen.delegateRef accountId owner txDigest) := by
  rw [Alone.bind_iff]
  unfold activate
  cases chosen.isReused with
  | true => exact Iff.rfl
  | false =>
    refine (forall_congr' (fun c => imp_congr_right (fun smooth => ?_))).trans ⟨fun all => all {} smooth_default,fun one _ _ => one⟩
    rw [show serves kit worker s (.activateOauthDelegate chosen.delegateRef accountId owner txDigest) c =
      (s.activateOauthDelegate chosen.delegateRef accountId owner txDigest,.ok ()) from serve_works smooth.works]
    exact Iff.rfl

-- A completion up to the choice of the key.
theorem sessionComplete_alone {sessionId : String} {req : SessionCompleteRequest} {session : SessionRow} {named : Named}
    (parsed : checkComplete req = .ok named) (found : s.sessions.get? sessionId = some session)
    (pending : session.status = .pending) (unexpired : s.clock < session.expiresAt) :
    Alone (serves kit worker) Smooth Redirects (sessionComplete kit cfg sessionId req) s ↔
      Alone (serves kit worker) Smooth Redirects (do
        let chosen ← chooseDelegate {session with status := .consumed} named.accountId
        let verifiedOwner ← verifyDelegate cfg named chosen.delegate
        activate chosen named.accountId verifiedOwner req.txDigest
        issueCode kit cfg {session with status := .consumed} named chosen.delegateRef)
        (s.consumeOauthSession sessionId).1 := by
  have consumes : (s.consumeOauthSession sessionId).2 = some {session with status := .consumed} := by
    simp [World.consumeOauthSession,found,pending,unexpired]
  have signed : ∀ c, Smooth c → commit kit s worker (.verifyPersonal named.ownerAddress
      (oauthOwnerProofMessage sessionId named.accountId named.ownerAddress) req.ownerSignature) c = (s,.ok ()) :=
    fun c smooth => by simp only [commit,smooth.verified,if_true]
  unfold sessionComplete
  rw [Alone.orFail_bind_ok parsed,Alone.bind_iff]
  refine (alone_attempt _ () s signed).trans ?_
  refine (alone_sure (.consumeOauthSession sessionId) (some {session with status := .consumed})
    (s.consumeOauthSession sessionId).1 (fun _ _ => by simp only [commit,consumes])).trans ?_
  exact alone_get rfl

theorem sessionAccount_alone {sessionId raw : String} {session : SessionRow} {row : DelegateRow}
    {post : Except Failure Reply → World → Prop} (found : s.sessions.get? sessionId = some session)
    (unexpired : s.clock < session.expiresAt) (own : s.delegates.get? session.delegateRef = some row) :
    Alone (serves kit worker) Smooth post (sessionAccount sessionId raw) s ↔
      (s.reusable raw = [] → post (.ok (.account true row.delegatePublicKey row.delegateAddress)) s) ∧
      ∀ e ∈ s.reusable raw, post (.ok (.account false e.2.delegatePublicKey e.2.delegateAddress)) s := by
  have fetched : s.fetchOauthSession sessionId = some session := by
    simp [World.fetchOauthSession,found,unexpired]
  refine (alone_sure (.fetchOauthSession sessionId) (some session) s (fun _ _ => by simp only [commit,fetched])).trans ?_
  refine (alone_get rfl).trans ?_
  refine (alone_call (.findReusableOauthDelegate raw) (fun c => s.findReusableOauthDelegate raw c.pick)
    (fun _ => s) (fun _ _ => rfl)).trans ?_
  refine (reusable_pick s raw (fun found => Alone (serves kit worker) Smooth post (reusableOrNew session found) s)).trans ?_
  refine and_congr (imp_congr_right (fun _ => ?_)) Iff.rfl
  exact (alone_sure (.fetchOauthDelegate session.delegateRef) (some row) s (fun _ _ => by simp only [commit,own])).trans
    (alone_get rfl)

end Parts

-- What a reconnection needs of the tables, and holds of them at any time.
structure Stocked (s : World) : Prop where
  keyed : ∀ id row, s.sessions.get? id = some row → (s.delegates.get? row.delegateRef).isSome = true
  spelled : ∀ delegateRef row accountId, s.delegates.get? delegateRef = some row → row.accountId = some accountId →
    ∃ raw, sanitizeSuiObjectId raw = .ok accountId

section Stock
variable {kit : Kit} {cfg : McpOAuthConfig} {s now : World} {worker : Nat}

theorem Stocked.later (stocked : Stocked s) (later : Later s now)
    (sessions : ∀ id row, now.sessions.get? id = some row →
      (∃ old, s.sessions.get? id = some old ∧ old.delegateRef = row.delegateRef) ∨
        (s.delegates.get? row.delegateRef).isSome = true)
    (delegates : ∀ delegateRef row, now.delegates.get? delegateRef = some row →
      (∃ old, s.delegates.get? delegateRef = some old ∧ old.accountId = row.accountId) ∨
        ∀ accountId, row.accountId = some accountId → ∃ raw, sanitizeSuiObjectId raw = .ok accountId) : Stocked now := by
  refine ⟨?_,?_⟩
  · intro id row found
    have there : (s.delegates.get? row.delegateRef).isSome = true := by
      rcases sessions id row found with ⟨old,before,same⟩ | there
      · exact same ▸ stocked.keyed id old before
      · exact there
    obtain ⟨old,before⟩ := Option.isSome_iff_exists.mp there
    obtain ⟨next,after,_⟩ := later.delegates _ old before
    exact Option.isSome_iff_exists.mpr ⟨next,after⟩
  · intro delegateRef row accountId found named
    rcases delegates delegateRef row found with ⟨old,before,same⟩ | spelled
    · exact stocked.spelled delegateRef old accountId before (same.trans named)
    · exact spelled accountId named

theorem Stocked.of_same (stocked : Stocked s) (later : Later s now)
    (sessions : ∀ id row, now.sessions.get? id = some row → s.sessions.get? id = some row)
    (delegates : now.delegates = s.delegates) : Stocked now := by
  refine stocked.later later (fun id row found => .inl ⟨row,sessions id row found,rfl⟩) ?_
  rw [delegates]
  exact fun _ row found => .inl ⟨row,found,rfl⟩

theorem commit_stocked (stocked : Stocked s) {op : Op} (may : MayRecord kit cfg s op) (c : Choice) :
    Stocked (commit kit s worker op c).1 := by
  have later := @commit_later kit s worker op c
  cases op with
  | insertOauthSession session query =>
    rcases insertOauthSession_cases kit s session query with equal | ⟨fresh,_,delegate,equal⟩
    · simp only [commit,equal] at later ⊢
      exact stocked.of_same later (fun _ _ found => found) rfl
    · simp only [commit,equal] at later ⊢
      refine stocked.later later ?_ (fun _ row found => .inl ⟨row,found,rfl⟩)
      intro id row found
      rw [Store.get?_insert _ fresh] at found
      split at found
      · cases found
        exact .inr delegate
      · exact .inl ⟨row,found,rfl⟩
  | consumeOauthSession sessionId =>
    rcases consumeOauthSession_cases s sessionId with equal | ⟨session,there,_,_,equal⟩
    · simp only [commit,equal] at later ⊢
      exact stocked
    · simp only [commit,equal] at later ⊢
      refine stocked.later later ?_ (fun _ row found => .inl ⟨row,found,rfl⟩)
      intro id row found
      rw [Store.get?_put there] at found
      split at found
      · rename_i same
        cases found
        exact .inl ⟨session,same ▸ there,rfl⟩
      · exact .inl ⟨row,found,rfl⟩
  | insertOauthDelegate key label =>
    rcases insertOauthDelegate_cases kit s key label with equal | ⟨_,_,fresh,equal⟩
    · simp only [commit,equal] at later ⊢
      exact stocked.of_same later (fun _ _ found => found) rfl
    · simp only [commit,equal] at later ⊢
      refine stocked.later later (fun _ row found => .inl ⟨row,found,rfl⟩) ?_
      intro ref row found
      rw [Store.get?_insert _ fresh] at found
      split at found
      · cases found
        exact .inr (by simp)
      · exact .inl ⟨row,found,rfl⟩
  | activateOauthDelegate delegateRef accountId ownerAddress txDigest =>
    refine stocked.later later (fun _ row found => .inl ⟨row,found,rfl⟩) ?_
    intro ref row found
    simp only [commit,World.activateOauthDelegate,get?_modify,Option.map_eq_some_iff] at found
    obtain ⟨old,before,equal⟩ := found
    split at equal
    · subst equal
      refine .inr ?_
      intro named same
      cases same
      exact may
    · exact .inl ⟨old,before,congrArg DelegateRow.accountId equal⟩
  | insertOauthClient client =>
    rcases insertOauthClient_cases kit s client with equal | ⟨_,_,_,equal⟩ <;> simp only [commit,equal] at later ⊢ <;>
      exact stocked.of_same later (fun _ _ found => found) rfl
  | insertOauthCode code =>
    rcases insertOauthCode_cases kit s code with equal | ⟨_,equal⟩ <;> simp only [commit,equal] at later ⊢ <;>
      exact stocked.of_same later (fun _ _ found => found) rfl
  | consumeOauthCode clientId sha =>
    rcases consumeOauthCode_cases s worker clientId sha with equal | ⟨_,_,_,_,equal⟩ <;>
      simp only [commit,equal] at later ⊢ <;> exact stocked.of_same later (fun _ _ found => found) rfl
  | rotateOauthRefreshToken presented clientId access refresh =>
    rcases rotate_cases kit s presented clientId access refresh with ⟨_,_,equal⟩ | ⟨equal,_⟩ <;>
      simp only [commit,equal] at later ⊢ <;> exact stocked.of_same later (fun _ _ found => found) rfl
  | insertOauthGrant grant =>
    refine stocked.of_same later ?_ ?_
    · simp only [commit,World.insertOauthGrant]
      split
      · exact fun _ _ found => found
      · dsimp only
        split <;> exact fun _ _ found => found
    · simp only [commit,World.insertOauthGrant]
      split
      · rfl
      · dsimp only
        split <;> rfl
  | insertOauthToken start token =>
    refine stocked.of_same later ?_ ?_
    · simp only [commit,World.insertOauthToken]
      split
      · exact fun _ _ found => found
      · dsimp only
        split <;> exact fun _ _ found => found
    · simp only [commit,World.insertOauthToken]
      split
      · rfl
      · dsimp only
        split <;> rfl
  | _ => exact stocked.of_same later (fun _ _ found => found) rfl

theorem happen_stocked (stocked : Stocked s) (event : Event) : Stocked (happen s event) := by
  refine stocked.of_same (happen_later event) ?_ ?_
  · cases event with
    | object objectId content => cases content <;> exact fun _ _ found => found
    | evictExpiredOauthSessions => exact fun _ _ found => (Store.get?_keep.mp found).1
    | pruneUnconsumedOauthClients => exact fun _ _ found => (Store.get?_keep.mp found).1
    | _ => exact fun _ _ found => found
  · cases event with
    | object objectId content => cases content <;> rfl
    | _ => rfl

theorem stocked_at (kit : Kit) (cfg : McpOAuthConfig) (clock : Int) (objects : Store String ObjectContent)
    (acts : List Act) (i : Nat) : Stocked (at_ kit cfg (fresh clock objects) acts i).shared := by
  refine Crew.invariant (J:=Stocked) (K:=fun _ _ _ _ => True) (fun _ _ _ _ => trivial) (fresh_recorded kit cfg clock objects)
    (fun _ _ _ _ _ _ _ => trivial) ⟨nofun,nofun⟩ ?_ ?_ (fun _ event _ stocked => happen_stocked stocked event) i
  · intro s k op c _ may _ stocked
    change Stocked (serve kit s k op c).1
    rcases serve_state kit s k op c with equal | equal
    · rw [equal]
      exact stocked
    · rw [equal]
      exact commit_stocked stocked may c
  · exact fun s k _ stocked => ⟨stocked.keyed,stocked.spelled⟩

end Stock
end MemWal.OAuth
