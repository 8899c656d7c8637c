import MemWal.OAuth.Grants

namespace MemWal.OAuth
open Library Auth

-- One worker's calls.
abbrev Call := Made World Op Choice

def serves (kit : Kit) (worker : Nat) (s : World) (op : Op) (c : Choice) : World × Answer op := serve kit s worker op c

section Completed
variable {kit : Kit} {cfg : McpOAuthConfig} {worker : Nat} {calls : List Call}

-- A call that does not fail on the way.
theorem call_works {op : Op} {result : Except Failure (Result op)} {value : World → Result op}
    (answers : ∀ s c, (commit kit s worker op c).2 = .ok (value s))
    (works : ∀ made ∈ calls, made.choice.fault = none) (completes : Completes (serves kit worker) (call op) calls result) :
    ∃ state choice, calls = [⟨state,op,choice⟩] ∧ result = .ok (value state) ∧
      serve kit state worker op choice = commit kit state worker op choice := by
  rcases Completes.bind completes with ⟨_,_,failed⟩ | ⟨first,rest,answer,rfl,asked,given⟩
  · obtain ⟨_,_,_,equal⟩ := Completes.perform failed
    cases equal
  · obtain ⟨state,choice,rfl,equal⟩ := Completes.perform asked
    cases equal
    obtain ⟨rfl,rfl⟩ := Completes.orFail given
    have commits : serve kit state worker op choice = commit kit state worker op choice :=
      serve_works (works _ List.mem_cons_self)
    refine ⟨state,choice,rfl,?_,commits⟩
    rw [serves,commits,answers]
    rfl

theorem call_made {op : Op} {value : Result op}
    (completes : Completes (serves kit worker) (call op) calls (.ok value)) :
    ∃ state choice, calls = [⟨state,op,choice⟩] ∧ (serve kit state worker op choice).2 = .ok value := by
  obtain ⟨_,_,answer,rfl,asked,given⟩ := Completes.bind_ok completes
  obtain ⟨state,choice,rfl,equal⟩ := Completes.perform asked
  cases equal
  obtain ⟨rfl,answered⟩ := Completes.orFail_ok given
  exact ⟨state,choice,rfl,answered⟩

theorem call_ok {op : Op} {value : Result op}
    (completes : Completes (serves kit worker) (call op) calls (.ok value)) :
    ∃ state choice, calls = [⟨state,op,choice⟩] ∧ (commit kit state worker op choice).2 = .ok value := by
  obtain ⟨state,choice,rfl,answered⟩ := call_made completes
  exact ⟨state,choice,rfl,(serve_ok answered).2⟩

theorem get_completes {α : Type} {value : Option α} {error : Failure} {result : Except Failure α}
    (completes : Completes (serves kit worker) (get value error) calls result) :
    calls = [] ∧ result = Fallible.require value error := by
  obtain ⟨none_,equal⟩ := Completes.orFail completes
  refine ⟨none_,equal.trans ?_⟩
  cases value <;> rfl

theorem authenticated {authorization : Option String} {req : TokenRequest} {clientId : String} {secret : Option String}
    {client : ClientRow} {result : Except Failure (String × ClientRow)}
    (credentials : clientCredentialsFromRequest kit authorization req = some (clientId,secret))
    (checked : checkSecret kit client secret = .ok ())
    (known : ∀ made ∈ calls, made.state.fetchOauthClient clientId = some client)
    (works : ∀ made ∈ calls, made.choice.fault = none)
    (completes : Completes (serves kit worker) (authenticateClient kit authorization req) calls result) :
    result = .ok (clientId,client) := by
  unfold authenticateClient at completes
  rw [credentials] at completes
  rcases Completes.bind completes with ⟨_,_,failed⟩ | ⟨_,_,_,rfl,given,completes1⟩
  · cases (get_completes failed).2
  obtain ⟨rfl,equal⟩ := get_completes given
  cases equal
  rcases Completes.bind completes1 with ⟨_,_,failed⟩ | ⟨_,_,_,rfl,asked,completes2⟩
  · obtain ⟨_,_,_,equal,_⟩ := call_works (fun _ _ => rfl) works failed
    cases equal
  obtain ⟨state,_,rfl,equal,_⟩ := call_works (fun _ _ => rfl)
    (fun made member => works made (by simp [member])) asked
  cases equal
  have found := known _ List.mem_cons_self
  rw [found] at completes2
  rcases Completes.bind completes2 with ⟨_,_,failed⟩ | ⟨_,_,_,rfl,given,completes3⟩
  · cases (get_completes failed).2
  obtain ⟨rfl,equal⟩ := get_completes given
  cases equal
  rcases Completes.bind completes3 with ⟨_,_,failed⟩ | ⟨_,rest,_,rfl,given,completes4⟩
  · obtain ⟨_,equal⟩ := Completes.orFail failed
    rw [checked] at equal
    cases equal
  cases rest with
  | nil => exact completes4
  | cons next more => cases completes4

-- A refresh token that was already used, presented by its client.
theorem reused_completes {authorization : Option String} {req : TokenRequest} {clientId presented grantId : String}
    {secret : Option String} {client : ClientRow} {result : Except Failure Reply}
    (credentials : clientCredentialsFromRequest kit authorization req = some (clientId,secret))
    (checked : checkSecret kit client secret = .ok ()) (presents : req.refreshToken = some presented)
    (known : ∀ made ∈ calls, made.state.fetchOauthClient clientId = some client)
    (used : ∀ made ∈ calls, ∃ row, made.state.tokenWithDelegate (kit.hash presented) = some row ∧
      row.tokenType = .refresh ∧ row.clientId = clientId ∧ row.grantId = grantId ∧ row.revokedAt ≠ none)
    (works : ∀ made ∈ calls, made.choice.fault = none)
    (completes : Completes (serves kit worker) (refresh kit cfg authorization req) calls result) :
    ∃ made ∈ calls, (serve kit made.state worker made.op made.choice).1 =
      made.state.revokeOauthGrant grantId made.choice.missed := by
  unfold refresh at completes
  rcases Completes.bind completes with ⟨_,_,failed⟩ | ⟨first,_,_,rfl,given,completes1⟩
  · cases authenticated credentials checked known works failed
  cases authenticated credentials checked (fun made member => known made (List.mem_append_left _ member))
    (fun made member => works made (List.mem_append_left _ member)) given
  rw [presents] at completes1
  rcases Completes.bind completes1 with ⟨_,_,failed⟩ | ⟨_,_,_,rfl,given,completes2⟩
  · cases (get_completes failed).2
  obtain ⟨rfl,equal⟩ := get_completes given
  cases equal
  rcases Completes.bind completes2 with ⟨_,rfl,failed⟩ | ⟨_,_,_,rfl,asked,completes3⟩
  · obtain ⟨_,_,_,equal,_⟩ := call_works (fun _ _ => rfl)
      (fun made member => works made (List.mem_append_right _ member)) failed
    cases equal
  obtain ⟨state,choice,rfl,equal,_⟩ := call_works (fun _ _ => rfl) (fun made member => works made (by simp_all)) asked
  cases equal
  obtain ⟨preview,found,type,owner,grant,revoked⟩ := used ⟨state,.fetchOauthTokenWithDelegate (kit.hash presented),choice⟩ (by simp)
  rw [found] at completes3
  rcases Completes.bind completes3 with ⟨_,_,failed⟩ | ⟨_,_,_,rfl,given,completes4⟩
  · cases (get_completes failed).2
  obtain ⟨rfl,equal⟩ := get_completes given
  cases equal
  have checkedPreview : checkPreview preview clientId = .ok () := by
    simp [checkPreview,type,owner,Fallible.ensure]
  rcases Completes.bind completes4 with ⟨_,_,failed⟩ | ⟨_,_,_,rfl,given,completes5⟩
  · obtain ⟨_,equal⟩ := Completes.orFail failed
    rw [checkedPreview] at equal
    cases equal
  obtain ⟨rfl,_⟩ := Completes.orFail given
  have gone : (preview.revokedAt.isSome || preview.grantRevokedAt.isSome) = true := by
    cases time : preview.revokedAt with
    | none => exact absurd time revoked
    | some _ => rfl
  rw [gone] at completes5
  -- the last call, whether or not it is reported to have gone through
  have last : ∀ {result : Except Failure Unit} {rest : List Call}, (∀ made ∈ rest, made.choice.fault = none) →
      Completes (serves kit worker) (call (.revokeOauthGrant preview.grantId)) rest result →
      ∃ made ∈ rest, (serve kit made.state worker made.op made.choice).1 =
        made.state.revokeOauthGrant grantId made.choice.missed := by
    intro result rest works completes
    obtain ⟨state,choice,rfl,_,commits⟩ := call_works (fun _ _ => rfl) works completes
    refine ⟨_,List.mem_cons_self,?_⟩
    rw [commits,grant]
    rfl
  rcases Completes.bind completes5 with ⟨_,_,failed⟩ | ⟨_,rest,_,rfl,asked,_⟩
  · obtain ⟨made,member,revoked⟩ := last (fun made member => works made (by simp_all)) failed
    exact ⟨made,by simp_all,revoked⟩
  · obtain ⟨made,member,revoked⟩ := last (fun made member => works made (by simp_all)) asked
    exact ⟨made,by simp_all,revoked⟩

-- A bearer that is accepted was read when neither it nor its grant was revoked.
theorem bearer_completes {presented : String} {identity : ResolvedOAuthIdentity}
    (completes : Completes (serves kit worker) (resolveOauthBearer kit cfg presented) calls (.ok identity)) :
    ∃ made ∈ calls, ∃ row, made.op = .fetchOauthTokenWithDelegate (kit.hash presented) ∧
      (serve kit made.state worker (.fetchOauthTokenWithDelegate (kit.hash presented)) made.choice).2 = .ok (some row) ∧
      made.state.tokenWithDelegate (kit.hash presented) = some row ∧ row.tokenType = .access ∧
      row.revokedAt = none ∧ row.grantRevokedAt = none ∧ row.delegateStatus = .active ∧
      kit.decrypt cfg.encryptionKey row.encryptedPrivateKey = some identity.delegatePrivateKey ∧
      identity = ⟨row.accountId,identity.delegatePrivateKey,row.grantId,row.scope⟩ := by
  unfold resolveOauthBearer at completes
  obtain ⟨_,_,_,rfl,given,completes1⟩ := Completes.bind_ok completes
  obtain ⟨rfl,_⟩ := Completes.orFail_ok given
  obtain ⟨_,_,answer,rfl,asked,completes2⟩ := Completes.bind_ok completes1
  obtain ⟨state,choice,rfl,equal⟩ := Completes.perform asked
  cases equal
  obtain ⟨_,_,read,rfl,given,completes3⟩ := Completes.bind_ok completes2
  obtain ⟨rfl,answered⟩ := Completes.orFail_ok given
  obtain ⟨_,_,row,rfl,given,completes4⟩ := Completes.bind_ok completes3
  obtain ⟨rfl,found⟩ := Completes.orFail_ok given
  have found := Fallible.require_ok.mp found
  subst found
  have read := (serve_ok answered).2
  simp only [commit,Except.ok.injEq] at read
  obtain ⟨_,_,now,rfl,_,completes5⟩ := Completes.bind_ok completes4
  obtain ⟨_,_,_,rfl,given,completes6⟩ := Completes.bind_ok completes5
  obtain ⟨rfl,checked⟩ := Completes.orFail_ok given
  simp only [checkBearer,Fallible.bind_ok,Fallible.ensure_ok,exists_const] at checked
  obtain ⟨type,⟨live,grantLive⟩,_,active⟩ := checked
  obtain ⟨_,rest,privateKey,rfl,given,completes7⟩ := Completes.bind_ok completes6
  obtain ⟨rfl,decrypted⟩ := Completes.orFail_ok given
  cases rest with
  | cons next more => cases completes7
  | nil =>
    cases completes7
    exact ⟨⟨state,.fetchOauthTokenWithDelegate (kit.hash presented),choice⟩,by simp,row,rfl,answered,read,type,live,
      grantLive,active,Fallible.require_ok.mp decrypted,rfl⟩

-- A refresh that goes through has met its token and the grant unrevoked.
theorem refresh_completes {authorization : Option String} {req : TokenRequest} {reply : Reply}
    (completes : Completes (serves kit worker) (refresh kit cfg authorization req) calls (.ok reply)) :
    ∃ presented clientId, ∃ made ∈ calls, ∃ access refresh pair row, req.refreshToken = some presented ∧
      made.op = .rotateOauthRefreshToken (kit.hash presented) clientId access refresh ∧
      (serve kit made.state worker (.rotateOauthRefreshToken (kit.hash presented) clientId access refresh)
        made.choice).2 = .ok (some pair) ∧
      Rotates kit made.state (kit.hash presented) clientId access refresh row := by
  unfold refresh at completes
  obtain ⟨_,_,client,rfl,_,completes1⟩ := Completes.bind_ok completes
  obtain ⟨_,_,presented,rfl,given,completes2⟩ := Completes.bind_ok completes1
  obtain ⟨rfl,presents⟩ := Completes.orFail_ok given
  obtain ⟨_,_,found,rfl,_,completes3⟩ := Completes.bind_ok completes2
  obtain ⟨_,_,preview,rfl,_,completes4⟩ := Completes.bind_ok completes3
  obtain ⟨_,_,_,rfl,_,completes5⟩ := Completes.bind_ok completes4
  split at completes5
  · obtain ⟨_,rest,_,rfl,_,completes6⟩ := Completes.bind_ok completes5
    cases rest <;> cases completes6
  unfold rotate at completes5
  obtain ⟨_,_,now,rfl,_,completes6⟩ := Completes.bind_ok completes5
  obtain ⟨_,_,_,rfl,_,completes7⟩ := Completes.bind_ok completes6
  obtain ⟨_,_,pair,rfl,_,completes8⟩ := Completes.bind_ok completes7
  obtain ⟨_,_,rotated,rfl,asked,completes9⟩ := Completes.bind_ok completes8
  obtain ⟨_,_,tokens,rfl,given,_⟩ := Completes.bind_ok completes9
  obtain ⟨state,choice,rfl,answered⟩ := call_made asked
  obtain ⟨_,same⟩ := Completes.orFail_ok given
  have same := Fallible.require_ok.mp same
  subst same
  rcases rotate_cases kit state (kit.hash presented) client.1 pair.1 pair.2 with ⟨row,rotates,_⟩ | ⟨_,none_⟩
  · exact ⟨presented,client.1,⟨state,.rotateOauthRefreshToken (kit.hash presented) client.1 pair.1 pair.2,choice⟩,by simp,
      pair.1,pair.2,tokens,row,Fallible.require_ok.mp presents,rfl,answered,rotates⟩
  · exact absurd (serve_ok answered).2 (none_ tokens)

end Completed

def GrantRevoked (s : World) (grantId : String) : Prop :=
  ∃ row, s.grants.get? grantId = some row ∧ row.revokedAt ≠ none

-- A token that a check of its row would still let through.
def Usable (s : World) (sha : String) : Prop :=
  ∃ row, s.tokenWithDelegate sha = some row ∧ row.revokedAt = none ∧ row.grantRevokedAt = none

section Revocations
variable {kit : Kit} {s now : World} {worker : Nat}

theorem GrantRevoked.later {grantId : String} (revoked : GrantRevoked s grantId) (later : Later s now) : GrantRevoked now grantId := by
  obtain ⟨row,found,time⟩ := revoked
  obtain ⟨next,after,_,stays⟩ := later.grants grantId row found
  exact ⟨next,after,stays time⟩

theorem tokenWithDelegate_grant {sha : String} {row : TokenWithDelegateRow} (found : s.tokenWithDelegate sha = some row)
    (live : row.grantRevokedAt = none) : ¬ GrantRevoked s row.grantId := by
  obtain ⟨_,_,_,_,grant,_,same⟩ := tokenWithDelegate_some.mp found
  intro given
  obtain ⟨other,there,time⟩ := given
  subst same
  cases grant.symm.trans there
  exact time live

theorem unusable {sha : String} {row : TokenRow} (found : s.tokens.get? sha = some row) (revoked : GrantRevoked s row.grantId) :
    ¬ Usable s sha := by
  intro given
  obtain ⟨joined,there,_,live⟩ := given
  have notRevoked := tokenWithDelegate_grant there live
  obtain ⟨token,_,_,same,_,_,equal⟩ := tokenWithDelegate_some.mp there
  cases found.symm.trans same
  subst equal
  exact notRevoked revoked

-- What the store answers about a token of a revoked grant: a look-up that the check
-- of a bearer turns down, and a rotation that takes and inserts nothing.
structure Refused (kit : Kit) (s : World) (sha : String) : Prop where
  bearer : ∀ worker choice row clock, (serve kit s worker (.fetchOauthTokenWithDelegate sha) choice).2 = .ok (some row) →
    checkBearer row clock ≠ .ok ()
  rotation : ∀ worker choice clientId access refresh,
    (∀ pair, (serve kit s worker (.rotateOauthRefreshToken sha clientId access refresh) choice).2 ≠ .ok (some pair)) ∧
    (serve kit s worker (.rotateOauthRefreshToken sha clientId access refresh) choice).1.tokens = s.tokens

theorem refused {sha : String} {row : TokenRow} (found : s.tokens.get? sha = some row)
    (revoked : GrantRevoked s row.grantId) : Refused kit s sha := by
  have apart : ∀ joined, s.tokenWithDelegate sha = some joined → joined.grantRevokedAt ≠ none := by
    intro joined there live
    have standing := tokenWithDelegate_grant there live
    obtain ⟨token,_,_,same,_,_,equal⟩ := tokenWithDelegate_some.mp there
    cases found.symm.trans same
    subst equal
    exact standing revoked
  refine ⟨?_,?_⟩
  · intro worker choice joined clock answered checked
    have read := (serve_ok answered).2
    simp only [commit,Except.ok.injEq] at read
    simp only [checkBearer,Fallible.bind_ok,Fallible.ensure_ok,exists_const] at checked
    exact apart joined read checked.2.1.2
  · intro worker choice clientId access refresh
    rcases rotate_cases kit s sha clientId access refresh with ⟨joined,rotates,_⟩ | ⟨unmoved,none_⟩
    · exact absurd rotates.grantLive (apart joined rotates.found)
    · refine ⟨fun pair answered => none_ pair (serve_ok answered).2,?_⟩
      have tokens : (commit kit s worker (.rotateOauthRefreshToken sha clientId access refresh) choice).1.tokens =
          s.tokens := (congrArg World.tokens unmoved : _)
      rcases serve_state kit s worker (.rotateOauthRefreshToken sha clientId access refresh) choice with same | same
      · rw [same]
      · rw [same,tokens]

theorem revoked_by {grantId : String} (missed : List String) {row : GrantRow}
    (found : s.grants.get? grantId = some row) : GrantRevoked (s.revokeOauthGrant grantId missed) grantId := by
  refine ⟨{row with revokedAt := row.revokedAt <|> some s.clock},?_,?_⟩
  · simp only [World.revokeOauthGrant,get?_modify,found,Option.map_some,if_true]
  · cases row.revokedAt <;> simp

end Revocations

section Runs
variable (kit : Kit) (cfg : McpOAuthConfig) (start : World) (acts : List Act)

-- A request that was started at position `i` of a run and has ended within it.
structure Served (i worker : Nat) (request : Request) (result : Except Failure Reply) : Prop where
  spawned : acts[i]? = some (.spawn worker request)
  free : (at_ kit cfg start acts i).workers.get? worker = none
  completes : Completes (serves kit worker) (handle kit cfg request) (callsOf kit cfg start acts i worker) result

instance (i worker : Nat) (request : Request) (result : Except Failure Reply) :
    Decidable (Served kit cfg start acts i worker request result) :=
  decidable_of_iff (acts[i]? = some (.spawn worker request) ∧ (at_ kit cfg start acts i).workers.get? worker = none ∧
      Completes (serves kit worker) (handle kit cfg request) (callsOf kit cfg start acts i worker) result)
    ⟨fun all => ⟨all.1,all.2.1,all.2.2⟩,fun served => ⟨served.spawned,served.free,served.completes⟩⟩

-- What is consumed, issued and live at one moment.
structure SingleUse (s : World) : Prop where
  session : ∀ id, s.consumptions id ≤ 1
  code : ∀ sha, s.redemptions sha ≤ 1
  grant : ∀ sha, s.grantings sha ≤ s.redemptions sha
  pair : ∀ sha type, s.issues sha type ≤ s.redemptions sha
  origin : ∀ sha row, s.tokens.get? sha = some row → Origin s.log sha
  refreshToken : ∀ a b left right, s.tokens.get? a = some left → s.tokens.get? b = some right → left.Live → right.Live →
    left.grantId = right.grantId → a = b
  rotation : ∀ sha, s.rotations sha ≤ 1
  consumed : ∀ sha, s.rotations sha ≠ 0 → ∃ row, s.tokens.get? sha = some row ∧ row.tokenType = .refresh ∧
    row.revokedAt ≠ none

-- The refresh token `row` was consumed before a request of its client that presents it.
structure Reuse (s : World) (authorization : Option String) (req : TokenRequest) (sha : String) (row : TokenRow)
    (grant : GrantRow) : Prop where
  refreshes : req.grantType = "refresh_token"
  presents : req.refreshToken.map kit.hash = some sha
  token : s.tokens.get? sha = some row
  refresh : row.tokenType = .refresh
  consumed : row.revokedAt ≠ none
  granted : s.grants.get? row.grantId = some grant
  client : ∃ secret client, clientCredentialsFromRequest kit authorization req = some (grant.clientId,secret) ∧
    s.fetchOauthClient grant.clientId = some client ∧ checkSecret kit client secret = .ok ()

-- The grant that a request acts on when it accepts a token.
def Accepts (s : World) : Request → Reply → String → Prop
  | .bearer _,.identity identity,grantId => identity.grantId = grantId
  | .token _ req,_,grantId => req.grantType = "refresh_token" ∧
    ∃ presented row, req.refreshToken = some presented ∧ s.tokens.get? (kit.hash presented) = some row ∧
      row.grantId = grantId
  | _,_,_ => False

-- The call on which a request accepts its token: the look-up of a bearer, the
-- rotation of a refresh token.
def Decides (s : World) (worker : Nat) (choice : Choice) (grantId : String) : Request → Op → Prop
  | .bearer presented,op => op = .fetchOauthTokenWithDelegate (kit.hash presented) ∧
    ∃ row, (serve kit s worker (.fetchOauthTokenWithDelegate (kit.hash presented)) choice).2 = .ok (some row) ∧
      row.grantId = grantId ∧ row.revokedAt = none ∧ row.grantRevokedAt = none
  | .token _ req,op => ∃ presented clientId access refresh pair, req.refreshToken = some presented ∧
    op = .rotateOauthRefreshToken (kit.hash presented) clientId access refresh ∧
    (serve kit s worker (.rotateOauthRefreshToken (kit.hash presented) clientId access refresh) choice).2 =
      .ok (some pair)
  | _,_ => False

structure Lifecycle : Prop where
  single : ∀ i, SingleUse (at_ kit cfg start acts i).shared
  reuse : ∀ i worker authorization req result sha row grant,
    Served kit cfg start acts i worker (.token authorization req) result →
    (∀ made ∈ callsOf kit cfg start acts i worker, made.choice.fault = none) →
    Reuse kit (at_ kit cfg start acts i).shared authorization req sha row grant →
    GrantRevoked (at_ kit cfg start acts acts.length).shared row.grantId
  lasting : ∀ i j grantId, i ≤ j → GrantRevoked (at_ kit cfg start acts i).shared grantId →
    GrantRevoked (at_ kit cfg start acts j).shared grantId ∧
    ∀ sha row, (at_ kit cfg start acts j).shared.tokens.get? sha = some row → row.grantId = grantId →
      ¬ Usable (at_ kit cfg start acts j).shared sha ∧ Refused kit (at_ kit cfg start acts j).shared sha
  -- every revocation comes after the call on which a request accepted its token
  accepted : ∀ i worker request reply grantId, Served kit cfg start acts i worker request (.ok reply) →
    Accepts kit (at_ kit cfg start acts acts.length).shared request reply grantId →
    ∃ p act op choice, i < p ∧ acts[p]? = some act ∧
      Crew.served (at_ kit cfg start acts p) act = some (worker,op,choice) ∧
      Decides kit (at_ kit cfg start acts p).shared worker choice grantId request op ∧
      ∀ q, GrantRevoked (at_ kit cfg start acts q).shared grantId → p < q
  -- and so does every rotation, also of a request that breaks off
  rotated : ∀ i presented access refresh, .rotated presented access refresh ∉ (at_ kit cfg start acts i).shared.log →
    .rotated presented access refresh ∈ (at_ kit cfg start acts (i+1)).shared.log →
    ∃ row, (at_ kit cfg start acts i).shared.tokens.get? presented = some row ∧ row.tokenType = .refresh ∧
      ∀ q, GrantRevoked (at_ kit cfg start acts q).shared row.grantId → i < q

section Proof
variable {kit : Kit} {cfg : McpOAuthConfig} {clock : Int} {objects : Store String ObjectContent} {acts : List Act}

theorem singleUse_at (kit : Kit) (cfg : McpOAuthConfig) (clock : Int) (objects : Store String ObjectContent)
    (acts : List Act) (i : Nat) : SingleUse (at_ kit cfg (fresh clock objects) acts i).shared := by
  have custody := custody_at kit cfg clock objects acts i
  refine ⟨custody.sessions.once,custody.codes.once,?_,?_,(rooted_at kit cfg clock objects acts i).origin,
    custody.tokens.single,custody.tokens.once,custody.tokens.replaced⟩
  · intro sha
    by_cases none_ : World.redemptions (at_ kit cfg (fresh clock objects) acts i).shared sha = 0
    · rw [(custody.exchanges.unused sha none_).1]
      exact Nat.zero_le _
    · have once := (custody.exchanges.once sha).1
      omega
  · intro sha type
    by_cases none_ : World.redemptions (at_ kit cfg (fresh clock objects) acts i).shared sha = 0
    · rw [(custody.exchanges.unused sha none_).2]
      exact Nat.zero_le _
    · have once := (custody.exchanges.once sha).2 type
      omega

-- What a call of the request meets, as a state later than its start.
theorem met_later {start : World} {i worker : Nat} {made : Call} (member : made ∈ callsOf kit cfg start acts i worker) :
    Later (at_ kit cfg start acts i).shared made.state := by
  obtain ⟨p,_,order,_,_,equal,_⟩ := call_position member
  rw [equal]
  exact later_between (Nat.le_of_lt order)

theorem before_end {p : Nat} {act : Act} (found : acts[p]? = some act) : p + 1 ≤ acts.length :=
  (List.getElem?_eq_some_iff.mp found).1

theorem reuse_revokes {i worker : Nat} {authorization : Option String} {req : TokenRequest}
    {result : Except Failure Reply} {sha : String} {row : TokenRow} {grant : GrantRow}
    (served : Served kit cfg (fresh clock objects) acts i worker (.token authorization req) result)
    (works : ∀ made ∈ callsOf kit cfg (fresh clock objects) acts i worker, made.choice.fault = none)
    (reuse : Reuse kit (at_ kit cfg (fresh clock objects) acts i).shared authorization req sha row grant) :
    GrantRevoked (at_ kit cfg (fresh clock objects) acts acts.length).shared row.grantId := by
  obtain ⟨secret,client,credentials,found,checked⟩ := reuse.client
  obtain ⟨presented,presents,rfl⟩ := Option.map_eq_some_iff.mp reuse.presents
  have completes := served.completes
  simp only [handle,token,reuse.refreshes] at completes
  obtain ⟨known,active⟩ := Option.filter_eq_some_iff.mp found
  have has : (at_ kit cfg (fresh clock objects) acts i).shared.hasGrant grant.clientId = true :=
    hasGrant_iff.mpr ⟨_,grant,reuse.granted,rfl⟩
  have stillKnown : ∀ made ∈ callsOf kit cfg (fresh clock objects) acts i worker,
      made.state.fetchOauthClient grant.clientId = some client := by
    intro made member
    exact Option.filter_eq_some_iff.mpr ⟨(met_later member).clients _ _ known has,active⟩
  have stillUsed : ∀ made ∈ callsOf kit cfg (fresh clock objects) acts i worker,
      ∃ joined, made.state.tokenWithDelegate (kit.hash presented) = some joined ∧ joined.tokenType = .refresh ∧
        joined.clientId = grant.clientId ∧ joined.grantId = row.grantId ∧ joined.revokedAt ≠ none := by
    intro made member
    obtain ⟨p,_,_,_,_,state,_⟩ := call_position member
    obtain ⟨token,there,sameGrant,sameType,_,revoked⟩ := (met_later member).tokens _ _ reuse.token
    obtain ⟨other,granted,terms,_⟩ := (met_later member).grants _ _ reuse.granted
    have rooted := rooted_at kit cfg clock objects acts p
    rw [← state] at rooted
    obtain ⟨delegate,keyed⟩ := Option.isSome_iff_exists.mp (rooted.delegates _ _ granted)
    exact ⟨_,tokenWithDelegate_some.mpr ⟨token,other,delegate,there,by rw [sameGrant]; exact granted,keyed,rfl⟩,
      sameType.trans reuse.refresh,(congrArg GrantRow.clientId terms : _),sameGrant,revoked reuse.consumed⟩
  obtain ⟨made,member,revokes⟩ := reused_completes credentials checked presents stillKnown stillUsed works completes
  obtain ⟨p,act,_,at_p,_,_,after⟩ := call_position member
  obtain ⟨other,granted,_⟩ := (met_later member).grants _ _ reuse.granted
  have gone := revoked_by made.choice.missed granted
  rw [← revokes,← after] at gone
  exact gone.later (later_between (before_end at_p))

-- A call of a request at which the grant still stood.
theorem standing {start : World} {p : Nat} {sha : String} {row : TokenWithDelegateRow}
    (found : (at_ kit cfg start acts p).shared.tokenWithDelegate sha = some row) (live : row.grantRevokedAt = none) :
    ∀ q, GrantRevoked (at_ kit cfg start acts q).shared row.grantId → p < q := by
  intro q revoked
  by_contra early
  exact tokenWithDelegate_grant found live (revoked.later (later_between (Nat.le_of_not_lt early)))

theorem accepted_before {i worker : Nat} {request : Request} {reply : Reply} {grantId : String}
    (served : Served kit cfg (fresh clock objects) acts i worker request (.ok reply))
    (accepts : Accepts kit (at_ kit cfg (fresh clock objects) acts acts.length).shared request reply grantId) :
    ∃ p act op choice, i < p ∧ acts[p]? = some act ∧
      Crew.served (at_ kit cfg (fresh clock objects) acts p) act = some (worker,op,choice) ∧
      Decides kit (at_ kit cfg (fresh clock objects) acts p).shared worker choice grantId request op ∧
      ∀ q, GrantRevoked (at_ kit cfg (fresh clock objects) acts q).shared grantId → p < q := by
  have completes := served.completes
  cases request with
  | bearer presented =>
    obtain ⟨first,rest,identity,equal,accepted,given⟩ := Completes.bind_ok completes
    cases rest with
    | cons next more => cases given
    | nil =>
      cases given
      rw [List.append_nil] at equal
      obtain ⟨made,member,row,lookup,answered,found,_,unrevoked,live,_,_,same⟩ := bearer_completes accepted
      obtain ⟨p,act,order,at_p,call,state,_⟩ := call_position (equal ▸ member)
      have grant : row.grantId = grantId := by
        rw [← accepts,same]
      rw [state] at answered found
      refine ⟨p,act,made.op,made.choice,order,at_p,call,⟨lookup,row,answered,grant,unrevoked,live⟩,?_⟩
      rw [← grant]
      exact standing found live
  | token authorization req =>
    obtain ⟨refreshes,presented,row,presents,there,grant⟩ := accepts
    simp only [handle,token,refreshes] at completes
    obtain ⟨other,clientId,made,member,access,refresh,pair,joined,same,rotation,answered,rotates⟩ :=
      refresh_completes completes
    cases presents.symm.trans same
    obtain ⟨token,_,_,found,_,_,equal⟩ := tokenWithDelegate_some.mp rotates.found
    obtain ⟨p,act,order,at_p,call,state,_⟩ := call_position member
    obtain ⟨last,lastly,sameGrant,_⟩ := (@later_between kit cfg (fresh clock objects) acts _ _
      (Nat.le_of_succ_le (before_end at_p))).tokens _ _ (state ▸ found)
    cases there.symm.trans lastly
    have grant : joined.grantId = grantId := by
      rw [equal,← grant,sameGrant]
    rw [state] at answered rotates
    refine ⟨p,act,made.op,made.choice,order,at_p,call,
      ⟨presented,clientId,access,refresh,pair,presents,rotation,answered⟩,?_⟩
    rw [← grant]
    exact standing rotates.found rotates.grantLive
  | _ => cases accepts

theorem rotated_before {i : Nat} {presented access refresh : String}
    (before : .rotated presented access refresh ∉ (at_ kit cfg (fresh clock objects) acts i).shared.log)
    (after : .rotated presented access refresh ∈ (at_ kit cfg (fresh clock objects) acts (i+1)).shared.log) :
    ∃ row, (at_ kit cfg (fresh clock objects) acts i).shared.tokens.get? presented = some row ∧
      row.tokenType = .refresh ∧ ∀ q, GrantRevoked (at_ kit cfg (fresh clock objects) acts q).shared row.grantId → i < q := by
  obtain ⟨_,_,op,_,_,_,_,notes,_⟩ := noted_next before after
  cases op with
  | rotateOauthRefreshToken sha clientId newAccess newRefresh =>
    obtain ⟨rfl,_,_,joined,rotates⟩ := notes
    obtain ⟨token,_,_,found,_,_,equal⟩ := tokenWithDelegate_some.mp rotates.found
    have type := rotates.type
    have still := @standing kit cfg acts (fresh clock objects) _ _ _ rotates.found rotates.grantLive
    rw [equal] at type still
    exact ⟨token,found,type,still⟩
  | _ => cases notes

end Proof

theorem lifecycle (kit : Kit) (cfg : McpOAuthConfig) (clock : Int) (objects : Store String ObjectContent)
    (acts : List Act) : Lifecycle kit cfg (fresh clock objects) acts where
  single i := singleUse_at kit cfg clock objects acts i
  reuse i worker authorization req result sha row grant served works reuse := reuse_revokes served works reuse
  lasting i j grantId order revoked := by
    have later := revoked.later (later_between order)
    refine ⟨later,?_⟩
    intro sha row found same
    have gone : GrantRevoked _ row.grantId := same ▸ later
    exact ⟨unusable found gone,refused found gone⟩
  accepted i worker request reply grantId served accepts := accepted_before served accepts
  rotated i presented access refresh before after := rotated_before before after

end Runs
end MemWal.OAuth
