import MemWal.OAuth.Routes

namespace MemWal.OAuth
open Library Auth

-- A grant without its revocation.
def GrantRow.terms (row : GrantRow) : GrantRow := {row with revokedAt := none}

-- The durable records: rows of these tables are never dropped while something
-- needs them, what they say does not change, and a revocation is not taken back.
structure Later (s now : World) : Prop where
  tokens : ∀ sha row, s.tokens.get? sha = some row → ∃ row', now.tokens.get? sha = some row' ∧
    row'.grantId = row.grantId ∧ row'.tokenType = row.tokenType ∧ row'.expiresAt = row.expiresAt ∧
    (row.revokedAt ≠ none → row'.revokedAt ≠ none)
  grants : ∀ grantId row, s.grants.get? grantId = some row → ∃ row', now.grants.get? grantId = some row' ∧
    row'.terms = row.terms ∧ (row.revokedAt ≠ none → row'.revokedAt ≠ none)
  clients : ∀ clientId row, s.clients.get? clientId = some row → s.hasGrant clientId = true →
    now.clients.get? clientId = some row
  delegates : ∀ delegateRef row, s.delegates.get? delegateRef = some row → ∃ row',
    now.delegates.get? delegateRef = some row' ∧ row'.delegatePublicKey = row.delegatePublicKey ∧
    row'.encryptedPrivateKey = row.encryptedPrivateKey
  log : s.log <+: now.log

theorem hasGrant_iff {s : World} {clientId : String} :
    s.hasGrant clientId = true ↔ ∃ grantId row, s.grants.get? grantId = some row ∧ row.clientId = clientId := by
  simp only [World.hasGrant,ne_eq,decide_not,Bool.not_eq_true',decide_eq_false_iff_not]
  constructor
  · intro some_
    obtain ⟨grantId,row,found,same⟩ := Store.exists_of_count some_
    exact ⟨grantId,row,found,of_decide_eq_true same⟩
  · intro given
    obtain ⟨grantId,row,found,same⟩ := given
    have counted := Store.count_pos (p:=fun _ grant => decide (grant.clientId = clientId)) found (decide_eq_true same)
    omega

namespace Later
variable {s now then_ : World}

theorem refl (s : World) : Later s s :=
  ⟨fun _ row found => ⟨row,found,rfl,rfl,rfl,id⟩,fun _ row found => ⟨row,found,rfl,id⟩,fun _ _ found _ => found,
    fun _ row found => ⟨row,found,rfl,rfl⟩,List.prefix_refl _⟩

theorem granted (later : Later s now) {clientId : String} (has : s.hasGrant clientId = true) :
    now.hasGrant clientId = true := by
  obtain ⟨grantId,row,found,same⟩ := hasGrant_iff.mp has
  obtain ⟨row',found',terms,_⟩ := later.grants grantId row found
  exact hasGrant_iff.mpr ⟨grantId,row',found',(congrArg GrantRow.clientId terms).trans same⟩

theorem trans (first : Later s now) (second : Later now then_) : Later s then_ := by
  refine ⟨?_,?_,?_,?_,first.log.trans second.log⟩
  · intro sha row found
    obtain ⟨row',found',grant,type,expiry,revoked⟩ := first.tokens sha row found
    obtain ⟨row'',found'',grant',type',expiry',revoked'⟩ := second.tokens sha row' found'
    exact ⟨row'',found'',grant'.trans grant,type'.trans type,expiry'.trans expiry,revoked' ∘ revoked⟩
  · intro grantId row found
    obtain ⟨row',found',terms,revoked⟩ := first.grants grantId row found
    obtain ⟨row'',found'',terms',revoked'⟩ := second.grants grantId row' found'
    exact ⟨row'',found'',terms'.trans terms,revoked' ∘ revoked⟩
  · intro clientId row found has
    exact second.clients clientId row (first.clients clientId row found has) (first.granted has)
  · intro delegateRef row found
    obtain ⟨row',found',key,envelope⟩ := first.delegates delegateRef row found
    obtain ⟨row'',found'',key',envelope'⟩ := second.delegates delegateRef row' found'
    exact ⟨row'',found'',key'.trans key,envelope'.trans envelope⟩

-- Whoever only writes to the other tables.
theorem of_same (tokens : now.tokens = s.tokens) (grants : now.grants = s.grants) (clients : now.clients = s.clients)
    (delegates : now.delegates = s.delegates) (log : s.log <+: now.log) : Later s now := by
  have still := refl s
  refine ⟨?_,?_,?_,?_,log⟩
  · rw [tokens]
    exact still.tokens
  · rw [grants]
    exact still.grants
  · rw [clients]
    exact still.clients
  · rw [delegates]
    exact still.delegates

end Later

-- What is inserted under a new key leaves the other rows as they are.
theorem get?_insert_old {κ ν : Type} [DecidableEq κ] {table : Store κ ν} {k j : κ} {v u : ν}
    (fresh : table.get? k = none) (found : table.get? j = some u) : (table.insert k v).get? j = some u := by
  have differs : j ≠ k := by
    intro same
    obtain rfl := same
    rw [fresh] at found
    cases found
  rw [Store.get?_insert v fresh,if_neg differs,found]

theorem get?_modify {κ ν : Type} [DecidableEq κ] (table : Store κ ν) (k : κ) (f : ν → ν) (j : κ) :
    (table.modify k f).get? j = (table.get? j).map (fun v => if j = k then f v else v) :=
  Store.get?_map table _ j

section Calls
variable {kit : Kit} {s : World} {worker : Nat}

-- What the insertions and the two one-time reads can do: nothing but a draw, or
-- the change that they are for.

theorem insertOauthClient_cases (kit : Kit) (s : World) (client : ClientRow) :
    (s.insertOauthClient kit client).1 = {s with drawn := s.drawn+2} ∨
    ∃ clientId secret, s.clients.get? clientId = none ∧
      (s.insertOauthClient kit client).1 = {s with
        drawn := s.drawn+2
        clients := s.clients.insert clientId (World.newClient kit s client secret)
        log := s.log ++ [.registered clientId (World.newClient kit s client secret)]} := by
  unfold World.insertOauthClient
  dsimp only
  split
  · exact .inl rfl
  · rename_i free
    exact .inr ⟨_,_,Option.not_isSome_iff_eq_none.mp free,rfl⟩

theorem insertOauthDelegate_cases (kit : Kit) (s : World) (key : Bytes) (label : String) :
    (s.insertOauthDelegate kit key label = ({s with drawn := s.drawn+2},.error ())) ∨
    ∃ encrypted, kit.encrypt key s.drawn (kit.keyPair s.drawn).privateKey = some encrypted ∧
      s.delegates.get? (delegateRefPrefix ++ kit.random (s.drawn+1)) = none ∧
      s.insertOauthDelegate kit key label = ({s with
        drawn := s.drawn+2
        delegates := s.delegates.insert (delegateRefPrefix ++ kit.random (s.drawn+1))
          ⟨none,none,(kit.keyPair s.drawn).publicKey,(kit.keyPair s.drawn).address,encrypted,label,.pending,none,s.clock⟩},
        .ok (delegateRefPrefix ++ kit.random (s.drawn+1))) := by
  unfold World.insertOauthDelegate
  dsimp only
  split
  · exact .inl rfl
  · rename_i encrypted equal
    split
    · exact .inl rfl
    · rename_i free
      exact .inr ⟨encrypted,equal,Option.not_isSome_iff_eq_none.mp (not_or.mp free).1,rfl⟩

theorem insertOauthSession_cases (kit : Kit) (s : World) (session : SessionRow) (query : AuthorizeQuery) :
    (s.insertOauthSession kit session query = ({s with drawn := s.drawn+1},.error ())) ∨
    (s.sessions.get? (sessionIdPrefix ++ kit.random s.drawn) = none ∧
      (s.clients.get? session.clientId).isSome = true ∧ (s.delegates.get? session.delegateRef).isSome = true ∧
      s.insertOauthSession kit session query = ({s with
        drawn := s.drawn+1
        sessions := s.sessions.insert (sessionIdPrefix ++ kit.random s.drawn) session
        log := s.log ++ [.opened (sessionIdPrefix ++ kit.random s.drawn) session query]},
        .ok (sessionIdPrefix ++ kit.random s.drawn))) := by
  unfold World.insertOauthSession
  dsimp only
  split
  · exact .inl rfl
  · rename_i free
    simp only [not_or,Bool.not_eq_true,Option.isSome_eq_false_iff,Option.isNone_eq_false_iff] at free
    exact .inr ⟨Option.isNone_iff_eq_none.mp free.1,free.2.1,free.2.2,rfl⟩

theorem consumeOauthSession_cases (s : World) (sessionId : String) :
    s.consumeOauthSession sessionId = (s,none) ∨
    ∃ session, s.sessions.get? sessionId = some session ∧ session.status = .pending ∧ s.clock < session.expiresAt ∧
      s.consumeOauthSession sessionId = ({s with
        sessions := s.sessions.put sessionId {session with status := .consumed}
        log := s.log ++ [.sessionConsumed sessionId {session with status := .consumed}]},some {session with status := .consumed}) := by
  unfold World.consumeOauthSession
  split
  · exact .inl rfl
  · rename_i session found
    split
    · rename_i holds
      exact .inr ⟨session,found,holds.1,holds.2,rfl⟩
    · exact .inl rfl

theorem insertOauthCode_cases (kit : Kit) (s : World) (code : CodeRow) :
    (s.insertOauthCode kit code = ({s with drawn := s.drawn+1},.error ())) ∨
    (s.codes.get? (kit.hash (codePrefix ++ kit.random s.drawn)) = none ∧
      s.insertOauthCode kit code = ({s with
        drawn := s.drawn+1
        codes := s.codes.insert (kit.hash (codePrefix ++ kit.random s.drawn)) code
        log := s.log ++ [.completed (kit.hash (codePrefix ++ kit.random s.drawn)) code]},
        .ok (codePrefix ++ kit.random s.drawn))) := by
  unfold World.insertOauthCode
  dsimp only
  split
  · exact .inl rfl
  · rename_i free
    exact .inr ⟨Option.not_isSome_iff_eq_none.mp free,rfl⟩

theorem consumeOauthCode_cases (s : World) (worker : Nat) (clientId sha : String) :
    s.consumeOauthCode worker clientId sha = (s,none) ∨
    ∃ code, s.codes.get? sha = some code ∧ code.clientId = clientId ∧ s.clock < code.expiresAt ∧
      s.consumeOauthCode worker clientId sha = ({s with
        codes := s.codes.erase sha
        log := s.log ++ [.codeConsumed sha code]
        held := s.held.upsert worker (.code sha)},some code) := by
  unfold World.consumeOauthCode
  split
  · exact .inl rfl
  · rename_i code found
    split
    · rename_i holds
      exact .inr ⟨code,found,holds.1,holds.2,rfl⟩
    · exact .inl rfl

-- A grant is inserted for the code that the worker has consumed.
theorem insertOauthGrant_cases (kit : Kit) (s : World) (worker : Nat) (grant : GrantRow) {sha : String}
    (holds : s.held.get? worker = some (.code sha)) :
    (s.insertOauthGrant kit worker grant = ({s with drawn := s.drawn+1},.error ())) ∨
    (s.grants.get? (grantIdPrefix ++ kit.random s.drawn) = none ∧ (s.clients.get? grant.clientId).isSome = true ∧
      (s.delegates.get? grant.delegateRef).isSome = true ∧
      s.insertOauthGrant kit worker grant = ({s with
        drawn := s.drawn+1
        grants := s.grants.insert (grantIdPrefix ++ kit.random s.drawn) {grant with revokedAt := none}
        log := s.log ++ [.granted sha (grantIdPrefix ++ kit.random s.drawn) grant]
        held := s.held.upsert worker (.grant sha (grantIdPrefix ++ kit.random s.drawn))},
        .ok (grantIdPrefix ++ kit.random s.drawn))) := by
  unfold World.insertOauthGrant
  dsimp only
  split
  · exact .inl rfl
  · rename_i free
    simp only [not_or,Bool.not_eq_true,Option.isSome_eq_false_iff,Option.isNone_eq_false_iff] at free
    rw [holds]
    exact .inr ⟨Option.isNone_iff_eq_none.mp free.1,free.2.1,free.2.2,rfl⟩

-- Its tokens are inserted in this order.
inductive NextToken (s : World) (worker : Nat) (token : TokenRow) : String → TokenType → Store Nat Holding → Prop where
  | access (sha : String) : s.held.get? worker = some (.grant sha token.grantId) → token.tokenType = .access →
    NextToken s worker token sha .access (s.held.upsert worker (.access sha token.grantId))
  | refresh (sha : String) : s.held.get? worker = some (.access sha token.grantId) → token.tokenType = .refresh →
    NextToken s worker token sha .refresh (s.held.erase worker)

theorem insertOauthToken_cases (kit : Kit) (s : World) (worker : Nat) (start : String) (token : TokenRow) {sha : String}
    {type : TokenType} {held : Store Nat Holding} (next : NextToken s worker token sha type held) :
    (s.insertOauthToken kit worker start token = ({s with drawn := s.drawn+1},.error ())) ∨
    (s.tokens.get? (kit.hash (start ++ kit.random s.drawn)) = none ∧ (s.grants.get? token.grantId).isSome = true ∧
      s.insertOauthToken kit worker start token = ({s with
        drawn := s.drawn+1
        tokens := s.tokens.insert (kit.hash (start ++ kit.random s.drawn)) {token with revokedAt := none}
        log := s.log ++ [.issued sha type (kit.hash (start ++ kit.random s.drawn))]
        held := held},.ok (start ++ kit.random s.drawn))) := by
  unfold World.insertOauthToken
  dsimp only
  split
  · exact .inl rfl
  · rename_i free
    simp only [not_or,Bool.not_eq_true,Option.isSome_eq_false_iff,Option.isNone_eq_false_iff] at free
    refine .inr ⟨Option.isNone_iff_eq_none.mp free.1,free.2,?_⟩
    cases next with
    | access holds same => rw [holds,same]
    | refresh holds same => rw [holds,same]

theorem insertOauthClient_later (client : ClientRow) : Later s (s.insertOauthClient kit client).1 := by
  have still := Later.refl s
  rcases insertOauthClient_cases kit s client with equal | ⟨clientId,secret,fresh,equal⟩
  · rw [equal]
    exact .of_same rfl rfl rfl rfl (List.prefix_refl _)
  · rw [equal]
    refine ⟨still.tokens,still.grants,?_,still.delegates,List.prefix_append _ _⟩
    exact fun _ _ found _ => get?_insert_old fresh found

theorem insertOauthDelegate_later (key : Bytes) (label : String) : Later s (s.insertOauthDelegate kit key label).1 := by
  have still := Later.refl s
  rcases insertOauthDelegate_cases kit s key label with equal | ⟨encrypted,_,fresh,equal⟩
  · rw [equal]
    exact .of_same rfl rfl rfl rfl (List.prefix_refl _)
  · rw [equal]
    refine ⟨still.tokens,still.grants,still.clients,?_,List.prefix_refl _⟩
    exact fun _ row found => ⟨row,get?_insert_old fresh found,rfl,rfl⟩

theorem activateOauthDelegate_later (delegateRef accountId ownerAddress txDigest : String) :
    Later s (s.activateOauthDelegate delegateRef accountId ownerAddress txDigest) := by
  have still := Later.refl s
  refine ⟨still.tokens,still.grants,still.clients,?_,List.prefix_refl _⟩
  intro ref row found
  simp only [World.activateOauthDelegate,get?_modify,found,Option.map_some]
  split
  · exact ⟨_,rfl,rfl,rfl⟩
  · exact ⟨_,rfl,rfl,rfl⟩

theorem insertOauthSession_later (session : SessionRow) (query : AuthorizeQuery) :
    Later s (s.insertOauthSession kit session query).1 := by
  rcases insertOauthSession_cases kit s session query with equal | ⟨_,_,_,equal⟩
  · rw [equal]
    exact .of_same rfl rfl rfl rfl (List.prefix_refl _)
  · rw [equal]
    exact .of_same rfl rfl rfl rfl (List.prefix_append _ _)

theorem consumeOauthSession_later (sessionId : String) : Later s (s.consumeOauthSession sessionId).1 := by
  rcases consumeOauthSession_cases s sessionId with equal | ⟨session,_,_,_,equal⟩
  · rw [equal]
    exact .refl s
  · rw [equal]
    exact .of_same rfl rfl rfl rfl (List.prefix_append _ _)

theorem insertOauthCode_later (code : CodeRow) : Later s (s.insertOauthCode kit code).1 := by
  rcases insertOauthCode_cases kit s code with equal | ⟨_,equal⟩
  · rw [equal]
    exact .of_same rfl rfl rfl rfl (List.prefix_refl _)
  · rw [equal]
    exact .of_same rfl rfl rfl rfl (List.prefix_append _ _)

theorem consumeOauthCode_later (clientId sha : String) : Later s (s.consumeOauthCode worker clientId sha).1 := by
  rcases consumeOauthCode_cases s worker clientId sha with equal | ⟨code,_,_,_,equal⟩
  · rw [equal]
    exact .refl s
  · rw [equal]
    exact .of_same rfl rfl rfl rfl (List.prefix_append _ _)

theorem insertOauthGrant_later (grant : GrantRow) : Later s (s.insertOauthGrant kit worker grant).1 := by
  have still := Later.refl s
  unfold World.insertOauthGrant
  dsimp only
  split
  · exact .of_same rfl rfl rfl rfl (List.prefix_refl _)
  · rename_i free
    have fresh := Option.not_isSome_iff_eq_none.mp (not_or.mp free).1
    split
    · refine ⟨still.tokens,?_,still.clients,still.delegates,List.prefix_append _ _⟩
      exact fun _ row found => ⟨row,get?_insert_old fresh found,rfl,id⟩
    · refine ⟨still.tokens,?_,still.clients,still.delegates,List.prefix_refl _⟩
      exact fun _ row found => ⟨row,get?_insert_old fresh found,rfl,id⟩

theorem insertOauthToken_later (start : String) (token : TokenRow) :
    Later s (s.insertOauthToken kit worker start token).1 := by
  have still := Later.refl s
  unfold World.insertOauthToken
  dsimp only
  split
  · exact .of_same rfl rfl rfl rfl (List.prefix_refl _)
  · rename_i free
    have fresh := Option.not_isSome_iff_eq_none.mp (not_or.mp free).1
    split
    · refine ⟨?_,still.grants,still.clients,still.delegates,List.prefix_append _ _⟩
      exact fun _ row found => ⟨row,get?_insert_old fresh found,rfl,rfl,rfl,id⟩
    · refine ⟨?_,still.grants,still.clients,still.delegates,List.prefix_append _ _⟩
      exact fun _ row found => ⟨row,get?_insert_old fresh found,rfl,rfl,rfl,id⟩
    · refine ⟨?_,still.grants,still.clients,still.delegates,List.prefix_refl _⟩
      exact fun _ row found => ⟨row,get?_insert_old fresh found,rfl,rfl,rfl,id⟩

theorem revokeOauthToken_later (sha : String) : Later s (s.revokeOauthToken sha) := by
  have still := Later.refl s
  refine ⟨?_,still.grants,still.clients,still.delegates,List.prefix_refl _⟩
  intro other row found
  simp only [World.revokeOauthToken,get?_modify,found,Option.map_some]
  split
  · exact ⟨_,rfl,rfl,rfl,rfl,fun _ => Option.some_ne_none _⟩
  · exact ⟨_,rfl,rfl,rfl,rfl,id⟩

theorem revokeOauthGrant_later (grantId : String) (missed : List String) :
    Later s (s.revokeOauthGrant grantId missed) := by
  have still := Later.refl s
  refine ⟨?_,?_,still.clients,still.delegates,List.prefix_refl _⟩
  · intro sha row found
    simp only [World.revokeOauthGrant,Store.get?_update,found,Option.map_some]
    split
    · exact ⟨_,rfl,rfl,rfl,rfl,fun _ => Option.some_ne_none _⟩
    · exact ⟨_,rfl,rfl,rfl,rfl,id⟩
  · intro other row found
    simp only [World.revokeOauthGrant,get?_modify,found,Option.map_some]
    split
    · refine ⟨_,rfl,rfl,?_⟩
      cases row.revokedAt with
      | none => exact fun revoked => absurd rfl revoked
      | some time => exact fun _ => Option.some_ne_none _
    · exact ⟨_,rfl,rfl,id⟩

-- The rows that a rotation which goes through has met, and what it does.
structure Rotates (kit : Kit) (s : World) (presented clientId : String) (access refresh : TokenRow)
    (row : TokenWithDelegateRow) : Prop where
  found : s.tokenWithDelegate presented = some row
  type : row.tokenType = .refresh
  live : row.revokedAt = none
  unexpired : s.clock < row.expiresAt
  grantLive : row.grantRevokedAt = none
  client : row.clientId = clientId
  newAccess : s.tokens.get? (kit.hash (accessTokenPrefix ++ kit.random s.drawn)) = none
  newRefresh : s.tokens.get? (kit.hash (refreshTokenPrefix ++ kit.random (s.drawn+1))) = none
  differ : kit.hash (accessTokenPrefix ++ kit.random s.drawn) ≠ kit.hash (refreshTokenPrefix ++ kit.random (s.drawn+1))
  accessGrant : (s.grants.get? access.grantId).isSome = true
  refreshGrant : (s.grants.get? refresh.grantId).isSome = true

def afterRotation (kit : Kit) (s : World) (presented : String) (access refresh : TokenRow) : World := {s with
  drawn := s.drawn+2
  tokens := ((s.tokens.modify presented (fun row => {row with revokedAt := some s.clock})).insert
    (kit.hash (accessTokenPrefix ++ kit.random s.drawn)) {access with revokedAt := none}).insert
    (kit.hash (refreshTokenPrefix ++ kit.random (s.drawn+1))) {refresh with revokedAt := none}
  log := s.log ++ [.rotated presented (kit.hash (accessTokenPrefix ++ kit.random s.drawn))
    (kit.hash (refreshTokenPrefix ++ kit.random (s.drawn+1)))]}

theorem rotate_cases (kit : Kit) (s : World) (presented clientId : String) (access refresh : TokenRow) :
    (∃ row, Rotates kit s presented clientId access refresh row ∧
      s.rotateOauthRefreshToken kit presented clientId access refresh =
        (afterRotation kit s presented access refresh,
          .ok (some ⟨accessTokenPrefix ++ kit.random s.drawn,refreshTokenPrefix ++ kit.random (s.drawn+1),
            {row with revokedAt := some s.clock}⟩))) ∨
    ((s.rotateOauthRefreshToken kit presented clientId access refresh).1 = {s with drawn := s.drawn+2} ∧
      ∀ pair, (s.rotateOauthRefreshToken kit presented clientId access refresh).2 ≠ .ok (some pair)) := by
  unfold World.rotateOauthRefreshToken
  dsimp only
  split
  · refine .inr ⟨rfl,?_⟩
    intro pair same
    cases same
  · rename_i row found
    split
    · rename_i holds
      obtain ⟨type,live,unexpired,grantLive,client⟩ := holds
      split
      · refine .inr ⟨rfl,?_⟩
        intro pair same
        cases same
      · rename_i free
        simp only [not_or,Bool.not_eq_true,Option.isSome_eq_false_iff,Option.isNone_eq_false_iff] at free
        obtain ⟨newAccess,newRefresh,differ,accessGrant,refreshGrant⟩ := free
        exact .inl ⟨row,⟨found,type,live,unexpired,grantLive,client,Option.isNone_iff_eq_none.mp newAccess,
          Option.isNone_iff_eq_none.mp newRefresh,differ,accessGrant,refreshGrant⟩,rfl⟩
    · refine .inr ⟨rfl,?_⟩
      intro pair same
      cases same

theorem modify_none {κ ν : Type} [DecidableEq κ] {table : Store κ ν} {k j : κ} {f : ν → ν}
    (missing : table.get? j = none) : (table.modify k f).get? j = none := by
  rw [get?_modify,missing]
  rfl

theorem Rotates.get? {presented clientId : String} {access refresh : TokenRow} {row : TokenWithDelegateRow}
    (rotates : Rotates kit s presented clientId access refresh row) (sha : String) :
    (afterRotation kit s presented access refresh).tokens.get? sha =
      if sha = kit.hash (refreshTokenPrefix ++ kit.random (s.drawn+1)) then some {refresh with revokedAt := none}
      else if sha = kit.hash (accessTokenPrefix ++ kit.random s.drawn) then some {access with revokedAt := none}
      else (s.tokens.get? sha).map (fun row => if sha = presented then {row with revokedAt := some s.clock} else row) := by
  have firstFree := modify_none (k:=presented) (f:=fun row => {row with revokedAt := some s.clock}) rotates.newAccess
  have second := modify_none (k:=presented) (f:=fun row => {row with revokedAt := some s.clock}) rotates.newRefresh
  have secondFree : ((s.tokens.modify presented (fun row => {row with revokedAt := some s.clock})).insert
      (kit.hash (accessTokenPrefix ++ kit.random s.drawn)) {access with revokedAt := none}).get?
        (kit.hash (refreshTokenPrefix ++ kit.random (s.drawn+1))) = none := by
    rw [Store.get?_insert _ firstFree,if_neg rotates.differ.symm]
    exact second
  simp only [afterRotation]
  rw [Store.get?_insert _ secondFree,Store.get?_insert _ firstFree,get?_modify]

theorem rotateOauthRefreshToken_later (presented clientId : String) (access refresh : TokenRow) :
    Later s (s.rotateOauthRefreshToken kit presented clientId access refresh).1 := by
  have still := Later.refl s
  rcases rotate_cases kit s presented clientId access refresh with ⟨row,rotates,equal⟩ | ⟨equal,_⟩
  · rw [equal]
    refine ⟨?_,still.grants,still.clients,still.delegates,List.prefix_append _ _⟩
    intro sha old found
    have notRefresh : sha ≠ kit.hash (refreshTokenPrefix ++ kit.random (s.drawn+1)) := by
      intro same
      obtain rfl := same
      rw [rotates.newRefresh] at found
      cases found
    have notAccess : sha ≠ kit.hash (accessTokenPrefix ++ kit.random s.drawn) := by
      intro same
      obtain rfl := same
      rw [rotates.newAccess] at found
      cases found
    rw [rotates.get?,if_neg notRefresh,if_neg notAccess,found,Option.map_some]
    split
    · exact ⟨_,rfl,rfl,rfl,rfl,fun _ => Option.some_ne_none _⟩
    · exact ⟨_,rfl,rfl,rfl,rfl,id⟩
  · rw [equal]
    exact .of_same rfl rfl rfl rfl (List.prefix_refl _)

theorem commit_later (op : Op) (c : Choice) : Later s (commit kit s worker op c).1 := by
  cases op with
  | insertOauthClient client => exact insertOauthClient_later client
  | insertOauthDelegate key label => exact insertOauthDelegate_later key label
  | activateOauthDelegate delegateRef accountId ownerAddress txDigest => exact activateOauthDelegate_later _ _ _ _
  | insertOauthSession session query => exact insertOauthSession_later session query
  | consumeOauthSession sessionId => exact consumeOauthSession_later sessionId
  | insertOauthCode code => exact insertOauthCode_later code
  | consumeOauthCode clientId sha => exact consumeOauthCode_later clientId sha
  | insertOauthGrant grant => exact insertOauthGrant_later grant
  | insertOauthToken start token => exact insertOauthToken_later start token
  | revokeOauthToken sha => exact revokeOauthToken_later sha
  | revokeOauthGrant grantId => exact revokeOauthGrant_later grantId c.missed
  | rotateOauthRefreshToken presented clientId access refresh => exact rotateOauthRefreshToken_later _ _ _ _
  | incrRegistrations key => exact .of_same rfl rfl rfl rfl (List.prefix_refl _)
  | _ => exact .refl s

theorem serve_later (op : Op) (c : Choice) : Later s (serve kit s worker op c).1 := by
  rcases serve_state kit s worker op c with equal | equal
  · rw [equal]
    exact .refl s
  · rw [equal]
    exact commit_later op c

theorem happen_later (event : Event) : Later s (happen s event) := by
  have still := Later.refl s
  cases event with
  | pruneUnconsumedOauthClients =>
    refine ⟨still.tokens,still.grants,?_,still.delegates,List.prefix_refl _⟩
    intro clientId row found has
    refine Store.get?_keep.mpr ⟨found,?_⟩
    simp [has]
  | object objectId content => cases content <;> exact .of_same rfl rfl rfl rfl (List.prefix_refl _)
  | _ => exact .of_same rfl rfl rfl rfl (List.prefix_refl _)

end Calls

variable {kit : Kit} {cfg : McpOAuthConfig}

theorem exec_later {w next : Pooled} {act : Act} (ran : (server kit cfg).exec w act = .ok next) :
    Later w.shared next.shared := by
  cases act with
  | spawn worker request =>
    simp only [Crew.exec] at ran
    split at ran
    · cases ran
      exact .refl _
    · cases ran
  | step worker choice =>
    simp only [Crew.exec] at ran
    split at ran
    · cases ran
      exact serve_later _ _
    · cases ran
  | crash worker =>
    cases ran
    exact .of_same rfl rfl rfl rfl (List.prefix_refl _)
  | outside event =>
    cases ran
    exact happen_later event

theorem later_between {start : World} {acts : List Act} {i j : Nat} (order : i ≤ j) :
    Later (at_ kit cfg start acts i).shared (at_ kit cfg start acts j).shared :=
  Runs.relation_between (R:=fun w next => Later w.shared next.shared) (I:=fun _ => True) (fun _ => .refl _)
    (fun _ _ _ => Later.trans) trivial (fun _ _ _ _ _ => trivial) (fun _ _ _ _ ran => exec_later ran) order

end MemWal.OAuth
