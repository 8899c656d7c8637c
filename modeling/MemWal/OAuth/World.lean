import MemWal.OAuth.Types
import MemWal.Library.Crews
import MemWal.Library.Traces

namespace MemWal.OAuth
open Library Auth

-- What has happened, for the properties to speak of.
inductive Fact where
  | registered (clientId : String) (client : ClientRow)
  | opened (sessionId : String) (session : SessionRow) (query : AuthorizeQuery)
  | sessionConsumed (sessionId : String) (session : SessionRow)
  | completed (codeSha256 : String) (code : CodeRow)
  | codeConsumed (codeSha256 : String) (code : CodeRow)
  | granted (codeSha256 : String) (grantId : String) (grant : GrantRow)
  | issued (codeSha256 : String) (token : TokenType) (tokenSha256 : String)
  | rotated (presentedSha256 : String) (accessSha256 : String) (refreshSha256 : String)
  deriving DecidableEq, Repr

-- What a worker has redeemed and is still to use.
inductive Holding where
  | code (codeSha256 : String)
  | grant (codeSha256 : String) (grantId : String)
  | access (codeSha256 : String) (grantId : String)
  deriving DecidableEq, Repr

-- Times are in milliseconds; the clock may be set to anything.
structure World where
  clock : Int := 0
  drawn : Nat := 0
  clients : Store String ClientRow := .empty
  delegates : Store String DelegateRow := .empty
  sessions : Store String SessionRow := .empty
  codes : Store String CodeRow := .empty
  grants : Store String GrantRow := .empty
  tokens : Store String TokenRow := .empty
  registrations : Store String Nat := .empty
  objects : Store String ObjectContent := .empty
  log : List Fact := []
  held : Store Nat Holding := .empty

-- Ids, secrets and keys are drawn where their row is written. `query` is only kept
-- in the log.
inductive Op where
  | now
  | incrRegistrations (key : String)
  | expireRegistrations (key : String) (seconds : Nat)
  | countUnconsumedOauthClients (withinSecs : Int)
  | insertOauthClient (client : ClientRow)
  | fetchOauthClient (clientId : String)
  | touchOauthClientLastUsed (clientId : String)
  | insertOauthDelegate (encryptionKey : Bytes) (label : String)
  | fetchOauthDelegate (delegateRef : String)
  | findReusableOauthDelegate (accountId : String)
  | activateOauthDelegate (delegateRef accountId ownerAddress txDigest : String)
  | insertOauthSession (session : SessionRow) (query : AuthorizeQuery)
  | fetchOauthSession (sessionId : String)
  | consumeOauthSession (sessionId : String)
  | insertOauthCode (code : CodeRow)
  | consumeOauthCode (clientId codeSha256 : String)
  | insertOauthGrant (grant : GrantRow)
  | insertOauthToken (start : String) (token : TokenRow)
  | fetchOauthTokenWithDelegate (tokenSha256 : String)
  | revokeOauthToken (tokenSha256 : String)
  | revokeOauthGrant (grantId : String)
  | rotateOauthRefreshToken (presentedSha256 clientId : String) (access refresh : TokenRow)
  | verifyPersonal (sender message signature : String)
  | getObject (objectId : String)
  deriving DecidableEq, Repr

structure NewClient where
  clientId : String
  clientSecret : String
  deriving DecidableEq, Repr

structure TokenPair where
  accessToken : String
  refreshToken : String
  row : TokenWithDelegateRow
  deriving DecidableEq, Repr

@[reducible] def Result : Op → Type
  | .now => Int
  | .incrRegistrations _ => Nat
  | .expireRegistrations _ _ => Unit
  | .countUnconsumedOauthClients _ => Nat
  | .insertOauthClient _ => NewClient
  | .fetchOauthClient _ => Option ClientRow
  | .touchOauthClientLastUsed _ => Unit
  | .insertOauthDelegate _ _ => String
  | .fetchOauthDelegate _ => Option DelegateRow
  | .findReusableOauthDelegate _ => Option (String × DelegateRow)
  | .activateOauthDelegate _ _ _ _ => Unit
  | .insertOauthSession _ _ => String
  | .fetchOauthSession _ => Option SessionRow
  | .consumeOauthSession _ => Option SessionRow
  | .insertOauthCode _ => String
  | .consumeOauthCode _ _ => Option CodeRow
  | .insertOauthGrant _ => String
  | .insertOauthToken _ _ => String
  | .fetchOauthTokenWithDelegate _ => Option TokenWithDelegateRow
  | .revokeOauthToken _ => Unit
  | .revokeOauthGrant _ => Unit
  | .rotateOauthRefreshToken _ _ _ _ => Option TokenPair
  | .verifyPersonal _ _ _ => Unit
  | .getObject _ => Option ObjectContent

-- A call may fail before or after it takes effect. The wallet verifier answers
-- what it likes, ties among the latest delegates are broken anyhow, and the
-- revocation of a grant may miss tokens that a rotation inserts at the same time.
inductive Fault where
  | before | after
  deriving DecidableEq, Repr

structure Choice where
  fault : Option Fault := none
  verified : Bool := true
  pick : Nat := 0
  missed : List String := []
  deriving DecidableEq, Repr

namespace World

def fetchOauthClient (s : World) (clientId : String) : Option ClientRow :=
  (s.clients.get? clientId).filter (fun client => decide (client.status = .active))

-- SELECT ... ORDER BY updated_at DESC LIMIT 1
def reusable (s : World) (accountId : String) : List (String × DelegateRow) :=
  let active := s.delegates.entries.filter
    (fun e => decide (e.2.accountId = some accountId ∧ e.2.status = .active))
  active.filter (fun e => active.all (fun other => decide (other.2.updatedAt ≤ e.2.updatedAt)))

def findReusableOauthDelegate (s : World) (accountId : String) (pick : Nat) : Option (String × DelegateRow) :=
  (s.reusable accountId)[pick % (s.reusable accountId).length]?

def hasGrant (s : World) (clientId : String) : Bool := s.grants.count (fun _ grant => grant.clientId = clientId) ≠ 0

def tokenWithDelegate (s : World) (tokenSha256 : String) : Option TokenWithDelegateRow := do
  let t ← s.tokens.get? tokenSha256
  let g ← s.grants.get? t.grantId
  let d ← s.delegates.get? g.delegateRef
  some ⟨tokenSha256,t.grantId,t.tokenType,t.expiresAt,t.revokedAt,g.clientId,g.accountId,g.ownerAddress,g.scope,
    g.revokedAt,g.delegateRef,d.encryptedPrivateKey,d.delegatePublicKey,d.status⟩

def newClient (kit : Kit) (s : World) (client : ClientRow) (secret : String) : ClientRow := {client with
  clientSecretSha256 := if client.tokenEndpointAuthMethod = "none" then none else some (kit.hash secret)
  createdAt := s.clock}

def insertOauthClient (kit : Kit) (s : World) (client : ClientRow) : World × Except Unit NewClient :=
  let clientId := clientIdPrefix ++ kit.random s.drawn
  let secret := clientSecretPrefix ++ kit.random (s.drawn+1)
  let row := newClient kit s client secret
  let t := {s with drawn := s.drawn+2}
  if (s.clients.get? clientId).isSome then (t,.error ())
  else ({t with clients := s.clients.insert clientId row, log := s.log ++ [.registered clientId row]},
    .ok ⟨clientId,secret⟩)

def insertOauthDelegate (kit : Kit) (s : World) (encryptionKey : Bytes) (label : String) : World × Except Unit String :=
  let keys := kit.keyPair s.drawn
  let delegateRef := delegateRefPrefix ++ kit.random (s.drawn+1)
  let t := {s with drawn := s.drawn+2}
  match kit.encrypt encryptionKey s.drawn keys.privateKey with
  | none => (t,.error ())
  | some encrypted =>
    let row := ⟨none,none,keys.publicKey,keys.address,encrypted,label,.pending,none,s.clock⟩
    if (s.delegates.get? delegateRef).isSome ∨ s.delegates.count (fun _ row => row.delegatePublicKey = keys.publicKey) ≠ 0
    then (t,.error ())
    else ({t with delegates := s.delegates.insert delegateRef row},.ok delegateRef)

def activateOauthDelegate (s : World) (delegateRef accountId ownerAddress txDigest : String) : World :=
  {s with delegates := s.delegates.modify delegateRef (fun row => {row with
    accountId := some accountId, ownerAddress := some ownerAddress, txDigest := some txDigest, status := .active,
    updatedAt := s.clock})}

def insertOauthSession (kit : Kit) (s : World) (session : SessionRow) (query : AuthorizeQuery) :
    World × Except Unit String :=
  let sessionId := sessionIdPrefix ++ kit.random s.drawn
  let t := {s with drawn := s.drawn+1}
  if (s.sessions.get? sessionId).isSome ∨ (s.clients.get? session.clientId).isNone ∨
      (s.delegates.get? session.delegateRef).isNone then (t,.error ())
  else ({t with
    sessions := s.sessions.insert sessionId session
    log := s.log ++ [.opened sessionId session query]},.ok sessionId)

def fetchOauthSession (s : World) (sessionId : String) : Option SessionRow :=
  (s.sessions.get? sessionId).filter (fun session => decide (s.clock < session.expiresAt))

def consumeOauthSession (s : World) (sessionId : String) : World × Option SessionRow :=
  match s.sessions.get? sessionId with
  | none => (s,none)
  | some session =>
    if session.status = .pending ∧ s.clock < session.expiresAt then
      let consumed := {session with status := .consumed}
      ({s with
        sessions := s.sessions.put sessionId consumed
        log := s.log ++ [.sessionConsumed sessionId consumed]},some consumed)
    else (s,none)

def insertOauthCode (kit : Kit) (s : World) (code : CodeRow) : World × Except Unit String :=
  let secret := codePrefix ++ kit.random s.drawn
  let t := {s with drawn := s.drawn+1}
  if (s.codes.get? (kit.hash secret)).isSome then (t,.error ())
  else ({t with
    codes := s.codes.insert (kit.hash secret) code
    log := s.log ++ [.completed (kit.hash secret) code]},.ok secret)

def consumeOauthCode (s : World) (worker : Nat) (clientId codeSha256 : String) : World × Option CodeRow :=
  match s.codes.get? codeSha256 with
  | none => (s,none)
  | some code =>
    if code.clientId = clientId ∧ s.clock < code.expiresAt then
      ({s with
        codes := s.codes.erase codeSha256
        log := s.log ++ [.codeConsumed codeSha256 code]
        held := s.held.upsert worker (.code codeSha256)},some code)
    else (s,none)

def insertOauthGrant (kit : Kit) (s : World) (worker : Nat) (grant : GrantRow) : World × Except Unit String :=
  let grantId := grantIdPrefix ++ kit.random s.drawn
  let t := {s with drawn := s.drawn+1}
  if (s.grants.get? grantId).isSome ∨ (s.clients.get? grant.clientId).isNone ∨
      (s.delegates.get? grant.delegateRef).isNone then (t,.error ())
  else
    let u := {t with grants := s.grants.insert grantId {grant with revokedAt := none}}
    (match s.held.get? worker with
      | some (.code codeSha256) => {u with
        log := s.log ++ [.granted codeSha256 grantId grant]
        held := s.held.upsert worker (.grant codeSha256 grantId)}
      | _ => u,.ok grantId)

def insertOauthToken (kit : Kit) (s : World) (worker : Nat) (start : String) (token : TokenRow) :
    World × Except Unit String :=
  let secret := start ++ kit.random s.drawn
  let t := {s with drawn := s.drawn+1}
  if (s.tokens.get? (kit.hash secret)).isSome ∨ (s.grants.get? token.grantId).isNone then (t,.error ())
  else
    let u := {t with tokens := s.tokens.insert (kit.hash secret) {token with revokedAt := none}}
    (match s.held.get? worker,token.tokenType with
      | some (.grant codeSha256 grantId),.access => {u with
        log := s.log ++ [.issued codeSha256 .access (kit.hash secret)]
        held := s.held.upsert worker (.access codeSha256 grantId)}
      | some (.access codeSha256 _),.refresh => {u with
        log := s.log ++ [.issued codeSha256 .refresh (kit.hash secret)]
        held := s.held.erase worker}
      | _,_ => u,.ok secret)

def revokeOauthToken (s : World) (tokenSha256 : String) : World :=
  {s with tokens := s.tokens.modify tokenSha256 (fun row => {row with revokedAt := some s.clock})}

def revokeOauthGrant (s : World) (grantId : String) (missed : List String) : World := {s with
  grants := s.grants.modify grantId (fun row => {row with revokedAt := row.revokedAt <|> some s.clock})
  tokens := s.tokens.update (fun sha row => row.grantId = grantId ∧ row.revokedAt = none ∧ sha ∉ missed)
    (fun _ row => {row with revokedAt := some s.clock})}

-- The conditions of the UPDATE, then the two INSERTs, in one transaction.
def rotateOauthRefreshToken (kit : Kit) (s : World) (presentedSha256 clientId : String) (access refresh : TokenRow) :
    World × Except Unit (Option TokenPair) :=
  let accessToken := accessTokenPrefix ++ kit.random s.drawn
  let refreshToken := refreshTokenPrefix ++ kit.random (s.drawn+1)
  let t := {s with drawn := s.drawn+2}
  match s.tokenWithDelegate presentedSha256 with
  | none => (t,.ok none)
  | some row =>
    if row.tokenType = .refresh ∧ row.revokedAt = none ∧ s.clock < row.expiresAt ∧ row.grantRevokedAt = none ∧
        row.clientId = clientId then
      if (s.tokens.get? (kit.hash accessToken)).isSome ∨ (s.tokens.get? (kit.hash refreshToken)).isSome ∨
          kit.hash accessToken = kit.hash refreshToken ∨ (s.grants.get? access.grantId).isNone ∨
          (s.grants.get? refresh.grantId).isNone then (t,.error ())
      else
        let consumed := s.tokens.modify presentedSha256 (fun row => {row with revokedAt := some s.clock})
        ({t with
          tokens := (consumed.insert (kit.hash accessToken) {access with revokedAt := none}).insert
            (kit.hash refreshToken) {refresh with revokedAt := none}
          log := s.log ++ [.rotated presentedSha256 (kit.hash accessToken) (kit.hash refreshToken)]},
          .ok (some ⟨accessToken,refreshToken,{row with revokedAt := some s.clock}⟩))
    else (t,.ok none)

def incrRegistrations (s : World) (key : String) : World × Nat :=
  let count := (s.registrations.get? key).getD 0 + 1
  ({s with registrations := s.registrations.upsert key count},count)

def countUnconsumedOauthClients (s : World) (withinSecs : Int) : Nat :=
  s.clients.count (fun clientId client => decide (s.clock - withinSecs * 1000 < client.createdAt) && !s.hasGrant clientId)

end World

-- What a call does when nothing goes wrong on the way.
def commit (kit : Kit) (s : World) (worker : Nat) : (op : Op) → Choice → World × Except Unit (Result op)
  | .now,_ => (s,.ok s.clock)
  | .incrRegistrations key,_ => ((s.incrRegistrations key).1,.ok (s.incrRegistrations key).2)
  | .expireRegistrations _ _,_ => (s,.ok ())
  | .countUnconsumedOauthClients withinSecs,_ => (s,.ok (s.countUnconsumedOauthClients withinSecs))
  | .insertOauthClient client,_ => s.insertOauthClient kit client
  | .fetchOauthClient clientId,_ => (s,.ok (s.fetchOauthClient clientId))
  | .touchOauthClientLastUsed _,_ => (s,.ok ())
  | .insertOauthDelegate encryptionKey label,_ => s.insertOauthDelegate kit encryptionKey label
  | .fetchOauthDelegate delegateRef,_ => (s,.ok (s.delegates.get? delegateRef))
  | .findReusableOauthDelegate accountId,c => (s,.ok (s.findReusableOauthDelegate accountId c.pick))
  | .activateOauthDelegate delegateRef accountId ownerAddress txDigest,_ =>
    (s.activateOauthDelegate delegateRef accountId ownerAddress txDigest,.ok ())
  | .insertOauthSession session query,_ => s.insertOauthSession kit session query
  | .fetchOauthSession sessionId,_ => (s,.ok (s.fetchOauthSession sessionId))
  | .consumeOauthSession sessionId,_ =>
    ((s.consumeOauthSession sessionId).1,.ok (s.consumeOauthSession sessionId).2)
  | .insertOauthCode code,_ => s.insertOauthCode kit code
  | .consumeOauthCode clientId codeSha256,_ =>
    ((s.consumeOauthCode worker clientId codeSha256).1,.ok (s.consumeOauthCode worker clientId codeSha256).2)
  | .insertOauthGrant grant,_ => s.insertOauthGrant kit worker grant
  | .insertOauthToken start token,_ => s.insertOauthToken kit worker start token
  | .fetchOauthTokenWithDelegate tokenSha256,_ => (s,.ok (s.tokenWithDelegate tokenSha256))
  | .revokeOauthToken tokenSha256,_ => (s.revokeOauthToken tokenSha256,.ok ())
  | .revokeOauthGrant grantId,c => (s.revokeOauthGrant grantId c.missed,.ok ())
  | .rotateOauthRefreshToken presentedSha256 clientId access refresh,_ =>
    s.rotateOauthRefreshToken kit presentedSha256 clientId access refresh
  | .verifyPersonal _ _ _,c => (s,if c.verified then .ok () else .error ())
  | .getObject objectId,_ => (s,.ok (s.objects.get? objectId))

@[reducible] def Answer (op : Op) : Type := Except Unit (Result op)

-- Only the clock is not read over a connection.
def serve (kit : Kit) (s : World) (worker : Nat) (op : Op) (c : Choice) : World × Answer op :=
  match if op = .now then none else c.fault with
  | none => commit kit s worker op c
  | some .before => (s,.error ())
  | some .after => ((commit kit s worker op c).1,.error ())

theorem serve_state (kit : Kit) (s : World) (worker : Nat) (op : Op) (c : Choice) :
    (serve kit s worker op c).1 = s ∨ (serve kit s worker op c).1 = (commit kit s worker op c).1 := by
  unfold serve
  split
  · exact .inr rfl
  · exact .inl rfl
  · exact .inr rfl

theorem serve_ok {kit : Kit} {s : World} {worker : Nat} {op : Op} {c : Choice} {result : Result op}
    (answered : (serve kit s worker op c).2 = .ok result) :
    serve kit s worker op c = commit kit s worker op c ∧ (commit kit s worker op c).2 = .ok result := by
  unfold serve at answered ⊢
  split at answered
  · exact ⟨rfl,answered⟩
  · cases answered
  · cases answered

theorem serve_works {kit : Kit} {s : World} {worker : Nat} {op : Op} {c : Choice} (works : c.fault = none) :
    serve kit s worker op c = commit kit s worker op c := by
  unfold serve
  rw [works]
  split <;> first | rfl | simp_all

inductive Event where
  | clock (now : Int)
  | object (objectId : String) (content : Option ObjectContent)
  | forgetRegistrations (key : String)
  | evictExpiredOauthSessions
  | evictExpiredOauthCodes
  | pruneUnconsumedOauthClients
  deriving DecidableEq, Repr

def oneDay : Int := 24 * 60 * 60 * 1000

-- The tables drop the sessions of a client together with it.
def happen (s : World) : Event → World
  | .clock now => {s with clock := now}
  | .object objectId none => {s with objects := s.objects.erase objectId}
  | .object objectId (some content) => {s with objects := s.objects.upsert objectId content}
  | .forgetRegistrations key => {s with registrations := s.registrations.erase key}
  | .evictExpiredOauthSessions => {s with sessions := s.sessions.keep (fun _ row => decide (s.clock < row.expiresAt))}
  | .evictExpiredOauthCodes => {s with codes := s.codes.keep (fun _ row => decide (s.clock < row.expiresAt))}
  | .pruneUnconsumedOauthClients =>
    let clients := s.clients.keep (fun clientId client =>
      !(decide (client.createdAt ≤ s.clock - oneDay) && !s.hasGrant clientId))
    {s with clients := clients, sessions := s.sessions.keep (fun _ row => (clients.get? row.clientId).isSome)}

end MemWal.OAuth
