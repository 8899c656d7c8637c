import MemWal.Library.Programs
import MemWal.SecurityDelete.Inputs

namespace MemWal.SecurityDelete
open Library Library.Fallible

inductive SdCode where
  | authChallengeExpired | authInvalidSignature | authTokenExpired | invalidRequest | activeBatchLimit
  | batchConflict | batchNotFound | batchAlreadyResolved | batchExpired | txExecutionFailed
  | sponsorFundsUnavailable | invalidSignature | rateLimited | rpcUnavailable | internalError | featureDisabled
  deriving DecidableEq, Repr

inductive Details where
  | none
  | state (state : BatchState)
  | evicted (reason : Option String) (evicted : List BlobId)
  | activeBatchIds (ids : List Uuid)
  | conflictingBlobIds (blobIds : List BlobId)
  | retryAfterSecs (seconds : Nat)
  deriving DecidableEq, Repr

structure SdError where
  code : SdCode
  message : String
  details : Details
  deriving DecidableEq, Repr

def SdError.new (code : SdCode) (message : String) : SdError := ⟨code,message,.none⟩

def SdError.internal (_ : StoreError) : SdError := .new .internalError "Internal server error"

inductive AppError where
  | badRequest (message : String)
  | internal (message : String)
  | upstreamUnavailable (error : SuiErr)
  | storage (error : StoreError)
  deriving DecidableEq, Repr

-- What every replica shares: the database and the chain.
structure System where
  db : Db
  chain : Chain
  deriving DecidableEq

-- Every call that leaves the process, in the names the code has for it.
-- `execute_tx` is two of them: the request goes out, and later its answer comes
-- back.
inductive Op where
  | transact (t : Transaction)
  | claimBatchRetry (batchId : Uuid) (delay : Nat)
  | getBatch (batchId : Uuid) (owner : Owner)
  | batchBlobs (batchId : Uuid) (owner : Owner)
  | countDeletable (owner : Owner)
  | stuckBatches (claimTtl execGrace : Nat)
  | sweepCursor
  | sweepCandidates (cursor : Option SweepCursor) (limit : Nat)
  | batchGetObjects (ids : List ObjectId)
  | currentEpoch
  | walrusEpoch
  | referenceGasPrice
  | send (txBytes : DeleteTx) (signatures : List Bytes)
  | outcome (txBytes : DeleteTx)
  | getTxStatus (digest : Digest)
  | listOwnedBlobs (owner : Owner) (cursor : Option Cursor)
  | chainId
  | addressBalance (address : Owner)
  | walrusSystemObject
  | newUuid
  | rateLimit (owner : Owner)
  | verifyTransaction (owner : Owner) (txBytes : DeleteTx) (signature : String)
  | budgetSpent

@[reducible] def Op.Answer : Op → Type
  | .transact t => Except StoreError t.Result
  | .claimBatchRetry .. => Except StoreError Bool
  | .getBatch .. => Except StoreError (Option BatchRow)
  | .batchBlobs .. => Except StoreError (List (BlobId × TrackingRow))
  | .countDeletable _ => Except StoreError Nat
  | .stuckBatches .. => Except StoreError (List (Uuid × BatchRow))
  | .sweepCursor => Except StoreError (Option SweepCursor)
  | .sweepCandidates .. => Except StoreError (List ((Owner × BlobId) × TrackingRow))
  | .batchGetObjects _ => Except SuiErr (List (Option ObjectInfo))
  | .currentEpoch | .walrusEpoch | .referenceGasPrice | .addressBalance _ => Except SuiErr Nat
  | .send .. => Unit
  | .outcome _ => Except SuiErr ExecResult
  | .getTxStatus _ => Except SuiErr (Option ExecResult)
  | .listOwnedBlobs .. => Except SuiErr (List (BlobId × ObjectId) × Option Cursor)
  | .chainId => Except SuiErr Bytes
  | .walrusSystemObject => Except SuiErr SharedObjectInfo
  | .newUuid => Uuid
  | .rateLimit _ => Except SdError Unit
  | .verifyTransaction .. => Except SdError Bytes
  | .budgetSpent => Bool

-- What the caller cannot determine. A database call can lose its connection
-- before or after the commit, an RPC can fail, a request can be delivered
-- although its answer is an error, and clocks and wallets are not ours.
structure Choice where
  m : Moment := ⟨0,[]⟩
  lost : Option Bool := none
  error : Option SuiErr := none
  delivered : Bool := true
  reported : Option DeleteTx := none
  uuid : Uuid := 0
  number : Nat := 0
  bytes : Bytes := []
  page : List (BlobId × ObjectId) × Option Cursor := ([],none)
  refused : Option SdError := none
  spent : Bool := false

def Choice.read {α : Type} (c : Choice) (value : α) : Except StoreError α :=
  if c.lost.isSome then .error .storage else .ok value

def Choice.rpc {α : Type} (c : Choice) (value : α) : Except SuiErr α :=
  match c.error with
  | some error => .error error
  | none => .ok value

def Choice.elsewhere {α : Type} (c : Choice) (value : α) : Except SdError α :=
  match c.refused with
  | some error => .error error
  | none => .ok value

def System.transact (s : System) (c : Choice) (t : Transaction) : System × Except StoreError t.Result :=
  match t.run c.m s.db with
  | .ok (db,result) =>
    match c.lost with
    | none => ({s with db := db},.ok result)
    | some committed => (if committed then {s with db := db} else s,.error .storage)
  | .error failure => (s,.error failure)

def Chain.answer (chain : Chain) (c : Choice) (tx : DeleteTx) : Except SuiErr ExecResult :=
  match c.error with
  | some error => .error error
  | none =>
    match chain.status (c.reported.getD tx).digest with
    | some result => .ok result
    | none => .error .transport

def serve (s : System) (op : Op) (c : Choice) : System × op.Answer :=
  match op with
  | .transact t => s.transact c t
  | .claimBatchRetry batchId delay => s.transact c (.claimRetry batchId (c.m.now - delay))
  | .getBatch batchId owner => (s,c.read (s.db.getBatch batchId owner))
  | .batchBlobs batchId owner => (s,c.read (s.db.batchBlobs batchId owner))
  | .countDeletable owner => (s,c.read (s.db.countDeletable owner))
  | .stuckBatches claimTtl execGrace => (s,c.read (s.db.stuckBatches (c.m.now - claimTtl) (c.m.now - execGrace)))
  | .sweepCursor => (s,c.read s.db.sweepCursor)
  | .sweepCandidates cursor limit => (s,c.read (s.db.sweepCandidates cursor limit))
  | .batchGetObjects ids => (s,c.rpc (ids.map s.chain.object))
  -- The client caches both epochs for half a minute, so that they may lag.
  | .currentEpoch => (s,c.rpc (s.chain.epoch - c.number))
  | .walrusEpoch => (s,c.rpc (s.chain.walrusEpoch - c.number))
  | .referenceGasPrice => (s,c.rpc c.number)
  | .send txBytes _ => (if c.delivered then {s with chain := {s.chain with sent := txBytes :: s.chain.sent}} else s,())
  | .outcome txBytes => (s,s.chain.answer c txBytes)
  | .getTxStatus digest => (s,c.rpc (s.chain.status digest))
  | .listOwnedBlobs .. => (s,c.rpc c.page)
  | .chainId => (s,c.rpc c.bytes)
  | .addressBalance _ => (s,c.rpc c.number)
  | .walrusSystemObject => (s,c.rpc s.chain.system)
  | .newUuid => (s,c.uuid)
  | .rateLimit _ => (s,c.elsewhere ())
  | .verifyTransaction .. => (s,c.elsewhere c.bytes)
  | .budgetSpent => (s,c.spent)

-- What happens without any of the three routes and the reconciler: the chain
-- moves, inserts are tracked, and the resolver runs.
inductive Outside where
  | chain (event : ChainEvent)
  | trackDeletable (m : Moment) (rawOwner : String) (blobId : BlobId) (createdAt : Timestamp)
  | setObjectIds (m : Moment) (owner : Owner) (pairs : List (BlobId × ObjectId))
  | reserveFence (lockFree : Bool)
  | completeScan (m : Moment) (owner : Owner) (scanFence : Nat)
  | saveCheckpoint (owner : Owner) (checkpoint : ResolverCheckpoint)

inductive OutsideFailure where
  | chain (refusal : ChainRefusal)
  | storage (failure : StoreError)
  deriving DecidableEq

def System.apply (s : System) (m : Moment) (t : Transaction) : Except OutsideFailure System :=
  match t.run m s.db with
  | .ok (db,_) => .ok {s with db := db}
  | .error failure => .error (.storage failure)

def happen (s : System) : Outside → Except OutsideFailure System
  | .chain event =>
    match s.chain.happen event with
    | .ok chain => .ok {s with chain := chain}
    | .error refusal => .error (.chain refusal)
  | .trackDeletable m rawOwner blobId createdAt => s.apply m (.trackDeletable rawOwner blobId createdAt)
  | .setObjectIds m owner pairs => s.apply m (.setObjectIds owner pairs)
  | .reserveFence lockFree => s.apply ⟨0,[]⟩ (.reserveFence lockFree)
  | .completeScan m owner scanFence => s.apply m (.completeScan owner scanFence)
  | .saveCheckpoint owner checkpoint => s.apply ⟨0,[]⟩ (.saveCheckpoint owner checkpoint)

end MemWal.SecurityDelete
