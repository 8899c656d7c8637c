import MemWal.Library.Batches
import MemWal.SecurityDelete.Service

namespace MemWal.SecurityDelete
open Library Library.Fallible Library.Batches

abbrev Route := Program Op Op.Answer SdError

-- The sponsor's key, through what is done with it: its address when it decodes,
-- and its signature of a transaction.
structure SponsorKey where
  address : Option Owner
  sign : DeleteTx → Option Bytes

structure Config where
  deleteBatchMax : Nat
  maxActiveBatchesPerOwner : Nat
  expiryMarginEpochs : Nat
  walrusPackageId : String
  sponsorPrivateKey : Option SponsorKey
  securityDeleteSui : Bool

structure PrepareRequest where
  mode : String
  blobIds : Option (List BlobId)
  deriving DecidableEq, Repr

structure Excluded where
  blobId : BlobId
  reason : String
  deriving DecidableEq, Repr

structure PrepareResponse where
  batchId : Option Uuid
  txBytes : Option DeleteTx
  included : Nat
  excluded : List Excluded
  expiresAt : Option Nat
  deriving DecidableEq, Repr

structure SubmitResponse where
  state : BatchState
  deleted : Nat
  digest : Digest
  deriving DecidableEq, Repr

structure StatusResponse where
  state : BatchState
  blobCount : Nat
  digest : Option Digest
  resolvedAt : Option Timestamp
  deriving DecidableEq, Repr

def nothing (excluded : List Excluded) : PrepareResponse := ⟨none,none,0,excluded,none⟩

def invalidRequest : SdError := .new .invalidRequest "Invalid request"

def featureDisabled : SdError := .new .featureDisabled "Feature disabled"

def rpcError : SdError := .new .rpcUnavailable "Sui RPC is temporarily unavailable"

def resolved (state : BatchState) : SdError :=
  ⟨.batchAlreadyResolved,"Deletion batch already resolved",.state state⟩

def claimError : StoreError → SdError
  | .activeBatchLimit ids => ⟨.activeBatchLimit,"Active deletion batch limit reached",.activeBatchIds ids⟩
  | .conflict ids => ⟨.batchConflict,"Deletion selection conflicts with current state",.conflictingBlobIds ids⟩
  | error => .internal error

-- The calls most of the code makes: errors of the database are internal, those
-- of the chain are passed on as an unavailable RPC.
def transact (t : Transaction) : Route t.Result := do
  let result ← .perform (.transact t)
  .orFail SdError.internal result

def batchBlobs (batchId : Uuid) (owner : Owner) : Route (List (BlobId × TrackingRow)) := do
  let result ← .perform (.batchBlobs batchId owner)
  .orFail SdError.internal result

def requireBatch (batchId : Uuid) (owner : Owner) : Route BatchRow := do
  let result ← .perform (.getBatch batchId owner)
  let batch ← .orFail SdError.internal result
  .orFail id (require batch (.new .batchNotFound "Deletion batch not found"))

def getObjects {ε : Type} (convert : SuiErr → ε) (parts : List (List ObjectId)) :
    Program Op Op.Answer ε (List (Option ObjectInfo)) :=
  parts.foldlM (fun objects part => do
    let result ← .perform (.batchGetObjects part)
    let more ← .orFail convert result
    return objects ++ more) []

def batchGetAll {ε : Type} (convert : SuiErr → ε) (objectIds : List ObjectId) :
    Program Op Op.Answer ε (List (Option ObjectInfo)) :=
  getObjects convert (chunks 100 objectIds)

-- Prepare

-- `char::is_whitespace`, so that `blank` is `trim().is_empty()`.
def isWhitespace (c : Char) : Bool :=
  let n := c.toNat
  (0x9 ≤ n && n ≤ 0xd) || (0x2000 ≤ n && n ≤ 0x200a) ||
    n ∈ [0x20,0x85,0xa0,0x1680,0x2028,0x2029,0x202f,0x205f,0x3000]

def blank (text : String) : Bool := text.toList.all isWhitespace

def parseSelection (cfg : Config) (request : PrepareRequest) : Except SdError (Option (List BlobId)) :=
  if request.mode = "all" ∧ request.blobIds = none then .ok none
  else if request.mode = "selection" then do
    let ids ← require request.blobIds invalidRequest
    ensure (ids ≠ [] ∧ ids.length ≤ min cfg.deleteBatchMax maxDeleteBlobsPerTx ∧ ids.Nodup ∧
      ∀ id ∈ ids, blank id = false) invalidRequest
    return some ids
  else .error invalidRequest

def rollbackAfterPrepareFailure (batchId : Uuid) : Route Unit := do
  let _ ← .perform (.transact (.rollback batchId .cancelAwaiting))

def prepareRpc {α : Type} (batchId : Uuid) (result : Except SuiErr α) : Route α :=
  match result with
  | .ok value => return value
  | .error _ => do
    rollbackAfterPrepareFailure batchId
    .fail rpcError

-- The pages are bounded by the time budget of the whole request; running out
-- of it ends in the same way as an RPC error here.
def ownedBlobs (owner : Owner) : Nat → Option Cursor → List (BlobId × ObjectId) → Route (List (BlobId × ObjectId))
  | 0,_,_ => .fail rpcError
  | fuel + 1,cursor,owned => do
    let result ← .perform (.listOwnedBlobs owner cursor)
    let page ← .orFail (fun _ => rpcError) result
    let owned := page.1.reverse ++ owned
    match page.2 with
    | none => return owned
    | some next => if some next = cursor then .fail rpcError else ownedBlobs owner fuel (some next) owned

def evictUnowned (owner : Owner) (batchId : Uuid) (rows : List (BlobId × TrackingRow)) : Route (List Excluded) :=
  rows.foldlM (fun excluded row => do
    let evicted ← transact (.evict owner row.1 batchId .notOwner)
    return if evicted then excluded ++ [⟨row.1,"not_owner"⟩] else excluded) []

def resolveClaimedObjectIds (pages : Nat) (owner : Owner) (batchId : Uuid) : Route (List Excluded) := do
  let owned ← ownedBlobs owner pages none []
  let rows ← batchBlobs batchId owner
  let unset := rows.filter (fun row => row.2.objectId.isNone)
  let pairs := unset.filterMap (fun row => (owned.lookup row.1).map (fun id => (row.1,id)))
  if pairs ≠ [] then
    let _ ← transact (.setClaimedObjectIds owner batchId pairs)
  evictUnowned owner batchId (unset.filter (fun row => (owned.lookup row.1).isNone))

def claimedVerdict (owner : Owner) (walrusEpoch margin : Nat) (blobId : BlobId) :
    Option ObjectInfo → Option (BlobState × String)
  | none => some (.deletedExternal,"already_deleted")
  | some object =>
    if object.blobId ≠ some blobId ∨ sameOwner object.owner owner = false then some (.notOwner,"not_owner")
    else if object.endEpoch.any (fun end_ => isAtOrBefore end_ walrusEpoch margin) then some (.expired,"expired")
    else none

def sortClaimed (owner : Owner) (batchId : Uuid) (walrusEpoch margin : Nat) (excluded : List Excluded)
    (pairs : List (BlobId × Option ObjectInfo)) : Route (List ObjectInfo × List Excluded) :=
  pairs.foldlM (fun sorted pair => do
    match claimedVerdict owner walrusEpoch margin pair.1 pair.2 with
    | some (terminal,reason) =>
      let evicted ← transact (.evict owner pair.1 batchId terminal)
      return if evicted then (sorted.1,sorted.2 ++ [⟨pair.1,reason⟩]) else sorted
    | none => return (sorted.1 ++ pair.2.toList,sorted.2)) ([],excluded)

-- The node's own value wins over the configured one.
def callPackage (configured : String) (system : SharedObjectInfo) : String := system.packageId.getD configured

def gasBudget (blobs : Nat) : Nat := min (10000000 + min (2000000 * blobs) (2^64 - 1)) (2^64 - 1)

def storePrepared (owner sponsor : Owner) (batchId : Uuid) (healthy : List ObjectInfo) (package : String)
    (system : SharedObjectInfo) (epoch gasPrice : Nat) (chain : Bytes) : List Nat → Route BuiltTx
  | [] => do
    rollbackAfterPrepareFailure batchId
    .fail (.new .internalError "Internal server error")
  | offset :: rest =>
    match buildDeleteTx owner sponsor healthy package system epoch gasPrice (gasBudget healthy.length) chain
        ((deriveNonce batchId + offset) % 2^32) with
    | .error _ => do
      rollbackAfterPrepareFailure batchId
      .fail (.new .internalError "Internal server error")
    | .ok built => do
      let stored : Except StoreError Bool ← .perform (Op.transact (.setPrepared batchId built.digest
        built.txBytes built.inputBlobIds healthy.length built.nonce built.expireEpoch))
      match stored with
      | .ok true => return built
      | .ok false => .fail (.new .batchExpired "Deletion batch expired")
      | .error .nonceCollision => storePrepared owner sponsor batchId healthy package system epoch gasPrice chain rest
      | .error error =>
        rollbackAfterPrepareFailure batchId
        .fail (.internal error)

def resolveClaimed (pages : Nat) (owner : Owner) (batchId : Uuid) (rows : List (BlobId × TrackingRow)) :
    Route (List Excluded) := do
  if rows.any (fun row => row.2.objectId.isNone) then
    match ← Program.attempt (resolveClaimedObjectIds pages owner batchId) with
    | .ok excluded => return excluded
    | .error error =>
      rollbackAfterPrepareFailure batchId
      .fail error
  else return []

def prepareHealthy (cfg : Config) (owner : Owner) (batchId : Uuid) (suiEpoch : Nat) (healthy : List ObjectInfo)
    (excluded : List Excluded) : Route PrepareResponse := do
  let system ← prepareRpc batchId (← .perform .walrusSystemObject)
  let gasPrice ← prepareRpc batchId (← .perform .referenceGasPrice)
  let chain ← prepareRpc batchId (← .perform .chainId)
  let key ← .orFail id (require cfg.sponsorPrivateKey featureDisabled)
  match key.address with
  | none => do
    rollbackAfterPrepareFailure batchId
    .fail featureDisabled
  | some sponsor =>
    let built ← storePrepared owner sponsor batchId healthy (callPackage cfg.walrusPackageId system) system suiEpoch
      gasPrice chain (List.range 16)
    return ⟨some batchId,some built.txBytes,healthy.length,excluded,some built.expireEpoch⟩

def prepareClaimed (cfg : Config) (pages : Nat) (owner : Owner) (batchId : Uuid)
    (rows : List (BlobId × TrackingRow)) : Route PrepareResponse :=
  if cfg.securityDeleteSui = false then .fail featureDisabled
  else do
    let excluded ← resolveClaimed pages owner batchId rows
    let claimed ← batchBlobs batchId owner
    let known := claimed.filterMap (fun row => row.2.objectId.map (fun id => (row.1,id)))
    let walrusEpoch ← prepareRpc batchId (← .perform .walrusEpoch)
    let suiEpoch ← prepareRpc batchId (← .perform .currentEpoch)
    let objects ← prepareRpc batchId (← Program.attempt (batchGetAll id (known.map Prod.snd)))
    let sorted ← sortClaimed owner batchId walrusEpoch cfg.expiryMarginEpochs excluded
      ((known.map Prod.fst).zip objects)
    if sorted.1 = [] then
      rollbackAfterPrepareFailure batchId
      return nothing sorted.2
    else prepareHealthy cfg owner batchId suiEpoch sorted.1 sorted.2

def claim (cfg : Config) (owner : Owner) (batchId : Uuid) : Option (List BlobId) →
    Route (List (BlobId × TrackingRow))
  | some ids => do
    let result ← .perform (.transact (.createSelection owner batchId ids cfg.maxActiveBatchesPerOwner))
    .orFail claimError result
  | none => do
    let result ← .perform (.transact (.createAll owner batchId cfg.deleteBatchMax cfg.maxActiveBatchesPerOwner))
    .orFail claimError result

def prepareDeletion (cfg : Config) (pages : Nat) (owner : Owner) (request : PrepareRequest) :
    Route PrepareResponse := do
  let selection ← .orFail id (parseSelection cfg request)
  let deletable ← .orFail SdError.internal (← .perform (.countDeletable owner))
  if deletable = 0 then return nothing []
  else do
    let allowed ← .perform (.rateLimit owner)
    .orFail id allowed
    let batchId ← .perform .newUuid
    let rows ← claim cfg owner batchId selection
    if rows = [] then return nothing []
    else do
      match ← Program.cutOff (.perform Op.budgetSpent) (prepareClaimed cfg pages owner batchId rows) with
      | some response => return response
      | none => do
        rollbackAfterPrepareFailure batchId
        .fail rpcError

-- Submit

def executeTx {ε : Type} (txBytes : DeleteTx) (signatures : List Bytes) :
    Program Op Op.Answer ε (Except SuiErr ExecResult) := do
  let _ ← .perform (.send txBytes signatures)
  .perform (Op.outcome txBytes)

def rollbackExecuting (batchId : Uuid) : Route Unit := do
  let _ ← .perform (.transact (.rollback batchId .failExecuting))

def evictStale (owner : Owner) (batchId : Uuid) (stale : List StaleInput) : Route (List BlobId) :=
  stale.foldlM (fun evicted input => do
    match input.reason.terminal with
    | none => return evicted
    | some terminal =>
      let gone ← transact (.evict owner input.blobId batchId terminal)
      return if gone then evicted ++ [input.blobId] else evicted) []

-- The package the chain runs now; a failed read skips the check.
def currentPackage (result : Except SuiErr SharedObjectInfo) : Option String :=
  match result with
  | .ok system => system.packageId.bind canonicalSuiAddress
  | .error _ => none

def superseded (txBytes : DeleteTx) (current : Option String) : Bool :=
  match transactionPackage txBytes,current with
  | some package,some current => package ≠ current
  | _,_ => false

def revalidateBeforeExecute (batchId : Uuid) (owner : Owner) (batch : BatchRow) (txBytes : DeleteTx) :
    Route (Option (List BlobId)) := do
  let system ← .perform .walrusSystemObject
  if superseded txBytes (currentPackage system) then
    .fail ⟨.txExecutionFailed,"Walrus upgraded its package after this batch was prepared",
      .evicted (some "walrus_package_upgraded") []⟩
  else do
    let inputBlobIds ← .orFail id (require batch.inputBlobIds (.new .internalError "Internal server error"))
    let expected ← .orFail (fun _ => .new .internalError "Internal server error") (expectedInputs txBytes inputBlobIds)
    let objects ← batchGetAll (fun _ => rpcError) (objectIds expected)
    let stale ← .orFail (fun _ => .new .internalError "Internal server error") (staleInputs owner expected objects)
    if stale = [] then return none
    else do
      let evicted ← evictStale owner batchId stale
      let _ ← transact (.rollback batchId .failExecuting)
      return some evicted

def completeSubmit (batchId : Uuid) (digest : Digest) : Route SubmitResponse := do
  let deleted ← transact (.finalize batchId)
  let deleted ← .orFail id (require deleted (.new .batchAlreadyResolved "Batch already resolved"))
  return ⟨.completed,deleted,digest⟩

def failureTargets (batch : BatchRow) (rows : List (BlobId × TrackingRow)) : FailureClass → List BlobId
  | .culpritInput inputIndex =>
    match inputIndex with
    | 0 => []
    | index + 1 => (batch.inputBlobIds.bind (fun ids => ids[index]?)).toList
  | .sharedObjectCongestion | .wholeTransaction _ => []
  | .ambiguous => rows.map Prod.fst

def committedVerdict (owner : Owner) (blobId : BlobId) : Option ObjectInfo → Option BlobState
  | none => some .deletedExternal
  | some object =>
    if object.blobId ≠ some blobId then none
    else if sameOwner object.owner owner = false then some .notOwner
    else none

def evictGone (owner : Owner) (batchId : Uuid) (pairs : List (BlobId × Option ObjectInfo)) : Route (List BlobId) :=
  pairs.foldlM (fun evicted pair => do
    match committedVerdict owner pair.1 pair.2 with
    | none => return evicted
    | some terminal =>
      let gone ← transact (.evict owner pair.1 batchId terminal)
      return if gone then evicted ++ [pair.1] else evicted) []

-- Without the objects nothing is evicted, but the batch still fails.
def evictCommitted (owner : Owner) (batchId : Uuid) (known : List (BlobId × ObjectId)) : Route (List BlobId) := do
  match ← Program.attempt (batchGetAll id (known.map Prod.snd)) with
  | .ok objects => evictGone owner batchId ((known.map Prod.fst).zip objects)
  | .error _ => return []

def resolveCommittedFailure (batchId : Uuid) (owner : Owner) (batch : BatchRow) (status : ExecutionStatus) :
    Route (List BlobId) := do
  let rows ← batchBlobs batchId owner
  let targets := failureTargets batch rows (classifyExecutionFailure status)
  let known := (rows.filter (fun row => row.1 ∈ targets)).filterMap
    (fun row => row.2.objectId.map (fun id => (row.1,id)))
  let evicted ← evictCommitted owner batchId known
  let _ ← transact (.rollback batchId .failExecuting)
  return evicted

def committedFailure (batchId : Uuid) (owner : Owner) (batch : BatchRow) (status : ExecutionStatus) :
    Route SubmitResponse := do
  let evicted ← resolveCommittedFailure batchId owner batch status
  let reason := if classifyExecutionFailure status = .sharedObjectCongestion then some "shared_object_congestion"
    else none
  .fail ⟨.txExecutionFailed,"Transaction execution failed",.evicted reason evicted⟩

def resolveRejectedExecution (batchId : Uuid) (owner : Owner) (batch : BatchRow) (rejectionCode : SdCode) :
    Route SubmitResponse := do
  let digest ← .orFail id (require batch.digest (.new .internalError "Internal server error"))
  let status : Except SuiErr (Option ExecResult) ← .perform (Op.getTxStatus digest)
  match status with
  | .error _ => .fail rpcError
  | .ok (some result) =>
    if result.digest ≠ digest then .fail rpcError
    else if result.success then completeSubmit batchId result.digest
    else committedFailure batchId owner batch result.status
  | .ok none => do
    rollbackExecuting batchId
    if rejectionCode = .sponsorFundsUnavailable then
      .fail ⟨rejectionCode,"Deletion sponsorship is temporarily unavailable",.retryAfterSecs 30⟩
    else .fail (.new rejectionCode "Transaction execution failed")

def concludeExecution (batchId : Uuid) (owner : Owner) (batch : BatchRow) :
    Except SuiErr ExecResult → Route SubmitResponse
  | .ok result =>
    if batch.digest ≠ some result.digest then .fail rpcError
    else if result.success then completeSubmit batchId result.digest
    else committedFailure batchId owner batch result.status
  | .error .transport | .error .rateLimited => .fail rpcError
  | .error .sponsorFundsUnavailable => resolveRejectedExecution batchId owner batch .sponsorFundsUnavailable
  | .error .rejected | .error .notFound => resolveRejectedExecution batchId owner batch .txExecutionFailed

def submitChecked (batchId : Uuid) (owner : Owner) (batch : BatchRow) (txBytes : DeleteTx) (signatures : List Bytes) :
    Route SubmitResponse := do
  match ← Program.attempt (revalidateBeforeExecute batchId owner batch txBytes) with
  | .ok (some evicted) =>
    .fail ⟨.txExecutionFailed,"Transaction inputs changed after preparation",.evicted none evicted⟩
  | .error error => do
    rollbackExecuting batchId
    .fail error
  | .ok none => do
    let execution ← executeTx txBytes signatures
    concludeExecution batchId owner batch execution

def submitDeletion (cfg : Config) (owner : Owner) (batchId : Uuid) (signature : String) : Route SubmitResponse := do
  let batch ← requireBatch batchId owner
  match batch.state with
  | .rolledBack => .fail (.new .batchExpired "Deletion batch expired")
  | .completed | .failed | .executing => .fail (resolved batch.state)
  | .awaitingSignature => do
    let txBytes ← .orFail id (require batch.txBytes (.new .internalError "Internal server error"))
    let verified ← .perform (.verifyTransaction owner txBytes signature)
    let userSignature ← .orFail id verified
    let key ← .orFail id (require cfg.sponsorPrivateKey featureDisabled)
    let sponsor ← .orFail id (require (key.sign txBytes) (.new .internalError "Internal server error"))
    let begun ← transact (.beginExecution batchId [userSignature,sponsor])
    if begun then
      -- Without a client the batch is left executing.
      if cfg.securityDeleteSui = false then .fail featureDisabled
      else submitChecked batchId owner batch txBytes [userSignature,sponsor]
    else do
      let current ← requireBatch batchId owner
      .fail (resolved current.state)

-- Cancel

def statusResponse (batch : BatchRow) : StatusResponse := ⟨batch.state,batch.blobCount,batch.digest,batch.resolvedAt⟩

def cancelDeletion (owner : Owner) (batchId : Uuid) : Route StatusResponse := do
  let batch ← requireBatch batchId owner
  if batch.state ≠ .awaitingSignature then .fail (resolved batch.state)
  else do
    let cancelled ← transact (.rollback batchId .cancelAwaiting)
    let current ← requireBatch batchId owner
    if cancelled then return statusResponse current else .fail (resolved current.state)

end MemWal.SecurityDelete
