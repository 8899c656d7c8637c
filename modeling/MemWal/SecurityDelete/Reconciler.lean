import MemWal.SecurityDelete.Routes

namespace MemWal.SecurityDelete
open Library Library.Fallible

abbrev Job := Program Op Op.Answer AppError

structure ReconcilerCfg where
  claimTtl : Nat
  execGrace : Nat
  sweepPage : Int
  expiryMarginEpochs : Nat
  sponsorAddress : Option Owner
  sponsorMinBalance : Nat
  deriving DecidableEq, Repr

structure TickReport where
  rolledBack : Nat
  finalized : Nat
  failed : Nat
  retried : Nat
  swept : Nat
  lowBalance : Bool
  deriving DecidableEq, Repr

namespace Job

def transact (t : Transaction) : Job t.Result := do
  let result ← .perform (.transact t)
  .orFail AppError.storage result

def rpc {α : Type} (result : Except SuiErr α) : Job α := .orFail AppError.upstreamUnavailable result

end Job

-- Doubles with each attempt, at most twice.
def executionRetryDelay (base submitAttempts : Nat) : Nat := base * 2^(min (submitAttempts - 1) 2)

def evictAmbiguous (owner : Owner) (batchId : Uuid) (epoch margin : Nat) (pairs : List (BlobId × Option ObjectInfo)) :
    Job Unit :=
  pairs.foldlM (fun _ pair => do
    match terminalState pair.2 pair.1 owner epoch margin with
    | none => return ()
    | some state =>
      let _ ← Job.transact (.evict owner pair.1 batchId state)
      return ()) ()

def resolveAmbiguousRows (batchId : Uuid) (owner : Owner) (rows : List (BlobId × TrackingRow)) (cfg : ReconcilerCfg) :
    Job Unit := do
  let known := rows.filterMap (fun row => row.2.objectId.map (fun id => (row.1,id)))
  if known = [] then return ()
  else do
    let objects ← Job.rpc (← .perform (.batchGetObjects (known.map Prod.snd)))
    let epoch ← Job.rpc (← .perform .walrusEpoch)
    evictAmbiguous owner batchId epoch cfg.expiryMarginEpochs ((known.map Prod.fst).zip objects)

-- An index the mapping does not know falls back to all rows.
def failureCandidates (batch : BatchRow) (rows : List (BlobId × TrackingRow)) :
    FailureClass → List (BlobId × TrackingRow)
  | .culpritInput (index + 1) =>
    match batch.inputBlobIds.bind (fun ids => ids[index]?) with
    | none => rows
    | some blobId => rows.filter (fun row => row.1 = blobId)
  | .sharedObjectCongestion | .wholeTransaction _ => []
  | .culpritInput 0 | .ambiguous => rows

def resolveFailedBatch (batchId : Uuid) (batch : BatchRow) (status : ExecutionStatus) (cfg : ReconcilerCfg) :
    Job Unit := do
  let result ← .perform (.batchBlobs batchId batch.owner)
  let rows ← .orFail AppError.storage result
  resolveAmbiguousRows batchId batch.owner (failureCandidates batch rows (classifyExecutionFailure status)) cfg

def evictStaleInputs (owner : Owner) (batchId : Uuid) (stale : List StaleInput) : Job Unit :=
  stale.foldlM (fun _ input => do
    match input.reason.terminal with
    | none => return ()
    | some terminal =>
      let _ ← Job.transact (.evict owner input.blobId batchId terminal)
      return ()) ()

def resolveStaleRetryInputs (batchId : Uuid) (batch : BatchRow) (txBytes : DeleteTx) : Job Bool := do
  let system ← .perform .walrusSystemObject
  if superseded txBytes (currentPackage system) then
    let _ ← Job.transact (.rollback batchId .failExecuting)
    return true
  else
    match batch.inputBlobIds with
    | none => return false
    | some inputBlobIds => do
      let expected ← .orFail AppError.internal (expectedInputs txBytes inputBlobIds)
      let objects ← batchGetAll AppError.upstreamUnavailable (objectIds expected)
      let stale ← .orFail AppError.internal (staleInputs batch.owner expected objects)
      if stale = [] then return false
      else do
        evictStaleInputs batch.owner batchId stale
        let _ ← Job.transact (.rollback batchId .failExecuting)
        return true

def failExecuting (batchId : Uuid) (report : TickReport) : Job TickReport := do
  let failed ← Job.transact (.rollback batchId .failExecuting)
  return if failed then {report with failed := report.failed + 1} else report

def finalizeExecuting (batchId : Uuid) (report : TickReport) : Job TickReport := do
  let finalized ← Job.transact (.finalize batchId)
  return if finalized.isSome then {report with finalized := report.finalized + 1} else report

def failCommitted (batchId : Uuid) (batch : BatchRow) (status : ExecutionStatus) (cfg : ReconcilerCfg)
    (report : TickReport) : Job TickReport := do
  resolveFailedBatch batchId batch status cfg
  failExecuting batchId report

def retryBatch (batchId : Uuid) (batch : BatchRow) (digest : Digest) (txBytes : DeleteTx) (signatures : List Bytes)
    (cfg : ReconcilerCfg) (report : TickReport) : Job TickReport := do
  let result ← .perform (.claimBatchRetry batchId (executionRetryDelay cfg.execGrace batch.submitAttempts))
  let claimed ← .orFail AppError.storage result
  if claimed = false then return report
  else do
    let report := {report with retried := report.retried + 1}
    let stale ← resolveStaleRetryInputs batchId batch txBytes
    if stale then return {report with failed := report.failed + 1}
    else do
      let execution : Except SuiErr ExecResult ← executeTx txBytes signatures
      match execution with
      | .error _ => return report
      | .ok result =>
        if result.digest ≠ digest then return report
        else if result.success then finalizeExecuting batchId report
        else failCommitted batchId batch result.status cfg report

def reconcileExecuting (cfg : ReconcilerCfg) (batchId : Uuid) (batch : BatchRow) (report : TickReport) :
    Job TickReport :=
  match batch.digest with
  | none => failExecuting batchId report
  | some digest => do
    let status : Option ExecResult ← Job.rpc (← .perform (Op.getTxStatus digest))
    match status with
    | some result =>
      if result.success then finalizeExecuting batchId report
      else failCommitted batchId batch result.status cfg report
    | none => do
      let epoch ← Job.rpc (← .perform .currentEpoch)
      if batch.expireEpoch < epoch then failExecuting batchId report
      else
        match batch.txBytes,batch.signatures with
        | some txBytes,some signatures => retryBatch batchId batch digest txBytes signatures cfg report
        | _,_ => return report

def reconcileBatch (cfg : ReconcilerCfg) (report : TickReport) (entry : Uuid × BatchRow) : Job TickReport :=
  match entry.2.state with
  | .awaitingSignature => do
    let rolledBack ← Job.transact (.rollback entry.1 .cancelAwaiting)
    return if rolledBack then {report with rolledBack := report.rolledBack + 1} else report
  | .executing => reconcileExecuting cfg entry.1 entry.2 report
  | .completed | .failed | .rolledBack => return report

def sweepRows (epoch margin : Nat) (pairs : List (((Owner × BlobId) × TrackingRow) × Option ObjectInfo)) : Job Nat :=
  pairs.foldlM (fun swept pair => do
    match terminalState pair.2 pair.1.1.2 pair.1.1.1 epoch margin with
    | none => return swept
    | some state =>
      let marked ← Job.transact (.sweepMark pair.1.1.1 pair.1.1.2 state)
      return if marked then swept + 1 else swept) 0

def runSweepPage (cfg : ReconcilerCfg) : Job Nat := do
  let cursor ← .orFail AppError.storage (← .perform .sweepCursor)
  let candidates ← .orFail AppError.storage (← .perform (.sweepCandidates cursor cfg.sweepPage.toNat))
  match candidates.getLast? with
  | none => do
    let _ ← Job.transact (.saveSweepCursor none)
    return 0
  | some last => do
    let objects ← Job.rpc (← .perform (.batchGetObjects (candidates.filterMap (fun row => row.2.objectId))))
    let epoch ← Job.rpc (← .perform .walrusEpoch)
    let swept ← sweepRows epoch cfg.expiryMarginEpochs (candidates.zip objects)
    let _ ← Job.transact (.saveSweepCursor (some ⟨last.2.updatedAt,last.1.1,last.1.2⟩))
    return swept

def checkSponsorBalance (cfg : ReconcilerCfg) (report : TickReport) : Job TickReport :=
  match cfg.sponsorAddress with
  | none => return report
  | some address => do
    let balance ← Job.rpc (← .perform (.addressBalance address))
    return {report with lowBalance := balance < cfg.sponsorMinBalance}

def runReconcilerTick (cfg : ReconcilerCfg) : Job TickReport := do
  if cfg.sweepPage ≤ 0 then .fail (.badRequest "reconciler sweep_page must be positive")
  else do
    let batches ← .orFail AppError.storage (← .perform (.stuckBatches cfg.claimTtl cfg.execGrace))
    let report ← batches.foldlM (reconcileBatch cfg) ⟨0,0,0,0,0,false⟩
    let swept ← runSweepPage cfg
    checkSponsorBalance cfg {report with swept := swept}

end MemWal.SecurityDelete
