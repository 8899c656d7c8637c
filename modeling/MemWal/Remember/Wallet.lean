import MemWal.Remember.Service

namespace MemWal.Remember
open Library

abbrev Wallet (α : Type) : Type := Program Op Op.Answer WalletJobError α

-- The result of a statement passed on with `?`.
def run (job : JobId) (statement : Statement) : Wallet Nat := do
  let rows : Except Unit Nat ← .perform (Op.update [job] statement)
  .orFail (fun _ => .transient) rows

-- `let _ = sqlx::query(..)`
def runIgnored (job : JobId) (statement : Statement) : Wallet Unit := do
  let _ : Except Unit Nat ← .perform (Op.update [job] statement)
  return ()

def updateRememberJobAfterWalletError (job : JobId) (error : WalletJobError) : Wallet Unit :=
  runIgnored job (.afterWalletError error.abortsRetries)

def classifyWalletRememberHandoffFailure (job : JobId) : Wallet WalletJobError := do
  let rows : Except Unit Nat ← .perform (Op.update [job] .markFailed)
  match rows with
  | .ok (_ + 1) => return .permanent
  | .ok 0 | .error _ => return .transient

def walletIndexForUploadAttempt (startingWalletIndex attempt poolSize : Nat) : Option Nat :=
  if poolSize = 0 then none
  else some ((startingWalletIndex % poolSize + (attempt - 1) % poolSize) % poolSize)

def insertVectorAndMarkRememberDone (job : JobId) (entry : VectorEntry) : Wallet Unit := do
  let inserted : Except WalletJobError Unit ← .perform (Op.insertVector job entry)
  match inserted with
  | .error error => do
    updateRememberJobAfterWalletError job error
    .fail error
  | .ok () => runIgnored job (.markDone entry.blobId)

inductive UploadResume where
  | alreadyDone (blobId : BlobId)
  | resumeTransfer (blobId : BlobId) (blobObjectId : ObjectId)
  | resumeIndex (blobId : BlobId)
  | upload
  | indeterminate
  deriving DecidableEq, Repr

def uploadResumeDisposition : Except Unit (Option Row) → UploadResume
  | .error _ => .indeterminate
  | .ok none => .upload
  | .ok (some row) =>
    match row.blobId with
    | none => .upload
    | some blobId =>
      if row.status = .done then .alreadyDone blobId
      else match row.blobObjectId with
        | some blobObjectId => .resumeTransfer blobId blobObjectId
        | none => .resumeIndex blobId

def buildResumeTransferJob (walletIndex : Nat) (job : JobId) (blobId : BlobId) (blobObjectId : ObjectId)
    (owner ns : String) (preparation : Preparation) : WalletJob :=
  ⟨walletIndex,.setMetadataAndTransfer blobObjectId owner ns job blobId preparation⟩

def resumeMetadataAndTransfer (walletIndex : Nat) (job : JobId) (blobId : BlobId) (blobObjectId : ObjectId)
    (owner ns : String) (preparation : Preparation) : Wallet Unit := do
  let pushed : Except Unit Unit ←
    .perform (Op.push (buildResumeTransferJob walletIndex job blobId blobObjectId owner ns preparation))
  match pushed with
  | .ok () => return ()
  | .error () => do
    let classified ← classifyWalletRememberHandoffFailure job
    .fail classified

-- The durable upload

def registerTransactionForResume (resumeStep : Option WriteBlobStep)
    (registerTransaction : Option PreparedRegisterTransaction) : Option PreparedRegisterTransaction :=
  match resumeStep with
  | some step => if step.isEncoded then registerTransaction else none
  | none => none

def durableUploadRequest (data : Ciphertext) (job : JobId) (journal : UploadJournal) : DurableUploadRequest where
  data := data
  keyIndex := journal.walletIndex
  jobId := job
  walletAddress := journal.walletAddress
  uploadExecutionIdentity := journal.executionIdentity
  resumeStep := journal.resumeStep
  registerTransaction := registerTransactionForResume journal.resumeStep journal.registerTransaction

inductive DurableUploadAdvance where
  | prepared (journal : UploadJournal)
  | step (journal : UploadJournal) (step : WriteBlobStep)
  deriving DecidableEq, Repr

-- A returned checkpoint consumed the prepared transaction.
def nextJournal (journal : UploadJournal) (parsed : DurableUploadResponse) : UploadJournal where
  walletIndex := journal.walletIndex
  walletAddress := parsed.walletAddress <|> journal.walletAddress
  executionIdentity := parsed.uploadExecutionIdentity <|> journal.executionIdentity
  resumeStep := parsed.resumeStep <|> journal.resumeStep
  registerTransaction :=
    if parsed.step.isSome then parsed.registerTransaction
    else parsed.registerTransaction <|> journal.registerTransaction

def advance (journal : UploadJournal) (parsed : DurableUploadResponse) : Except WalletJobError DurableUploadAdvance :=
  match parsed.step with
  | some step => .ok (.step (nextJournal journal parsed) step)
  | none =>
    if (nextJournal journal parsed).registerTransaction.isSome then .ok (.prepared (nextJournal journal parsed))
    else .error .transient

def advanceDurableUpload (data : Ciphertext) (job : JobId) (journal : UploadJournal) :
    Wallet DurableUploadAdvance := do
  let posted : Nat ← .perform (Op.post (durableUploadRequest data job journal))
  let answered : Except WalletJobError DurableUploadResponse ← .perform (Op.receive posted)
  let parsed ← .orFail id answered
  .orFail id (advance journal parsed)

def loadUploadJournal (job : JobId) (fallbackWalletIndex : Nat) : Wallet UploadJournal := do
  let stored : Except Unit (Option Row) ← .perform (Op.select job)
  match stored with
  | .ok (some row) => return row.journal.load fallbackWalletIndex
  | _ => .fail .transient

-- The column is an i32.
def persistUploadJournal (job : JobId) (journal : UploadJournal) : Wallet Unit :=
  if 2^31 ≤ journal.walletIndex then .fail .permanent
  else do
    let _ ← run job (.persistUploadJournal journal)
    return ()

-- Each call advances one step, which is persisted before the next is asked for.
def durableUploadSteps (job : JobId) (owner ns : String) (preparation : Preparation) :
    Nat → UploadJournal → Wallet Unit
  | 0,_ => .fail .transient
  | budget + 1,journal => do
    let advanced ← advanceDurableUpload preparation.encrypted job journal
    match advanced with
    | .prepared next => do
      persistUploadJournal job next
      durableUploadSteps job owner ns preparation budget next
    | .step next step => do
      let next := {next with resumeStep := some step}
      persistUploadJournal job next
      match step with
      | .certified blobId blobObjectId => do
        let _ ← run job (.persistUploadedState blobId blobObjectId)
        resumeMetadataAndTransfer next.walletIndex job blobId blobObjectId owner ns preparation
      | _ => durableUploadSteps job owner ns preparation budget next

def executeDurableUpload (fallbackWalletIndex : Nat) (job : JobId) (owner ns : String) (preparation : Preparation) :
    Wallet Unit := do
  let journal ← loadUploadJournal job fallbackWalletIndex
  durableUploadSteps job owner ns preparation 6 journal

def entryFor (owner ns : String) (blobId : BlobId) (preparation : Preparation) : VectorEntry where
  owner := owner
  ns := ns
  blobId := blobId
  vector := preparation.vector
  blobSizeBytes := preparation.encrypted.length
  importance := preparation.importance

def executeUploadAndTransferLocked (walletIndex : Nat) (job : JobId) (owner ns : String) (preparation : Preparation) :
    Wallet Unit := do
  let existing : Except Unit (Option Row) ← .perform (Op.select job)
  match uploadResumeDisposition existing with
  | .alreadyDone _ => return ()
  | .resumeTransfer blobId blobObjectId =>
    resumeMetadataAndTransfer walletIndex job blobId blobObjectId owner ns preparation
  | .resumeIndex blobId => insertVectorAndMarkRememberDone job (entryFor owner ns blobId preparation)
  | .indeterminate => .fail .transient
  | .upload => do
    runIgnored job .markRunning
    let result ← Program.attempt (executeDurableUpload walletIndex job owner ns preparation)
    match result with
    | .ok () => return ()
    | .error error => do
      updateRememberJobAfterWalletError job error
      .fail error

def consumePreparationClaim (job : JobId) : Option Token → Wallet Bool
  | none => return true
  | some token => do
    let rows ← run job (.consumePreparationClaim token)
    return rows = 1

-- A `JobUploadLock` that goes out of scope is rolled back.
def executeUploadAndTransfer (walletIndex : Nat) (job : JobId) (owner ns : String) (token : Option Token)
    (preparation : Preparation) : Wallet Unit := do
  let acquired : Except Unit Bool ← .perform (Op.tryAcquire job)
  match acquired with
  | .ok false | .error _ => do
    updateRememberJobAfterWalletError job .transient
    .fail .transient
  | .ok true => do
    let consumed ← Program.attempt (consumePreparationClaim job token)
    match consumed with
    | .error error => do
      let _ : Unit ← .perform (Op.release job)
      .fail error
    | .ok false => .perform (Op.release job)
    | .ok true => do
      let result ← Program.attempt (executeUploadAndTransferLocked walletIndex job owner ns preparation)
      let _ : Unit ← .perform (Op.release job)
      .orFail id result

-- `prepare_claim_token` is checked before the lock is taken, too.
def ownsClaim (job : JobId) : Option Token → Wallet Bool
  | none => return true
  | some token => do
    let read : Except Unit (Option Row) ← .perform (Op.select job)
    let row ← .orFail (fun _ => .transient) read
    return row.any (fun row => row.prepareClaimToken = some token)

def recoverySealPersistence (config : Config) (preparation : Preparation) : Except WalletJobError Unit :=
  if preparation.accountId = "" ∨ config.registryId = "" ∨ config.sealPolicyPackageId = ""
      ∨ preparation.encrypted = [] then .error .permanent
  else .ok ()

def executeSetMetadataAndTransfer (config : Config) (walletIndex : Nat) (blobObjectId : ObjectId)
    (preparation : Preparation) : Wallet Unit := do
  .orFail id (recoverySealPersistence config preparation)
  let answered : Except WalletJobError Unit ← .perform (Op.setMetadataBatch walletIndex blobObjectId)
  .orFail id answered

def enqueueFinalizeUploadedBlob (walletIndex : Nat) (job : JobId) (entry : VectorEntry) : Wallet (Except Unit Unit) :=
  .perform (Op.push ⟨walletIndex,.finalizeUploadedBlob entry.owner entry.ns job entry.blobId entry.vector
    entry.blobSizeBytes entry.importance⟩)

def executeWalletJob (config : Config) (job : WalletJob) (attempt : Nat) : Wallet Unit :=
  match job.operation with
  | .uploadAndTransfer preparation owner ns id token =>
    match walletIndexForUploadAttempt job.walletIndex attempt config.poolSize with
    | none => .fail .permanent
    | some walletIndex => do
      let owns ← ownsClaim id token
      if owns then executeUploadAndTransfer walletIndex id owner ns token preparation else return ()
  | .setMetadataAndTransfer blobObjectId owner ns id blobId preparation => do
    let result ← Program.attempt (executeSetMetadataAndTransfer config job.walletIndex blobObjectId preparation)
    match result with
    | .ok () => do
      let entry := entryFor owner ns blobId preparation
      let inserted ← Program.attempt (insertVectorAndMarkRememberDone id entry)
      match inserted with
      | .ok () => return ()
      | .error _ => do
        let enqueued ← enqueueFinalizeUploadedBlob job.walletIndex id entry
        match enqueued with
        | .ok () => return ()
        | .error () => do
          let classified ← classifyWalletRememberHandoffFailure id
          .fail classified
    | .error error => do
      updateRememberJobAfterWalletError id error
      .fail error
  | .finalizeUploadedBlob owner ns id blobId vector blobSizeBytes importance =>
    insertVectorAndMarkRememberDone id ⟨owner,ns,blobId,vector,blobSizeBytes,importance⟩

def intoApalis : Except WalletJobError Unit → Disposition
  | .ok () => .ok
  | .error error => if error.abortsRetries then .aborted else .failed

-- One delivery of a queued job.
def walletWorker (config : Config) (task attempt : Nat) : Program Op Op.Answer Unit Unit := do
  let fetched : Option WalletJob ← .perform (Op.fetch task attempt)
  match fetched with
  | none => return ()
  | some job => do
    let result ← Program.attempt (executeWalletJob config job attempt)
    .perform (Op.acknowledge task (intoApalis result))

end MemWal.Remember
