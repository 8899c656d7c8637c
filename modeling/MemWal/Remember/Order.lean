import MemWal.Remember.Sidecar
import MemWal.Remember.Wallet

namespace MemWal.Remember
open Library

-- What holds of a row at any time; `bound` is the next unused id.
structure RowSound (bound : Nat) (row : Row) : Prop where
  done : row.status = .done → row.blobId ≠ none
  drawn : ∀ token, row.prepareClaimToken = some token → token < bound
  paid : row.blobId ≠ none → row.prepareClaimToken = none
  batched : row.batched = true → row.prepareClaimToken = none ∧ row.preparation = none ∧ row.idempotencyKey = none

-- If the claim is still current, the row holds what was prepared under it; until a
-- blob is recorded, another claim is a later one.
structure SealedRow (config : Config) (row : Row) (token : Token) : Prop where
  current : row.prepareClaimToken = some token →
    ∃ preparation, row.preparation = some preparation ∧ preparation.encrypted = config.sealEncrypted token
  later : row.blobId = none → ∃ claim, row.prepareClaimToken = some claim ∧ token ≤ claim

def Sealed (config : Config) (s : System) (job : JobId) (token : Token) : Prop :=
  token < s.nextId ∧ ∃ row, s.rows.get? job = some row ∧ row.batched = false ∧ SealedRow config row token

-- Where the ciphertext of an upload job comes from.
def Prepared (config : Config) (s : System) (job : JobId) : Option Token → Preparation → Prop
  | some token,preparation => preparation.encrypted = config.sealEncrypted token ∧ Sealed config s job token
  | none,preparation => ∃ row, s.rows.get? job = some row ∧
      (row.blobId ≠ none ∨ row.batched = true ∧ preparation.encrypted = config.sealEncrypted job)

def Recorded (s : System) (job : JobId) (blobId : BlobId) : Prop :=
  ∃ row, s.rows.get? job = some row ∧ row.blobId = some blobId

def Batched (s : System) (job : JobId) : Prop := ∃ row, s.rows.get? job = some row ∧ row.batched = true

def Single (s : System) (job : JobId) : Prop := ∃ row, s.rows.get? job = some row ∧ row.batched = false

def Pushed (config : Config) (s : System) : WalletOperation → Prop
  | .uploadAndTransfer preparation _ _ job token => Prepared config s job token preparation
  | .setMetadataAndTransfer _ _ _ job blobId _ => Recorded s job blobId
  | .finalizeUploadedBlob _ _ job blobId _ _ _ => Recorded s job blobId

def TaskSound (s : System) : Task → Prop
  | .prepareRemember job token .. => token < s.nextId ∧ Single s job
  | .prepareBulk _ _ _ pending => ∀ item ∈ pending, Batched s item.jobId

def BulkSound (config : Config) (s : System) (job : BulkRememberJob) : Prop :=
  ∀ item ∈ job.items, Batched s item.jobId ∧ item.encrypted = config.sealEncrypted item.jobId

def Created (s : System) (digest : Digest) (blobObjectId : ObjectId) : Prop :=
  ∃ outcome, s.executed.get? digest = some outcome ∧
    createdBlobObjectIdFromTransaction outcome = some blobObjectId

-- The journal remembers a register transaction that was sent out: as prepared, or
-- by the object it created.
def Remembers (s : System) (row : Row) (transaction : PreparedRegisterTransaction) : Prop :=
  ∃ step, row.journal.uploadResumeStep = some step ∧
    (step.isEncoded = true ∧ row.journal.uploadRegisterTransaction = some transaction ∨
      ∃ blobObjectId, step.blobObjectId = some blobObjectId ∧ Created s transaction.digest blobObjectId)

-- What the sidecar answers to a request, whatever the chain did meanwhile.
def Fits (config : Config) (s : System) (request : DurableUploadRequest) (response : DurableUploadResponse) : Prop :=
  match request.resumeStep with
  | none => ∃ nonce, response = stepAnswer (.encoded (config.sdk.blobId request.data) nonce)
  | some step =>
    match step.blobObjectId with
    | some blobObjectId => ∃ next, response = stepAnswer next ∧ next.blobId = step.blobId ∧
        next.blobObjectId = some blobObjectId
    | none =>
      match request.registerTransaction with
      | some transaction => ∃ blobObjectId, Created s transaction.digest blobObjectId ∧
          response = stepAnswer (.registered (config.sdk.blobId request.data) blobObjectId transaction.digest)
      | none => ∃ nonce transaction, response.step = none ∧
          response.resumeStep = some (.encoded (config.sdk.blobId request.data) nonce) ∧
          response.registerTransaction = some transaction

structure Consistent (config : Config) (s : System) : Prop where
  rows : ∀ job row, s.rows.get? job = some row → RowSound s.nextId row
  keys : ∀ one other a b key, s.rows.get? one = some a → s.rows.get? other = some b → a.owner = b.owner →
    a.idempotencyKey = some key → b.idempotencyKey = some key → one = other
  accepted : ∀ owner key job, (owner,key,job) ∈ s.accepted →
    ∃ row, s.rows.get? job = some row ∧ row.owner = owner ∧ row.idempotencyKey = key
  pushed : ∀ job ∈ s.pushed, Pushed config s job.operation
  queued : ∀ task job, s.queue.get? task = some job → task < s.nextId ∧ job ∈ s.pushed
  delivered : ∀ worker d, s.deliveries.get? worker = some d → d.job ∈ s.pushed
  bulk : ∀ task job, s.bulkQueue.get? task = some job → BulkSound config s job
  tasks : ∀ id task, s.tasks.get? id = some task → TaskSound s task
  requests : ∀ id request, s.requests.get? id = some request → id < s.nextId ∧
    ∀ transaction, request.registerTransaction = some transaction →
      ∃ row, s.rows.get? request.jobId = some row ∧ Remembers s row transaction
  oneRegister : ∀ id other a b x y, s.requests.get? id = some a → s.requests.get? other = some b →
    a.jobId = b.jobId → a.registerTransaction = some x → b.registerTransaction = some y → x = y
  answers : ∀ id response, s.answers.get? id = some (some response) →
    ∃ request, s.requests.get? id = some request ∧ Fits config s request response
  submitted : ∀ job digest, (job,digest) ∈ s.submitted → ∃ id request transaction,
    s.requests.get? id = some request ∧ request.jobId = job ∧ request.registerTransaction = some transaction ∧
      transaction.digest = digest

-- What a row keeps, whoever works on it.
structure RowLater (row next : Row) : Prop where
  owner : next.owner = row.owner
  key : next.idempotencyKey = row.idempotencyKey
  batched : next.batched = row.batched
  blob : ∀ blobId, row.blobId = some blobId → next.blobId = some blobId ∧ next.preparation = row.preparation
  object : row.blobId ≠ none → next.blobObjectId = row.blobObjectId
  journal : row.blobId ≠ none → next.journal = row.journal

-- What it keeps, too, while someone else works on it than the holder of its lock.
structure RowHeld (row next : Row) : Prop where
  journal : next.journal = row.journal
  blank : row.blobId = none → next.blobId = none

structure Grows (config : Config) (s next : System) : Prop where
  drawn : s.nextId ≤ next.nextId
  rows : ∀ job row, s.rows.get? job = some row → ∃ after, next.rows.get? job = some after ∧ RowLater row after
  sealed : ∀ job token, Sealed config s job token → Sealed config next job token
  requests : ∀ id request, s.requests.get? id = some request → next.requests.get? id = some request
  answers : ∀ id response, s.answers.get? id = some response → next.answers.get? id = some response
  executed : ∀ digest outcome, s.executed.get? digest = some outcome → next.executed.get? digest = some outcome

-- What a worker can count on while the others work.
structure Later (config : Config) (j : Nat) (s next : System) : Prop extends Grows config s next where
  deliveries : next.deliveries.get? j = s.deliveries.get? j
  locks : ∀ job, next.locks.get? job = some j ↔ s.locks.get? job = some j
  held : ∀ job row after, s.locks.get? job = some j → s.rows.get? job = some row →
    next.rows.get? job = some after → RowHeld row after

-- The calls

variable (config : Config)

-- The worker delivers an upload of the row. If the payload has a token, it was
-- current when the claim was consumed.
structure Uploading (s : System) (worker : Nat) (job : JobId) (token : Option Token) (preparation : Preparation)
    (d : Delivery) : Prop where
  delivery : s.deliveries.get? worker = some d
  operation : ∃ owner ns, d.job.operation = .uploadAndTransfer preparation owner ns job token
  admitted : token ≠ none → d.admitted = true

-- The row as the holder of its lock knows it before a blob is recorded.
structure Blank (s : System) (worker : Nat) (job : JobId) (row : Row) : Prop where
  lock : s.locks.get? job = some worker
  found : s.rows.get? job = some row
  blank : row.blobId = none

structure Asks (journal : StoredUploadJournal) (request : DurableUploadRequest) : Prop where
  resumeStep : request.resumeStep = journal.uploadResumeStep
  registerTransaction : request.registerTransaction =
    registerTransactionForResume journal.uploadResumeStep journal.uploadRegisterTransaction
  keyIndex : ∀ index, journal.uploadWalletIndex = some index → request.keyIndex = index

-- The journal that follows from a stored one and an answer.
structure Follows (stored : StoredUploadJournal) (response : DurableUploadResponse) (next : UploadJournal) : Prop where
  walletIndex : ∀ index, stored.uploadWalletIndex = some index → next.walletIndex = index
  step : ∀ step, response.step = some step → next.resumeStep = some step ∧
    next.registerTransaction = response.registerTransaction
  prepared : response.step = none → next.resumeStep = (response.resumeStep <|> stored.uploadResumeStep) ∧
    next.registerTransaction = (response.registerTransaction <|> stored.uploadRegisterTransaction)

def AllowedStatement (s : System) (worker : Nat) (job : JobId) : Statement → Prop
  | .consumePreparationClaim token => s.locks.get? job = some worker ∧
      ∃ d preparation owner ns, s.deliveries.get? worker = some d ∧
        d.job.operation = .uploadAndTransfer preparation owner ns job (some token)
  | .markRunning => ∃ row, Blank s worker job row
  | .afterWalletError _ | .markFailed | .markPreparationFailed _ => True
  | .publishPaidRecovery _ => Single s job
  | .persistPreparation token preparation => preparation.encrypted = config.sealEncrypted token
  | .persistUploadJournal next => ∃ row d token preparation id request response, Blank s worker job row ∧
      Uploading s worker job token preparation d ∧ s.requests.get? id = some request ∧ request.jobId = job ∧
      request.data = preparation.encrypted ∧ Asks row.journal request ∧
      s.answers.get? id = some (some response) ∧ Follows row.journal response next
  | .persistUploadedState blobId blobObjectId => ∃ row d token preparation, Blank s worker job row ∧
      Uploading s worker job token preparation d ∧
      row.journal.uploadResumeStep = some (.certified blobId blobObjectId)
  | .markDone blobId => Recorded s job blobId ∧
      ∃ d, s.deliveries.get? worker = some d ∧ d.job.operation.rememberJobId = job
  | .claimPreparation _ | .claimPaidRecovery _ | .failStale => False

-- A payload that no claim guards: of a bulk item, of a fact, or of a paid recovery.
def WalletOperation.Unclaimed (operation : WalletOperation) (job : JobId) : Prop :=
  ∃ preparation owner ns, operation = .uploadAndTransfer preparation owner ns job none

-- The attempt found a blob recorded whose transfer is still to come.
def Resumes (d : Delivery) (job : JobId) : Prop :=
  d.job.operation.Unclaimed job ∧ ∃ read, d.lastRead = some read ∧ read.blobId ≠ none ∧ read.blobObjectId ≠ none ∧
    read.status ≠ .done

-- The index of a transfer is the journal's, or the one of the attempt that resumes.
def TransferIndex (row : Row) (d : Delivery) (job : JobId) (index : Nat) : Prop :=
  row.journal.uploadWalletIndex = some index ∨
    Resumes d job ∧ walletIndexForUploadAttempt d.job.walletIndex d.attempt config.poolSize = some index

def AllowedPush (s : System) (worker : Nat) (pushed : WalletJob) : Prop :=
  Pushed config s pushed.operation ∧
    match pushed.operation with
    | .uploadAndTransfer .. => s.deliveries.get? worker = none
    | .setMetadataAndTransfer blobObjectId _ _ job _ _ => ∃ row d token preparation, s.rows.get? job = some row ∧
        s.locks.get? job = some worker ∧ row.blobObjectId = some blobObjectId ∧
        Uploading s worker job token preparation d ∧ TransferIndex config row d job pushed.walletIndex
    | .finalizeUploadedBlob _ _ job blobId _ _ _ => ∃ d blobObjectId owner ns preparation,
        s.deliveries.get? worker = some d ∧
        d.job.operation = .setMetadataAndTransfer blobObjectId owner ns job blobId preparation

-- Why a delivery may be acknowledged.
def Concluded (d : Delivery) : WalletOperation → Prop
  | .uploadAndTransfer _ _ _ _ token =>
    (∃ claim row, token = some claim ∧ d.lastRead = some row ∧ row.prepareClaimToken ≠ some claim) ∨
      (∃ claim, token = some claim ∧ d.refused = true) ∨
      (∃ row, d.lastRead = some row ∧ row.status = .done) ∨ d.handedOn = true ∨ d.finished = true
  | .setMetadataAndTransfer .. => d.handedOn = true ∨ d.finished = true
  | .finalizeUploadedBlob .. => d.finished = true

structure NewRow (row : Row) : Prop where
  pending : row.status = .pending
  blank : row.blobId = none
  unclaimed : row.prepareClaimToken = none
  unprepared : row.preparation = none
  keyless : row.batched = true → row.idempotencyKey = none
  objectless : row.blobObjectId = none
  empty : row.journal = {}

def Allowed (s : System) (worker : Nat) : Op → Prop
  | .select job => ∀ d, s.deliveries.get? worker = some d → d.job.operation.rememberJobId = job
  | .insert _ row => NewRow row
  | .update jobs statement => ∀ job ∈ jobs, AllowedStatement config s worker job statement
  | .claimPreparation job => Single s job
  | .tryAcquire _ => ∀ d, s.deliveries.get? worker = some d → d.admitted = false
  | .push job => AllowedPush config s worker job
  | .acknowledge task result => ∃ d, s.deliveries.get? worker = some d ∧ d.task = task ∧
      (result = .ok → Concluded d d.job.operation)
  | .pushBulk job => BulkSound config s job
  | .spawn task => TaskSound s task
  | .post request => ∃ row d token preparation, Blank s worker request.jobId row ∧
      Uploading s worker request.jobId token preparation d ∧ request.data = preparation.encrypted ∧
      Asks row.journal request
  | .accept owner key job => ∃ row, s.rows.get? job = some row ∧ row.owner = owner ∧ row.idempotencyKey = key
  | .executeTransaction job bytes => ∃ id request transaction, s.requests.get? id = some request ∧
      request.jobId = job ∧ request.registerTransaction = some transaction ∧
      transaction.digest = config.digestFromBytes bytes
  | .respond id response => ∀ answer, response = some answer →
      ∃ request, s.requests.get? id = some request ∧ Fits config s request answer
  | _ => True

variable {config}

-- The relations compose

theorem RowLater.refl (row : Row) : RowLater row row := ⟨rfl,rfl,rfl,fun _ present => ⟨present,rfl⟩,fun _ => rfl,fun _ => rfl⟩

theorem RowLater.trans {a b c : Row} (first : RowLater a b) (second : RowLater b c) : RowLater a c := by
  refine ⟨second.owner.trans first.owner,second.key.trans first.key,second.batched.trans first.batched,?_,?_,?_⟩
  · intro blobId present
    obtain ⟨there,same⟩ := first.blob blobId present
    obtain ⟨after,again⟩ := second.blob blobId there
    exact ⟨after,again.trans same⟩
  · intro paid
    obtain ⟨blobId,present⟩ := Option.ne_none_iff_exists'.mp paid
    have there := (first.blob blobId present).1
    exact (second.object (there ▸ Option.some_ne_none blobId)).trans (first.object paid)
  · intro paid
    obtain ⟨blobId,present⟩ := Option.ne_none_iff_exists'.mp paid
    have there := (first.blob blobId present).1
    exact (second.journal (there ▸ Option.some_ne_none blobId)).trans (first.journal paid)

theorem RowHeld.refl (row : Row) : RowHeld row row := ⟨rfl,fun none_ => none_⟩

theorem RowHeld.trans {a b c : Row} (first : RowHeld a b) (second : RowHeld b c) : RowHeld a c :=
  ⟨second.journal.trans first.journal,fun none_ => second.blank (first.blank none_)⟩

theorem Grows.refl (s : System) : Grows config s s :=
  ⟨Nat.le_refl _,fun _ row found => ⟨row,found,.refl row⟩,fun _ _ held => held,fun _ _ held => held,
    fun _ _ held => held,fun _ _ held => held⟩

theorem Grows.trans {a b c : System} (first : Grows config a b) (second : Grows config b c) : Grows config a c := by
  refine ⟨Nat.le_trans first.drawn second.drawn,?_,fun _ _ held => second.sealed _ _ (first.sealed _ _ held),
    fun _ _ held => second.requests _ _ (first.requests _ _ held),
    fun _ _ held => second.answers _ _ (first.answers _ _ held),
    fun _ _ held => second.executed _ _ (first.executed _ _ held)⟩
  intro job row found
  obtain ⟨middle,there,one⟩ := first.rows job row found
  obtain ⟨last,after,two⟩ := second.rows job middle there
  exact ⟨last,after,one.trans two⟩

theorem Later.refl (j : Nat) (s : System) : Later config j s s := by
  refine ⟨.refl s,rfl,fun _ => Iff.rfl,?_⟩
  intro job row after _ found same
  cases found.symm.trans same
  exact .refl row

theorem Later.trans {j : Nat} {a b c : System} (first : Later config j a b) (second : Later config j b c) :
    Later config j a c := by
  refine ⟨first.toGrows.trans second.toGrows,second.deliveries.trans first.deliveries,
    fun job => (second.locks job).trans (first.locks job),?_⟩
  intro job row after lock found last
  obtain ⟨middle,there,_⟩ := first.rows job row found
  exact (first.held job row middle lock found there).trans
    (second.held job middle after ((first.locks job).mpr lock) there last)

-- What grows stays

section Growing
variable {s next : System} (grows : Grows config s next)
include grows

theorem Recorded.stays {job : JobId} {blobId : BlobId} (recorded : Recorded s job blobId) :
    Recorded next job blobId := by
  obtain ⟨row,found,blob⟩ := recorded
  obtain ⟨after,there,later⟩ := grows.rows job row found
  exact ⟨after,there,(later.blob blobId blob).1⟩

theorem Batched.stays {job : JobId} (batched : Batched s job) : Batched next job := by
  obtain ⟨row,found,yes⟩ := batched
  obtain ⟨after,there,later⟩ := grows.rows job row found
  exact ⟨after,there,later.batched.trans yes⟩

theorem Single.stays {job : JobId} (single : Single s job) : Single next job := by
  obtain ⟨row,found,no⟩ := single
  obtain ⟨after,there,later⟩ := grows.rows job row found
  exact ⟨after,there,later.batched.trans no⟩

theorem Prepared.stays {job : JobId} {token : Option Token} {preparation : Preparation}
    (prepared : Prepared config s job token preparation) : Prepared config next job token preparation := by
  cases token with
  | some token => exact ⟨prepared.1,grows.sealed job token prepared.2⟩
  | none =>
    obtain ⟨row,found,origin⟩ := prepared
    obtain ⟨after,there,later⟩ := grows.rows job row found
    refine ⟨after,there,?_⟩
    rcases origin with paid | ⟨batched,made⟩
    · obtain ⟨blobId,present⟩ := Option.ne_none_iff_exists'.mp paid
      left
      rw [(later.blob blobId present).1]
      exact Option.some_ne_none _
    · exact .inr ⟨later.batched.trans batched,made⟩

theorem Pushed.stays {operation : WalletOperation} (pushed : Pushed config s operation) :
    Pushed config next operation := by
  cases operation with
  | uploadAndTransfer preparation owner ns job token => exact Prepared.stays grows pushed
  | setMetadataAndTransfer blobObjectId owner ns job blobId preparation => exact Recorded.stays grows pushed
  | finalizeUploadedBlob owner ns job blobId vector size importance => exact Recorded.stays grows pushed

theorem TaskSound.stays {task : Task} (sound : TaskSound s task) : TaskSound next task := by
  cases task with
  | prepareRemember job token text owner account ns key =>
    exact ⟨Nat.lt_of_lt_of_le sound.1 grows.drawn,Single.stays grows sound.2⟩
  | prepareBulk owner account key pending => exact fun item member => Batched.stays grows (sound item member)

theorem BulkSound.stays {job : BulkRememberJob} (sound : BulkSound config s job) : BulkSound config next job :=
  fun item member => ⟨Batched.stays grows (sound item member).1,(sound item member).2⟩

theorem Created.stays {digest : Digest} {blobObjectId : ObjectId} (created : Created s digest blobObjectId) :
    Created next digest blobObjectId := by
  obtain ⟨outcome,done,object⟩ := created
  exact ⟨outcome,grows.executed digest outcome done,object⟩

theorem Remembers.stays {row : Row} {transaction : PreparedRegisterTransaction}
    (remembers : Remembers s row transaction) : Remembers next row transaction := by
  obtain ⟨step,resume,kept⟩ := remembers
  refine ⟨step,resume,?_⟩
  rcases kept with journaled | ⟨blobObjectId,object,created⟩
  · exact .inl journaled
  · exact .inr ⟨blobObjectId,object,Created.stays grows created⟩

theorem Fits.stays {request : DurableUploadRequest} {response : DurableUploadResponse}
    (fits : Fits config s request response) : Fits config next request response := by
  unfold Fits at fits ⊢
  cases asked : request.resumeStep with
  | none => simpa only [asked] using fits
  | some step =>
    simp only [asked] at fits ⊢
    cases object : step.blobObjectId with
    | some blobObjectId => simpa only [object] using fits
    | none =>
      simp only [object] at fits ⊢
      cases register : request.registerTransaction with
      | none => simpa only [register] using fits
      | some transaction =>
        simp only [register] at fits ⊢
        obtain ⟨blobObjectId,created,answer⟩ := fits
        exact ⟨blobObjectId,Created.stays grows created,answer⟩

end Growing
end MemWal.Remember
