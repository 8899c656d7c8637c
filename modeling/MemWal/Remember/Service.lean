import MemWal.Library.Crews
import MemWal.Remember.Row

namespace MemWal.Remember
open Library

-- The tracked operations: a payload without a `remember_job_id` touches no row.
inductive WalletOperation where
  | uploadAndTransfer (preparation : Preparation) (owner ns : String) (rememberJobId : JobId)
      (prepareClaimToken : Option Token)
  | setMetadataAndTransfer (blobObjectId : ObjectId) (owner ns : String) (rememberJobId : JobId) (blobId : BlobId)
      (preparation : Preparation)
  | finalizeUploadedBlob (owner ns : String) (rememberJobId : JobId) (blobId : BlobId) (vector : List Nat)
      (blobSizeBytes : Nat) (importance : Nat)
  deriving DecidableEq, Repr

def WalletOperation.rememberJobId : WalletOperation → JobId
  | .uploadAndTransfer _ _ _ job _ | .setMetadataAndTransfer _ _ _ job _ _ | .finalizeUploadedBlob _ _ job _ _ _ _ =>
    job

structure WalletJob where
  walletIndex : Nat
  operation : WalletOperation
  deriving DecidableEq, Repr

structure BulkRememberItem where
  jobId : JobId
  encrypted : Ciphertext
  vector : List Nat
  ns : String
  walletIndex : Nat
  importance : Nat
  deriving DecidableEq, Repr

structure BulkRememberJob where
  owner : String
  accountId : String
  agentPublicKey : String
  items : List BulkRememberItem
  deriving DecidableEq, Repr

structure PendingBulkRememberItem where
  jobId : JobId
  text : String
  ns : String
  deriving DecidableEq, Repr

-- What `tokio::spawn` is given.
inductive Task where
  | prepareRemember (jobId : JobId) (prepareClaimToken : Token) (text owner accountId ns agentPublicKey : String)
  | prepareBulk (owner accountId agentPublicKey : String) (pending : List PendingBulkRememberItem)
  deriving DecidableEq, Repr

inductive WalletJobError where
  | transient | permanent | walrusBalanceLow | objectLockedUntilEpoch | gasPoolExhausted | uploadSlotCongestion
  deriving DecidableEq, Repr

def WalletJobError.abortsRetries : WalletJobError → Bool
  | .permanent | .objectLockedUntilEpoch | .gasPoolExhausted => true
  | _ => false

-- `Ok(())`, `Error::Failed` (delivered again) and `Error::Abort`.
inductive Disposition where
  | ok | failed | aborted
  deriving DecidableEq, Repr

structure DurableUploadRequest where
  data : Ciphertext
  keyIndex : Nat
  jobId : JobId
  walletAddress : Option Address
  uploadExecutionIdentity : Option Nat
  resumeStep : Option WriteBlobStep
  registerTransaction : Option PreparedRegisterTransaction
  deriving DecidableEq, Repr

structure DurableUploadResponse where
  step : Option WriteBlobStep := none
  resumeStep : Option WriteBlobStep := none
  registerTransaction : Option PreparedRegisterTransaction := none
  walletAddress : Option Address := none
  uploadExecutionIdentity : Option Nat := none
  deriving DecidableEq, Repr

-- What a transaction did when the chain executed it.
structure Outcome where
  success : Bool
  createdBlobs : List ObjectId
  deriving DecidableEq, Repr

structure VectorEntry where
  owner : String
  ns : String
  blobId : BlobId
  vector : List Nat
  blobSizeBytes : Nat
  importance : Nat
  deriving DecidableEq, Repr

-- One delivery of a wallet job, with what the worker has learnt and done. Only
-- proofs read it.
structure Delivery where
  task : Nat
  job : WalletJob
  attempt : Nat
  lastRead : Option Row := none
  admitted : Bool := false
  refused : Bool := false
  handedOn : Bool := false
  finished : Bool := false
  deriving DecidableEq, Repr

-- Everything the server processes, the sidecar and the chain share. `pushed`,
-- `submitted`, `accepted`, `taken` and `deliveries` are histories.
structure System where
  rows : Store JobId Row := .empty
  locks : Store JobId Nat := .empty
  queue : Store Nat WalletJob := .empty
  bulkQueue : Store Nat BulkRememberJob := .empty
  tasks : Store Nat Task := .empty
  vectors : Store JobId VectorEntry := .empty
  requests : Store Nat DurableUploadRequest := .empty
  taken : List Nat := []
  answers : Store Nat (Option DurableUploadResponse) := .empty
  executed : Store Digest Outcome := .empty
  submitted : List (JobId × Digest) := []
  pushed : List WalletJob := []
  accepted : List (String × Option String × JobId) := []
  deliveries : Store Nat Delivery := .empty
  clock : Nat := 0
  nextId : Nat := 0

-- Calls whose only result is a number or a failure that the caller cannot predict.
inductive Probe where
  | summarize | embed | storageQuota
  | executionIdentity | uploadSlots | encode | buildTransaction | currentEpoch | registeredBlob | certified | upload
  | certify
  deriving DecidableEq, Repr

inductive Op where
  | select (job : JobId)
  | findByKey (owner key : String)
  | insert (job : JobId) (row : Row)
  | update (jobs : List JobId) (statement : Statement)
  | claimPreparation (job : JobId)
  | claimPaidRecovery (job : JobId)
  | tryAcquire (job : JobId)
  | release (job : JobId)
  | push (job : WalletJob)
  | fetch (task attempt : Nat)
  | acknowledge (task : Nat) (result : Disposition)
  | pushBulk (job : BulkRememberJob)
  | fetchBulk (task : Nat)
  | acknowledgeBulk (task : Nat)
  | spawn (task : Task)
  | takeTask (id : Nat)
  | insertVector (job : JobId) (entry : VectorEntry)
  | setMetadataBatch (keyIndex : Nat) (blobObjectId : ObjectId)
  | sealEncrypt (preparation : Nat)
  | post (request : DurableUploadRequest)
  | receive (id : Nat)
  | accept (owner : String) (key : Option String) (job : JobId)
  | take (id : Nat)
  | getTransaction (digest : Digest)
  | executeTransaction (job : JobId) (bytes : TransactionData)
  | respond (id : Nat) (response : Option DurableUploadResponse)
  | probe (what : Probe)
  | nextIndex
  | newUuid
  deriving DecidableEq

@[reducible] def Op.Answer : Op → Type
  | .select _ => Except Unit (Option Row)
  | .findByKey _ _ => Except Unit (Option (JobId × Row))
  | .insert _ _ => Except Unit Nat
  | .update _ _ => Except Unit Nat
  | .claimPreparation _ | .claimPaidRecovery _ => Except Unit (Option Token)
  | .tryAcquire _ => Except Unit Bool
  | .release _ => Unit
  | .push _ | .pushBulk _ => Except Unit Unit
  | .fetch _ _ => Option WalletJob
  | .acknowledge _ _ | .acknowledgeBulk _ => Unit
  | .fetchBulk _ => Option BulkRememberJob
  | .spawn _ => Unit
  | .takeTask _ => Option Task
  | .insertVector _ _ | .setMetadataBatch _ _ => Except WalletJobError Unit
  | .sealEncrypt _ => Except Unit Ciphertext
  | .post _ => Nat
  | .receive _ => Except WalletJobError DurableUploadResponse
  | .accept _ _ _ => Unit
  | .take _ => Option DurableUploadRequest
  | .getTransaction _ => Except Unit (Option Outcome)
  | .executeTransaction _ _ => Except Unit Outcome
  | .respond _ _ => Unit
  | .probe _ => Except Unit Nat
  | .nextIndex | .newUuid => Nat

-- A call can fail before or after it took effect.
inductive Fault where
  | none | before | after
  deriving DecidableEq, Repr

-- What nobody in the system decides. `error` is how `classify_sidecar_error`
-- reads the text of a failure.
structure Choice where
  fault : Fault := .none
  error : Option WalletJobError := none
  busy : Bool := false
  number : Nat := 0
  lands : Bool := true
  outcome : Outcome := ⟨true,[]⟩
  deriving DecidableEq, Repr

-- What the sidecar relies on in the Walrus SDK: the id of a blob is derived from
-- its content, and the upload of a registered blob returns a step for that blob.
structure WalrusSdk where
  blobId : Ciphertext → BlobId
  uploaded : BlobId → ObjectId → Digest → Nat → BlobId × ObjectId × Nat
  injective : Function.Injective blobId
  sameBlob : ∀ b o digest n, (uploaded b o digest n).1 = b
  sameObject : ∀ b o digest n, (uploaded b o digest n).2.1 = o

-- `sealEncrypted` stands for the SEAL encryption, which is not deterministic: each
-- preparation encrypts once, so what it gets is a function of the preparation.
structure Config where
  poolSize : Nat
  openaiApiKey : Bool
  address : Nat → Option Address
  registryId : String
  sealPolicyPackageId : String
  requestFingerprint : String → String → String
  sealEncrypted : Nat → Ciphertext
  digestFromBytes : TransactionData → Digest
  directSigningAllowed : Bool
  sdk : WalrusSdk

namespace System
variable (s : System)

-- What a worker that runs a delivery adds to its record.
def note (worker : Nat) (f : Delivery → Delivery) : System :=
  {s with deliveries := s.deliveries.modify worker f}

def matching (jobs : List JobId) (statement : Statement) (job : JobId) (row : Row) : Bool :=
  decide (job ∈ jobs) && statement.applies s.clock row

def execute (jobs : List JobId) (statement : Statement) : System :=
  {s with rows := s.rows.update (s.matching jobs statement) (fun _ row => statement.apply s.clock row)}

def affected (jobs : List JobId) (statement : Statement) : Nat := s.rows.count (s.matching jobs statement)

def findByKey (owner key : String) : Option (JobId × Row) :=
  s.rows.entries.find? (fun entry => entry.2.owner = owner ∧ entry.2.idempotencyKey = some key)

-- The partial unique index of migration 013.
def keyTaken (row : Row) : Bool :=
  match row.idempotencyKey with
  | none => false
  | some key => (s.findByKey row.owner key).isSome

def drawn : System := {s with nextId := s.nextId+1}

def faulty (fault : Fault) (next : System) (answer : α) : System × Except Unit α :=
  match fault with
  | .none => (next,.ok answer)
  | .before => (s,.error ())
  | .after => (next,.error ())

end System

-- The claim of a preparation and its consumption are what a delivery is judged by.
def noteUpdate (statement : Statement) (rows : Except Unit Nat) (d : Delivery) : Delivery :=
  match statement,rows with
  | .consumePreparationClaim _,.ok 1 => {d with admitted := true}
  | .consumePreparationClaim _,.ok _ => {d with refused := true}
  | .markDone _,_ => {d with finished := true}
  | _,_ => d

def serve (config : Config) (s : System) (worker : Nat) : (op : Op) → Choice → System × op.Answer
  | .select job,c =>
    match c.fault with
    | .none => (s.note worker (fun d => {d with lastRead := s.rows.get? job}),.ok (s.rows.get? job))
    | _ => (s,.error ())
  | .findByKey owner key,c => s.faulty c.fault s (s.findByKey owner key)
  | .insert job row,c =>
    if s.rows.get? job ≠ none then (s,.error ())
    else if s.keyTaken row then s.faulty c.fault s 0
    else s.faulty c.fault {s with rows := s.rows.insert job {row with updatedAt := s.clock}} 1
  | .update jobs statement,c =>
    let answered := s.faulty c.fault (s.execute jobs statement) (s.affected jobs statement)
    (answered.1.note worker (noteUpdate statement answered.2),answered.2)
  | .claimPreparation job,c =>
    s.faulty c.fault (s.execute [job] (.claimPreparation s.nextId)).drawn
      (if s.affected [job] (.claimPreparation s.nextId) = 0 then none else some s.nextId)
  | .claimPaidRecovery job,c =>
    s.faulty c.fault (s.execute [job] (.claimPaidRecovery s.nextId)).drawn
      (if s.affected [job] (.claimPaidRecovery s.nextId) = 0 then none else some s.nextId)
  | .tryAcquire job,c =>
    match c.fault with
    | .none =>
      if c.busy ∨ s.locks.get? job ≠ none then (s,.ok false)
      else ({s with locks := s.locks.insert job worker},.ok true)
    | _ => (s,.error ())
  | .release job,_ =>
    (if s.locks.get? job = some worker then {s with locks := s.locks.erase job} else s,())
  | .push job,c =>
    let stored := {s.drawn with
      queue := s.queue.upsert s.nextId job
      pushed := s.pushed ++ [job]}
    match c.fault with
    | .none => (stored.note worker (fun d => {d with handedOn := true}),.ok ())
    | .before => (s,.error ())
    | .after => (stored,.error ())
  | .fetch task attempt,_ =>
    match s.queue.get? task with
    | none => (s,none)
    | some job => ({s with deliveries := s.deliveries.upsert worker ⟨task,job,attempt,none,false,false,false,false⟩},
        some job)
  | .acknowledge task result,c =>
    let ended := {s with deliveries := s.deliveries.erase worker}
    (if c.fault = .none ∧ result ≠ .failed then {ended with queue := s.queue.erase task} else ended,())
  | .pushBulk job,c =>
    s.faulty c.fault {s.drawn with bulkQueue := s.bulkQueue.upsert s.nextId job} ()
  | .fetchBulk task,_ => (s,s.bulkQueue.get? task)
  | .acknowledgeBulk task,_ => ({s with bulkQueue := s.bulkQueue.erase task},())
  | .spawn task,_ => ({s.drawn with tasks := s.tasks.upsert s.nextId task},())
  | .takeTask id,_ => ({s with tasks := s.tasks.erase id},s.tasks.get? id)
  | .insertVector job entry,c =>
    match c.error with
    | none => ({s with vectors := s.vectors.upsert job entry},.ok ())
    | some error => (if c.fault = .after then {s with vectors := s.vectors.upsert job entry} else s,.error error)
  | .setMetadataBatch _ _,c =>
    match c.error with
    | none => (s,.ok ())
    | some error => (s,.error error)
  | .sealEncrypt preparation,c => s.faulty c.fault s (config.sealEncrypted preparation)
  | .post request,_ => ({s.drawn with requests := s.requests.insert s.nextId request},s.nextId)
  | .receive id,c =>
    match s.answers.get? id,c.error with
    | some (some response),none => (s,.ok response)
    | _,error => (s,.error (error.getD .transient))
  | .accept owner key job,_ => ({s with accepted := s.accepted ++ [(owner,key,job)]},())
  | .take id,_ =>
    if id ∈ s.taken then (s,none) else ({s with taken := id :: s.taken},s.requests.get? id)
  | .getTransaction digest,c => s.faulty c.fault s (if c.busy then none else s.executed.get? digest)
  | .executeTransaction job bytes,c =>
    let digest := config.digestFromBytes bytes
    let submitted := {s with
      submitted := s.submitted ++ [(job,digest)]
      executed := if c.lands then s.executed.insert digest c.outcome else s.executed}
    match submitted.executed.get? digest,c.fault with
    | some outcome,.none => (submitted,.ok outcome)
    | _,.before => (s,.error ())
    | _,_ => (submitted,.error ())
  | .respond id response,_ => ({s with answers := s.answers.insert id response},())
  | .probe _,c => s.faulty c.fault s c.number
  | .nextIndex,c => (s,c.number)
  | .newUuid,_ => (s.drawn,s.nextId)

-- A worker that dies rolls its lock transaction back.
def abandon (s : System) (worker : Nat) : System :=
  {s with
    locks := s.locks.keep (fun _ holder => holder ≠ worker)
    deliveries := s.deliveries.erase worker}

def service (config : Config) : Service Op Op.Answer System Choice where
  serve s worker op c := serve config s worker op c
  abandon := abandon

inductive Event where
  | tick (seconds : Nat)
  | failStale
  | execute (digest : Digest) (outcome : Outcome)

-- Time passes, the sweeper runs, the chain executes what was submitted.
def happen (s : System) : Event → System
  | .tick seconds => {s with clock := s.clock+seconds}
  | .failStale => s.execute s.rows.keys .failStale
  | .execute digest outcome =>
    if s.submitted.any (fun entry => entry.2 = digest) then {s with executed := s.executed.insert digest outcome} else s

end MemWal.Remember
