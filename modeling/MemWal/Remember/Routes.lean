import MemWal.Remember.Service

namespace MemWal.Remember
open Library Library.Fallible

inductive AppError where
  | badRequest (message : String)
  | conflict (message : String)
  | internal (message : String)
  deriving DecidableEq, Repr

abbrev Route (α : Type) : Type := Program Op Op.Answer AppError α

structure AuthInfo where
  owner : String
  accountId : String
  publicKey : String
  deriving DecidableEq, Repr

structure RememberRequest where
  text : String
  ns : String
  idempotencyKey : Option String
  deriving DecidableEq, Repr

def maxRememberTextBytes : Nat := 1024 * 1024
def summarizeThresholdBytes : Nat := 8 * 1024
def maxNamespaceBytes : Nat := 255
def maxIdempotencyKeyBytes : Nat := 255
def maxBulkItems : Nat := 20

-- 0.5, in hundredths.
def importanceStandard : Nat := 50

def Status.text : Status → String
  | .pending => "pending"
  | .running => "running"
  | .uploaded => "uploaded"
  | .done => "done"
  | .failed => "failed"

def noKeys : AppError :=
  .internal "No Sui keys configured (set SERVER_SUI_PRIVATE_KEYS or SERVER_SUI_PRIVATE_KEY)"

def keyReused : AppError := .conflict "idempotency_key was already used for a request with different content"

-- Shared steps of the routes

def inquire (what : Probe) (failure : String) : Route Nat := do
  let answered : Except Unit Nat ← .perform (Op.probe what)
  .orFail (fun _ => .internal failure) answered

def statement (job : JobId) (statement : Statement) (failure : String) : Route Nat := do
  let rows : Except Unit Nat ← .perform (Op.update [job] statement)
  .orFail (fun _ => .internal failure) rows

def nextIndex (config : Config) : Route Nat :=
  if config.poolSize = 0 then .fail noKeys
  else do
    let cursor : Nat ← .perform Op.nextIndex
    return cursor % config.poolSize

def enqueueWalletJob (walletIndex : Nat) (operation : WalletOperation) : Route Unit := do
  let pushed : Except Unit Unit ← .perform (Op.push ⟨walletIndex,operation⟩)
  .orFail (fun _ => .internal "Failed to enqueue WalletJob") pushed

def findRememberJobByKey (owner key : String) : Route (Option (JobId × Row)) := do
  let found : Except Unit (Option (JobId × Row)) ← .perform (Op.findByKey owner key)
  .orFail (fun _ => .internal "Failed to look up idempotency key") found

def claimRememberPreparation (job : JobId) : Route (Option Token) := do
  let claimed : Except Unit (Option Token) ← .perform (Op.claimPreparation job)
  .orFail (fun _ => .internal "Failed to claim remember preparation") claimed

def claimPaidRecovery (job : JobId) : Route (Option Token) := do
  let claimed : Except Unit (Option Token) ← .perform (Op.claimPaidRecovery job)
  .orFail (fun _ => .internal "Failed to claim paid recovery") claimed

def sealEncrypt (preparation : Nat) : Route Ciphertext := do
  let encrypted : Except Unit Ciphertext ← .perform (Op.sealEncrypt preparation)
  .orFail (fun _ => .internal "") encrypted

-- Long texts are summarized for the embedding only.
def embedText (config : Config) (text : String) : Route (List Nat) := do
  if summarizeThresholdBytes < text.utf8ByteSize ∧ config.openaiApiKey then
    let _ ← inquire .summarize ""
  let vector ← inquire .embed ""
  return [vector]

-- Preparation of one memory

def prepareRememberJob (config : Config) (job : JobId) (token : Token) (text owner accountId ns agentPublicKey : String) :
    Route Unit := do
  let vector ← embedText config text
  let encrypted ← sealEncrypt token
  let _ ← inquire .storageQuota ""
  let walletIndex ← nextIndex config
  let preparation := ⟨encrypted,vector,importanceStandard,accountId,agentPublicKey⟩
  let rows ← statement job (.persistPreparation token preparation) "Failed to persist preparation"
  if rows ≠ 1 then return ()
  else enqueueWalletJob walletIndex (.uploadAndTransfer preparation owner ns job (some token))

def markPreparationFailed (job : JobId) (token : Token) : Route Unit := do
  let _ : Except Unit Nat ← .perform (Op.update [job] (.markPreparationFailed token))
  return ()

-- Preparation of a bulk request

def prepareItem (config : Config) (prepared : List (PendingBulkRememberItem × List Nat × Ciphertext))
    (item : PendingBulkRememberItem) : Route (List (PendingBulkRememberItem × List Nat × Ciphertext)) := do
  let vector ← embedText config item.text
  let encrypted ← sealEncrypt item.jobId
  return prepared ++ [(item,vector,encrypted)]

def bulkItem (config : Config) (items : List BulkRememberItem)
    (prepared : PendingBulkRememberItem × List Nat × Ciphertext) : Route (List BulkRememberItem) := do
  let walletIndex ← nextIndex config
  return items ++ [⟨prepared.1.jobId,prepared.2.2,prepared.2.1,prepared.1.ns,walletIndex,importanceStandard⟩]

def prepareBulkRememberJob (config : Config) (owner accountId agentPublicKey : String)
    (pending : List PendingBulkRememberItem) : Route Unit := do
  let prepared ← pending.foldlM (prepareItem config) []
  let _ ← inquire .storageQuota ""
  let items ← prepared.foldlM (bulkItem config) []
  let pushed : Except Unit Unit ← .perform (Op.pushBulk ⟨owner,accountId,agentPublicKey,items⟩)
  .orFail (fun _ => .internal "Failed to enqueue bulk remember job") pushed

def markRememberJobsFailed (jobs : List JobId) : Route Unit :=
  if jobs = [] then return ()
  else do
    let _ : Except Unit Nat ← .perform (Op.update jobs .markFailed)
    return ()

def runTask (config : Config) : Task → Route Unit
  | .prepareRemember job token text owner accountId ns agentPublicKey => do
    let result ← Program.attempt (prepareRememberJob config job token text owner accountId ns agentPublicKey)
    match result with
    | .ok () => return ()
    | .error (_ : AppError) => markPreparationFailed job token
  | .prepareBulk owner accountId agentPublicKey pending => do
    let result ← Program.attempt (prepareBulkRememberJob config owner accountId agentPublicKey pending)
    match result with
    | .ok () => return ()
    | .error (_ : AppError) => markRememberJobsFailed (pending.map PendingBulkRememberItem.jobId)

-- An in-process task; it is lost with the process.
def taskWorker (config : Config) (id : Nat) : Route Unit := do
  let taken : Option Task ← .perform (Op.takeTask id)
  match taken with
  | none => return ()
  | some task => runTask config task

-- Fan-out of a bulk request

def fanOut (job : BulkRememberJob) (item : BulkRememberItem) : Route Unit :=
  enqueueWalletJob item.walletIndex (.uploadAndTransfer
    ⟨item.encrypted,item.vector,item.importance,job.accountId,job.agentPublicKey⟩ job.owner item.ns item.jobId none)

def executeBulkRemember (job : BulkRememberJob) : Route Unit := job.items.foldlM (fun _ item => fanOut job item) ()

def bulkWorker (task : Nat) : Route Unit := do
  let fetched : Option BulkRememberJob ← .perform (Op.fetchBulk task)
  match fetched with
  | none => return ()
  | some job => do
    executeBulkRemember job
    .perform (Op.acknowledgeBulk task)

-- POST /api/remember

def paidRecoveryOperation (preparation : Preparation) (job : JobId) (owner ns : String) : WalletOperation :=
  .uploadAndTransfer preparation owner ns job none

def enqueuePersistedPaidRecovery (config : Config) (job : JobId) (owner ns : String) : Route Unit := do
  let read : Except Unit (Option Row) ← .perform (Op.select job)
  let row ← .orFail (fun _ => AppError.internal "Failed to load paid preparation") read
  let missing := AppError.internal
    "Paid remember job has no original durable preparation payload; refusing to re-encrypt"
  let row ← .orFail id (require (row.filter (fun row => row.blobId ≠ none)) missing)
  let preparation ← .orFail id (require row.preparation (.internal "Failed to load paid preparation"))
  let walletIndex ← nextIndex config
  enqueueWalletJob walletIndex (paidRecoveryOperation preparation job owner ns)

def claimAndSpawn (auth : AuthInfo) (body : RememberRequest) (job : JobId) : Route Unit := do
  let claimed ← claimRememberPreparation job
  match claimed with
  | none => return ()
  | some token =>
    .perform (Op.spawn (.prepareRemember job token body.text auth.owner auth.accountId body.ns auth.publicKey))

def differs (stored : Option String) (fingerprint : String) : Bool := stored.any (fun value => value ≠ fingerprint)

-- Claim first, enqueue second, publish last.
def recoverPaid (config : Config) (auth : AuthInfo) (body : RememberRequest) (job : JobId) : Route Unit := do
  let claimed ← claimPaidRecovery job
  match claimed with
  | none => return ()
  | some token => do
    enqueuePersistedPaidRecovery config job auth.owner body.ns
    let _ ← statement job (.publishPaidRecovery token) "Failed to publish paid recovery"
    return ()

def collapse (config : Config) (auth : AuthInfo) (body : RememberRequest) (fingerprint : String) (job : JobId)
    (row : Row) : Route (JobId × String) :=
  if differs row.requestFingerprint fingerprint then .fail keyReused
  else if (row.status = .failed ∨ row.status = .pending) ∧ row.blobId = none then do
    claimAndSpawn auth body job
    return (job,"pending")
  else if (row.status = .failed ∨ row.status = .uploaded) ∧ row.blobId ≠ none then do
    recoverPaid config auth body job
    return (job,"uploaded")
  else return (job,row.status.text)

-- The insert met another request's row.
def collapseRace (auth : AuthInfo) (body : RememberRequest) (fingerprint : String) (job : JobId) (row : Row) :
    Route (JobId × String) :=
  if differs row.requestFingerprint fingerprint then .fail keyReused
  else do
    if row.status = .pending then
      claimAndSpawn auth body job
    return (job,row.status.text)

def insertedNothing : AppError := .internal "Failed to create job row: insert affected no rows"

def collapseOnto (auth : AuthInfo) (body : RememberRequest) (fingerprint : String) : Route (JobId × String) :=
  match body.idempotencyKey with
  | none => .fail insertedNothing
  | some key => do
    let found ← findRememberJobByKey auth.owner key
    match found with
    | none => .fail insertedNothing
    | some (job,row) => collapseRace auth body fingerprint job row

def newRow (auth : AuthInfo) (body : RememberRequest) (fingerprint : String) : Row where
  owner := auth.owner
  ns := body.ns
  idempotencyKey := body.idempotencyKey
  requestFingerprint := body.idempotencyKey.map (fun _ => fingerprint)
  batched := false

def createJob (auth : AuthInfo) (body : RememberRequest) (fingerprint : String) : Route (JobId × String) := do
  let job : JobId ← .perform Op.newUuid
  let inserted : Except Unit Nat ← .perform (Op.insert job (newRow auth body fingerprint))
  let rows ← .orFail (fun _ => .internal "Failed to create job row") inserted
  if rows = 0 then collapseOnto auth body fingerprint
  else do
    let claimed ← claimRememberPreparation job
    let token ← .orFail id (require claimed (.internal "Failed to claim new remember preparation"))
    let _ : Unit ← .perform
      (Op.spawn (.prepareRemember job token body.text auth.owner auth.accountId body.ns auth.publicKey))
    return (job,"running")

def lookUp (auth : AuthInfo) : Option String → Route (Option (JobId × Row))
  | none => return none
  | some key => findRememberJobByKey auth.owner key

def validateNamespace (ns : String) : Except AppError Unit := do
  ensure (ns ≠ "") (.badRequest "namespace cannot be empty")
  ensure (ns.utf8ByteSize ≤ maxNamespaceBytes) (.badRequest "namespace exceeds maximum length of 255 bytes")

def validateIdempotencyKey : Option String → Except AppError Unit
  | none => return ()
  | some key => do
    ensure (key ≠ "") (.badRequest "idempotency_key cannot be empty (omit it instead)")
    ensure (key.utf8ByteSize ≤ maxIdempotencyKeyBytes)
      (.badRequest "idempotency_key exceeds maximum length of 255 bytes")

def validateRemember (body : RememberRequest) : Except AppError Unit := do
  ensure (body.text ≠ "") (.badRequest "Text cannot be empty")
  ensure (body.text.utf8ByteSize ≤ maxRememberTextBytes) (.badRequest "Text exceeds maximum length of 1048576 bytes")
  validateNamespace body.ns
  validateIdempotencyKey body.idempotencyKey

def remember (config : Config) (auth : AuthInfo) (body : RememberRequest) : Route (JobId × String) := do
  .orFail id (validateRemember body)
  let fingerprint := config.requestFingerprint body.text body.ns
  let found ← lookUp auth body.idempotencyKey
  match found with
  | some (job,row) => collapse config auth body fingerprint job row
  | none => createJob auth body fingerprint

-- The 202 leaves the server.
def rememberRequest (config : Config) (auth : AuthInfo) (body : RememberRequest) : Route Unit := do
  let response ← remember config auth body
  .perform (Op.accept auth.owner body.idempotencyKey response.1)

-- POST /api/remember/bulk and /api/analyze

def batchedRow (owner ns : String) : Row where
  owner := owner
  ns := ns
  idempotencyKey := none
  requestFingerprint := none
  batched := true

def validateBulkItem (index : Nat) (text ns : String) : Except AppError Unit := do
  ensure (text ≠ "") (.badRequest ("items[" ++ toString index ++ "].text cannot be empty"))
  ensure (text.utf8ByteSize ≤ maxRememberTextBytes)
    (.badRequest ("items[" ++ toString index ++ "].text exceeds 1048576 bytes"))
  ensure (ns ≠ "") (.badRequest ("items[" ++ toString index ++ "].namespace cannot be empty"))
  ensure (ns.utf8ByteSize ≤ maxNamespaceBytes)
    (.badRequest ("items[" ++ toString index ++ "].namespace exceeds maximum length of 255 bytes"))

def validateBulk (items : List (String × String)) : Except AppError Unit := do
  ensure (items ≠ []) (.badRequest "items cannot be empty")
  ensure (items.length ≤ maxBulkItems) (.badRequest "items exceeds maximum of 20 per bulk request")
  items.zipIdx.forM (fun item => validateBulkItem item.2 item.1.1 item.1.2)

def insertBatched (job : JobId) (owner ns failure : String) : Route Unit := do
  let inserted : Except Unit Nat ← .perform (Op.insert job (batchedRow owner ns))
  let _ ← .orFail (fun _ => .internal failure) inserted
  return ()

def insertPending (owner : String) (pending : List PendingBulkRememberItem) (item : String × String) :
    Route (List PendingBulkRememberItem) := do
  let job : JobId ← .perform Op.newUuid
  insertBatched job owner item.2 "Failed to create bulk job row"
  return pending ++ [⟨job,item.1,item.2⟩]

-- The items are pairs of a text and a namespace.
def rememberBulk (auth : AuthInfo) (items : List (String × String)) : Route Unit := do
  .orFail id (validateBulk items)
  let pending ← items.foldlM (insertPending auth.owner) []
  .perform (Op.spawn (.prepareBulk auth.owner auth.accountId auth.publicKey pending))

structure PreparedFact where
  jobId : JobId
  encrypted : Ciphertext
  vector : List Nat
  importance : Nat
  deriving DecidableEq, Repr

-- The job's uuid is drawn when its row is inserted; no one can tell.
def prepareFact (prepared : List PreparedFact) (fact : String × Nat) : Route (List PreparedFact) := do
  let job : JobId ← .perform Op.newUuid
  let vector ← inquire .embed ""
  let encrypted ← sealEncrypt job
  return prepared ++ [⟨job,encrypted,[vector],fact.2⟩]

def enqueueFact (config : Config) (auth : AuthInfo) (ns : String) (fact : PreparedFact) : Route Unit := do
  insertBatched fact.jobId auth.owner ns "Failed to create analyze job row"
  let walletIndex ← nextIndex config
  enqueueWalletJob walletIndex (.uploadAndTransfer
    ⟨fact.encrypted,fact.vector,fact.importance,auth.accountId,auth.publicKey⟩ auth.owner ns fact.jobId none)

-- From the extracted facts on.
def analyze (config : Config) (auth : AuthInfo) (ns : String) (facts : List (String × Nat)) : Route Unit := do
  let prepared ← facts.foldlM prepareFact []
  let _ ← inquire .storageQuota ""
  prepared.foldlM (fun _ fact => enqueueFact config auth ns fact) ()

end MemWal.Remember
