import MemWal.Remember.Steps

namespace MemWal.Remember
open Library

variable {config : Config} {s : System} {k : Nat} {ε α : Type}

-- A call of a worker of this service, and what comes after it.
theorem calls {op : Op} {next : op.Answer → Program Op Op.Answer ε α} {post : Except ε α → System → Prop}
    (one : ∀ now, Later config k s now → Consistent config now → Allowed config now k op ∧
      ∀ c, Consistent config (serve config now k op c).1 →
        Keeps (order config) k post (next (serve config now k op c).2) (serve config now k op c).1) :
    Keeps (order config) k post (Program.perform op >>= next) s := by
  intro now since inv
  obtain ⟨allowed,rest⟩ := one now since inv
  exact ⟨allowed,fun c _ => rest c (serves inv op c allowed).consistent⟩

-- What a worker's own calls leave it with

theorem served_update_delivery {jobs : List JobId} {statement : Statement} {c : Choice} {d : Delivery}
    (delivering : s.deliveries.get? k = some d) :
    (serve config s k (.update jobs statement) c).1.deliveries.get? k =
      some (noteUpdate statement (serve config s k (.update jobs statement) c).2 d) := by
  have same : ∀ fault, (s.faulty fault (s.execute jobs statement) (s.affected jobs statement)).1.deliveries =
      s.deliveries := by
    intro fault
    cases fault <;> rfl
  simp only [serve,System.note,Store.modify,Store.get?_map,same,delivering]
  simp

theorem served_update_rows {job : JobId} {statement : Statement} {c : Choice} {row : Row} {rows : Nat}
    (found : s.rows.get? job = some row) (answered : (serve config s k (.update [job] statement) c).2 = .ok rows) :
    (serve config s k (.update [job] statement) c).1.rows.get? job =
      some (if statement.applies s.clock row then statement.apply s.clock row else row) := by
  simp only [serve,System.faulty] at answered ⊢
  cases fault : c.fault with
  | none =>
    simp only [System.note,System.execute,Store.get?_update,found,System.matching]
    simp
  | before =>
    rw [fault] at answered
    cases answered
  | after =>
    rw [fault] at answered
    cases answered

theorem served_update_locks {jobs : List JobId} {statement : Statement} {c : Choice} :
    (serve config s k (.update jobs statement) c).1.locks = s.locks := by
  simp only [serve,System.faulty,System.note]
  split <;> rfl

theorem noteUpdate_task (statement : Statement) (rows : Except Unit Nat) (d : Delivery) :
    (noteUpdate statement rows d).task = d.task := by
  unfold noteUpdate
  split <;> rfl

theorem noteUpdate_attempt (statement : Statement) (rows : Except Unit Nat) (d : Delivery) :
    (noteUpdate statement rows d).attempt = d.attempt := by
  unfold noteUpdate
  split <;> rfl

theorem noteUpdate_lastRead (statement : Statement) (rows : Except Unit Nat) (d : Delivery) :
    (noteUpdate statement rows d).lastRead = d.lastRead := by
  unfold noteUpdate
  split <;> rfl

theorem affected_some {jobs : List JobId} {statement : Statement} (some_ : s.affected jobs statement ≠ 0) :
    ∃ job ∈ jobs, ∃ row, s.rows.get? job = some row ∧ statement.applies s.clock row = true := by
  obtain ⟨job,row,found,holds⟩ := Store.exists_of_count some_
  simp only [System.matching,Bool.and_eq_true,decide_eq_true_eq] at holds
  exact ⟨job,holds.1,row,found,holds.2⟩

theorem affected_one {job : JobId} {statement : Statement} (some_ : s.affected [job] statement ≠ 0) :
    ∃ row, s.rows.get? job = some row ∧ statement.applies s.clock row = true := by
  obtain ⟨other,member,row,found,applies⟩ := affected_some some_
  cases List.mem_singleton.mp member
  exact ⟨row,found,applies⟩

theorem faulty_ok {fault : Fault} {next : System} {answer value : α} (ok : (s.faulty fault next answer).2 = .ok value) :
    (s.faulty fault next answer).1 = next ∧ answer = value := by
  cases fault with
  | none =>
    cases ok
    exact ⟨rfl,rfl⟩
  | before => cases ok
  | after => cases ok

-- How an upload job, a transfer or a finalization ends.
def Ends (k task : Nat) (job : WalletJob) (result : Except WalletJobError Unit) (s : System) : Prop :=
  ∃ d, s.deliveries.get? k = some d ∧ d.task = task ∧ d.job = job ∧ (result = .ok () → Concluded d job.operation)

theorem Ends.failed {task : Nat} {job : WalletJob} {error : WalletJobError} {d : Delivery}
    (delivering : s.deliveries.get? k = some d) (tasked : d.task = task) (same : d.job = job) :
    Ends k task job (.error error) s := ⟨d,delivering,tasked,same,fun ok => by cases ok⟩

-- Statements anyone may run

theorem keeps_runIgnored {job : JobId} {statement : Statement} {d : Delivery}
    {post : Except WalletJobError Unit → System → Prop}
    (free : ∀ s, AllowedStatement config s k job statement) (quiet : ∀ rows, noteUpdate statement rows d = d)
    (delivering : s.deliveries.get? k = some d) (ended : ∀ now, now.deliveries.get? k = some d → post (.ok ()) now) :
    Keeps (order config) k post (runIgnored job statement) s := by
  refine calls ?_
  intro now since _
  refine ⟨?_,fun c _ => ended _ ?_⟩
  · intro other member
    cases List.mem_singleton.mp member
    exact free now
  · rw [served_update_delivery (since.deliveries.trans delivering),quiet]

theorem keeps_afterError {job : JobId} {error : WalletJobError} {d : Delivery}
    {post : Except WalletJobError Unit → System → Prop} (delivering : s.deliveries.get? k = some d)
    (ended : ∀ now, now.deliveries.get? k = some d → post (.ok ()) now) :
    Keeps (order config) k post (updateRememberJobAfterWalletError job error) s :=
  keeps_runIgnored (fun _ => trivial) (fun _ => rfl) delivering ended

-- The row is told about an error, which is then passed on.
theorem keeps_failAfterError {job : JobId} {error : WalletJobError} {d : Delivery}
    {post : Except WalletJobError α → System → Prop} (inv : Consistent config s)
    (delivering : s.deliveries.get? k = some d)
    (ended : ∀ now, now.deliveries.get? k = some d → post (.error error) now) :
    Keeps (order config) k post
      (do
        updateRememberJobAfterWalletError job error
        .fail error) s := by
  refine Keeps.bind (Q:=fun result now => result = .ok () ∧ now.deliveries.get? k = some d) inv
    (keeps_afterError delivering (fun now there => ⟨rfl,there⟩)) ?_ ?_
  · intro _ now _ there
    exact ended now there.2
  · intro other now _ there
    cases there.1

theorem keeps_handoffFailure {job : JobId} {d : Delivery} {post : Except WalletJobError α → System → Prop}
    (inv : Consistent config s) (delivering : s.deliveries.get? k = some d)
    (ended : ∀ error now, now.deliveries.get? k = some d → post (.error error) now) :
    Keeps (order config) k post
      (do
        let classified ← classifyWalletRememberHandoffFailure job
        .fail classified) s := by
  refine Keeps.bind (Q:=fun result now => (∃ error, result = .ok error) ∧ now.deliveries.get? k = some d) inv ?_ ?_ ?_
  · refine calls ?_
    intro now since _
    refine ⟨fun _ _ => trivial,fun c _ => ?_⟩
    have kept : (serve config now k (.update [job] .markFailed) c).1.deliveries.get? k = some d :=
      served_update_delivery (since.deliveries.trans delivering)
    split
    · exact ⟨⟨_,rfl⟩,kept⟩
    · exact ⟨⟨_,rfl⟩,kept⟩
    · exact ⟨⟨_,rfl⟩,kept⟩
  · intro error now _ there
    exact ended error now there.2
  · intro other now _ there
    obtain ⟨_,impossible⟩ := there.1
    cases impossible

-- The last step of every way to the end.
theorem keeps_insertVector {job : JobId} {entry : VectorEntry} {d : Delivery}
    (delivering : s.deliveries.get? k = some d) (mine : d.job.operation.rememberJobId = job)
    (recorded : Recorded s job entry.blobId) :
    Keeps (order config) k (fun result now => ∃ after, now.deliveries.get? k = some after ∧ after.task = d.task ∧
      after.job = d.job ∧ (result = .ok () → after.finished = true)) (insertVectorAndMarkRememberDone job entry) s := by
  refine calls ?_
  intro now since consistent
  refine ⟨trivial,fun c inv => ?_⟩
  have there : (serve config now k (.insertVector job entry) c).1.deliveries.get? k = some d := by
    rw [← since.deliveries] at delivering
    simp only [serve]
    split
    · exact delivering
    · split <;> exact delivering
  have kept : Recorded (serve config now k (.insertVector job entry) c).1 job entry.blobId := by
    have held := Recorded.stays since.toGrows recorded
    simp only [serve]
    split
    · exact held
    · split <;> exact held
  split
  · exact keeps_failAfterError inv there (fun _ still => ⟨d,still,rfl,rfl,fun ok => by cases ok⟩)
  · refine calls ?_
    intro after more _
    have held := more.deliveries.trans there
    refine ⟨?_,fun c _ => ?_⟩
    · intro other member
      cases List.mem_singleton.mp member
      exact ⟨Recorded.stays more.toGrows kept,d,held,mine⟩
    · exact ⟨_,served_update_delivery held,noteUpdate_task _ _ _,noteUpdate_job _ _ _,fun _ => rfl⟩

-- The transfer of a recorded blob is handed on.
structure Transfers (config : Config) (s : System) (k : Nat) (job : JobId) (blobId : BlobId)
    (blobObjectId : ObjectId) (index : Nat) (d : Delivery) : Prop where
  lock : s.locks.get? job = some k
  uploading : ∃ token preparation, Uploading s k job token preparation d
  row : ∃ row, s.rows.get? job = some row ∧ row.blobId = some blobId ∧ row.blobObjectId = some blobObjectId ∧
    TransferIndex config row d job index

theorem Uploading.later {job : JobId} {token : Option Token} {preparation : Preparation} {d : Delivery} {now : System}
    (uploading : Uploading s k job token preparation d) (since : Later config k s now) :
    Uploading now k job token preparation d :=
  ⟨since.deliveries.trans uploading.delivery,uploading.operation,uploading.admitted⟩

theorem Transfers.later {job : JobId} {blobId : BlobId} {blobObjectId : ObjectId} {index : Nat} {d : Delivery}
    {now : System} (transfers : Transfers config s k job blobId blobObjectId index d) (since : Later config k s now) :
    Transfers config now k job blobId blobObjectId index d := by
  obtain ⟨token,preparation,uploading⟩ := transfers.uploading
  obtain ⟨row,found,recorded,object,indexed⟩ := transfers.row
  obtain ⟨after,there,later⟩ := since.rows job row found
  have held := since.held job row after transfers.lock found there
  refine ⟨(since.locks job).mpr transfers.lock,⟨token,preparation,uploading.later since⟩,after,there,
    (later.blob blobId recorded).1,(later.object (recorded ▸ Option.some_ne_none blobId)).trans object,?_⟩
  rcases indexed with journal | resumed
  · exact .inl (held.journal ▸ journal)
  · exact .inr resumed

theorem Transfers.allowed {job : JobId} {blobId : BlobId} {index : Nat} {d : Delivery} {blobObjectId : ObjectId}
    {owner ns : String} {preparation : Preparation}
    (transfers : Transfers config s k job blobId blobObjectId index d) :
    AllowedPush config s k (buildResumeTransferJob index job blobId blobObjectId owner ns preparation) := by
  obtain ⟨token,prepared,uploading⟩ := transfers.uploading
  obtain ⟨row,found,recorded,object,indexed⟩ := transfers.row
  exact ⟨⟨row,found,recorded⟩,row,d,token,prepared,found,transfers.lock,object,uploading,indexed⟩

theorem served_push_delivery (config : Config) (job : WalletJob) (c : Choice) {d : Delivery}
    (delivering : s.deliveries.get? k = some d) :
    ∃ after, (serve config s k (.push job) c).1.deliveries.get? k = some after ∧ after.task = d.task ∧
      after.job = d.job ∧ ((serve config s k (.push job) c).2 = .ok () → after.handedOn = true) := by
  simp only [serve]
  cases c.fault with
  | none =>
    refine ⟨{d with handedOn := true},?_,rfl,rfl,fun _ => rfl⟩
    simp [System.note,Store.modify,Store.get?_map,System.drawn,delivering]
  | before => exact ⟨d,delivering,rfl,rfl,fun ok => by cases ok⟩
  | after => exact ⟨d,delivering,rfl,rfl,fun ok => by cases ok⟩

theorem keeps_resumeTransfer {job : JobId} {blobId : BlobId} {index : Nat} {blobObjectId : ObjectId}
    {owner ns : String} {preparation : Preparation} {d : Delivery}
    (transfers : Transfers config s k job blobId blobObjectId index d) :
    Keeps (order config) k (Ends k d.task d.job)
      (resumeMetadataAndTransfer index job blobId blobObjectId owner ns preparation) s := by
  obtain ⟨token,prepared,uploading⟩ := transfers.uploading
  obtain ⟨mine,theirs,operation⟩ := uploading.operation
  refine calls ?_
  intro now since _
  refine ⟨(transfers.later since).allowed,fun c inv => ?_⟩
  obtain ⟨after,there,tasked,same,handed⟩ := served_push_delivery config
    (buildResumeTransferJob index job blobId blobObjectId owner ns preparation) c (since.deliveries.trans uploading.delivery)
  split
  · rename_i stored
    refine ⟨after,there,tasked,same,fun _ => ?_⟩
    rw [operation]
    exact .inr (.inr (.inr (.inl (handed stored))))
  · exact keeps_handoffFailure inv there (fun _ _ still => .failed still tasked same)

-- The durable upload

theorem keeps_run {job : JobId} {statement : Statement} {post : Except WalletJobError Nat → System → Prop}
    (allowed : ∀ now, Later config k s now → AllowedStatement config now k job statement)
    (ok : ∀ now c rows, Later config k s now → (serve config now k (.update [job] statement) c).2 = .ok rows →
      post (.ok rows) (serve config now k (.update [job] statement) c).1)
    (failed : ∀ now c, Later config k s now → (serve config now k (.update [job] statement) c).2 = .error () →
      post (.error .transient) (serve config now k (.update [job] statement) c).1) :
    Keeps (order config) k post (run job statement) s := by
  refine calls ?_
  intro now since _
  refine ⟨?_,fun c _ => ?_⟩
  · intro other member
    cases List.mem_singleton.mp member
    exact allowed now since
  · cases answered : (serve config now k (.update [job] statement) c).2 with
    | ok rows => exact ok now c rows since answered
    | error _ => exact failed now c since answered

-- The worker's copy of the journal is the stored one, but for an index not stored yet.
structure Matches (stored : StoredUploadJournal) (journal : UploadJournal) : Prop where
  walletIndex : ∀ index, stored.uploadWalletIndex = some index → journal.walletIndex = index
  resumeStep : journal.resumeStep = stored.uploadResumeStep
  registerTransaction : journal.registerTransaction = stored.uploadRegisterTransaction

theorem matches_load (stored : StoredUploadJournal) (fallback : Nat) : Matches stored (stored.load fallback) := by
  refine ⟨?_,rfl,rfl⟩
  intro index known
  simp [StoredUploadJournal.load,known]

theorem matches_stored (journal : UploadJournal) : Matches journal.stored journal :=
  ⟨fun _ known => Option.some.inj known,rfl,rfl⟩

theorem Matches.asks {stored : StoredUploadJournal} {journal : UploadJournal} (same : Matches stored journal)
    (data : Ciphertext) (job : JobId) : Asks stored (durableUploadRequest data job journal) := by
  refine ⟨same.resumeStep,?_,same.walletIndex⟩
  simp only [durableUploadRequest,same.resumeStep,same.registerTransaction]

theorem Matches.follows_step {stored : StoredUploadJournal} {journal : UploadJournal}
    {parsed : DurableUploadResponse} {step : WriteBlobStep} (same : Matches stored journal)
    (returned : parsed.step = some step) :
    Follows stored parsed {nextJournal journal parsed with resumeStep := some step} := by
  refine ⟨same.walletIndex,?_,?_⟩
  · intro other again
    cases returned.symm.trans again
    exact ⟨rfl,by simp [nextJournal,returned]⟩
  · intro none_
    cases returned.symm.trans none_

theorem Matches.follows_prepared {stored : StoredUploadJournal} {journal : UploadJournal}
    {parsed : DurableUploadResponse} (same : Matches stored journal) (returned : parsed.step = none) :
    Follows stored parsed (nextJournal journal parsed) := by
  refine ⟨same.walletIndex,?_,?_⟩
  · intro step again
    cases returned.symm.trans again
  · intro _
    refine ⟨?_,?_⟩
    · simp [nextJournal,same.resumeStep]
    · simp [nextJournal,returned,same.registerTransaction]

structure Loaded (s : System) (k : Nat) (job : JobId) (d : Delivery) (journal : UploadJournal) : Prop where
  delivering : s.deliveries.get? k = some d
  row : ∃ row, Blank s k job row ∧ Matches row.journal journal

theorem Blank.later {job : JobId} {row : Row} {now : System} (blank : Blank s k job row) (since : Later config k s now) :
    ∃ after, Blank now k job after ∧ after.journal = row.journal := by
  obtain ⟨after,there,_⟩ := since.rows job row blank.found
  have held := since.held job row after blank.lock blank.found there
  exact ⟨after,⟨(since.locks job).mpr blank.lock,there,held.blank blank.blank⟩,held.journal⟩

theorem Loaded.later {job : JobId} {d : Delivery} {journal : UploadJournal} {now : System}
    (loaded : Loaded s k job d journal) (since : Later config k s now) : Loaded now k job d journal := by
  obtain ⟨row,blank,same⟩ := loaded.row
  obtain ⟨after,still,journaled⟩ := blank.later since
  exact ⟨since.deliveries.trans loaded.delivering,after,still,journaled ▸ same⟩

-- Static facts about the delivery of an upload.
structure UploadDelivery (job : JobId) (token : Option Token) (preparation : Preparation) (d : Delivery) : Prop where
  operation : ∃ owner ns, d.job.operation = .uploadAndTransfer preparation owner ns job token
  admitted : token ≠ none → d.admitted = true

section Upload
variable {job : JobId} {token : Option Token} {preparation : Preparation} {d : Delivery} {journal : UploadJournal}
  {owner ns : String}

theorem UploadDelivery.uploading (upload : UploadDelivery job token preparation d)
    (delivering : s.deliveries.get? k = some d) : Uploading s k job token preparation d :=
  ⟨delivering,upload.operation,upload.admitted⟩

-- An answer to the last request, with the journal the request was made from.
structure Answered (s : System) (k : Nat) (job : JobId) (preparation : Preparation) (d : Delivery)
    (journal : UploadJournal) (parsed : DurableUploadResponse) : Prop extends Loaded s k job d journal where
  answered : ∃ id, s.requests.get? id = some (durableUploadRequest preparation.encrypted job journal) ∧
    s.answers.get? id = some (some parsed)

theorem Answered.later {parsed : DurableUploadResponse} {now : System}
    (answered : Answered s k job preparation d journal parsed) (since : Later config k s now) :
    Answered now k job preparation d journal parsed := by
  obtain ⟨id,sent,answer⟩ := answered.answered
  exact ⟨answered.toLoaded.later since,id,since.requests id _ sent,since.answers id _ answer⟩

theorem keeps_advance (upload : UploadDelivery job token preparation d) (loaded : Loaded s k job d journal) :
    Keeps (order config) k (fun result now => now.deliveries.get? k = some d ∧
      ∀ advanced, result = .ok advanced → ∃ parsed, advance journal parsed = .ok advanced ∧
        Answered now k job preparation d journal parsed)
      (advanceDurableUpload preparation.encrypted job journal) s := by
  refine calls ?_
  intro now since consistent
  obtain ⟨row,blank,same⟩ := (loaded.later since).row
  refine ⟨⟨row,d,token,preparation,blank,upload.uploading (since.deliveries.trans loaded.delivering),rfl,
    same.asks _ _⟩,fun c _ => ?_⟩
  have posted : (serve config now k (.post (durableUploadRequest preparation.encrypted job journal)) c).1.requests.get?
      now.nextId = some (durableUploadRequest preparation.encrypted job journal) := by
    have fresh : now.requests.get? now.nextId = none := by
      cases present : now.requests.get? now.nextId with
      | none => rfl
      | some other => exact absurd (consistent.requests _ other present).1 (Nat.lt_irrefl _)
    simp [serve,Store.get?_insert _ fresh]
  have kept : Loaded (serve config now k (.post (durableUploadRequest preparation.encrypted job journal)) c).1 k job d
      journal := ⟨since.deliveries.trans loaded.delivering,row,⟨blank.lock,blank.found,blank.blank⟩,same⟩
  refine calls ?_
  intro after more _
  refine ⟨trivial,fun c _ => ?_⟩
  have there := kept.later more
  have unmoved : (serve config after k (.receive now.nextId) c).1 = after := by
    simp only [serve]
    split <;> rfl
  have received : ∀ parsed, (serve config after k (.receive now.nextId) c).2 = .ok parsed →
      after.answers.get? now.nextId = some (some parsed) := by
    intro parsed answer
    simp only [serve] at answer
    split at answer
    · rename_i answered _
      cases answer
      exact answered
    · cases answer
  change Keeps _ _ _ (Program.orFail id (serve config after k (.receive now.nextId) c).2 >>= _)
    (serve config after k (.receive now.nextId) c).1
  rw [unmoved]
  cases answer : (serve config after k (.receive now.nextId) c).2 with
  | error error => exact ⟨there.delivering,fun _ ok => by cases ok⟩
  | ok parsed =>
    change Keeps _ _ _ (Program.orFail id (advance journal parsed)) _
    refine Keeps.orFail ?_ ?_
    · intro advanced computed
      refine ⟨there.delivering,fun other ok => ?_⟩
      cases ok
      exact ⟨parsed,computed,there,now.nextId,more.requests _ _ posted,received parsed answer⟩
    · intro error _
      exact ⟨there.delivering,fun _ ok => by cases ok⟩

-- What was answered is written down; the row then holds the new journal.
theorem keeps_persist {parsed : DurableUploadResponse} {next : UploadJournal}
    (upload : UploadDelivery job token preparation d) (inv : Consistent config s)
    (answered : Answered s k job preparation d journal parsed)
    (follows : ∀ stored, Matches stored journal → Follows stored parsed next) :
    Keeps (order config) k (fun result now => now.deliveries.get? k = some d ∧
      (result = .ok () → ∃ row, Blank now k job row ∧ row.journal = next.stored)) (persistUploadJournal job next) s := by
  unfold persistUploadJournal
  split
  · exact ⟨answered.delivering,fun ok => by cases ok⟩
  · have step : Keeps (order config) k (fun result now => now.deliveries.get? k = some d ∧
        (∀ rows, result = .ok rows → ∃ row, Blank now k job row ∧ row.journal = next.stored))
        (run job (.persistUploadJournal next)) s := by
      refine keeps_run ?_ ?_ ?_
      · intro now since
        have there := answered.later since
        obtain ⟨row,blank,same⟩ := there.row
        obtain ⟨id,sent,answer⟩ := there.answered
        exact ⟨row,d,token,preparation,id,_,parsed,blank,upload.uploading there.delivering,sent,rfl,rfl,
          same.asks _ _,answer,follows _ same⟩
      · intro now c rows since ok
        have there := answered.later since
        obtain ⟨row,blank,_⟩ := there.row
        refine ⟨served_update_delivery there.delivering,fun _ _ => ?_⟩
        refine ⟨_,⟨?_,served_update_rows blank.found ok,?_⟩,?_⟩
        · rw [served_update_locks]
          exact blank.lock
        · exact blank.blank
        · rfl
      · intro now c since _
        exact ⟨served_update_delivery (answered.later since).delivering,fun _ ok => by cases ok⟩
    refine Keeps.bind inv step ?_ ?_
    · intro rows now _ there
      exact ⟨there.1,fun _ => there.2 rows rfl⟩
    · intro error now _ there
      exact ⟨there.1,fun ok => by cases ok⟩

theorem keeps_certified {next : UploadJournal} {blobId : BlobId} {blobObjectId : ObjectId}
    (upload : UploadDelivery job token preparation d) (inv : Consistent config s)
    (delivering : s.deliveries.get? k = some d)
    (row : ∃ row, Blank s k job row ∧ row.journal = next.stored)
    (certified : next.resumeStep = some (.certified blobId blobObjectId)) :
    Keeps (order config) k (Ends k d.task d.job)
      (do
        let _ ← run job (.persistUploadedState blobId blobObjectId)
        resumeMetadataAndTransfer next.walletIndex job blobId blobObjectId owner ns preparation) s := by
  obtain ⟨row,blank,journal⟩ := row
  have step : Keeps (order config) k (fun result now => now.deliveries.get? k = some d ∧
      (∀ rows, result = .ok rows → Transfers config now k job blobId blobObjectId next.walletIndex d))
      (run job (.persistUploadedState blobId blobObjectId)) s := by
    refine keeps_run ?_ ?_ ?_
    · intro now since
      obtain ⟨after,still,same⟩ := blank.later since
      refine ⟨after,d,token,preparation,still,upload.uploading (since.deliveries.trans delivering),?_⟩
      rw [same,journal]
      exact certified
    · intro now c rows since ok
      obtain ⟨after,still,same⟩ := blank.later since
      have there := since.deliveries.trans delivering
      refine ⟨served_update_delivery there,fun _ _ => ?_⟩
      refine ⟨?_,⟨token,preparation,upload.uploading (served_update_delivery there)⟩,
        ⟨_,served_update_rows still.found ok,rfl,rfl,.inl ?_⟩⟩
      · rw [served_update_locks]
        exact still.lock
      · change after.journal.uploadWalletIndex = some next.walletIndex
        rw [same,journal]
        rfl
    · intro now c since _
      exact ⟨served_update_delivery (since.deliveries.trans delivering),fun _ ok => by cases ok⟩
  refine Keeps.bind inv step ?_ ?_
  · intro rows now _ there
    exact keeps_resumeTransfer (there.2 rows rfl)
  · intro error now _ there
    exact .failed there.1 rfl rfl

-- The induction is on the step budget; what carries it is that the worker's
-- journal and the row's are one.
theorem keeps_durableSteps (upload : UploadDelivery job token preparation d) (budget : Nat)
    (inv : Consistent config s) (loaded : Loaded s k job d journal) :
    Keeps (order config) k (Ends k d.task d.job) (durableUploadSteps job owner ns preparation budget journal) s := by
  induction budget generalizing s journal with
  | zero => exact .failed loaded.delivering rfl rfl
  | succ budget ih =>
    refine Keeps.bind inv (keeps_advance upload loaded) ?_ ?_
    · intro advanced now consistent known
      obtain ⟨parsed,computed,answered⟩ := known.2 advanced rfl
      unfold advance at computed
      cases returned : parsed.step with
      | none =>
        simp only [returned] at computed
        split at computed
        · cases computed
          refine Keeps.bind consistent (keeps_persist upload consistent answered
            (fun _ same => same.follows_prepared returned)) ?_ ?_
          · intro _ after sound there
            obtain ⟨row,blank,journaled⟩ := there.2 rfl
            exact ih sound ⟨there.1,row,blank,journaled ▸ matches_stored _⟩
          · intro error after _ there
            exact .failed there.1 rfl rfl
        · cases computed
      | some step =>
        simp only [returned] at computed
        cases computed
        refine Keeps.bind consistent (keeps_persist upload consistent answered
          (fun _ same => same.follows_step returned)) ?_ ?_
        · intro _ after sound there
          obtain ⟨row,blank,journaled⟩ := there.2 rfl
          have next : Loaded after k job d {nextJournal journal parsed with resumeStep := some step} :=
            ⟨there.1,row,blank,journaled ▸ matches_stored _⟩
          cases step with
          | certified blobId blobObjectId =>
            exact keeps_certified upload sound there.1 ⟨row,blank,journaled⟩ rfl
          | encoded blobId nonce => exact ih sound next
          | registered blobId blobObjectId digest => exact ih sound next
          | uploaded blobId blobObjectId certificate => exact ih sound next
        · intro error after _ there
          exact .failed there.1 rfl rfl
    · intro error now _ known
      exact .failed known.1 rfl rfl

theorem served_select (config : Config) (job : JobId) (c : Choice) (delivering : s.deliveries.get? k = some d) :
    ∃ after, (serve config s k (.select job) c).1.deliveries.get? k = some after ∧ after.task = d.task ∧
      after.job = d.job ∧ after.attempt = d.attempt ∧ after.admitted = d.admitted ∧
      ∀ read, (serve config s k (.select job) c).2 = .ok read → read = s.rows.get? job ∧ after.lastRead = read := by
  simp only [serve]
  cases c.fault with
  | none =>
    refine ⟨{d with lastRead := s.rows.get? job},?_,rfl,rfl,rfl,rfl,?_⟩
    · simp [System.note,Store.modify,Store.get?_map,delivering]
    · intro read ok
      cases ok
      exact ⟨rfl,rfl⟩
  | before => exact ⟨d,delivering,rfl,rfl,rfl,rfl,fun _ ok => by cases ok⟩
  | after => exact ⟨d,delivering,rfl,rfl,rfl,rfl,fun _ ok => by cases ok⟩

theorem select_allowed (operation : ∃ owner ns, d.job.operation = .uploadAndTransfer preparation owner ns job token)
    (delivering : s.deliveries.get? k = some d) : Allowed config s k (.select job) := by
  obtain ⟨mine,theirs,upload⟩ := operation
  intro other there
  cases delivering.symm.trans there
  rw [upload]
  rfl

theorem served_select_rows {c : Choice} : (serve config s k (.select job) c).1.rows = s.rows := by
  simp only [serve]
  split <;> rfl

theorem served_select_locks {c : Choice} : (serve config s k (.select job) c).1.locks = s.locks := by
  simp only [serve]
  split <;> rfl

theorem Blank.select {row : Row} {c : Choice} {other : JobId} (blank : Blank s k job row) :
    Blank (serve config s k (.select other) c).1 k job row := by
  refine ⟨?_,?_,blank.blank⟩
  · rw [served_select_locks]
    exact blank.lock
  · rw [served_select_rows]
    exact blank.found

-- The row of a queued upload is there.
theorem row_of_pushed {operation : WalletOperation} (pushed : Pushed config s operation) :
    ∃ row, s.rows.get? operation.rememberJobId = some row := by
  cases operation with
  | uploadAndTransfer preparation owner ns job token =>
    cases token with
    | none =>
      obtain ⟨row,found,_⟩ := pushed
      exact ⟨row,found⟩
    | some token =>
      obtain ⟨_,_,row,found,_⟩ := pushed
      exact ⟨row,found⟩
  | setMetadataAndTransfer blobObjectId owner ns job blobId preparation =>
    obtain ⟨row,found,_⟩ := pushed
    exact ⟨row,found⟩
  | finalizeUploadedBlob owner ns job blobId vector size importance =>
    obtain ⟨row,found,_⟩ := pushed
    exact ⟨row,found⟩

theorem keeps_executeDurable {fallback : Nat} (upload : UploadDelivery job token preparation d)
    (delivering : s.deliveries.get? k = some d) (row : ∃ row, Blank s k job row) :
    Keeps (order config) k (Ends k d.task d.job) (executeDurableUpload fallback job owner ns preparation) s := by
  obtain ⟨row,blank⟩ := row
  unfold executeDurableUpload loadUploadJournal
  refine calls ?_
  intro now since consistent
  refine ⟨select_allowed upload.operation (since.deliveries.trans delivering),fun c inv => ?_⟩
  obtain ⟨known,still,_⟩ := blank.later since
  obtain ⟨after,there,tasked,same,_,admitted,read⟩ := served_select config job c
    (since.deliveries.trans delivering)
  have again : UploadDelivery job token preparation after := by
    refine ⟨?_,?_⟩
    · rw [same]
      exact upload.operation
    · rw [admitted]
      exact upload.admitted
  cases answer : (serve config now k (.select job) c).2 with
  | error _ => exact .failed there tasked same
  | ok found =>
    obtain ⟨rfl,_⟩ := read found answer
    rw [still.found,← tasked,← same]
    exact keeps_durableSteps again 6 inv ⟨there,known,still.select,matches_load known.journal fallback⟩

-- Marking the row leaves it blank, whether or not the statement got through.
theorem Blank.markRunning {row : Row} {c : Choice} (blank : Blank s k job row) :
    ∃ after, Blank (serve config s k (.update [job] .markRunning) c).1 k job after := by
  have locks : (serve config s k (.update [job] .markRunning) c).1.locks.get? job = some k := by
    rw [served_update_locks]
    exact blank.lock
  have executed : (s.execute [job] .markRunning).rows.get? job = some (Statement.markRunning.apply s.clock row) := by
    simp [System.execute,Store.get?_update,blank.found,System.matching,Statement.applies]
  cases fault : c.fault with
  | before => exact ⟨row,locks,by simpa [serve,System.faulty,fault,System.note] using blank.found,blank.blank⟩
  | none => exact ⟨Statement.markRunning.apply s.clock row,locks,
      by simpa [serve,System.faulty,fault,System.note] using executed,blank.blank⟩
  | after => exact ⟨Statement.markRunning.apply s.clock row,locks,
      by simpa [serve,System.faulty,fault,System.note] using executed,blank.blank⟩

theorem keeps_upload {walletIndex : Nat} {row : Row} (upload : UploadDelivery job token preparation d)
    (inv : Consistent config s) (delivering : s.deliveries.get? k = some d) (blank : Blank s k job row) :
    Keeps (order config) k (Ends k d.task d.job)
      (do
        runIgnored job .markRunning
        let result ← Program.attempt (executeDurableUpload walletIndex job owner ns preparation)
        match result with
        | .ok () => return ()
        | .error error => do
          updateRememberJobAfterWalletError job error
          .fail error) s := by
  have mark : Keeps (order config) k (fun (_ : Except WalletJobError Unit) now => now.deliveries.get? k = some d ∧
      ∃ row, Blank now k job row) (runIgnored job .markRunning) s := by
    refine calls ?_
    intro now since _
    obtain ⟨known,still,_⟩ := blank.later since
    refine ⟨?_,fun c _ => ⟨served_update_delivery (since.deliveries.trans delivering),still.markRunning⟩⟩
    intro other member
    cases List.mem_singleton.mp member
    exact ⟨known,still⟩
  refine Keeps.bind inv mark ?_ ?_
  · intro _ now consistent there
    refine Keeps.bind consistent (Keeps.attempt (keeps_executeDurable upload there.1 there.2)) ?_ ?_
    · intro result after sound ended
      obtain ⟨inner,same,ended⟩ := ended
      cases same
      cases result with
      | ok _ => exact ended
      | error error =>
        obtain ⟨last,held,tasked,same,_⟩ := ended
        exact keeps_failAfterError sound held (fun _ still => .failed still tasked same)
    · intro error after _ ended
      obtain ⟨_,impossible,_⟩ := ended
      cases impossible
  · intro error now _ there
    exact .failed there.1 rfl rfl

-- Under the lock, with the claim consumed: what was claimed is not paid yet.
theorem keeps_locked {walletIndex : Nat} (upload : UploadDelivery job token preparation d)
    (delivering : s.deliveries.get? k = some d) (lock : s.locks.get? job = some k)
    (claimed : token ≠ none → ∃ row, Blank s k job row)
    (indexed : walletIndexForUploadAttempt d.job.walletIndex d.attempt config.poolSize = some walletIndex) :
    Keeps (order config) k (Ends k d.task d.job)
      (executeUploadAndTransferLocked walletIndex job owner ns preparation) s := by
  refine calls ?_
  intro now since consistent
  refine ⟨select_allowed upload.operation (since.deliveries.trans delivering),fun c inv => ?_⟩
  obtain ⟨after,there,tasked,same,attempted,admitted,read⟩ := served_select config job c
    (since.deliveries.trans delivering)
  obtain ⟨mine,theirs,operation⟩ := upload.operation
  have again : UploadDelivery job token preparation after := by
    refine ⟨⟨mine,theirs,?_⟩,?_⟩
    · rw [same]
      exact operation
    · rw [admitted]
      exact upload.admitted
  have member := consistent.pushed d.job (consistent.delivered k d (since.deliveries.trans delivering))
  obtain ⟨row,found⟩ := row_of_pushed member
  rw [operation] at found
  change now.rows.get? job = some row at found
  have held : (serve config now k (.select job) c).1.locks.get? job = some k := by
    rw [served_select_locks]
    exact (since.locks job).mpr lock
  have still : (serve config now k (.select job) c).1.rows.get? job = some row := by
    rw [served_select_rows]
    exact found
  cases answer : (serve config now k (.select job) c).2 with
  | error _ => exact .failed there tasked same
  | ok existing =>
    obtain ⟨rfl,seen⟩ := read existing answer
    rw [found] at seen ⊢
    simp only [uploadResumeDisposition]
    rw [← tasked,← same]
    cases blob : row.blobId with
    | none => exact keeps_upload again inv there ⟨held,still,blob⟩
    | some blobId =>
      dsimp only
      by_cases done : row.status = .done
      · rw [if_pos done]
        refine ⟨after,there,rfl,rfl,fun _ => ?_⟩
        rw [same,operation]
        exact .inr (.inr (.inl ⟨row,seen,done⟩))
      · rw [if_neg done]
        cases object : row.blobObjectId with
        | some blobObjectId =>
          have unclaimed : token = none := by
            by_contra tokened
            obtain ⟨before,blank⟩ := claimed tokened
            obtain ⟨known,still,_⟩ := blank.later since
            cases found.symm.trans still.found
            rw [still.blank] at blob
            cases blob
          refine keeps_resumeTransfer ⟨held,⟨token,preparation,again.uploading there⟩,row,still,blob,object,
            .inr ⟨⟨?_,row,seen,?_,?_,done⟩,?_⟩⟩
          · rw [same,operation,unclaimed]
            exact ⟨preparation,mine,theirs,rfl⟩
          · rw [blob]
            exact Option.some_ne_none _
          · rw [object]
            exact Option.some_ne_none _
          · rw [same,attempted]
            exact indexed
        | none =>
          refine (keeps_insertVector there ?_ ⟨row,still,blob⟩).weaken ?_
          · rw [same,operation]
            rfl
          · intro result last ended
            obtain ⟨final,holds,sameTask,sameJob,finished⟩ := ended
            refine ⟨final,holds,sameTask,sameJob,fun ok => ?_⟩
            rw [same,operation]
            exact .inr (.inr (.inr (.inr (finished ok))))

-- `d` before the claim is consumed, and what is known of the delivery after it.
theorem keeps_consume (operation : ∃ owner ns, d.job.operation = .uploadAndTransfer preparation owner ns job token)
    (inv : Consistent config s) (delivering : s.deliveries.get? k = some d) (lock : s.locks.get? job = some k) :
    Keeps (order config) k (fun result now => now.locks.get? job = some k ∧
      ∃ after, now.deliveries.get? k = some after ∧ after.task = d.task ∧ after.job = d.job ∧
        after.attempt = d.attempt ∧ (result = .ok true → UploadDelivery job token preparation after) ∧
        (result = .ok false → token ≠ none ∧ after.refused = true) ∧
        (result = .ok true → token ≠ none → ∃ row, Blank now k job row)) (consumePreparationClaim job token) s := by
  cases token with
  | none => exact ⟨lock,d,delivering,rfl,rfl,rfl,fun _ => ⟨operation,fun some_ => absurd rfl some_⟩,
      fun ok => (by cases ok),fun _ some_ => absurd rfl some_⟩
  | some token =>
    obtain ⟨mine,theirs,upload⟩ := operation
    refine Keeps.bind (Q:=fun result now => now.locks.get? job = some k ∧ ∃ after,
      now.deliveries.get? k = some after ∧ after.task = d.task ∧ after.job = d.job ∧ after.attempt = d.attempt ∧
        ∀ rows, result = .ok rows → (rows = 1 → after.admitted = true ∧ ∃ row, Blank now k job row) ∧
          (rows ≠ 1 → after.refused = true))
      inv (keeps_run ?_ ?_ ?_) ?_ ?_
    · intro now since
      exact ⟨(since.locks job).mpr lock,d,preparation,mine,theirs,since.deliveries.trans delivering,upload⟩
    · intro now c rows since ok
      refine ⟨?_,_,served_update_delivery (since.deliveries.trans delivering),noteUpdate_task _ _ _,
        noteUpdate_job _ _ _,noteUpdate_attempt _ _ _,?_⟩
      · rw [served_update_locks]
        exact (since.locks job).mpr lock
      · intro other same
        cases same
        rw [ok]
        refine ⟨?_,?_⟩
        · intro one
          subst one
          refine ⟨rfl,?_⟩
          obtain ⟨next,counted⟩ := faulty_ok ok
          obtain ⟨row,found,applies⟩ := affected_one (counted ▸ Nat.one_ne_zero)
          have written := served_update_rows found ok
          rw [if_pos applies] at written
          refine ⟨_,?_,written,?_⟩
          · rw [served_update_locks]
            exact (since.locks job).mpr lock
          · simp only [Statement.applies,Bool.decide_and,Bool.and_eq_true,decide_eq_true_eq] at applies
            exact applies.2.1
        · intro other
          simp [noteUpdate]
    · intro now c since _
      refine ⟨?_,_,served_update_delivery (since.deliveries.trans delivering),noteUpdate_task _ _ _,
        noteUpdate_job _ _ _,noteUpdate_attempt _ _ _,fun _ ok => by cases ok⟩
      rw [served_update_locks]
      exact (since.locks job).mpr lock
    · intro rows now _ there
      obtain ⟨held,after,delivers,tasked,same,attempted,known⟩ := there
      obtain ⟨one,more⟩ := known rows rfl
      refine ⟨held,after,delivers,tasked,same,attempted,?_,?_,?_⟩
      · intro admitted
        have exact_ : rows = 1 := by simpa using Except.ok.inj admitted
        exact ⟨⟨mine,theirs,same ▸ upload⟩,fun _ => (one exact_).1⟩
      · intro refused
        have differs : rows ≠ 1 := by simpa using Except.ok.inj refused
        exact ⟨Option.some_ne_none _,more differs⟩
      · intro admitted _
        have exact_ : rows = 1 := by simpa using Except.ok.inj admitted
        exact (one exact_).2
    · intro error now _ there
      obtain ⟨held,after,delivers,tasked,same,attempted,_⟩ := there
      refine ⟨held,after,delivers,tasked,same,attempted,?_,?_,?_⟩
      · intro ok
        cases ok
      · intro ok
        cases ok
      · intro ok
        cases ok

-- Giving the lock back changes nothing else.
theorem served_release_delivery (config : Config) (job : JobId) (c : Choice) :
    (serve config s k (.release job) c).1.deliveries = s.deliveries := by
  simp only [serve]
  split <;> rfl

theorem Ends.release {task : Nat} {wallet : WalletJob} {result : Except WalletJobError Unit} {now : System}
    {c : Choice} (ends : Ends k task wallet result s) (since : Later config k s now) :
    Ends k task wallet result (serve config now k (.release job) c).1 := by
  obtain ⟨d,delivering,rest⟩ := ends
  refine ⟨d,?_,rest⟩
  rw [served_release_delivery]
  exact since.deliveries.trans delivering

theorem keeps_executeUpload {walletIndex : Nat}
    (operation : ∃ owner ns, d.job.operation = .uploadAndTransfer preparation owner ns job token)
    (delivering : s.deliveries.get? k = some d) (fresh : d.admitted = false)
    (indexed : walletIndexForUploadAttempt d.job.walletIndex d.attempt config.poolSize = some walletIndex) :
    Keeps (order config) k (Ends k d.task d.job)
      (executeUploadAndTransfer walletIndex job owner ns token preparation) s := by
  refine calls ?_
  intro now since _
  refine ⟨?_,fun c inv => ?_⟩
  · intro other there
    cases (since.deliveries.trans delivering).symm.trans there
    exact fresh
  have there : (serve config now k (.tryAcquire job) c).1.deliveries.get? k = some d := by
    rw [← since.deliveries] at delivering
    simp only [serve]
    split
    · split <;> exact delivering
    · exact delivering
  have held : (serve config now k (.tryAcquire job) c).2 = .ok true →
      (serve config now k (.tryAcquire job) c).1.locks.get? job = some k := by
    intro acquired
    simp only [serve] at acquired ⊢
    split at acquired
    · split at acquired
      · cases acquired
      · rename_i open_
        simp only [not_or,not_not] at open_
        simp [open_,Store.get?_insert]
    · cases acquired
  split
  · exact keeps_failAfterError inv there (fun _ still => .failed still rfl rfl)
  · exact keeps_failAfterError inv there (fun _ still => .failed still rfl rfl)
  · rename_i acquired
    refine Keeps.bind inv (Keeps.attempt (keeps_consume operation inv there (held acquired))) ?_ ?_
    · intro consumed after sound known
      obtain ⟨inner,same,lock,last,delivers,tasked,sameJob,attempted,admitted,refused,claimed⟩ := known
      cases same
      rw [← tasked,← sameJob]
      cases consumed with
      | error error =>
        refine calls ?_
        intro later more _
        refine ⟨trivial,fun c _ => ?_⟩
        exact Ends.release (.failed delivers rfl rfl) more
      | ok consumed =>
        cases consumed with
        | false =>
          obtain ⟨tokened,no⟩ := refused rfl
          obtain ⟨mine,theirs,upload⟩ := operation
          obtain ⟨claim,same⟩ := Option.ne_none_iff_exists'.mp tokened
          have ended : Ends k last.task last.job (.ok ()) after := by
            refine ⟨last,delivers,rfl,rfl,fun _ => ?_⟩
            rw [sameJob,upload]
            exact .inr (.inl ⟨claim,same,no⟩)
          exact fun later more _ => ⟨trivial,fun c _ => Ends.release (c:=c) ended more⟩
        | true =>
          refine Keeps.bind sound (Keeps.attempt (keeps_locked (admitted rfl) delivers lock (claimed rfl) ?_)) ?_ ?_
          · rw [sameJob,attempted]
            exact indexed
          · intro result final _ ended
            obtain ⟨inner,same,ended⟩ := ended
            cases same
            refine calls ?_
            intro later more _
            refine ⟨trivial,fun c _ => ?_⟩
            refine Keeps.orFail ?_ ?_
            · intro value same
              cases same
              exact ended.release more
            · intro error same
              cases same
              exact ended.release more
          · intro error final _ ended
            obtain ⟨_,impossible,_⟩ := ended
            cases impossible
    · intro error after _ known
      obtain ⟨_,impossible,_⟩ := known
      cases impossible

theorem keeps_ownsClaim (operation : ∃ owner ns, d.job.operation = .uploadAndTransfer preparation owner ns job token)
    (delivering : s.deliveries.get? k = some d) :
    Keeps (order config) k (fun result now => ∃ after, now.deliveries.get? k = some after ∧ after.task = d.task ∧
      after.job = d.job ∧ after.attempt = d.attempt ∧ after.admitted = d.admitted ∧
      (result = .ok false → ∃ claim row, token = some claim ∧
        after.lastRead = some row ∧ row.prepareClaimToken ≠ some claim)) (ownsClaim job token) s := by
  cases token with
  | none => exact ⟨d,delivering,rfl,rfl,rfl,rfl,fun ok => by cases ok⟩
  | some claim =>
    refine calls ?_
    intro now since consistent
    refine ⟨select_allowed operation (since.deliveries.trans delivering),fun c _ => ?_⟩
    obtain ⟨mine,theirs,upload⟩ := operation
    obtain ⟨after,there,tasked,same,attempted,admitted,read⟩ := served_select config job c
      (since.deliveries.trans delivering)
    have member := consistent.pushed d.job (consistent.delivered k d (since.deliveries.trans delivering))
    obtain ⟨row,found⟩ := row_of_pushed member
    rw [upload] at found
    change now.rows.get? job = some row at found
    cases answer : (serve config now k (.select job) c).2 with
    | error _ =>
      refine ⟨after,there,tasked,same,attempted,admitted,?_⟩
      intro ok
      cases ok
    | ok known =>
      obtain ⟨rfl,seen⟩ := read known answer
      rw [found] at seen ⊢
      refine ⟨after,there,tasked,same,attempted,admitted,?_⟩
      intro fenced
      refine ⟨claim,row,rfl,seen,?_⟩
      simpa using Except.ok.inj fenced

end Upload

section Deliveries
variable {d : Delivery}

theorem keeps_uploadJob {preparation : Preparation} {owner ns : String} {job : JobId} {token : Option Token}
    (operation : d.job.operation = .uploadAndTransfer preparation owner ns job token) (inv : Consistent config s)
    (delivering : s.deliveries.get? k = some d) (fresh : d.admitted = false) :
    Keeps (order config) k (Ends k d.task d.job) (executeWalletJob config d.job d.attempt) s := by
  unfold executeWalletJob
  rw [operation]
  dsimp only
  cases indexed : walletIndexForUploadAttempt d.job.walletIndex d.attempt config.poolSize with
  | none => exact .failed delivering rfl rfl
  | some walletIndex =>
    refine Keeps.bind inv (keeps_ownsClaim ⟨owner,ns,operation⟩ delivering) ?_ ?_
    · intro owns now _ known
      obtain ⟨after,there,tasked,same,attempted,admitted,fenced⟩ := known
      rw [← tasked,← same]
      cases owns with
      | true =>
        refine keeps_executeUpload ⟨owner,ns,same ▸ operation⟩ there (admitted.trans fresh) ?_
        rw [same,attempted]
        exact indexed
      | false =>
        refine ⟨after,there,rfl,rfl,fun _ => ?_⟩
        rw [same,operation]
        exact .inl (fenced rfl)
    · intro error now _ known
      obtain ⟨after,there,tasked,same,_⟩ := known
      exact .failed there tasked same

theorem keeps_setMetadata {walletIndex : Nat} {blobObjectId : ObjectId} {preparation : Preparation}
    (inv : Consistent config s) (delivering : s.deliveries.get? k = some d) :
    Keeps (order config) k (fun _ now => now.deliveries.get? k = some d)
      (executeSetMetadataAndTransfer config walletIndex blobObjectId preparation) s := by
  refine Keeps.bind (Q:=fun _ now => now.deliveries.get? k = some d) inv ?_ ?_ ?_
  · exact Keeps.orFail (fun _ _ => delivering) (fun _ _ => delivering)
  · intro _ now _ there
    refine calls ?_
    intro after since _
    refine ⟨trivial,fun c _ => ?_⟩
    have still : (serve config after k (.setMetadataBatch walletIndex blobObjectId) c).1.deliveries.get? k = some d := by
      rw [← since.deliveries] at there
      simp only [serve]
      split <;> exact there
    exact Keeps.orFail (fun _ _ => still) (fun _ _ => still)
  · exact fun _ _ _ there => there

theorem keeps_setMetadataJob {blobObjectId : ObjectId} {owner ns : String} {job : JobId} {blobId : BlobId}
    {preparation : Preparation}
    (operation : d.job.operation = .setMetadataAndTransfer blobObjectId owner ns job blobId preparation)
    (inv : Consistent config s) (delivering : s.deliveries.get? k = some d) :
    Keeps (order config) k (Ends k d.task d.job) (executeWalletJob config d.job d.attempt) s := by
  have recorded : ∀ now after, Consistent config now → now.deliveries.get? k = some after → after.job = d.job →
      Recorded now job blobId := by
    intro now after consistent delivers same
    have member := consistent.pushed after.job (consistent.delivered k after delivers)
    rw [same,operation] at member
    exact member
  unfold executeWalletJob
  rw [operation]
  dsimp only
  refine Keeps.bind inv (Keeps.attempt (keeps_setMetadata inv delivering)) ?_ ?_
  · intro result now consistent known
    obtain ⟨inner,same,there⟩ := known
    cases same
    cases result with
    | error error => exact keeps_failAfterError consistent there (fun _ still => .failed still rfl rfl)
    | ok _ =>
      refine Keeps.bind consistent (Keeps.attempt (keeps_insertVector there ?_
        (recorded now d consistent there rfl))) ?_ ?_
      · rw [operation]
        rfl
      · intro inserted after sound ended
        obtain ⟨inner,same,last,holds,tasked,sameJob,finished⟩ := ended
        cases same
        rw [← tasked,← sameJob]
        cases inserted with
        | ok _ =>
          refine ⟨last,holds,rfl,rfl,fun _ => ?_⟩
          rw [sameJob,operation]
          exact .inr (finished rfl)
        | error _ =>
          refine calls ?_
          intro later since _
          refine ⟨⟨Recorded.stays since.toGrows (recorded after last sound holds sameJob),last,blobObjectId,owner,ns,
            preparation,since.deliveries.trans holds,sameJob ▸ operation⟩,fun c kept => ?_⟩
          obtain ⟨final,there,sameTask,same,handed⟩ := served_push_delivery config
            ⟨last.job.walletIndex,.finalizeUploadedBlob owner ns job blobId preparation.vector
              preparation.encrypted.length preparation.importance⟩ c (since.deliveries.trans holds)
          split
          · rename_i stored
            refine ⟨final,there,sameTask,same,fun _ => ?_⟩
            rw [sameJob,operation]
            exact .inl (handed stored)
          · exact keeps_handoffFailure kept there (fun _ _ still => .failed still sameTask same)
      · intro error after _ ended
        obtain ⟨_,impossible,_⟩ := ended
        cases impossible
  · intro error now _ known
    obtain ⟨_,impossible,_⟩ := known
    cases impossible

theorem keeps_finalizeJob {owner ns : String} {job : JobId} {blobId : BlobId} {vector : List Nat} {size importance : Nat}
    (operation : d.job.operation = .finalizeUploadedBlob owner ns job blobId vector size importance)
    (inv : Consistent config s) (delivering : s.deliveries.get? k = some d) :
    Keeps (order config) k (Ends k d.task d.job) (executeWalletJob config d.job d.attempt) s := by
  have recorded : Recorded s job blobId := by
    have member := inv.pushed d.job (inv.delivered k d delivering)
    rw [operation] at member
    exact member
  unfold executeWalletJob
  rw [operation]
  dsimp only
  refine (keeps_insertVector delivering ?_ recorded).weaken ?_
  · rw [operation]
    rfl
  · intro result last ended
    obtain ⟨final,holds,sameTask,sameJob,finished⟩ := ended
    refine ⟨final,holds,sameTask,sameJob,fun ok => ?_⟩
    rw [operation]
    exact finished ok

theorem keeps_walletJob (inv : Consistent config s) (delivering : s.deliveries.get? k = some d)
    (fresh : d.admitted = false) : Keeps (order config) k (Ends k d.task d.job) (executeWalletJob config d.job d.attempt) s := by
  cases operation : d.job.operation with
  | uploadAndTransfer preparation owner ns job token => exact keeps_uploadJob operation inv delivering fresh
  | setMetadataAndTransfer blobObjectId owner ns job blobId preparation =>
    exact keeps_setMetadataJob operation inv delivering
  | finalizeUploadedBlob owner ns job blobId vector size importance => exact keeps_finalizeJob operation inv delivering

end Deliveries

theorem keeps_walletWorker (config : Config) (task attempt : Nat) (s : System) :
    Keeps (order config) k (fun _ _ => True) (walletWorker config task attempt) s := by
  refine calls ?_
  intro now _ _
  refine ⟨trivial,fun c inv => ?_⟩
  cases queued : now.queue.get? task with
  | none =>
    have missing : (serve config now k (.fetch task attempt) c).2 = none := by simp only [serve,queued]
    rw [missing]
    trivial
  | some job =>
    have fetched : (serve config now k (.fetch task attempt) c).2 = some job := by simp only [serve,queued]
    have delivers : (serve config now k (.fetch task attempt) c).1.deliveries.get? k =
        some ⟨task,job,attempt,none,false,false,false,false⟩ := by
      simp [serve,queued,Store.get?_upsert]
    rw [fetched]
    refine Keeps.bind inv (Keeps.attempt (keeps_walletJob inv delivers rfl)) ?_ ?_
    · intro result after _ ended
      obtain ⟨inner,same,d,there,tasked,mine,concluded⟩ := ended
      cases same
      intro later since _
      refine ⟨⟨d,since.deliveries.trans there,tasked,?_⟩,fun _ _ => trivial⟩
      intro ok
      rw [mine]
      refine concluded ?_
      cases result with
      | ok value => rfl
      | error error =>
        simp only [intoApalis] at ok
        split at ok <;> cases ok
    · exact fun _ _ _ _ => trivial

end MemWal.Remember
