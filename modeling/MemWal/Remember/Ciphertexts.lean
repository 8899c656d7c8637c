import MemWal.Remember.Finality

namespace MemWal.Remember
open Library

variable {config : Config} {s next : System} {k : Nat} {op : Op} {c : Choice} {job : JobId}

-- A claim is granted on a row that no upload has begun to work on.
def claimsUnstarted (s : System) (_ : Nat) : Op → Choice → Bool
  | .claimPreparation job,c => decide (c.fault ≠ .before → ∀ row ∈ s.rows.get? job,
      (Statement.claimPreparation s.nextId).applies s.clock row = true → row.journal.uploadResumeStep = none ∧
        ∀ worker ∈ s.locks.get? job, ∀ d ∈ s.deliveries.get? worker, d.admitted = false)
  | _,_ => true

-- The preparation whose ciphertext is uploaded for a row.
def Row.source (row : Row) (job : JobId) : Option Nat := if row.batched then some job else row.prepareClaimToken

structure Sealing (config : Config) (s : System) : Prop where
  claimed : ∀ job worker d preparation owner ns token row, s.locks.get? job = some worker →
    s.deliveries.get? worker = some d → d.job.operation = .uploadAndTransfer preparation owner ns job (some token) →
    d.admitted = true → s.rows.get? job = some row → row.blobId = none → row.prepareClaimToken = some token
  journals : ∀ job row step, s.rows.get? job = some row → row.blobId = none → row.journal.uploadResumeStep = some step →
    ∃ n, row.source job = some n ∧ step.blobId = config.sdk.blobId (config.sealEncrypted n)
  recorded : ∀ job row blobId preparation, s.rows.get? job = some row → row.blobId = some blobId →
    row.preparation = some preparation → config.sdk.blobId preparation.encrypted = blobId

-- What a delivery uploads is the ciphertext of the row's preparation.
theorem uploading_source (inv : Consistent config s) (sealing : Sealing config s) {row : Row} {d : Delivery}
    {token : Option Token} {preparation : Preparation} (blank : Blank s k job row)
    (uploading : Uploading s k job token preparation d) :
    ∃ n, row.source job = some n ∧ preparation.encrypted = config.sealEncrypted n ∧
      (row.batched = false → Sealed config s job n) := by
  obtain ⟨owner,ns,operation⟩ := uploading.operation
  have prepared := inv.pushed d.job (inv.delivered k d uploading.delivery)
  rw [operation] at prepared
  cases token with
  | none =>
    obtain ⟨known,found,origin⟩ := prepared
    cases blank.found.symm.trans found
    rcases origin with paid | ⟨batched,same⟩
    · exact absurd blank.blank paid
    · refine ⟨job,if_pos batched,same,?_⟩
      intro single
      cases batched.symm.trans single
  | some token =>
    obtain ⟨same,sealed⟩ := prepared
    have ⟨_,known,found,single,_⟩ := sealed
    cases blank.found.symm.trans found
    have current := sealing.claimed job k d preparation owner ns token row blank.lock uploading.delivery operation
      (uploading.admitted (Option.some_ne_none token)) blank.found blank.blank
    refine ⟨token,?_,same,fun _ => sealed⟩
    unfold Row.source
    rw [single]
    exact current

-- The blob of an answered step is that of the request, or of its data.
theorem blob_of_answer {request : DurableUploadRequest} {response : DurableUploadResponse} {step : WriteBlobStep}
    (fits : Fits config s request response)
    (answered : response.step = some step ∨ response.step = none ∧ response.resumeStep = some step) :
    step.blobId = config.sdk.blobId request.data ∨
      ∃ resumed, request.resumeStep = some resumed ∧ step.blobId = resumed.blobId := by
  unfold Fits at fits
  cases asked : request.resumeStep with
  | none =>
    rw [asked] at fits
    obtain ⟨nonce,rfl⟩ := fits
    rcases answered with same | ⟨nothing,_⟩
    · cases same
      exact .inl rfl
    · cases nothing
  | some resumed =>
    simp only [asked] at fits
    cases known : resumed.blobObjectId with
    | some blobObjectId =>
      simp only [known] at fits
      obtain ⟨reached,rfl,blob,_⟩ := fits
      rcases answered with same | ⟨nothing,_⟩
      · cases same
        exact .inr ⟨resumed,rfl,blob⟩
      · cases nothing
    | none =>
      simp only [known] at fits
      cases register : request.registerTransaction with
      | some transaction =>
        simp only [register] at fits
        obtain ⟨blobObjectId,_,rfl⟩ := fits
        rcases answered with same | ⟨nothing,_⟩
        · cases same
          exact .inl rfl
        · cases nothing
      | none =>
        simp only [register] at fits
        obtain ⟨nonce,transaction,nothing,encoded,_⟩ := fits
        rcases answered with answer | ⟨_,resume⟩
        · rw [nothing] at answer
          cases answer
        · rw [encoded] at resume
          cases resume
          exact .inl rfl

theorem blob_of_persisted {row : Row} {request : DurableUploadRequest} {response : DurableUploadResponse}
    {journal : UploadJournal} {step : WriteBlobStep} (asks : Asks row.journal request)
    (fits : Fits config s request response) (follows : Follows row.journal response journal)
    (resume : journal.resumeStep = some step) :
    step.blobId = config.sdk.blobId request.data ∨
      ∃ before, row.journal.uploadResumeStep = some before ∧ step.blobId = before.blobId := by
  cases advanced : response.step with
  | some reached =>
    obtain ⟨same,_⟩ := follows.step reached advanced
    cases same.symm.trans resume
    exact asks.resumeStep ▸ blob_of_answer fits (.inl advanced)
  | none =>
    obtain ⟨same,_⟩ := follows.prepared advanced
    rw [resume] at same
    cases kept : response.resumeStep with
    | some reached =>
      rw [kept] at same
      cases same
      exact asks.resumeStep ▸ blob_of_answer fits (.inr ⟨advanced,kept⟩)
    | none =>
      rw [kept] at same
      exact .inr ⟨step,same.symm,rfl⟩

theorem journals_served (inv : Consistent config s) (allowed : Allowed config s k op)
    (unstarted : claimsUnstarted s k op c) (sealing : Sealing config s) {after : Row} {step : WriteBlobStep}
    (found : (serve config s k op c).1.rows.get? job = some after) (blank : after.blobId = none)
    (resume : after.journal.uploadResumeStep = some step) :
    ∃ n, after.source job = some n ∧ step.blobId = config.sdk.blobId (config.sealEncrypted n) := by
  cases served_row found with
  | same before => exact sealing.journals job after step before blank resume
  | inserted row inserts _ written =>
    subst inserts
    rw [written] at resume
    change row.journal.uploadResumeStep = some step at resume
    rw [NewRow.empty allowed] at resume
    cases resume
  | written row statement before runs took applies written =>
    subst written
    cases statement with
    | persistUploadedState blobId blobObjectId => cases blank
    | markDone blobId => cases blank
    | claimPreparation token =>
      obtain ⟨rfl,rfl⟩ := runs.claims allowed
      have empty := (of_decide_eq_true unstarted took row before applies).1
      cases empty.symm.trans resume
    | persistUploadJournal journal =>
      obtain ⟨known,d,token,preparation,id,request,response,here,uploading,sent,_,data,asks,answered,follows⟩ :=
        runs.allowed allowed (by simp) (by simp)
      cases before.symm.trans here.found
      obtain ⟨again,its,fits⟩ := inv.answers id response answered
      cases sent.symm.trans its
      obtain ⟨n,source,same,_⟩ := uploading_source inv sealing here uploading
      refine ⟨n,source,?_⟩
      rcases blob_of_persisted asks fits follows resume with fresh | ⟨old,earlier,blob⟩
      · rw [fresh,data,same]
      · obtain ⟨m,known,its⟩ := sealing.journals job row old before here.blank earlier
        cases source.symm.trans known
        rw [blob,its]
    | _ => exact sealing.journals job row step before blank resume

-- An upload under way keeps its claim: a new one is not granted meanwhile.
theorem token_written {row : Row} {statement : Statement} {worker : Nat} {d : Delivery} (allowed : Allowed config s k op)
    (unstarted : claimsUnstarted s k op c) (lock : s.locks.get? job = some worker)
    (delivering : op = .claimPreparation job → s.deliveries.get? worker = some d) (admitted : d.admitted = true)
    (found : s.rows.get? job = some row) (runs : Executes s job op statement) (took : c.fault ≠ .before)
    (applies : statement.applies s.clock row = true) (blank : (statement.apply s.clock row).blobId = none) :
    row.blobId = none ∧ (statement.apply s.clock row).prepareClaimToken = row.prepareClaimToken := by
  cases statement with
  | persistUploadedState blobId blobObjectId => cases blank
  | markDone blobId => cases blank
  | claimPreparation token =>
    obtain ⟨rfl,rfl⟩ := runs.claims allowed
    have free := (of_decide_eq_true unstarted took row found applies).2 worker lock d (delivering rfl)
    cases admitted.symm.trans free
  | _ => exact ⟨blank,rfl⟩

theorem noteUpdate_admitted {statement : Statement} {rows : Except Unit Nat} {d : Delivery}
    (admitted : (noteUpdate statement rows d).admitted = true) :
    d.admitted = true ∨ ∃ token, statement = .consumePreparationClaim token ∧ rows = .ok 1 := by
  unfold noteUpdate at admitted
  split at admitted
  · rename_i token
    exact .inr ⟨token,rfl,rfl⟩
  · exact .inl admitted
  · exact .inl admitted
  · exact .inl admitted

-- A delivery is admitted when the claim of its own payload is consumed.
theorem admitted_noted {d : Delivery} {preparation : Preparation} {owner ns : String} {token : Token}
    (allowed : Allowed config s k op) (noted : Noted s k c d op)
    (operation : d.job.operation = .uploadAndTransfer preparation owner ns job (some token))
    (admitted : d.admitted = true) :
    (∃ before, s.deliveries.get? k = some before ∧ before.job = d.job ∧ before.admitted = true) ∨
      ∃ row, s.rows.get? job = some row ∧ row.blobId = none ∧ row.prepareClaimToken = some token := by
  cases noted with
  | same before => exact .inl ⟨d,before,rfl,admitted⟩
  | fetched task attempt wallet queued written =>
    rw [written] at admitted
    cases admitted
  | read id before fault there written =>
    subst written
    exact .inl ⟨before,there,rfl,admitted⟩
  | pushed wallet before fault there written =>
    subst written
    exact .inl ⟨before,there,rfl,admitted⟩
  | updated jobs statement before there written =>
    by_cases earlier : before.admitted = true
    · exact .inl ⟨before,there,written ▸ (noteUpdate_job _ _ _).symm,earlier⟩
    · right
      rw [written] at admitted
      rcases noteUpdate_admitted admitted with old | ⟨claim,rfl,answered⟩
      · exact absurd old earlier
      · have counted := (faulty_ok answered).2
        obtain ⟨other,member,row,found,applies⟩ := affected_some (counted ▸ Nat.one_ne_zero)
        obtain ⟨_,known,_,_,_,its,same⟩ := allowed other member
        cases there.symm.trans its
        have mine : d.job = before.job := written ▸ noteUpdate_job _ _ _
        rw [mine,same] at operation
        cases operation
        simp only [Statement.applies,Bool.decide_and,Bool.and_eq_true,decide_eq_true_eq] at applies
        exact ⟨row,found,applies.2.1,applies.1⟩

theorem claimed_served (inv : Consistent config s) (allowed : Allowed config s k op)
    (unstarted : claimsUnstarted s k op c) (sealing : Sealing config s) {worker : Nat} {d : Delivery}
    {preparation : Preparation} {owner ns : String} {token : Token} {after : Row}
    (lock : (serve config s k op c).1.locks.get? job = some worker)
    (delivering : (serve config s k op c).1.deliveries.get? worker = some d)
    (operation : d.job.operation = .uploadAndTransfer preparation owner ns job (some token))
    (admitted : d.admitted = true) (found : (serve config s k op c).1.rows.get? job = some after)
    (blank : after.blobId = none) : after.prepareClaimToken = some token := by
  have unmoved : (∀ task attempt, op ≠ .fetch task attempt) → (∀ id, op ≠ .select id) →
      (∀ jobs statement, op ≠ .update jobs statement) → (∀ id, op ≠ .push id) →
      (∀ task result, op ≠ .acknowledge task result) → s.deliveries.get? worker = some d := by
    intro fetch select update push acknowledge
    rw [served_deliveries_same fetch select update push acknowledge] at delivering
    exact delivering
  have held : s.locks.get? job = some worker := by
    rcases served_lock lock with before | ⟨rfl,rfl⟩
    · exact before
    · have free := allowed d (unmoved (by simp) (by simp) (by simp) (by simp) (by simp))
      cases admitted.symm.trans free
  have current : ∀ row, s.rows.get? job = some row → row.blobId = none → row.prepareClaimToken = some token := by
    intro row before unpaid
    rcases served_delivery delivering with ⟨_,there⟩ | ⟨rfl,noted⟩
    · exact sealing.claimed job worker d preparation owner ns token row held there operation admitted before unpaid
    · rcases admitted_noted allowed noted operation admitted with ⟨old,there,same,yes⟩ | ⟨known,again,_,claim⟩
      · exact sealing.claimed job worker old preparation owner ns token row held there (same ▸ operation) yes before unpaid
      · cases before.symm.trans again
        exact claim
  cases served_row found with
  | same before => exact current after before blank
  | inserted row inserts missing _ =>
    subst inserts
    have there := unmoved (by simp) (by simp) (by simp) (by simp) (by simp)
    obtain ⟨known,present⟩ := row_of_pushed (inv.pushed d.job (inv.delivered worker d there))
    rw [operation] at present
    change s.rows.get? job = some known at present
    rw [missing] at present
    cases present
  | written row statement before runs took applies written =>
    subst written
    have there : op = .claimPreparation job → s.deliveries.get? worker = some d := by
      intro equal
      obtain rfl := equal
      exact unmoved (by simp) (by simp) (by simp) (by simp) (by simp)
    obtain ⟨unpaid,same⟩ := token_written allowed unstarted held there admitted before runs took applies blank
    exact same.trans (current row before unpaid)

-- The row's preparation is the one that its upload goes out with.
theorem preparation_of_source {row : Row} {preparation : Preparation} {n : Nat} (found : s.rows.get? job = some row)
    (prepared : row.preparation = some preparation)
    (source : row.source job = some n) (sealed : Sealed config s job n) :
    preparation.encrypted = config.sealEncrypted n := by
  obtain ⟨_,known,there,single,kept⟩ := sealed
  cases found.symm.trans there
  unfold Row.source at source
  rw [single] at source
  obtain ⟨other,same,encrypted⟩ := kept.current source
  cases prepared.symm.trans same
  exact encrypted

theorem recorded_served (inv : Consistent config s) (allowed : Allowed config s k op) (sealing : Sealing config s)
    {after : Row} {blobId : BlobId} {preparation : Preparation}
    (found : (serve config s k op c).1.rows.get? job = some after) (paid : after.blobId = some blobId)
    (prepared : after.preparation = some preparation) : config.sdk.blobId preparation.encrypted = blobId := by
  cases served_row found with
  | same before => exact sealing.recorded job after blobId preparation before paid prepared
  | inserted row inserts _ written =>
    subst inserts
    rw [written] at paid
    change row.blobId = some blobId at paid
    rw [NewRow.blank allowed] at paid
    cases paid
  | written row statement before runs took applies written =>
    subst written
    cases statement with
    | markDone recorded =>
      obtain ⟨⟨known,there,same⟩,_⟩ := runs.allowed allowed (by simp) (by simp)
      cases before.symm.trans there
      cases paid
      exact sealing.recorded job row blobId preparation before same prepared
    | persistUploadedState recorded blobObjectId =>
      obtain ⟨known,d,token,sent,blank,uploading,certified⟩ := runs.allowed allowed (by simp) (by simp)
      cases before.symm.trans blank.found
      cases paid
      obtain ⟨n,source,same⟩ := sealing.journals job row _ before blank.blank certified
      obtain ⟨m,its,_,sealed⟩ := uploading_source inv sealing blank uploading
      cases source.symm.trans its
      change row.preparation = some preparation at prepared
      have single : row.batched = false := by
        rw [← Bool.not_eq_true]
        intro batched
        rw [((inv.rows job row before).batched batched).2.1] at prepared
        cases prepared
      rw [preparation_of_source before prepared source (sealed single)]
      exact same.symm
    | persistPreparation token written =>
      have current : row.prepareClaimToken = some token := by simpa [Statement.applies] using applies
      have unclaimed := (inv.rows job row before).paid (by simp [show row.blobId = some blobId from paid])
      cases unclaimed.symm.trans current
    | _ => exact sealing.recorded job row blobId preparation before paid prepared

theorem sealing_served (inv : Consistent config s) (allowed : Allowed config s k op)
    (unstarted : claimsUnstarted s k op c) (sealing : Sealing config s) : Sealing config (serve config s k op c).1 where
  claimed _ _ _ _ _ _ _ _ lock delivering operation admitted found blank :=
    claimed_served inv allowed unstarted sealing lock delivering operation admitted found blank
  journals _ _ _ found blank resume := journals_served inv allowed unstarted sealing found blank resume
  recorded _ _ _ _ found paid prepared := recorded_served inv allowed sealing found paid prepared

theorem sealing_start (config : Config) : Sealing config {} where
  claimed _ _ _ _ _ _ _ _ lock := nomatch lock
  journals _ _ _ found := nomatch found
  recorded _ _ _ _ found := nomatch found

theorem sealing_abandoned (sealing : Sealing config s) : Sealing config (abandon s k) where
  claimed job worker d preparation owner ns token row lock delivering :=
    sealing.claimed job worker d preparation owner ns token row (abandoned_lock lock) (abandoned_delivery delivering).2
  journals := sealing.journals
  recorded := sealing.recorded

theorem sealing_happened (event : Event) (sealing : Sealing config s) : Sealing config (happen s event) := by
  refine ⟨?_,?_,?_⟩
  · intro job worker d preparation owner ns token after lock delivering operation admitted found blank
    rw [happened_locks] at lock
    rw [happened_deliveries] at delivering
    rcases happened_row found with before | ⟨row,before,_,rfl⟩
    · exact sealing.claimed job worker d preparation owner ns token after lock delivering operation admitted before blank
    · exact sealing.claimed job worker d preparation owner ns token row lock delivering operation admitted before blank
  · intro job after step found blank resume
    rcases happened_row found with before | ⟨row,before,_,rfl⟩
    · exact sealing.journals job after step before blank resume
    · exact sealing.journals job row step before blank resume
  · intro job after blobId preparation found paid prepared
    rcases happened_row found with before | ⟨row,before,_,rfl⟩
    · exact sealing.recorded job after blobId preparation before paid prepared
    · exact sealing.recorded job row blobId preparation before paid prepared

theorem ciphertext_and_blob_agree (config : Config) (moves : Moves)
    (unstarted : ∀ i worker op c, Serves config moves i worker op c →
      claimsUnstarted (state config moves i) worker op c) :
    (∀ i worker request c step, Serves config moves i worker (.post request) c → request.resumeStep = some step →
      config.sdk.blobId request.data = step.blobId) ∧
    ∀ i job row blobId preparation, (state config moves i).rows.get? job = some row → row.blobId = some blobId →
      row.preparation = some preparation → config.sdk.blobId preparation.encrypted = blobId := by
  have sealing : ∀ i, Sealing config (state config moves i) :=
    holds (sealing_start config) unstarted (fun _ _ _ _ => sealing_served) (fun _ _ _ => sealing_abandoned)
      (fun _ event _ => sealing_happened event)
  refine ⟨?_,fun i => (sealing i).recorded⟩
  intro i worker request c step serves resume
  obtain ⟨row,d,token,preparation,blank,uploading,data,asks⟩ := serves.allowed
  obtain ⟨n,source,same,_⟩ := uploading_source (consistent_at config moves i) (sealing i) blank uploading
  obtain ⟨m,its,blob⟩ := (sealing i).journals request.jobId row step blank.found blank.blank
    (asks.resumeStep ▸ resume)
  cases source.symm.trans its
  rw [data,same,blob]

-- A request is accepted (worker 0), prepared (1) and delivered (2); the sidecar
-- encodes the ciphertext, and the step is recorded and asked to go on.
def encodedRun : Moves :=
  .spawn 0 (.remember ⟨"owner","account","key"⟩ ⟨"text","ns",some "retry"⟩) :: turns 0 6 ++
  .spawn 1 (.task 2) :: turns 1 7 ++
  .spawn 2 (.wallet 3 1) :: turns 2 8 ++ .spawn 3 (.sidecar 4) :: turns 3 4 ++ turns 2 3

theorem ciphertext_and_blob_agree_encoded :
    (sampleConfig.sdk.blobId (sampleConfig.sealEncrypted 1)) = ⟨[0,0]⟩ :=
  (ciphertext_and_blob_agree sampleConfig encodedRun
    (given_of_checks (K:=claimsUnstarted) (by decide +kernel))).1 31 2
    ⟨[0,0],0,0,none,none,some (.encoded ⟨[0,0]⟩ 0),none⟩ {} (.encoded ⟨[0,0]⟩ 0)
    ⟨.step 2 {},rfl,by decide +kernel⟩ rfl

-- The next step fails for good. The client asks again, and the text is encrypted
-- again; its upload goes on from the step of the first ciphertext.
def reclaimedRun : Moves :=
  encodedRun ++ .step 2 {error := some .permanent} :: turns 2 3 ++
  .spawn 4 (.remember ⟨"owner","account","key"⟩ ⟨"text","ns",some "retry"⟩) :: turns 4 4 ++
  .spawn 5 (.task 7) :: turns 5 7 ++ .spawn 6 (.wallet 8 1) :: turns 6 8

theorem ciphertext_not_of_step :
    ¬ ∀ i worker request c step, Serves sampleConfig reclaimedRun i worker (.post request) c →
      request.resumeStep = some step → sampleConfig.sdk.blobId request.data = step.blobId := by
  intro agree
  have posted : Serves sampleConfig reclaimedRun 57 6
      (.post ⟨List.replicate 7 0,0,0,none,none,some (.encoded ⟨[0,0]⟩ 0),none⟩) {} :=
    ⟨.step 6 {},rfl,by decide +kernel⟩
  have same := agree 57 6 _ {} _ posted rfl
  revert same
  decide

end MemWal.Remember
