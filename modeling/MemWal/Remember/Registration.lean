import MemWal.Remember.Effects

namespace MemWal.Remember
open Library

variable {config : Config} {s next : System} {k : Nat} {op : Op} {c : Choice} {job : JobId}

-- The object was created by the register transaction that was sent out for the job.
def Origin (s : System) (job : JobId) (blobObjectId : ObjectId) : Prop :=
  ∃ id request transaction, s.requests.get? id = some request ∧ request.jobId = job ∧
    request.registerTransaction = some transaction ∧ Created s transaction.digest blobObjectId

-- The job knows of no other Blob object.
structure Registered (s : System) : Prop where
  journals : ∀ job row step blobObjectId, s.rows.get? job = some row → row.journal.uploadResumeStep = some step →
    step.blobObjectId = some blobObjectId → Origin s job blobObjectId
  recorded : ∀ job row blobObjectId, s.rows.get? job = some row → row.blobObjectId = some blobObjectId →
    Origin s job blobObjectId
  requests : ∀ id request step blobObjectId, s.requests.get? id = some request → request.resumeStep = some step →
    step.blobObjectId = some blobObjectId → Origin s request.jobId blobObjectId

theorem Origin.stays (grows : Grows config s next) {blobObjectId : ObjectId} (origin : Origin s job blobObjectId) :
    Origin next job blobObjectId := by
  obtain ⟨id,request,transaction,sent,mine,register,created⟩ := origin
  exact ⟨id,request,transaction,grows.requests id request sent,mine,register,created.stays grows⟩

-- Two requests of one job never carry different register transactions.
theorem Origin.created (inv : Consistent config s) {digest : Digest} {blobObjectId : ObjectId}
    (submitted : (job,digest) ∈ s.submitted) (origin : Origin s job blobObjectId) : Created s digest blobObjectId := by
  obtain ⟨id,request,transaction,sent,mine,register,created⟩ := origin
  obtain ⟨other,asked,prepared,posted,its,carried,rfl⟩ := inv.submitted job digest submitted
  rw [inv.oneRegister other id asked request prepared transaction posted sent (its.trans mine.symm) carried register]
  exact created

-- An object in an answer to a request was in the request, or was created by the
-- transaction in it.
theorem origin_of_answer (registered : Registered s) {id : Nat} {request : DurableUploadRequest}
    {response : DurableUploadResponse} {step : WriteBlobStep} {blobObjectId : ObjectId}
    (sent : s.requests.get? id = some request) (fits : Fits config s request response)
    (answered : response.step = some step ∨ response.step = none ∧ response.resumeStep = some step)
    (object : step.blobObjectId = some blobObjectId) : Origin s request.jobId blobObjectId := by
  unfold Fits at fits
  cases asked : request.resumeStep with
  | none =>
    rw [asked] at fits
    obtain ⟨nonce,rfl⟩ := fits
    rcases answered with same | ⟨nothing,_⟩
    · cases same
      cases object
    · cases nothing
  | some resumed =>
    simp only [asked] at fits
    cases known : resumed.blobObjectId with
    | some before =>
      simp only [known] at fits
      obtain ⟨reached,rfl,_,same⟩ := fits
      rcases answered with answer | ⟨nothing,_⟩
      · cases answer
        cases same.symm.trans object
        exact registered.requests id request resumed blobObjectId sent asked known
      · cases nothing
    | none =>
      simp only [known] at fits
      cases register : request.registerTransaction with
      | some transaction =>
        simp only [register] at fits
        obtain ⟨fresh,created,rfl⟩ := fits
        rcases answered with answer | ⟨nothing,_⟩
        · cases answer
          cases object
          exact ⟨id,request,transaction,sent,rfl,register,created⟩
        · cases nothing
      | none =>
        simp only [register] at fits
        obtain ⟨nonce,transaction,nothing,encoded,_⟩ := fits
        rcases answered with answer | ⟨_,resume⟩
        · rw [nothing] at answer
          cases answer
        · rw [encoded] at resume
          cases resume
          cases object

-- The journal that is persisted next names no new object, either.
theorem origin_of_persisted (inv : Consistent config s) (registered : Registered s) {row : Row} {id : Nat}
    {request : DurableUploadRequest} {response : DurableUploadResponse} {journal : UploadJournal}
    {step : WriteBlobStep} {blobObjectId : ObjectId} (found : s.rows.get? job = some row)
    (sent : s.requests.get? id = some request) (mine : request.jobId = job)
    (answered : s.answers.get? id = some (some response)) (follows : Follows row.journal response journal)
    (resume : journal.resumeStep = some step) (object : step.blobObjectId = some blobObjectId) :
    Origin s job blobObjectId := by
  obtain ⟨asked,posted,fits⟩ := inv.answers id response answered
  cases sent.symm.trans posted
  cases advanced : response.step with
  | some reached =>
    obtain ⟨same,_⟩ := follows.step reached advanced
    cases same.symm.trans resume
    exact mine ▸ origin_of_answer registered sent fits (.inl advanced) object
  | none =>
    obtain ⟨same,_⟩ := follows.prepared advanced
    rw [resume] at same
    cases kept : response.resumeStep with
    | some reached =>
      rw [kept] at same
      cases same
      exact mine ▸ origin_of_answer registered sent fits (.inr ⟨advanced,kept⟩) object
    | none =>
      rw [kept] at same
      exact registered.journals job row step blobObjectId found same.symm object

theorem registered_served (inv : Consistent config s) (allowed : Allowed config s k op) (registered : Registered s) :
    Registered (serve config s k op c).1 := by
  have grows : Grows config s (serve config s k op c).1 := grows_served inv allowed
  refine ⟨?_,?_,?_⟩
  · intro job after step blobObjectId found resume object
    refine Origin.stays grows ?_
    cases served_row found with
    | same before => exact registered.journals job after step blobObjectId before resume object
    | inserted row inserts _ written =>
      subst inserts
      rw [written] at resume
      change row.journal.uploadResumeStep = some step at resume
      rw [NewRow.empty allowed] at resume
      cases resume
    | written row statement before runs _ _ written =>
      subst written
      cases statement with
      | persistUploadJournal journal =>
        obtain ⟨known,_,_,_,id,request,response,blank,_,sent,mine,_,_,answered,follows⟩ :=
          runs.allowed allowed (by simp) (by simp)
        cases before.symm.trans blank.found
        exact origin_of_persisted inv registered before sent mine answered follows resume object
      | _ => exact registered.journals job row step blobObjectId before resume object
  · intro job after blobObjectId found object
    refine Origin.stays grows ?_
    cases served_row found with
    | same before => exact registered.recorded job after blobObjectId before object
    | inserted row inserts _ written =>
      subst inserts
      rw [written] at object
      change row.blobObjectId = some blobObjectId at object
      rw [NewRow.objectless allowed] at object
      cases object
    | written row statement before runs _ _ written =>
      subst written
      cases statement with
      | persistUploadedState blobId recorded =>
        obtain ⟨known,_,_,_,blank,_,certified⟩ := runs.allowed allowed (by simp) (by simp)
        cases before.symm.trans blank.found
        cases object
        exact registered.journals job row _ blobObjectId before certified rfl
      | _ => exact registered.recorded job row blobObjectId before object
  · intro id request step blobObjectId found resume object
    refine Origin.stays grows ?_
    rcases served_request inv found with before | ⟨rfl,_⟩
    · exact registered.requests id request step blobObjectId before resume object
    · obtain ⟨row,_,_,_,blank,_,_,asks⟩ := allowed
      exact registered.journals request.jobId row step blobObjectId blank.found (asks.resumeStep ▸ resume) object

theorem registered_happened (inv : Consistent config s) (event : Event) (registered : Registered s) :
    Registered (happen s event) := by
  have grows : Grows config s (happen s event) := grows_happened inv event
  refine ⟨?_,?_,?_⟩
  · intro job after step blobObjectId found resume object
    refine Origin.stays grows ?_
    rcases happened_row found with before | ⟨row,before,_,rfl⟩
    · exact registered.journals job after step blobObjectId before resume object
    · exact registered.journals job row step blobObjectId before resume object
  · intro job after blobObjectId found object
    refine Origin.stays grows ?_
    rcases happened_row found with before | ⟨row,before,_,rfl⟩
    · exact registered.recorded job after blobObjectId before object
    · exact registered.recorded job row blobObjectId before object
  · intro id request step blobObjectId found resume object
    rw [happened_requests] at found
    exact Origin.stays grows (registered.requests id request step blobObjectId found resume object)

theorem registered_start : Registered {} where
  journals _ _ _ _ found := nomatch found
  recorded _ _ _ found := nomatch found
  requests _ _ _ _ found := nomatch found

theorem registered_at (config : Config) (moves : Moves) (i : Nat) : Registered (state config moves i) := by
  refine holds (K:=fun _ _ _ _ => True) registered_start (fun _ _ _ _ _ => trivial) ?_ ?_ ?_ i
  · exact fun _ _ _ _ inv allowed _ registered => registered_served inv allowed registered
  · exact fun _ _ _ registered => ⟨registered.journals,registered.recorded,registered.requests⟩
  · exact fun _ event inv registered => registered_happened inv event registered

-- How a call for the job goes on from the object that its transaction created. A
-- request may carry the transaction itself again. `none`: nothing was created.
def Continues (s : System) (job : JobId) (digest : Digest) (created : Option ObjectId) : Op → Prop
  | .post request => request.jobId = job →
      (∃ transaction, request.registerTransaction = some transaction ∧ transaction.digest = digest) ∨
        ∃ step blobObjectId, request.resumeStep = some step ∧ step.blobObjectId = some blobObjectId ∧
          created = some blobObjectId
  | .respond id response => ∀ request answer step blobObjectId, s.requests.get? id = some request →
      request.jobId = job → response = some answer → answer.step = some step →
      step.blobObjectId = some blobObjectId → created = some blobObjectId
  | .update jobs (.persistUploadJournal journal) => job ∈ jobs → ∃ step blobObjectId,
      journal.resumeStep = some step ∧ step.blobObjectId = some blobObjectId ∧ created = some blobObjectId
  | .update jobs (.persistUploadedState _ blobObjectId) => job ∈ jobs → created = some blobObjectId
  | .push pushed => ∀ blobObjectId owner ns blobId preparation,
      pushed.operation = .setMetadataAndTransfer blobObjectId owner ns job blobId preparation →
      created = some blobObjectId
  | _ => True

theorem created_same {digest : Digest} {outcome : Outcome} {blobObjectId : ObjectId}
    (executed : s.executed.get? digest = some outcome) (created : Created s digest blobObjectId) :
    createdBlobObjectIdFromTransaction outcome = some blobObjectId := by
  obtain ⟨other,same,object⟩ := created
  cases executed.symm.trans same
  exact object

theorem continues_of_allowed {digest : Digest} {outcome : Outcome} (inv : Consistent config s)
    (registered : Registered s) (submitted : (job,digest) ∈ s.submitted)
    (executed : s.executed.get? digest = some outcome) (allowed : Allowed config s k op) :
    Continues s job digest (createdBlobObjectIdFromTransaction outcome) op := by
  obtain ⟨id,request,transaction,sent,rfl,register,rfl⟩ := inv.submitted job digest submitted
  obtain ⟨row,found,remembers⟩ := (inv.requests id request sent).2 transaction register
  cases op with
  | post asked =>
    intro mine
    obtain ⟨known,_,_,_,blank,_,_,asks⟩ := allowed
    rw [mine] at blank
    cases found.symm.trans blank.found
    obtain ⟨step,resume,kept⟩ := remembers
    rcases kept with ⟨encoded,registered⟩ | ⟨blobObjectId,object,created⟩
    · left
      refine ⟨transaction,?_,rfl⟩
      rw [asks.registerTransaction,resume,registered]
      exact if_pos encoded
    · exact .inr ⟨step,blobObjectId,asks.resumeStep.trans resume,object,created_same executed created⟩
  | respond posted response =>
    intro asked answer step blobObjectId there mine same reached object
    obtain ⟨again,its,fits⟩ := allowed answer same
    cases there.symm.trans its
    have origin := origin_of_answer registered there fits (.inl reached) object
    rw [mine] at origin
    exact created_same executed (origin.created inv submitted)
  | update jobs statement =>
    cases statement with
    | persistUploadJournal journal =>
      intro member
      obtain ⟨known,_,_,_,other,asked,response,blank,_,there,_,_,asks,answered,follows⟩ := allowed _ member
      cases found.symm.trans blank.found
      obtain ⟨again,its,fits⟩ := inv.answers other response answered
      cases there.symm.trans its
      obtain ⟨step,blobObjectId,advanced,object,created⟩ := advances_remembered asks fits follows remembers
      exact ⟨step,blobObjectId,advanced,object,created_same executed created⟩
    | persistUploadedState blobId blobObjectId =>
      intro member
      obtain ⟨known,_,_,_,blank,_,certified⟩ := allowed _ member
      have origin := registered.journals _ known _ blobObjectId blank.found certified rfl
      exact created_same executed (origin.created inv submitted)
    | _ => trivial
  | push pushed =>
    intro blobObjectId owner ns blobId preparation operation
    have last := allowed.2
    rw [operation] at last
    obtain ⟨known,_,_,_,there,_,object,_⟩ := last
    have origin := registered.recorded _ known blobObjectId there object
    exact created_same executed (origin.created inv submitted)
  | _ => trivial

-- What was sent to the chain stays sent, what it did stays done.
theorem chain_grows (config : Config) (moves : Moves) {i j : Nat} (le : i ≤ j) :
    (∀ entry ∈ (state config moves i).submitted, entry ∈ (state config moves j).submitted) ∧
      ∀ digest outcome, (state config moves i).executed.get? digest = some outcome →
        (state config moves j).executed.get? digest = some outcome := by
  refine relates (K:=fun _ _ _ _ => True) (R:=fun s next => (∀ entry ∈ s.submitted, entry ∈ next.submitted) ∧
    ∀ digest outcome, s.executed.get? digest = some outcome → next.executed.get? digest = some outcome)
    ?_ ?_ (fun _ _ _ _ _ => trivial) ?_ ?_ ?_ le
  · exact fun _ => ⟨fun _ member => member,fun _ _ done => done⟩
  · exact fun _ _ _ first second => ⟨fun entry member => second.1 entry (first.1 entry member),
      fun digest outcome done => second.2 digest outcome (first.2 digest outcome done)⟩
  · intro s k op c inv allowed _
    exact ⟨fun entry member => served_submitted member,(grows_served inv allowed).executed⟩
  · exact fun _ _ _ => ⟨fun _ member => member,fun _ _ done => done⟩
  · intro s event inv
    exact ⟨fun entry member => (happened_submitted event).symm ▸ member,(grows_happened inv event).executed⟩

theorem one_paid_registration (config : Config) (moves : Moves) (job : JobId) :
    (∀ i one other, (job,one) ∈ (state config moves i).submitted → (job,other) ∈ (state config moves i).submitted →
      one = other) ∧
    ∀ i j digest outcome worker op c, i ≤ j → (job,digest) ∈ (state config moves i).submitted →
      (state config moves i).executed.get? digest = some outcome → Serves config moves j worker op c →
      Continues (state config moves j) job digest (createdBlobObjectIdFromTransaction outcome) op := by
  constructor
  · intro i one other first second
    have inv := consistent_at config moves i
    obtain ⟨id,request,transaction,sent,mine,register,rfl⟩ := inv.submitted job one first
    obtain ⟨again,asked,prepared,posted,its,carried,rfl⟩ := inv.submitted job other second
    rw [inv.oneRegister id again request asked transaction prepared sent posted (mine.trans its.symm) register carried]
  · intro i j digest outcome worker op c le submitted executed serves
    obtain ⟨sent,done⟩ := chain_grows config moves le
    exact continues_of_allowed (consistent_at config moves j) (registered_at config moves j)
      (sent _ submitted) (done digest outcome executed) serves.allowed

-- One fact is analyzed (worker 0) and delivered (worker 1); three handlers of the
-- sidecar encode it, prepare the register transaction and execute it. The worker
-- is about to record the registered step.
def registrationRun : Moves :=
  .spawn 0 (.analyze ⟨"owner","account","key"⟩ "ns" [("fact",50)]) :: turns 0 7 ++
  .spawn 1 (.wallet 1 1) :: turns 1 6 ++
  .spawn 2 (.sidecar 2) :: turns 2 4 ++ turns 1 3 ++
  .spawn 3 (.sidecar 3) :: turns 3 7 ++ turns 1 3 ++
  .spawn 4 (.sidecar 4) :: turns 4 6 ++ .step 4 {outcome := ⟨true,[7]⟩} :: turns 4 2 ++ turns 1 2

theorem one_paid_registration_continues :
    Continues (state sampleConfig registrationRun 45) 0 0 (some 7)
      (.update [0] (.persistUploadJournal ⟨0,some 0,some 0,some (.registered ⟨[0]⟩ 7 0),none⟩)) :=
  (one_paid_registration sampleConfig registrationRun 0).2 43 45 0 ⟨true,[7]⟩ 1 _ {} (by decide)
    (by decide +kernel) (by decide +kernel) ⟨.step 1 {},rfl,by decide +kernel⟩

end MemWal.Remember
