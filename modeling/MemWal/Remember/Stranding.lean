import MemWal.Remember.Carrying
import MemWal.Remember.Finality
import MemWal.Remember.Idempotence

namespace MemWal.Remember
open Library

variable {config : Config} {s : System} {k : Nat} {op : Op} {c : Choice} {job : JobId} {row after : Row}

-- Every uploaded row with a blob has such a job.
def PaidCarried (config : Config) (s : System) : Prop :=
  ∀ job row, s.rows.get? job = some row → row.status = .uploaded → row.blobId ≠ none → Carried config s job row

-- A later claim has taken the place of the token.
def Replaced (s : System) (job : JobId) (token : Token) : Prop :=
  ∃ row claim, s.rows.get? job = some row ∧ row.prepareClaimToken = some claim ∧ token < claim

def Settled (config : Config) (s : System) (operation : WalletOperation) : Prop :=
  ∃ row, s.rows.get? operation.rememberJobId = some row ∧
    (row.status = .done ∨ Carried config s operation.rememberJobId row ∨
      ∃ token, operation.prepareClaimToken = some token ∧ Replaced s operation.rememberJobId token)

-- In every state each uploaded row has a job that carries its blob on, and what is
-- acknowledged Ok is settled.
def NeverStranded (config : Config) (moves : Moves) : Prop :=
  (∀ i, PaidCarried config (state config moves i)) ∧
  ∀ i worker task c d, Serves config moves i worker (.acknowledge task .ok) c → c.fault = .none →
    (state config moves i).deliveries.get? worker = some d → Settled config (state config moves (i+1)) d.job.operation

-- The delivery has found or made its row done, or has pushed what is to follow.
def Delivery.ended (d : Delivery) : Bool :=
  d.lastRead.any (fun row => row.status = .done) || d.handedOn || d.finished

-- Such a delivery of the row is still to be acknowledged.
def awaited (deliveries : Store Nat Delivery) (job : JobId) : Bool :=
  deliveries.entries.any (fun entry => decide (entry.2.job.operation.rememberJobId = job) && entry.2.ended)

-- A delivery goes on from a blob that is recorded: no token fences it out, and it has
-- its SEAL context.
def WalletOperation.resumable (config : Config) : WalletOperation → Bool
  | .uploadAndTransfer preparation _ _ _ token => token.isNone && (recoverySealPersistence config preparation).isOk
  | _ => true

-- What strands no paid blob.
def keepsPaid (config : Config) (s : System) (worker : Nat) : Op → Choice → Bool
  -- The job of an upload that is recorded is resumable and still queued.
  | .update _ (.persistUploadedState _ _),c => decide (c.fault ≠ .before → 0 < config.poolSize ∧
      ∀ d ∈ s.deliveries.get? worker, s.queue.get? d.task = some d.job ∧ d.job.operation.resumable config)
  -- A write of `done` is not lost,
  | .update jobs (.markDone _),c => decide (c.fault ≠ .before ∧
      ∀ d ∈ s.deliveries.get? worker, d.job.operation.rememberJobId ∈ jobs)
  -- nor is one undone that a delivery is still to be acknowledged for.
  | .update jobs .markFailed,c => decide (c.fault ≠ .before → ∀ job ∈ jobs, ∀ row ∈ s.rows.get? job,
      row.status = .done → awaited s.deliveries job = false)
  -- A claim that is current is not refused.
  | .update jobs (.consumePreparationClaim token),c => decide (c.fault = .none → ∀ d ∈ s.deliveries.get? worker,
      ∀ row ∈ s.rows.get? d.job.operation.rememberJobId, row.prepareClaimToken ≠ none →
        row.prepareClaimToken = d.job.operation.prepareClaimToken →
          s.affected jobs (.consumePreparationClaim token) = 1)
  -- No job of an uploaded row is given up, nor one that a delivery has just handed on.
  | .acknowledge _ .aborted,c => decide (c.fault = .none → ∀ d ∈ s.deliveries.get? worker,
      ∀ row ∈ s.rows.get? d.job.operation.rememberJobId, row.status ≠ .uploaded ∧
        (row.status = .done ∨ awaited (s.deliveries.erase worker) d.job.operation.rememberJobId = false))
  -- What is handed on has its SEAL context.
  | .push ⟨_,.setMetadataAndTransfer _ _ _ _ _ preparation⟩,c =>
    decide (c.fault = .none → HasSealContext config preparation)
  | _,_ => true

-- The delivery has seen that its token is not the row's.
def Delivery.FencedOut (d : Delivery) (token : Token) : Prop :=
  (∃ row, d.lastRead = some row ∧ row.prepareClaimToken ≠ some token) ∨ d.refused = true

theorem ended_cases {d : Delivery} :
    d.ended = true ↔ (∃ row, d.lastRead = some row ∧ row.status = .done) ∨ d.handedOn = true ∨ d.finished = true := by
  unfold Delivery.ended
  cases d.lastRead with
  | none => simp
  | some row => simp [or_assoc]

theorem awaited_iff {deliveries : Store Nat Delivery} :
    awaited deliveries job = true ↔
      ∃ k d, deliveries.get? k = some d ∧ d.job.operation.rememberJobId = job ∧ d.ended = true := by
  simp [awaited,List.any_eq_true,Store.get?_eq_some]

-- A job that carries the blob on is queued, and no delivery of it has ended.
def Kept (config : Config) (s : System) (job : JobId) (row : Row) : Prop :=
  ∃ task queued, s.queue.get? task = some queued ∧ Onward config job row queued.operation ∧
    ∀ k d, s.deliveries.get? k = some d → d.task = task → d.ended = false

-- A blob is recorded for a row without a claim only. Until the row is done a job
-- carries the blob on, while the row is uploaded or a delivery is to be acknowledged.
structure Attended (config : Config) (s : System) : Prop where
  batched : ∀ job row, s.rows.get? job = some row → row.blobId ≠ none → row.batched = true
  tasks : ∀ k d, s.deliveries.get? k = some d →
    d.task < s.nextId ∧ ∀ queued, s.queue.get? d.task = some queued → queued = d.job
  fenced : ∀ k d token, s.deliveries.get? k = some d → d.job.operation.prepareClaimToken = some token →
    d.FencedOut token → ¬ Current s d.job.operation.rememberJobId token
  ended : ∀ k d, s.deliveries.get? k = some d → d.ended = true →
    ∃ row, s.rows.get? d.job.operation.rememberJobId = some row ∧ row.blobId ≠ none
  kept : ∀ job row, s.rows.get? job = some row → row.blobId ≠ none → row.status ≠ .done →
    row.status = .uploaded ∨ awaited s.deliveries job = true → Kept config s job row

theorem concluded_cases {d : Delivery} (concluded : Concluded d d.job.operation) :
    d.ended = true ∨ ∃ token, d.job.operation.prepareClaimToken = some token ∧ d.FencedOut token := by
  unfold Concluded at concluded
  cases operation : d.job.operation with
  | uploadAndTransfer preparation owner ns id token =>
    rw [operation] at concluded
    rcases concluded with ⟨claim,row,rfl,read,other⟩ | ⟨claim,rfl,refused⟩ | done | rest
    · exact .inr ⟨claim,rfl,.inl ⟨row,read,other⟩⟩
    · exact .inr ⟨claim,rfl,.inr refused⟩
    · exact .inl (ended_cases.mpr (.inl done))
    · exact .inl (ended_cases.mpr (.inr rest))
  | setMetadataAndTransfer =>
    rw [operation] at concluded
    exact .inl (ended_cases.mpr (.inr concluded))
  | finalizeUploadedBlob =>
    rw [operation] at concluded
    exact .inl (ended_cases.mpr (.inr (.inr concluded)))

-- What a delivery is of does not change.
theorem noted_of {d : Delivery} (noted : Noted s k c d op) :
    (∃ before, s.deliveries.get? k = some before ∧ d.task = before.task ∧ d.job = before.job) ∨
      ∃ task attempt job, s.queue.get? task = some job ∧ d = ⟨task,job,attempt,none,false,false,false,false⟩ := by
  cases noted with
  | same found => exact .inl ⟨d,found,rfl,rfl⟩
  | fetched task attempt job queued written => exact .inr ⟨task,attempt,job,queued,written⟩
  | read job before _ found written => exact .inl ⟨before,found,by rw [written],by rw [written]⟩
  | updated jobs statement before found written =>
    refine .inl ⟨before,found,?_,?_⟩
    · rw [written,noteUpdate_task]
    · rw [written,noteUpdate_job]
  | pushed job before _ found written => exact .inl ⟨before,found,by rw [written],by rw [written]⟩

-- What `noteUpdate` changes.
theorem updated_refused {statement : Statement} {rows : Except Unit Nat} {d : Delivery}
    (refused : (noteUpdate statement rows d).refused = true) :
    d.refused = true ∨ ∃ token n, statement = .consumePreparationClaim token ∧ rows = .ok n ∧ n ≠ 1 := by
  unfold noteUpdate at refused
  split at refused
  · exact .inl refused
  · rename_i token n other
    exact .inr ⟨token,n,rfl,rfl,fun same => other (same ▸ rfl)⟩
  · exact .inl refused
  · exact .inl refused

theorem updated_ended {statement : Statement} {rows : Except Unit Nat} {d : Delivery}
    (ended : (noteUpdate statement rows d).ended = true) : d.ended = true ∨ ∃ blobId, statement = .markDone blobId := by
  unfold noteUpdate at ended
  split at ended
  · exact .inl ended
  · exact .inl ended
  · exact .inr ⟨_,rfl⟩
  · exact .inl ended

-- The delivery that a worker has on record pushes what is to follow.
def HandsOn (s : System) (k : Nat) (c : Choice) (job : JobId) (op : Op) : Prop :=
  ∃ pushed d, op = .push pushed ∧ c.fault = .none ∧ s.deliveries.get? k = some d ∧
    d.job.operation.rememberJobId = job

section Served
variable (inv : Consistent config s) (allowed : Allowed config s k op) (careful : keepsPaid config s k op c = true)
  (attended : Attended config s)
include inv allowed careful attended

-- How a delivery came to have ended.
omit attended in
theorem ended_came {j : Nat} {d : Delivery} (found : (serve config s k op c).1.deliveries.get? j = some d)
    (ended : d.ended = true) :
    (∃ before, s.deliveries.get? j = some before ∧ before.task = d.task ∧ before.job = d.job ∧ before.ended = true) ∨
      HandsOn s k c d.job.operation.rememberJobId op ∨
        ∃ row, (serve config s k op c).1.rows.get? d.job.operation.rememberJobId = some row ∧ row.status = .done ∧
          row.blobId ≠ none := by
  rcases served_delivery found with ⟨_,there⟩ | ⟨rfl,noted⟩
  · exact .inl ⟨d,there,rfl,rfl,ended⟩
  · cases noted with
    | same there => exact .inl ⟨d,there,rfl,rfl,ended⟩
    | fetched task attempt job queued written =>
      rw [written] at ended
      cases ended
    | read job before fault there written =>
      subst written
      rcases ended_cases.mp ended with ⟨row,read,done⟩ | rest
      · right
        right
        cases allowed before there
        have sound := (inv.rows _ row read).done done
        refine ⟨row,?_,done,sound⟩
        simp only [serve,fault]
        exact read
      · exact .inl ⟨before,there,rfl,rfl,ended_cases.mpr (.inr rest)⟩
    | updated jobs statement before there written =>
      subst written
      rcases updated_ended ended with old | ⟨blobId,rfl⟩
      · exact .inl ⟨before,there,(noteUpdate_task _ _ before).symm,(noteUpdate_job _ _ before).symm,old⟩
      · obtain ⟨took,member⟩ := of_decide_eq_true careful
        have mine := member before there
        obtain ⟨⟨row,its,recorded⟩,_⟩ := allowed _ mine
        right
        right
        rw [noteUpdate_job]
        exact ⟨_,update_lands took its mine rfl,rfl,Option.some_ne_none _⟩
    | pushed job before fault there written =>
      subst written
      exact .inr (.inl ⟨job,before,rfl,fault,there,rfl⟩)

-- A delivery is of a job that was queued before, and stays of it.
omit careful in
theorem tasks_served {j : Nat} {d : Delivery} (found : (serve config s k op c).1.deliveries.get? j = some d) :
    d.task < s.nextId ∧ ∀ queued, (serve config s k op c).1.queue.get? d.task = some queued → queued = d.job := by
  have old : d.task < s.nextId ∧ ∀ queued, s.queue.get? d.task = some queued → queued = d.job := by
    rcases served_delivery found with ⟨_,there⟩ | ⟨rfl,noted⟩
    · exact attended.tasks j d there
    · rcases noted_of noted with ⟨before,there,task,job⟩ | ⟨task,attempt,job,there,rfl⟩
      · rw [task,job]
        exact attended.tasks j before there
      · refine ⟨(inv.queued task job there).1,?_⟩
        intro queued again
        exact Option.some.inj (again.symm.trans there)
  refine ⟨old.1,?_⟩
  intro queued there
  rcases served_queue there with before | ⟨_,fresh⟩
  · exact old.2 queued before
  · exact absurd fresh (Nat.ne_of_lt old.1)

-- The token of a delivered payload was drawn, for a row with a claim.
omit allowed careful attended in
theorem delivered_sealed {j : Nat} {d : Delivery} {token : Token} (found : s.deliveries.get? j = some d)
    (carries : d.job.operation.prepareClaimToken = some token) :
    Sealed config s d.job.operation.rememberJobId token := by
  have pushed := inv.pushed _ (inv.delivered j d found)
  cases operation : d.job.operation with
  | uploadAndTransfer preparation owner ns id claim =>
    rw [operation] at carries pushed
    cases carries
    have prepared : Prepared config s id (some token) preparation := pushed
    exact prepared.2
  | setMetadataAndTransfer =>
    rw [operation] at carries
    cases carries
  | finalizeUploadedBlob =>
    rw [operation] at carries
    cases carries

theorem fenced_served {j : Nat} {d : Delivery} {token : Token}
    (found : (serve config s k op c).1.deliveries.get? j = some d)
    (carries : d.job.operation.prepareClaimToken = some token) (fenced : d.FencedOut token) :
    ¬ Current (serve config s k op c).1 d.job.operation.rememberJobId token := by
  have later : ∀ before : Delivery, s.deliveries.get? j = some before → d.job = before.job →
      ¬ Current s before.job.operation.rememberJobId token →
        ¬ Current (serve config s k op c).1 d.job.operation.rememberJobId token := by
    intro before there job gone
    rw [job] at carries ⊢
    exact superseded_served allowed (delivered_sealed inv there carries).1 gone
  rcases served_delivery found with ⟨_,there⟩ | ⟨rfl,noted⟩
  · exact later d there rfl (attended.fenced j d token there carries fenced)
  · cases noted with
    | same there => exact later d there rfl (attended.fenced j d token there carries fenced)
    | fetched task attempt job queued written =>
      rw [written] at fenced
      rcases fenced with ⟨_,read,_⟩ | refused
      · cases read
      · cases refused
    | read job before _ there written =>
      rw [written] at carries fenced
      refine later before there (by rw [written]) ?_
      rcases fenced with ⟨row,read,other⟩ | refused
      · intro current
        obtain ⟨row',held,its⟩ := current
        rw [← allowed before there] at read
        cases held.symm.trans read
        exact other its
      · exact attended.fenced j before token there carries (.inr refused)
    | updated jobs statement before there written =>
      have job : d.job = before.job := by
        rw [written,noteUpdate_job]
      refine later before there job ?_
      rw [job] at carries
      have old : before.FencedOut token → ¬ Current s before.job.operation.rememberJobId token :=
        attended.fenced j before token there carries
      rcases fenced with ⟨row,read,other⟩ | refused
      · refine old (.inl ⟨row,?_,other⟩)
        rw [← read,written,noteUpdate_lastRead]
      · rw [written] at refused
        rcases updated_refused refused with still | ⟨claim,n,rfl,answered,missed⟩
        · exact old (.inr still)
        · intro current
          obtain ⟨row,held,its⟩ := current
          cases fault : c.fault with
          | none =>
            rw [fault] at answered
            refine missed ?_
            cases answered
            refine of_decide_eq_true careful fault before there row held ?_ (its.trans carries.symm)
            rw [its]
            exact Option.some_ne_none token
          | before =>
            rw [fault] at answered
            cases answered
          | after =>
            rw [fault] at answered
            cases answered
    | pushed job before _ there written =>
      rw [written] at carries fenced
      exact later before there (by rw [written]) (attended.fenced j before token there carries fenced)

theorem batched_served (found : (serve config s k op c).1.rows.get? job = some after) (paid : after.blobId ≠ none) :
    after.batched = true := by
  have kept : ∀ row, s.rows.get? job = some row → row.blobId ≠ none → after.batched = true := by
    intro row before there
    obtain ⟨again,same,later⟩ := (grows_served (c:=c) inv allowed).rows job row before
    cases found.symm.trans same
    exact later.batched.trans (attended.batched job row before there)
  cases served_row found with
  | same before => exact attended.batched job after before paid
  | inserted row inserts _ written =>
    subst inserts
    rw [written] at paid
    exact absurd (NewRow.blank allowed) paid
  | written row statement before runs took applies written =>
    subst written
    cases statement with
    | persistUploadedState blobId blobObjectId =>
      obtain ⟨known,d,token,preparation,blank,uploading,_⟩ := runs.allowed allowed (by simp) (by simp)
      cases before.symm.trans blank.found
      obtain ⟨jobs,rfl,_⟩ := runs.updates (by simp) (by simp)
      obtain ⟨_,rest⟩ := of_decide_eq_true careful took
      have unfenced := (rest d uploading.delivery).2
      obtain ⟨owner,ns,operation⟩ := uploading.operation
      have pushed := inv.pushed _ (inv.delivered k d uploading.delivery)
      rw [operation] at unfenced pushed
      simp only [WalletOperation.resumable,Bool.and_eq_true,Option.isNone_iff_eq_none] at unfenced
      cases unfenced.1
      obtain ⟨again,same,source⟩ := (pushed : Prepared config s job none preparation)
      cases before.symm.trans same
      rcases source with already | ⟨batched,_⟩
      · exact absurd blank.blank already
      · exact batched
    | markDone blobId =>
      obtain ⟨⟨again,same,recorded⟩,_⟩ := runs.allowed allowed (by simp) (by simp)
      cases before.symm.trans same
      exact kept row before (recorded ▸ Option.some_ne_none blobId)
    | _ => exact kept row before paid

-- What a delivery pushes carries its blob on.
omit inv attended in
theorem handed_onward {pushed : WalletJob} {d : Delivery} (pushes : op = .push pushed) (fault : c.fault = .none)
    (delivering : s.deliveries.get? k = some d) :
    ∃ row, s.rows.get? d.job.operation.rememberJobId = some row ∧ row.blobId ≠ none ∧
      Onward config d.job.operation.rememberJobId row pushed.operation := by
  subst pushes
  obtain ⟨sound,source⟩ := allowed
  obtain ⟨walletIndex,operation⟩ := pushed
  cases operation with
  | uploadAndTransfer preparation owner ns id token =>
    cases delivering.symm.trans source
  | setMetadataAndTransfer blobObjectId owner ns id blobId preparation =>
    obtain ⟨row,e,token,sent,held,_,object,uploading,_⟩ := source
    cases delivering.symm.trans uploading.delivery
    obtain ⟨_,_,operation⟩ := uploading.operation
    obtain ⟨again,same,recorded⟩ := (sound : Recorded s id blobId)
    cases held.symm.trans same
    rw [operation]
    exact ⟨row,held,recorded ▸ Option.some_ne_none blobId,rfl,object,recorded,of_decide_eq_true careful fault⟩
  | finalizeUploadedBlob owner ns id blobId vector size importance =>
    obtain ⟨e,blobObjectId,_,_,_,there,operation⟩ := source
    cases delivering.symm.trans there
    obtain ⟨row,held,recorded⟩ := (sound : Recorded s id blobId)
    rw [operation]
    exact ⟨row,held,recorded ▸ Option.some_ne_none blobId,rfl,recorded⟩

theorem ended_served {j : Nat} {d : Delivery} (found : (serve config s k op c).1.deliveries.get? j = some d)
    (ended : d.ended = true) :
    ∃ row, (serve config s k op c).1.rows.get? d.job.operation.rememberJobId = some row ∧ row.blobId ≠ none := by
  have later : ∀ job row, s.rows.get? job = some row → row.blobId ≠ none →
      ∃ after, (serve config s k op c).1.rows.get? job = some after ∧ after.blobId ≠ none := by
    intro job row there paid
    obtain ⟨after,same,later⟩ := (grows_served (c:=c) inv allowed).rows job row there
    obtain ⟨blobId,recorded⟩ := Option.ne_none_iff_exists'.mp paid
    exact ⟨after,same,(later.blob blobId recorded).1 ▸ Option.some_ne_none blobId⟩
  rcases ended_came inv allowed careful found ended with ⟨before,there,_,job,old⟩ | pushing | ⟨row,there,_,paid⟩
  · obtain ⟨row,held,paid⟩ := attended.ended j before there old
    rw [job] at held
    exact later _ row held paid
  · obtain ⟨pushed,e,pushes,fault,there,job⟩ := pushing
    obtain ⟨row,held,paid,_⟩ := handed_onward allowed careful pushes fault there
    rw [job] at held
    exact later _ row held paid
  · exact ⟨row,there,paid⟩

-- Who is to be acknowledged after a call was before, if the row is not done.
omit attended in
theorem awaited_came (found : (serve config s k op c).1.rows.get? job = some after) (open_ : after.status ≠ .done)
    (others : ¬ HandsOn s k c job op) (waits : awaited (serve config s k op c).1.deliveries job = true) :
    awaited s.deliveries job = true := by
  obtain ⟨j,d,there,rfl,ended⟩ := awaited_iff.mp waits
  rcases ended_came inv allowed careful there ended with ⟨before,old,_,same,still⟩ | pushing | ⟨row,held,done,_⟩
  · exact awaited_iff.mpr ⟨j,before,old,by rw [same],still⟩
  · exact absurd pushing others
  · cases found.symm.trans held
    exact absurd done open_

-- A job that carries the blob on is not acknowledged before the row is done or
-- another one follows.
theorem kept_stays (kept : Kept config s job row) (before : s.rows.get? job = some row) (paid : row.blobId ≠ none)
    (found : (serve config s k op c).1.rows.get? job = some after) (open_ : after.status ≠ .done)
    (waits : after.status = .uploaded ∨ awaited (serve config s k op c).1.deliveries job = true)
    (others : ¬ HandsOn s k c job op) : Kept config (serve config s k op c).1 job after := by
  obtain ⟨again,same,later⟩ := (grows_served (c:=c) inv allowed).rows job row before
  cases found.symm.trans same
  obtain ⟨task,queued,there,onward,going⟩ := kept
  have mine := onward_mine onward
  have still : (serve config s k op c).1.queue.get? task = some queued := by
    rcases queue_kept (c:=c) (k:=k) op inv there with still | ⟨result,rfl,fault,gone⟩
    · exact still
    · exfalso
      obtain ⟨d,delivering,rfl,concludes⟩ := allowed
      cases (attended.tasks k d delivering).2 queued there
      cases result with
      | failed => exact gone rfl
      | ok =>
        rcases concluded_cases (concludes rfl) with ended | ⟨token,carries,_⟩
        · cases (going k d delivering rfl).symm.trans ended
        · cases (onward_unclaimed onward).symm.trans carries
      | aborted =>
        have unmoved : (serve config s k (.acknowledge d.task .aborted) c).1.rows = s.rows :=
          served_rows_same (by simp) (by simp) (by simp) (by simp)
        rw [unmoved] at found
        cases before.symm.trans found
        have erased : (serve config s k (.acknowledge d.task .aborted) c).1.deliveries = s.deliveries.erase k := by
          simp [serve,fault]
        rw [erased] at waits
        obtain ⟨given,rest⟩ := of_decide_eq_true careful fault d delivering row (mine ▸ before)
        rcases waits with uploaded | waits
        · exact given uploaded
        · rcases rest with done | unawaited
          · exact open_ done
          · rw [mine,waits] at unawaited
            cases unawaited
  refine ⟨task,queued,still,onward.later paid later,?_⟩
  intro j d delivering its
  rw [← Bool.not_eq_true]
  intro ended
  subst its
  have same := (tasks_served inv allowed attended delivering).2 queued still
  subst same
  rcases ended_came inv allowed careful delivering ended with ⟨prior,old,task,_,was⟩ | pushing | ⟨row,held,done,_⟩
  · cases (going j prior old task).symm.trans was
  · exact others (mine ▸ pushing)
  · rw [mine] at held
    cases found.symm.trans held
    exact open_ done

-- What is pushed has not been delivered yet.
theorem pushed_kept (pushing : HandsOn s k c job op) (found : (serve config s k op c).1.rows.get? job = some after) :
    Kept config (serve config s k op c).1 job after := by
  obtain ⟨pushed,d,rfl,fault,delivering,rfl⟩ := pushing
  obtain ⟨row,held,paid,onward⟩ := handed_onward allowed careful rfl fault delivering
  obtain ⟨again,same,later⟩ := (grows_served (c:=c) inv allowed).rows _ row held
  cases found.symm.trans same
  refine ⟨s.nextId,pushed,?_,onward.later paid later,?_⟩
  · simp [serve,fault,System.note]
  · intro j e there fresh
    exact absurd fresh (Nat.ne_of_lt (tasks_served inv allowed attended there).1)

theorem uploaded_kept {jobs : List JobId} {blobId : BlobId} {blobObjectId : ObjectId}
    (records : op = .update jobs (.persistUploadedState blobId blobObjectId)) (member : job ∈ jobs)
    (took : c.fault ≠ .before) (found : (serve config s k op c).1.rows.get? job = some after)
    (open_ : after.status ≠ .done) : Kept config (serve config s k op c).1 job after := by
  subst records
  obtain ⟨row,d,token,preparation,blank,uploading,_⟩ := allowed job member
  obtain ⟨wallets,rest⟩ := of_decide_eq_true careful took
  obtain ⟨there,resumable⟩ := rest d uploading.delivery
  obtain ⟨owner,ns,operation⟩ := uploading.operation
  have mine : d.job.operation.rememberJobId = job := congrArg WalletOperation.rememberJobId operation
  have still : (serve config s k (.update jobs (.persistUploadedState blobId blobObjectId)) c).1.queue.get? d.task =
      some d.job := by
    rcases queue_kept (c:=c) (k:=k) (.update jobs (.persistUploadedState blobId blobObjectId)) inv there with
      still | ⟨_,other,_⟩
    · exact still
    · cases other
  refine ⟨d.task,d.job,still,?_,?_⟩
  · rw [operation] at resumable ⊢
    simp only [WalletOperation.resumable,Bool.and_eq_true,Option.isNone_iff_eq_none] at resumable
    exact ⟨rfl,resumable.1,wallets,resumable.2⟩
  · intro j e delivering its
    rw [← Bool.not_eq_true]
    intro ended
    have same := (tasks_served inv allowed attended delivering).2 d.job (its ▸ still)
    rcases ended_came inv allowed careful delivering ended with
      ⟨prior,old,_,mine',was⟩ | ⟨_,_,other,_⟩ | ⟨other,held,done,_⟩
    · obtain ⟨other,held,paid⟩ := attended.ended j prior old was
      rw [mine',← same,mine] at held
      cases held.symm.trans blank.found
      exact paid blank.blank
    · cases other
    · rw [← same,mine] at held
      cases found.symm.trans held
      exact open_ done

-- Which statements a paid row becomes 'uploaded' or stops being done by.
omit inv careful attended in
theorem written_open {statement : Statement} (found : s.rows.get? job = some row)
    (runs : Executes s job op statement) (applies : statement.applies s.clock row = true)
    (paid : (statement.apply s.clock row).blobId ≠ none) (open_ : (statement.apply s.clock row).status ≠ .done) :
    (∃ blobId blobObjectId, statement = .persistUploadedState blobId blobObjectId) ∨ row.blobId ≠ none ∧
      (statement = .markFailed ∨ row.status ≠ .done) ∧
      ((statement.apply s.clock row).status = .uploaded →
        row.status = .uploaded ∨ ∃ token, statement = .publishPaidRecovery token) := by
  by_cases records : ∃ blobId blobObjectId, statement = .persistUploadedState blobId blobObjectId
  · exact .inl records
  · have recorded : row.blobId ≠ none := by
      cases statement with
      | persistUploadedState blobId blobObjectId => exact absurd ⟨blobId,blobObjectId,rfl⟩ records
      | markDone blobId => exact absurd rfl open_
      | _ => exact paid
    refine .inr ⟨recorded,?_,?_⟩
    · by_cases unguarded : statement = .markFailed
      · exact .inl unguarded
      · refine .inr (fun done => open_ ?_)
        exact done_written done recorded found applies unguarded
          (fun _ unclaimed unpaid => runs.allowed allowed unclaimed unpaid)
    · intro uploaded
      cases statement with
      | persistUploadedState blobId blobObjectId => exact absurd ⟨blobId,blobObjectId,rfl⟩ records
      | publishPaidRecovery token => exact .inr ⟨token,rfl⟩
      | claimPreparation token => simp [Statement.applies,recorded] at applies
      | afterWalletError aborts => cases aborts <;> cases uploaded
      | persistPreparation token preparation => exact .inl uploaded
      | persistUploadJournal journal => exact .inl uploaded
      | claimPaidRecovery token => exact .inl uploaded
      | _ => cases uploaded

theorem kept_served (found : (serve config s k op c).1.rows.get? job = some after) (paid : after.blobId ≠ none)
    (open_ : after.status ≠ .done)
    (waits : after.status = .uploaded ∨ awaited (serve config s k op c).1.deliveries job = true) :
    Kept config (serve config s k op c).1 job after := by
  by_cases pushing : HandsOn s k c job op
  · exact pushed_kept inv allowed careful attended pushing found
  · have came := awaited_came inv allowed careful found open_ pushing
    cases served_row found with
    | same before =>
      exact kept_stays inv allowed careful attended
        (attended.kept job after before paid open_ (waits.imp id came)) before paid found open_ waits pushing
    | inserted row inserts _ written =>
      subst inserts
      rw [written] at paid
      exact absurd (NewRow.blank allowed) paid
    | written row statement before runs took applies written =>
      subst written
      rcases written_open allowed before runs applies paid open_ with
        ⟨blobId,blobObjectId,rfl⟩ | ⟨recorded,failed,uploaded⟩
      · obtain ⟨jobs,rfl,member⟩ := runs.updates (by simp) (by simp)
        exact uploaded_kept inv allowed careful attended rfl member took found open_
      · have unfinished : row.status ≠ .done := by
          intro done
          rcases failed with rfl | unfinished
          · obtain ⟨jobs,rfl,member⟩ := runs.updates (by simp) (by simp)
            have unawaited := of_decide_eq_true careful took job member row before done
            rcases waits with other | waits
            · cases other
            · cases unawaited.symm.trans (came waits)
          · exact unfinished done
        refine kept_stays inv allowed careful attended (attended.kept job row before recorded unfinished ?_) before
          recorded found open_ waits pushing
        refine waits.imp ?_ came
        intro now
        rcases uploaded now with still | ⟨token,rfl⟩
        · exact still
        · -- Only a row with a claim is recovered.
          obtain ⟨again,same,single⟩ := (runs.allowed allowed (by simp) (by simp) : Single s job)
          cases before.symm.trans same
          cases single.symm.trans (attended.batched job row before recorded)

theorem attended_served : Attended config (serve config s k op c).1 where
  batched _ _ found paid := batched_served inv allowed careful attended found paid
  tasks j d found := by
    obtain ⟨old,same⟩ := tasks_served inv allowed attended found
    exact ⟨Nat.lt_of_lt_of_le old (grows_served inv allowed).drawn,same⟩
  fenced _ _ _ found carries fenced := fenced_served inv allowed careful attended found carries fenced
  ended _ _ found ended := ended_served inv allowed careful attended found ended
  kept _ _ found paid open_ waits := kept_served inv allowed careful attended found paid open_ waits

-- A delivery that is acknowledged Ok leaves its row done, another job, or a token that
-- a later claim has replaced.
theorem settled_served {task : Nat} {d : Delivery} (acknowledges : op = .acknowledge task .ok) (fault : c.fault = .none)
    (delivering : s.deliveries.get? k = some d) : Settled config (serve config s k op c).1 d.job.operation := by
  subst acknowledges
  obtain ⟨e,there,rfl,concludes⟩ := allowed
  cases delivering.symm.trans there
  have unmoved : (serve config s k (.acknowledge d.task .ok) c).1.rows = s.rows :=
    served_rows_same (by simp) (by simp) (by simp) (by simp)
  unfold Settled Replaced
  rw [unmoved]
  rcases concluded_cases (concludes rfl) with ended | ⟨token,carries,fenced⟩
  · obtain ⟨row,held,paid⟩ := attended.ended k d delivering ended
    refine ⟨row,held,?_⟩
    by_cases done : row.status = .done
    · exact .inl done
    · obtain ⟨task,queued,queueing,onward,going⟩ := attended.kept _ row held paid done
        (.inr (awaited_iff.mpr ⟨k,d,delivering,rfl,ended⟩))
      have other : task ≠ d.task := by
        intro same
        cases (going k d delivering same.symm).symm.trans ended
      have still : (serve config s k (.acknowledge d.task .ok) c).1.queue.get? task = some queued := by
        simp [serve,fault,Store.get?_erase,other,queueing]
      exact .inr (.inl (onward_carries still onward (unmoved ▸ held) paid done))
  · obtain ⟨_,row,held,single,its⟩ := delivered_sealed inv delivering carries
    have blank : row.blobId = none := by
      by_contra paid
      cases single.symm.trans (attended.batched _ row held paid)
    obtain ⟨claim,current,le⟩ := its.later blank
    refine ⟨row,held,.inr (.inr ⟨token,carries,row,claim,held,current,?_⟩)⟩
    refine Nat.lt_of_le_of_ne le ?_
    rintro rfl
    exact attended.fenced k d token delivering carries fenced ⟨row,held,current⟩

end Served

theorem attended_start (config : Config) : Attended config {} where
  batched _ _ found := nomatch found
  tasks _ _ found := nomatch found
  fenced _ _ _ found := nomatch found
  ended _ _ found := nomatch found
  kept _ _ found := nomatch found

theorem Attended.abandoned (attended : Attended config s) : Attended config (abandon s k) where
  batched := attended.batched
  tasks j d found := attended.tasks j d (abandoned_delivery found).2
  fenced j d token found := attended.fenced j d token (abandoned_delivery found).2
  ended j d found := attended.ended j d (abandoned_delivery found).2
  kept job row found paid open_ waits := by
    have before : row.status = .uploaded ∨ awaited s.deliveries job = true := by
      refine waits.imp id ?_
      intro after
      obtain ⟨j,d,there,mine,ended⟩ := awaited_iff.mp after
      exact awaited_iff.mpr ⟨j,d,(abandoned_delivery there).2,mine,ended⟩
    obtain ⟨task,queued,there,onward,going⟩ := attended.kept job row found paid open_ before
    exact ⟨task,queued,there,onward,fun j d delivering => going j d (abandoned_delivery delivering).2⟩

theorem Attended.happened (inv : Consistent config s) (attended : Attended config s) (event : Event) :
    Attended config (happen s event) := by
  have grows := grows_happened inv event
  refine ⟨?_,?_,?_,?_,?_⟩
  · intro job after found paid
    rcases happened_row found with before | ⟨row,before,_,rfl⟩
    · exact attended.batched job after before paid
    · exact attended.batched job row before paid
  · intro j d found
    rw [happened_deliveries] at found
    rw [happened_queue]
    obtain ⟨old,same⟩ := attended.tasks j d found
    exact ⟨Nat.lt_of_lt_of_le old grows.drawn,same⟩
  · intro j d token found carries fenced
    rw [happened_deliveries] at found
    exact superseded_happened (attended.fenced j d token found carries fenced)
  · intro j d found ended
    rw [happened_deliveries] at found
    obtain ⟨row,held,paid⟩ := attended.ended j d found ended
    obtain ⟨after,there,later⟩ := grows.rows _ row held
    obtain ⟨blobId,recorded⟩ := Option.ne_none_iff_exists'.mp paid
    exact ⟨after,there,(later.blob blobId recorded).1 ▸ Option.some_ne_none blobId⟩
  · intro job after found paid open_ waits
    rw [happened_deliveries] at waits
    have kept : ∀ row, s.rows.get? job = some row → row.blobId ≠ none → row.status ≠ .done →
        row.status = .uploaded ∨ awaited s.deliveries job = true → Kept config (happen s event) job after := by
      intro row before recorded unfinished waiting
      obtain ⟨again,same,later⟩ := grows.rows job row before
      cases found.symm.trans same
      obtain ⟨task,queued,there,onward,going⟩ := attended.kept job row before recorded unfinished waiting
      refine ⟨task,queued,by rw [happened_queue]; exact there,onward.later recorded later,?_⟩
      rw [happened_deliveries]
      exact going
    rcases happened_row found with before | ⟨row,before,applies,rfl⟩
    · exact kept after before paid open_ waits
    · refine kept row before paid ?_ ?_
      · intro done
        simp [Statement.applies,done] at applies
      · exact waits.imp (fun other => by cases other) id

theorem stranded_served {jobs : List JobId} {blobId : BlobId} {blobObjectId : ObjectId} {d : Delivery} {token : Token}
    (inv : Consistent config s)
    (allowed : Allowed config s k (.update jobs (.persistUploadedState blobId blobObjectId))) (member : job ∈ jobs)
    (took : c.fault ≠ .before) (delivering : s.deliveries.get? k = some d)
    (carries : d.job.operation.prepareClaimToken = some token) :
    ¬ PaidCarried config (serve config s k (.update jobs (.persistUploadedState blobId blobObjectId)) c).1 := by
  obtain ⟨row,e,claim,preparation,blank,uploading,_⟩ := allowed job member
  cases delivering.symm.trans uploading.delivery
  obtain ⟨_,_,operation⟩ := uploading.operation
  have mine : d.job.operation.rememberJobId = job := congrArg WalletOperation.rememberJobId operation
  obtain ⟨_,its,held,single,_⟩ := delivered_sealed inv delivering carries
  rw [mine] at held
  cases held.symm.trans blank.found
  have landed : (serve config s k (.update jobs (.persistUploadedState blobId blobObjectId)) c).1.rows.get? job =
      some ((Statement.persistUploadedState blobId blobObjectId).apply s.clock row) :=
    update_lands took blank.found member rfl
  intro carried
  obtain ⟨task,queued,there,same,reaches⟩ := carried job _ landed rfl (Option.some_ne_none blobId)
  have queueing : s.queue.get? task = some queued := by
    rcases served_queue there with before | ⟨other,_⟩
    · exact before
    · cases other
  have pushed := inv.pushed queued (inv.queued task queued queueing).2
  have unrecorded : ∀ blobId, ¬ Recorded s job blobId := by
    intro blobId recorded
    obtain ⟨again,found,paid⟩ := recorded
    cases found.symm.trans blank.found
    cases paid.symm.trans blank.blank
  obtain ⟨walletIndex,operation⟩ := queued
  cases operation with
  | setMetadataAndTransfer object owner ns id blobId preparation =>
    cases same
    exact unrecorded blobId pushed
  | finalizeUploadedBlob owner ns id blobId vector size importance =>
    cases same
    exact unrecorded blobId pushed
  | uploadAndTransfer preparation owner ns id token =>
    cases same
    cases token with
    | none =>
      obtain ⟨again,found,source⟩ := (pushed : Prepared config s id none preparation)
      cases found.symm.trans blank.found
      rcases source with paid | ⟨batched,_⟩
      · exact paid blank.blank
      · cases single.symm.trans batched
    | some token =>
      have fenced : ∀ t : System, t.queue.get? task = some ⟨walletIndex,.uploadAndTransfer preparation owner ns id
          (some token)⟩ → t.rows.get? id =
            some ((Statement.persistUploadedState blobId blobObjectId).apply s.clock row) →
          ¬ GetsTo config 0 (Toward config id ((Statement.persistUploadedState blobId blobObjectId).apply s.clock row))
            (walletWorker config task 1) t :=
        fun _ there found => fenced_reaches there found rfl
      refine fenced _ ?_ ?_ (reaches 0 1)
      · exact there
      · exact landed

section Runs
variable {moves : Moves}

theorem attended_at (careful : ∀ i worker op c, Serves config moves i worker op c →
    keepsPaid config (state config moves i) worker op c = true) (i : Nat) : Attended config (state config moves i) :=
  holds (K:=fun s worker op c => keepsPaid config s worker op c = true) (attended_start config) careful
    (fun _ _ _ _ inv allowed given attended => attended_served inv allowed given attended)
    (fun _ _ _ attended => attended.abandoned) (fun _ event inv attended => attended.happened inv event) i

end Runs

theorem paid_blobs_carried (config : Config) (moves : Moves) :
    ((∀ i worker op c, Serves config moves i worker op c → keepsPaid config (state config moves i) worker op c = true) →
      NeverStranded config moves) ∧
    ∀ i worker jobs job blobId blobObjectId c d token,
      Serves config moves i worker (.update jobs (.persistUploadedState blobId blobObjectId)) c → job ∈ jobs →
        c.fault ≠ .before → (state config moves i).deliveries.get? worker = some d →
          d.job.operation.prepareClaimToken = some token → ¬ PaidCarried config (state config moves (i+1)) := by
  refine ⟨?_,?_⟩
  · intro careful
    refine ⟨?_,?_⟩
    · intro i job row found uploaded paid
      have open_ : row.status ≠ .done := by
        rw [uploaded]
        exact nofun
      obtain ⟨task,queued,there,onward,_⟩ := (attended_at careful i).kept job row found paid open_ (.inl uploaded)
      exact onward_carries there onward found paid open_
    · intro i worker task c d serves fault delivering
      rw [serves.next]
      exact settled_served (consistent_at config moves i) serves.allowed (careful i worker _ c serves)
        (attended_at careful i) rfl fault delivering
  · intro i worker jobs job blobId blobObjectId c d token serves member took delivering carries
    rw [serves.next]
    exact stranded_served (consistent_at config moves i) serves.allowed member took delivering carries

-- The upload of a fact is recorded, and its worker dies. The second attempt hands the
-- transfer on, which finishes the row.
def resumedRun : Moves :=
  uploadRun ++ .crash 1 :: .spawn 7 (.wallet 1 2) :: turns 7 6 ++ .spawn 8 (.wallet 7 1) :: turns 8 5

theorem paid_blobs_carried_resumed :
    (∃ row, (state sampleConfig resumedRun 70).rows.get? 0 = some row ∧ row.status = .uploaded ∧
      Carried sampleConfig (state sampleConfig resumedRun 70) 0 row) ∧
    Settled sampleConfig (state sampleConfig resumedRun 77)
      (.uploadAndTransfer ⟨[0],[0],50,"account","key"⟩ "owner" "ns" 0 none) ∧
    ((state sampleConfig resumedRun 83).rows.get? 0).map Row.status = some .done := by
  obtain ⟨carried,settled⟩ := (paid_blobs_carried sampleConfig resumedRun).1
    (given_of_checks (K:=keepsPaid sampleConfig) (by decide +kernel))
  refine ⟨?_,?_,by decide +kernel⟩
  · have paid : ((state sampleConfig resumedRun 70).rows.get? 0).map (fun row => (row.status,row.blobId)) =
        some (.uploaded,some ⟨[0]⟩) := by decide +kernel
    obtain ⟨row,found,its⟩ := Option.map_eq_some_iff.mp paid
    obtain ⟨uploaded,recorded⟩ := Prod.mk.inj its
    exact ⟨row,found,uploaded,carried 70 0 row found uploaded (recorded ▸ Option.some_ne_none _)⟩
  · have delivering : ((state sampleConfig resumedRun 76).deliveries.get? 7).map (fun d => d.job.operation) =
        some (.uploadAndTransfer ⟨[0],[0],50,"account","key"⟩ "owner" "ns" 0 none) := by decide +kernel
    obtain ⟨d,there,operation⟩ := Option.map_eq_some_iff.mp delivering
    rw [← operation]
    exact settled 76 7 1 {} d ⟨.step 7 {},rfl,by decide +kernel⟩ rfl there

-- A request with a claim goes on to the certified step, which clears its token.
def certifiedRun : Moves :=
  encodedRun ++ .spawn 4 (.sidecar 5) :: turns 4 7 ++ turns 2 3 ++
  .spawn 5 (.sidecar 6) :: turns 5 6 ++ .step 5 {outcome := ⟨true,[7]⟩} :: turns 5 2 ++ turns 2 3 ++
  .spawn 6 (.sidecar 7) :: turns 6 7 ++ turns 2 3 ++
  .spawn 7 (.sidecar 8) :: turns 7 5 ++ .step 7 {number := 1} :: turns 7 1 ++ turns 2 3

-- The worker dies before it hands the transfer on. The next delivery is fenced out and
-- acknowledged Ok.
def strandedRun : Moves := certifiedRun ++ .crash 2 :: .spawn 8 (.wallet 3 2) :: turns 8 3

theorem paid_blob_stranded : ¬ NeverStranded sampleConfig strandedRun := by
  intro never
  have paid : ((state sampleConfig strandedRun 83).rows.get? 0).map (fun row => (row.status,row.blobId)) =
      some (.uploaded,some ⟨[0,0]⟩) := by decide +kernel
  obtain ⟨row,found,its⟩ := Option.map_eq_some_iff.mp paid
  obtain ⟨uploaded,recorded⟩ := Prod.mk.inj its
  obtain ⟨task,queued,there,_⟩ := never.1 83 0 row found uploaded (recorded ▸ Option.some_ne_none _)
  have empty : (state sampleConfig strandedRun 83).queue = .empty := by decide +kernel
  rw [empty] at there
  cases there

end MemWal.Remember
