import MemWal.Remember.Order

namespace MemWal.Remember
open Library

variable {config : Config} {s : System}

-- What a statement may do to one row; `holder`: it is run under the row's lock.
structure RowStep (config : Config) (s : System) (bound : Nat) (holder : Prop) (job : JobId) (row next : Row) :
    Prop where
  sound : RowSound bound next
  later : RowLater row next
  held : ¬holder → RowHeld row next
  sealed : ∀ token, token < s.nextId → SealedRow config row token → SealedRow config next token
  remembers : ∀ id request transaction, s.requests.get? id = some request → request.jobId = job →
    request.registerTransaction = some transaction → Remembers s row transaction → Remembers s next transaction

theorem RowSound.later {bound more : Nat} {row : Row} (sound : RowSound bound row) (le : bound ≤ more) :
    RowSound more row :=
  ⟨sound.done,fun token claimed => Nat.lt_of_lt_of_le (sound.drawn token claimed) le,sound.paid,sound.batched⟩

theorem RowStep.refl {bound : Nat} {holder : Prop} {job : JobId} {row : Row} (sound : RowSound s.nextId row)
    (le : s.nextId ≤ bound) : RowStep config s bound holder job row row :=
  ⟨sound.later le,.refl row,fun _ => .refl row,fun _ _ kept => kept,fun _ _ _ _ _ _ kept => kept⟩

-- Statements that leave the blob, the claim, the preparation and the journal alone.
theorem RowStep.quiet {bound : Nat} {holder : Prop} {job : JobId} {row next : Row} (sound : RowSound s.nextId row)
    (le : s.nextId ≤ bound) (owner : next.owner = row.owner) (key : next.idempotencyKey = row.idempotencyKey)
    (batched : next.batched = row.batched) (blob : next.blobId = row.blobId)
    (object : next.blobObjectId = row.blobObjectId)
    (token : next.prepareClaimToken = row.prepareClaimToken) (preparation : next.preparation = row.preparation)
    (journal : next.journal = row.journal) (done : next.status = .done → row.status = .done) :
    RowStep config s bound holder job row next := by
  refine ⟨⟨?_,?_,?_,?_⟩,⟨owner,key,batched,?_,fun _ => object,fun _ => journal⟩,
    fun _ => ⟨journal,fun blank => blob.trans blank⟩,?_,?_⟩
  · intro finished
    rw [blob]
    exact sound.done (done finished)
  · intro claim current
    exact Nat.lt_of_lt_of_le (sound.drawn claim (token.symm.trans current)) le
  · intro paid
    rw [blob] at paid
    exact token.trans (sound.paid paid)
  · intro yes
    obtain ⟨none_,unprepared,keyless⟩ := sound.batched (batched.symm.trans yes)
    exact ⟨token.trans none_,preparation.trans unprepared,key.trans keyless⟩
  · intro blobId present
    exact ⟨blob.trans present,preparation⟩
  · intro claim _ kept
    refine ⟨?_,?_⟩
    · intro current
      rw [preparation]
      exact kept.current (token.symm.trans current)
    · intro blank
      rw [token]
      exact kept.later (blob.symm.trans blank)
  · intro id request transaction _ _ _ remembers
    unfold Remembers
    rw [journal]
    exact remembers

-- The journal advances from what was asked and what was answered.
theorem advances_remembered {row : Row} {request : DurableUploadRequest} {response : DurableUploadResponse}
    {next : UploadJournal} {transaction : PreparedRegisterTransaction}
    (asks : Asks row.journal request) (fits : Fits config s request response)
    (follows : Follows row.journal response next) (remembers : Remembers s row transaction) :
    ∃ step blobObjectId, next.resumeStep = some step ∧ step.blobObjectId = some blobObjectId ∧
      Created s transaction.digest blobObjectId := by
  obtain ⟨step,resume,kept⟩ := remembers
  have asked : request.resumeStep = some step := asks.resumeStep.trans resume
  rcases kept with ⟨encoded,registered⟩ | ⟨blobObjectId,object,created⟩
  · cases step with
    | registered b o d => cases encoded
    | uploaded b o c => cases encoded
    | certified b o => cases encoded
    | encoded b nonce =>
      have sent : request.registerTransaction = some transaction := by
        rw [asks.registerTransaction,resume,registered]
        rfl
      unfold Fits at fits
      rw [asked] at fits
      simp only [WriteBlobStep.blobObjectId,sent] at fits
      obtain ⟨blobObjectId,created,answer⟩ := fits
      obtain ⟨advanced,_⟩ := follows.step (.registered (config.sdk.blobId request.data) blobObjectId transaction.digest)
        (by rw [answer]; rfl)
      exact ⟨_,blobObjectId,advanced,rfl,created⟩
  · unfold Fits at fits
    rw [asked] at fits
    simp only [object] at fits
    obtain ⟨reached,answer,_,same⟩ := fits
    obtain ⟨advanced,_⟩ := follows.step reached (by rw [answer]; rfl)
    exact ⟨reached,blobObjectId,advanced,same,created⟩

-- Every allowed statement does to a row what a row can count on.
theorem rowStep_of_allowed {worker : Nat} {job : JobId} {row : Row} {statement : Statement}
    (inv : Consistent config s) (found : s.rows.get? job = some row)
    (allowed : AllowedStatement config s worker job statement) (applies : statement.applies s.clock row = true) :
    RowStep config s s.nextId (s.locks.get? job = some worker) job row (statement.apply s.clock row) := by
  have sound := inv.rows job row found
  have le := Nat.le_refl s.nextId
  cases statement with
  | consumePreparationClaim token => exact .quiet sound le rfl rfl rfl rfl rfl rfl rfl rfl (fun done => nomatch done)
  | markRunning => exact .quiet sound le rfl rfl rfl rfl rfl rfl rfl rfl (fun done => nomatch done)
  | markFailed => exact .quiet sound le rfl rfl rfl rfl rfl rfl rfl rfl (fun done => nomatch done)
  | markPreparationFailed token => exact .quiet sound le rfl rfl rfl rfl rfl rfl rfl rfl (fun done => nomatch done)
  | publishPaidRecovery token => exact .quiet sound le rfl rfl rfl rfl rfl rfl rfl rfl (fun done => nomatch done)
  | afterWalletError aborts =>
    refine .quiet sound le rfl rfl rfl rfl rfl rfl rfl rfl ?_
    intro done
    cases aborts <;> cases done
  | claimPreparation token => cases allowed
  | claimPaidRecovery token => cases allowed
  | failStale => cases allowed
  | persistPreparation token preparation =>
    have current : row.prepareClaimToken = some token := by simpa [Statement.applies] using applies
    refine ⟨⟨sound.done,sound.drawn,sound.paid,?_⟩,⟨rfl,rfl,rfl,?_,fun _ => rfl,fun _ => rfl⟩,
      fun _ => ⟨rfl,fun blank => blank⟩,?_,fun _ _ _ _ _ _ kept => kept⟩
    · intro batched
      rw [(sound.batched batched).1] at current
      cases current
    · intro blobId present
      have unclaimed := sound.paid (present ▸ Option.some_ne_none _)
      rw [unclaimed] at current
      cases current
    · intro claim _ kept
      refine ⟨?_,kept.later⟩
      intro held
      cases current.symm.trans held
      exact ⟨preparation,rfl,allowed⟩
  | persistUploadJournal next =>
    obtain ⟨known,d,token,preparation,id,request,response,blank,_,_,_,_,asks,answered,follows⟩ := allowed
    cases found.symm.trans blank.found
    obtain ⟨again,sent,fits⟩ := inv.answers id response answered
    have same : again = request := by
      rename_i asked _ _
      exact Option.some.inj (sent.symm.trans asked)
    subst same
    refine ⟨⟨sound.done,sound.drawn,sound.paid,sound.batched⟩,⟨rfl,rfl,rfl,fun _ present => ⟨present,rfl⟩,fun _ => rfl,
      fun paid => absurd blank.blank paid⟩,?_,fun _ _ kept => ⟨kept.current,kept.later⟩,?_⟩
    · intro free
      exact absurd blank.lock free
    · intro other asked transaction _ _ _ remembers
      obtain ⟨step,blobObjectId,advanced,object,created⟩ := advances_remembered asks fits follows remembers
      exact ⟨step,advanced,.inr ⟨blobObjectId,object,created⟩⟩
  | persistUploadedState blobId blobObjectId =>
    obtain ⟨known,d,token,preparation,blank,_,_⟩ := allowed
    cases found.symm.trans blank.found
    refine ⟨⟨?_,?_,fun _ => rfl,?_⟩,⟨rfl,rfl,rfl,?_,fun paid => absurd blank.blank paid,fun _ => rfl⟩,
      fun free => absurd blank.lock free,?_,fun _ _ _ _ _ _ kept => kept⟩
    · intro done
      cases done
    · intro claim current
      cases current
    · intro batched
      exact ⟨rfl,(sound.batched batched).2⟩
    · intro other present
      rw [blank.blank] at present
      cases present
    · intro claim _ _
      refine ⟨?_,?_⟩
      · intro current
        cases current
      · intro unpaid
        cases unpaid
  | markDone blobId =>
    obtain ⟨⟨known,there,recorded⟩,_⟩ := allowed
    cases found.symm.trans there
    refine ⟨⟨fun _ => Option.some_ne_none _,?_,fun _ => rfl,?_⟩,⟨rfl,rfl,rfl,?_,fun _ => rfl,fun _ => rfl⟩,fun _ => ⟨rfl,?_⟩,?_,
      fun _ _ _ _ _ _ kept => kept⟩
    · intro claim current
      cases current
    · intro batched
      exact ⟨rfl,(sound.batched batched).2⟩
    · intro other present
      exact ⟨recorded.symm.trans present,rfl⟩
    · intro blank
      rw [recorded] at blank
      cases blank
    · intro claim _ _
      refine ⟨?_,?_⟩
      · intro current
        cases current
      · intro unpaid
        cases unpaid

-- A new claim replaces the old one; its token was never seen before.
theorem rowStep_of_claim {holder : Prop} {job : JobId} {row : Row} (inv : Consistent config s)
    (found : s.rows.get? job = some row) (single : row.batched = false)
    (applies : (Statement.claimPreparation s.nextId).applies s.clock row = true) :
    RowStep config s (s.nextId+1) holder job row ((Statement.claimPreparation s.nextId).apply s.clock row) := by
  have sound := inv.rows job row found
  have blank : row.blobId = none := by
    simp only [Statement.applies,Bool.decide_and,Bool.and_eq_true,decide_eq_true_eq] at applies
    exact applies.1
  refine ⟨⟨?_,?_,?_,?_⟩,⟨rfl,rfl,rfl,?_,fun _ => rfl,fun _ => rfl⟩,fun _ => ⟨rfl,fun same => same⟩,?_,
    fun _ _ _ _ _ _ kept => kept⟩
  · intro done
    have before : row.status = .done := by
      simp only [Statement.apply] at done
      split at done
      · cases done
      · exact done
    exact sound.done before
  · intro claim current
    cases current
    exact Nat.lt_succ_self _
  · intro paid
    exact absurd blank paid
  · intro batched
    exact absurd (single.symm.trans batched) Bool.false_ne_true
  · intro blobId present
    rw [blank] at present
    cases present
  · intro claim below _
    refine ⟨?_,fun _ => ⟨s.nextId,rfl,Nat.le_of_lt below⟩⟩
    intro current
    cases current
    exact absurd below (Nat.lt_irrefl _)

-- From rows to the system

section Moved
variable {rows : Store JobId Row} {bound : Nat} {holder : JobId → Prop}

-- Every row has moved by a row step; no row is new or gone.
structure Moved (config : Config) (s : System) (rows : Store JobId Row) (bound : Nat) (holder : JobId → Prop) :
    Prop where
  le : s.nextId ≤ bound
  forth : ∀ job row, s.rows.get? job = some row →
    ∃ after, rows.get? job = some after ∧ RowStep config s bound (holder job) job row after
  back : ∀ job after, rows.get? job = some after → ∃ row, s.rows.get? job = some row

theorem Moved.row (moved : Moved config s rows bound holder) {job : JobId} {after : Row}
    (found : rows.get? job = some after) :
    ∃ row, s.rows.get? job = some row ∧ RowStep config s bound (holder job) job row after := by
  obtain ⟨row,there⟩ := moved.back job after found
  obtain ⟨again,same,step⟩ := moved.forth job row there
  cases found.symm.trans same
  exact ⟨row,there,step⟩

theorem Moved.grows (moved : Moved config s rows bound holder) :
    Grows config s {s with
      rows := rows
      nextId := bound} := by
  refine ⟨moved.le,?_,?_,fun _ _ held => held,fun _ _ held => held,fun _ _ held => held⟩
  · intro job row found
    obtain ⟨after,there,step⟩ := moved.forth job row found
    exact ⟨after,there,step.later⟩
  · intro job token given
    obtain ⟨below,row,found,single,kept⟩ := given
    obtain ⟨after,there,step⟩ := moved.forth job row found
    exact ⟨Nat.lt_of_lt_of_le below moved.le,after,there,step.later.batched.trans single,step.sealed token below kept⟩

theorem Moved.later (moved : Moved config s rows bound holder) {j : Nat}
    (free : ∀ job, s.locks.get? job = some j → ¬holder job) :
    Later config j s {s with
      rows := rows
      nextId := bound} := by
  refine ⟨moved.grows,rfl,fun _ => Iff.rfl,?_⟩
  intro job row after lock found there
  obtain ⟨again,same,step⟩ := moved.forth job row found
  cases there.symm.trans same
  exact step.held (free job lock)

theorem Moved.consistent (moved : Moved config s rows bound holder) (inv : Consistent config s) :
    Consistent config {s with
      rows := rows
      nextId := bound} := by
  have grows := moved.grows
  refine ⟨?_,?_,?_,?_,?_,inv.delivered,?_,?_,?_,inv.oneRegister,?_,inv.submitted⟩
  · intro job after found
    obtain ⟨row,_,step⟩ := moved.row found
    exact step.sound
  · intro one other a b key first second owners keyed again
    obtain ⟨x,before,stepped⟩ := moved.row first
    obtain ⟨y,prior,moved⟩ := moved.row second
    refine inv.keys one other x y key before prior ?_ (stepped.later.key.symm.trans keyed)
      (moved.later.key.symm.trans again)
    exact (stepped.later.owner.symm.trans owners).trans moved.later.owner
  · intro owner key job member
    obtain ⟨row,found,mine,keyed⟩ := inv.accepted owner key job member
    obtain ⟨after,there,later⟩ := grows.rows job row found
    exact ⟨after,there,later.owner.trans mine,later.key.trans keyed⟩
  · exact fun job member => Pushed.stays grows (inv.pushed job member)
  · intro task job present
    obtain ⟨below,member⟩ := inv.queued task job present
    exact ⟨Nat.lt_of_lt_of_le below moved.le,member⟩
  · exact fun task job present => BulkSound.stays grows (inv.bulk task job present)
  · exact fun id task present => TaskSound.stays grows (inv.tasks id task present)
  · intro id request sent
    obtain ⟨below,remembered⟩ := inv.requests id request sent
    refine ⟨Nat.lt_of_lt_of_le below moved.le,?_⟩
    intro transaction register
    obtain ⟨row,found,remembers⟩ := remembered transaction register
    obtain ⟨after,there,step⟩ := moved.forth _ row found
    exact ⟨after,there,step.remembers id request transaction sent rfl register remembers⟩
  · intro id response answered
    obtain ⟨request,sent,fits⟩ := inv.answers id response answered
    exact ⟨request,sent,Fits.stays grows fits⟩

-- `UPDATE`
theorem moved_execute {jobs : List JobId} {statement : Statement} (inv : Consistent config s) (le : s.nextId ≤ bound)
    (steps : ∀ job row, s.rows.get? job = some row → job ∈ jobs → statement.applies s.clock row = true →
      RowStep config s bound (holder job) job row (statement.apply s.clock row)) :
    Moved config s (s.execute jobs statement).rows bound holder := by
  refine ⟨le,?_,?_⟩
  · intro job row found
    refine ⟨_,by rw [System.execute,Store.get?_update,found]; rfl,?_⟩
    dsimp only
    split
    · rename_i hit
      simp only [System.matching,Bool.and_eq_true,decide_eq_true_eq] at hit
      exact steps job row found hit.1 hit.2
    · exact .refl (inv.rows job row found) le
  · intro job after found
    rw [System.execute,Store.get?_update,Option.map_eq_some_iff] at found
    obtain ⟨row,there,_⟩ := found
    exact ⟨row,there⟩

end Moved

-- A call leaves a consistent system in which every other worker finds what it
-- counts on.
structure Steps (config : Config) (worker : Nat) (s next : System) : Prop where
  consistent : Consistent config next
  others : ∀ j, j ≠ worker → Later config j s next

section Calls
variable {worker : Nat} {next : System} (inv : Consistent config s)

theorem Steps.trans {middle : System} (first : Steps config worker s middle)
    (second : Steps config worker middle next) : Steps config worker s next :=
  ⟨second.consistent,fun j other => (first.others j other).trans (second.others j other)⟩

theorem Steps.of_later (consistent : Consistent config next) (later : ∀ j, Later config j s next) :
    Steps config worker s next := ⟨consistent,fun j _ => later j⟩

include inv

theorem Steps.refl : Steps config worker s s := .of_later inv (fun j => .refl j s)

theorem Steps.faulty {α : Type} {fault : Fault} {answer : α} (steps : Steps config worker s next) :
    Steps config worker s (s.faulty fault next answer).1 := by
  cases fault with
  | none => exact steps
  | before => exact .refl inv
  | after => exact steps

theorem Steps.note {f : Delivery → Delivery} (same : ∀ d, (f d).job = d.job) :
    Steps config worker s (s.note worker f) := by
  refine ⟨⟨inv.rows,inv.keys,inv.accepted,inv.pushed,inv.queued,?_,inv.bulk,inv.tasks,inv.requests,
    inv.oneRegister,inv.answers,inv.submitted⟩,?_⟩
  · intro k d found
    rw [System.note,Store.modify,Store.get?_map,Option.map_eq_some_iff] at found
    obtain ⟨old,there,rfl⟩ := found
    have member := inv.delivered k old there
    split
    · rw [same]
      exact member
    · exact member
  · intro j other
    refine ⟨⟨Nat.le_refl _,fun _ row found => ⟨row,found,.refl row⟩,fun _ _ held => held,fun _ _ held => held,
      fun _ _ held => held,fun _ _ held => held⟩,?_,fun _ => Iff.rfl,?_⟩
    · rw [System.note,Store.modify,Store.get?_map]
      simp [other]
    · intro job row after _ found there
      cases found.symm.trans there
      exact .refl row

theorem moved_drawn : Moved config s s.rows (s.nextId+1) (fun _ => True) :=
  ⟨Nat.le_succ _,fun job row found => ⟨row,found,.refl (inv.rows job row found) (Nat.le_succ _)⟩,
    fun _ after found => ⟨after,found⟩⟩

theorem later_drawn (j : Nat) : Later config j s s.drawn := by
  refine ⟨(moved_drawn inv).grows,rfl,fun _ => Iff.rfl,?_⟩
  intro job row after _ found there
  cases found.symm.trans there
  exact .refl row

theorem Steps.drawn : Steps config worker s s.drawn :=
  .of_later ((moved_drawn inv).consistent inv) (later_drawn inv)

theorem Steps.execute {jobs : List JobId} {statement : Statement}
    (allowed : ∀ job ∈ jobs, AllowedStatement config s worker job statement) :
    Steps config worker s (s.execute jobs statement) := by
  have moved : Moved config s (s.execute jobs statement).rows s.nextId (fun job => s.locks.get? job = some worker) :=
    moved_execute inv (Nat.le_refl _)
      (fun job row found member applies => rowStep_of_allowed inv found (allowed job member) applies)
  refine ⟨moved.consistent inv,fun j other => moved.later ?_⟩
  intro job mine theirs
  exact other (Option.some.inj (mine.symm.trans theirs))

theorem Steps.claim {job : JobId} (single : Single s job) :
    Steps config worker s (s.execute [job] (.claimPreparation s.nextId)).drawn := by
  have moved : Moved config s (s.execute [job] (.claimPreparation s.nextId)).rows (s.nextId+1) (fun _ => False) := by
    refine moved_execute inv (Nat.le_succ _) ?_
    intro other row found member applies
    cases List.mem_singleton.mp member
    obtain ⟨again,there,no⟩ := single
    cases found.symm.trans there
    exact rowStep_of_claim inv found no applies
  exact .of_later (moved.consistent inv) (fun j => moved.later (fun _ _ impossible => impossible))

theorem Steps.claimPaid {job : JobId} :
    Steps config worker s (s.execute [job] (.claimPaidRecovery s.nextId)).drawn := by
  have moved : Moved config s (s.execute [job] (.claimPaidRecovery s.nextId)).rows (s.nextId+1) (fun _ => False) := by
    refine moved_execute inv (Nat.le_succ _) ?_
    intro other row found _ _
    exact .quiet (inv.rows other row found) (Nat.le_succ _) rfl rfl rfl rfl rfl rfl rfl rfl (fun done => done)
  exact .of_later (moved.consistent inv) (fun j => moved.later (fun _ _ impossible => impossible))

theorem steps_failStale (jobs : List JobId) :
    Consistent config (s.execute jobs .failStale) ∧ ∀ j, Later config j s (s.execute jobs .failStale) := by
  have moved : Moved config s (s.execute jobs .failStale).rows s.nextId (fun _ => False) := by
    refine moved_execute inv (Nat.le_refl _) ?_
    intro other row found _ _
    exact .quiet (inv.rows other row found) (Nat.le_refl _) rfl rfl rfl rfl rfl rfl rfl rfl (fun done => nomatch done)
  exact ⟨moved.consistent inv,fun j => moved.later (fun _ _ impossible => impossible)⟩

omit inv in
-- The rows, what was sent and the chain are as they were.
theorem later_same {j : Nat} (rows : next.rows = s.rows) (nextId : next.nextId = s.nextId)
    (requests : next.requests = s.requests) (answers : next.answers = s.answers)
    (executed : next.executed = s.executed) (deliveries : next.deliveries.get? j = s.deliveries.get? j)
    (locks : ∀ job, next.locks.get? job = some j ↔ s.locks.get? job = some j) : Later config j s next := by
  refine ⟨⟨Nat.le_of_eq nextId.symm,?_,?_,fun _ _ held => requests ▸ held,fun _ _ held => answers ▸ held,
    fun _ _ held => executed ▸ held⟩,deliveries,locks,?_⟩
  · intro job row found
    exact ⟨row,rows ▸ found,.refl row⟩
  · intro job token given
    obtain ⟨below,row,found,rest⟩ := given
    exact ⟨nextId ▸ below,row,rows ▸ found,rest⟩
  · intro job row after _ found there
    rw [rows] at there
    cases found.symm.trans there
    exact .refl row

theorem Steps.insert {job : JobId} {row : Row} (fresh : s.rows.get? job = none) (unused : s.keyTaken row = false)
    (new : NewRow row) (bound : Nat) :
    Steps config worker s {s with rows := s.rows.insert job {row with updatedAt := bound}} := by
  have old : ∀ other found, s.rows.get? other = some found →
      (s.rows.insert job {row with updatedAt := bound}).get? other = some found := by
    intro other found there
    rw [Store.get?_insert _ fresh,if_neg,there]
    intro same
    rw [same,fresh] at there
    cases there
  have grows : Grows config s {s with rows := s.rows.insert job {row with updatedAt := bound}} := by
    refine ⟨Nat.le_refl _,fun other found there => ⟨found,old other found there,.refl found⟩,?_,
      fun _ _ held => held,fun _ _ held => held,fun _ _ held => held⟩
    intro other token given
    obtain ⟨below,found,there,rest⟩ := given
    exact ⟨below,found,old other found there,rest⟩
  have free : ∀ other found, s.rows.get? other = some found → ∀ key, found.owner = row.owner →
      found.idempotencyKey = some key → row.idempotencyKey ≠ some key := by
    intro other found there key owner keyed mine
    simp only [System.keyTaken,mine,System.findByKey,Option.isSome_eq_false_iff,Option.isNone_iff_eq_none,
      List.find?_eq_none] at unused
    exact unused _ (Store.get?_eq_some.mp there) (decide_eq_true ⟨owner,keyed⟩)
  have cases_ : ∀ other found, (s.rows.insert job {row with updatedAt := bound}).get? other = some found →
      (other = job ∧ found = {row with updatedAt := bound}) ∨ s.rows.get? other = some found := by
    intro other found there
    rw [Store.get?_insert _ fresh] at there
    split at there
    · rename_i same
      exact .inl ⟨same,(Option.some.inj there).symm⟩
    · exact .inr there
  refine .of_later ⟨?_,?_,?_,fun one member => Pushed.stays grows (inv.pushed one member),inv.queued,inv.delivered,
    fun task one present => BulkSound.stays grows (inv.bulk task one present),
    fun id task present => TaskSound.stays grows (inv.tasks id task present),?_,inv.oneRegister,?_,inv.submitted⟩ ?_
  · intro other found there
    rcases cases_ other found there with ⟨rfl,rfl⟩ | prior
    · refine ⟨fun done => ?_,fun token current => ?_,fun _ => new.unclaimed,
        fun batched => ⟨new.unclaimed,new.unprepared,new.keyless batched⟩⟩
      · cases new.pending.symm.trans done
      · cases new.unclaimed.symm.trans current
    · exact inv.rows other found prior
  · intro one other a b key first second owners keyed again
    rcases cases_ one a first with ⟨rfl,rfl⟩ | before
    · rcases cases_ other b second with ⟨rfl,rfl⟩ | prior
      · rfl
      · exact absurd keyed (free other b prior key owners.symm again)
    · rcases cases_ other b second with ⟨rfl,rfl⟩ | prior
      · exact absurd again (free one a before key owners keyed)
      · exact inv.keys one other a b key before prior owners keyed again
  · intro owner key one member
    obtain ⟨found,there,mine⟩ := inv.accepted owner key one member
    exact ⟨found,old one found there,mine⟩
  · intro id request sent
    obtain ⟨below,remembered⟩ := inv.requests id request sent
    refine ⟨below,fun transaction register => ?_⟩
    obtain ⟨found,there,remembers⟩ := remembered transaction register
    exact ⟨found,old _ found there,remembers⟩
  · intro id response answered
    obtain ⟨request,sent,fits⟩ := inv.answers id response answered
    exact ⟨request,sent,Fits.stays grows fits⟩
  · intro j
    refine ⟨grows,rfl,fun _ => Iff.rfl,?_⟩
    intro other found after _ there later
    cases (old other found there).symm.trans later
    exact .refl found

theorem Steps.locks {locks : Store JobId Nat}
    (others : ∀ j, j ≠ worker → ∀ job, locks.get? job = some j ↔ s.locks.get? job = some j) :
    Steps config worker s {s with locks := locks} :=
  ⟨⟨inv.rows,inv.keys,inv.accepted,inv.pushed,inv.queued,inv.delivered,inv.bulk,inv.tasks,inv.requests,
    inv.oneRegister,inv.answers,inv.submitted⟩,
    fun j other => later_same rfl rfl rfl rfl rfl rfl (others j other)⟩

theorem Steps.abandon : Steps config worker s (abandon s worker) := by
  refine ⟨⟨inv.rows,inv.keys,inv.accepted,inv.pushed,inv.queued,?_,inv.bulk,inv.tasks,inv.requests,
    inv.oneRegister,inv.answers,inv.submitted⟩,?_⟩
  · intro k d found
    simp only [Remember.abandon,Store.get?_erase] at found
    split at found
    · cases found
    · exact inv.delivered k d found
  · intro j other
    refine later_same rfl rfl rfl rfl rfl ?_ ?_
    · simp [Remember.abandon,Store.get?_erase,other]
    · intro job
      simp [Remember.abandon,Store.get?_keep,other]

theorem Steps.push {job : WalletJob} (pushed : Pushed config s job.operation) :
    Steps config worker s {s.drawn with
      queue := s.queue.upsert s.nextId job
      pushed := s.pushed ++ [job]} := by
  have drawn : Consistent config s.drawn := (moved_drawn inv).consistent inv
  have grows := (later_drawn inv worker).toGrows
  refine .of_later ⟨drawn.rows,drawn.keys,drawn.accepted,?_,?_,?_,drawn.bulk,drawn.tasks,drawn.requests,
    drawn.oneRegister,drawn.answers,drawn.submitted⟩
    (fun j => (later_drawn inv j).trans (later_same rfl rfl rfl rfl rfl rfl (fun _ => Iff.rfl)))
  · intro one member
    rcases List.mem_append.mp member with old | new
    · exact drawn.pushed one old
    · cases List.mem_singleton.mp new
      exact Pushed.stays grows pushed
  · intro task one present
    simp only [Store.get?_upsert] at present
    split at present
    · rename_i same
      cases present
      subst same
      exact ⟨Nat.lt_succ_self s.nextId,List.mem_append_right _ (List.mem_singleton.mpr rfl)⟩
    · obtain ⟨below,member⟩ := drawn.queued task one present
      exact ⟨below,List.mem_append_left _ member⟩
  · intro k d delivering
    exact List.mem_append_left _ (inv.delivered k d delivering)

theorem Steps.fetch {task : Nat} {job : WalletJob} {d : Delivery} (queued : s.queue.get? task = some job)
    (same : d.job = job) : Steps config worker s {s with deliveries := s.deliveries.upsert worker d} := by
  refine ⟨⟨inv.rows,inv.keys,inv.accepted,inv.pushed,inv.queued,?_,inv.bulk,inv.tasks,inv.requests,
    inv.oneRegister,inv.answers,inv.submitted⟩,?_⟩
  · intro k other found
    simp only [Store.get?_upsert] at found
    split at found
    · cases found
      rw [same]
      exact (inv.queued task job queued).2
    · exact inv.delivered k other found
  · intro j other
    refine later_same rfl rfl rfl rfl rfl ?_ (fun _ => Iff.rfl)
    simp [Store.get?_upsert,other]

theorem Steps.endDelivery {queue : Store Nat WalletJob}
    (fewer : ∀ task job, queue.get? task = some job → s.queue.get? task = some job) :
    Steps config worker s {s with
      deliveries := s.deliveries.erase worker
      queue := queue} := by
  refine ⟨⟨inv.rows,inv.keys,inv.accepted,inv.pushed,fun task job present => inv.queued task job (fewer task job present),
    ?_,inv.bulk,inv.tasks,inv.requests,inv.oneRegister,inv.answers,inv.submitted⟩,?_⟩
  · intro k d found
    simp only [Store.get?_erase] at found
    split at found
    · cases found
    · exact inv.delivered k d found
  · intro j other
    refine later_same rfl rfl rfl rfl rfl ?_ (fun _ => Iff.rfl)
    simp [Store.get?_erase,other]

theorem Steps.bulkQueue {queue : Store Nat BulkRememberJob}
    (sound : ∀ task job, queue.get? task = some job → BulkSound config s job) :
    Steps config worker s {s with bulkQueue := queue} :=
  .of_later ⟨inv.rows,inv.keys,inv.accepted,inv.pushed,inv.queued,inv.delivered,sound,inv.tasks,inv.requests,
    inv.oneRegister,inv.answers,inv.submitted⟩ (fun _ => later_same rfl rfl rfl rfl rfl rfl (fun _ => Iff.rfl))

theorem Steps.tasks {tasks : Store Nat Task} (sound : ∀ id task, tasks.get? id = some task → TaskSound s task) :
    Steps config worker s {s with tasks := tasks} :=
  .of_later ⟨inv.rows,inv.keys,inv.accepted,inv.pushed,inv.queued,inv.delivered,inv.bulk,sound,inv.requests,
    inv.oneRegister,inv.answers,inv.submitted⟩ (fun _ => later_same rfl rfl rfl rfl rfl rfl (fun _ => Iff.rfl))

-- Fields that no invariant speaks of.
theorem Steps.unseen {vectors : Store JobId VectorEntry} {taken : List Nat} {clock : Nat} :
    Steps config worker s {s with
      vectors := vectors
      taken := taken
      clock := clock} :=
  .of_later ⟨inv.rows,inv.keys,inv.accepted,inv.pushed,inv.queued,inv.delivered,inv.bulk,inv.tasks,inv.requests,
    inv.oneRegister,inv.answers,inv.submitted⟩ (fun _ => later_same rfl rfl rfl rfl rfl rfl (fun _ => Iff.rfl))

theorem Steps.accept {owner : String} {key : Option String} {job : JobId}
    (known : ∃ row, s.rows.get? job = some row ∧ row.owner = owner ∧ row.idempotencyKey = key) :
    Steps config worker s {s with accepted := s.accepted ++ [(owner,key,job)]} := by
  refine .of_later ⟨inv.rows,inv.keys,?_,inv.pushed,inv.queued,inv.delivered,inv.bulk,inv.tasks,inv.requests,
    inv.oneRegister,inv.answers,inv.submitted⟩ (fun _ => later_same rfl rfl rfl rfl rfl rfl (fun _ => Iff.rfl))
  intro one other id member
  rcases List.mem_append.mp member with old | new
  · exact inv.accepted one other id old
  · cases List.mem_singleton.mp new
    exact known

omit inv in
-- The chain executes a digest once.
theorem grows_executed {submitted : List (JobId × Digest)} (digest : Digest) (outcome : Outcome) :
    Grows config s {s with
      submitted := submitted
      executed := s.executed.insert digest outcome} := by
  refine ⟨Nat.le_refl _,fun _ row found => ⟨row,found,.refl row⟩,fun _ _ held => held,fun _ _ held => held,
    fun _ _ held => held,?_⟩
  intro other prior done
  cases fresh : s.executed.get? digest with
  | some outcome =>
    simp only [Store.insert_present _ fresh]
    exact done
  | none =>
    simp only [Store.get?_insert _ fresh]
    split
    · rename_i same
      rw [same,fresh] at done
      cases done
    · exact done

theorem Steps.executed {submitted : List (JobId × Digest)} {executed : Store Digest Outcome}
    (grows : Grows config s {s with
      submitted := submitted
      executed := executed})
    (known : ∀ job digest, (job,digest) ∈ submitted → ∃ id request transaction, s.requests.get? id = some request ∧
      request.jobId = job ∧ request.registerTransaction = some transaction ∧ transaction.digest = digest) :
    Steps config worker s {s with
      submitted := submitted
      executed := executed} := by
  refine .of_later ⟨inv.rows,inv.keys,inv.accepted,inv.pushed,inv.queued,inv.delivered,inv.bulk,inv.tasks,?_,
    inv.oneRegister,?_,known⟩ ?_
  · intro id request sent
    obtain ⟨below,remembered⟩ := inv.requests id request sent
    refine ⟨below,fun transaction register => ?_⟩
    obtain ⟨row,found,remembers⟩ := remembered transaction register
    exact ⟨row,found,Remembers.stays grows remembers⟩
  · intro id response answered
    obtain ⟨request,sent,fits⟩ := inv.answers id response answered
    exact ⟨request,sent,Fits.stays grows fits⟩
  · intro j
    refine ⟨grows,rfl,fun _ => Iff.rfl,?_⟩
    intro job row after _ found there
    cases found.symm.trans there
    exact .refl row

theorem Steps.respond {id : Nat} {response : Option DurableUploadResponse}
    (fits : ∀ answer, response = some answer → ∃ request, s.requests.get? id = some request ∧ Fits config s request answer) :
    Steps config worker s {s with answers := s.answers.insert id response} := by
  cases fresh : s.answers.get? id with
  | some old =>
    simp only [Store.insert_present _ fresh]
    exact .refl inv
  | none =>
    refine .of_later ⟨inv.rows,inv.keys,inv.accepted,inv.pushed,inv.queued,inv.delivered,inv.bulk,inv.tasks,
      inv.requests,inv.oneRegister,?_,inv.submitted⟩ ?_
    · intro other answer answered
      simp only [Store.get?_insert _ fresh] at answered
      split at answered
      · rename_i same
        rw [same]
        exact fits answer (Option.some.inj answered)
      · exact inv.answers other answer answered
    · intro j
      refine ⟨⟨Nat.le_refl _,fun _ row found => ⟨row,found,.refl row⟩,fun _ _ held => held,fun _ _ held => held,?_,
        fun _ _ held => held⟩,rfl,fun _ => Iff.rfl,?_⟩
      · intro other answer answered
        simp only [Store.get?_insert _ fresh]
        split
        · rename_i same
          rw [same,fresh] at answered
          cases answered
        · exact answered
      · intro job row after _ found there
        cases found.symm.trans there
        exact .refl row

theorem Steps.post {request : DurableUploadRequest} {row : Row} (found : s.rows.get? request.jobId = some row)
    (asks : Asks row.journal request) :
    Steps config worker s {s.drawn with requests := s.requests.insert s.nextId request} := by
  have drawn : Consistent config s.drawn := (moved_drawn inv).consistent inv
  have fresh : s.requests.get? s.nextId = none := by
    cases present : s.requests.get? s.nextId with
    | none => rfl
    | some other => exact absurd (inv.requests _ other present).1 (Nat.lt_irrefl _)
  have old : ∀ id other, s.requests.get? id = some other →
      (s.requests.insert s.nextId request).get? id = some other := by
    intro id other sent
    rw [Store.get?_insert _ fresh,if_neg,sent]
    intro same
    rw [same,fresh] at sent
    cases sent
  have cases_ : ∀ id other, (s.requests.insert s.nextId request).get? id = some other →
      (id = s.nextId ∧ other = request) ∨ s.requests.get? id = some other := by
    intro id other sent
    rw [Store.get?_insert _ fresh] at sent
    split at sent
    · rename_i same
      exact .inl ⟨same,(Option.some.inj sent).symm⟩
    · exact .inr sent
  -- A transaction goes out only as the journal has it.
  have journaled : ∀ transaction, request.registerTransaction = some transaction →
      ∃ step, row.journal.uploadResumeStep = some step ∧ step.isEncoded = true ∧
        row.journal.uploadRegisterTransaction = some transaction := by
    intro transaction register
    rw [asks.registerTransaction] at register
    unfold registerTransactionForResume at register
    split at register
    · rename_i step resume
      split at register
      · rename_i encoded
        exact ⟨step,resume,encoded,register⟩
      · cases register
    · cases register
  have only : ∀ id other transaction again, s.requests.get? id = some other → other.jobId = request.jobId →
      request.registerTransaction = some transaction → other.registerTransaction = some again →
      transaction = again := by
    intro id other transaction again sent same register earlier
    obtain ⟨step,resume,encoded,mine⟩ := journaled transaction register
    obtain ⟨known,there,kept,reached,remembers⟩ := (inv.requests id other sent).2 again earlier
    rw [same] at there
    cases found.symm.trans there
    cases resume.symm.trans reached
    rcases remembers with ⟨_,theirs⟩ | ⟨blobObjectId,object,_⟩
    · exact Option.some.inj (mine.symm.trans theirs)
    · cases step <;> simp [WriteBlobStep.isEncoded,WriteBlobStep.blobObjectId] at encoded object
  refine .of_later ⟨drawn.rows,drawn.keys,drawn.accepted,drawn.pushed,drawn.queued,drawn.delivered,drawn.bulk,
    drawn.tasks,?_,?_,?_,?_⟩ ?_
  · intro id other sent
    rcases cases_ id other sent with ⟨rfl,rfl⟩ | prior
    · refine ⟨Nat.lt_succ_self s.nextId,fun transaction register => ?_⟩
      obtain ⟨step,resume,encoded,mine⟩ := journaled transaction register
      exact ⟨row,found,step,resume,.inl ⟨encoded,mine⟩⟩
    · exact drawn.requests id other prior
  · intro id other a b x y first second same one two
    rcases cases_ id a first with ⟨rfl,rfl⟩ | before
    · rcases cases_ other b second with ⟨rfl,rfl⟩ | prior
      · exact Option.some.inj (one.symm.trans two)
      · exact only other b x y prior same.symm one two
    · rcases cases_ other b second with ⟨rfl,rfl⟩ | prior
      · exact (only id a y x before same two one).symm
      · exact inv.oneRegister id other a b x y before prior same one two
  · intro id response answered
    obtain ⟨asked,sent,fits⟩ := inv.answers id response answered
    exact ⟨asked,old id asked sent,fits⟩
  · intro job digest member
    obtain ⟨id,asked,transaction,sent,rest⟩ := inv.submitted job digest member
    exact ⟨id,asked,transaction,old id asked sent,rest⟩
  · intro j
    refine ⟨⟨Nat.le_succ _,fun _ known there => ⟨known,there,.refl known⟩,?_,fun id asked sent => old id asked sent,
      fun _ _ held => held,fun _ _ held => held⟩,rfl,fun _ => Iff.rfl,?_⟩
    · intro job token kept
      exact (later_drawn inv j).sealed job token kept
    · intro job known after _ there later
      cases there.symm.trans later
      exact .refl known

end Calls

theorem noteUpdate_job (statement : Statement) (rows : Except Unit Nat) (d : Delivery) :
    (noteUpdate statement rows d).job = d.job := by
  unfold noteUpdate
  split <;> rfl

theorem serves {worker : Nat} (inv : Consistent config s) (op : Op) (c : Choice) (allowed : Allowed config s worker op) :
    Steps config worker s (serve config s worker op c).1 := by
  cases op with
  | select job =>
    simp only [serve]
    split
    · exact .note inv (fun _ => rfl)
    · exact .refl inv
  | findByKey owner key => exact .faulty inv (.refl inv)
  | insert job row =>
    simp only [serve]
    split
    · exact .refl inv
    · rename_i fresh
      split
      · exact .faulty inv (.refl inv)
      · rename_i unused
        exact .faulty inv (.insert inv (not_not.mp fresh) (Bool.eq_false_iff.mpr unused) allowed s.clock)
  | update jobs statement =>
    simp only [serve]
    have done : Steps config worker s (s.faulty c.fault _ (s.affected jobs statement)).1 :=
      .faulty inv (.execute inv allowed)
    exact done.trans (.note done.consistent (noteUpdate_job statement _))
  | claimPreparation job => exact .faulty inv (.claim inv allowed)
  | claimPaidRecovery job => exact .faulty inv (.claimPaid inv)
  | tryAcquire job =>
    simp only [serve]
    split
    · split
      · exact .refl inv
      · rename_i open_
        have free : s.locks.get? job = none := by
          simp only [not_or,not_not] at open_
          exact open_.2
        refine .locks inv ?_
        intro j other id
        rw [Store.get?_insert _ free]
        split
        · rename_i same
          rw [same,free]
          simp [Ne.symm other]
        · exact Iff.rfl
    · exact .refl inv
  | release job =>
    simp only [serve]
    split
    · rename_i mine
      refine .locks inv ?_
      intro j other id
      rw [Store.get?_erase]
      split
      · rename_i same
        rw [same,mine]
        simp [Ne.symm other]
      · exact Iff.rfl
    · exact .refl inv
  | push job =>
    have stored : Steps config worker s {s.drawn with
        queue := s.queue.upsert s.nextId job
        pushed := s.pushed ++ [job]} := .push inv allowed.1
    simp only [serve]
    split
    · exact stored.trans (.note stored.consistent (fun _ => rfl))
    · exact .refl inv
    · exact stored
  | fetch task attempt =>
    simp only [serve]
    split
    · exact .refl inv
    · rename_i job queued
      exact .fetch inv queued rfl
  | acknowledge task result =>
    simp only [serve]
    split
    · refine .endDelivery inv ?_
      intro other job present
      rw [Store.get?_erase] at present
      split at present
      · cases present
      · exact present
    · exact .endDelivery inv (fun _ _ present => present)
  | pushBulk job =>
    have drawn : Steps config worker s s.drawn := .drawn inv
    have grows := (later_drawn inv worker).toGrows
    refine .faulty inv (drawn.trans (.bulkQueue drawn.consistent ?_))
    intro task other present
    rw [Store.get?_upsert] at present
    split at present
    · cases present
      exact BulkSound.stays grows allowed
    · exact drawn.consistent.bulk task other present
  | fetchBulk task => exact .refl inv
  | acknowledgeBulk task =>
    refine .bulkQueue inv ?_
    intro other job present
    rw [Store.get?_erase] at present
    split at present
    · cases present
    · exact inv.bulk other job present
  | spawn task =>
    have drawn : Steps config worker s s.drawn := .drawn inv
    have grows := (later_drawn inv worker).toGrows
    refine drawn.trans (.tasks drawn.consistent ?_)
    intro id other present
    rw [Store.get?_upsert] at present
    split at present
    · cases present
      exact TaskSound.stays grows allowed
    · exact drawn.consistent.tasks id other present
  | takeTask id =>
    refine .tasks inv ?_
    intro other task present
    rw [Store.get?_erase] at present
    split at present
    · cases present
    · exact inv.tasks other task present
  | insertVector job entry =>
    simp only [serve]
    split
    · exact .unseen inv
    · split
      · exact .unseen inv
      · exact .refl inv
  | setMetadataBatch keyIndex blobObjectId =>
    simp only [serve]
    split <;> exact .refl inv
  | sealEncrypt preparation => exact .faulty inv (.refl inv)
  | post request =>
    obtain ⟨row,_,_,_,blank,_,_,asks⟩ := allowed
    exact .post inv blank.found asks
  | receive id =>
    simp only [serve]
    split <;> exact .refl inv
  | accept owner key job => exact .accept inv allowed
  | take id =>
    simp only [serve]
    split
    · exact .refl inv
    · exact .unseen inv
  | getTransaction digest => exact .faulty inv (.refl inv)
  | executeTransaction job bytes =>
    have known : ∀ id digest, (id,digest) ∈ s.submitted ++ [(job,config.digestFromBytes bytes)] →
        ∃ posted request transaction, s.requests.get? posted = some request ∧ request.jobId = id ∧
          request.registerTransaction = some transaction ∧ transaction.digest = digest := by
      intro id digest member
      rcases List.mem_append.mp member with old | new
      · exact inv.submitted id digest old
      · cases List.mem_singleton.mp new
        exact allowed
    have submits : Steps config worker s {s with
        submitted := s.submitted ++ [(job,config.digestFromBytes bytes)]
        executed := if c.lands then s.executed.insert (config.digestFromBytes bytes) c.outcome else s.executed} := by
      refine .executed inv ?_ known
      split
      · exact grows_executed _ _
      · exact ⟨Nat.le_refl _,fun _ row found => ⟨row,found,.refl row⟩,fun _ _ held => held,fun _ _ held => held,
          fun _ _ held => held,fun _ _ held => held⟩
    simp only [serve]
    split
    · exact submits
    · exact .refl inv
    · exact submits
  | respond id response => exact .respond inv allowed
  | probe what => exact .faulty inv (.refl inv)
  | nextIndex => exact .refl inv
  | newUuid => exact .drawn inv

-- The discipline of the service: what its workers keep to, and what they can
-- count on in return. It assumes nothing.
def order (config : Config) : Terms (service config) where
  Inv := Consistent config
  Rely := Later config
  Allowed := Allowed config
  Given _ _ _ _ := True
  refl := Later.refl
  trans _ _ _ _ := Later.trans
  serves _ _ op c inv allowed _ :=
    have steps := serves inv op c allowed
    ⟨steps.consistent,steps.others⟩
  abandons _ _ inv :=
    have steps := Steps.abandon inv
    ⟨steps.consistent,steps.others⟩

theorem happens (inv : Consistent config s) (event : Event) :
    Consistent config (happen s event) ∧ ∀ j, Later config j s (happen s event) := by
  cases event with
  | tick seconds =>
    have steps : ∀ worker, Steps config worker s (happen s (.tick seconds)) := fun _ => .unseen inv
    exact ⟨(steps 0).consistent,fun j => (steps (j+1)).others j (Nat.ne_of_lt (Nat.lt_succ_self j))⟩
  | failStale => exact steps_failStale inv s.rows.keys
  | execute digest outcome =>
    simp only [happen]
    split
    · have steps : ∀ worker, Steps config worker s {s with executed := s.executed.insert digest outcome} :=
        fun _ => .executed inv (grows_executed digest outcome) inv.submitted
      exact ⟨(steps 0).consistent,fun j => (steps (j+1)).others j (Nat.ne_of_lt (Nat.lt_succ_self j))⟩
    · exact ⟨inv,fun j => .refl j s⟩

end MemWal.Remember
