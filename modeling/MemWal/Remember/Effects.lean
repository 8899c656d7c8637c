import MemWal.Remember.Server

namespace MemWal.Remember
open Library

variable {config : Config} {s : System} {k : Nat} {op : Op} {c : Choice}

-- The statement that a call runs on a row.
def Executes (s : System) (job : JobId) : Op → Statement → Prop
  | .update jobs run,statement => job ∈ jobs ∧ statement = run
  | .claimPreparation id,statement => job = id ∧ statement = .claimPreparation s.nextId
  | .claimPaidRecovery id,statement => job = id ∧ statement = .claimPaidRecovery s.nextId
  | _,_ => False

theorem Executes.updates {job : JobId} {statement : Statement} (runs : Executes s job op statement)
    (unclaimed : statement ≠ .claimPreparation s.nextId) (unpaid : statement ≠ .claimPaidRecovery s.nextId) :
    ∃ jobs, op = .update jobs statement ∧ job ∈ jobs := by
  cases op with
  | update jobs run =>
    obtain ⟨member,rfl⟩ := runs
    exact ⟨jobs,rfl,member⟩
  | claimPreparation id => exact absurd runs.2 unclaimed
  | claimPaidRecovery id => exact absurd runs.2 unpaid
  | _ => cases runs

theorem Executes.allowed {job : JobId} {statement : Statement} (runs : Executes s job op statement)
    (allowed : Allowed config s k op) (unclaimed : statement ≠ .claimPreparation s.nextId)
    (unpaid : statement ≠ .claimPaidRecovery s.nextId) : AllowedStatement config s k job statement := by
  obtain ⟨jobs,rfl,member⟩ := runs.updates unclaimed unpaid
  exact allowed job member

theorem Executes.claims {job : JobId} {token : Token} (runs : Executes s job op (.claimPreparation token))
    (allowed : Allowed config s k op) : op = .claimPreparation job ∧ token = s.nextId := by
  cases op with
  | update jobs run =>
    obtain ⟨member,rfl⟩ := runs
    cases allowed job member
  | claimPreparation id =>
    obtain ⟨rfl,same⟩ := runs
    cases same
    exact ⟨rfl,rfl⟩
  | claimPaidRecovery id => cases runs.2
  | _ => cases runs

-- Where a row comes from that is there after a call.
inductive Came (s : System) (job : JobId) (op : Op) (c : Choice) (after : Row) : Prop where
  | same : s.rows.get? job = some after → Came s job op c after
  | written (row : Row) (statement : Statement) : s.rows.get? job = some row → Executes s job op statement →
      c.fault ≠ .before → statement.applies s.clock row = true → after = statement.apply s.clock row →
      Came s job op c after
  | inserted (row : Row) : op = .insert job row → s.rows.get? job = none →
      after = {row with updatedAt := s.clock} → Came s job op c after

theorem served_rows_same (insert : ∀ job row, op ≠ .insert job row)
    (update : ∀ jobs statement, op ≠ .update jobs statement) (claim : ∀ job, op ≠ .claimPreparation job)
    (paid : ∀ job, op ≠ .claimPaidRecovery job) : (serve config s k op c).1.rows = s.rows := by
  cases op with
  | insert job row => exact absurd rfl (insert job row)
  | update jobs statement => exact absurd rfl (update jobs statement)
  | claimPreparation job => exact absurd rfl (claim job)
  | claimPaidRecovery job => exact absurd rfl (paid job)
  | _ =>
    simp only [serve,System.faulty,System.note,System.drawn]
    repeat' split
    all_goals rfl

theorem executed_row {jobs : List JobId} {statement : Statement} {job : JobId} {after : Row}
    (found : (s.execute jobs statement).rows.get? job = some after) :
    s.rows.get? job = some after ∨ ∃ row, s.rows.get? job = some row ∧ job ∈ jobs ∧
      statement.applies s.clock row = true ∧ after = statement.apply s.clock row := by
  simp only [System.execute,Store.get?_update,Option.map_eq_some_iff] at found
  obtain ⟨row,there,written⟩ := found
  split at written
  · rename_i matched
    simp only [System.matching,Bool.and_eq_true,decide_eq_true_eq] at matched
    exact .inr ⟨row,there,matched.1,matched.2,written.symm⟩
  · exact .inl (written ▸ there)

theorem served_row {job : JobId} {after : Row} (found : (serve config s k op c).1.rows.get? job = some after) :
    Came s job op c after := by
  have executed : ∀ {α : Type} (jobs : List JobId) (statement : Statement) (next : System) (answer : α),
      next.rows = (s.execute jobs statement).rows → (∀ id ∈ jobs, Executes s id op statement) →
      (s.faulty c.fault next answer).1.rows.get? job = some after → Came s job op c after := by
    intro α jobs statement next answer rows runs there
    have ran : c.fault ≠ .before → (s.execute jobs statement).rows.get? job = some after → Came s job op c after := by
      intro took there
      rcases executed_row there with same | ⟨row,before,member,applies,written⟩
      · exact .same same
      · exact .written row statement before (runs job member) took applies written
    cases fault : c.fault with
    | none =>
      rw [fault] at there
      exact ran (by simp [fault]) (rows ▸ there)
    | before =>
      rw [fault] at there
      exact .same there
    | after =>
      rw [fault] at there
      exact ran (by simp [fault]) (rows ▸ there)
  cases op with
  | update jobs statement =>
    exact executed jobs statement _ (s.affected jobs statement) rfl (fun _ member => ⟨member,rfl⟩) found
  | claimPreparation id =>
    exact executed [id] (.claimPreparation s.nextId) (s.execute [id] (.claimPreparation s.nextId)).drawn _ rfl
      (fun other member => ⟨List.mem_singleton.mp member,rfl⟩) found
  | claimPaidRecovery id =>
    exact executed [id] (.claimPaidRecovery s.nextId) (s.execute [id] (.claimPaidRecovery s.nextId)).drawn _ rfl
      (fun other member => ⟨List.mem_singleton.mp member,rfl⟩) found
  | insert id row =>
    have added : ∀ fault, (s.faulty fault {s with rows := s.rows.insert id {row with updatedAt := s.clock}} 1).1.rows.get?
        job = some after → s.rows.get? id = none → Came s job (.insert id row) c after := by
      intro fault there fresh
      have inserted : (s.rows.insert id {row with updatedAt := s.clock}).get? job = some after →
          Came s job (.insert id row) c after := by
        intro there
        rw [Store.get?_insert _ fresh] at there
        split at there
        · rename_i same
          cases there
          subst same
          exact .inserted row rfl fresh rfl
        · exact .same there
      cases fault with
      | none => exact inserted there
      | before => exact .same there
      | after => exact inserted there
    simp only [serve] at found
    split at found
    · exact .same found
    · rename_i fresh
      split at found
      · refine .same ?_
        rw [served_faulty_same] at found
        exact found
      · exact added c.fault found (not_not.mp fresh)
  | _ =>
    rw [served_rows_same] at found
    · exact .same found
    all_goals
      intros
      intro same
      cases same

-- An update that does not fail before it takes effect.
theorem update_lands {jobs : List JobId} {statement : Statement} {job : JobId} {row : Row} (took : c.fault ≠ .before)
    (found : s.rows.get? job = some row) (member : job ∈ jobs) (applies : statement.applies s.clock row = true) :
    (serve config s k (.update jobs statement) c).1.rows.get? job = some (statement.apply s.clock row) := by
  have written : (s.execute jobs statement).rows.get? job = some (statement.apply s.clock row) := by
    simp [System.execute,Store.get?_update,found,System.matching,member,applies]
  cases fault : c.fault with
  | before => exact absurd fault took
  | none => simpa only [serve,System.faulty,fault,System.note] using written
  | after => simpa only [serve,System.faulty,fault,System.note] using written

-- What the worker that makes a call has on its record after it.
inductive Noted (s : System) (k : Nat) (c : Choice) (after : Delivery) : Op → Prop where
  | same {op : Op} : s.deliveries.get? k = some after → Noted s k c after op
  | fetched (task attempt : Nat) (job : WalletJob) : s.queue.get? task = some job →
      after = ⟨task,job,attempt,none,false,false,false,false⟩ → Noted s k c after (.fetch task attempt)
  | read (job : JobId) (d : Delivery) : c.fault = .none → s.deliveries.get? k = some d →
      after = {d with lastRead := s.rows.get? job} → Noted s k c after (.select job)
  | updated (jobs : List JobId) (statement : Statement) (d : Delivery) : s.deliveries.get? k = some d →
      after = noteUpdate statement (s.faulty c.fault (s.execute jobs statement) (s.affected jobs statement)).2 d →
      Noted s k c after (.update jobs statement)
  | pushed (job : WalletJob) (d : Delivery) : c.fault = .none → s.deliveries.get? k = some d →
      after = {d with handedOn := true} → Noted s k c after (.push job)

theorem noted_delivery {f : Delivery → Delivery} {j : Nat} {after : Delivery}
    (found : (s.note k f).deliveries.get? j = some after) :
    (j ≠ k ∧ s.deliveries.get? j = some after) ∨ j = k ∧ ∃ d, s.deliveries.get? k = some d ∧ after = f d := by
  simp only [System.note,Store.modify,Store.get?_map,Option.map_eq_some_iff] at found
  obtain ⟨d,there,written⟩ := found
  by_cases same : j = k
  · subst same
    exact .inr ⟨rfl,d,there,by simpa using written.symm⟩
  · rw [if_neg same] at written
    exact .inl ⟨same,written ▸ there⟩

theorem served_deliveries_same (fetch : ∀ task attempt, op ≠ .fetch task attempt) (select : ∀ job, op ≠ .select job)
    (update : ∀ jobs statement, op ≠ .update jobs statement) (push : ∀ job, op ≠ .push job)
    (acknowledge : ∀ task result, op ≠ .acknowledge task result) :
    (serve config s k op c).1.deliveries = s.deliveries := by
  cases op with
  | fetch task attempt => exact absurd rfl (fetch task attempt)
  | select job => exact absurd rfl (select job)
  | update jobs statement => exact absurd rfl (update jobs statement)
  | push job => exact absurd rfl (push job)
  | acknowledge task result => exact absurd rfl (acknowledge task result)
  | _ =>
    simp only [serve,System.faulty,System.execute,System.drawn]
    repeat' split
    all_goals rfl

theorem served_delivery {j : Nat} {after : Delivery}
    (found : (serve config s k op c).1.deliveries.get? j = some after) :
    (j ≠ k ∧ s.deliveries.get? j = some after) ∨ j = k ∧ Noted s k c after op := by
  have unmoved : s.deliveries.get? j = some after →
      (j ≠ k ∧ s.deliveries.get? j = some after) ∨ j = k ∧ Noted s k c after op := by
    intro there
    by_cases same : j = k
    · exact .inr ⟨same,.same (same ▸ there)⟩
    · exact .inl ⟨same,there⟩
  cases op with
  | fetch task attempt =>
    simp only [serve] at found
    split at found
    · exact unmoved found
    · rename_i job queued
      rw [Store.get?_upsert] at found
      split at found
      · rename_i same
        exact .inr ⟨same,.fetched task attempt job queued (Option.some.inj found).symm⟩
      · rename_i different
        exact .inl ⟨different,found⟩
  | select job =>
    simp only [serve] at found
    split at found
    · rename_i fault
      rcases noted_delivery found with ⟨different,there⟩ | ⟨same,d,there,written⟩
      · exact .inl ⟨different,there⟩
      · exact .inr ⟨same,.read job d fault there written⟩
    · exact unmoved found
  | update jobs statement =>
    have kept : (s.faulty c.fault (s.execute jobs statement) (s.affected jobs statement)).1.deliveries =
        s.deliveries := by
      simp only [System.faulty]
      split <;> rfl
    rcases noted_delivery found with ⟨different,there⟩ | ⟨same,d,there,written⟩
    · exact .inl ⟨different,kept ▸ there⟩
    · exact .inr ⟨same,.updated jobs statement d (kept ▸ there) written⟩
  | push job =>
    simp only [serve] at found
    split at found
    · rename_i fault
      rcases noted_delivery found with ⟨different,there⟩ | ⟨same,d,there,written⟩
      · exact .inl ⟨different,there⟩
      · exact .inr ⟨same,.pushed job d fault there written⟩
    · exact unmoved found
    · exact unmoved found
  | acknowledge task result =>
    have erased : (s.deliveries.erase k).get? j = some after → j ≠ k ∧ s.deliveries.get? j = some after := by
      intro there
      rw [Store.get?_erase] at there
      split at there
      · cases there
      · rename_i different
        exact ⟨different,there⟩
    simp only [serve] at found
    split at found <;> exact .inl (erased found)
  | _ =>
    rw [served_deliveries_same] at found
    · exact unmoved found
    all_goals
      intros
      intro same
      cases same

theorem served_pushed {pushed : WalletJob} (member : pushed ∈ (serve config s k op c).1.pushed) :
    pushed ∈ s.pushed ∨ op = .push pushed := by
  cases op with
  | push job =>
    have added : pushed ∈ s.pushed ++ [job] → pushed ∈ s.pushed ∨ Op.push job = .push pushed := by
      intro there
      rcases List.mem_append.mp there with before | here
      · exact .inl before
      · rw [List.mem_singleton.mp here]
        exact .inr rfl
    simp only [serve] at member
    split at member
    · exact added member
    · exact .inl member
    · exact added member
  | _ =>
    left
    revert member
    simp only [serve,System.faulty,System.note,System.execute,System.drawn]
    repeat' split
    all_goals exact id

theorem served_queue {task : Nat} {queued : WalletJob}
    (found : (serve config s k op c).1.queue.get? task = some queued) :
    s.queue.get? task = some queued ∨ op = .push queued ∧ task = s.nextId := by
  have stored : ∀ job, (s.queue.upsert s.nextId job).get? task = some queued →
      s.queue.get? task = some queued ∨ Op.push job = .push queued ∧ task = s.nextId := by
    intro job there
    rw [Store.get?_upsert] at there
    split at there
    · rename_i same
      exact .inr ⟨congrArg Op.push (Option.some.inj there),same⟩
    · exact .inl there
  cases op with
  | push job =>
    simp only [serve] at found
    split at found
    · exact stored job found
    · exact .inl found
    · exact stored job found
  | acknowledge task' result =>
    simp only [serve] at found
    split at found
    · rw [Store.get?_erase] at found
      split at found
      · cases found
      · exact .inl found
    · exact .inl found
  | _ =>
    left
    revert found
    simp only [serve,System.faulty,System.note,System.execute,System.drawn]
    repeat' split
    all_goals exact id

-- A job leaves the queue when a delivery of it is acknowledged for good.
theorem queue_kept {task : Nat} {queued : WalletJob} (op : Op) (inv : Consistent config s)
    (there : s.queue.get? task = some queued) :
    (serve config s k op c).1.queue.get? task = some queued ∨
      ∃ result, op = .acknowledge task result ∧ c.fault = .none ∧ result ≠ .failed := by
  have older : task ≠ s.nextId := Nat.ne_of_lt (inv.queued task queued there).1
  cases op with
  | push job =>
    have stored : (s.queue.upsert s.nextId job).get? task = some queued := by
      rw [Store.get?_upsert,if_neg older]
      exact there
    left
    simp only [serve]
    split
    · exact stored
    · exact there
    · exact stored
  | acknowledge task' result =>
    simp only [serve]
    split
    · rename_i gone
      by_cases same : task = task'
      · exact .inr ⟨result,by rw [same],gone⟩
      · left
        rw [Store.get?_erase,if_neg same]
        exact there
    · exact .inl there
  | _ =>
    left
    revert there
    simp only [serve,System.faulty,System.note,System.execute,System.drawn]
    repeat' split
    all_goals exact id

theorem served_lock {job : JobId} {worker : Nat} (found : (serve config s k op c).1.locks.get? job = some worker) :
    s.locks.get? job = some worker ∨ op = .tryAcquire job ∧ worker = k := by
  cases op with
  | tryAcquire id =>
    simp only [serve] at found
    split at found
    · split at found
      · exact .inl found
      · rename_i open_
        simp only [not_or,not_not] at open_
        rw [Store.get?_insert _ open_.2] at found
        split at found
        · rename_i same
          subst same
          exact .inr ⟨rfl,(Option.some.inj found).symm⟩
        · exact .inl found
    · exact .inl found
  | release id =>
    simp only [serve] at found
    split at found
    · rw [Store.get?_erase] at found
      split at found
      · cases found
      · exact .inl found
    · exact .inl found
  | _ =>
    left
    revert found
    simp only [serve,System.faulty,System.note,System.execute,System.drawn]
    repeat' split
    all_goals exact id

theorem served_requests_same (no : ∀ request, op ≠ .post request) : (serve config s k op c).1.requests = s.requests := by
  cases op with
  | post request => exact absurd rfl (no request)
  | _ =>
    simp only [serve,System.faulty,System.note,System.execute,System.drawn]
    repeat' split
    all_goals rfl

theorem served_request {id : Nat} {request : DurableUploadRequest} (inv : Consistent config s)
    (found : (serve config s k op c).1.requests.get? id = some request) :
    s.requests.get? id = some request ∨ op = .post request ∧ id = s.nextId := by
  cases op with
  | post sent =>
    have fresh : s.requests.get? s.nextId = none := by
      cases present : s.requests.get? s.nextId with
      | none => rfl
      | some again => exact absurd (inv.requests _ again present).1 (Nat.lt_irrefl _)
    simp only [serve,Store.get?_insert _ fresh] at found
    split at found
    · rename_i same
      cases found
      exact .inr ⟨rfl,same⟩
    · exact .inl found
  | _ =>
    rw [served_requests_same] at found
    · exact .inl found
    intro _ same
    cases same

theorem served_submitted_same (no : ∀ job bytes, op ≠ .executeTransaction job bytes) :
    (serve config s k op c).1.submitted = s.submitted := by
  cases op with
  | executeTransaction job bytes => exact absurd rfl (no job bytes)
  | _ =>
    simp only [serve,System.faulty,System.note,System.execute,System.drawn]
    repeat' split
    all_goals rfl

theorem served_submitted {entry : JobId × Digest} (member : entry ∈ s.submitted) :
    entry ∈ (serve config s k op c).1.submitted := by
  cases op with
  | executeTransaction job bytes =>
    simp only [serve]
    split
    · exact List.mem_append_left _ member
    · exact member
    · exact List.mem_append_left _ member
  | _ =>
    rw [served_submitted_same]
    · exact member
    intro _ _ same
    cases same

theorem grows_served (inv : Consistent config s) (allowed : Allowed config s k op) :
    Grows config s (serve config s k op c).1 :=
  ((serves inv op c allowed).others (k+1) (Nat.succ_ne_self k)).toGrows

theorem grows_happened (inv : Consistent config s) (event : Event) : Grows config s (happen s event) :=
  ((happens inv event).2 0).toGrows

theorem happened_requests (event : Event) : (happen s event).requests = s.requests := by
  cases event with
  | execute digest outcome =>
    simp only [happen]
    split <;> rfl
  | _ => rfl

theorem happened_pushed (event : Event) : (happen s event).pushed = s.pushed := by
  cases event with
  | execute digest outcome =>
    simp only [happen]
    split <;> rfl
  | _ => rfl

theorem happened_queue (event : Event) : (happen s event).queue = s.queue := by
  cases event with
  | execute digest outcome =>
    simp only [happen]
    split <;> rfl
  | _ => rfl

theorem happened_deliveries (event : Event) : (happen s event).deliveries = s.deliveries := by
  cases event with
  | execute digest outcome =>
    simp only [happen]
    split <;> rfl
  | _ => rfl

theorem abandoned_delivery {j : Nat} {d : Delivery} (found : (abandon s k).deliveries.get? j = some d) :
    j ≠ k ∧ s.deliveries.get? j = some d := by
  simp only [abandon,Store.get?_erase] at found
  split at found
  · cases found
  · rename_i different
    exact ⟨different,found⟩

theorem happened_locks (event : Event) : (happen s event).locks = s.locks := by
  cases event with
  | execute digest outcome =>
    simp only [happen]
    split <;> rfl
  | _ => rfl

theorem abandoned_lock {job : JobId} {worker : Nat} (found : (abandon s k).locks.get? job = some worker) :
    s.locks.get? job = some worker := by
  simp only [abandon,Store.get?_keep] at found
  exact found.1

theorem happened_submitted (event : Event) : (happen s event).submitted = s.submitted := by
  cases event with
  | execute digest outcome =>
    simp only [happen]
    split <;> rfl
  | _ => rfl

-- Outside of the calls only the sweeper writes rows.
theorem happened_row {event : Event} {job : JobId} {after : Row} (found : (happen s event).rows.get? job = some after) :
    s.rows.get? job = some after ∨ ∃ row, s.rows.get? job = some row ∧
      Statement.failStale.applies s.clock row = true ∧ after = Statement.failStale.apply s.clock row := by
  cases event with
  | tick seconds => exact .inl found
  | failStale =>
    rcases executed_row found with same | ⟨row,there,_,applies,written⟩
    · exact .inl same
    · exact .inr ⟨row,there,applies,written⟩
  | execute digest outcome =>
    simp only [happen] at found
    split at found <;> exact .inl found

end MemWal.Remember
