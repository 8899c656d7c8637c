import MemWal.Remember.Transfers

namespace MemWal.Remember
open Library

variable {config : Config} {s next : System} {k : Nat} {op : Op} {c : Choice} {job : JobId}

-- The failure write that asks for no status meets no finished row.
def sparesDone (s : System) (_ : Nat) : Op → Choice → Bool
  | .update jobs .markFailed,c =>
    decide (c.fault = .before ∨ ∀ job ∈ jobs, ∀ row ∈ s.rows.get? job, row.status ≠ .done)
  | _,_ => true

-- A finished row and its blob.
def Finished (s : System) (job : JobId) (blobId : BlobId) : Prop :=
  ∃ row, s.rows.get? job = some row ∧ row.status = .done ∧ row.blobId = some blobId

-- Every statement but one asks for a status, or for a lock under which no row is
-- finished.
theorem done_written {row : Row} {statement : Statement} (done : row.status = .done) (paid : row.blobId ≠ none)
    (found : s.rows.get? job = some row) (applies : statement.applies s.clock row = true)
    (other : statement ≠ .markFailed)
    (allowed : statement ≠ .failStale → statement ≠ .claimPreparation s.nextId →
      statement ≠ .claimPaidRecovery s.nextId → AllowedStatement config s k job statement) :
    (statement.apply s.clock row).status = .done := by
  cases statement with
  | markFailed => exact absurd rfl other
  | consumePreparationClaim token => simp [Statement.applies,paid] at applies
  | markRunning =>
    obtain ⟨known,blank⟩ := allowed (by simp) (by simp) (by simp)
    cases found.symm.trans blank.found
    exact absurd blank.blank paid
  | afterWalletError aborts => simp [Statement.applies,done] at applies
  | markPreparationFailed token => simp [Statement.applies,done] at applies
  | persistPreparation token preparation => exact done
  | persistUploadJournal journal => exact done
  | persistUploadedState blobId blobObjectId =>
    obtain ⟨known,_,_,_,blank,_⟩ := allowed (by simp) (by simp) (by simp)
    cases found.symm.trans blank.found
    exact absurd blank.blank paid
  | markDone blobId => rfl
  | claimPreparation token => simp [Statement.applies,paid] at applies
  | claimPaidRecovery token => exact done
  | publishPaidRecovery token => simp [Statement.applies,done] at applies
  | failStale => simp [Statement.applies,done] at applies

theorem Finished.served {blobId : BlobId} (inv : Consistent config s) (allowed : Allowed config s k op)
    (spares : sparesDone s k op c) (finished : Finished s job blobId) :
    Finished (serve config s k op c).1 job blobId := by
  obtain ⟨row,found,done,recorded⟩ := finished
  obtain ⟨after,there,later⟩ := (grows_served (c:=c) inv allowed).rows job row found
  have paid : row.blobId ≠ none := recorded ▸ Option.some_ne_none blobId
  refine ⟨after,there,?_,(later.blob blobId recorded).1⟩
  cases served_row there with
  | same before =>
    cases found.symm.trans before
    exact done
  | inserted other _ missing _ =>
    rw [found] at missing
    cases missing
  | written before statement same runs took applies written =>
    cases found.symm.trans same
    by_cases unguarded : statement = .markFailed
    · subst unguarded
      obtain ⟨jobs,rfl,member⟩ := runs.updates (by simp) (by simp)
      rcases of_decide_eq_true spares with fault | spared
      · exact absurd fault took
      · exact absurd done (spared job member row found)
    · rw [written]
      exact done_written done paid found applies unguarded (fun _ unclaimed unpaid => runs.allowed allowed unclaimed unpaid)

theorem Finished.happened {blobId : BlobId} (inv : Consistent config s) (event : Event)
    (finished : Finished s job blobId) : Finished (happen s event) job blobId := by
  obtain ⟨row,found,done,recorded⟩ := finished
  obtain ⟨after,there,later⟩ := (grows_happened inv event).rows job row found
  refine ⟨after,there,?_,(later.blob blobId recorded).1⟩
  rcases happened_row there with same | ⟨before,same,applies,_⟩
  · cases found.symm.trans same
    exact done
  · cases found.symm.trans same
    simp [Statement.applies,done] at applies

-- A failure write that lands on a finished row unfinishes it.
theorem unspared_served (lands : sparesDone s k op c = false) :
    ∃ job row after, s.rows.get? job = some row ∧ row.status = .done ∧
      (serve config s k op c).1.rows.get? job = some after ∧ after.status = .failed := by
  cases op with
  | update jobs statement =>
    cases statement with
    | markFailed =>
      have met := of_decide_eq_false lands
      push Not at met
      obtain ⟨stored,job,member,row,found,done⟩ := met
      exact ⟨job,row,_,Option.mem_def.mp found,done,update_lands stored (Option.mem_def.mp found) member rfl,rfl⟩
    | _ => cases lands
  | _ => cases lands

theorem completion_is_final (config : Config) (moves : Moves) :
    ((∀ i worker op c, Serves config moves i worker op c → sparesDone (state config moves i) worker op c) ↔
      ∀ i j job row, i ≤ j → (state config moves i).rows.get? job = some row → row.status = .done →
        ∃ after, (state config moves j).rows.get? job = some after ∧ after.status = .done ∧
          after.blobId = row.blobId) ∧
    ∀ i j job row blobId, i ≤ j → (state config moves i).rows.get? job = some row → row.blobId = some blobId →
      ∃ after, (state config moves j).rows.get? job = some after ∧ after.blobId = some blobId := by
  refine ⟨⟨?_,?_⟩,?_⟩
  · intro spares i j job row le found done
    obtain ⟨blobId,recorded⟩ := Option.ne_none_iff_exists'.mp (((consistent_at config moves i).rows job row found).done done)
    have kept := relates (R:=fun s next => ∀ job blobId, Finished s job blobId → Finished next job blobId)
      (fun _ _ _ finished => finished) (fun _ _ _ first second job blobId finished => second _ _ (first _ _ finished))
      spares (fun _ _ _ _ inv allowed spared _ _ finished => finished.served inv allowed spared)
      (fun _ _ _ _ _ finished => finished) (fun _ event inv _ _ finished => finished.happened inv event) le
    obtain ⟨after,there,still,same⟩ := kept job blobId ⟨row,found,done,recorded⟩
    exact ⟨after,there,still,same.trans recorded.symm⟩
  · intro final i worker op c serves
    by_contra lands
    obtain ⟨job,row,after,found,done,there,failed⟩ := unspared_served (Bool.eq_false_iff.mpr lands)
    obtain ⟨later,known,still,_⟩ := final i (i+1) job row (Nat.le_succ i) found done
    rw [serves.next,there] at known
    cases known
    cases failed.symm.trans still
  · intro i j job row blobId le found recorded
    obtain ⟨after,there,later⟩ := (grows_between config moves le).rows job row found
    exact ⟨after,there,(later.blob blobId recorded).1⟩

-- The transfer is stored in the queue although its push reports an error. It is
-- delivered and finishes the row before the pusher marks the row failed.
def unfinishedRun : Moves :=
  uploadRun ++ .step 1 {fault := .after} :: .spawn 7 (.wallet 7 1) :: turns 7 4 ++ turns 1 1

theorem completion_undone :
    ¬ ∀ i j job row, i ≤ j → (state sampleConfig unfinishedRun i).rows.get? job = some row → row.status = .done →
      ∃ after, (state sampleConfig unfinishedRun j).rows.get? job = some after ∧ after.status = .done ∧
        after.blobId = row.blobId := by
  intro final
  have finished : ((state sampleConfig unfinishedRun 75).rows.get? 0).map Row.status = some .done := by decide +kernel
  obtain ⟨row,found,done⟩ := Option.map_eq_some_iff.mp finished
  obtain ⟨after,there,still,_⟩ := final 75 76 0 row (by decide) found done
  have failed : ((state sampleConfig unfinishedRun 76).rows.get? 0).map Row.status = some .failed := by decide +kernel
  rw [there,Option.map_some,still] at failed
  cases failed

end MemWal.Remember
