import MemWal.SecurityDelete.Protocol

namespace MemWal.SecurityDelete
open Library Library.Fallible

-- Calls that are in order in every state.
def Harmless (op : Op) : Prop := ∀ s, Allowed s op

section Harmless
variable {ε : Type}

theorem transact_harmless {t : Transaction} (free : Harmless (.transact t)) : (transact t).Only Harmless :=
  .bind (.perform free) (fun result => .orFail result)

theorem job_transact_harmless {t : Transaction} (free : Harmless (.transact t)) : (Job.transact t).Only Harmless :=
  .bind (.perform free) (fun result => .orFail result)

theorem evict_free (owner : Owner) (blobId : BlobId) (batchId : Uuid) (toState : BlobState) :
    Harmless (.transact (.evict owner blobId batchId toState)) := fun _ => trivial

theorem rollback_free (batchId : Uuid) (release : Release) : Harmless (.transact (.rollback batchId release)) :=
  fun _ => trivial

theorem batchBlobs_harmless (batchId : Uuid) (owner : Owner) : (batchBlobs batchId owner).Only Harmless :=
  .bind (.perform (fun _ => trivial)) (fun result => .orFail result)

theorem requireBatch_harmless (batchId : Uuid) (owner : Owner) : (requireBatch batchId owner).Only Harmless := by
  refine .bind (.perform (fun _ => trivial)) (fun result => .bind (.orFail result) ?_)
  exact fun batch => .orFail _

theorem batchGetAll_harmless (convert : SuiErr → ε) (ids : List ObjectId) :
    (batchGetAll convert ids).Only Harmless := by
  refine .foldlM ?_ _ _
  intro objects part
  refine .bind (.perform (fun _ => trivial)) (fun result => .bind (.orFail result) ?_)
  exact fun _ => trivial

theorem rollbackAfterPrepareFailure_harmless (batchId : Uuid) :
    (rollbackAfterPrepareFailure batchId).Only Harmless :=
  .bind (.perform (rollback_free batchId .cancelAwaiting)) (fun _ => trivial)

theorem rollbackExecuting_harmless (batchId : Uuid) : (rollbackExecuting batchId).Only Harmless :=
  .bind (.perform (rollback_free batchId .failExecuting)) (fun _ => trivial)

theorem evictStale_harmless (owner : Owner) (batchId : Uuid) (stale : List StaleInput) :
    (evictStale owner batchId stale).Only Harmless := by
  refine .foldlM ?_ _ _
  intro evicted input
  cases input.reason.terminal with
  | none => trivial
  | some terminal => exact .bind (transact_harmless (evict_free _ _ _ _)) (fun _ => trivial)

theorem revalidateBeforeExecute_harmless (batchId : Uuid) (owner : Owner) (batch : BatchRow) (tx : DeleteTx) :
    (revalidateBeforeExecute batchId owner batch tx).Only Harmless := by
  refine .bind (.perform (fun _ => trivial)) ?_
  intro system
  split
  · trivial
  · refine .bind (.orFail _) (fun ids => .bind (.orFail _) (fun expected => .bind (batchGetAll_harmless _ _) ?_))
    refine fun objects => .bind (.orFail _) (fun stale => ?_)
    split
    · trivial
    · refine .bind (evictStale_harmless owner batchId stale) (fun evicted => ?_)
      exact .bind (transact_harmless (rollback_free _ _)) (fun _ => trivial)

theorem evictGone_harmless (owner : Owner) (batchId : Uuid) (pairs : List (BlobId × Option ObjectInfo)) :
    (evictGone owner batchId pairs).Only Harmless := by
  refine .foldlM ?_ _ _
  intro evicted pair
  cases committedVerdict owner pair.1 pair.2 with
  | none => trivial
  | some terminal => exact .bind (transact_harmless (evict_free _ _ _ _)) (fun _ => trivial)

theorem evictCommitted_harmless (owner : Owner) (batchId : Uuid) (known : List (BlobId × ObjectId)) :
    (evictCommitted owner batchId known).Only Harmless := by
  refine .bind (.attempt (batchGetAll_harmless _ _)) (fun objects => ?_)
  cases objects with
  | ok objects => exact evictGone_harmless owner batchId _
  | error error => trivial

theorem committedFailure_harmless (batchId : Uuid) (owner : Owner) (batch : BatchRow) (status : ExecutionStatus) :
    (committedFailure batchId owner batch status).Only Harmless := by
  refine .bind (.bind (batchBlobs_harmless batchId owner) (fun rows => ?_)) (fun _ => trivial)
  refine .bind (evictCommitted_harmless owner batchId _) (fun evicted => ?_)
  exact .bind (transact_harmless (rollback_free _ _)) (fun _ => trivial)

theorem cancelDeletion_harmless (owner : Owner) (batchId : Uuid) : (cancelDeletion owner batchId).Only Harmless := by
  refine .bind (requireBatch_harmless batchId owner) (fun batch => ?_)
  split
  · trivial
  · refine .bind (transact_harmless (rollback_free _ _)) (fun cancelled => ?_)
    refine .bind (requireBatch_harmless batchId owner) (fun current => ?_)
    split <;> trivial

end Harmless

-- What the programs remember about a batch.
def Holds (s : System) (id : Uuid) (tx : DeleteTx) : Prop :=
  ∃ batch, s.db.batches.get? id = some batch ∧ batch.txBytes = some tx

def Begun (s : System) (id : Uuid) (tx : DeleteTx) : Prop :=
  ∃ batch, s.db.batches.get? id = some batch ∧ batch.txBytes = some tx ∧ batch.state ≠ .awaitingSignature

def Succeeded (s : System) (tx : DeleteTx) : Prop := s.chain.log.get? tx = some .success

section Memory
variable {s now : System} {id : Uuid} {tx : DeleteTx}

theorem Holds.later (holds : Holds s id tx) (since : Later s now) : Holds now id tx := by
  obtain ⟨old,found,known⟩ := holds
  obtain ⟨new,stored,extends_⟩ := since.batches id old found
  exact ⟨new,stored,(extends_.tx tx known).1⟩

theorem Begun.later (begun : Begun s id tx) (since : Later s now) : Begun now id tx := by
  obtain ⟨old,found,known,state⟩ := begun
  obtain ⟨new,stored,extends_⟩ := since.batches id old found
  exact ⟨new,stored,(extends_.tx tx known).1,extends_.begun state⟩

theorem Begun.holds (begun : Begun s id tx) : Holds s id tx := by
  obtain ⟨batch,found,known,_⟩ := begun
  exact ⟨batch,found,known⟩

theorem finalize_allowed (holds : Holds s id tx) (succeeded : Succeeded s tx) :
    Allowed s (.transact (.finalize id)) := by
  intro batch found
  obtain ⟨other,same,known⟩ := holds
  rw [found] at same
  cases same
  exact ⟨tx,known,succeeded⟩

end Memory

theorem harmless_safe {ε α : Type} {p : Program Op Op.Answer ε α} (only : p.Only Harmless) (s : System) :
    Safe discipline (fun _ _ => True) p s := .of_only (fun _ free => free) only s

section Finalizing
variable {ε : Type} {s : System} {id : Uuid} {tx : DeleteTx}

theorem finalize_safe {convert : StoreError → ε} (inv : Inv s) (holds : Holds s id tx) (succeeded : Succeeded s tx) :
    Safe discipline (fun _ _ => True) (do
      let result ← .perform (.transact (.finalize id))
      .orFail convert result : Program Op Op.Answer ε (Option Nat)) s := by
  refine .bind (Q:=fun _ _ => True) inv ?_ (fun _ _ _ _ _ => .orFail (fun _ _ => trivial))
  intro now since _
  exact ⟨finalize_allowed (holds.later since) (since.log tx .success succeeded),fun _ => trivial⟩

theorem completeSubmit_safe (inv : Inv s) (holds : Holds s id tx) (succeeded : Succeeded s tx) (digest : Digest) :
    Safe discipline (fun _ _ => True) (completeSubmit id digest) s := by
  refine .bind inv (finalize_safe inv holds succeeded) ?_
  intro deleted now _ inv _
  exact .bind inv (.orFail (Q:=fun _ _ => True) (fun _ _ => trivial)) (fun _ _ _ _ _ => trivial)

theorem finalizeExecuting_safe (inv : Inv s) (holds : Holds s id tx) (succeeded : Succeeded s tx)
    (report : TickReport) : Safe discipline (fun _ _ => True) (finalizeExecuting id report) s :=
  .bind inv (finalize_safe inv holds succeeded) (fun _ _ _ _ _ => trivial)

end Finalizing

-- Submit

theorem answer_logged {c : Choice} {chain : Chain} {tx : DeleteTx} {result : ExecResult}
    (answered : chain.answer c tx = .ok result) : chain.log.get? result.digest.preimage = some result.status := by
  unfold Chain.answer at answered
  cases failed : c.error with
  | some error =>
    rw [failed] at answered
    cases answered
  | none =>
    rw [failed] at answered
    cases known : chain.status (c.reported.getD tx).digest with
    | none =>
      rw [known] at answered
      cases answered
    | some reported =>
      rw [known] at answered
      cases answered
      simp only [Chain.status,Option.map_eq_some_iff] at known
      obtain ⟨status,logged,rfl⟩ := known
      exact logged

theorem status_logged {chain : Chain} {digest : Digest} {result : ExecResult}
    (known : chain.status digest = some result) :
    chain.log.get? digest.preimage = some result.status ∧ result.digest = digest := by
  simp only [Chain.status,Option.map_eq_some_iff] at known
  obtain ⟨status,logged,rfl⟩ := known
  exact ⟨logged,rfl⟩

section Submit
variable {s : System} {id : Uuid} {tx : DeleteTx} {owner : Owner} {batch : BatchRow}

-- Whatever an execute answers, it is about a transaction in the log.
def Reported (execution : Except SuiErr ExecResult) (s : System) : Prop :=
  ∀ result, execution = .ok result → s.chain.log.get? result.digest.preimage = some result.status

theorem executeTx_safe {ε : Type} (inv : Inv s) (begun : Begun s id tx) (signatures : List Bytes) :
    Safe discipline Reported (executeTx tx signatures : Program Op Op.Answer ε (Except SuiErr ExecResult)) s := by
  refine .bind (Q:=fun _ _ => True) inv ?_ ?_
  · intro now since _
    exact ⟨⟨id,begun.later since⟩,fun _ => trivial⟩
  · intro _ now _ _ _ later _ _
    exact ⟨trivial,fun c result answered => answer_logged answered⟩

theorem succeeded_of_success {result : ExecResult} (logged : s.chain.log.get? tx = some result.status)
    (success : result.success = true) : Succeeded s tx := by
  simp only [ExecResult.success,decide_eq_true_eq] at success
  rw [success] at logged
  exact logged

theorem resolveRejectedExecution_safe (inv : Inv s) (holds : Holds s id tx) (digest : batch.digest = some tx.digest)
    (code : SdCode) : Safe discipline (fun _ _ => True) (resolveRejectedExecution id owner batch code) s := by
  unfold resolveRejectedExecution
  rw [digest]
  refine .bind (Q:=fun found now => found = tx.digest ∧ Holds now id tx) inv ⟨rfl,holds⟩ ?_
  intro found now _ inv ⟨same,holds⟩
  subst same
  refine .bind (Q:=fun (status : Except SuiErr (Option ExecResult)) now => ∀ result, status = .ok (some result) →
    now.chain.log.get? tx = some result.status) inv ?_ ?_
  · intro now since inv
    refine ⟨trivial,fun c result answered => ?_⟩
    simp only [serve,Choice.rpc] at answered
    split at answered
    · cases answered
    · exact (status_logged (Except.ok.inj answered)).1
  · intro status now since inv logged
    cases status with
    | error error => trivial
    | ok found =>
      cases found with
      | none =>
        refine .bind inv (harmless_safe (rollbackExecuting_harmless id) now) ?_
        intro _ _ _ _ _
        split <;> trivial
      | some result =>
        dsimp only
        split
        · trivial
        · split
          · rename_i success
            exact completeSubmit_safe inv (holds.later since) (succeeded_of_success (logged result rfl) success) _
          · exact harmless_safe (committedFailure_harmless id owner batch result.status) now

theorem concludeExecution_safe {execution : Except SuiErr ExecResult} (inv : Inv s) (holds : Holds s id tx)
    (digest : batch.digest = some tx.digest) (reported : Reported execution s) :
    Safe discipline (fun _ _ => True) (concludeExecution id owner batch execution) s := by
  cases execution with
  | ok result =>
    simp only [concludeExecution]
    split
    · trivial
    · rename_i same
      have equal : result.digest = tx.digest := by
        rw [digest] at same
        simpa [eq_comm] using same
      split
      · rename_i success
        have logged := reported result rfl
        rw [equal] at logged
        exact completeSubmit_safe inv holds (succeeded_of_success logged success) _
      · exact harmless_safe (committedFailure_harmless id owner batch result.status) s
  | error error =>
    cases error with
    | transport | rateLimited => trivial
    | sponsorFundsUnavailable | rejected | notFound => exact resolveRejectedExecution_safe inv holds digest _

theorem submitChecked_safe (inv : Inv s) (begun : Begun s id tx) (digest : batch.digest = some tx.digest)
    (signatures : List Bytes) : Safe discipline (fun _ _ => True) (submitChecked id owner batch tx signatures) s := by
  refine .bind inv (harmless_safe (.attempt (revalidateBeforeExecute_harmless id owner batch tx)) s) ?_
  intro checked now since inv _
  cases checked with
  | error error =>
    refine .bind inv (harmless_safe (rollbackExecuting_harmless id) now) ?_
    intro _ _ _ _ _
    trivial
  | ok evicted =>
    cases evicted with
    | some evicted => trivial
    | none =>
      refine .bind inv (executeTx_safe inv (begun.later since) signatures) ?_
      intro execution after more inv reported
      exact concludeExecution_safe inv ((begun.later since).later more).holds digest reported

theorem requireBatch_safe (inv : Inv s) : Safe discipline (fun batch now => now.db.batches.get? id = some batch)
    (requireBatch id owner) s := by
  refine .bind (Q:=fun (result : Except StoreError (Option BatchRow)) now => ∀ batch, result = .ok (some batch) →
    now.db.batches.get? id = some batch) inv ?_ ?_
  · intro now _ _
    refine ⟨trivial,fun c batch read => ?_⟩
    simp only [serve,Choice.read] at read
    split at read
    · cases read
    · have found := Except.ok.inj read
      simp only [Db.getBatch,Option.filter_eq_some_iff] at found
      exact found.1
  · intro result now _ inv read
    refine .bind (Q:=fun found now => ∀ batch, found = some batch → now.db.batches.get? id = some batch) inv ?_ ?_
    · refine .orFail (fun found same batch here => ?_)
      rw [here] at same
      exact read batch same
    · intro found now _ inv known
      refine .orFail (fun batch here => ?_)
      rw [require_ok] at here
      exact known batch here

-- The CAS that starts an execution takes the batch out of 'awaiting_signature'.
theorem begin_takes {m : Moment} {db : Db} {signatures : List Bytes} (begun : (db.beginBatchExecution m id signatures).2 = true) :
    ∃ batch, (db.beginBatchExecution m id signatures).1.batches.get? id = some batch ∧
      batch.state ≠ .awaitingSignature := by
  simp only [Db.beginBatchExecution,decide_eq_true_eq] at begun ⊢
  have some_ : db.batches.count (fun id' batch => id' = id ∧ batch.state = .awaitingSignature ∧
      batch.txBytes.isSome) ≠ 0 := by
    rw [begun]
    exact Nat.one_ne_zero
  obtain ⟨batch,found,_,moved⟩ := batch_hit some_ (fun batch => {batch with
    state := .executing
    signatures := some signatures
    executingAt := some m.now
    lastSubmitAt := some m.now
    submitAttempts := 1})
  rw [moved]
  exact ⟨_,(Store.get?_put found _ id).trans (if_pos rfl),by simp⟩

theorem begin_safe (inv : Inv s) (signatures : List Bytes) :
    Safe discipline (fun begun now => begun = true → ∃ batch, now.db.batches.get? id = some batch ∧
      batch.state ≠ .awaitingSignature) (transact (.beginExecution id signatures)) s := by
  refine .bind (Q:=fun (result : Except StoreError Bool) now => result = .ok true →
    ∃ batch, now.db.batches.get? id = some batch ∧ batch.state ≠ .awaitingSignature) inv ?_ ?_
  · intro now _ _
    refine ⟨trivial,fun c answered => ?_⟩
    simp only [serve,System.transact,Transaction.run] at answered ⊢
    cases lost : c.lost with
    | none =>
      rw [lost] at answered
      exact begin_takes (Except.ok.inj answered)
    | some committed =>
      rw [lost] at answered
      cases answered
  · intro result now _ _ known
    refine .orFail (fun begun same yes => ?_)
    rw [yes] at same
    exact known same

theorem submitDeletion_safe (cfg : Config) (signature : String) (inv : Inv s) :
    Safe discipline (fun _ _ => True) (submitDeletion cfg owner id signature) s := by
  refine .bind inv (requireBatch_safe inv) ?_
  intro batch now _ inv found
  cases batch.state with
  | rolledBack | completed | failed | executing => trivial
  | awaitingSignature =>
    cases known : batch.txBytes with
    | none => trivial
    | some tx =>
      have holds : Holds now id tx := ⟨batch,found,known⟩
      have digest := (inv.recorded id batch tx found known).digest
      refine .bind (Q:=fun value _ => value = tx) inv rfl ?_
      intro _ at₁ since₁ inv same
      subst same
      refine .bind (Q:=fun _ _ => True) inv (fun _ _ _ => ⟨trivial,fun _ => trivial⟩) ?_
      intro verified at₂ since₂ inv _
      refine .bind (Q:=fun _ _ => True) inv (.orFail (fun _ _ => trivial)) ?_
      intro userSignature at₃ since₃ inv _
      refine .bind (Q:=fun _ _ => True) inv (.orFail (fun _ _ => trivial)) ?_
      intro key at₄ since₄ inv _
      refine .bind (Q:=fun _ _ => True) inv (.orFail (fun _ _ => trivial)) ?_
      intro sponsor at₅ since₅ inv _
      refine .bind inv (begin_safe inv _) ?_
      intro begun at₆ since₆ inv taken
      have still := (((((holds.later since₁).later since₂).later since₃).later since₄).later since₅).later since₆
      cases begun with
      | false =>
        refine .bind inv (harmless_safe (requireBatch_harmless id owner) at₆) ?_
        intro _ _ _ _ _
        trivial
      | true =>
        obtain ⟨current,stored,begun⟩ := taken rfl
        obtain ⟨other,same,txs⟩ := still
        rw [stored] at same
        cases same
        cases cfg.securityDeleteSui with
        | false => trivial
        | true => exact submitChecked_safe inv ⟨current,stored,txs,begun⟩ digest _

end Submit

section Reconcile
variable {s : System} {id : Uuid} {tx : DeleteTx} {batch : BatchRow}

theorem evictAmbiguous_harmless (owner : Owner) (batchId : Uuid) (epoch margin : Nat)
    (pairs : List (BlobId × Option ObjectInfo)) : (evictAmbiguous owner batchId epoch margin pairs).Only Harmless := by
  refine .foldlM ?_ _ _
  intro _ pair
  cases terminalState pair.2 pair.1 owner epoch margin with
  | none => trivial
  | some state => exact .bind (job_transact_harmless (evict_free _ _ _ _)) (fun _ => trivial)

theorem resolveAmbiguousRows_harmless (batchId : Uuid) (owner : Owner) (rows : List (BlobId × TrackingRow))
    (cfg : ReconcilerCfg) : (resolveAmbiguousRows batchId owner rows cfg).Only Harmless := by
  unfold resolveAmbiguousRows
  dsimp only
  split
  · trivial
  · refine .bind (.perform (fun _ => trivial)) (fun _ => .bind (.orFail _) (fun objects => ?_))
    refine .bind (.perform (fun _ => trivial)) (fun _ => .bind (.orFail _) (fun epoch => ?_))
    exact evictAmbiguous_harmless _ _ _ _ _

theorem failExecuting_harmless (batchId : Uuid) (report : TickReport) : (failExecuting batchId report).Only Harmless :=
  .bind (job_transact_harmless (rollback_free _ _)) (fun _ => trivial)

theorem failCommitted_harmless (batchId : Uuid) (batch : BatchRow) (status : ExecutionStatus) (cfg : ReconcilerCfg)
    (report : TickReport) : (failCommitted batchId batch status cfg report).Only Harmless := by
  refine .bind ?_ (fun _ => failExecuting_harmless batchId report)
  refine .bind (.perform (fun _ => trivial)) (fun result => .bind (.orFail result) (fun rows => ?_))
  exact resolveAmbiguousRows_harmless _ _ _ _

theorem evictStaleInputs_harmless (owner : Owner) (batchId : Uuid) (stale : List StaleInput) :
    (evictStaleInputs owner batchId stale).Only Harmless := by
  refine .foldlM ?_ _ _
  intro _ input
  cases input.reason.terminal with
  | none => trivial
  | some terminal => exact .bind (job_transact_harmless (evict_free _ _ _ _)) (fun _ => trivial)

theorem resolveStaleRetryInputs_harmless (batchId : Uuid) (batch : BatchRow) (tx : DeleteTx) :
    (resolveStaleRetryInputs batchId batch tx).Only Harmless := by
  refine .bind (.perform (fun _ => trivial)) (fun system => ?_)
  split
  · exact .bind (job_transact_harmless (rollback_free _ _)) (fun _ => trivial)
  · cases batch.inputBlobIds with
    | none => trivial
    | some ids =>
      refine .bind (.orFail _) (fun expected => .bind (batchGetAll_harmless _ _) (fun objects => ?_))
      refine .bind (.orFail _) (fun stale => ?_)
      split
      · trivial
      · refine .bind (evictStaleInputs_harmless _ _ _) (fun _ => ?_)
        exact .bind (job_transact_harmless (rollback_free _ _)) (fun _ => trivial)

theorem sweepRows_harmless (epoch margin : Nat)
    (pairs : List (((Owner × BlobId) × TrackingRow) × Option ObjectInfo)) :
    (sweepRows epoch margin pairs).Only Harmless := by
  refine .foldlM ?_ _ _
  intro swept pair
  cases terminalState pair.2 pair.1.1.2 pair.1.1.1 epoch margin with
  | none => trivial
  | some state => exact .bind (job_transact_harmless (fun _ => trivial)) (fun _ => trivial)

theorem runSweepPage_harmless (cfg : ReconcilerCfg) : (runSweepPage cfg).Only Harmless := by
  refine .bind (.perform (fun _ => trivial)) (fun _ => .bind (.orFail _) (fun cursor => ?_))
  refine .bind (.perform (fun _ => trivial)) (fun _ => .bind (.orFail _) (fun candidates => ?_))
  cases candidates.getLast? with
  | none => exact .bind (job_transact_harmless (fun _ => trivial)) (fun _ => trivial)
  | some last =>
    refine .bind (.perform (fun _ => trivial)) (fun _ => .bind (.orFail _) (fun objects => ?_))
    refine .bind (.perform (fun _ => trivial)) (fun _ => .bind (.orFail _) (fun epoch => ?_))
    refine .bind (sweepRows_harmless _ _ _) (fun swept => ?_)
    exact .bind (job_transact_harmless (fun _ => trivial)) (fun _ => trivial)

theorem checkSponsorBalance_harmless (cfg : ReconcilerCfg) (report : TickReport) :
    (checkSponsorBalance cfg report).Only Harmless := by
  unfold checkSponsorBalance
  cases cfg.sponsorAddress with
  | none => trivial
  | some address =>
    refine .bind (.perform (fun _ => trivial)) (fun _ => .bind (.orFail _) (fun balance => ?_))
    trivial

theorem retryBatch_safe (inv : Inv s) (begun : Begun s id tx) (signatures : List Bytes) (cfg : ReconcilerCfg)
    (report : TickReport) :
    Safe discipline (fun _ _ => True) (retryBatch id batch tx.digest tx signatures cfg report) s := by
  refine .bind (Q:=fun _ _ => True) inv (fun _ _ _ => ⟨trivial,fun _ => trivial⟩) ?_
  intro result at₁ since₁ inv _
  refine .bind (Q:=fun _ _ => True) inv (.orFail (fun _ _ => trivial)) ?_
  intro claimed at₂ since₂ inv _
  split
  · trivial
  · refine .bind inv (harmless_safe (resolveStaleRetryInputs_harmless id batch tx) at₂) ?_
    intro stale at₃ since₃ inv _
    have still := ((begun.later since₁).later since₂).later since₃
    split
    · trivial
    · refine .bind inv (executeTx_safe inv still signatures) ?_
      intro execution at₄ since₄ inv reported
      cases execution with
      | error error => trivial
      | ok result =>
        dsimp only
        split
        · trivial
        · rename_i same
          have logged := reported result rfl
          rw [not_not.mp same] at logged
          split
          · rename_i success
            exact finalizeExecuting_safe inv (still.later since₄).holds (succeeded_of_success logged success) _
          · exact harmless_safe (failCommitted_harmless id batch result.status cfg _) at₄

-- A stuck batch as the tick has read it, seen from a later state.
structure Read (s : System) (id : Uuid) (batch : BatchRow) : Prop where
  begun : ∀ tx, batch.txBytes = some tx → batch.state ≠ .awaitingSignature → Begun s id tx
  digest : ∀ digest, batch.digest = some digest → ∃ tx, batch.txBytes = some tx ∧ digest = tx.digest

theorem Read.later {now : System} (read : Read s id batch) (since : Later s now) : Read now id batch :=
  ⟨fun tx known state => (read.begun tx known state).later since,read.digest⟩

theorem read_of_stored (inv : Inv s) (found : s.db.batches.get? id = some batch) : Read s id batch := by
  refine ⟨fun tx known state => ⟨batch,found,known,state⟩,?_⟩
  intro digest known
  obtain ⟨tx,stored⟩ := Option.isSome_iff_exists.mp (inv.digests id batch found (by rw [known]; rfl))
  refine ⟨tx,stored,?_⟩
  rw [(inv.recorded id batch tx found stored).digest] at known
  exact (Option.some.inj known).symm

theorem reconcileExecuting_safe (cfg : ReconcilerCfg) (report : TickReport) (inv : Inv s) (read : Read s id batch)
    (executing : batch.state = .executing) :
    Safe discipline (fun _ _ => True) (reconcileExecuting cfg id batch report) s := by
  unfold reconcileExecuting
  cases known : batch.digest with
  | none => exact harmless_safe (failExecuting_harmless id report) s
  | some digest =>
    obtain ⟨tx,stored,rfl⟩ := read.digest digest known
    have begun := read.begun tx stored (by rw [executing]; simp)
    refine .bind (Q:=fun (status : Except SuiErr (Option ExecResult)) now => ∀ result, status = .ok (some result) →
      now.chain.log.get? tx = some result.status) inv ?_ ?_
    · intro now _ _
      refine ⟨trivial,fun c result answered => ?_⟩
      simp only [serve,Choice.rpc] at answered
      split at answered
      · cases answered
      · exact (status_logged (Except.ok.inj answered)).1
    · intro answer at₁ since₁ inv logged
      refine .bind (Q:=fun status now => ∀ result, status = some result → now.chain.log.get? tx = some result.status)
        inv ?_ ?_
      · refine .orFail (fun status same result here => ?_)
        rw [here] at same
        exact logged result same
      · intro status at₂ since₂ inv logged
        have still := (begun.later since₁).later since₂
        cases status with
        | some result =>
          dsimp only
          split
          · rename_i success
            exact finalizeExecuting_safe inv still.holds (succeeded_of_success (logged result rfl) success) _
          · exact harmless_safe (failCommitted_harmless id batch result.status cfg _) at₂
        | none =>
          refine .bind (Q:=fun _ _ => True) inv (fun _ _ _ => ⟨trivial,fun _ => trivial⟩) ?_
          intro _ at₃ since₃ inv _
          refine .bind (Q:=fun _ _ => True) inv (.orFail (fun _ _ => trivial)) ?_
          intro epoch at₄ since₄ inv _
          split
          · exact harmless_safe (failExecuting_harmless id report) at₄
          · rw [stored]
            cases batch.signatures with
            | none => trivial
            | some signatures => exact retryBatch_safe inv ((still.later since₃).later since₄) signatures cfg report

theorem reconcileBatch_safe (cfg : ReconcilerCfg) (report : TickReport) (inv : Inv s) (read : Read s id batch) :
    Safe discipline (fun _ _ => True) (reconcileBatch cfg report (id,batch)) s := by
  cases state : batch.state with
  | awaitingSignature =>
    simp only [reconcileBatch,state]
    refine .bind inv (harmless_safe (job_transact_harmless (rollback_free _ _)) s) ?_
    intro _ _ _ _ _
    trivial
  | executing =>
    simp only [reconcileBatch,state]
    exact reconcileExecuting_safe cfg report inv read state
  | completed | failed | rolledBack =>
    simp only [reconcileBatch,state]
    trivial

theorem stuckBatches_read (inv : Inv s) {awaiting executing : Timestamp} {entry : Uuid × BatchRow}
    (member : entry ∈ s.db.stuckBatches awaiting executing) : Read s entry.1 entry.2 := by
  simp only [Db.stuckBatches,Db.batchesWhere,List.mem_insertionSort,List.mem_filter] at member
  exact read_of_stored inv (Store.get?_eq_some.mpr member.1)

theorem runReconcilerTick_safe (cfg : ReconcilerCfg) (inv : Inv s) :
    Safe discipline (fun _ _ => True) (runReconcilerTick cfg) s := by
  unfold runReconcilerTick
  split
  · trivial
  · refine .bind (Q:=fun (answer : Except StoreError (List (Uuid × BatchRow))) now => ∀ batches,
      answer = .ok batches → ∀ entry ∈ batches, Read now entry.1 entry.2) inv ?_ ?_
    · intro now _ inv
      refine ⟨trivial,fun c batches answered entry member => ?_⟩
      simp only [serve,Choice.read] at answered
      split at answered
      · cases answered
      · rw [← Except.ok.inj answered] at member
        exact stuckBatches_read inv member
    · intro answer at₁ since₁ inv read
      refine .bind (Q:=fun batches now => ∀ entry ∈ batches, Read now entry.1 entry.2) inv
        (.orFail (fun batches same => read batches same)) ?_
      intro batches at₂ since₂ inv read
      refine .bind (Q:=fun _ _ => True) inv ?_ ?_
      · -- What was read at the start of the loop is known in every round.
        refine Safe.weaken (Safe.foldlM (I:=fun _ _ now => Later at₂ now) ?_ [] _ inv (Later.refl at₂))
          (fun _ _ _ => trivial)
        intro seen entry report now member inv since
        refine Safe.weaken (Safe.remember (reconcileBatch_safe cfg report inv ((read entry member).later since))) ?_
        intro _ after both
        exact Later.trans at₂ now after since both.2
      · intro report at₃ since₃ inv _
        refine .bind inv (harmless_safe (runSweepPage_harmless cfg) at₃) ?_
        intro swept at₄ since₄ inv _
        exact harmless_safe (checkSponsorBalance_harmless cfg _) at₄

end Reconcile
end MemWal.SecurityDelete
