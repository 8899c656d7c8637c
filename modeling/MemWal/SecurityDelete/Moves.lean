import MemWal.SecurityDelete.Ledger

namespace MemWal.SecurityDelete
open Library

-- What one committed transaction does to one row of each table. Later modules
-- read these and not the transactions.

structure BatchRow.SameTx (old new : BatchRow) : Prop where
  owner : new.owner = old.owner
  digest : new.digest = old.digest
  txBytes : new.txBytes = old.txBytes
  inputBlobIds : new.inputBlobIds = old.inputBlobIds
  nonce : new.nonce = old.nonce
  expireEpoch : new.expireEpoch = old.expireEpoch

inductive BatchMove (t : Transaction) (id : Uuid) (old new : BatchRow) : Prop where
  | kept : old.SameTx new → new.state = old.state → BatchMove t id old new
  | begun : old.SameTx new → old.state = .awaitingSignature → new.state = .executing → BatchMove t id old new
  | released (release : Release) : t = .rollback id release → old.SameTx new → old.state = release.expected →
      new.state = release.target → BatchMove t id old new
  | finalized : t = .finalize id → old.SameTx new → old.state = .executing → new.state = .completed →
      BatchMove t id old new
  | prepared (digest : Digest) (tx : DeleteTx) (ids : List BlobId) (count nonce epoch : Nat) :
      t = .setPrepared id digest tx ids count nonce epoch → old.state = .awaitingSignature → old.txBytes = none →
      new = {old with
        digest := some digest, txBytes := some tx, inputBlobIds := some ids
        blobCount := count, nonce := nonce, expireEpoch := epoch} → BatchMove t id old new

theorem BatchRow.SameTx.refl (batch : BatchRow) : batch.SameTx batch := ⟨rfl,rfl,rfl,rfl,rfl,rfl⟩

section Moves
variable {m : Moment} {db next : Db} {t : Transaction}

theorem put_batch {batchId id : Uuid} {batch after new : BatchRow} (found : db.batches.get? batchId = some batch)
    (present : (db.batches.put batchId after).get? id = some new) (move : BatchMove t batchId batch after) :
    ∃ old, db.batches.get? id = some old ∧ BatchMove t id old new := by
  rw [Store.get?_put found] at present
  split at present
  · rename_i same
    subst same
    cases present
    exact ⟨batch,found,move⟩
  · exact ⟨new,present,.kept (.refl new) rfl⟩

theorem change_batch {id : Uuid} {new : BatchRow} (change : Change m db t next)
    (present : next.batches.get? id = some new) :
    (∃ old, db.batches.get? id = some old ∧ BatchMove t id old new) ∨
    (db.batches.get? id = none ∧ new.txBytes = none ∧ new.digest = none ∧ new.state = .awaitingSignature) := by
  cases change with
  | claimed _ owner batchId keys _ _ unused _ batches =>
    rw [batches] at present
    split at present
    · rename_i same
      cases present
      exact .inr ⟨by rw [same]; exact unused,rfl,rfl,rfl⟩
    · exact .inl ⟨new,present,.kept (.refl new) rfl⟩
  | prepared batchId digest tx ids count nonce epoch batch found state unset =>
    exact .inl (put_batch found present (.prepared digest tx ids count nonce epoch rfl state unset rfl))
  | begun batchId signatures batch found state =>
    exact .inl (put_batch found present (.begun ⟨rfl,rfl,rfl,rfl,rfl,rfl⟩ state rfl))
  | retried batchId retryBefore batch found =>
    exact .inl (put_batch found present (.kept ⟨rfl,rfl,rfl,rfl,rfl,rfl⟩ rfl))
  | released batchId release batch found state =>
    exact .inl (put_batch found present (.released release rfl ⟨rfl,rfl,rfl,rfl,rfl,rfl⟩ state rfl))
  | finalized batchId batch objectId found state =>
    exact .inl (put_batch found present (.finalized rfl ⟨rfl,rfl,rfl,rfl,rfl,rfl⟩ state rfl))
  | objectIds owner pairs =>
    rw [(setObjectIds_parts _ _ owner pairs).2.1] at present
    exact .inl ⟨new,present,.kept (.refl new) rfl⟩
  | _ => exact .inl ⟨new,present,.kept (.refl new) rfl⟩

-- No batch is ever removed.
theorem batch_stays {id : Uuid} {old : BatchRow} (change : Change m db t next)
    (found : db.batches.get? id = some old) : ∃ new, next.batches.get? id = some new := by
  have put : ∀ {batchId : Uuid} {batch after : BatchRow}, db.batches.get? batchId = some batch →
      ∃ new, (db.batches.put batchId after).get? id = some new := by
    intro batchId batch after hit
    rw [Store.get?_put hit]
    split
    · exact ⟨after,rfl⟩
    · exact ⟨old,found⟩
  cases change with
  | claimed _ owner batchId keys _ _ unused _ batches =>
    rw [batches]
    split
    · exact ⟨_,rfl⟩
    · exact ⟨old,found⟩
  | prepared _ _ _ _ _ _ _ _ hit | begun _ _ _ hit | retried _ _ _ hit | released _ _ _ hit
  | finalized _ _ _ hit => exact put hit
  | objectIds owner pairs =>
    rw [(setObjectIds_parts _ _ owner pairs).2.1]
    exact ⟨old,found⟩
  | _ => exact ⟨old,found⟩

-- A transaction that is stored differs from every one stored before, and as
-- many rows are claimed as its caller says.
theorem prepared_effect {id : Uuid} {digest : Digest} {tx : DeleteTx} {ids : List BlobId} {count nonce epoch : Nat}
    {old new : BatchRow} (change : Change m db (.setPrepared id digest tx ids count nonce epoch) next)
    (found : db.batches.get? id = some old) (unset : old.txBytes = none)
    (stored : next.batches.get? id = some new) (set : new.txBytes.isSome) :
    db.tracking.count (fun _ row => row.batchId = some id ∧ row.state = .deleting) = count ∧
    next.tracking = db.tracking ∧
    ∀ other prior, db.batches.get? other = some prior → prior.txBytes.isSome →
      ¬(prior.expireEpoch = epoch ∧ prior.nonce = nonce) := by
  cases change with
  | same =>
    rw [found] at stored
    cases stored
    rw [unset] at set
    cases set
  | claimed _ _ _ _ _ call =>
    rcases call with ⟨_,_,wrong⟩ | ⟨_,_,wrong⟩ <;> cases wrong
  | prepared _ _ _ _ _ _ _ batch _ _ _ counted distinct => exact ⟨counted,rfl,distinct⟩

-- Tracking rows

-- The batch is finalized here and now.
structure Finalizes (db next : Db) (t : Transaction) (id : Uuid) (batch after : BatchRow) : Prop where
  call : t = .finalize id
  found : db.batches.get? id = some batch
  executing : batch.state = .executing
  stored : next.batches.get? id = some after
  completed : after.state = .completed
  same : batch.SameTx after

structure RowMove (db next : Db) (t : Transaction) (key : Owner × BlobId) (old new : TrackingRow) : Prop where
  objectId : ∀ objectId, old.objectId = some objectId → new.objectId = some objectId
  entered : ∀ id, new.batchId = some id → old.batchId = some id ∨ db.batches.get? id = none
  deleted : new.state = .deleted → old.state = .deleted ∨
    ∃ id batch after, Finalizes db next t id batch after ∧ old.batchId = some id
  final : old.state = .deleted → new.state = .deleted
  left_ : ∀ id, old.batchId = some id → new.batchId = some id ∨
    (∃ toState, t = .evict key.1 key.2 id toState) ∨
    (∃ after, next.batches.get? id = some after ∧ after.state.active = false)

theorem RowMove.refl (row : TrackingRow) (key : Owner × BlobId) : RowMove db next t key row row :=
  ⟨fun _ same => same,fun _ same => .inl same,fun same => .inl same,fun same => same,fun _ same => .inl same⟩

-- A row that an UPDATE does not hit stays, one it hits is rewritten.
theorem update_row {key : Owner × BlobId} {new : TrackingRow} {p : Owner × BlobId → TrackingRow → Bool}
    {f : Owner × BlobId → TrackingRow → TrackingRow} (present : (db.tracking.update p f).get? key = some new)
    (hit : ∀ old, db.tracking.get? key = some old → p key old = true → RowMove db next t key old (f key old)) :
    ∃ old, db.tracking.get? key = some old ∧ RowMove db next t key old new := by
  rw [Store.get?_update,Option.map_eq_some_iff] at present
  obtain ⟨old,found,equal⟩ := present
  refine ⟨old,found,?_⟩
  split at equal
  · rename_i matched
    subst equal
    exact hit old found matched
  · subst equal
    exact .refl old key

theorem claimed_by_state (valid : Consistent db) {key : Owner × BlobId} {row : TrackingRow} {id : Uuid}
    (found : db.tracking.get? key = some row) (pointer : row.batchId = some id) : row.state = .deleting :=
  (valid.claimed key row found).mpr (by rw [pointer]; rfl)

theorem finalizes {id : Uuid} {batch : BatchRow} {tracking : Store (Owner × BlobId) TrackingRow}
    {members : Store (Uuid × Owner × BlobId) MemberRow} (found : db.batches.get? id = some batch)
    (executing : batch.state = .executing) :
    Finalizes db {db with
      batches := db.batches.put id {batch with state := .completed, resolvedAt := some m.now, signatures := none}
      tracking := tracking
      members := members} (.finalize id) id batch
      {batch with state := .completed, resolvedAt := some m.now, signatures := none} :=
  ⟨rfl,found,executing,(Store.get?_put found _ id).trans (if_pos rfl),rfl,⟨rfl,rfl,rfl,rfl,rfl,rfl⟩⟩

theorem change_row {key : Owner × BlobId} {new : TrackingRow} (valid : Consistent db) (change : Change m db t next)
    (present : next.tracking.get? key = some new) :
    (∃ old, db.tracking.get? key = some old ∧ RowMove db next t key old new) ∨
    (db.tracking.get? key = none ∧ new.batchId = none ∧ new.state = .deletable) := by
  -- A row in another state than 'deleting' points at no batch.
  have idle : ∀ {old : TrackingRow}, db.tracking.get? key = some old → old.state = .deletable →
      ∀ id, old.batchId ≠ some id := by
    intro old found state id pointer
    rw [claimed_by_state valid found pointer] at state
    cases state
  cases change with
  | claimed _ owner batchId keys _ _ unused open_ _ tracking =>
    rw [tracking] at present
    refine .inl (update_row present ?_)
    intro old found matched
    obtain ⟨_,row,same,state⟩ := open_ key (by simpa using matched)
    rw [found] at same
    cases same
    refine ⟨fun _ known => known,?_,fun wrong => (by cases wrong),?_,fun id pointer => absurd pointer (idle found state id)⟩
    · intro id pointer
      cases pointer
      exact .inr unused
    · intro gone
      rw [state] at gone
      cases gone
  | evicted owner blobId batchId toState terminal row objectId _ found state pointer =>
    rw [Store.get?_put found] at present
    split at present
    · rename_i same
      subst same
      cases present
      refine .inl ⟨row,found,fun _ known => known,fun _ wrong => (by cases wrong),?_,?_,?_⟩
      · intro gone
        cases terminal <;> cases gone
      · intro gone
        rw [state] at gone
        cases gone
      · intro id same
        rw [pointer] at same
        cases same
        exact .inr (.inl ⟨toState,rfl⟩)
    · exact .inl ⟨new,present,.refl new key⟩
  | released batchId release batch found expected =>
    refine .inl (update_row present ?_)
    intro old stored matched
    simp only [decide_eq_true_eq] at matched
    refine ⟨fun _ known => known,fun _ wrong => (by cases wrong),fun wrong => (by cases wrong),?_,?_⟩
    · intro gone
      rw [matched.2] at gone
      cases gone
    · intro id same
      rw [matched.1] at same
      cases same
      refine .inr (.inr ⟨_,(Store.get?_put found _ batchId).trans (if_pos rfl),?_⟩)
      cases release <;> rfl
  | finalized batchId batch objectId found executing =>
    refine .inl (update_row present ?_)
    intro old stored matched
    simp only [decide_eq_true_eq] at matched
    refine ⟨fun _ known => known,fun _ wrong => (by cases wrong),?_,fun _ => rfl,?_⟩
    · exact fun _ => .inr ⟨batchId,batch,_,finalizes found executing,matched.1⟩
    · intro id same
      rw [matched.1] at same
      cases same
      exact .inr (.inr ⟨_,(finalizes found executing).stored,rfl⟩)
  | swept owner blobId toState terminal =>
    refine .inl (update_row present ?_)
    intro old stored matched
    simp only [decide_eq_true_eq] at matched
    refine ⟨fun _ known => known,fun _ same => .inl same,?_,?_,fun _ same => .inl same⟩
    · intro gone
      cases terminal <;> cases gone
    · intro gone
      rw [matched.2] at gone
      cases gone
  | disowned owner scanFence =>
    refine .inl (update_row present ?_)
    intro old stored matched
    simp only [decide_eq_true_eq] at matched
    refine ⟨fun _ known => known,fun _ same => .inl same,fun wrong => (by cases wrong),?_,fun _ same => .inl same⟩
    intro gone
    rw [matched.2.1] at gone
    cases gone
  | objectIds owner pairs =>
    rw [(setObjectIds_parts _ _ owner pairs).1,Option.map_eq_some_iff] at present
    obtain ⟨old,found,rfl⟩ := present
    obtain ⟨state,batch,_,kept,_⟩ := fillObjectId_keeps (m:=m) owner key pairs old
    refine .inl ⟨old,found,?_,?_,?_,?_,?_⟩
    · intro objectId known
      rw [kept (by rw [known]; rfl)]
      exact known
    · exact fun id same => .inl (batch.symm.trans same)
    · exact fun gone => .inl (state.symm.trans gone)
    · exact fun gone => state.trans gone
    · exact fun id same => .inl (batch.trans same)
  | claimedObjectIds owner batchId pairs =>
    refine .inl (update_row present ?_)
    intro old stored matched
    simp only [decide_eq_true_eq] at matched
    refine ⟨?_,fun _ same => .inl same,fun gone => .inl gone,fun gone => gone,fun _ same => .inl same⟩
    intro objectId known
    rw [matched.2.2.2.2] at known
    cases known
  | tracked rawOwner owner blobId createdAt =>
    cases known : db.tracking.get? (owner,blobId) with
    | some row =>
      rw [Store.insert_present _ known] at present
      exact .inl ⟨new,present,.refl new key⟩
    | none =>
      rw [Store.get?_insert _ known] at present
      split at present
      · rename_i same
        cases present
        exact .inr ⟨by rw [same]; exact known,rfl,rfl⟩
      · exact .inl ⟨new,present,.refl new key⟩
  | _ => exact .inl ⟨new,present,.refl new key⟩

-- A row that has gone stays in the table.
theorem row_stays {key : Owner × BlobId} {old : TrackingRow} (change : Change m db t next)
    (found : db.tracking.get? key = some old) : ∃ new, next.tracking.get? key = some new := by
  have updated : ∀ {p : Owner × BlobId → TrackingRow → Bool} {f : Owner × BlobId → TrackingRow → TrackingRow},
      ∃ new, (db.tracking.update p f).get? key = some new := by
    intro p f
    exact ⟨_,by rw [Store.get?_update,found]; rfl⟩
  cases change with
  | claimed _ owner batchId keys _ _ _ _ _ tracking =>
    rw [tracking]
    exact updated
  | evicted owner blobId batchId toState terminal row objectId _ hit =>
    rw [Store.get?_put hit]
    split
    · exact ⟨_,rfl⟩
    · exact ⟨old,found⟩
  | released | finalized | swept | disowned | claimedObjectIds => exact updated
  | objectIds owner pairs =>
    rw [(setObjectIds_parts _ _ owner pairs).1,found]
    exact ⟨_,rfl⟩
  | tracked rawOwner owner blobId createdAt =>
    cases known : db.tracking.get? (owner,blobId) with
    | some row =>
      rw [Store.insert_present _ known]
      exact ⟨old,found⟩
    | none =>
      rw [Store.get?_insert _ known]
      split
      · exact ⟨_,rfl⟩
      · exact ⟨old,found⟩
  | _ => exact ⟨old,found⟩

-- Members of the ledger

theorem outcome_update {members : Store (Uuid × Owner × BlobId) MemberRow} {key : Uuid × Owner × BlobId}
    {p : Uuid × Owner × BlobId → MemberRow → Bool} {f : Uuid × Owner × BlobId → MemberRow → MemberRow}
    {outcome : Outcome} (present : ((members.update p f).get? key).map MemberRow.outcome = some outcome) :
    ∃ old, members.get? key = some old ∧
      ((p key old = true ∧ (f key old).outcome = outcome) ∨ (p key old = false ∧ old.outcome = outcome)) := by
  rw [Store.get?_update,Option.map_map,Option.map_eq_some_iff] at present
  obtain ⟨old,found,equal⟩ := present
  refine ⟨old,found,?_⟩
  simp only [Function.comp_apply] at equal
  split at equal
  · rename_i matched
    exact .inl ⟨matched,equal⟩
  · rename_i unmatched
    exact .inr ⟨Bool.eq_false_of_not_eq_true unmatched,equal⟩

theorem outcome_of_change {key : Uuid × Owner × BlobId} (valid : Consistent db) (change : Change m db t next)
    (gone : next.outcomeOf key = some .deleted) :
    db.outcomeOf key = some .deleted ∨
    (∃ row batch after, Finalizes db next t key.1 batch after ∧ db.tracking.get? key.2 = some row ∧
      row.batchId = some key.1) := by
  cases change with
  | claimed _ owner batchId keys _ _ _ _ _ _ unclaimed members =>
    rw [Db.outcomeOf,members,Option.map_eq_some_iff] at gone
    obtain ⟨member,found,outcome⟩ := gone
    rcases (Store.get?_insertAll (claimedMembers_nodup _ _ batchId) unclaimed).mp found with old | new
    · exact .inl (outcomeOf_some.mpr ⟨member,old,outcome⟩)
    · obtain ⟨_,row,_,_,rfl⟩ := mem_claimedMembers.mp new
      cases outcome
  | evicted owner blobId batchId toState terminal row objectId =>
    obtain ⟨old,found,⟨_,wrong⟩ | ⟨_,same⟩⟩ := outcome_update gone
    · cases terminal <;> cases wrong
    · exact .inl (outcomeOf_some.mpr ⟨old,found,same⟩)
  | released batchId release batch =>
    obtain ⟨old,found,⟨_,wrong⟩ | ⟨_,same⟩⟩ := outcome_update gone
    · cases wrong
    · exact .inl (outcomeOf_some.mpr ⟨old,found,same⟩)
  | finalized batchId batch objectId stored executing =>
    obtain ⟨old,found,⟨hit,_⟩ | ⟨_,same⟩⟩ := outcome_update gone
    · simp only [decide_eq_true_eq] at hit
      obtain ⟨rfl,claimed,_⟩ := hit
      obtain ⟨row,present,pointer⟩ := (valid.lineage key.1 key.2.1 key.2.2).mpr ⟨old,found,claimed⟩
      exact .inr ⟨row,batch,_,finalizes stored executing,present,pointer⟩
    · exact .inl (outcomeOf_some.mpr ⟨old,found,same⟩)
  | claimedObjectIds owner batchId pairs =>
    obtain ⟨old,found,⟨_,same⟩ | ⟨_,same⟩⟩ := outcome_update gone
    · exact .inl (outcomeOf_some.mpr ⟨old,found,same⟩)
    · exact .inl (outcomeOf_some.mpr ⟨old,found,same⟩)
  | objectIds owner pairs =>
    rw [Db.outcomeOf,(setObjectIds_parts _ _ owner pairs).2.2.1] at gone
    exact .inl gone
  | _ => exact .inl gone

theorem deleted_outcome_stays {key : Uuid × Owner × BlobId} (change : Change m db t next)
    (gone : db.outcomeOf key = some .deleted) : next.outcomeOf key = some .deleted := by
  obtain ⟨member,found,outcome⟩ := outcomeOf_some.mp gone
  -- An UPDATE of the ledger asks for open claims, so it leaves this one alone.
  have skipped : ∀ {p : Uuid × Owner × BlobId → MemberRow → Bool}
      {f : Uuid × Owner × BlobId → MemberRow → MemberRow}, p key member = false →
      ((db.members.update p f).get? key).map MemberRow.outcome = some .deleted := by
    intro p f miss
    rw [Store.get?_update,found]
    simp [miss,outcome]
  cases change with
  | claimed _ owner batchId keys _ _ _ _ _ _ unclaimed members =>
    rw [Db.outcomeOf,members,(Store.get?_insertAll (claimedMembers_nodup _ _ batchId) unclaimed).mpr (.inl found)]
    exact congrArg some outcome
  | evicted | released | finalized | claimedObjectIds => exact skipped (by simp [outcome])
  | objectIds owner pairs =>
    rw [Db.outcomeOf,(setObjectIds_parts _ _ owner pairs).2.2.1]
    exact gone
  | _ => exact gone

-- A finalize that takes effect resolves every row the batch still holds.
theorem finalize_marks {id : Uuid} {batch after : BatchRow} {key : Owner × BlobId} {row : TrackingRow}
    (valid : Consistent db) (change : Change m db t next) (finalized : Finalizes db next t id batch after)
    (held : db.tracking.get? key = some row) (pointer : row.batchId = some id) :
    next.outcomeOf (id,key) = some .deleted ∧ ∃ new, next.tracking.get? key = some new ∧ new.state = .deleted := by
  obtain ⟨rfl,found,executing,stored,completed,_⟩ := finalized
  cases change with
  | same =>
    rw [found] at stored
    cases stored
    rw [executing] at completed
    cases completed
  | claimed _ _ _ _ _ call =>
    rcases call with ⟨_,_,wrong⟩ | ⟨_,_,wrong⟩ <;> cases wrong
  | finalized _ _ objectId =>
    obtain ⟨member,present,claimed⟩ := (valid.lineage id key.1 key.2).mp ⟨row,held,pointer⟩
    have state := claimed_by_state valid held pointer
    refine ⟨?_,{row with state := .deleted, batchId := none, updatedAt := m.now},?_,rfl⟩
    · simp [Db.outcomeOf,present,claimed,held]
    · simp [held,pointer,state]

end Moves
end MemWal.SecurityDelete
