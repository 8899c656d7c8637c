import MemWal.SecurityDelete.Store

namespace MemWal.SecurityDelete
open Library Library.Fallible

-- Everything a committed transaction can do to the tables, guards included.
inductive Change (m : Moment) (db : Db) : Transaction → Db → Prop where
  | same (t : Transaction) : Change m db t db
  | claimed (t : Transaction) (owner : Owner) (batchId : Uuid) (keys : List (Owner × BlobId)) (next : Db) :
      (∃ blobIds cap, t = .createSelection owner batchId blobIds cap) ∨
        (∃ max cap, t = .createAll owner batchId max cap) →
      db.batches.get? batchId = none →
      (∀ key ∈ keys, key.1 = owner ∧ ∃ row, db.tracking.get? key = some row ∧ row.state = .deletable) →
      (∀ id, next.batches.get? id = if id = batchId then some {newBatch m owner with blobCount := keys.length}
        else db.batches.get? id) →
      next.tracking = db.tracking.update (fun key _ => key ∈ keys)
        (fun _ row => {row with state := .deleting, batchId := some batchId, updatedAt := m.now}) →
      (∀ row ∈ next.claimedMembers m batchId, db.members.get? row.1 = none) →
      next.members = db.members.insertAll (next.claimedMembers m batchId) →
      next.sequence = db.sequence → next.resolverCheckpoint = db.resolverCheckpoint → Change m db t next
  | evicted (owner : Owner) (blobId : BlobId) (batchId : Uuid) (toState : BlobState) (terminal : Terminal)
      (row : TrackingRow) (objectId : Option ObjectId → Option ObjectId) :
      toState.terminal? = some terminal →
      db.tracking.get? (owner,blobId) = some row → row.state = .deleting → row.batchId = some batchId →
      Change m db (.evict owner blobId batchId toState) {db with
        tracking := db.tracking.put (owner,blobId)
          {row with state := terminal.state, batchId := none, updatedAt := m.now}
        members := db.members.update (fun key row => key = (batchId,owner,blobId) ∧ row.outcome = .claimed)
          (fun _ row => {row with
            outcome := terminal.outcome, resolvedAt := some m.now, objectId := objectId row.objectId})}
  | prepared (batchId : Uuid) (digest : Digest) (txBytes : DeleteTx) (inputBlobIds : List BlobId)
      (blobCount nonce expireEpoch : Nat) (batch : BatchRow) :
      db.batches.get? batchId = some batch → batch.state = .awaitingSignature → batch.txBytes = none →
      db.tracking.count (fun _ row => row.batchId = some batchId ∧ row.state = .deleting) = blobCount →
      (∀ id other, db.batches.get? id = some other → other.txBytes.isSome →
        ¬(other.expireEpoch = expireEpoch ∧ other.nonce = nonce)) →
      Change m db (.setPrepared batchId digest txBytes inputBlobIds blobCount nonce expireEpoch) {db with
        batches := db.batches.put batchId {batch with
          digest := some digest, txBytes := some txBytes, inputBlobIds := some inputBlobIds
          blobCount := blobCount, nonce := nonce, expireEpoch := expireEpoch}}
  | begun (batchId : Uuid) (signatures : List Bytes) (batch : BatchRow) :
      db.batches.get? batchId = some batch → batch.state = .awaitingSignature → batch.txBytes.isSome →
      Change m db (.beginExecution batchId signatures) {db with
        batches := db.batches.put batchId {batch with
          state := .executing, signatures := some signatures, executingAt := some m.now
          lastSubmitAt := some m.now, submitAttempts := 1}}
  | retried (batchId : Uuid) (retryBefore : Timestamp) (batch : BatchRow) :
      db.batches.get? batchId = some batch → batch.state = .executing →
      Change m db (.claimRetry batchId retryBefore) {db with
        batches := db.batches.put batchId {batch with
          lastSubmitAt := some m.now, submitAttempts := batch.submitAttempts + 1}}
  | released (batchId : Uuid) (release : Release) (batch : BatchRow) :
      db.batches.get? batchId = some batch → batch.state = release.expected →
      Change m db (.rollback batchId release) {db with
        batches := db.batches.put batchId
          {batch with state := release.target, resolvedAt := some m.now, signatures := none}
        tracking := db.tracking.update (fun _ row => row.batchId = some batchId ∧ row.state = .deleting)
          (fun _ row => {row with state := .deletable, batchId := none, updatedAt := m.now})
        members := db.members.update (fun key row => key.1 = batchId ∧ row.outcome = .claimed)
          (fun _ row => {row with outcome := .released, resolvedAt := some m.now})}
  | finalized (batchId : Uuid) (batch : BatchRow) (objectId : Owner × BlobId → Option ObjectId → Option ObjectId) :
      db.batches.get? batchId = some batch → batch.state = .executing →
      Change m db (.finalize batchId) {db with
        batches := db.batches.put batchId
          {batch with state := .completed, resolvedAt := some m.now, signatures := none}
        tracking := db.tracking.update (fun _ row => row.batchId = some batchId ∧ row.state = .deleting)
          (fun _ row => {row with state := .deleted, batchId := none, updatedAt := m.now})
        members := db.members.update (fun key row => key.1 = batchId ∧ row.outcome = .claimed ∧
            (db.tracking.get? key.2).isSome)
          (fun key row => {row with
            outcome := .deleted, resolvedAt := some m.now, objectId := objectId key.2 row.objectId})}
  | swept (owner : Owner) (blobId : BlobId) (toState : BlobState) (terminal : Terminal) :
      toState.terminal? = some terminal →
      Change m db (.sweepMark owner blobId toState) {db with
        tracking := db.tracking.update (fun key row => key = (owner,blobId) ∧ row.state = .deletable)
          (fun _ row => {row with state := terminal.state, updatedAt := m.now})}
  | objectIds (owner : Owner) (pairs : List (BlobId × ObjectId)) :
      Change m db (.setObjectIds owner pairs) (db.setObjectIds m owner pairs).1
  | claimedObjectIds (owner : Owner) (batchId : Uuid) (pairs : List (BlobId × ObjectId)) :
      Change m db (.setClaimedObjectIds owner batchId pairs) (db.setClaimedObjectIds m owner batchId pairs).1
  | fenced (lockFree : Bool) :
      lockFree = true → Change m db (.reserveFence lockFree) {db with sequence := db.sequence + 1}
  | disowned (owner : Owner) (scanFence : Nat) :
      Change m db (.completeScan owner scanFence) {db with
        tracking := db.tracking.update (fun key row =>
            key.1 = owner ∧ row.state = .deletable ∧ row.objectId = none ∧ row.trackedSeq < scanFence)
          (fun _ row => {row with state := .notOwner, updatedAt := m.now})
        resolverCompleted := db.resolverCompleted.upsert owner scanFence}
  | tracked (rawOwner : String) (owner : Owner) (blobId : BlobId) (createdAt : Timestamp) :
      canonicalSuiAddress rawOwner = some owner →
      Change m db (.trackDeletable rawOwner blobId createdAt) {db with
        sequence := db.sequence + 1
        tracking := db.tracking.insert (owner,blobId)
          ⟨none,.deletable,none,createdAt,db.sequence + 1,m.now⟩}
  | checkpointed (owner : Owner) (checkpoint : ResolverCheckpoint) :
      Change m db (.saveCheckpoint owner checkpoint) {db with
        resolverCheckpoint := db.resolverCheckpoint.upsert owner checkpoint}
  | sweepMoved (cursor : Option SweepCursor) :
      Change m db (.saveSweepCursor cursor) {db with sweepCursor := cursor}

section Inversion
variable {m : Moment} {db next : Db}

theorem claimed_batches {owner : Owner} {batchId : Uuid} {keys : List (Owner × BlobId)} {fresh : Db}
    (inserted : db.insertBatch m owner batchId = .ok fresh)
    (recorded : ((fresh.claimRows m batchId keys).setBlobCount batchId keys.length).insertClaimedMembers m batchId =
      .ok next) (id : Uuid) :
    next.batches.get? id = if id = batchId then some {newBatch m owner with blobCount := keys.length}
      else db.batches.get? id := by
  simp only [Db.insertBatch,bind_ok,ensure_ok,exists_const,pure_ok] at inserted
  obtain ⟨unused,rfl⟩ := inserted
  simp only [Db.insertClaimedMembers,bind_ok,ensure_ok,exists_const,pure_ok] at recorded
  obtain ⟨_,_,rfl⟩ := recorded
  simp only [Db.setBlobCount,Db.claimRows,Store.get?_update,Store.get?_insert _ unused]
  by_cases same : id = batchId
  · simp [same]
  · cases db.batches.get? id <;> simp [same]

theorem claimed_change {t : Transaction} {owner : Owner} {batchId : Uuid} {keys : List (Owner × BlobId)} {fresh : Db}
    (call : (∃ blobIds cap, t = .createSelection owner batchId blobIds cap) ∨
      (∃ max cap, t = .createAll owner batchId max cap))
    (inserted : db.insertBatch m owner batchId = .ok fresh)
    (open_ : ∀ key ∈ keys, key.1 = owner ∧ ∃ row, db.tracking.get? key = some row ∧ row.state = .deletable)
    (recorded : ((fresh.claimRows m batchId keys).setBlobCount batchId keys.length).insertClaimedMembers m batchId =
      .ok next) : Change m db t next := by
  have batches := claimed_batches inserted recorded
  simp only [Db.insertBatch,bind_ok,ensure_ok,exists_const,pure_ok] at inserted
  obtain ⟨unused,rfl⟩ := inserted
  simp only [Db.insertClaimedMembers,bind_ok,ensure_ok,exists_const,pure_ok] at recorded
  obtain ⟨unclaimed,_,rfl⟩ := recorded
  exact .claimed t owner batchId keys _ call unused open_ batches rfl unclaimed rfl rfl rfl

theorem createSelection_change {owner : Owner} {batchId : Uuid} {blobIds : List BlobId} {cap : Int}
    {rows : List (BlobId × TrackingRow)}
    (ran : db.createBatchAndClaimSelection m owner batchId blobIds cap = .ok (next,rows)) :
    Change m db (.createSelection owner batchId blobIds cap) next := by
  simp only [Db.createBatchAndClaimSelection,bind_ok,ensure_ok,exists_const,pure_ok] at ran
  obtain ⟨_,_,fresh,inserted,_,made,recorded,equal⟩ := ran
  cases equal
  refine claimed_change (.inl ⟨blobIds,cap,rfl⟩) inserted ?_ recorded
  intro key member
  obtain ⟨row,found,holds⟩ := Store.mem_keysWhere.mp member
  simp only [Db.insertBatch,bind_ok,ensure_ok,exists_const,pure_ok] at inserted
  obtain ⟨_,rfl⟩ := inserted
  simp only [decide_eq_true_eq] at holds
  exact ⟨holds.1,row,found,holds.2.2⟩

theorem mem_blobsWhere {owner : Owner} {p : BlobId → TrackingRow → Bool} {blobId : BlobId} {row : TrackingRow} :
    (blobId,row) ∈ db.blobsWhere owner p ↔ db.tracking.get? (owner,blobId) = some row ∧ p blobId row = true := by
  simp only [Db.blobsWhere,List.mem_insertionSort,List.mem_filterMap,Prod.exists,Store.get?_eq_some,
    Option.ite_none_right_eq_some,Option.some.injEq,Prod.mk.injEq]
  constructor
  · intro found
    obtain ⟨_,_,_,member,⟨rfl,holds⟩,rfl,rfl⟩ := found
    exact ⟨member,holds⟩
  · intro found
    obtain ⟨member,holds⟩ := found
    exact ⟨owner,blobId,row,member,⟨rfl,holds⟩,rfl,rfl⟩

theorem createAll_change {owner : Owner} {batchId : Uuid} {max : Nat} {cap : Int} {rows : List (BlobId × TrackingRow)}
    (ran : db.createBatchAndClaimAll m owner batchId max cap = .ok (next,rows)) :
    Change m db (.createAll owner batchId max cap) next := by
  simp only [Db.createBatchAndClaimAll,bind_ok] at ran
  obtain ⟨_,_,fresh,inserted,ran⟩ := ran
  split at ran
  · cases ran
    exact .same _
  · simp only [bind_ok,pure_ok] at ran
    obtain ⟨made,recorded,equal⟩ := ran
    cases equal
    refine claimed_change (.inr ⟨max,cap,rfl⟩) inserted ?_ recorded
    intro key member
    obtain ⟨⟨blobId,row⟩,taken,rfl⟩ := List.mem_map.mp member
    obtain ⟨found,holds⟩ := mem_blobsWhere.mp (List.mem_of_mem_take taken)
    simp only [decide_eq_true_eq] at holds
    exact ⟨rfl,row,found,holds.1⟩

theorem evict_change {owner : Owner} {blobId : BlobId} {batchId : Uuid} {toState : BlobState} {evicted : Bool}
    (ran : db.evictClaimedBlob m owner blobId batchId toState = .ok (next,evicted)) :
    Change m db (.evict owner blobId batchId toState) next := by
  simp only [Db.evictClaimedBlob,bind_ok,require_ok] at ran
  obtain ⟨terminal,allowed,ran⟩ := ran
  split at ran
  · cases ran
    exact .same _
  · rename_i held
    have one : db.tracking.count (fun key row => key = (owner,blobId) ∧ row.state = .deleting ∧
        row.batchId = some batchId) = 1 := by omega
    obtain ⟨key,row,found,holds⟩ := Store.exists_of_count (by rw [one]; exact Nat.one_ne_zero)
    have pinned := holds
    simp only [decide_eq_true_eq] at pinned
    obtain ⟨rfl,state,batch⟩ := pinned
    have moved := Store.update_eq_put (p:=fun key row => key = (owner,blobId) ∧ row.state = .deleting ∧
        row.batchId = some batchId)
      (f:=fun _ row => {row with state := terminal.state, batchId := none, updatedAt := m.now}) found holds
      (fun j u matched => by simp only [decide_eq_true_eq] at matched; exact matched.1)
    cases ran
    rw [moved]
    have present := Store.get?_put found {row with state := terminal.state, batchId := none, updatedAt := m.now}
      (owner,blobId)
    simp only [↓reduceIte] at present
    simp only [present,Option.isSome_some,and_true]
    exact .evicted owner blobId batchId toState terminal row (fun id => id.or row.objectId) allowed found state batch

-- The batch row a guarded UPDATE on `deletion_batches` hits, if any.
theorem batch_hit {p : BatchRow → Prop} [DecidablePred p] {batchId : Uuid}
    (some_ : db.batches.count (fun id batch => id = batchId ∧ p batch) ≠ 0) (f : BatchRow → BatchRow) :
    ∃ batch, db.batches.get? batchId = some batch ∧ p batch ∧
      db.batches.update (fun id batch => id = batchId ∧ p batch) (fun _ batch => f batch) =
        db.batches.put batchId (f batch) := by
  obtain ⟨id,batch,found,holds⟩ := Store.exists_of_count some_
  have parts := holds
  simp only [decide_eq_true_eq] at parts
  obtain ⟨rfl,matched⟩ := parts
  refine ⟨batch,found,matched,?_⟩
  refine Store.update_eq_put (p:=fun j batch => j = id ∧ p batch) (f:=fun _ batch => f batch) found holds ?_
  intro j u same
  simp only [decide_eq_true_eq] at same
  exact same.1

theorem setPrepared_change {batchId : Uuid} {digest : Digest} {txBytes : DeleteTx} {inputBlobIds : List BlobId}
    {blobCount nonce expireEpoch : Nat} {stored : Bool}
    (ran : db.setBatchPrepared batchId digest txBytes inputBlobIds blobCount nonce expireEpoch = .ok (next,stored)) :
    Change m db (.setPrepared batchId digest txBytes inputBlobIds blobCount nonce expireEpoch) next := by
  simp only [Db.setBatchPrepared] at ran
  split at ran
  · cases ran
    exact .same _
  · rename_i some_
    simp only [bind_ok,ensure_ok,exists_const,pure_ok] at ran
    obtain ⟨_,distinct,equal⟩ := ran
    cases equal
    obtain ⟨batch,found,⟨state,unset,count⟩,moved⟩ := batch_hit some_ (fun batch => {batch with
      digest := some digest, txBytes := some txBytes, inputBlobIds := some inputBlobIds
      blobCount := blobCount, nonce := nonce, expireEpoch := expireEpoch})
    rw [moved]
    refine .prepared batchId digest txBytes inputBlobIds blobCount nonce expireEpoch batch found state unset count ?_
    intro id other present
    exact distinct (id,other) (Store.get?_eq_some.mp present)

theorem begin_change {batchId : Uuid} {signatures : List Bytes} :
    Change m db (.beginExecution batchId signatures) (db.beginBatchExecution m batchId signatures).1 := by
  unfold Db.beginBatchExecution
  by_cases none_ : db.batches.count (fun id batch => id = batchId ∧ batch.state = .awaitingSignature ∧
      batch.txBytes.isSome) = 0
  · simp only [Store.update_unmatched none_]
    exact .same _
  · obtain ⟨batch,found,⟨state,set⟩,moved⟩ := batch_hit none_ (fun batch => {batch with
      state := .executing, signatures := some signatures, executingAt := some m.now
      lastSubmitAt := some m.now, submitAttempts := 1})
    simp only [moved]
    exact .begun batchId signatures batch found state set

theorem retry_change {batchId : Uuid} {retryBefore : Timestamp} :
    Change m db (.claimRetry batchId retryBefore) (db.claimBatchRetry m batchId retryBefore).1 := by
  unfold Db.claimBatchRetry
  by_cases none_ : db.batches.count (fun id batch => id = batchId ∧ batch.state = .executing ∧
      batch.signatures.isSome ∧
      (batch.lastSubmitAt.or batch.executingAt).any (fun tried => tried < retryBefore)) = 0
  · simp only [Store.update_unmatched none_]
    exact .same _
  · obtain ⟨batch,found,⟨state,_⟩,moved⟩ := batch_hit none_ (fun batch => {batch with
      lastSubmitAt := some m.now, submitAttempts := batch.submitAttempts + 1})
    simp only [moved]
    exact .retried batchId retryBefore batch found state

theorem rollback_change {batchId : Uuid} {release : Release} {done : Bool}
    (ran : db.rollbackBatch m batchId release.expected release.target = .ok (next,done)) :
    Change m db (.rollback batchId release) next := by
  simp only [Db.rollbackBatch,bind_ok,ensure_ok,exists_const] at ran
  obtain ⟨_,ran⟩ := ran
  split at ran
  · cases ran
    exact .same _
  · rename_i some_
    cases ran
    obtain ⟨batch,found,state,moved⟩ := batch_hit some_
      (fun batch => {batch with state := release.target, resolvedAt := some m.now, signatures := none})
    rw [moved]
    exact .released batchId release batch found state

theorem finalize_change {batchId : Uuid} {deleted : Option Nat}
    (ran : db.finalizeBatchDeleted m batchId .executing = .ok (next,deleted)) :
    Change m db (.finalize batchId) next := by
  simp only [Db.finalizeBatchDeleted,bind_ok,ensure_ok,exists_const] at ran
  obtain ⟨_,ran⟩ := ran
  split at ran
  · cases ran
    exact .same _
  · rename_i some_
    cases ran
    obtain ⟨batch,found,state,moved⟩ := batch_hit some_
      (fun batch => {batch with state := .completed, resolvedAt := some m.now, signatures := none})
    rw [moved]
    simp only [Store.get?_update,Option.isSome_map]
    exact .finalized batchId batch (fun key id => id.or (((db.tracking.get? key).map (fun row =>
      if decide (row.batchId = some batchId ∧ row.state = .deleting) = true then
        {row with state := .deleted, batchId := none, updatedAt := m.now} else row)).bind TrackingRow.objectId))
      found state

theorem run_change {t : Transaction} {result : t.Result} (ran : t.run m db = .ok (next,result)) :
    Change m db t next := by
  cases t with
  | createSelection => exact createSelection_change ran
  | createAll => exact createAll_change ran
  | evict => exact evict_change ran
  | setPrepared => exact setPrepared_change ran
  | beginExecution => cases ran; exact begin_change
  | claimRetry => cases ran; exact retry_change
  | rollback => exact rollback_change ran
  | finalize => exact finalize_change ran
  | sweepMark owner blobId toState =>
    simp only [Transaction.run,Db.sweepMarkExternal,bind_ok,require_ok,pure_ok] at ran
    obtain ⟨terminal,allowed,equal⟩ := ran
    cases equal
    exact .swept owner blobId toState terminal allowed
  | setObjectIds owner pairs =>
    have equal : next = (db.setObjectIds m owner pairs).1 := by
      simp only [Transaction.run,Except.ok.injEq] at ran
      rw [ran]
    rw [equal]
    exact .objectIds _ _
  | setClaimedObjectIds => cases ran; exact .claimedObjectIds _ _ _
  | reserveFence lockFree =>
    cases lockFree with
    | true => cases ran; exact .fenced true rfl
    | false => cases ran; exact .same _
  | completeScan => cases ran; exact .disowned _ _
  | trackDeletable rawOwner blobId createdAt =>
    simp only [Transaction.run,Db.trackDeletable,bind_ok,require_ok,pure_ok] at ran
    obtain ⟨_,⟨owner,canonical,rfl⟩,equal⟩ := ran
    cases equal
    exact .tracked rawOwner owner blobId createdAt canonical
  | saveCheckpoint => cases ran; exact .checkpointed _ _
  | saveSweepCursor => cases ran; exact .sweepMoved _

-- What the loop of `set_object_ids` makes of one row.
def fillObjectId (m : Moment) (owner : Owner) (key : Owner × BlobId) (pairs : List (BlobId × ObjectId))
    (row : TrackingRow) : TrackingRow :=
  pairs.foldl (fun row pair =>
    if key = (owner,pair.1) ∧ row.objectId = none ∧ row.state = .deletable then
      {row with objectId := some pair.2, updatedAt := m.now} else row) row

theorem setObjectIds_parts (m : Moment) (db : Db) (owner : Owner) (pairs : List (BlobId × ObjectId)) :
    (∀ key, (db.setObjectIds m owner pairs).1.tracking.get? key =
      (db.tracking.get? key).map (fillObjectId m owner key pairs)) ∧
    (db.setObjectIds m owner pairs).1.batches = db.batches ∧
    (db.setObjectIds m owner pairs).1.members = db.members ∧
    (db.setObjectIds m owner pairs).1.sequence = db.sequence ∧
    (db.setObjectIds m owner pairs).1.resolverCheckpoint = db.resolverCheckpoint := by
  unfold Db.setObjectIds
  generalize (0 : Nat) = total
  induction pairs generalizing db total with
  | nil =>
    refine ⟨fun key => ?_,rfl,rfl,rfl,rfl⟩
    simp only [List.foldl_nil]
    cases db.tracking.get? key <;> rfl
  | cons pair rest ih =>
    obtain ⟨rows,batches,members,sequence,checkpoint⟩ := ih (Db.setObjectId m owner (db,total) pair).1
      (Db.setObjectId m owner (db,total) pair).2
    refine ⟨fun key => ?_,batches,members,sequence,checkpoint⟩
    rw [List.foldl_cons]
    refine (rows key).trans ?_
    simp only [Db.setObjectId,Store.get?_update,Option.map_map,decide_eq_true_eq]
    rfl

theorem fillObjectId_keeps (owner : Owner) (key : Owner × BlobId) (pairs : List (BlobId × ObjectId))
    (row : TrackingRow) :
    (fillObjectId m owner key pairs row).state = row.state ∧
    (fillObjectId m owner key pairs row).batchId = row.batchId ∧
    (fillObjectId m owner key pairs row).trackedSeq = row.trackedSeq ∧
    (row.objectId.isSome → (fillObjectId m owner key pairs row).objectId = row.objectId) ∧
    (row.state ≠ .deletable → fillObjectId m owner key pairs row = row) := by
  unfold fillObjectId
  induction pairs generalizing row with
  | nil => exact ⟨rfl,rfl,rfl,fun _ => rfl,fun _ => rfl⟩
  | cons pair rest ih =>
    rw [List.foldl_cons]
    by_cases hit : key = (owner,pair.1) ∧ row.objectId = none ∧ row.state = .deletable
    · rw [if_pos hit]
      obtain ⟨state,batch,seq,_,_⟩ := ih {row with objectId := some pair.2, updatedAt := m.now}
      refine ⟨state,batch,seq,?_,fun busy => absurd hit.2.2 busy⟩
      intro known
      simp [hit.2.1] at known
    · rw [if_neg hit]
      exact ih row

end Inversion
end MemWal.SecurityDelete
