import Mathlib.Data.List.Sort
import Mathlib.Data.List.Dedup
import MemWal.SecurityDelete.Types

namespace MemWal.SecurityDelete
open Library Library.Fallible

-- Queries

def Db.getBatch (db : Db) (batchId : Uuid) (owner : Owner) : Option BatchRow :=
  (db.batches.get? batchId).filter (fun batch => batch.owner = owner)

def rowBefore (a b : BlobId × TrackingRow) : Bool :=
  a.2.createdAt < b.2.createdAt || (a.2.createdAt = b.2.createdAt && a.1 ≤ b.1)

-- `SELECT ... FROM delete_blobs_tracking WHERE owner=$1 AND p ORDER BY created_at, blob_id`.
def Db.blobsWhere (db : Db) (owner : Owner) (p : BlobId → TrackingRow → Bool) :
    List (BlobId × TrackingRow) :=
  (db.tracking.entries.filterMap (fun e =>
    if e.1.1 = owner ∧ p e.1.2 e.2 = true then some (e.1.2,e.2) else none)).insertionSort
    (fun a b => rowBefore a b = true)

def Db.batchBlobs (db : Db) (batchId : Uuid) (owner : Owner) : List (BlobId × TrackingRow) :=
  db.blobsWhere owner (fun _ row => row.batchId = some batchId)

def Db.countDeletable (db : Db) (owner : Owner) : Nat :=
  db.tracking.count (fun key row => key.1 = owner ∧ row.state = .deletable)

def batchBefore (a b : Uuid × BatchRow) : Bool :=
  a.2.claimedAt < b.2.claimedAt || (a.2.claimedAt = b.2.claimedAt && a.1.toNat ≤ b.1.toNat)

def Db.batchesWhere (db : Db) (p : BatchRow → Bool) : List (Uuid × BatchRow) :=
  (db.batches.entries.filter (fun e => p e.2)).insertionSort (fun a b => batchBefore a b = true)

def BatchRow.lastTried (batch : BatchRow) : Timestamp :=
  (batch.lastSubmitAt.or batch.executingAt).getD batch.claimedAt

def Db.stuckBatches (db : Db) (awaitingBefore executingBefore : Timestamp) : List (Uuid × BatchRow) :=
  db.batchesWhere (fun batch =>
    (batch.state = .awaitingSignature && batch.claimedAt < awaitingBefore) ||
    (batch.state = .executing && batch.lastTried < executingBefore))

def sweepBefore (a b : (Owner × BlobId) × TrackingRow) : Bool :=
  a.2.updatedAt < b.2.updatedAt || (a.2.updatedAt = b.2.updatedAt &&
    (a.1.1 < b.1.1 || (a.1.1 = b.1.1 && a.1.2 ≤ b.1.2)))

def SweepCursor.before (cursor : SweepCursor) (e : (Owner × BlobId) × TrackingRow) : Bool :=
  cursor.updatedAt < e.2.updatedAt || (cursor.updatedAt = e.2.updatedAt &&
    (cursor.owner < e.1.1 || (cursor.owner = e.1.1 && cursor.blobId < e.1.2)))

def Db.sweepCandidates (db : Db) (cursor : Option SweepCursor) (limit : Nat) :
    List ((Owner × BlobId) × TrackingRow) :=
  ((db.tracking.entries.filter (fun e => e.2.state = .deletable && e.2.objectId.isSome &&
    cursor.all (fun cursor => cursor.before e))).insertionSort (fun a b => sweepBefore a b = true)).take limit

def Db.ownersNeedingResolution (db : Db) (limit : Nat) : List Owner :=
  (((db.tracking.entries.filter (fun e => e.2.objectId.isNone && e.2.state = .deletable &&
    (db.resolverCompleted.get? e.1.1).all (fun fence => fence < e.2.trackedSeq))).map
    (fun e => e.1.1)).dedup.insertionSort (fun a b => a ≤ b)).take limit

-- Claiming

def Db.lockAndCheckCap (db : Db) (owner : Owner) (activeCap : Int) : Except StoreError Unit :=
  let active := (db.batchesWhere (fun batch => batch.owner = owner && batch.state.active)).map Prod.fst
  ensure ((active.length : Int) < activeCap) (.activeBatchLimit active)

def newBatch (m : Moment) (owner : Owner) : BatchRow where
  owner := owner
  state := .awaitingSignature
  digest := none
  txBytes := none
  inputBlobIds := none
  blobCount := 0
  nonce := 0
  expireEpoch := 0
  claimedAt := m.now
  signatures := none
  executingAt := none
  lastSubmitAt := none
  submitAttempts := 0
  resolvedAt := none

def Db.insertBatch (m : Moment) (db : Db) (owner : Owner) (batchId : Uuid) : Except StoreError Db := do
  ensure (db.batches.get? batchId = none) .constraint
  return {db with batches := db.batches.insert batchId (newBatch m owner)}

def Db.claimRows (m : Moment) (db : Db) (batchId : Uuid) (keys : List (Owner × BlobId)) : Db :=
  {db with
    tracking := db.tracking.update (fun key _ => key ∈ keys)
      (fun _ row => {row with state := .deleting, batchId := some batchId, updatedAt := m.now})}

def Db.setBlobCount (db : Db) (batchId : Uuid) (count : Nat) : Db :=
  {db with
    batches := db.batches.update (fun id _ => id = batchId)
      (fun _ batch => {batch with blobCount := count})}

def Db.claimedMembers (m : Moment) (db : Db) (batchId : Uuid) : List ((Uuid × Owner × BlobId) × MemberRow) :=
  (db.tracking.entries.filter (fun e => e.2.batchId = some batchId)).map
    (fun e => ((batchId,e.1.1,e.1.2),⟨e.2.objectId,.claimed,m.now,none⟩))

-- Two indexes can refuse the insert: the primary key, and the one that allows
-- a row one open claim.
def Db.insertClaimedMembers (m : Moment) (db : Db) (batchId : Uuid) : Except StoreError Db := do
  let rows := db.claimedMembers m batchId
  ensure (∀ row ∈ rows, db.members.get? row.1 = none) .constraint
  ensure (∀ row ∈ rows, ∀ e ∈ db.members.entries, e.2.outcome = .claimed → e.1.2 ≠ row.1.2) .constraint
  return {db with members := db.members.insertAll rows}

def Db.createBatchAndClaimSelection (m : Moment) (db : Db) (owner : Owner) (batchId : Uuid)
    (blobIds : List BlobId) (activeCap : Int) : Except StoreError (Db × List (BlobId × TrackingRow)) := do
  db.lockAndCheckCap owner activeCap
  let db ← db.insertBatch m owner batchId
  let keys := db.tracking.keysWhere
    (fun key row => key.1 = owner ∧ key.2 ∈ blobIds ∧ row.state = .deletable)
  let db := db.claimRows m batchId keys
  ensure (keys.length = blobIds.length) (.conflict (blobIds.filter (fun blobId => (owner,blobId) ∉ keys)))
  let db := db.setBlobCount batchId keys.length
  let db ← db.insertClaimedMembers m batchId
  return (db,db.batchBlobs batchId owner)

-- Rows that another transaction holds are skipped, not waited for. An empty
-- claim leaves no batch behind.
def Db.createBatchAndClaimAll (m : Moment) (db : Db) (owner : Owner) (batchId : Uuid) (max : Nat)
    (activeCap : Int) : Except StoreError (Db × List (BlobId × TrackingRow)) := do
  db.lockAndCheckCap owner activeCap
  let claimed ← db.insertBatch m owner batchId
  let rows := (db.blobsWhere owner (fun blobId row => row.state = .deletable ∧ (owner,blobId) ∉ m.locked)).take max
  let keys := rows.map (fun row => (owner,row.1))
  if keys.isEmpty then return (db,[])
  let claimed := (claimed.claimRows m batchId keys).setBlobCount batchId keys.length
  let claimed ← claimed.insertClaimedMembers m batchId
  return (claimed,claimed.batchBlobs batchId owner)

-- Claimed rows leaving their batch

def Db.evictClaimedBlob (m : Moment) (db : Db) (owner : Owner) (blobId : BlobId) (expectedBatchId : Uuid)
    (toState : BlobState) : Except StoreError (Db × Bool) := do
  let terminal ← require toState.terminal? .badRequest
  let held := db.tracking.count (fun key row => key = (owner,blobId) ∧ row.state = .deleting ∧
    row.batchId = some expectedBatchId)
  if held ≠ 1 then return (db,false)
  let tracking := db.tracking.update (fun key row => key = (owner,blobId) ∧ row.state = .deleting ∧
      row.batchId = some expectedBatchId)
    (fun _ row => {row with state := terminal.state, batchId := none, updatedAt := m.now})
  let members := db.members.update (fun key row => key = (expectedBatchId,owner,blobId) ∧
      row.outcome = .claimed ∧ (tracking.get? (owner,blobId)).isSome)
    (fun _ row => {row with
      outcome := terminal.outcome
      resolvedAt := some m.now
      objectId := row.objectId.or ((tracking.get? (owner,blobId)).bind TrackingRow.objectId)})
  return ({db with tracking := tracking, members := members},true)

def Db.rollbackBatch (m : Moment) (db : Db) (batchId : Uuid) (expectedBatchState batchTo : BatchState) :
    Except StoreError (Db × Bool) := do
  ensure (batchTo = .failed ∨ batchTo = .rolledBack) .badRequest
  let expected : Uuid → BatchRow → Bool := fun id batch => id = batchId ∧ batch.state = expectedBatchState
  if db.batches.count expected = 0 then return (db,false)
  return ({db with
    batches := db.batches.update expected
      (fun _ batch => {batch with state := batchTo, resolvedAt := some m.now, signatures := none})
    tracking := db.tracking.update (fun _ row => row.batchId = some batchId ∧ row.state = .deleting)
      (fun _ row => {row with state := .deletable, batchId := none, updatedAt := m.now})
    members := db.members.update (fun key row => key.1 = batchId ∧ row.outcome = .claimed)
      (fun _ row => {row with outcome := .released, resolvedAt := some m.now})},true)

def Db.finalizeBatchDeleted (m : Moment) (db : Db) (batchId : Uuid) (expectedBatchState : BatchState) :
    Except StoreError (Db × Option Nat) := do
  ensure (expectedBatchState = .executing) .badRequest
  let expected : Uuid → BatchRow → Bool := fun id batch => id = batchId ∧ batch.state = expectedBatchState
  if db.batches.count expected = 0 then return (db,none)
  let held : Owner × BlobId → TrackingRow → Bool := fun _ row => row.batchId = some batchId ∧ row.state = .deleting
  let tracking := db.tracking.update held
    (fun _ row => {row with state := .deleted, batchId := none, updatedAt := m.now})
  return ({db with
    batches := db.batches.update expected
      (fun _ batch => {batch with state := .completed, resolvedAt := some m.now, signatures := none})
    tracking := tracking
    members := db.members.update (fun key row => key.1 = batchId ∧ row.outcome = .claimed ∧
        (tracking.get? key.2).isSome)
      (fun key row => {row with
        outcome := .deleted
        resolvedAt := some m.now
        objectId := row.objectId.or ((tracking.get? key.2).bind TrackingRow.objectId)})},
    some (db.tracking.count held))

-- Preparing and executing a batch

def maxNonce : Nat := 4294967295

-- The count in the guard is what ties the rows still claimed to the inputs of
-- the transaction that is being stored.
def Db.setBatchPrepared (db : Db) (batchId : Uuid) (digest : Digest) (txBytes : DeleteTx)
    (inputBlobIds : List BlobId) (blobCount nonce expireEpoch : Nat) : Except StoreError (Db × Bool) := do
  let rows := db.tracking.count (fun _ row => row.batchId = some batchId ∧ row.state = .deleting)
  let ready : Uuid → BatchRow → Bool := fun id batch =>
    id = batchId ∧ batch.state = .awaitingSignature ∧ batch.txBytes = none ∧ rows = blobCount
  if db.batches.count ready = 0 then return (db,false)
  ensure (nonce ≤ maxNonce) .constraint
  ensure (∀ e ∈ db.batches.entries, e.2.txBytes.isSome → ¬(e.2.expireEpoch = expireEpoch ∧ e.2.nonce = nonce))
    .nonceCollision
  return ({db with
    batches := db.batches.update ready (fun _ batch => {batch with
      digest := some digest
      txBytes := some txBytes
      inputBlobIds := some inputBlobIds
      blobCount := blobCount
      nonce := nonce
      expireEpoch := expireEpoch})},true)

def Db.beginBatchExecution (m : Moment) (db : Db) (batchId : Uuid) (signatures : List Bytes) : Db × Bool :=
  let ready : Uuid → BatchRow → Bool := fun id batch =>
    id = batchId ∧ batch.state = .awaitingSignature ∧ batch.txBytes.isSome
  ({db with
    batches := db.batches.update ready (fun _ batch => {batch with
      state := .executing
      signatures := some signatures
      executingAt := some m.now
      lastSubmitAt := some m.now
      submitAttempts := 1})},
    db.batches.count ready = 1)

def Db.claimBatchRetry (m : Moment) (db : Db) (batchId : Uuid) (retryBefore : Timestamp) : Db × Bool :=
  let due : Uuid → BatchRow → Bool := fun id batch =>
    id = batchId ∧ batch.state = .executing ∧ batch.signatures.isSome ∧
      (batch.lastSubmitAt.or batch.executingAt).any (fun tried => tried < retryBefore)
  ({db with
    batches := db.batches.update due (fun _ batch => {batch with
      lastSubmitAt := some m.now
      submitAttempts := batch.submitAttempts + 1})},
    db.batches.count due = 1)

-- Sweeper and resolver

def Db.sweepMarkExternal (m : Moment) (db : Db) (owner : Owner) (blobId : BlobId) (toState : BlobState) :
    Except StoreError (Db × Bool) := do
  let terminal ← require toState.terminal? .badRequest
  let open_ : Owner × BlobId → TrackingRow → Bool := fun key row => key = (owner,blobId) ∧ row.state = .deletable
  return ({db with
    tracking := db.tracking.update open_
      (fun _ row => {row with state := terminal.state, updatedAt := m.now})},
    db.tracking.count open_ = 1)

def Db.setObjectId (m : Moment) (owner : Owner) (state : Db × Nat) (pair : BlobId × ObjectId) : Db × Nat :=
  let unset : Owner × BlobId → TrackingRow → Bool := fun key row =>
    key = (owner,pair.1) ∧ row.objectId = none ∧ row.state = .deletable
  ({state.1 with
    tracking := state.1.tracking.update unset
      (fun _ row => {row with objectId := some pair.2, updatedAt := m.now})},
    state.2 + state.1.tracking.count unset)

def Db.setObjectIds (m : Moment) (db : Db) (owner : Owner) (pairs : List (BlobId × ObjectId)) : Db × Nat :=
  pairs.foldl (Db.setObjectId m owner) (db,0)

def Db.setClaimedObjectIds (m : Moment) (db : Db) (owner : Owner) (batchId : Uuid)
    (pairs : List (BlobId × ObjectId)) : Db × Nat :=
  let unset : Owner × BlobId → TrackingRow → Bool := fun key row =>
    key.1 = owner ∧ (pairs.lookup key.2).isSome ∧ row.batchId = some batchId ∧ row.state = .deleting ∧
      row.objectId = none
  let updated := db.tracking.keysWhere unset
  ({db with
    tracking := db.tracking.update unset
      (fun key row => {row with objectId := pairs.lookup key.2, updatedAt := m.now})
    members := db.members.update (fun key row => key.1 = batchId ∧ key.2 ∈ updated ∧ row.outcome = .claimed)
      (fun key row => {row with objectId := pairs.lookup key.2.2})},
    updated.length)

-- `none` when the owner's advisory lock is held by an insert in progress.
def Db.tryReserveResolverScanFence (db : Db) (lockFree : Bool) : Db × Option Nat :=
  if lockFree then ({db with sequence := db.sequence + 1},some (db.sequence + 1)) else (db,none)

def Db.completeResolverScan (m : Moment) (db : Db) (owner : Owner) (scanFence : Nat) : Db × Nat :=
  let unresolved : Owner × BlobId → TrackingRow → Bool := fun key row =>
    key.1 = owner ∧ row.state = .deletable ∧ row.objectId = none ∧ row.trackedSeq < scanFence
  ({db with
    tracking := db.tracking.update unresolved (fun _ row => {row with state := .notOwner, updatedAt := m.now})
    resolverCompleted := db.resolverCompleted.upsert owner scanFence},
    db.tracking.count unresolved)

-- The trigger on `vector_entries`. The sequence moves even when the row is
-- already tracked: the default is computed before the conflict is found.
def canonicalSuiAddress (raw : String) : Option Owner :=
  match raw.toList with
  | '0' :: 'x' :: digits =>
    if 1 ≤ digits.length ∧ digits.length ≤ 64 ∧
        digits.all (fun c => c.isDigit || ('a'.toNat ≤ c.toLower.toNat && c.toLower.toNat ≤ 'f'.toNat)) then
      some (String.ofList ('0' :: 'x' :: (List.replicate (64 - digits.length) '0' ++ digits.map Char.toLower)))
    else none
  | _ => none

def Db.insertTracked (m : Moment) (db : Db) (owner : Owner) (blobId : BlobId) (createdAt : Timestamp)
    (trackedSeq : Nat) : Db :=
  {db with tracking := db.tracking.insert (owner,blobId) ⟨none,.deletable,none,createdAt,trackedSeq,m.now⟩}

def Db.trackDeletable (m : Moment) (db : Db) (rawOwner : String) (blobId : BlobId) (createdAt : Timestamp) :
    Except StoreError Db := do
  let owner ← require (canonicalSuiAddress rawOwner) .constraint
  let trackedSeq := db.sequence + 1
  return {db with sequence := trackedSeq}.insertTracked m owner blobId createdAt trackedSeq

-- The two rollbacks the routes and the reconciler ask for.
inductive Release where
  | cancelAwaiting | failExecuting
  deriving DecidableEq, Repr

def Release.expected : Release → BatchState
  | .cancelAwaiting => .awaitingSignature
  | .failExecuting => .executing

def Release.target : Release → BatchState
  | .cancelAwaiting => .rolledBack
  | .failExecuting => .failed

inductive Transaction where
  | createSelection (owner : Owner) (batchId : Uuid) (blobIds : List BlobId) (activeCap : Int)
  | createAll (owner : Owner) (batchId : Uuid) (max : Nat) (activeCap : Int)
  | evict (owner : Owner) (blobId : BlobId) (batchId : Uuid) (toState : BlobState)
  | setPrepared (batchId : Uuid) (digest : Digest) (txBytes : DeleteTx) (inputBlobIds : List BlobId)
      (blobCount nonce expireEpoch : Nat)
  | beginExecution (batchId : Uuid) (signatures : List Bytes)
  | claimRetry (batchId : Uuid) (retryBefore : Timestamp)
  | rollback (batchId : Uuid) (release : Release)
  | finalize (batchId : Uuid)
  | sweepMark (owner : Owner) (blobId : BlobId) (toState : BlobState)
  | setObjectIds (owner : Owner) (pairs : List (BlobId × ObjectId))
  | setClaimedObjectIds (owner : Owner) (batchId : Uuid) (pairs : List (BlobId × ObjectId))
  | reserveFence (lockFree : Bool)
  | completeScan (owner : Owner) (scanFence : Nat)
  | trackDeletable (rawOwner : String) (blobId : BlobId) (createdAt : Timestamp)
  | saveCheckpoint (owner : Owner) (checkpoint : ResolverCheckpoint)
  | saveSweepCursor (cursor : Option SweepCursor)
  deriving DecidableEq

@[reducible] def Transaction.Result : Transaction → Type
  | .createSelection .. | .createAll .. => List (BlobId × TrackingRow)
  | .evict .. | .setPrepared .. | .beginExecution .. | .claimRetry .. | .rollback .. | .sweepMark .. => Bool
  | .finalize _ => Option Nat
  | .setObjectIds .. | .setClaimedObjectIds .. | .completeScan .. => Nat
  | .reserveFence _ => Option Nat
  | .trackDeletable .. | .saveCheckpoint .. | .saveSweepCursor _ => Unit

def Transaction.run (m : Moment) (db : Db) : (t : Transaction) → Except StoreError (Db × t.Result)
  | .createSelection owner batchId blobIds activeCap =>
    db.createBatchAndClaimSelection m owner batchId blobIds activeCap
  | .createAll owner batchId max activeCap => db.createBatchAndClaimAll m owner batchId max activeCap
  | .evict owner blobId batchId toState => db.evictClaimedBlob m owner blobId batchId toState
  | .setPrepared batchId digest txBytes inputBlobIds blobCount nonce expireEpoch =>
    db.setBatchPrepared batchId digest txBytes inputBlobIds blobCount nonce expireEpoch
  | .beginExecution batchId signatures => .ok (db.beginBatchExecution m batchId signatures)
  | .claimRetry batchId retryBefore => .ok (db.claimBatchRetry m batchId retryBefore)
  | .rollback batchId release => db.rollbackBatch m batchId release.expected release.target
  | .finalize batchId => db.finalizeBatchDeleted m batchId .executing
  | .sweepMark owner blobId toState => db.sweepMarkExternal m owner blobId toState
  | .setObjectIds owner pairs => .ok (db.setObjectIds m owner pairs)
  | .setClaimedObjectIds owner batchId pairs => .ok (db.setClaimedObjectIds m owner batchId pairs)
  | .reserveFence lockFree => .ok (db.tryReserveResolverScanFence lockFree)
  | .completeScan owner scanFence => .ok (db.completeResolverScan m owner scanFence)
  | .trackDeletable rawOwner blobId createdAt => do
    let db ← db.trackDeletable m rawOwner blobId createdAt
    return (db,())
  | .saveCheckpoint owner checkpoint =>
    .ok ({db with resolverCheckpoint := db.resolverCheckpoint.upsert owner checkpoint},())
  | .saveSweepCursor cursor => .ok ({db with sweepCursor := cursor},())

end MemWal.SecurityDelete
