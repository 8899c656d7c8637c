import MemWal.Library.Runs
import MemWal.SecurityDelete.Changes

namespace MemWal.SecurityDelete
open Library Library.Fallible Library.Runs

-- The pointer of a tracking row, the state of its batch and the open claims of
-- the ledger say one thing in three tables.
structure Consistent (db : Db) : Prop where
  claimed : ∀ key row, db.tracking.get? key = some row → (row.state = .deleting ↔ row.batchId.isSome = true)
  owned : ∀ key row batchId, db.tracking.get? key = some row → row.batchId = some batchId →
    ∃ batch, db.batches.get? batchId = some batch ∧ batch.owner = key.1 ∧
      (batch.state = .awaitingSignature ∨ batch.state = .executing)
  lineage : ∀ batchId owner blobId,
    (∃ row, db.tracking.get? (owner,blobId) = some row ∧ row.batchId = some batchId) ↔
      ∃ member, db.members.get? (batchId,owner,blobId) = some member ∧ member.outcome = .claimed

def Db.claimOf (db : Db) (key : Owner × BlobId) : Option (BlobState × Option Uuid) :=
  (db.tracking.get? key).map (fun row => (row.state,row.batchId))

def Db.outcomeOf (db : Db) (key : Uuid × Owner × BlobId) : Option Outcome :=
  (db.members.get? key).map MemberRow.outcome

section Views
variable {db next : Db}

theorem claimOf_some {key : Owner × BlobId} {state : BlobState} {batchId : Option Uuid} :
    db.claimOf key = some (state,batchId) ↔
      ∃ row, db.tracking.get? key = some row ∧ row.state = state ∧ row.batchId = batchId := by
  simp only [Db.claimOf,Option.map_eq_some_iff,Prod.mk.injEq]

theorem outcomeOf_some {key : Uuid × Owner × BlobId} {outcome : Outcome} :
    db.outcomeOf key = some outcome ↔ ∃ member, db.members.get? key = some member ∧ member.outcome = outcome := by
  simp only [Db.outcomeOf,Option.map_eq_some_iff]

-- A change that moves no pointer, no outcome and no batch out of activity.
theorem Consistent.of_views (valid : Consistent db) (rows : ∀ key, next.claimOf key = db.claimOf key)
    (outcomes : ∀ key, next.outcomeOf key = db.outcomeOf key)
    (batches : ∀ id batch, db.batches.get? id = some batch → ∃ after, next.batches.get? id = some after ∧
      after.owner = batch.owner ∧ (batch.state.active = true → after.state.active = true)) : Consistent next := by
  have back : ∀ key row, next.tracking.get? key = some row →
      ∃ old, db.tracking.get? key = some old ∧ old.state = row.state ∧ old.batchId = row.batchId := by
    intro key row found
    exact claimOf_some.mp ((rows key).symm.trans (claimOf_some.mpr ⟨row,found,rfl,rfl⟩))
  have live : ∀ state : BatchState, state.active = true ↔ state = .awaitingSignature ∨ state = .executing := by
    intro state
    cases state <;> simp [BatchState.active]
  constructor
  · intro key row found
    obtain ⟨old,stored,state,batch⟩ := back key row found
    rw [← state,← batch]
    exact valid.claimed key old stored
  · intro key row batchId found pointer
    obtain ⟨old,stored,_,same⟩ := back key row found
    obtain ⟨batch,present,owner,active⟩ := valid.owned key old batchId stored (same.trans pointer)
    obtain ⟨after,kept,owner',active'⟩ := batches batchId batch present
    exact ⟨after,kept,owner'.trans owner,(live _).mp (active' ((live _).mpr active))⟩
  · intro batchId owner blobId
    have pointers : (∃ row, next.tracking.get? (owner,blobId) = some row ∧ row.batchId = some batchId) ↔
        ∃ row, db.tracking.get? (owner,blobId) = some row ∧ row.batchId = some batchId := by
      constructor
      · intro ⟨row,found,pointer⟩
        obtain ⟨old,stored,_,same⟩ := back _ row found
        exact ⟨old,stored,same.trans pointer⟩
      · intro ⟨row,found,pointer⟩
        obtain ⟨after,stored,_,same⟩ := claimOf_some.mp
          ((rows (owner,blobId)).trans (claimOf_some.mpr ⟨row,found,rfl,rfl⟩))
        exact ⟨after,stored,same.trans pointer⟩
    rw [pointers,valid.lineage,← outcomeOf_some,← outcomeOf_some,outcomes]

end Views

section Steps
variable {m : Moment} {db next : Db}

theorem mem_claimedMembers {batchId : Uuid} {key : Uuid × Owner × BlobId} {member : MemberRow} :
    (key,member) ∈ db.claimedMembers m batchId ↔ key.1 = batchId ∧
      ∃ row, db.tracking.get? key.2 = some row ∧ row.batchId = some batchId ∧
        member = ⟨row.objectId,.claimed,m.now,none⟩ := by
  simp only [Db.claimedMembers,List.mem_map,List.mem_filter,decide_eq_true_eq,Prod.exists,Prod.mk.injEq,
    Store.get?_eq_some]
  constructor
  · intro found
    obtain ⟨owner,blobId,row,⟨stored,pointer⟩,same,equal⟩ := found
    subst same
    exact ⟨rfl,row,stored,pointer,equal.symm⟩
  · intro found
    obtain ⟨same,row,stored,pointer,equal⟩ := found
    obtain ⟨id,owner,blobId⟩ := key
    exact ⟨owner,blobId,row,⟨stored,pointer⟩,by simp only at same; rw [same],equal.symm⟩

theorem claimedMembers_nodup (m : Moment) (db : Db) (batchId : Uuid) : ((db.claimedMembers m batchId).map Prod.fst).Nodup := by
  have keys : ((db.tracking.entries.filter (fun e => e.2.batchId = some batchId)).map Prod.fst).Nodup :=
    List.Nodup.sublist (List.filter_sublist.map _) db.tracking.unique
  have paired := keys.map (f:=fun key => (batchId,key)) (fun _ _ same => (Prod.mk.inj same).2)
  simpa [Db.claimedMembers,List.map_map,Function.comp_def] using paired

theorem claimed_consistent {owner : Owner} {batchId : Uuid} {keys : List (Owner × BlobId)} (valid : Consistent db)
    (unused : db.batches.get? batchId = none)
    (open_ : ∀ key ∈ keys, key.1 = owner ∧ ∃ row, db.tracking.get? key = some row ∧ row.state = .deletable)
    (batches : ∀ id, next.batches.get? id = if id = batchId then
      some {newBatch m owner with blobCount := keys.length} else db.batches.get? id)
    (tracking : next.tracking = db.tracking.update (fun key _ => key ∈ keys)
      (fun _ row => {row with state := .deleting, batchId := some batchId, updatedAt := m.now}))
    (unclaimed : ∀ row ∈ next.claimedMembers m batchId, db.members.get? row.1 = none)
    (members : next.members = db.members.insertAll (next.claimedMembers m batchId)) : Consistent next := by
  -- A row either was taken just now or is as it was, pointing elsewhere.
  have rows : ∀ key row, next.tracking.get? key = some row →
      (key ∈ keys ∧ row.state = .deleting ∧ row.batchId = some batchId) ∨
      (key ∉ keys ∧ db.tracking.get? key = some row) := by
    intro key row found
    rw [tracking,Store.get?_update,Option.map_eq_some_iff] at found
    obtain ⟨old,stored,equal⟩ := found
    by_cases taken : key ∈ keys
    · simp only [taken,decide_true,↓reduceIte] at equal
      subst equal
      exact .inl ⟨taken,rfl,rfl⟩
    · simp only [taken,decide_false,Bool.false_eq_true,↓reduceIte] at equal
      subst equal
      exact .inr ⟨taken,stored⟩
  have elsewhere : ∀ key row, db.tracking.get? key = some row → row.batchId ≠ some batchId := by
    intro key row stored pointer
    obtain ⟨batch,present,_⟩ := valid.owned key row batchId stored pointer
    rw [unused] at present
    cases present
  constructor
  · intro key row found
    rcases rows key row found with ⟨_,state,pointer⟩ | ⟨_,stored⟩
    · simp [state,pointer]
    · exact valid.claimed key row stored
  · intro key row id found pointer
    rcases rows key row found with ⟨taken,_,mine⟩ | ⟨_,stored⟩
    · rw [mine] at pointer
      cases pointer
      exact ⟨_,(batches batchId).trans (if_pos rfl),(open_ key taken).1.symm,.inl rfl⟩
    · obtain ⟨batch,present,rest⟩ := valid.owned key row id stored pointer
      have differs : id ≠ batchId := fun same => elsewhere key row stored (same ▸ pointer)
      exact ⟨batch,(batches id).trans ((if_neg differs).trans present),rest⟩
  · intro id owner_ blobId
    have lookup := fun key member => Store.get?_insertAll (claimedMembers_nodup m next batchId)
      unclaimed (k:=key) (v:=member)
    constructor
    · intro ⟨row,found,pointer⟩
      rcases rows _ row found with ⟨_,_,mine⟩ | ⟨_,stored⟩
      · rw [mine] at pointer
        cases pointer
        refine ⟨⟨row.objectId,.claimed,m.now,none⟩,?_,rfl⟩
        rw [members,lookup]
        exact .inr (mem_claimedMembers.mpr ⟨rfl,row,found,mine,rfl⟩)
      · obtain ⟨member,present,outcome⟩ := (valid.lineage id owner_ blobId).mp ⟨row,stored,pointer⟩
        exact ⟨member,by rw [members,lookup]; exact .inl present,outcome⟩
    · intro ⟨member,found,outcome⟩
      rw [members,lookup] at found
      rcases found with present | new
      · obtain ⟨row,stored,pointer⟩ := (valid.lineage id owner_ blobId).mpr ⟨member,present,outcome⟩
        have kept : (owner_,blobId) ∉ keys := by
          intro taken
          obtain ⟨old,same,state⟩ := (open_ _ taken).2
          rw [stored] at same
          cases same
          have deleting := (valid.claimed _ row stored).mpr (by simp [pointer])
          rw [state] at deleting
          cases deleting
        refine ⟨row,?_,pointer⟩
        simp [tracking,stored,kept]
      · obtain ⟨same,row,stored,pointer,_⟩ := mem_claimedMembers.mp new
        simp only at same
        subst same
        exact ⟨row,stored,pointer⟩

-- A batch is closed: its rows are let go into `state`, its open claims are
-- resolved.
theorem closed_consistent (m : Moment) (batchId : Uuid) {state : BlobState} (valid : Consistent db) (settled : state ≠ .deleting)
    (batches : ∀ id, id ≠ batchId → next.batches.get? id = db.batches.get? id)
    (tracking : next.tracking = db.tracking.update (fun _ row => row.batchId = some batchId ∧ row.state = .deleting)
      (fun _ row => {row with state := state, batchId := none, updatedAt := m.now}))
    (others : ∀ key, key.1 ≠ batchId → next.outcomeOf key = db.outcomeOf key)
    (resolved : ∀ key, key.1 = batchId → next.outcomeOf key ≠ some .claimed) : Consistent next := by
  have rows : ∀ key row, next.tracking.get? key = some row →
      (row.state = state ∧ row.batchId = none) ∨ (row.batchId ≠ some batchId ∧ db.tracking.get? key = some row) := by
    intro key row found
    rw [tracking,Store.get?_update,Option.map_eq_some_iff] at found
    obtain ⟨old,stored,equal⟩ := found
    by_cases held : old.batchId = some batchId
    · have deleting := (valid.claimed key old stored).mpr (by simp [held])
      simp only [held,deleting,and_self,decide_true,↓reduceIte] at equal
      subst equal
      exact .inl ⟨rfl,rfl⟩
    · simp only [held,false_and,decide_false,Bool.false_eq_true,↓reduceIte] at equal
      subst equal
      exact .inr ⟨held,stored⟩
  constructor
  · intro key row found
    rcases rows key row found with ⟨reached,free⟩ | ⟨_,stored⟩
    · simp [reached,free,settled]
    · exact valid.claimed key row stored
  · intro key row id found pointer
    rcases rows key row found with ⟨_,free⟩ | ⟨other,stored⟩
    · rw [free] at pointer
      cases pointer
    · obtain ⟨batch,present,rest⟩ := valid.owned key row id stored pointer
      have differs : id ≠ batchId := fun same => other (same ▸ pointer)
      exact ⟨batch,(batches id differs).trans present,rest⟩
  · intro id owner blobId
    rw [← outcomeOf_some]
    by_cases same : id = batchId
    · subst same
      constructor
      · intro ⟨row,found,pointer⟩
        rcases rows _ row found with ⟨_,free⟩ | ⟨other,_⟩
        · rw [free] at pointer
          cases pointer
        · exact absurd pointer other
      · intro open_
        exact absurd open_ (resolved _ rfl)
    · rw [others (id,owner,blobId) same,outcomeOf_some,← valid.lineage]
      constructor
      · intro ⟨row,found,pointer⟩
        rcases rows _ row found with ⟨_,free⟩ | ⟨_,stored⟩
        · rw [free] at pointer
          cases pointer
        · exact ⟨row,stored,pointer⟩
      · intro ⟨row,stored,pointer⟩
        refine ⟨row,?_,pointer⟩
        have other : row.batchId ≠ some batchId := by
          rw [pointer]
          intro equal
          exact same (Option.some.inj equal)
        simp [tracking,stored,other]

theorem evicted_consistent {owner : Owner} {blobId : BlobId} {batchId : Uuid} {terminal : Terminal}
    {row : TrackingRow} {objectId : Option ObjectId → Option ObjectId} (valid : Consistent db)
    (found : db.tracking.get? (owner,blobId) = some row) (pointer : row.batchId = some batchId) :
    Consistent {db with
      tracking := db.tracking.put (owner,blobId)
        {row with state := terminal.state, batchId := none, updatedAt := m.now}
      members := db.members.update (fun key row => key = (batchId,owner,blobId) ∧ row.outcome = .claimed)
        (fun _ row => {row with
          outcome := terminal.outcome, resolvedAt := some m.now, objectId := objectId row.objectId})} := by
  have lookup := fun key => Store.get?_put found {row with
    state := terminal.state, batchId := none, updatedAt := m.now} key
  have settled : terminal.state ≠ .deleting := by cases terminal <;> decide
  have resolved : terminal.outcome ≠ .claimed := by cases terminal <;> decide
  constructor
  · intro key after stored
    rw [lookup] at stored
    split at stored
    · cases stored
      simp [settled]
    · exact valid.claimed key after stored
  · intro key after id stored points
    rw [lookup] at stored
    split at stored
    · cases stored
      cases points
    · exact valid.owned key after id stored points
  · intro id owner_ blobId_
    have one := valid.lineage id owner_ blobId_
    simp only [lookup,Store.get?_update,Option.map_eq_some_iff]
    by_cases here : (owner_,blobId_) = (owner,blobId)
    · obtain ⟨rfl,rfl⟩ := Prod.mk.inj here
      simp only [↓reduceIte,Option.some.injEq]
      constructor
      · intro given
        obtain ⟨_,rfl,impossible⟩ := given
        cases impossible
      · intro given
        obtain ⟨member,⟨old,stored,equal⟩,open_⟩ := given
        by_cases mine : id = batchId ∧ old.outcome = .claimed
        · simp only [mine,and_self,decide_true,↓reduceIte] at equal
          subst equal
          exact absurd open_ resolved
        · rw [if_neg (by simp only [decide_eq_true_eq,Prod.mk.injEq,and_true]; exact mine)] at equal
          subst equal
          -- The row pointed at one batch only, and that claim is resolved.
          obtain ⟨other,same,points⟩ := one.mpr ⟨old,stored,open_⟩
          rw [found] at same
          cases same
          rw [pointer] at points
          exact absurd ⟨(Option.some.inj points).symm,open_⟩ mine
    · simp only [here,↓reduceIte]
      rw [one]
      have off : ∀ old : MemberRow, ¬((id,owner_,blobId_) = (batchId,owner,blobId) ∧ old.outcome = .claimed) :=
        fun old both => here (Prod.mk.inj both.1).2
      simp only [off,decide_false,Bool.false_eq_true,↓reduceIte,exists_eq_right]

theorem released_consistent {batchId : Uuid} {release : Release} {batch : BatchRow} (valid : Consistent db)
    (found : db.batches.get? batchId = some batch) :
    Consistent {db with
      batches := db.batches.put batchId
        {batch with state := release.target, resolvedAt := some m.now, signatures := none}
      tracking := db.tracking.update (fun _ row => row.batchId = some batchId ∧ row.state = .deleting)
        (fun _ row => {row with state := .deletable, batchId := none, updatedAt := m.now})
      members := db.members.update (fun key row => key.1 = batchId ∧ row.outcome = .claimed)
        (fun _ row => {row with outcome := .released, resolvedAt := some m.now})} := by
  refine closed_consistent m batchId valid (by decide) ?_ rfl ?_ ?_
  · intro id differs
    exact (Store.get?_put found _ id).trans (if_neg differs)
  · intro key differs
    simp only [Db.outcomeOf,Store.get?_update]
    cases db.members.get? key <;> simp [differs]
  · intro key same
    simp only [Db.outcomeOf,Store.get?_update]
    cases db.members.get? key with
    | none => simp
    | some member => by_cases open_ : member.outcome = .claimed <;> simp [same,open_]

theorem finalized_consistent {batchId : Uuid} {batch : BatchRow}
    {objectId : Owner × BlobId → Option ObjectId → Option ObjectId} (valid : Consistent db)
    (found : db.batches.get? batchId = some batch) :
    Consistent {db with
      batches := db.batches.put batchId
        {batch with state := .completed, resolvedAt := some m.now, signatures := none}
      tracking := db.tracking.update (fun _ row => row.batchId = some batchId ∧ row.state = .deleting)
        (fun _ row => {row with state := .deleted, batchId := none, updatedAt := m.now})
      members := db.members.update (fun key row => key.1 = batchId ∧ row.outcome = .claimed ∧
          (db.tracking.get? key.2).isSome)
        (fun key row => {row with
          outcome := .deleted, resolvedAt := some m.now, objectId := objectId key.2 row.objectId})} := by
  refine closed_consistent m batchId valid (by decide) ?_ rfl ?_ ?_
  · intro id differs
    exact (Store.get?_put found _ id).trans (if_neg differs)
  · intro key differs
    simp only [Db.outcomeOf,Store.get?_update]
    cases db.members.get? key <;> simp [differs]
  · intro key same
    simp only [Db.outcomeOf,Store.get?_update]
    cases present : db.members.get? key with
    | none => simp
    | some member =>
      by_cases open_ : member.outcome = .claimed
      · obtain ⟨row,stored,_⟩ := (valid.lineage key.1 key.2.1 key.2.2).mpr ⟨member,present,open_⟩
        have tracked : (db.tracking.get? key.2).isSome = true := Option.isSome_of_eq_some stored
        simp [same,open_,tracked]
      · simp [open_]

theorem batch_put_views {batchId : Uuid} {batch after : BatchRow} (found : db.batches.get? batchId = some batch)
    (owner : after.owner = batch.owner) (active : batch.state.active = true → after.state.active = true)
    (id : Uuid) (old : BatchRow) (present : db.batches.get? id = some old) :
    ∃ new, (db.batches.put batchId after).get? id = some new ∧ new.owner = old.owner ∧
      (old.state.active = true → new.state.active = true) := by
  rw [Store.get?_put found]
  by_cases same : id = batchId
  · subst same
    rw [found] at present
    cases present
    exact ⟨after,if_pos rfl,owner,active⟩
  · exact ⟨old,(if_neg same).trans present,rfl,fun active => active⟩

theorem unmoved_batches (id : Uuid) (batch : BatchRow) (present : db.batches.get? id = some batch) :
    ∃ after, db.batches.get? id = some after ∧ after.owner = batch.owner ∧
      (batch.state.active = true → after.state.active = true) := ⟨batch,present,rfl,fun active => active⟩

-- A row that is not claimed may move between the unclaimed states.
theorem unclaimed_consistent {p : Owner × BlobId → TrackingRow → Bool} {f : Owner × BlobId → TrackingRow → TrackingRow}
    (valid : Consistent db) (idle : ∀ key row, p key row = true → row.state = .deletable)
    (settled : ∀ key row, p key row = true → (f key row).state ≠ .deleting ∧ (f key row).batchId = row.batchId)
    (tracking : next.tracking = db.tracking.update p f) (batches : next.batches = db.batches)
    (members : next.members = db.members) : Consistent next := by
  have rows : ∀ key row, next.tracking.get? key = some row → ∃ old, db.tracking.get? key = some old ∧
      row.batchId = old.batchId ∧ (row.state = .deleting ↔ old.state = .deleting) := by
    intro key row found
    rw [tracking,Store.get?_update,Option.map_eq_some_iff] at found
    obtain ⟨old,stored,equal⟩ := found
    refine ⟨old,stored,?_⟩
    by_cases hit : p key old = true
    · rw [if_pos hit] at equal
      subst equal
      have other := settled key old hit
      exact ⟨other.2,by simp [other.1,idle key old hit]⟩
    · rw [if_neg hit] at equal
      subst equal
      exact ⟨rfl,Iff.rfl⟩
  constructor
  · intro key row found
    obtain ⟨old,stored,batch,state⟩ := rows key row found
    rw [state,batch]
    exact valid.claimed key old stored
  · intro key row id found pointer
    obtain ⟨old,stored,batch,_⟩ := rows key row found
    rw [batches]
    exact valid.owned key old id stored (batch.symm.trans pointer)
  · intro id owner blobId
    rw [members,← valid.lineage]
    constructor
    · intro ⟨row,found,pointer⟩
      obtain ⟨old,stored,batch,_⟩ := rows _ row found
      exact ⟨old,stored,batch.symm.trans pointer⟩
    · intro ⟨row,stored,pointer⟩
      have found : next.tracking.get? (owner,blobId) =
          some (if p (owner,blobId) row then f (owner,blobId) row else row) := by simp [tracking,stored]
      obtain ⟨old,same,batch,_⟩ := rows _ _ found
      rw [stored] at same
      cases same
      exact ⟨_,found,batch.trans pointer⟩

theorem tracked_consistent {key : Owner × BlobId} {row : TrackingRow} (valid : Consistent db)
    (open_ : row.state = .deletable) (free : row.batchId = none)
    (tracking : next.tracking = db.tracking.insert key row) (batches : next.batches = db.batches)
    (members : next.members = db.members) : Consistent next := by
  cases known : db.tracking.get? key with
  | some old =>
    rw [Store.insert_present row known] at tracking
    exact valid.of_views (fun _ => by simp [Db.claimOf,tracking]) (fun _ => by simp [Db.outcomeOf,members])
      (by rw [batches]; exact unmoved_batches)
  | none =>
    have lookup := fun j => Store.get?_insert row known j
    constructor
    · intro j after found
      rw [tracking,lookup] at found
      split at found
      · cases found
        simp [open_,free]
      · exact valid.claimed j after found
    · intro j after id found pointer
      rw [tracking,lookup] at found
      split at found
      · cases found
        rw [free] at pointer
        cases pointer
      · rw [batches]
        exact valid.owned j after id found pointer
    · intro id owner blobId
      rw [members,← valid.lineage,tracking]
      simp only [lookup]
      by_cases same : (owner,blobId) = key
      · simp [same,free,known]
      · simp [same]

theorem change_consistent {t : Transaction} (valid : Consistent db) (change : Change m db t next) :
    Consistent next := by
  cases change with
  | same => exact valid
  | claimed _ owner batchId keys _ _ unused open_ batches tracking unclaimed members =>
    exact claimed_consistent valid unused open_ batches tracking unclaimed members
  | evicted owner blobId batchId toState terminal row objectId _ found _ pointer =>
    exact evicted_consistent valid found pointer
  | prepared _ _ _ _ _ _ _ batch found =>
    exact valid.of_views (fun _ => rfl) (fun _ => rfl) (batch_put_views found rfl (fun active => active))
  | begun _ _ batch found =>
    exact valid.of_views (fun _ => rfl) (fun _ => rfl) (batch_put_views found rfl (fun _ => rfl))
  | retried _ _ batch found =>
    exact valid.of_views (fun _ => rfl) (fun _ => rfl) (batch_put_views found rfl (fun active => active))
  | released batchId release batch found state => exact released_consistent valid found
  | finalized batchId batch objectId found state => exact finalized_consistent valid found
  | swept owner blobId toState terminal =>
    refine unclaimed_consistent (p:=fun key row => key = (owner,blobId) ∧ row.state = .deletable)
      (f:=fun _ row => {row with state := terminal.state, updatedAt := m.now}) valid ?_ ?_ rfl rfl rfl
    · intro key row hit
      simp only [decide_eq_true_eq] at hit
      exact hit.2
    · intro key row _
      exact ⟨by cases terminal <;> simp [Terminal.state],rfl⟩
  | objectIds owner pairs =>
    obtain ⟨rows,batches,members,_⟩ := setObjectIds_parts m db owner pairs
    refine valid.of_views ?_ (fun _ => by simp [Db.outcomeOf,members]) (by rw [batches]; exact unmoved_batches)
    intro key
    simp only [Db.claimOf,rows,Option.map_map]
    cases db.tracking.get? key with
    | none => rfl
    | some row =>
      obtain ⟨state,batch,_⟩ := fillObjectId_keeps (m:=m) owner key pairs row
      simp [state,batch]
  | claimedObjectIds owner batchId pairs =>
    refine valid.of_views ?_ ?_ unmoved_batches
    · intro key
      simp only [Db.claimOf,Db.setClaimedObjectIds,Store.get?_update]
      cases db.tracking.get? key with
      | none => rfl
      | some row =>
        simp only [Option.map_some]
        split <;> rfl
    · intro key
      simp only [Db.outcomeOf,Db.setClaimedObjectIds,Store.get?_update]
      cases db.members.get? key with
      | none => rfl
      | some member =>
        simp only [Option.map_some]
        split <;> rfl
  | fenced | checkpointed | sweepMoved => exact valid.of_views (fun _ => rfl) (fun _ => rfl) unmoved_batches
  | disowned owner scanFence =>
    refine unclaimed_consistent (p:=fun key row =>
        key.1 = owner ∧ row.state = .deletable ∧ row.objectId = none ∧ row.trackedSeq < scanFence)
      (f:=fun _ row => {row with state := .notOwner, updatedAt := m.now}) valid ?_
      (fun key row _ => ⟨by simp,rfl⟩) rfl rfl rfl
    intro key row hit
    simp only [decide_eq_true_eq] at hit
    exact hit.2.1
  | tracked => exact tracked_consistent valid rfl rfl rfl rfl rfl

end Steps

-- One transaction of one client, in the moment the database serves it.
def commit (db : Db) (call : Moment × Transaction) : Except StoreError Db :=
  match call.2.run call.1 db with
  | .ok (next,_) => .ok next
  | .error failure => .error failure

theorem commit_change {db next : Db} {call : Moment × Transaction} (ran : commit db call = .ok next) :
    Change call.1 db call.2 next := by
  unfold commit at ran
  split at ran
  · rename_i result committed
    cases ran
    exact run_change committed
  · cases ran

theorem empty_consistent : Consistent Db.empty := by
  constructor
  · intro key row found
    cases found
  · intro key row id found
    cases found
  · intro id owner blobId
    simp [Db.empty]

-- Any transactions of any clients in any order; those that fail leave the
-- tables as they were.
theorem ledger_consistent (calls : List (Moment × Transaction)) : Consistent (after commit Db.empty calls) :=
  invariant_after empty_consistent (fun _ _ _ valid ran => change_consistent valid (commit_change ran)) calls

end MemWal.SecurityDelete
