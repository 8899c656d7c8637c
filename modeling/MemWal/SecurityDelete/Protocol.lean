import MemWal.SecurityDelete.Moves
import MemWal.SecurityDelete.Reconciler

namespace MemWal.SecurityDelete
open Library Library.Fallible

-- The blobs a transaction names, in the order of its owned inputs: the object
-- of each is the one recorded for the row.
def Names (db : Db) (owner : Owner) (ids : List BlobId) (tx : DeleteTx) : Prop :=
  List.Forall₂ (fun blobId input => ∃ row objectId, db.tracking.get? (owner,blobId) = some row ∧
    row.objectId = some objectId ∧ canonicalSuiAddress objectId = some input.objectId) ids tx.inputs

structure Recorded (db : Db) (id : Uuid) (batch : BatchRow) (tx : DeleteTx) : Prop where
  digest : batch.digest = some tx.digest
  epoch : tx.epoch = batch.expireEpoch
  nonce : tx.nonce = batch.nonce
  inputs : ∃ ids, batch.inputBlobIds = some ids ∧ Names db batch.owner ids tx ∧
    ∀ key row, db.tracking.get? key = some row → row.batchId = some id → key.2 ∈ ids

-- What holds in every state, however the replicas and the chain interleave.
structure Inv (s : System) : Prop where
  consistent : Consistent s.db
  recorded : ∀ id batch tx, s.db.batches.get? id = some batch → batch.txBytes = some tx → Recorded s.db id batch tx
  digests : ∀ id batch, s.db.batches.get? id = some batch → batch.digest.isSome → batch.txBytes.isSome
  distinct : ∀ a b left right, s.db.batches.get? a = some left → s.db.batches.get? b = some right →
    left.txBytes.isSome → right.txBytes.isSome → left.expireEpoch = right.expireEpoch → left.nonce = right.nonce →
    a = b
  sent : ∀ tx ∈ s.chain.sent, ∃ id batch, s.db.batches.get? id = some batch ∧ batch.txBytes = some tx ∧
    batch.state ≠ .awaitingSignature
  logged : ∀ tx status, s.chain.log.get? tx = some status → tx ∈ s.chain.sent
  completed : ∀ id batch, s.db.batches.get? id = some batch → batch.state = .completed →
    ∃ tx, batch.txBytes = some tx ∧ s.chain.log.get? tx = some .success
  deleted : ∀ id key, s.db.outcomeOf (id,key) = some .deleted → ∃ batch ids row, s.db.batches.get? id = some batch ∧
    batch.state = .completed ∧ batch.inputBlobIds = some ids ∧ key.1 = batch.owner ∧ key.2 ∈ ids ∧
    s.db.tracking.get? key = some row ∧ row.state = .deleted
  rows : ∀ key row, s.db.tracking.get? key = some row → row.state = .deleted →
    ∃ id, s.db.outcomeOf (id,key) = some .deleted
  named : s.chain.Named

-- What a caller still knows about a batch it has read.
structure BatchRow.Extends (old new : BatchRow) : Prop where
  owner : new.owner = old.owner
  tx : ∀ tx, old.txBytes = some tx → new.txBytes = some tx ∧ new.inputBlobIds = old.inputBlobIds
  begun : old.state ≠ .awaitingSignature → new.state ≠ .awaitingSignature

structure Later (s now : System) : Prop where
  batches : ∀ id old, s.db.batches.get? id = some old → ∃ new, now.db.batches.get? id = some new ∧ old.Extends new
  rows : ∀ key old objectId, s.db.tracking.get? key = some old → old.objectId = some objectId →
    ∃ new, now.db.tracking.get? key = some new ∧ new.objectId = some objectId
  claims : ∀ id batch, s.db.batches.get? id = some batch → ∀ key new, now.db.tracking.get? key = some new →
    new.batchId = some id → ∃ old, s.db.tracking.get? key = some old ∧ old.batchId = some id
  log : ∀ tx status, s.chain.log.get? tx = some status → now.chain.log.get? tx = some status

-- The three calls that are not always in order, and when they are.
def Allowed (s : System) : Op → Prop
  | .transact (.finalize id) => ∀ batch, s.db.batches.get? id = some batch →
      ∃ tx, batch.txBytes = some tx ∧ s.chain.log.get? tx = some .success
  | .transact (.setPrepared id digest tx ids count nonce epoch) => digest = tx.digest ∧ tx.epoch = epoch ∧
      tx.nonce = nonce ∧ count = ids.length ∧ ∀ batch, s.db.batches.get? id = some batch →
        Names s.db batch.owner ids tx ∧
        ∀ key row, s.db.tracking.get? key = some row → row.batchId = some id → key.2 ∈ ids
  | .send tx _ => ∃ id batch, s.db.batches.get? id = some batch ∧ batch.txBytes = some tx ∧
      batch.state ≠ .awaitingSignature
  | _ => True

theorem BatchRow.Extends.refl (batch : BatchRow) : batch.Extends batch :=
  ⟨rfl,fun _ same => ⟨same,rfl⟩,fun begun => begun⟩

theorem BatchRow.Extends.trans {a b c : BatchRow} (one : a.Extends b) (two : b.Extends c) : a.Extends c := by
  refine ⟨two.owner.trans one.owner,?_,fun begun => two.begun (one.begun begun)⟩
  intro tx known
  obtain ⟨kept,ids⟩ := one.tx tx known
  obtain ⟨still,ids'⟩ := two.tx tx kept
  exact ⟨still,ids'.trans ids⟩

theorem Later.refl (s : System) : Later s s :=
  ⟨fun _ old found => ⟨old,found,.refl old⟩,fun _ old _ found known => ⟨old,found,known⟩,
    fun _ _ _ _ new found pointer => ⟨new,found,pointer⟩,fun _ _ found => found⟩

theorem Later.trans (a b c : System) (one : Later a b) (two : Later b c) : Later a c := by
  refine ⟨?_,?_,?_,fun tx status found => two.log tx status (one.log tx status found)⟩
  · intro id old found
    obtain ⟨mid,present,extends₁⟩ := one.batches id old found
    obtain ⟨new,stored,extends₂⟩ := two.batches id mid present
    exact ⟨new,stored,extends₁.trans extends₂⟩
  · intro key old objectId found known
    obtain ⟨mid,present,kept⟩ := one.rows key old objectId found known
    exact two.rows key mid objectId present kept
  · intro id batch found key new present pointer
    obtain ⟨mid,stored,_⟩ := one.batches id batch found
    obtain ⟨between,here,points⟩ := two.claims id mid stored key new present pointer
    exact one.claims id batch found key between here points

theorem BatchMove.extends {t : Transaction} {id : Uuid} {old new : BatchRow} (move : BatchMove t id old new) :
    old.Extends new := by
  have same : old.SameTx new → (old.state ≠ .awaitingSignature → new.state ≠ .awaitingSignature) → old.Extends new :=
    fun kept begun => ⟨kept.owner,fun tx known => ⟨kept.txBytes.trans known,kept.inputBlobIds⟩,begun⟩
  cases move with
  | kept kept state => exact same kept (fun begun => by rw [state]; exact begun)
  | begun kept _ state => exact same kept (fun _ => by rw [state]; simp)
  | released release _ kept _ state => exact same kept (fun _ => by rw [state]; cases release <;> simp [Release.target])
  | finalized _ kept _ state => exact same kept (fun _ => by rw [state]; simp)
  | prepared digest tx ids count nonce epoch _ awaiting unset equal =>
    subst equal
    refine ⟨rfl,?_,fun begun => absurd awaiting begun⟩
    intro other known
    rw [unset] at known
    cases known

section Steps
variable {m : Moment} {s : System} {t : Transaction} {db : Db}

theorem change_later (valid : Consistent s.db) (change : Change m s.db t db) : Later s {s with db := db} := by
  refine ⟨?_,?_,?_,fun _ _ found => found⟩
  · intro id old found
    obtain ⟨new,stored⟩ := batch_stays change found
    refine ⟨new,stored,?_⟩
    rcases change_batch change stored with ⟨prior,same,move⟩ | ⟨none_,_⟩
    · rw [found] at same
      cases same
      exact move.extends
    · rw [found] at none_
      cases none_
  · intro key old objectId found known
    obtain ⟨new,stored⟩ := row_stays change found
    rcases change_row valid change stored with ⟨prior,same,move⟩ | ⟨none_,_⟩
    · rw [found] at same
      cases same
      exact ⟨new,stored,move.objectId objectId known⟩
    · rw [found] at none_
      cases none_
  · intro id batch present key new stored pointer
    rcases change_row valid change stored with ⟨old,found,move⟩ | ⟨_,free,_⟩
    · rcases move.entered id pointer with same | unused
      · exact ⟨old,found,same⟩
      · rw [present] at unused
        cases unused
    · rw [free] at pointer
      cases pointer

theorem Names.later {now : System} {owner : Owner} {ids : List BlobId} {tx : DeleteTx} (since : Later s now)
    (names : Names s.db owner ids tx) : Names now.db owner ids tx := by
  refine List.Forall₂.imp ?_ names
  intro blobId input ⟨row,objectId,found,known,address⟩
  obtain ⟨new,stored,kept⟩ := since.rows _ row objectId found known
  exact ⟨new,objectId,stored,kept,address⟩

theorem Recorded.later {now : System} {id : Uuid} {old new : BatchRow} {tx : DeleteTx} (since : Later s now)
    (found : s.db.batches.get? id = some old) (same : old.SameTx new) (recorded : Recorded s.db id old tx) :
    Recorded now.db id new tx := by
  obtain ⟨ids,stored,names,pointed⟩ := recorded.inputs
  refine ⟨same.digest.trans recorded.digest,recorded.epoch.trans same.expireEpoch.symm,
    recorded.nonce.trans same.nonce.symm,ids,same.inputBlobIds.trans stored,?_,?_⟩
  · rw [same.owner]
    exact names.later since
  · intro key row present pointer
    obtain ⟨prior,here,points⟩ := since.claims id old found key row present pointer
    exact pointed key prior here points

theorem BatchMove.sameTx {id : Uuid} {old new : BatchRow} (move : BatchMove t id old new) :
    old.SameTx new ∨ ∃ digest tx ids count nonce epoch, t = .setPrepared id digest tx ids count nonce epoch ∧
      old.txBytes = none ∧ new.owner = old.owner ∧ new.digest = some digest ∧ new.txBytes = some tx ∧
      new.inputBlobIds = some ids ∧ new.nonce = nonce ∧ new.expireEpoch = epoch := by
  cases move with
  | kept same | begun same | released _ _ same | finalized _ same => exact .inl same
  | prepared digest tx ids count nonce epoch call _ unset equal =>
    subst equal
    exact .inr ⟨digest,tx,ids,count,nonce,epoch,call,unset,rfl,rfl,rfl,rfl,rfl,rfl⟩

theorem recorded_step (inv : Inv s) (allowed : Allowed s (.transact t)) (change : Change m s.db t db)
    {id : Uuid} {new : BatchRow} {tx : DeleteTx} (stored : db.batches.get? id = some new)
    (known : new.txBytes = some tx) : Recorded db id new tx := by
  have since := change_later inv.consistent change
  rcases change_batch change stored with ⟨old,found,move⟩ | ⟨_,none_,_⟩
  · rcases move.sameTx with same | ⟨digest,tx',ids,count,nonce,epoch,rfl,unset,owner,digest',tx'',ids',nonce',epoch'⟩
    · exact (inv.recorded id old tx found (same.txBytes.symm.trans known)).later since found same
    · obtain ⟨rfl,hepoch,hnonce,_,inputs⟩ := allowed
      rw [tx''] at known
      cases known
      obtain ⟨names,pointed⟩ := inputs old found
      refine ⟨digest',hepoch.trans epoch'.symm,hnonce.trans nonce'.symm,ids,ids',?_,?_⟩
      · rw [owner]
        exact Names.later since names
      · intro key row present pointer
        obtain ⟨prior,here,points⟩ := since.claims id old found key row present pointer
        exact pointed key prior here points
  · rw [none_] at known
    cases known

theorem distinct_step (inv : Inv s) (change : Change m s.db t db) {a b : Uuid} {left right : BatchRow}
    (one : db.batches.get? a = some left) (two : db.batches.get? b = some right) (setLeft : left.txBytes.isSome)
    (setRight : right.txBytes.isSome) (epoch : left.expireEpoch = right.expireEpoch) (nonce : left.nonce = right.nonce) :
    a = b := by
  -- A batch with a transaction had it before, or gets it here with a pair of
  -- epoch and nonce no other batch has.
  have origin : ∀ {id : Uuid} {new : BatchRow}, db.batches.get? id = some new → new.txBytes.isSome →
      ∃ old, s.db.batches.get? id = some old ∧ (old.SameTx new ∨
        ∃ digest tx ids count, t = .setPrepared id digest tx ids count new.nonce new.expireEpoch ∧
          old.txBytes = none) := by
    intro id new stored set
    rcases change_batch change stored with ⟨old,found,move⟩ | ⟨_,none_,_⟩
    · refine ⟨old,found,?_⟩
      rcases move.sameTx with same | ⟨digest,tx,ids,count,_,_,call,unset,_,_,_,_,rfl,rfl⟩
      · exact .inl same
      · exact .inr ⟨digest,tx,ids,count,call,unset⟩
    · rw [none_] at set
      cases set
  obtain ⟨first,foundFirst,oldFirst⟩ := origin one setLeft
  obtain ⟨second,foundSecond,oldSecond⟩ := origin two setRight
  rcases oldFirst with sameFirst | ⟨_,_,_,_,callFirst,unsetFirst⟩
  · rcases oldSecond with sameSecond | ⟨_,_,_,_,rfl,unsetSecond⟩
    · refine inv.distinct a b first second foundFirst foundSecond ?_ ?_ ?_ ?_
      · rw [← sameFirst.txBytes]; exact setLeft
      · rw [← sameSecond.txBytes]; exact setRight
      · rw [← sameFirst.expireEpoch,← sameSecond.expireEpoch]; exact epoch
      · rw [← sameFirst.nonce,← sameSecond.nonce]; exact nonce
    · refine absurd ⟨?_,?_⟩ ((prepared_effect change foundSecond unsetSecond two setRight).2.2 a first foundFirst
        (by rw [← sameFirst.txBytes]; exact setLeft))
      · rw [← sameFirst.expireEpoch]; exact epoch
      · rw [← sameFirst.nonce]; exact nonce
  · rcases oldSecond with sameSecond | ⟨_,_,_,_,callSecond,_⟩
    · subst callFirst
      refine absurd ⟨?_,?_⟩ ((prepared_effect change foundFirst unsetFirst one setLeft).2.2 b second foundSecond
        (by rw [← sameSecond.txBytes]; exact setRight))
      · rw [← sameSecond.expireEpoch]; exact epoch.symm
      · rw [← sameSecond.nonce]; exact nonce.symm
    · rw [callFirst] at callSecond
      injection callSecond

theorem BatchMove.completed {id : Uuid} {old new : BatchRow} (move : BatchMove t id old new)
    (done : old.state = .completed) : old.SameTx new ∧ new.state = .completed := by
  cases move with
  | kept same state => exact ⟨same,state.trans done⟩
  | begun _ awaiting =>
    rw [done] at awaiting
    cases awaiting
  | released release _ _ expected =>
    rw [done] at expected
    cases release <;> cases expected
  | finalized _ _ executing =>
    rw [done] at executing
    cases executing
  | prepared _ _ _ _ _ _ _ awaiting =>
    rw [done] at awaiting
    cases awaiting

theorem completed_step (inv : Inv s) (allowed : Allowed s (.transact t)) (change : Change m s.db t db)
    {id : Uuid} {new : BatchRow} (stored : db.batches.get? id = some new) (done : new.state = .completed) :
    ∃ tx, new.txBytes = some tx ∧ s.chain.log.get? tx = some .success := by
  rcases change_batch change stored with ⟨old,found,move⟩ | ⟨_,_,_,fresh⟩
  · cases move with
    | kept same state =>
      obtain ⟨tx,known,committed⟩ := inv.completed id old found (state.symm.trans done)
      exact ⟨tx,same.txBytes.trans known,committed⟩
    | finalized call same =>
      subst call
      obtain ⟨tx,known,committed⟩ := allowed old found
      exact ⟨tx,same.txBytes.trans known,committed⟩
    | begun _ _ state =>
      rw [done] at state
      cases state
    | released release _ _ _ state =>
      rw [done] at state
      cases release <;> cases state
    | prepared _ _ _ _ _ _ _ awaiting _ equal =>
      subst equal
      rw [done] at awaiting
      cases awaiting
  · rw [done] at fresh
    cases fresh

theorem deleted_step (inv : Inv s) (allowed : Allowed s (.transact t)) (change : Change m s.db t db)
    {id : Uuid} {key : Owner × BlobId} (gone : db.outcomeOf (id,key) = some .deleted) :
    ∃ batch ids row, db.batches.get? id = some batch ∧ batch.state = .completed ∧ batch.inputBlobIds = some ids ∧
      key.1 = batch.owner ∧ key.2 ∈ ids ∧ db.tracking.get? key = some row ∧ row.state = .deleted := by
  rcases outcome_of_change inv.consistent change gone with prior | ⟨row,old,new,finalized,present,pointer⟩
  · obtain ⟨batch,ids,row,found,done,inputs,owner,member,present,state⟩ := inv.deleted id key prior
    obtain ⟨after,stored⟩ := batch_stays change found
    obtain ⟨last,kept⟩ := row_stays change present
    have lasts : last.state = .deleted := by
      rcases change_row inv.consistent change kept with ⟨same,here,move⟩ | ⟨none_,_⟩
      · rw [present] at here
        cases here
        exact move.final state
      · rw [present] at none_
        cases none_
    rcases change_batch change stored with ⟨same,here,move⟩ | ⟨none_,_⟩
    · rw [found] at here
      cases here
      obtain ⟨columns,still⟩ := move.completed done
      exact ⟨after,ids,last,stored,still,columns.inputBlobIds.trans inputs,owner.trans columns.owner.symm,member,kept,
        lasts⟩
    · rw [found] at none_
      cases none_
  · -- The batch is finalized by this very transaction.
    obtain ⟨_,last,kept,state⟩ := finalize_marks inv.consistent change finalized present pointer
    have call := finalized.call
    dsimp only at call
    subst call
    obtain ⟨tx,known,_⟩ := allowed old finalized.found
    obtain ⟨ids,inputs,_,pointed⟩ := (inv.recorded id old tx finalized.found known).inputs
    obtain ⟨batch,same,owner,_⟩ := inv.consistent.owned key row id present pointer
    rw [finalized.found] at same
    cases same
    exact ⟨new,ids,last,finalized.stored,finalized.completed,finalized.same.inputBlobIds.trans inputs,
      owner.symm.trans finalized.same.owner.symm,pointed key row present pointer,kept,state⟩

theorem rows_step (inv : Inv s) (change : Change m s.db t db) {key : Owner × BlobId} {new : TrackingRow}
    (stored : db.tracking.get? key = some new) (state : new.state = .deleted) :
    ∃ id, db.outcomeOf (id,key) = some .deleted := by
  rcases change_row inv.consistent change stored with ⟨old,found,move⟩ | ⟨_,_,fresh⟩
  · rcases move.deleted state with prior | ⟨id,batch,after,finalized,pointer⟩
    · obtain ⟨id,gone⟩ := inv.rows key old found prior
      exact ⟨id,deleted_outcome_stays change gone⟩
    · exact ⟨id,(finalize_marks inv.consistent change finalized found pointer).1⟩
  · rw [state] at fresh
    cases fresh

theorem digests_step (inv : Inv s) (change : Change m s.db t db) {id : Uuid} {new : BatchRow}
    (stored : db.batches.get? id = some new) (known : new.digest.isSome) : new.txBytes.isSome := by
  rcases change_batch change stored with ⟨old,found,move⟩ | ⟨_,_,none_,_⟩
  · rcases move.sameTx with same | ⟨_,tx,_,_,_,_,_,_,_,_,set,_⟩
    · rw [same.txBytes]
      rw [same.digest] at known
      exact inv.digests id old found known
    · rw [set]
      rfl
  · rw [none_] at known
    cases known

theorem transaction_inv (inv : Inv s) (allowed : Allowed s (.transact t)) (change : Change m s.db t db) :
    Inv {s with db := db} where
  consistent := change_consistent inv.consistent change
  recorded _ _ _ stored known := recorded_step inv allowed change stored known
  digests _ _ stored known := digests_step inv change stored known
  distinct _ _ _ _ one two setLeft setRight epoch nonce :=
    distinct_step inv change one two setLeft setRight epoch nonce
  sent tx member := by
    obtain ⟨id,old,found,known,begun⟩ := inv.sent tx member
    obtain ⟨new,stored,extends_⟩ := (change_later inv.consistent change).batches id old found
    exact ⟨id,new,stored,(extends_.tx tx known).1,extends_.begun begun⟩
  logged := inv.logged
  completed _ _ stored done := completed_step inv allowed change stored done
  deleted _ _ gone := deleted_step inv allowed change gone
  rows _ _ stored state := rows_step inv change stored state
  named := inv.named

-- A transaction commits, whatever its caller is told, or nothing happens.
theorem transact_cases (s : System) (c : Choice) (t : Transaction) : (s.transact c t).1 = s ∨
    ∃ db, (s.transact c t).1 = {s with db := db} ∧ Change c.m s.db t db ∧ c.lost ≠ some false := by
  unfold System.transact
  cases ran : t.run c.m s.db with
  | error failure => exact .inl rfl
  | ok result =>
    have change := run_change ran
    cases c.lost with
    | none => exact .inr ⟨result.1,rfl,change,by simp⟩
    | some committed =>
      cases committed with
      | true => exact .inr ⟨result.1,rfl,change,by simp⟩
      | false => exact .inl rfl

theorem transact_step {c : Choice} (inv : Inv s) (allowed : Allowed s (.transact t)) :
    Inv (s.transact c t).1 ∧ Later s (s.transact c t).1 := by
  rcases transact_cases s c t with equal | ⟨db,equal,change,_⟩
  · rw [equal]
    exact ⟨inv,.refl s⟩
  · rw [equal]
    exact ⟨transaction_inv inv allowed change,change_later inv.consistent change⟩

theorem sent_step {tx : DeleteTx} {signatures : List Bytes} (inv : Inv s) (allowed : Allowed s (.send tx signatures)) :
    Inv {s with chain := {s.chain with sent := tx :: s.chain.sent}} := by
  refine {inv with sent := ?_, logged := ?_}
  · intro other member
    rcases List.mem_cons.mp member with rfl | prior
    · exact allowed
    · exact inv.sent other prior
  · intro other status found
    exact List.mem_cons_of_mem _ (inv.logged other status found)

theorem serve_step (op : Op) (c : Choice) (inv : Inv s) (allowed : Allowed s op) :
    Inv (serve s op c).1 ∧ Later s (serve s op c).1 := by
  cases op with
  | transact t => exact transact_step inv allowed
  | claimBatchRetry batchId delay => exact transact_step inv trivial
  | send tx signatures =>
    simp only [serve]
    split
    · exact ⟨sent_step inv allowed,⟨(Later.refl s).batches,(Later.refl s).rows,(Later.refl s).claims,fun _ _ found => found⟩⟩
    · exact ⟨inv,.refl s⟩
  | _ => exact ⟨inv,.refl s⟩

def discipline : Discipline serve where
  Inv := Inv
  Later := Later
  Allowed := Allowed
  refl := Later.refl
  trans := Later.trans
  serves _ op c inv allowed := serve_step op c inv allowed

theorem chain_step {event : ChainEvent} {chain : Chain} (inv : Inv s) (happened : s.chain.happen event = .ok chain) :
    Inv {s with chain := chain} ∧ Later s {s with chain := chain} := by
  have grows := happen_grows happened
  refine ⟨{inv with sent := ?_, logged := ?_, completed := ?_, named := happen_named happened inv.named},
    (Later.refl s).batches,(Later.refl s).rows,(Later.refl s).claims,grows.log⟩
  · intro tx member
    exact inv.sent tx ((grows.sent tx).mp member)
  · intro tx status found
    rcases grows.logged tx status found with prior | ⟨member,_⟩
    · exact (grows.sent tx).mpr (inv.logged tx status prior)
    · exact (grows.sent tx).mpr member
  · intro id batch found done
    obtain ⟨tx,known,committed⟩ := inv.completed id batch found done
    exact ⟨tx,known,grows.log tx .success committed⟩

-- What happens outside is a step of the chain, or a transaction the routes and
-- the reconciler never ask for.
def Outside.Moves (s next : System) : Prop :=
  (∃ event chain, s.chain.happen event = .ok chain ∧ next = {s with chain := chain}) ∨
  ∃ m t db, Change m s.db t db ∧ next = {s with db := db} ∧ Allowed s (.transact t) ∧
    (∀ owner blobId id toState, t ≠ .evict owner blobId id toState) ∧ ∀ id release, t ≠ .rollback id release

theorem apply_change {next : System} (applied : s.apply m t = .ok next) :
    ∃ db, Change m s.db t db ∧ next = {s with db := db} := by
  unfold System.apply at applied
  split at applied
  · rename_i ran
    cases applied
    exact ⟨_,run_change ran,rfl⟩
  · cases applied

theorem happen_moves {event : Outside} {next : System} (happened : happen s event = .ok next) :
    Outside.Moves s next := by
  cases event with
  | chain event =>
    simp only [happen] at happened
    split at happened
    · rename_i chain moved
      cases happened
      exact .inl ⟨event,chain,moved,rfl⟩
    · cases happened
  | trackDeletable | setObjectIds | reserveFence | completeScan | saveCheckpoint =>
    unfold happen at happened
    obtain ⟨db,change,equal⟩ := apply_change happened
    exact .inr ⟨_,_,db,change,equal,trivial,by simp,by simp⟩

theorem happen_step {event : Outside} {next : System} (inv : Inv s) (happened : happen s event = .ok next) :
    Inv next ∧ Later s next := by
  rcases happen_moves happened with ⟨event,chain,moved,rfl⟩ | ⟨m,t,db,change,rfl,allowed,_⟩
  · exact chain_step inv moved
  · exact ⟨transaction_inv inv allowed change,change_later inv.consistent change⟩

end Steps
end MemWal.SecurityDelete
