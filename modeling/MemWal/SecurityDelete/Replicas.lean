import MemWal.Library.Runs
import MemWal.SecurityDelete.Preparation

namespace MemWal.SecurityDelete
open Library Library.Fallible Library.Runs

-- Any number of replicas: each runs the routes and the reconciler as often as
-- it likes, and all of them share the database and the chain.

inductive Request where
  | prepare (cfg : Config) (pages : Nat) (owner : Owner) (request : PrepareRequest)
  | submit (cfg : Config) (owner : Owner) (batchId : Uuid) (signature : String)
  | cancel (owner : Owner) (batchId : Uuid)
  | tick (cfg : ReconcilerCfg)

inductive Response where
  | prepared (result : Except SdError PrepareResponse)
  | submitted (result : Except SdError SubmitResponse)
  | cancelled (result : Except SdError StatusResponse)
  | ticked (result : Except AppError TickReport)

abbrev Worker := Program Op Op.Answer Empty Response
abbrev Replicas := Pool System Worker
abbrev Act := Move Request Choice Outside

def program : Request → Worker
  | .prepare cfg pages owner request => do return .prepared (← (prepareDeletion cfg pages owner request).attempt)
  | .submit cfg owner batchId signature => do return .submitted (← (submitDeletion cfg owner batchId signature).attempt)
  | .cancel owner batchId => do return .cancelled (← (cancelDeletion owner batchId).attempt)
  | .tick cfg => do return .ticked (← (runReconcilerTick cfg).attempt)

def setting : Setting Op Op.Answer System Choice Empty Response Request Outside OutsideFailure where
  serve := serve
  program := program
  happen := happen

def Replicas.initial (system : SharedObjectInfo) : Replicas := ⟨⟨.empty,.initial system⟩,.empty⟩

def Replicas.exec : Replicas → Act → Except (Option OutsideFailure) Replicas := Pool.exec setting

theorem program_safe {s : System} (request : Request) (inv : Inv s) :
    Safe discipline (fun _ _ => True) (program request) s := by
  cases request with
  | prepare cfg pages owner request =>
    exact .bind inv (.attempt (prepareDeletion_safe cfg pages request inv)) (fun _ _ _ _ _ => trivial)
  | submit cfg owner batchId signature =>
    exact .bind inv (.attempt (submitDeletion_safe cfg signature inv)) (fun _ _ _ _ _ => trivial)
  | cancel owner batchId =>
    exact .bind inv (harmless_safe (.attempt (cancelDeletion_harmless owner batchId)) s) (fun _ _ _ _ _ => trivial)
  | tick cfg => exact .bind inv (.attempt (runReconcilerTick_safe cfg inv)) (fun _ _ _ _ _ => trivial)

theorem initial_inv (system : SharedObjectInfo) : Inv ⟨.empty,.initial system⟩ where
  consistent := empty_consistent
  recorded _ _ _ found := by cases found
  digests _ _ found := by cases found
  distinct _ _ _ _ found := by cases found
  sent _ member := by cases member
  logged _ _ found := by cases found
  completed _ _ found := by cases found
  deleted _ _ found := by cases found
  rows _ _ found := by cases found
  named _ _ _ found := by cases found

section Runs
variable {w next : Replicas} {act : Act} (system : SharedObjectInfo) (acts : List Act)

theorem exec_sound (sound : w.Sound setting discipline) (ran : w.exec act = .ok next) :
    next.Sound setting discipline ∧ Later w.shared next.shared :=
  Pool.exec_sound (d:=discipline) (fun _ _ _ inv happened => happen_step inv happened)
    (fun request _ inv => program_safe request inv) sound ran

def state (i : Nat) : System := (before Replicas.exec (.initial system) acts i).shared

theorem run_sound (i : Nat) : (before Replicas.exec (.initial system) acts i).Sound setting discipline := by
  refine invariant_before ⟨initial_inv system,?_⟩ (fun _ _ _ sound ran => (exec_sound sound ran).1) acts i
  intro worker p found
  cases found

theorem state_inv (i : Nat) : Inv (state system acts i) := (run_sound system acts i).inv

theorem state_later {i j : Nat} (order : i ≤ j) : Later (state system acts i) (state system acts j) :=
  relation_between (R:=fun a b : Replicas => Later a.shared b.shared) (I:=fun w => w.Sound setting discipline)
    (fun w => .refl w.shared) (fun a b c => Later.trans a.shared b.shared c.shared) (run_sound system acts 0)
    (fun _ _ _ sound ran => (exec_sound sound ran).1) (fun _ _ _ sound ran => (exec_sound sound ran).2) order

end Runs

-- Releasing what may be deleted

-- The batch has a transaction that can still succeed, or has succeeded.
def System.viable (s : System) (id : Uuid) : Bool :=
  (s.db.batches.get? id).any (fun batch => batch.txBytes.any (fun tx => !s.chain.doomed tx))

-- It is executing, and the transaction has reached the chain.
def System.inFlight (s : System) (id : Uuid) : Bool :=
  (s.db.batches.get? id).any (fun batch => batch.state = .executing &&
    batch.txBytes.any (fun tx => tx ∈ s.chain.sent && !s.chain.doomed tx))

def Db.points (db : Db) (id : Uuid) (key : Owner × BlobId) : Bool :=
  (db.tracking.get? key).any (fun row => row.batchId = some id)

def evictsViable (s : System) (c : Choice) : Op → Bool
  | .transact (.evict owner blobId id _) => c.lost ≠ some false && s.viable id && s.db.points id (owner,blobId)
  | _ => false

def rollsBackInFlight (s : System) (c : Choice) : Op → Bool
  | .transact (.rollback id .failExecuting) => c.lost ≠ some false && s.inFlight id
  | _ => false

-- A transaction that can still succeed reaches the chain for the first time,
-- although its batch is not executing any more.
def sendsLate (s : System) (c : Choice) : Op → Bool
  | .send tx _ => c.delivered && tx ∉ s.chain.sent && !s.chain.doomed tx &&
      s.db.batches.entries.any (fun entry => entry.2.txBytes = some tx && entry.2.state ≠ .executing)
  | _ => false

def strips (w : Replicas) (act : Act) : Bool :=
  (w.served act).any (fun call => evictsViable w.shared call.2 call.1)

def releases (w : Replicas) (act : Act) : Bool :=
  (w.served act).any (fun call => rollsBackInFlight w.shared call.2 call.1 || sendsLate w.shared call.2 call.1)

section Predicates
variable {s : System} {id : Uuid} {batch : BatchRow} {tx : DeleteTx}

theorem points_iff {key : Owner × BlobId} : s.db.points id key = true ↔ Points s id key := by
  simp [Db.points,Points,Option.any_eq_true]

theorem viable_of (found : s.db.batches.get? id = some batch) (known : batch.txBytes = some tx)
    (alive : s.chain.doomed tx = false) : s.viable id = true := by
  simp [System.viable,found,known,alive]

theorem inFlight_of (found : s.db.batches.get? id = some batch) (executing : batch.state = .executing)
    (known : batch.txBytes = some tx) (sent : tx ∈ s.chain.sent) (alive : s.chain.doomed tx = false) :
    s.inFlight id = true := by
  simp [System.inFlight,found,executing,known,sent,alive]

end Predicates

-- While a transaction can succeed, the rows it names stay with its batch; a
-- completed batch has deleted them all.
structure Kept (s : System) : Prop where
  held : ∀ id batch tx ids, s.db.batches.get? id = some batch → batch.state.active = true → batch.txBytes = some tx →
    batch.inputBlobIds = some ids → s.chain.doomed tx = false → ∀ blobId ∈ ids, Points s id (batch.owner,blobId)
  done : ∀ id batch ids, s.db.batches.get? id = some batch → batch.state = .completed →
    batch.inputBlobIds = some ids → ∀ blobId ∈ ids, s.db.outcomeOf (id,batch.owner,blobId) = some .deleted

-- While a transaction can succeed, its batch waits for it or is completed.
def Unreleased (s : System) : Prop :=
  ∀ id batch tx, s.db.batches.get? id = some batch → batch.txBytes = some tx → tx ∈ s.chain.sent →
    s.chain.doomed tx = false → batch.state = .executing ∨ batch.state = .completed

section Steps
variable {m : Moment} {s next : System} {t : Transaction} {db : Db}

theorem tx_unique (inv : Inv s) {a b : Uuid} {left right : BatchRow} {tx : DeleteTx}
    (one : s.db.batches.get? a = some left) (two : s.db.batches.get? b = some right)
    (setLeft : left.txBytes = some tx) (setRight : right.txBytes = some tx) : a = b := by
  have first := inv.recorded a left tx one setLeft
  have second := inv.recorded b right tx two setRight
  refine inv.distinct a b left right one two (by rw [setLeft]; rfl) (by rw [setRight]; rfl) ?_ ?_
  · exact first.epoch.symm.trans second.epoch
  · exact first.nonce.symm.trans second.nonce

theorem sent_begun (inv : Inv s) {id : Uuid} {batch : BatchRow} {tx : DeleteTx}
    (found : s.db.batches.get? id = some batch) (known : batch.txBytes = some tx) (sent : tx ∈ s.chain.sent) :
    batch.state ≠ .awaitingSignature := by
  obtain ⟨other,prior,present,same,begun⟩ := inv.sent tx sent
  have equal := tx_unique inv found present known same
  subst equal
  rw [found] at present
  cases present
  exact begun

-- A transaction that has been sent is not the one being stored.
theorem prepared_unsent (inv : Inv s) {id : Uuid} {old new : BatchRow} {tx : DeleteTx}
    (change : Change m s.db t db) (later : Inv {s with db := db}) (found : s.db.batches.get? id = some old)
    (unset : old.txBytes = none) (stored : db.batches.get? id = some new) (known : new.txBytes = some tx) :
    tx ∉ s.chain.sent := by
  intro sent
  obtain ⟨other,prior,present,same,_⟩ := inv.sent tx sent
  obtain ⟨after,kept,extends_⟩ := (change_later inv.consistent change).batches other prior present
  have equal := tx_unique later stored kept known (extends_.tx tx same).1
  subst equal
  rw [found] at present
  cases present
  rw [unset] at same
  cases same

-- The guard compares two numbers. The rows that are claimed are among the blobs
-- the transaction names, so with the same number of each they are the same.
theorem prepared_points (inv : Inv s) {id : Uuid} {batch : BatchRow} {ids : List BlobId}
    (found : s.db.batches.get? id = some batch)
    (pointed : ∀ key row, s.db.tracking.get? key = some row → row.batchId = some id → key.2 ∈ ids)
    (counted : s.db.tracking.count (fun _ row => row.batchId = some id ∧ row.state = .deleting) = ids.length)
    {blobId : BlobId} (member : blobId ∈ ids) : Points s id (batch.owner,blobId) := by
  have owned : ∀ key row, s.db.tracking.get? key = some row → row.batchId = some id → key.1 = batch.owner :=
    fun key row present pointer => Claimed.owner_of inv ⟨batch,found,rfl⟩ ⟨row,present,pointer⟩
  have within : ∀ key row, s.db.tracking.get? key = some row →
      decide (row.batchId = some id ∧ row.state = .deleting) = true → key.2 ∈ ids :=
    fun key row present holds => pointed key row present (of_decide_eq_true holds).1
  obtain ⟨key,row,present,holds,rfl⟩ := Store.count_covers within (fun one old two new first holds second holds' same =>
    Prod.ext ((owned one old first (of_decide_eq_true holds).1).trans
      (owned two new second (of_decide_eq_true holds').1).symm) same) counted member
  have pointer := (of_decide_eq_true holds).1
  rw [← owned key row present pointer]
  exact ⟨row,present,pointer⟩

theorem change_held (inv : Inv s) (kept : Kept s) (allowed : Allowed s (.transact t)) (change : Change m s.db t db)
    (spared : ∀ owner blobId id toState, t = .evict owner blobId id toState → s.viable id = true →
      s.db.points id (owner,blobId) = false)
    {id : Uuid} {new : BatchRow} {tx : DeleteTx} {ids : List BlobId} (stored : db.batches.get? id = some new)
    (active : new.state.active = true) (known : new.txBytes = some tx) (inputs : new.inputBlobIds = some ids)
    (alive : s.chain.doomed tx = false) {blobId : BlobId} (member : blobId ∈ ids) :
    Points {s with db := db} id (new.owner,blobId) := by
  -- A row of a batch that had its transaction before stays, unless it is
  -- evicted or the batch is over.
  have remains : ∀ old, s.db.batches.get? id = some old → old.SameTx new → old.state.active = true →
      Points {s with db := db} id (new.owner,blobId) := by
    intro old found same wasActive
    have wasKnown := same.txBytes.symm.trans known
    obtain ⟨row,present,pointer⟩ := kept.held id old tx ids found wasActive wasKnown
      (same.inputBlobIds.symm.trans inputs) alive blobId member
    obtain ⟨after,there⟩ := row_stays change present
    rw [same.owner]
    rcases change_row inv.consistent change there with ⟨prior,here,move⟩ | ⟨none_,_⟩
    · rw [present] at here
      cases here
      rcases move.left_ id pointer with stays | ⟨toState,evict⟩ | ⟨other,settled,ended⟩
      · exact ⟨after,there,stays⟩
      · have gone := spared _ _ _ toState evict (viable_of found wasKnown alive)
        rw [points_iff.mpr ⟨row,present,pointer⟩] at gone
        cases gone
      · rw [stored] at settled
        cases settled
        rw [active] at ended
        cases ended
    · rw [present] at none_
      cases none_
  rcases change_batch change stored with ⟨old,found,move⟩ | ⟨_,none_,_⟩
  · cases move with
    | kept same state => exact remains old found same (by rw [← state]; exact active)
    | begun same awaiting => exact remains old found same (by rw [awaiting]; rfl)
    | released release _ _ _ state =>
      rw [state] at active
      cases release <;> cases active
    | finalized _ _ _ state =>
      rw [state] at active
      cases active
    | prepared digest tx' ids' count nonce epoch call _ unset equal =>
      subst call
      obtain ⟨counted,tracking,_⟩ := prepared_effect change found unset stored (by rw [known]; rfl)
      subst equal
      cases inputs
      obtain ⟨_,_,_,length,given⟩ := allowed
      obtain ⟨row,present,pointer⟩ := prepared_points inv found (given old found).2 (counted.trans length) member
      exact ⟨row,by rw [tracking]; exact present,pointer⟩
  · rw [none_] at known
    cases known

theorem doomed_of_success {chain : Chain} {tx : DeleteTx} (committed : chain.log.get? tx = some .success) :
    chain.doomed tx = false := by
  unfold Chain.doomed
  rw [committed]

theorem change_done (inv : Inv s) (kept : Kept s) (allowed : Allowed s (.transact t)) (change : Change m s.db t db)
    {id : Uuid} {new : BatchRow} {ids : List BlobId} (stored : db.batches.get? id = some new)
    (completed : new.state = .completed) (inputs : new.inputBlobIds = some ids) {blobId : BlobId}
    (member : blobId ∈ ids) : db.outcomeOf (id,new.owner,blobId) = some .deleted := by
  rcases change_batch change stored with ⟨old,found,move⟩ | ⟨_,_,_,fresh⟩
  · cases move with
    | kept same state =>
      have gone := kept.done id old ids found (state.symm.trans completed) (same.inputBlobIds.symm.trans inputs)
        blobId member
      rw [same.owner]
      exact deleted_outcome_stays change gone
    | finalized call same executing =>
      subst call
      obtain ⟨tx,known,committed⟩ := allowed old found
      obtain ⟨row,present,pointer⟩ := kept.held id old tx ids found (by rw [executing]; rfl) known
        (same.inputBlobIds.symm.trans inputs) (doomed_of_success committed) blobId member
      rw [same.owner]
      exact (finalize_marks inv.consistent change ⟨rfl,found,executing,stored,completed,same⟩ present pointer).1
    | begun _ _ state =>
      rw [completed] at state
      cases state
    | released release _ _ _ state =>
      rw [completed] at state
      cases release <;> cases state
    | prepared _ _ _ _ _ _ _ awaiting _ equal =>
      subst equal
      rw [completed] at awaiting
      cases awaiting
  · rw [completed] at fresh
    cases fresh

theorem change_unreleased (inv : Inv s) (unreleased : Unreleased s) (change : Change m s.db t db)
    (later : Inv {s with db := db})
    (spared : ∀ id, t = .rollback id .failExecuting → s.inFlight id = false) : Unreleased {s with db := db} := by
  intro id new tx stored known sent alive
  rcases change_batch change stored with ⟨old,found,move⟩ | ⟨_,none_,_⟩
  · cases move with
    | kept same state =>
      rw [state]
      exact unreleased id old tx found (same.txBytes.symm.trans known) sent alive
    | begun _ _ state => exact .inl state
    | finalized _ _ _ state => exact .inr state
    | released release call same expected =>
      have wasKnown := same.txBytes.symm.trans known
      cases release with
      | cancelAwaiting => exact absurd expected (sent_begun inv found wasKnown sent)
      | failExecuting =>
        have idle := spared id call
        rw [inFlight_of found expected wasKnown sent alive] at idle
        cases idle
    | prepared _ _ _ _ _ _ _ _ unset =>
      exact absurd sent (prepared_unsent inv change later found unset stored known)
  · rw [none_] at known
    cases known

theorem sent_unreleased {c : Choice} {tx : DeleteTx} {signatures : List Bytes} (unreleased : Unreleased s)
    (delivered : c.delivered = true) (early : sendsLate s c (.send tx signatures) = false) :
    Unreleased {s with chain := {s.chain with sent := tx :: s.chain.sent}} := by
  intro id batch other found known sent alive
  have open_ : s.chain.doomed other = false := alive
  by_cases prior : other ∈ s.chain.sent
  · exact unreleased id batch other found known prior open_
  · rcases List.mem_cons.mp sent with rfl | earlier
    · by_contra stopped
      rw [not_or] at stopped
      have late : sendsLate s c (.send other signatures) = true := by
        simp only [sendsLate,delivered,open_,Bool.and_eq_true,List.any_eq_true,decide_eq_true_eq]
        exact ⟨⟨⟨trivial,prior⟩,rfl⟩,(id,batch),Store.get?_eq_some.mp found,known,stopped.1⟩
      rw [early] at late
      cases late
    · exact absurd earlier prior

theorem transact_kept {c : Choice} (inv : Inv s) (kept : Kept s) (allowed : Allowed s (.transact t))
    (spared : evictsViable s c (.transact t) = false) : Kept (s.transact c t).1 := by
  rcases transact_cases s c t with equal | ⟨db,equal,change,committed⟩
  · rw [equal]
    exact kept
  · rw [equal]
    refine ⟨?_,fun id new ids stored completed inputs blobId member =>
      change_done inv kept allowed change stored completed inputs member⟩
    intro id new tx ids stored active known inputs alive blobId member
    refine change_held inv kept allowed change ?_ stored active known inputs alive member
    intro owner blobId id toState call viable
    subst call
    simpa [evictsViable,committed,viable] using spared

theorem transact_unreleased {c : Choice} (inv : Inv s) (unreleased : Unreleased s) (allowed : Allowed s (.transact t))
    (spared : rollsBackInFlight s c (.transact t) = false) : Unreleased (s.transact c t).1 := by
  rcases transact_cases s c t with equal | ⟨db,equal,change,committed⟩
  · rw [equal]
    exact unreleased
  · rw [equal]
    refine change_unreleased inv unreleased change (transaction_inv inv allowed change) ?_
    intro id call
    subst call
    simpa [rollsBackInFlight,committed] using spared

theorem serve_kept {op : Op} {c : Choice} (inv : Inv s) (kept : Kept s) (allowed : Allowed s op)
    (spared : evictsViable s c op = false) : Kept (serve s op c).1 := by
  cases op with
  | transact t => exact transact_kept inv kept allowed spared
  | claimBatchRetry batchId delay => exact transact_kept inv kept trivial rfl
  | send tx signatures =>
    simp only [serve]
    split
    · exact ⟨kept.held,kept.done⟩
    · exact kept
  | _ => exact kept

theorem serve_unreleased {op : Op} {c : Choice} (inv : Inv s) (unreleased : Unreleased s) (allowed : Allowed s op)
    (spared : rollsBackInFlight s c op = false) (early : sendsLate s c op = false) : Unreleased (serve s op c).1 := by
  cases op with
  | transact t => exact transact_unreleased inv unreleased allowed spared
  | claimBatchRetry batchId delay => exact transact_unreleased inv unreleased trivial rfl
  | send tx signatures =>
    simp only [serve]
    split
    · rename_i delivered
      exact sent_unreleased unreleased delivered early
    · exact unreleased
  | _ => exact unreleased

-- The chain itself only takes possibilities away.
theorem chain_alive {event : ChainEvent} {chain : Chain} {tx : DeleteTx} (happened : s.chain.happen event = .ok chain)
    (alive : chain.doomed tx = false) : s.chain.doomed tx = false := by
  by_contra doomed
  rw [(happen_grows happened).doomed tx (Bool.eq_true_of_not_eq_false doomed)] at alive
  cases alive

theorem happen_kept {event : Outside} (inv : Inv s) (kept : Kept s) (happened : happen s event = .ok next) :
    Kept next := by
  rcases happen_moves happened with ⟨event,chain,moved,rfl⟩ | ⟨m,t,db,change,rfl,allowed,idle,_⟩
  · refine ⟨?_,kept.done⟩
    intro id batch tx ids found active known inputs alive
    exact kept.held id batch tx ids found active known inputs (chain_alive moved alive)
  · refine ⟨?_,fun id new ids stored completed inputs blobId member =>
      change_done inv kept allowed change stored completed inputs member⟩
    intro id new tx ids stored active known inputs alive blobId member
    refine change_held inv kept allowed change ?_ stored active known inputs alive member
    intro owner blobId id toState call
    exact absurd call (idle owner blobId id toState)

theorem happen_unreleased {event : Outside} (inv : Inv s) (unreleased : Unreleased s)
    (happened : happen s event = .ok next) : Unreleased next := by
  rcases happen_moves happened with ⟨event,chain,moved,rfl⟩ | ⟨m,t,db,change,rfl,allowed,_,idle⟩
  · intro id batch tx found known sent alive
    exact unreleased id batch tx found known (((happen_grows moved).sent tx).mp sent) (chain_alive moved alive)
  · refine change_unreleased inv unreleased change (transaction_inv inv allowed change) ?_
    intro id call
    exact absurd call (idle id .failExecuting)

end Steps

end MemWal.SecurityDelete
