import MemWal.SecurityDelete.Replicas

namespace MemWal.SecurityDelete
open Library Library.Fallible Library.Runs

section Acts
variable {w next : Replicas} {act : Act}

theorem exec_kept (sound : w.Sound setting discipline) (kept : Kept w.shared) (careful : strips w act = false)
    (ran : w.exec act = .ok next) : Kept next.shared := by
  cases Pool.exec_effect sound ran with
  | served worker op choice served allowed shared =>
    rw [strips,served,Option.any_some] at careful
    rw [shared]
    exact serve_kept sound.inv kept allowed careful
  | happened event happened => exact happen_kept sound.inv kept happened
  | unmoved _ shared =>
    rw [shared]
    exact kept

theorem exec_unreleased (sound : w.Sound setting discipline) (unreleased : Unreleased w.shared)
    (careful : releases w act = false) (ran : w.exec act = .ok next) : Unreleased next.shared := by
  cases Pool.exec_effect sound ran with
  | served worker op choice served allowed shared =>
    rw [releases,served,Option.any_some,Bool.or_eq_false_iff] at careful
    rw [shared]
    exact serve_unreleased sound.inv unreleased allowed careful.1 careful.2
  | happened event happened => exact happen_unreleased sound.inv unreleased happened
  | unmoved _ shared =>
    rw [shared]
    exact unreleased

end Acts

-- The batch neither holds the blob nor has deleted it.
structure Barred (s : System) (id : Uuid) (key : Owner × BlobId) : Prop where
  exists_ : (s.db.batches.get? id).isSome
  free : ¬Points s id key
  undeleted : s.db.outcomeOf (id,key) ≠ some .deleted

theorem serve_change (s : System) (op : Op) (c : Choice) :
    (serve s op c).1.db = s.db ∨ ∃ m t, Change m s.db t (serve s op c).1.db := by
  have transacted : ∀ t, (s.transact c t).1.db = s.db ∨ ∃ m t', Change m s.db t' (s.transact c t).1.db := by
    intro t
    rcases transact_cases s c t with equal | ⟨db,equal,change,_⟩
    · exact .inl (by rw [equal])
    · exact .inr ⟨c.m,t,by rw [equal]; exact change⟩
  cases op with
  | transact t => exact transacted t
  | claimBatchRetry batchId delay => exact transacted _
  | send tx signatures =>
    simp only [serve]
    split <;> exact .inl rfl
  | _ => exact .inl rfl

section Barring
variable {w next : Replicas} {act : Act} {id : Uuid} {key : Owner × BlobId}

theorem exec_change (sound : w.Sound setting discipline) (ran : w.exec act = .ok next) :
    next.shared.db = w.shared.db ∨ ∃ m t, Change m w.shared.db t next.shared.db := by
  cases Pool.exec_effect sound ran with
  | served worker op choice _ _ shared =>
    rw [shared]
    exact serve_change w.shared op choice
  | happened event happened =>
    rcases happen_moves happened with ⟨_,_,_,equal⟩ | ⟨m,t,db,change,equal,_⟩
    · exact .inl (by rw [equal])
    · exact .inr ⟨m,t,by rw [equal]; exact change⟩
  | unmoved _ shared => exact .inl (by rw [shared])

theorem exec_barred (sound : w.Sound setting discipline) (barred : Barred w.shared id key)
    (ran : w.exec act = .ok next) : Barred next.shared id key := by
  have since := (exec_sound sound ran).2
  obtain ⟨batch,found⟩ := Option.isSome_iff_exists.mp barred.exists_
  obtain ⟨new,stored,_⟩ := since.batches id batch found
  refine ⟨by rw [stored]; rfl,?_,?_⟩
  · intro ⟨row,present,pointer⟩
    exact barred.free (since.claims id batch found key row present pointer)
  · intro gone
    rcases exec_change sound ran with same | ⟨m,t,change⟩
    · rw [same] at gone
      exact barred.undeleted gone
    · rcases outcome_of_change sound.inv.consistent change gone with prior | ⟨row,_,_,_,present,pointer⟩
      · exact barred.undeleted prior
      · exact barred.free ⟨row,present,pointer⟩

theorem state_barred {system : SharedObjectInfo} {acts : List Act} {i j : Nat} (order : i ≤ j)
    (barred : Barred (state system acts i) id key) : Barred (state system acts j) id key := by
  refine kept_between (P:=fun w : Replicas => Barred w.shared id key) order barred ?_
  intro k act next _ _ _ barred ran
  exact exec_barred (run_sound system acts k) barred ran

end Barring

-- One owner with one blob

def exposedOwner : Owner := "0x0000000000000000000000000000000000000000000000000000000000000001"

def exposedObject : ObjectId := "0x0000000000000000000000000000000000000000000000000000000000000005"

def exposedTx : DeleteTx where
  sender := exposedOwner
  sponsor := "0x0000000000000000000000000000000000000000000000000000000000000003"
  package := "0x0000000000000000000000000000000000000000000000000000000000000002"
  system := ⟨"0x0000000000000000000000000000000000000000000000000000000000000006",1,true,none⟩
  inputs := [⟨exposedObject,1,"d"⟩]
  gasPrice := 0
  gasBudget := 12000000
  epoch := 0
  chain := []
  nonce := 0

def walrusSystem : SharedObjectInfo := ⟨"0x6",1,true,some "0x2"⟩

def exampleConfig : Config := ⟨512,3,0,"0x2",some ⟨some "0x3",fun _ => some []⟩,true⟩

def steps (worker count : Nat) : List Act := List.replicate count (.step worker {})

def exposedCommits : Act := .outside (.chain (.commit exposedTx .success))

-- The blob is tracked, prepared and submitted; the request reaches the chain,
-- and its answer is still to come.
def submittedRun : List Act :=
  [.outside (.trackDeletable ⟨1,[]⟩ "0x1" "b" 0),
    .outside (.chain (.revise exposedObject ⟨1,some ⟨exposedObject,1,"d",some "0x1",some "b",none⟩⟩)),
    .outside (.setObjectIds ⟨2,[]⟩ exposedOwner [("b",exposedObject)]),
    .spawn 0 (.prepare exampleConfig 1 exposedOwner ⟨"all",none⟩)] ++ steps 0 20 ++
  [.spawn 1 (.submit exampleConfig exposedOwner 0 "signature")] ++ steps 1 6

-- A tick finds the batch stuck and its transaction not on chain, claims the
-- retry, and then the transaction commits.
def retriedRun : List Act :=
  [.spawn 2 (.tick ⟨0,0,1,0,none,0⟩),.step 2 {m := ⟨9,[]⟩}] ++ steps 2 2 ++ [.step 2 {m := ⟨9,[]⟩}] ++ steps 2 1 ++
  [exposedCommits]

-- The answer is lost, the transaction commits, and a tick finds it on chain.
def reconciledRun : List Act :=
  submittedRun ++ [.step 1 {error := some .transport},exposedCommits,.spawn 2 (.tick ⟨0,0,1,0,none,0⟩),
    .step 2 {m := ⟨9,[]⟩}] ++ steps 2 2

theorem reconciledRun_careful (i : Nat) (act : Act) (at_ : reconciledRun[i]? = some act) :
    strips (before Replicas.exec (.initial walrusSystem) reconciledRun i) act = false ∧
    releases (before Replicas.exec (.initial walrusSystem) reconciledRun i) act = false := by
  have checked : always Replicas.exec (fun w act => !strips w act && !releases w act) (.initial walrusSystem)
      reconciledRun = true := by decide +kernel
  simpa using before_of_always checked i act at_

section Results
variable {system : SharedObjectInfo} {acts : List Act}

theorem state_kept (careful : ∀ i act, acts[i]? = some act →
      strips (before Replicas.exec (.initial system) acts i) act = false) (i : Nat) : Kept (state system acts i) := by
  refine kept_between (P:=fun w : Replicas => Kept w.shared) (Nat.zero_le i) ⟨?_,?_⟩ ?_
  · intro id batch tx ids found
    cases found
  · intro id batch ids found
    cases found
  · intro k act next _ _ at_ kept ran
    exact exec_kept (run_sound system acts k) kept (careful k act at_) ran

theorem state_unreleased (careful : ∀ i act, acts[i]? = some act →
      releases (before Replicas.exec (.initial system) acts i) act = false) (i : Nat) :
    Unreleased (state system acts i) := by
  refine kept_between (P:=fun w : Replicas => Unreleased w.shared) (Nat.zero_le i) ?_ ?_
  · intro id batch tx found
    cases found
  · intro k act next _ _ at_ unreleased ran
    exact exec_unreleased (run_sound system acts k) unreleased (careful k act at_) ran

-- What the database and the chain say about the blobs that are deleted.
structure CompletionSound (s : System) : Prop where
  batches : ∀ id batch, s.db.batches.get? id = some batch → batch.state = .completed → ∃ tx ids,
    batch.txBytes = some tx ∧ batch.digest = some tx.digest ∧ s.chain.log.get? tx = some .success ∧
    batch.inputBlobIds = some ids ∧ Names s.db batch.owner ids tx ∧
    ∀ key, s.db.outcomeOf (id,key) = some .deleted ↔ key.1 = batch.owner ∧ key.2 ∈ ids
  rows : ∀ key row, s.db.tracking.get? key = some row → row.state = .deleted →
    ∃ id, s.db.outcomeOf (id,key) = some .deleted
  members : ∀ id key, s.db.outcomeOf (id,key) = some .deleted → ∃ batch row, s.db.batches.get? id = some batch ∧
    batch.state = .completed ∧ s.db.tracking.get? key = some row ∧ row.state = .deleted

theorem completion_sound {s : System} (inv : Inv s) (kept : Kept s) : CompletionSound s := by
  refine ⟨?_,inv.rows,?_⟩
  · intro id batch found completed
    obtain ⟨tx,known,committed⟩ := inv.completed id batch found completed
    have recorded := inv.recorded id batch tx found known
    obtain ⟨ids,inputs,names,_⟩ := recorded.inputs
    refine ⟨tx,ids,known,recorded.digest,committed,inputs,names,?_⟩
    intro key
    constructor
    · intro gone
      obtain ⟨other,listed,_,present,_,same,owner,member,_⟩ := inv.deleted id key gone
      rw [found] at present
      cases present
      rw [inputs] at same
      cases same
      exact ⟨owner,member⟩
    · intro ⟨owner,member⟩
      have gone := kept.done id batch ids found completed inputs key.2 member
      rw [← owner] at gone
      exact gone
  · intro id key gone
    obtain ⟨batch,_,row,found,completed,_,_,_,present,state⟩ := inv.deleted id key gone
    exact ⟨batch,row,found,completed,present,state⟩

-- In every run that strips no transaction of its rows while it can succeed,
-- what is deleted is what committed transactions name. A blob that a batch does
-- not hold, and has not deleted, it will not delete.
theorem completed_deletions_match (careful : ∀ i act, acts[i]? = some act →
      strips (before Replicas.exec (.initial system) acts i) act = false) (j : Nat) :
    CompletionSound (state system acts j) ∧
    ∀ i, i ≤ j → ∀ id key, ((state system acts i).db.batches.get? id).isSome → ¬Points (state system acts i) id key →
      (state system acts i).db.outcomeOf (id,key) ≠ some .deleted →
      (state system acts j).db.outcomeOf (id,key) ≠ some .deleted := by
  refine ⟨completion_sound (state_inv system acts j) (state_kept careful j),?_⟩
  intro i order id key exists_ free undeleted
  exact (state_barred order ⟨exists_,free,undeleted⟩).undeleted

theorem reconciled_deletion_matches :
    CompletionSound (state walrusSystem reconciledRun 37) ∧
    ((state walrusSystem reconciledRun 37).db.batches.get? 0).map BatchRow.state = some .completed := by
  refine ⟨(completed_deletions_match (fun i act at_ => (reconciledRun_careful i act at_).1) 37).1,?_⟩
  decide +kernel

-- The tick takes the input it finds gone for deleted by someone else; before it
-- fails the batch, the answer of the submit arrives and completes it.
def answeredRun : List Act := submittedRun ++ retriedRun ++ steps 2 2 ++ steps 1 2

theorem completed_without_its_input :
    ((state walrusSystem answeredRun 42).db.batches.get? 0).map (fun batch => (batch.state,batch.txBytes,
      batch.inputBlobIds)) = some (.completed,some exposedTx,some ["b"]) ∧
    (state walrusSystem answeredRun 42).chain.log.get? exposedTx = some .success ∧
    ((state walrusSystem answeredRun 42).db.tracking.get? (exposedOwner,"b")).map TrackingRow.state =
      some .deletedExternal ∧
    (state walrusSystem answeredRun 42).db.outcomeOf (0,exposedOwner,"b") = some .deletedExternal := by
  decide +kernel

theorem open_members_named {s : System} {id : Uuid} {batch : BatchRow} {tx : DeleteTx} {ids : List BlobId}
    (inv : Inv s) (found : s.db.batches.get? id = some batch) (known : batch.txBytes = some tx)
    (inputs : batch.inputBlobIds = some ids) {key : Owner × BlobId}
    (open_ : s.db.outcomeOf (id,key) = some .claimed) : key.1 = batch.owner ∧ key.2 ∈ ids := by
  obtain ⟨member,present,claimed⟩ := outcomeOf_some.mp open_
  obtain ⟨row,held,pointer⟩ := (inv.consistent.lineage id key.1 key.2).mpr ⟨member,present,claimed⟩
  obtain ⟨other,same,owner,_⟩ := inv.consistent.owned key row id held pointer
  rw [found] at same
  cases same
  obtain ⟨listed,stored,_,pointed⟩ := (inv.recorded id batch tx found known).inputs
  rw [inputs] at stored
  cases stored
  exact ⟨owner.symm,pointed key row held pointer⟩

-- In every run that neither strips nor releases a batch while its transaction
-- can succeed, a batch whose transaction has committed still waits for the news
-- or is completed, and so with the rows and members its transaction names.
-- Members open at any time since the transaction was stored are among them.
theorem committed_deletions_never_released (careful : ∀ i act, acts[i]? = some act →
      strips (before Replicas.exec (.initial system) acts i) act = false ∧
      releases (before Replicas.exec (.initial system) acts i) act = false)
    {j : Nat} {id : Uuid} {batch : BatchRow} {tx : DeleteTx}
    (found : (state system acts j).db.batches.get? id = some batch) (known : batch.txBytes = some tx)
    (committed : (state system acts j).chain.log.get? tx = some .success) :
    (batch.state = .executing ∨ batch.state = .completed) ∧ ∃ ids, batch.inputBlobIds = some ids ∧
    Names (state system acts j).db batch.owner ids tx ∧
    (∀ blobId ∈ ids, ∃ row, (state system acts j).db.tracking.get? (batch.owner,blobId) = some row ∧
      ((row.state = .deleting ∧ (state system acts j).db.outcomeOf (id,batch.owner,blobId) = some .claimed) ∨
      (row.state = .deleted ∧ (state system acts j).db.outcomeOf (id,batch.owner,blobId) = some .deleted))) ∧
    ∀ i, i ≤ j → Holds (state system acts i) id tx → ∀ key,
      (state system acts i).db.outcomeOf (id,key) = some .claimed → key.1 = batch.owner ∧ key.2 ∈ ids := by
  have inv := state_inv system acts j
  have kept := state_kept (fun i act at_ => (careful i act at_).1) j
  have alive := doomed_of_success committed
  have sent := inv.logged tx .success committed
  have active := state_unreleased (fun i act at_ => (careful i act at_).2) j id batch tx found known sent alive
  obtain ⟨ids,inputs,names,_⟩ := (inv.recorded id batch tx found known).inputs
  refine ⟨active,ids,inputs,names,?_,?_⟩
  · intro blobId member
    rcases active with executing | completed
    · obtain ⟨row,present,pointer⟩ := kept.held id batch tx ids found (by rw [executing]; rfl) known inputs alive blobId
        member
      obtain ⟨ledger,stored,claimed⟩ := (inv.consistent.lineage id batch.owner blobId).mp ⟨row,present,pointer⟩
      exact ⟨row,present,.inl ⟨claimed_by_state inv.consistent present pointer,outcomeOf_some.mpr ⟨ledger,stored,claimed⟩⟩⟩
    · have gone := kept.done id batch ids found completed inputs blobId member
      obtain ⟨_,_,row,_,_,_,_,_,present,state⟩ := inv.deleted id (batch.owner,blobId) gone
      exact ⟨row,present,.inr ⟨state,gone⟩⟩
  · intro i order ⟨old,earlier,stored⟩ key open_
    obtain ⟨new,later,extends_⟩ := (state_later system acts order).batches id old earlier
    rw [found] at later
    cases later
    have same := (extends_.tx tx stored).2
    rw [extends_.owner]
    exact open_members_named (state_inv system acts i) earlier stored (same.symm.trans inputs) open_

theorem reconciled_deletion_not_released :
    ∃ batch, (state walrusSystem reconciledRun 37).db.batches.get? 0 = some batch ∧
      (state walrusSystem reconciledRun 37).chain.log.get? exposedTx = some .success ∧
      (batch.state = .executing ∨ batch.state = .completed) := by
  have facts : ((state walrusSystem reconciledRun 37).db.batches.get? 0).bind BatchRow.txBytes = some exposedTx ∧
      (state walrusSystem reconciledRun 37).chain.log.get? exposedTx = some .success := by decide +kernel
  obtain ⟨batch,found,known⟩ := Option.bind_eq_some_iff.mp facts.1
  exact ⟨batch,found,facts.2,(committed_deletions_never_released reconciledRun_careful found known facts.2).1⟩

-- The answer is lost. The tick takes the input it finds gone for deleted by
-- someone else, and fails the batch.
def unansweredRun : List Act :=
  submittedRun ++ [.step 1 {error := some .transport}] ++ retriedRun ++ steps 2 3

theorem retry_releases_committed_deletion :
    ((state walrusSystem unansweredRun 42).db.batches.get? 0).map (fun batch => (batch.state,batch.txBytes)) =
      some (.failed,some exposedTx) ∧
    (state walrusSystem unansweredRun 42).chain.log.get? exposedTx = some .success ∧
    (state walrusSystem unansweredRun 42).db.outcomeOf (0,exposedOwner,"b") = some .deletedExternal := by
  decide +kernel

end Results
end MemWal.SecurityDelete
