import MemWal.SecurityDelete.Store

namespace MemWal.SecurityDelete
open Library Library.Fallible

inductive ExecutionError where
  | consensusObjectCongestion
  | moveAbort (module_ : String) (functionName : Option String) (code : Nat)
  | inputObjectDeleted
  | commandArgumentError
  | other
  deriving DecidableEq, Repr

inductive ExecutionStatus where
  | success
  | failure (error : ExecutionError) (command : Option Nat)
  deriving DecidableEq, Repr

structure ExecResult where
  digest : Digest
  status : ExecutionStatus
  deriving DecidableEq, Repr

def ExecResult.success (result : ExecResult) : Bool := result.status = .success

inductive FailureClass where
  | culpritInput (inputIndex : Nat)
  | sharedObjectCongestion
  | wholeTransaction (reason : String)
  | ambiguous
  deriving DecidableEq, Repr

def walrusVersionGuard (module_ : String) (functionName : Option String) (code : Nat) : Bool :=
  module_ = "system" && code = 1 && functionName.any (fun name => name = "inner" || name = "inner_mut")

def culprit : Option Nat → FailureClass
  | some command => .culpritInput (command + 1)
  | none => .ambiguous

def classifyExecutionFailure : ExecutionStatus → FailureClass
  | .success => .ambiguous
  | .failure .consensusObjectCongestion _ => .sharedObjectCongestion
  | .failure (.moveAbort module_ functionName code) command =>
    if walrusVersionGuard module_ functionName code then .wholeTransaction "walrus_package_upgraded"
    else culprit command
  | .failure .inputObjectDeleted command | .failure .commandArgumentError command => culprit command
  | .failure .other _ => .ambiguous

inductive SuiErr where
  | rateLimited | transport | sponsorFundsUnavailable | notFound | rejected
  deriving DecidableEq, Repr

structure ObjectInfo where
  objectId : ObjectId
  version : Nat
  digest : String
  owner : Option String
  blobId : Option BlobId
  endEpoch : Option Nat
  deriving DecidableEq, Repr

def sameOwner (raw : Option String) (canonicalOwner : Owner) : Bool :=
  raw.bind canonicalSuiAddress = some canonicalOwner

-- `end.is_at_or_before(epoch, margin)`, where the sum saturates at 2^64 - 1.
def isAtOrBefore (end_ epoch margin : Nat) : Bool := end_ ≤ min (epoch + margin) (2^64 - 1)

-- The chain keeps one revision of each object. Its version only grows, and an
-- object that is deleted or wrapped is a revision without content.
structure Revision where
  version : Nat
  live : Option ObjectInfo
  deriving DecidableEq, Repr

structure Chain where
  epoch : Nat
  walrusEpoch : Nat
  system : SharedObjectInfo
  retired : List String
  objects : Store ObjectId Revision
  sent : List DeleteTx
  log : Store DeleteTx ExecutionStatus
  deriving DecidableEq

def Chain.initial (system : SharedObjectInfo) : Chain := ⟨0,0,system,[],.empty,[],.empty⟩

def Chain.object (c : Chain) (id : ObjectId) : Option ObjectInfo := (c.objects.get? id).bind Revision.live

def Chain.status (c : Chain) (digest : Digest) : Option ExecResult :=
  (c.log.get? digest.preimage).map (fun status => ⟨digest,status⟩)

def Revision.matches_ (revision : Revision) (input : ObjectRef) : Bool :=
  revision.version = input.version && revision.live.any (fun info => info.digest = input.digest)

def Chain.spendable (c : Chain) (input : ObjectRef) : Bool :=
  (c.objects.get? input.objectId).any (fun revision => revision.matches_ input)

-- The object has moved past what the transaction refers to.
def Chain.lapsed (c : Chain) (input : ObjectRef) : Bool :=
  (c.objects.get? input.objectId).any (fun revision =>
    input.version < revision.version || (revision.version = input.version && !revision.matches_ input))

-- The transaction has not succeeded, and cannot succeed any more.
def Chain.doomed (c : Chain) (tx : DeleteTx) : Bool :=
  match c.log.get? tx with
  | some .success => false
  | some (.failure _ _) => true
  | none => tx.epoch < c.epoch || tx.package ∈ c.retired || tx.inputs.any c.lapsed

def Chain.spend (c : Chain) (inputs : List ObjectRef) : Chain :=
  {c with
    objects := inputs.foldl (fun objects input => objects.upsert input.objectId ⟨input.version + 1,none⟩) c.objects}

inductive ChainEvent where
  | commit (tx : DeleteTx) (status : ExecutionStatus)
  | advanceEpoch
  | advanceWalrusEpoch
  | upgrade (package : String)
  | revise (id : ObjectId) (revision : Revision)
  deriving DecidableEq

inductive ChainRefusal where
  | notSent | already | expired | invalid
  deriving DecidableEq, Repr

-- A transaction commits once. It succeeds only when every object it names is
-- the revision it names and its package is not superseded; then these objects,
-- and no others, are gone.
def Chain.happen (c : Chain) : ChainEvent → Except ChainRefusal Chain
  | .commit tx status => do
    ensure (tx ∈ c.sent) .notSent
    ensure (c.log.get? tx = none) .already
    ensure (c.epoch ≤ tx.epoch) .expired
    match status with
    | .success =>
      ensure (tx.package ∉ c.retired ∧ tx.inputs.all c.spendable) .invalid
      return {c.spend tx.inputs with log := c.log.insert tx .success}
    | .failure error command => return {c with log := c.log.insert tx (.failure error command)}
  | .advanceEpoch => return {c with epoch := c.epoch + 1}
  | .advanceWalrusEpoch => return {c with walrusEpoch := c.walrusEpoch + 1}
  | .upgrade package => do
    let id ← require (canonicalSuiAddress package) .invalid
    let current := c.system.packageId.bind canonicalSuiAddress
    ensure (id ∉ c.retired ∧ current ≠ some id) .invalid
    return {c with
      system := {c.system with packageId := some package}
      retired := current.toList ++ c.retired}
  | .revise id revision => do
    ensure (canonicalSuiAddress id = some id) .invalid
    ensure (∀ info, revision.live = some info → info.objectId = id ∧ info.version = revision.version) .invalid
    ensure (∀ prior, c.objects.get? id = some prior → prior.version < revision.version) .invalid
    return {c with objects := c.objects.upsert id revision}

-- How far a step of the chain can carry it. A transaction's fate, once settled,
-- stays settled.
structure Chain.Grows (c next : Chain) : Prop where
  log : ∀ tx status, c.log.get? tx = some status → next.log.get? tx = some status
  logged : ∀ tx status, next.log.get? tx = some status → c.log.get? tx = some status ∨
    (tx ∈ c.sent ∧ (status = .success → c.doomed tx = false))
  sent : ∀ tx, tx ∈ next.sent ↔ tx ∈ c.sent
  doomed : ∀ tx, c.doomed tx = true → next.doomed tx = true

-- Objects answer under the id they are asked for.
def Chain.Named (c : Chain) : Prop :=
  ∀ id revision info, c.objects.get? id = some revision → revision.live = some info → info.objectId = id

section Growth
variable {c next : Chain}

theorem Chain.spend_get (inputs : List ObjectRef) (id : ObjectId) :
    (c.spend inputs).objects.get? id = c.objects.get? id ∨
    ∃ input ∈ inputs, input.objectId = id ∧ (c.spend inputs).objects.get? id = some ⟨input.version + 1,none⟩ := by
  unfold Chain.spend
  dsimp only
  generalize c.objects = objects
  induction inputs generalizing objects with
  | nil => exact .inl rfl
  | cons input rest ih =>
    rw [List.foldl_cons]
    rcases ih (objects.upsert input.objectId ⟨input.version + 1,none⟩) with same | ⟨other,member,equal,found⟩
    · rw [same,Store.get?_upsert]
      by_cases here : id = input.objectId
      · rw [if_pos here]
        exact .inr ⟨input,List.mem_cons_self,here.symm,rfl⟩
      · rw [if_neg here]
        exact .inl rfl
    · exact .inr ⟨other,List.mem_cons_of_mem _ member,equal,found⟩

theorem lapsed_of_objects {input : ObjectRef}
    (moved : ∀ revision, c.objects.get? input.objectId = some revision → ∃ after,
      next.objects.get? input.objectId = some after ∧ (after = revision ∨ revision.version < after.version))
    (lapsed : c.lapsed input = true) : next.lapsed input = true := by
  unfold Chain.lapsed at lapsed ⊢
  rw [Option.any_eq_true] at lapsed
  obtain ⟨revision,found,past⟩ := lapsed
  obtain ⟨after,present,kept⟩ := moved revision found
  rw [present]
  rcases kept with same | newer
  · rw [same]
    exact past
  · simp only [Option.any_some,Bool.or_eq_true,decide_eq_true_eq,Bool.and_eq_true] at past ⊢
    left
    rcases past with lower | ⟨equal,_⟩ <;> omega

-- A step that leaves the log alone dooms what was doomed if its clock, packages
-- and objects only move forwards.
theorem doomed_of_forward {tx : DeleteTx} (epoch : c.epoch ≤ next.epoch) (retired : ∀ p ∈ c.retired, p ∈ next.retired)
    (objects : ∀ id revision, c.objects.get? id = some revision → ∃ after,
      next.objects.get? id = some after ∧ (after = revision ∨ revision.version < after.version))
    (unlogged : next.log.get? tx = c.log.get? tx) (doomed : c.doomed tx = true) : next.doomed tx = true := by
  unfold Chain.doomed at doomed ⊢
  rw [unlogged]
  split at doomed
  · cases doomed
  · rfl
  · simp only [Bool.or_eq_true,decide_eq_true_eq,List.any_eq_true] at doomed ⊢
    rcases doomed with (late | gone) | ⟨input,member,lapsed⟩
    · exact .inl (.inl (by omega))
    · exact .inl (.inr (retired _ gone))
    · exact .inr ⟨input,member,lapsed_of_objects (fun revision found => objects _ revision found) lapsed⟩

theorem not_doomed_of_executable {tx : DeleteTx} (open_ : c.log.get? tx = none) (epoch : c.epoch ≤ tx.epoch)
    (package : tx.package ∉ c.retired) (spendable : tx.inputs.all c.spendable = true) : c.doomed tx = false := by
  unfold Chain.doomed
  rw [open_]
  simp only [Bool.or_eq_false_iff,decide_eq_false_iff_not,List.any_eq_false]
  refine ⟨⟨by omega,package⟩,?_⟩
  intro input member lapsed
  have live := List.all_eq_true.mp spendable input member
  unfold Chain.spendable at live
  unfold Chain.lapsed at lapsed
  rw [Option.any_eq_true] at live lapsed
  obtain ⟨revision,found,matched⟩ := live
  obtain ⟨other,same,past⟩ := lapsed
  rw [found] at same
  cases same
  have version := matched
  simp only [Revision.matches_,Bool.and_eq_true,decide_eq_true_eq] at version
  simp only [matched,Bool.not_true,Bool.and_false,Bool.or_false,decide_eq_true_eq] at past
  omega

theorem commit_failure_grows {tx : DeleteTx} {error : ExecutionError} {command : Option Nat} (member : tx ∈ c.sent)
    (open_ : c.log.get? tx = none) : c.Grows {c with log := c.log.insert tx (.failure error command)} := by
  have lookup := fun j => Store.get?_insert (ExecutionStatus.failure error command) open_ j
  refine ⟨?_,?_,fun _ => Iff.rfl,?_⟩
  · intro other status found
    rw [lookup,if_neg (fun same => by rw [same,open_] at found; cases found)]
    exact found
  · intro other status found
    rw [lookup] at found
    split at found
    · rename_i same
      cases found
      exact .inr ⟨by rw [same]; exact member,fun wrong => by cases wrong⟩
    · exact .inl found
  · intro other doomed
    by_cases same : other = tx
    · unfold Chain.doomed
      rw [lookup,if_pos same]
    · exact doomed_of_forward (c:=c) (Nat.le_refl _) (fun _ m => m) (fun _ r found => ⟨r,found,.inl rfl⟩)
        ((lookup other).trans (if_neg same)) doomed

theorem commit_success_grows {tx : DeleteTx} (member : tx ∈ c.sent) (open_ : c.log.get? tx = none)
    (epoch : c.epoch ≤ tx.epoch) (package : tx.package ∉ c.retired) (spendable : tx.inputs.all c.spendable = true) :
    c.Grows {c.spend tx.inputs with log := c.log.insert tx .success} := by
  have lookup := fun j => Store.get?_insert ExecutionStatus.success open_ j
  have alive := not_doomed_of_executable open_ epoch package spendable
  refine ⟨?_,?_,fun _ => Iff.rfl,?_⟩
  · intro other status found
    rw [lookup,if_neg (fun same => by rw [same,open_] at found; cases found)]
    exact found
  · intro other status found
    rw [lookup] at found
    split at found
    · rename_i same
      cases found
      rw [same]
      exact .inr ⟨member,fun _ => alive⟩
    · exact .inl found
  · intro other doomed
    have differs : other ≠ tx := by
      intro same
      rw [same,alive] at doomed
      cases doomed
    refine doomed_of_forward (c:=c) (Nat.le_refl _) (fun _ m => m) ?_ ((lookup other).trans (if_neg differs)) doomed
    intro id revision found
    rcases Chain.spend_get (c:=c) tx.inputs id with same | ⟨input,among,here,after⟩
    · exact ⟨revision,same.trans found,.inl rfl⟩
    · refine ⟨_,after,.inr ?_⟩
      have live := List.all_eq_true.mp spendable input among
      unfold Chain.spendable at live
      rw [here,found] at live
      simp only [Option.any_some,Revision.matches_,Bool.and_eq_true,decide_eq_true_eq] at live
      dsimp only
      omega

theorem happen_grows {event : ChainEvent} (happened : c.happen event = .ok next) : c.Grows next := by
  have still : ∀ {next : Chain}, next.log = c.log → next.sent = c.sent → c.epoch ≤ next.epoch →
      (∀ p ∈ c.retired, p ∈ next.retired) →
      (∀ id revision, c.objects.get? id = some revision → ∃ after,
        next.objects.get? id = some after ∧ (after = revision ∨ revision.version < after.version)) →
      c.Grows next := by
    intro next log sent epoch retired objects
    refine ⟨fun _ _ found => by rw [log]; exact found,fun _ _ found => .inl (by rw [← log]; exact found),
      fun _ => by rw [sent],?_⟩
    exact fun tx doomed => doomed_of_forward epoch retired objects (by rw [log]) doomed
  cases event with
  | commit tx status =>
    simp only [Chain.happen,bind_ok,ensure_ok,exists_const] at happened
    obtain ⟨member,open_,epoch,happened⟩ := happened
    cases status with
    | success =>
      simp only [bind_ok,ensure_ok,exists_const,pure_ok] at happened
      obtain ⟨⟨package,spendable⟩,rfl⟩ := happened
      exact commit_success_grows member open_ epoch package spendable
    | failure error command =>
      cases happened
      exact commit_failure_grows member open_
  | advanceEpoch =>
    cases happened
    exact still rfl rfl (Nat.le_succ _) (fun _ m => m) (fun _ r found => ⟨r,found,.inl rfl⟩)
  | advanceWalrusEpoch =>
    cases happened
    exact still rfl rfl (Nat.le_refl _) (fun _ m => m) (fun _ r found => ⟨r,found,.inl rfl⟩)
  | upgrade package =>
    simp only [Chain.happen,bind_ok,require_ok,ensure_ok,exists_const,pure_ok] at happened
    obtain ⟨_,_,_,rfl⟩ := happened
    exact still rfl rfl (Nat.le_refl _) (fun _ m => List.mem_append_right _ m) (fun _ r found => ⟨r,found,.inl rfl⟩)
  | revise id revision =>
    simp only [Chain.happen,bind_ok,ensure_ok,exists_const,pure_ok] at happened
    obtain ⟨_,_,newer,rfl⟩ := happened
    refine still rfl rfl (Nat.le_refl _) (fun _ m => m) ?_
    intro j prior found
    by_cases same : j = id
    · subst same
      exact ⟨revision,by simp,.inr (newer prior found)⟩
    · exact ⟨prior,by simp [same,found],.inl rfl⟩

theorem happen_named {event : ChainEvent} (happened : c.happen event = .ok next) (named : c.Named) : next.Named := by
  cases event with
  | commit tx status =>
    simp only [Chain.happen,bind_ok,ensure_ok,exists_const] at happened
    obtain ⟨_,_,_,happened⟩ := happened
    cases status with
    | success =>
      simp only [bind_ok,ensure_ok,exists_const,pure_ok] at happened
      obtain ⟨_,rfl⟩ := happened
      intro id revision info found live
      rcases Chain.spend_get (c:=c) tx.inputs id with same | ⟨_,_,_,after⟩
      · exact named id revision info (same.symm.trans found) live
      · have gone := after.symm.trans found
        cases gone
        cases live
    | failure error command =>
      cases happened
      exact named
  | advanceEpoch | advanceWalrusEpoch =>
    cases happened
    exact named
  | upgrade package =>
    simp only [Chain.happen,bind_ok,require_ok,ensure_ok,exists_const,pure_ok] at happened
    obtain ⟨_,_,_,rfl⟩ := happened
    exact named
  | revise id revision =>
    simp only [Chain.happen,bind_ok,ensure_ok,exists_const,pure_ok] at happened
    obtain ⟨_,proper,_,rfl⟩ := happened
    intro j other info found live
    simp only [Store.get?_upsert] at found
    split at found
    · rename_i same
      cases found
      rw [same]
      exact (proper info live).1
    · exact named j other info found live

end Growth
end MemWal.SecurityDelete
