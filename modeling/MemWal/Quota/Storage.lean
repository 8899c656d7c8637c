import MemWal.Library.Fallible
import MemWal.Library.Runs
import MemWal.Library.Store
import Mathlib.Algebra.Order.BigOperators.Group.List
import Mathlib.Algebra.Order.Ring.Nat

namespace MemWal.Quota
open Library Library.Fallible Library.Runs

abbrev Owner := String
abbrev JobId := Nat
abbrev Checker := Nat

-- FNV-1 over the bytes, folded to 32 bits.
def stableHashI64 (s : String) : Int :=
  let hash : UInt64 := s.toUTF8.data.toList.foldl (fun acc b => acc * 1099511628211 ^^^ b.toUInt64) 14695981039346656037
  ((hash >>> 32) ^^^ (hash &&& 0xFFFFFFFF)).toNat

structure VectorRow where
  owner : Owner
  blobSizeBytes : Nat
  deriving DecidableEq, Repr

abbrev Vectors := Store JobId VectorRow

def storageUsed (vectors : Vectors) (owner : Owner) : Nat :=
  vectors.total (fun _ row => if row.owner = owner then row.blobSizeBytes else 0)

inductive AppError where
  | quotaExceeded (used max : Nat)
  deriving DecidableEq, Repr

-- `check_storage_quota` once it knows the total. Zero or negative is unlimited.
def checkStorageQuota (maxBytes : Int) (used additional : Nat) : Except AppError Unit :=
  if maxBytes ≤ 0 then .ok ()
  else if (used : Int) + additional > maxBytes then .error (.quotaExceeded used maxBytes.toNat)
  else .ok ()

-- What a preparation is about to store: one ciphertext for a single remember,
-- one for each item of a bulk and for each analyzed fact.
structure WriteRequest where
  owner : Owner
  encrypted : List (JobId × Nat)
  deriving DecidableEq, Repr

def WriteRequest.totalBytes (request : WriteRequest) : Nat := (request.encrypted.map Prod.snd).sum

def WriteRequest.rows (request : WriteRequest) : List (JobId × VectorRow) :=
  request.encrypted.map (fun part => (part.1,⟨request.owner,part.2⟩))

-- `get_storage_used_with_lock` is a transaction: it waits for the owner's lock,
-- reads the total, and gives the lock back when it commits.
inductive Phase where
  | locked
  | read (used : Nat)
  | committed (used : Nat)
  deriving DecidableEq, Repr

def Phase.holds : Phase → Bool
  | .locked | .read _ => true
  | .committed _ => false

structure Check where
  request : WriteRequest
  phase : Phase
  deriving DecidableEq, Repr

-- `writes` are the rows of accepted requests whose upload jobs are not over.
structure World where
  vectors : Vectors
  checks : Store Checker Check
  writes : Store JobId VectorRow
  deriving DecidableEq

def World.lockHeld (w : World) (key : Int) : Bool :=
  w.checks.entries.any (fun e => e.2.phase.holds && stableHashI64 e.2.request.owner = key)

inductive Call where
  | lock (checker : Checker) (request : WriteRequest)
  | sum (checker : Checker)
  | commit (checker : Checker)
  | decide (checker : Checker)
  | insertVector (job : JobId)
  | settle (job : JobId)
  | crash (checker : Checker)
  deriving DecidableEq, Repr

inductive Refused where
  | checkerBusy
  | lockHeld
  | noSuchStep
  | quotaExceeded (error : AppError)
  | jobIdTaken
  deriving DecidableEq, Repr

-- Job ids are fresh UUIDs.
def World.freshJobs (w : World) (request : WriteRequest) : Prop :=
  (request.encrypted.map Prod.fst).Nodup ∧
    ∀ part ∈ request.encrypted, w.writes.get? part.1 = none ∧ w.vectors.get? part.1 = none

instance (w : World) (request : WriteRequest) : Decidable (w.freshJobs request) := by
  unfold World.freshJobs
  infer_instance

def World.exec (maxBytes : Int) (w : World) : Call → Except Refused World
  | .lock checker request =>
    match w.checks.get? checker with
    | some _ => .error .checkerBusy
    | none =>
      if w.lockHeld (stableHashI64 request.owner) then .error .lockHeld
      else .ok {w with checks := w.checks.insert checker ⟨request,.locked⟩}
  | .sum checker =>
    match w.checks.get? checker with
    | some ⟨request,.locked⟩ =>
      .ok {w with checks := w.checks.put checker ⟨request,.read (storageUsed w.vectors request.owner)⟩}
    | _ => .error .noSuchStep
  | .commit checker =>
    match w.checks.get? checker with
    | some ⟨request,.read used⟩ => .ok {w with checks := w.checks.put checker ⟨request,.committed used⟩}
    | _ => .error .noSuchStep
  -- The check returns; an accepted request hands its ciphertexts to the upload
  -- jobs, a refused one stops.
  | .decide checker =>
    match w.checks.get? checker with
    | some ⟨request,.committed used⟩ =>
      match checkStorageQuota maxBytes used request.totalBytes with
      | .error _ => .ok {w with checks := w.checks.erase checker}
      | .ok () =>
        if w.freshJobs request then
          .ok {w with checks := w.checks.erase checker, writes := w.writes.insertAll request.rows}
        else .error .jobIdTaken
    | _ => .error .noSuchStep
  -- `INSERT ... ON CONFLICT (id) DO UPDATE`, as often as the job is delivered.
  | .insertVector job =>
    match w.writes.get? job with
    | some row => .ok {w with vectors := w.vectors.upsert job row}
    | none => .error .noSuchStep
  -- The job is acknowledged, aborted or lost: it stores nothing more.
  | .settle job => .ok {w with writes := w.writes.erase job}
  | .crash checker => .ok {w with checks := w.checks.erase checker}

-- Bytes accepted for the owner that no row has yet.
def World.outstanding (w : World) (owner : Owner) : Nat :=
  w.writes.total (fun job row => if row.owner = owner ∧ w.vectors.get? job = none then row.blobSizeBytes else 0)

-- The check that is about to pass would pass as well if it had counted, beside
-- the rows, what was accepted before and is not stored yet.
def World.Counted (maxBytes : Int) (w : World) (owner : Owner) (call : Call) : Prop :=
  ∀ checker request used, call = .decide checker → w.checks.get? checker = some ⟨request,.committed used⟩ →
    request.owner = owner → checkStorageQuota maxBytes used request.totalBytes = .ok () →
    (storageUsed w.vectors owner + w.outstanding owner + request.totalBytes : Int) ≤ maxBytes

instance (maxBytes : Int) (w : World) (owner : Owner) (call : Call) : Decidable (w.Counted maxBytes owner call) :=
  match call with
  | .decide checker =>
    match found : w.checks.get? checker with
    | some ⟨request,.committed used⟩ =>
      decidable_of_iff (request.owner = owner → checkStorageQuota maxBytes used request.totalBytes = .ok () →
        (storageUsed w.vectors owner + w.outstanding owner + request.totalBytes : Int) ≤ maxBytes)
        ⟨by rintro held c r u ⟨⟩ there; rw [found] at there; cases there; exact held,
          fun held => held checker request used rfl found⟩
    | some ⟨_,.locked⟩ | some ⟨_,.read _⟩ | none => isTrue (by rintro c r u ⟨⟩ there; rw [found] at there; cases there)
  | .lock _ _ | .sum _ | .commit _ | .insertVector _ | .settle _ | .crash _ => isTrue (by rintro c r u ⟨⟩)

structure Inv (maxBytes : Int) (owner : Owner) (w : World) : Prop where
  bounded : (storageUsed w.vectors owner + w.outstanding owner : Int) ≤ maxBytes
  agreed : ∀ job row stored, w.writes.get? job = some row → w.vectors.get? job = some stored → stored = row

section Steps
variable {maxBytes : Int} {owner : Owner} {w next : World}

theorem Inv.same (inv : Inv maxBytes owner w) (vectors : next.vectors = w.vectors) (writes : next.writes = w.writes) :
    Inv maxBytes owner next := by
  refine ⟨?_,by rw [vectors,writes]; exact inv.agreed⟩
  unfold World.outstanding
  rw [vectors,writes]
  exact inv.bounded

theorem rows_sum (request : WriteRequest) (vectors : Vectors) (owner : Owner) :
    (request.rows.map (fun row =>
      if row.2.owner = owner ∧ vectors.get? row.1 = none then row.2.blobSizeBytes else 0)).sum ≤
      if request.owner = owner then request.totalBytes else 0 := by
  unfold WriteRequest.rows WriteRequest.totalBytes
  rw [List.map_map]
  by_cases mine : request.owner = owner
  · rw [if_pos mine]
    refine List.sum_le_sum ?_
    intro part _
    simp only [Function.comp_apply]
    split
    · exact le_rfl
    · exact Nat.zero_le _
  · simp [mine,Function.comp_def]

theorem accept_inv {checker : Checker} {request : WriteRequest} {used : Nat} (inv : Inv maxBytes owner w)
    (found : w.checks.get? checker = some ⟨request,.committed used⟩)
    (passed : checkStorageQuota maxBytes used request.totalBytes = .ok ()) (fresh : w.freshJobs request)
    (counted : w.Counted maxBytes owner (.decide checker)) :
    Inv maxBytes owner {w with checks := w.checks.erase checker, writes := w.writes.insertAll request.rows} := by
  have keys : request.rows.map Prod.fst = request.encrypted.map Prod.fst := by
    simp [WriteRequest.rows,Function.comp_def]
  have unused : ∀ row ∈ request.rows, w.writes.get? row.1 = none ∧ w.vectors.get? row.1 = none := by
    intro row member
    obtain ⟨part,present,rfl⟩ := List.mem_map.mp member
    exact fresh.2 part present
  have distinct : (request.rows.map Prod.fst).Nodup := by
    rw [keys]
    exact fresh.1
  refine ⟨?_,?_⟩
  · have grown := Store.total_insertAll distinct (fun row member => (unused row member).1)
      (fun job row => if row.owner = owner ∧ w.vectors.get? job = none then row.blobSizeBytes else 0)
    have share := rows_sum request w.vectors owner
    have before := inv.bounded
    unfold World.outstanding at before ⊢
    simp only
    rw [grown]
    by_cases mine : request.owner = owner
    · have whole := counted checker request used rfl found mine passed
      unfold World.outstanding at whole
      rw [if_pos mine] at share
      omega
    · rw [if_neg mine] at share
      omega
  · intro job row stored present kept
    rcases (Store.get?_insertAll distinct (fun row member => (unused row member).1)).mp present with old | new
    · exact inv.agreed job row stored old kept
    · rw [(unused (job,row) new).2] at kept
      cases kept

theorem insert_inv {job : JobId} {row : VectorRow} (inv : Inv maxBytes owner w) (found : w.writes.get? job = some row) :
    Inv maxBytes owner {w with vectors := w.vectors.upsert job row} := by
  cases present : w.vectors.get? job with
  | some stored =>
    have same := inv.agreed job row stored found present
    subst same
    refine inv.same ?_ rfl
    simp [Store.upsert,present,Store.put_same present]
  | none =>
    have inserted : w.vectors.upsert job row = w.vectors.insert job row := by simp [Store.upsert,present]
    refine ⟨?_,?_⟩
    · -- The bytes move from the outstanding ones to the stored ones.
      have others : (w.writes.erase job).total
          (fun j other => if other.owner = owner ∧ (w.vectors.insert job row).get? j = none then other.blobSizeBytes else 0) =
          (w.writes.erase job).total
          (fun j other => if other.owner = owner ∧ w.vectors.get? j = none then other.blobSizeBytes else 0) := by
        refine Store.total_congr ?_
        intro j other kept
        rw [Store.get?_erase] at kept
        split at kept
        · cases kept
        · rename_i differs
          rw [Store.get?_insert row present,if_neg differs]
      have before := Store.total_erase found
        (fun j other => if other.owner = owner ∧ w.vectors.get? j = none then other.blobSizeBytes else 0)
      have after := Store.total_erase found
        (fun j other => if other.owner = owner ∧ (w.vectors.insert job row).get? j = none then other.blobSizeBytes else 0)
      have stored := Store.total_insert row present (fun _ row => if row.owner = owner then row.blobSizeBytes else 0)
      have taken : (w.vectors.insert job row).get? job = some row := by
        rw [Store.get?_insert row present,if_pos rfl]
      have bound := inv.bounded
      simp only [present,and_true] at before
      simp only [taken,reduceCtorEq,and_false,if_false] at after
      unfold storageUsed World.outstanding at bound ⊢
      dsimp only
      rw [inserted,stored]
      omega
    · intro j other stored kept there
      simp only [Store.get?_upsert] at there
      split at there
      · rename_i same
        subst same
        cases there
        rw [found] at kept
        cases kept
        rfl
      · exact inv.agreed j other stored kept there

theorem settle_inv (inv : Inv maxBytes owner w) (job : JobId) :
    Inv maxBytes owner {w with writes := w.writes.erase job} := by
  have agreed : ∀ j row stored, (w.writes.erase job).get? j = some row → w.vectors.get? j = some stored →
      stored = row := by
    intro j row stored kept
    rw [Store.get?_erase] at kept
    split at kept
    · cases kept
    · exact inv.agreed j row stored kept
  refine ⟨?_,agreed⟩
  cases found : w.writes.get? job with
  | none =>
    have same : w.writes.erase job = w.writes := Store.erase_absent found
    rw [same]
    exact inv.bounded
  | some row =>
    have before := Store.total_erase found
      (fun j other => if other.owner = owner ∧ w.vectors.get? j = none then other.blobSizeBytes else 0)
    have bound := inv.bounded
    unfold World.outstanding at bound ⊢
    dsimp only
    omega

theorem exec_inv {call : Call} (inv : Inv maxBytes owner w) (counted : w.Counted maxBytes owner call)
    (ran : w.exec maxBytes call = .ok next) : Inv maxBytes owner next := by
  cases call with
  | lock checker request =>
    simp only [World.exec] at ran
    split at ran
    · cases ran
    · split at ran
      · cases ran
      · cases ran
        exact inv.same rfl rfl
  | sum checker =>
    simp only [World.exec] at ran
    split at ran
    · cases ran
      exact inv.same rfl rfl
    · cases ran
  | commit checker =>
    simp only [World.exec] at ran
    split at ran
    · cases ran
      exact inv.same rfl rfl
    · cases ran
  | decide checker =>
    simp only [World.exec] at ran
    split at ran
    · rename_i request used found
      split at ran
      · cases ran
        exact inv.same rfl rfl
      · rename_i passed
        split at ran
        · rename_i fresh
          cases ran
          exact accept_inv inv found passed fresh counted
        · cases ran
    · cases ran
  | insertVector job =>
    simp only [World.exec] at ran
    split at ran
    · rename_i row found
      cases ran
      exact insert_inv inv found
    · cases ran
  | settle job =>
    cases ran
    exact settle_inv inv job
  | crash checker =>
    cases ran
    exact inv.same rfl rfl

end Steps

-- Along every run whose passing checks also leave room for what was accepted and
-- is not stored yet, the owner's total stays within the quota.
theorem quota_bounds_storage (maxBytes : Int) (owner : Owner) (start : Vectors)
    (within : (storageUsed start owner : Int) ≤ maxBytes) (calls : List Call)
    (counted : ∀ i call, calls[i]? = some call →
      (before (World.exec maxBytes) ⟨start,.empty,.empty⟩ calls i).Counted maxBytes owner call) (i : Nat) :
    (storageUsed (before (World.exec maxBytes) ⟨start,.empty,.empty⟩ calls i).vectors owner : Int) ≤ maxBytes := by
  have inv : Inv maxBytes owner (before (World.exec maxBytes) ⟨start,.empty,.empty⟩ calls i) := by
    refine kept_between (Nat.zero_le i) ⟨?_,?_⟩ ?_
    · simpa [before,after,World.outstanding,Store.total,Store.empty] using within
    · intro job row stored present
      cases present
    · intro k call next _ _ found held ran
      exact exec_inv held (counted k call found) ran
  have bound := inv.bounded
  omega

def note (job : JobId) (bytes : Nat) : WriteRequest := ⟨"0xa",[(job,bytes)]⟩

def checked (checker : Checker) (request : WriteRequest) : List Call :=
  [.lock checker request,.sum checker,.commit checker,.decide checker]

-- Both checks pass before either upload has stored its row.
theorem two_checks_pass_together :
    (storageUsed .empty "0xa" : Int) ≤ 10 ∧
    ¬ (storageUsed (after (World.exec 10) ⟨.empty,.empty,.empty⟩
      (checked 0 (note 0 6) ++ checked 1 (note 1 6) ++ [.insertVector 0,.insertVector 1])).vectors "0xa" : Int) ≤ 10 := by
  decide +kernel

theorem stored_before_the_next_check :
    (storageUsed (before (World.exec 10) ⟨.empty,.empty,.empty⟩
      (checked 0 (note 0 6) ++ [.insertVector 0] ++ checked 1 (note 1 4) ++ [.insertVector 1]) 10).vectors "0xa" : Int)
      ≤ 10 := by
  refine quota_bounds_storage 10 "0xa" .empty (by decide) _ ?_ 10
  intro i call found
  have all : always (World.exec 10) (fun w call => decide (World.Counted 10 w "0xa" call)) ⟨.empty,.empty,.empty⟩
      (checked 0 (note 0 6) ++ [.insertVector 0] ++ checked 1 (note 1 4) ++ [.insertVector 1]) = true := by
    decide +kernel
  exact of_decide_eq_true (before_of_always all i call found)

end MemWal.Quota
