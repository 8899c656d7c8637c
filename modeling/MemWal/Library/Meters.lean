import Mathlib.Algebra.Order.Ring.Defs
import Mathlib.Algebra.BigOperators.Group.List.Basic
import Mathlib.Tactic.Linarith
import Mathlib.Tactic.Ring

namespace MemWal.Library

-- A reserve that refills at a constant rate up to a capacity. It is known by
-- what was taken from it and when, the last withdrawal first.
namespace Meters
variable {α : Type} [CommRing α] [LinearOrder α]

def refilled (capacity rate held elapsed : α) : α := min (held + elapsed * rate) capacity

def level (capacity rate : α) : List (α × α) → α → α
  | [],_ => capacity
  | (time,taken) :: earlier,now => refilled capacity rate (level capacity rate earlier time - taken) (now - time)

-- Nothing is taken that is not there, and no withdrawal comes before one that
-- was made earlier.
def Covered (capacity rate : α) : List (α × α) → Prop
  | [] => True
  | (time,taken) :: earlier => taken ≤ level capacity rate earlier time ∧ (∀ e ∈ earlier, e.1 ≤ time) ∧
      Covered capacity rate earlier

def taken (history : List (α × α)) : α := (history.map Prod.snd).sum

def since (start : α) (history : List (α × α)) : List (α × α) := history.filter (fun e => start ≤ e.1)

def within (start stop : α) (history : List (α × α)) : List (α × α) :=
  history.filter (fun e => start ≤ e.1 ∧ e.1 ≤ stop)

variable {capacity rate held elapsed later start stop now : α} {history : List (α × α)}

theorem refilled_le : refilled capacity rate held elapsed ≤ capacity := min_le_right _ _

theorem level_le (history : List (α × α)) (now : α) : level capacity rate history now ≤ capacity := by
  cases history with
  | nil => exact le_refl capacity
  | cons last earlier => exact refilled_le

variable [IsStrictOrderedRing α]

theorem refilled_mono (rising : 0 ≤ rate) (order : elapsed ≤ later) :
    refilled capacity rate held elapsed ≤ refilled capacity rate held later :=
  min_le_min_right capacity (add_le_add_right (mul_le_mul_of_nonneg_right order rising) held)

theorem refilled_full (paid : 0 ≤ held) (enough : capacity ≤ elapsed * rate) :
    refilled capacity rate held elapsed = capacity := by
  apply min_eq_right
  exact enough.trans (le_add_of_nonneg_left paid)

-- Withdrawals from the start on and the level are paid by the capacity and by
-- what was refilled since.
theorem taken_since (rising : 0 ≤ rate) (covered : Covered capacity rate history) (past : ∀ e ∈ history, e.1 ≤ now)
    (order : start ≤ now) :
    taken (since start history) + level capacity rate history now ≤ capacity + (now - start) * rate := by
  induction history generalizing now with
  | nil =>
    have gain : 0 ≤ (now - start) * rate := mul_nonneg (sub_nonneg.mpr order) rising
    simpa [taken,since,level] using gain
  | cons last earlier ih =>
    obtain ⟨time,amount⟩ := last
    have before : ∀ e ∈ earlier, e.1 ≤ time := covered.2.1
    have reached : time ≤ now := past _ List.mem_cons_self
    by_cases counted : start ≤ time
    · have paid := ih covered.2.2 before counted
      have sum : taken (since start ((time,amount) :: earlier)) = amount + taken (since start earlier) := by
        simp [taken,since,counted]
      have refill : level capacity rate ((time,amount) :: earlier) now ≤
          level capacity rate earlier time - amount + (now - time) * rate := min_le_left _ _
      rw [sum]
      linarith
    · have none : since start ((time,amount) :: earlier) = [] := by
        rw [since,List.filter_eq_nil_iff]
        intro e member
        rcases List.mem_cons.mp member with rfl | old
        · simpa using counted
        · have early : e.1 < start := lt_of_le_of_lt (before e old) (not_le.mp counted)
          simpa using early
      have full : level capacity rate ((time,amount) :: earlier) now ≤ capacity := level_le _ now
      have gain : 0 ≤ (now - start) * rate := mul_nonneg (sub_nonneg.mpr order) rising
      rw [none]
      simp only [taken,List.map_nil,List.sum_nil,zero_add]
      linarith

theorem taken_within (room : 0 ≤ capacity) (rising : 0 ≤ rate) (covered : Covered capacity rate history)
    (order : start ≤ stop) : taken (within start stop history) ≤ capacity + (stop - start) * rate := by
  induction history with
  | nil =>
    have gain : 0 ≤ (stop - start) * rate := mul_nonneg (sub_nonneg.mpr order) rising
    simpa [taken,within] using add_nonneg room gain
  | cons last earlier ih =>
    obtain ⟨time,amount⟩ := last
    by_cases counted : start ≤ time ∧ time ≤ stop
    · have same : within start stop earlier = since start earlier := by
        apply List.filter_congr
        intro e member
        have early : e.1 ≤ stop := (covered.2.1 e member).trans counted.2
        simp [early]
      have paid := taken_since rising covered.2.2 covered.2.1 counted.1
      have sum : taken (within start stop ((time,amount) :: earlier)) = amount + taken (within start stop earlier) := by
        simp [taken,within,counted]
      have rest : (time - start) * rate ≤ (stop - start) * rate :=
        mul_le_mul_of_nonneg_right (sub_le_sub_right counted.2 start) rising
      rw [sum,same]
      linarith [covered.1]
    · have skipped : within start stop ((time,amount) :: earlier) = within start stop earlier := by
        simp [within,counted]
      rw [skipped]
      exact ih covered.2.2

end Meters
end MemWal.Library
