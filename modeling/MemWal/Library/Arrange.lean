import Mathlib.Data.List.FinRange
import Mathlib.Data.List.Sort

namespace MemWal.Library.Arrange
variable {κ σ : Type} [LinearOrder κ] [LinearOrder σ]

-- Positions ordered by a key, the best first and ties in order of position.
def Before (key : κ → σ) (i j : κ) : Prop := key j < key i ∨ key j = key i ∧ i < j

structure Arranged (key : κ → σ) (positions order : List κ) : Prop where
  all : order.Perm positions
  sorted : order.Pairwise (Before key)

-- A stable sort, best first.
def arrange (key : κ → σ) (positions : List κ) : List κ := positions.insertionSort (fun i j => key j ≤ key i)

variable {key : κ → σ}

theorem Before.antisymm {i j : κ} (one : Before key i j) (two : Before key j i) : False := by
  rcases one with less | ⟨same,less⟩
  · rcases two with more | ⟨same,_⟩
    · exact lt_asymm less more
    · exact less.ne same.symm
  · rcases two with more | ⟨_,more⟩
    · exact more.ne same.symm
    · exact lt_asymm less more

theorem before_iff {i j : κ} (order : i < j) : Before key i j ↔ key j ≤ key i := by
  constructor
  · intro found
    rcases found with less | ⟨same,_⟩
    · exact less.le
    · exact same.le
  · intro le
    rcases le.lt_or_eq with less | same
    · exact .inl less
    · exact .inr ⟨same,order⟩

theorem insert_sorted {a : κ} {order : List κ} (sorted : order.Pairwise (Before key)) (first : ∀ b ∈ order, a < b) :
    (order.orderedInsert (fun i j => key j ≤ key i) a).Pairwise (Before key) := by
  induction order with
  | nil => exact List.pairwise_singleton _ _
  | cons b rest ih =>
    obtain ⟨ahead,tail⟩ := List.pairwise_cons.mp sorted
    rw [List.orderedInsert_cons]
    by_cases better : key b ≤ key a
    · rw [if_pos better]
      refine List.pairwise_cons.mpr ⟨?_,sorted⟩
      intro c member
      rw [before_iff (first c member)]
      rcases List.mem_cons.mp member with rfl | later
      · exact better
      · rcases ahead c later with less | ⟨same,_⟩
        · exact less.le.trans better
        · exact same.le.trans better
    · rw [if_neg better]
      refine List.pairwise_cons.mpr ⟨?_,ih tail (fun c member => first c (List.mem_cons_of_mem _ member))⟩
      intro c member
      rcases (List.mem_orderedInsert _).mp member with rfl | later
      · exact .inl (not_le.mp better)
      · exact ahead c later

theorem arrange_arranged {positions : List κ} (increasing : positions.Pairwise (· < ·)) :
    Arranged key positions (arrange key positions) := by
  refine ⟨List.perm_insertionSort _ _,?_⟩
  unfold arrange
  induction positions with
  | nil => exact List.Pairwise.nil
  | cons a rest ih =>
    obtain ⟨first,tail⟩ := List.pairwise_cons.mp increasing
    rw [List.insertionSort_cons]
    exact insert_sorted (ih tail) (fun b member => first b ((List.mem_insertionSort _).mp member))

-- There is one such order.
theorem Arranged.unique {positions one two : List κ} (left : Arranged key positions one)
    (right : Arranged key positions two) : one = two :=
  List.Perm.eq_of_pairwise (fun _ _ _ _ before after => (before.antisymm after).elim) left.sorted right.sorted
    (left.all.trans right.all.symm)

-- Two keys arrange the positions alike exactly when they agree on each pair
-- about whether the later one overtakes the earlier one.
theorem Arranged.other_iff {other : κ → σ} {positions order : List κ} (arranged : Arranged key positions order) :
    Arranged other positions order ↔
      ∀ i ∈ positions, ∀ j ∈ positions, i < j → (key j ≤ key i ↔ other j ≤ other i) := by
  constructor
  · intro again i one j two less
    have both : order.Pairwise (fun i j => Before key i j ∧ Before other i j) := arranged.sorted.and again.sorted
    obtain ⟨m,low,here⟩ := List.getElem_of_mem (arranged.all.mem_iff.mpr one)
    obtain ⟨n,high,there⟩ := List.getElem_of_mem (arranged.all.mem_iff.mpr two)
    rw [← before_iff less,← before_iff less]
    rw [List.pairwise_iff_getElem] at both
    rcases Nat.lt_trichotomy m n with first | rfl | last
    · have forward := both m n low high first
      rw [here,there] at forward
      exact iff_of_true forward.1 forward.2
    · exact absurd (here.symm.trans there) less.ne
    · have backward := both n m high low last
      rw [here,there] at backward
      exact iff_of_false (fun before => before.antisymm backward.1) (fun before => before.antisymm backward.2)
  · intro agree
    refine ⟨arranged.all,arranged.sorted.imp_of_mem ?_⟩
    intro i j one two before
    have here := arranged.all.mem_iff.mp one
    have there := arranged.all.mem_iff.mp two
    rcases lt_trichotomy i j with less | rfl | more
    · rw [before_iff less] at before ⊢
      exact (agree i here j there less).mp before
    · exact (before.antisymm before).elim
    · have worse : ¬ key i ≤ key j := fun better => before.antisymm ((before_iff more).mpr better)
      exact .inl (not_le.mp (fun better => worse ((agree j there i here more).mpr better)))

end MemWal.Library.Arrange
