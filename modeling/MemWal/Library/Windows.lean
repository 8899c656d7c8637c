import Mathlib.Algebra.Order.Group.Defs
import Mathlib.Algebra.Order.Group.Int
import Mathlib.Algebra.Order.BigOperators.Group.List
import Mathlib.Algebra.Order.Ring.Nat
import Mathlib.Data.List.Induction

namespace MemWal.Library.Windows
variable {τ : Type} [LinearOrder τ]

-- Weighted events with their times, and the weight that falls in `(after,upto]`.
def weightAbove (events : List (τ × Nat)) (after : τ) : Nat :=
  ((events.filter (fun e => after < e.1)).map Prod.snd).sum

def weightIn (events : List (τ × Nat)) (after upto : τ) : Nat :=
  weightAbove (events.filter (fun e => e.1 ≤ upto)) after

@[simp] theorem weightAbove_append (one two : List (τ × Nat)) (after : τ) :
    weightAbove (one ++ two) after = weightAbove one after + weightAbove two after := by
  simp [weightAbove]

theorem weightAbove_singleton (time : τ) (weight : Nat) (after : τ) :
    weightAbove [(time,weight)] after = if after < time then weight else 0 := by
  by_cases later : after < time <;> simp [weightAbove,later]

theorem weightAbove_sublist {some_ all : List (τ × Nat)} (among : some_.Sublist all) (after : τ) :
    weightAbove some_ after ≤ weightAbove all after :=
  List.Sublist.sum_le_sum ((among.filter _).map _) (fun _ _ => Nat.zero_le _)

theorem weightAbove_mono (events : List (τ × Nat)) {early late : τ} (order : early ≤ late) :
    weightAbove events late ≤ weightAbove events early := by
  refine List.Sublist.sum_le_sum (List.Sublist.map _ ?_) (fun _ _ => Nat.zero_le _)
  refine List.monotone_filter_right _ ?_
  intro e above
  simp only [decide_eq_true_eq] at above ⊢
  exact order.trans_lt above

theorem weightAbove_none {events : List (τ × Nat)} {after : τ} (past : ∀ e ∈ events, e.1 ≤ after) :
    weightAbove events after = 0 := by
  have empty : events.filter (fun e => after < e.1) = [] := by
    rw [List.filter_eq_nil_iff]
    intro e member
    simpa using past e member
  simp [weightAbove,empty]

-- Nothing lies after `upto` when every event happened by then.
theorem weightIn_of_past {events : List (τ × Nat)} {upto : τ} (past : ∀ e ∈ events, e.1 ≤ upto) (after : τ) :
    weightIn events after upto = weightAbove events after := by
  rw [weightIn,List.filter_eq_self.mpr]
  intro e member
  simpa using past e member

@[simp] theorem weightIn_append (one two : List (τ × Nat)) (after upto : τ) :
    weightIn (one ++ two) after upto = weightIn one after upto + weightIn two after upto := by
  simp [weightIn]

-- The last of the events with a property, and those with it before.
theorem last_of {γ : Type} (p : γ → Bool) (events : List γ) : events.filter p = [] ∨
    ∃ before e after, events = before ++ e :: after ∧ p e = true ∧ events.filter p = before.filter p ++ [e] := by
  induction events using List.reverseRecOn with
  | nil => exact .inl rfl
  | append_singleton earlier e ih =>
    by_cases holds : p e = true
    · exact .inr ⟨earlier,e,[],rfl,holds,by simp [holds]⟩
    · have same : (earlier ++ [e]).filter p = earlier.filter p := by simp [holds]
      rw [same]
      rcases ih with none_ | ⟨before,last,after,rfl,own,found⟩
      · exact .inl none_
      · exact .inr ⟨before,last,after ++ [e],by simp,own,found⟩

section Sliding
variable [AddCommGroup τ] [IsOrderedAddMonoid τ]

-- A bound that holds at each event for the window that ends there holds for
-- the window that ends at any moment.
theorem sliding_bound {events : List (τ × Nat)} {span : τ} {limit : Nat}
    (ordered : events.Pairwise (fun a b => a.1 ≤ b.1))
    (kept : ∀ i e, events[i]? = some e → weightAbove (events.take (i+1)) (e.1 - span) ≤ limit) (t : τ) :
    weightIn events (t - span) t ≤ limit := by
  induction events using List.reverseRecOn with
  | nil => simp [weightIn,weightAbove]
  | append_singleton earlier last ih =>
    rw [List.pairwise_append] at ordered
    obtain ⟨sorted,_,before⟩ := ordered
    have earlierKept : ∀ i e, earlier[i]? = some e → weightAbove (earlier.take (i+1)) (e.1 - span) ≤ limit := by
      intro i e found
      have inside : i < earlier.length := (List.getElem?_eq_some_iff.mp found).1
      have same := kept i e (by rw [List.getElem?_append_left inside]; exact found)
      rwa [List.take_append_of_le_length inside] at same
    by_cases inside : last.1 ≤ t
    · -- The window that ends at `t` starts no earlier than the one at `last`.
      have whole := kept earlier.length last (by simp)
      rw [List.take_of_length_le (by simp)] at whole
      calc weightIn (earlier ++ [last]) (t - span) t
          ≤ weightAbove (earlier ++ [last]) (t - span) := weightAbove_sublist List.filter_sublist _
        _ ≤ weightAbove (earlier ++ [last]) (last.1 - span) := weightAbove_mono _ (sub_le_sub_right inside span)
        _ ≤ limit := whole
    · have out : weightIn [last] (t - span) t = 0 := by simp [weightIn,weightAbove,inside]
      rw [weightIn_append,out]
      exact ih sorted earlierKept

end Sliding
end MemWal.Library.Windows
