import Mathlib.Data.List.Basic

namespace MemWal.Library.Separated
variable {α : Type} {a b x y : List α} {c : α}

-- Two fields with a separator between them, which both fields may contain.

theorem longer_front (same : a ++ c :: x = b ++ c :: y) (order : a.length < b.length) :
    ∃ u, b = a ++ c :: u ∧ x = u ++ c :: y := by
  induction a generalizing b with
  | nil =>
    cases b with
    | nil => cases order
    | cons d rest =>
      obtain ⟨head,tail⟩ := List.cons.inj same
      subst head
      exact ⟨rest,rfl,tail⟩
  | cons d front ih =>
    cases b with
    | nil => cases order
    | cons e rest =>
      obtain ⟨head,tail⟩ := List.cons.inj same
      subst head
      obtain ⟨u,ends,goes⟩ := ih tail (Nat.lt_of_succ_lt_succ order)
      exact ⟨u,by rw [ends,List.cons_append],goes⟩

-- The joined texts are equal when the fields are, and when the separator of one
-- is a character of a field of the other.
theorem joined_eq : a ++ c :: x = b ++ c :: y ↔
    (a = b ∧ x = y) ∨ (∃ u, b = a ++ c :: u ∧ x = u ++ c :: y) ∨ ∃ u, a = b ++ c :: u ∧ y = u ++ c :: x := by
  constructor
  · intro same
    rcases Nat.lt_trichotomy a.length b.length with shorter | equal | longer
    · exact .inr (.inl (longer_front same shorter))
    · obtain ⟨fronts,backs⟩ := List.append_inj same equal
      exact .inl ⟨fronts,(List.cons.inj backs).2⟩
    · exact .inr (.inr (longer_front same.symm longer))
  · intro fields
    rcases fields with equal | longer | longer
    · rw [equal.1,equal.2]
    · obtain ⟨u,front,back⟩ := longer
      rw [front,back,List.append_assoc,List.cons_append]
    · obtain ⟨u,front,back⟩ := longer
      rw [front,back,List.append_assoc,List.cons_append]

theorem joined_left (absent : c ∉ a) : a ++ c :: x = b ++ c :: y ↔
    (a = b ∧ x = y) ∨ ∃ u, b = a ++ c :: u ∧ x = u ++ c :: y := by
  rw [joined_eq]
  constructor
  · intro fields
    rcases fields with equal | longer | longer
    · exact .inl equal
    · exact .inr longer
    · obtain ⟨u,front,_⟩ := longer
      rw [front] at absent
      exact absurd (List.mem_append_right b List.mem_cons_self) absent
  · intro fields
    rcases fields with equal | longer
    · exact .inl equal
    · exact .inr (.inl longer)

theorem joined_plain (absent : c ∉ a) (absent' : c ∉ b) : a ++ c :: x = b ++ c :: y ↔ a = b ∧ x = y := by
  rw [joined_left absent]
  constructor
  · intro fields
    rcases fields with equal | longer
    · exact equal
    · obtain ⟨u,front,_⟩ := longer
      rw [front] at absent'
      exact absurd (List.mem_append_right a List.mem_cons_self) absent'
  · exact .inl

end MemWal.Library.Separated
