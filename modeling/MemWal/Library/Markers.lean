import Mathlib.Data.List.Infix

namespace MemWal.Library.Markers
variable {α : Type} {marker front back : List α} {c : α}

-- Looking for a marker in a text that is put together from parts.

theorem prefix_before (absent : c ∉ marker) (starts : marker <+: front ++ c :: back) : marker <+: front := by
  induction front generalizing marker with
  | nil =>
    cases marker with
    | nil => exact List.nil_prefix
    | cons d rest =>
      have same := (List.cons_prefix_cons.mp starts).1
      subst same
      exact absurd List.mem_cons_self absent
  | cons a front ih =>
    cases marker with
    | nil => exact List.nil_prefix
    | cons d rest =>
      obtain ⟨same,tail⟩ := List.cons_prefix_cons.mp starts
      have shorter := ih (fun member => absent (List.mem_cons_of_mem _ member)) tail
      exact List.cons_prefix_cons.mpr ⟨same,shorter⟩

-- A marker does not reach over a character that it has not got.
theorem infix_between (absent : c ∉ marker) :
    marker <:+: front ++ c :: back ↔ marker <:+: front ∨ marker <:+: back := by
  induction front with
  | nil =>
    constructor
    · intro found
      rcases List.infix_cons_iff.mp found with starts | later
      · have front : marker <+: [] := prefix_before absent starts
        exact .inl front.isInfix
      · exact .inr later
    · intro found
      rcases found with none_ | later
      · rw [List.infix_nil.mp none_]
        exact List.nil_infix
      · exact List.infix_cons later
  | cons a front ih =>
    constructor
    · intro found
      rcases List.infix_cons_iff.mp found with starts | later
      · have inFront : marker <+: a :: front := prefix_before absent starts
        exact .inl inFront.isInfix
      · rcases ih.mp later with inside | after
        · exact .inl (List.infix_cons inside)
        · exact .inr after
    · intro found
      rcases found with inside | after
      · exact inside.trans (List.prefix_append _ _).isInfix
      · exact List.infix_cons (ih.mpr (.inr after))

theorem infix_after (apart : marker.head? ≠ some c) : marker <:+: c :: back ↔ marker <:+: back := by
  constructor
  · intro found
    rcases List.infix_cons_iff.mp found with starts | later
    · cases marker with
      | nil => exact List.nil_infix
      | cons d rest =>
        have same := (List.cons_prefix_cons.mp starts).1
        subst same
        exact absurd rfl apart
    · exact later
  · exact List.infix_cons

theorem infix_before (apart : marker.getLast? ≠ some c) : marker <:+: front ++ [c] ↔ marker <:+: front := by
  have turned := @infix_after α marker.reverse front.reverse c (by rwa [List.head?_reverse])
  rw [← List.reverse_infix,List.reverse_append]
  exact turned.trans List.reverse_infix

end MemWal.Library.Markers
