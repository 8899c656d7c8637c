import Mathlib.Data.List.Sort

namespace MemWal.Library.Keyset
variable {α κ : Type} [LinearOrder κ] (key : α → κ)

-- The rows past a cursor in the order of their keys.
def remaining (cursor : Option κ) (rows : List α) : List α :=
  (rows.filter (fun row => cursor.all (fun c => c < key row))).insertionSort (fun a b => key a ≤ key b)

def page (limit : Nat) (cursor : Option κ) (rows : List α) : List α := (remaining key cursor rows).take limit

variable {key} {cursor : Option κ} {rows : List α} {limit : Nat}

theorem remaining_perm : (remaining key cursor rows).Perm (rows.filter (fun row => cursor.all (fun c => c < key row))) :=
  List.perm_insertionSort _ _

theorem mem_remaining {row : α} : row ∈ remaining key cursor rows ↔ row ∈ rows ∧ cursor.all (fun c => c < key row) = true := by
  rw [remaining_perm.mem_iff,List.mem_filter]

theorem remaining_sorted (distinct : (rows.map key).Nodup) :
    (remaining key cursor rows).Pairwise (fun a b => key a < key b) := by
  have sorted : (remaining key cursor rows).Pairwise (fun a b => key a ≤ key b) := by
    have total : Std.Total (fun a b : α => key a ≤ key b) := ⟨fun a b => le_total _ _⟩
    have trans : IsTrans α (fun a b : α => key a ≤ key b) := ⟨fun a b c => le_trans⟩
    exact List.pairwise_insertionSort _ _
  have apart : (remaining key cursor rows).Pairwise (fun a b => key a ≠ key b) := by
    apply List.pairwise_map.mp
    exact (remaining_perm.map key).nodup_iff.mpr (distinct.sublist (List.filter_sublist.map key))
  exact (sorted.and apart).imp (fun both => lt_of_le_of_ne both.1 both.2)

-- Rows in one order of pairwise different keys are in one place each.
theorem sorted_unique {one two : List α} (perm : one.Perm two) (left : one.Pairwise (fun a b => key a < key b))
    (right : two.Pairwise (fun a b => key a < key b)) : one = two := by
  refine perm.eq_of_pairwise ?_ left right
  intro a b _ _ before after
  exact absurd before (lt_asymm after)

-- What is past the last row of the front.
theorem filter_past {front back : List α} {last : α} (sorted : (front ++ back).Pairwise (fun a b => key a < key b))
    (ends : front.getLast? = some last) : (front ++ back).filter (fun row => key last < key row) = back := by
  obtain ⟨start,rfl⟩ := List.getLast?_eq_some_iff.mp ends
  obtain ⟨inFront,_,across⟩ := List.pairwise_append.mp sorted
  obtain ⟨_,_,below⟩ := List.pairwise_append.mp inFront
  rw [List.filter_append]
  have none_ : (start ++ [last]).filter (fun row => key last < key row) = [] := by
    apply List.filter_eq_nil_iff.mpr
    intro row member
    rw [decide_eq_true_eq]
    rcases List.mem_append.mp member with earlier | here
    · exact lt_asymm (below row earlier last List.mem_cons_self)
    · rw [List.mem_singleton.mp here]
      exact lt_irrefl _
  have all_ : back.filter (fun row => key last < key row) = back := by
    apply List.filter_eq_self.mpr
    intro row member
    exact decide_eq_true (across last (List.mem_append_right _ List.mem_cons_self) row member)
  rw [none_,all_]
  rfl

theorem remaining_next (distinct : (rows.map key).Nodup) {last : α}
    (ends : (page key limit cursor rows).getLast? = some last) :
    remaining key (some (key last)) rows = (remaining key cursor rows).drop limit := by
  have whole : (page key limit cursor rows ++ (remaining key cursor rows).drop limit).Pairwise (fun a b => key a < key b) := by
    rw [page,List.take_append_drop]
    exact remaining_sorted distinct
  have past := filter_past whole ends
  rw [page,List.take_append_drop] at past
  rw [← past]
  have inside : last ∈ remaining key cursor rows := List.mem_of_mem_take (List.mem_of_getLast? ends)
  apply sorted_unique _ (remaining_sorted distinct) ((remaining_sorted distinct).sublist List.filter_sublist)
  refine remaining_perm.trans (.trans ?_ (remaining_perm.filter _).symm)
  rw [List.filter_filter]
  apply List.Perm.of_eq
  apply List.filter_congr
  intro row _
  -- A row past the last one is past the cursor too.
  cases cursor with
  | none => simp
  | some c =>
    have before := (mem_remaining.mp inside).2
    simp only [Option.all_some,decide_eq_true_eq] at before
    by_cases later : key last < key row
    · simp [later,before.trans later]
    · simp [later]

-- A row that should be on the page and is not comes after all of it, and the
-- page is full.
theorem page_misses (distinct : (rows.map key).Nodup) {row : α} (listed : row ∈ rows)
    (past : cursor.all (fun c => c < key row) = true) (missed : row ∉ page key limit cursor rows) :
    (page key limit cursor rows).length = limit ∧ ∀ other ∈ page key limit cursor rows, key other < key row := by
  have whole : (remaining key cursor rows).Pairwise (fun a b => key a < key b) := remaining_sorted distinct
  have inside : row ∈ remaining key cursor rows := mem_remaining.mpr ⟨listed,past⟩
  rw [← List.take_append_drop limit (remaining key cursor rows)] at inside whole
  rcases List.mem_append.mp inside with here | later
  · exact absurd here missed
  · constructor
    · rw [page,List.length_take]
      have some_ := List.length_pos_of_mem later
      rw [List.length_drop] at some_
      omega
    · intro other member
      exact (List.pairwise_append.mp whole).2.2 other member row later

variable (key limit)

-- Pages read one after the other, each past the last row of the one before, off
-- rows that may have changed in between; the last one has come out empty.
inductive Swept : Option κ → List (List α) → List (List α) → Prop where
  | ends (cursor : Option κ) (rows : List α) : page key limit cursor rows = [] → Swept cursor [rows] []
  | next (cursor : Option κ) (rows : List α) (last : α) (tables pages : List (List α)) :
      (page key limit cursor rows).getLast? = some last → Swept (some (key last)) tables pages →
      Swept cursor (rows :: tables) (page key limit cursor rows :: pages)

variable {key limit} {tables pages : List (List α)} {k : κ}

theorem Swept.of_tables (swept : Swept key limit cursor tables pages) {row : α} (listed : row ∈ pages.flatten) :
    ∃ rows ∈ tables, row ∈ rows := by
  induction swept with
  | ends cursor rows none_ => cases listed
  | next cursor rows last tables pages ends rest ih =>
    rw [List.flatten_cons] at listed
    rcases List.mem_append.mp listed with here | later
    · exact ⟨rows,List.mem_cons_self,(mem_remaining.mp (List.mem_of_mem_take here)).1⟩
    · obtain ⟨others,member,inside⟩ := ih later
      exact ⟨others,List.mem_cons_of_mem _ member,inside⟩

theorem Swept.not_before (swept : Swept key limit cursor tables pages) (before : ∃ c ∈ cursor, k ≤ c) :
    ∀ row ∈ pages.flatten, key row ≠ k := by
  induction swept with
  | ends cursor rows none_ => exact fun _ member => nomatch member
  | next cursor rows last tables pages ends rest ih =>
    obtain ⟨c,is,le⟩ := before
    have beyond : ∀ row ∈ page key limit cursor rows, k < key row := by
      intro row member
      have past := (mem_remaining.mp (List.mem_of_mem_take member)).2
      rw [Option.mem_def.mp is,Option.all_some,decide_eq_true_eq] at past
      exact lt_of_le_of_lt le past
    have later := ih ⟨key last,rfl,le_of_lt (beyond last (List.mem_of_getLast? ends))⟩
    intro row member
    rw [List.flatten_cons] at member
    rcases List.mem_append.mp member with here | there
    · exact ne_of_gt (beyond row here)
    · exact later row there

theorem page_sorted (distinct : (rows.map key).Nodup) :
    (page key limit cursor rows).Pairwise (fun a b => key a < key b) :=
  (remaining_sorted distinct).sublist (List.take_sublist limit _)

-- Up to its last row, a page has one row of each key that it has.
theorem page_counts (distinct : (rows.map key).Nodup) {row last : α} (here : row ∈ page key limit cursor rows)
    (ends : (page key limit cursor rows).getLast? = some last) :
    key row ≤ key last ∧ (page key limit cursor rows).countP (fun other => key other = key row) = 1 := by
  have sorted : (page key limit cursor rows).Pairwise (fun a b => key a < key b) := page_sorted distinct
  constructor
  · obtain ⟨start,split⟩ := List.getLast?_eq_some_iff.mp ends
    rw [split] at sorted here
    rcases List.mem_append.mp here with earlier | same
    · exact le_of_lt ((List.pairwise_append.mp sorted).2.2 row earlier last List.mem_cons_self)
    · rw [List.mem_singleton.mp same]
  · obtain ⟨front,back,split⟩ := List.append_of_mem here
    rw [split] at sorted ⊢
    obtain ⟨_,rest,across⟩ := List.pairwise_append.mp sorted
    have none_ : front.countP (fun other => key other = key row) = 0 := by
      apply List.countP_eq_zero.mpr
      intro other member
      rw [decide_eq_true_eq]
      exact ne_of_lt (across other member row List.mem_cons_self)
    have after : back.countP (fun other => key other = key row) = 0 := by
      apply List.countP_eq_zero.mpr
      intro other member
      rw [decide_eq_true_eq]
      exact ne_of_gt ((List.pairwise_cons.mp rest).1 other member)
    rw [List.countP_append,List.countP_cons,none_,after,decide_eq_true rfl]
    rfl

-- A key that every one of the tables has is on exactly one page.
theorem Swept.once (swept : Swept key limit cursor tables pages) (positive : 0 < limit)
    (distinct : ∀ rows ∈ tables, (rows.map key).Nodup) (kept : ∀ rows ∈ tables, k ∈ rows.map key)
    (past : cursor.all (fun c => c < k) = true) : pages.flatten.countP (fun row => key row = k) = 1 := by
  induction swept with
  | ends cursor rows none_ =>
    obtain ⟨row,listed,rfl⟩ := List.mem_map.mp (kept rows List.mem_cons_self)
    have missed : row ∉ page key limit cursor rows := by
      rw [none_]
      exact List.not_mem_nil
    have full := (page_misses (distinct rows List.mem_cons_self) listed past missed).1
    rw [none_] at full
    exact absurd positive (by rw [← full]; exact lt_irrefl _)
  | next cursor rows last tables pages ends rest ih =>
    obtain ⟨row,listed,rfl⟩ := List.mem_map.mp (kept rows List.mem_cons_self)
    have apart := distinct rows List.mem_cons_self
    rw [List.flatten_cons,List.countP_append]
    by_cases here : row ∈ page key limit cursor rows
    · obtain ⟨upTo,one⟩ := page_counts apart here ends
      rw [one,List.countP_eq_zero.mpr]
      intro other member
      rw [decide_eq_true_eq]
      exact rest.not_before ⟨_,rfl,upTo⟩ other member
    · have below := (page_misses apart listed past here).2
      rw [List.countP_eq_zero.mpr]
      · rw [ih (fun rows member => distinct rows (List.mem_cons_of_mem _ member))
          (fun rows member => kept rows (List.mem_cons_of_mem _ member))
          (decide_eq_true (below last (List.mem_of_getLast? ends)))]
      · intro other member
        rw [decide_eq_true_eq]
        exact ne_of_lt (below other member)

end MemWal.Library.Keyset
