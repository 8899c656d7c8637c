import Mathlib.Data.List.Basic

namespace MemWal.Library.Batches
variable {α β γ ι : Type}

-- A list cut into parts of one size, the last of which may be shorter.
def chunksFrom (size : Nat) : Nat → List α → List (List α)
  | 0,_ => []
  | _+1,[] => []
  | fuel+1,xs => xs.take size :: chunksFrom size fuel (xs.drop size)

def chunks (size : Nat) (xs : List α) : List (List α) := chunksFrom size xs.length xs

theorem chunksFrom_cons (size fuel : Nat) (x : α) (xs : List α) : chunksFrom size (fuel+1) (x :: xs) =
    (x :: xs).take size :: chunksFrom size fuel ((x :: xs).drop size) := rfl

theorem chunks_nonempty {size fuel : Nat} (positive : 0 < size) {xs : List α} :
    ∀ chunk ∈ chunksFrom size fuel xs, chunk ≠ [] := by
  induction fuel generalizing xs with
  | zero =>
    intro chunk member
    cases member
  | succ fuel ih =>
    cases xs with
    | nil =>
      intro chunk member
      cases member
    | cons x xs =>
      intro chunk member
      rcases List.mem_cons.mp member with here | later
      · rw [here]
        simpa [List.take_eq_nil_iff] using Nat.pos_iff_ne_zero.mp positive
      · exact ih chunk later

theorem chunksFrom_flatten {size fuel : Nat} (positive : 0 < size) {xs : List α} (enough : xs.length ≤ fuel) :
    (chunksFrom size fuel xs).flatten = xs := by
  induction fuel generalizing xs with
  | zero => rw [List.length_eq_zero_iff.mp (Nat.le_zero.mp enough)]; rfl
  | succ fuel ih =>
    cases xs with
    | nil => rfl
    | cons x xs =>
      have shorter : ((x :: xs).drop size).length ≤ fuel := by
        rw [List.length_drop]
        omega
      rw [chunksFrom_cons,List.flatten_cons,ih shorter,List.take_append_drop]

theorem chunks_flatten {size : Nat} (positive : 0 < size) (xs : List α) : (chunks size xs).flatten = xs :=
  chunksFrom_flatten positive (Nat.le_refl _)

theorem chunksFrom_length (size fuel : Nat) (xs : List α) : (chunksFrom size fuel xs).length ≤ fuel := by
  induction fuel generalizing xs with
  | zero => exact Nat.le_refl 0
  | succ fuel ih =>
    cases xs with
    | nil => exact Nat.zero_le _
    | cons x xs => exact Nat.succ_le_succ (ih _)

theorem chunks_length (size : Nat) (xs : List α) : (chunks size xs).length ≤ xs.length :=
  chunksFrom_length size xs.length xs

theorem chunksFrom_short {size fuel : Nat} {xs : List α} :
    ∀ chunk ∈ chunksFrom size fuel xs, chunk.length ≤ size := by
  induction fuel generalizing xs with
  | zero =>
    intro chunk member
    cases member
  | succ fuel ih =>
    cases xs with
    | nil =>
      intro chunk member
      cases member
    | cons x xs =>
      intro chunk member
      rcases List.mem_cons.mp member with rfl | later
      · exact List.length_take_le _ _
      · exact ih chunk later

-- Answers to all the chunks are as many as the items.
theorem answers_length {parts : List (List α)} {ys : List β} {g : List α × β → List γ} (same : parts.length = ys.length)
    (sized : ∀ part ∈ parts.zip ys, (g part).length = part.1.length) :
    ((parts.zip ys).flatMap g).length = parts.flatten.length := by
  induction parts generalizing ys with
  | nil => rfl
  | cons part parts ih =>
    cases ys with
    | nil => cases same
    | cons y ys =>
      have here := sized (part,y) List.mem_cons_self
      have tail := ih (Nat.succ.inj same) (fun other member => sized other (List.mem_cons_of_mem _ member))
      rw [List.zip_cons_cons,List.flatMap_cons,List.length_append,here,tail,List.flatten_cons,List.length_append]

-- Where an item of the answers to the chunks comes from: the chunks in front of
-- its own are full, so its place in the whole list tells the chunk and the index.
theorem located {size fuel : Nat} {xs : List α} {ys : List β} {g : List α × β → List γ}
    (sized : ∀ part ∈ (chunksFrom size fuel xs).zip ys, (g part).length = part.1.length) {q : Nat} {z : γ}
    (found : (((chunksFrom size fuel xs).zip ys).flatMap g)[q]? = some z) :
    ∃ b i chunk y, q = b * size + i ∧ i < size ∧ (chunksFrom size fuel xs)[b]? = some chunk ∧ ys[b]? = some y ∧
      chunk[i]? = xs[q]? ∧ (g (chunk,y))[i]? = some z := by
  induction fuel generalizing xs ys q with
  | zero => cases found
  | succ fuel ih =>
    cases xs with
    | nil => cases found
    | cons x xs =>
      cases ys with
      | nil => cases found
      | cons y ys =>
        rw [chunksFrom_cons,List.zip_cons_cons] at sized
        rw [chunksFrom_cons,List.zip_cons_cons,List.flatMap_cons] at found
        have first := sized _ List.mem_cons_self
        rcases Nat.lt_or_ge q (g ((x :: xs).take size,y)).length with inside | past
        · rw [List.getElem?_append_left inside] at found
          rw [first,List.length_take] at inside
          have small : q < size := Nat.lt_of_lt_of_le inside (Nat.min_le_left _ _)
          exact ⟨0,q,_,y,by omega,small,rfl,rfl,List.getElem?_take_of_lt small,found⟩
        · rw [List.getElem?_append_right past] at found
          obtain ⟨b,i,chunk,y',place,small,cut,answer,same,there⟩ :=
            ih (fun part member => sized part (List.mem_cons_of_mem _ member)) found
          -- More chunks follow, so this one is full.
          have more : (x :: xs).drop size ≠ [] := by
            intro none_
            rw [none_] at cut
            cases fuel <;> cases cut
          have longer : size < (x :: xs).length := Nat.lt_of_not_le (fun le => more (List.drop_eq_nil_of_le le))
          have full : (g ((x :: xs).take size,y)).length = size := by
            rw [first,List.length_take,Nat.min_eq_left (Nat.le_of_lt longer)]
          rw [full] at place past same
          refine ⟨b+1,i,chunk,y',?_,small,cut,answer,?_,there⟩
          · rw [Nat.succ_mul]
            omega
          · rw [same,List.getElem?_drop]
            congr 1
            omega

-- Writing values at their indices: the last write to an index stays.
theorem foldl_set {index : ι → Nat} {value : ι → γ} (items : List ι) (out : List γ) (i : Nat) :
    (items.foldl (fun out item => if index item < out.length then out.set (index item) (value item) else out) out)[i]? =
      if i < out.length then
        match items.reverse.find? (fun item => index item = i) with
        | some item => some (value item)
        | none => out[i]?
      else none := by
  induction items generalizing out with
  | nil =>
    by_cases inside : i < out.length
    · simp [inside]
    · simp [inside]
  | cons item rest ih =>
    rw [List.foldl_cons,ih,List.reverse_cons,List.find?_append]
    by_cases fits : index item < out.length
    · rw [if_pos fits,List.length_set]
      by_cases inside : i < out.length
      · rw [if_pos inside,if_pos inside]
        cases rest.reverse.find? (fun item => index item = i) with
        | some later => rfl
        | none =>
          by_cases here : index item = i
          · simp [here,inside]
          · simp [here]
      · rw [if_neg inside,if_neg inside]
    · rw [if_neg fits]
      by_cases inside : i < out.length
      · have other : index item ≠ i := fun same => fits (same ▸ inside)
        rw [if_pos inside,if_pos inside]
        cases rest.reverse.find? (fun item => index item = i) with
        | some later => rfl
        | none => simp [other]
      · rw [if_neg inside,if_neg inside]

theorem foldl_set_length {index : ι → Nat} {value : ι → γ} (items : List ι) (out : List γ) :
    (items.foldl (fun out item => if index item < out.length then out.set (index item) (value item) else out) out).length =
      out.length := by
  induction items generalizing out with
  | nil => rfl
  | cons item rest ih =>
    rw [List.foldl_cons,ih]
    split
    · exact List.length_set
    · rfl

-- The place that an item which was kept had before.
theorem filterMap_place {f : α → Option β} {xs : List α} {k : Nat} {y : β} (found : (xs.filterMap f)[k]? = some y) :
    ∃ q x, xs[q]? = some x ∧ f x = some y ∧ ((xs.take q).filterMap f).length = k := by
  induction xs generalizing k with
  | nil => cases found
  | cons x xs ih =>
    cases kept : f x with
    | none =>
      rw [List.filterMap_cons_none kept] at found
      obtain ⟨q,x',there,maps,count⟩ := ih found
      exact ⟨q+1,x',there,maps,by rw [List.take_succ_cons,List.filterMap_cons_none kept,count]⟩
    | some z =>
      rw [List.filterMap_cons_some kept] at found
      cases k with
      | zero =>
        cases found
        exact ⟨0,x,rfl,kept,rfl⟩
      | succ k =>
        obtain ⟨q,x',there,maps,count⟩ := ih found
        exact ⟨q+1,x',there,maps,by rw [List.take_succ_cons,List.filterMap_cons_some kept,List.length_cons,count]⟩

theorem filterMap_order (f : α → Option β) (xs : List α) {q r : Nat}
    (fewer : ((xs.take q).filterMap f).length < ((xs.take r).filterMap f).length) : q < r := by
  apply Nat.lt_of_not_le
  intro order
  have sub := (List.take_sublist_take_left (l:=xs) order).filterMap f
  exact absurd sub.length_le (Nat.not_le.mpr fewer)

-- Keys that the kept items have from the items they were are in the same order.
theorem filterMap_keys (f : α → Option β) (key : α → ι) (key' : β → ι)
    (keeps : ∀ x y, f x = some y → key' y = key x) (xs : List α) :
    ((xs.filterMap f).map key').Sublist (xs.map key) := by
  induction xs with
  | nil => exact .slnil
  | cons x xs ih =>
    cases kept : f x with
    | none =>
      rw [List.filterMap_cons_none kept]
      exact ih.cons _
    | some y =>
      rw [List.filterMap_cons_some kept,List.map_cons,keeps x y kept]
      exact ih.cons_cons _

end MemWal.Library.Batches
