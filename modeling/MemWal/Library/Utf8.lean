import Mathlib.Data.List.Basic
import Mathlib.Algebra.GroupWithZero.Nat
import Mathlib.Algebra.BigOperators.Group.List.Basic

namespace MemWal.Library.Utf8

-- A text as its characters, with lengths and positions in bytes.
def size (text : List Char) : Nat := (text.map Char.utf8Size).sum

-- The text in front of a byte position and behind it. There is no such split
-- inside a character or past the end.
def splitAt : List Char → Nat → Option (List Char × List Char)
  | text,0 => some ([],text)
  | [],_ + 1 => none
  | c :: rest,n + 1 =>
    if c.utf8Size ≤ n + 1 then (splitAt rest (n + 1 - c.utf8Size)).map (fun parts => (c :: parts.1,parts.2)) else none

def isCharBoundary (text : List Char) (position : Nat) : Bool := (splitAt text position).isSome

-- The last boundary up to a position.
def floorBoundary (text : List Char) : Nat → Nat
  | 0 => 0
  | position + 1 => if isCharBoundary text (position + 1) then position + 1 else floorBoundary text position

def charIndicesFrom (start : Nat) : List Char → List (Nat × Char)
  | [] => []
  | c :: rest => (start,c) :: charIndicesFrom (start + c.utf8Size) rest

def charIndices (text : List Char) : List (Nat × Char) := charIndicesFrom 0 text

section Sizes
variable {text front back : List Char} {position : Nat}

@[simp] theorem size_nil : size [] = 0 := rfl

@[simp] theorem size_cons (c : Char) (rest : List Char) : size (c :: rest) = c.utf8Size + size rest := rfl

@[simp] theorem size_append (front back : List Char) : size (front ++ back) = size front + size back := by
  simp [size]

theorem size_ofList (text : List Char) : (String.ofList text).utf8ByteSize = size text := by
  induction text with
  | nil => rfl
  | cons c rest ih =>
    have split : String.ofList (c :: rest) = String.singleton c ++ String.ofList rest := by
      rw [String.singleton_eq_ofList,← String.ofList_append]
      rfl
    rw [split,String.utf8ByteSize_append,String.utf8ByteSize_singleton,ih,size_cons]

theorem splitAt_append (front back : List Char) : splitAt (front ++ back) (size front) = some (front,back) := by
  induction front with
  | nil => cases back <;> rfl
  | cons c rest ih =>
    have here : 0 < c.utf8Size := Char.utf8Size_pos c
    obtain ⟨n,total⟩ : ∃ n, size (c :: rest) = n + 1 := ⟨size (c :: rest) - 1,by rw [size_cons]; omega⟩
    have left : n + 1 - c.utf8Size = size rest := by
      rw [← total,size_cons]
      omega
    have fits : c.utf8Size ≤ n + 1 := by
      rw [← total,size_cons]
      omega
    rw [total,List.cons_append,splitAt,if_pos fits,left,ih]
    rfl

theorem splitAt_some (found : splitAt text position = some (front,back)) : text = front ++ back ∧ size front = position := by
  induction text generalizing front back position with
  | nil =>
    cases position with
    | zero =>
      cases found
      exact ⟨rfl,rfl⟩
    | succ n => cases found
  | cons c rest ih =>
    cases position with
    | zero =>
      cases found
      exact ⟨rfl,rfl⟩
    | succ n =>
      rw [splitAt] at found
      split at found
      · rename_i fits
        obtain ⟨⟨first,last⟩,inner,same⟩ := Option.map_eq_some_iff.mp found
        obtain ⟨whole,length⟩ := ih inner
        cases same
        refine ⟨congrArg (c :: ·) whole,?_⟩
        rw [size_cons,length]
        omega
      · cases found

theorem isCharBoundary_iff : isCharBoundary text position = true ↔
    ∃ front back, text = front ++ back ∧ size front = position := by
  rw [isCharBoundary,Option.isSome_iff_exists]
  constructor
  · intro found
    obtain ⟨⟨front,back⟩,found⟩ := found
    exact ⟨front,back,splitAt_some found⟩
  · intro parts
    obtain ⟨front,back,rfl,rfl⟩ := parts
    exact ⟨_,splitAt_append front back⟩

-- The boundaries are the valid positions of the text as a string.
theorem isCharBoundary_iff_isValid (text : String) (position : Nat) :
    isCharBoundary text.toList position = true ↔ String.Pos.Raw.IsValid text ⟨position⟩ := by
  rw [isCharBoundary_iff,String.Pos.Raw.isValid_iff_exists_take_toList]
  simp only [size_ofList]
  constructor
  · intro parts
    obtain ⟨front,back,whole,length⟩ := parts
    refine ⟨front.length,?_⟩
    rw [whole,List.take_left,length]
  · intro taken
    obtain ⟨i,length⟩ := taken
    exact ⟨text.toList.take i,text.toList.drop i,(List.take_append_drop i _).symm,length.symm⟩

theorem floorBoundary_le (text : List Char) (position : Nat) : floorBoundary text position ≤ position := by
  induction position with
  | zero => exact Nat.le_refl _
  | succ n ih =>
    rw [floorBoundary]
    split
    · exact Nat.le_refl _
    · exact Nat.le_succ_of_le ih

theorem floorBoundary_boundary (text : List Char) (position : Nat) :
    isCharBoundary text (floorBoundary text position) = true := by
  induction position with
  | zero => cases text <;> rfl
  | succ n ih =>
    rw [floorBoundary]
    split
    · assumption
    · exact ih

-- Where a second character starts, or the end.
theorem second_start (c : Char) (rest : List Char) :
    (((charIndices (c :: rest))[1]?).map Prod.fst).getD (size (c :: rest)) = size [c] := by
  cases rest with
  | nil => rfl
  | cons next later => simp [charIndices,charIndicesFrom]

end Sizes
end MemWal.Library.Utf8
