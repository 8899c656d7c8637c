import Mathlib.Data.List.Basic
import Mathlib.Data.List.Flatten
import Mathlib.Data.List.TakeWhile

namespace MemWal.Library.Text

-- The characters with the property `White_Space`.
def isWhitespace (c : Char) : Bool :=
  let n := c.toNat
  (0x9 ≤ n && n ≤ 0xd) || (0x2000 ≤ n && n ≤ 0x200a) ||
    n ∈ [0x20,0x85,0xa0,0x1680,0x2028,0x2029,0x202f,0x205f,0x3000]

def trim (text : List Char) : List Char :=
  ((text.dropWhile isWhitespace).reverse.dropWhile isWhitespace).reverse

def trimEnd (text : List Char) : List Char := (text.reverse.dropWhile isWhitespace).reverse

-- A text without its white space.
def dense (text : List Char) : List Char := text.filter (fun c => !isWhitespace c)

@[simp] theorem dense_append (front back : List Char) : dense (front ++ back) = dense front ++ dense back :=
  List.filter_append front back

theorem trimEnd_append (text : List Char) : ∃ blank, text = trimEnd text ++ blank ∧ ∀ c ∈ blank, isWhitespace c = true := by
  refine ⟨(text.reverse.takeWhile isWhitespace).reverse,?_,?_⟩
  · rw [trimEnd,← List.reverse_append,List.takeWhile_append_dropWhile,List.reverse_reverse]
  · intro c member
    exact List.mem_takeWhile_imp (List.mem_reverse.mp member)

@[simp] theorem dense_trimEnd (text : List Char) : dense (trimEnd text) = dense text := by
  obtain ⟨blank,whole,white⟩ := trimEnd_append text
  have gone : dense blank = [] := by
    rw [dense,List.filter_eq_nil_iff]
    intro c member
    simp [white c member]
  conv_rhs => rw [whole,dense_append,gone,List.append_nil]

-- The words of a text, with the one that is being read.
def wordsFrom (word : List Char) : List Char → List (List Char)
  | [] => if word = [] then [] else [word]
  | c :: rest =>
    if isWhitespace c then
      if word = [] then wordsFrom [] rest else word :: wordsFrom [] rest
    else wordsFrom (word ++ [c]) rest

def words (text : List Char) : List (List Char) := wordsFrom [] text

def join (words : List (List Char)) : List Char := [' '].intercalate words

structure Word (word : List Char) : Prop where
  some_ : word ≠ []
  dense : ∀ c ∈ word, isWhitespace c = false

theorem Word.of_all {word : List Char} (some_ : word ≠ []) (dense : word.all (fun c => !isWhitespace c) = true) :
    Word word := by
  refine ⟨some_,?_⟩
  intro c member
  simpa using List.all_eq_true.mp dense c member

theorem wordsFrom_append {read word : List Char} (dense : ∀ c ∈ word, isWhitespace c = false) (rest : List Char) :
    wordsFrom read (word ++ rest) = wordsFrom (read ++ word) rest := by
  induction word generalizing read with
  | nil => simp
  | cons c tail ih =>
    have here := dense c List.mem_cons_self
    have later := @ih (read ++ [c]) (fun d member => dense d (List.mem_cons_of_mem _ member))
    simp only [List.cons_append,wordsFrom,here]
    rw [List.append_assoc] at later
    exact later

theorem words_join {list : List (List Char)} (all : ∀ word ∈ list, Word word) : words (join list) = list := by
  induction list with
  | nil => rfl
  | cons word rest ih =>
    have here := all word List.mem_cons_self
    have tail := ih (fun other member => all other (List.mem_cons_of_mem _ member))
    cases rest with
    | nil =>
      have alone : join [word] = word ++ [] := by simp [join,List.intercalate]
      rw [words,alone,wordsFrom_append here.dense]
      simp [wordsFrom,here.some_]
    | cons next more =>
      have split : join (word :: next :: more) = word ++ ' ' :: join (next :: more) := by
        simp [join,List.intercalate]
      have blank : isWhitespace ' ' = true := by decide
      rw [words,split,wordsFrom_append here.dense]
      simp only [List.nil_append,wordsFrom,blank,if_true,if_neg here.some_]
      exact congrArg (word :: ·) tail

end MemWal.Library.Text
