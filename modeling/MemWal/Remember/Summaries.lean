import MemWal.Library.Utf8
import MemWal.Library.Text

namespace MemWal.Remember.Summaries
open Library Utf8 Text

-- The end of the next chunk: the last boundary within the limit, or that of the
-- first character where it alone is over the limit.
def chunkEnd (rest : List Char) (maxBytes : Nat) : Nat :=
  let stop := floorBoundary rest maxBytes
  if stop = 0 then (((charIndices rest)[1]?).map Prod.fst).getD (size rest) else stop

theorem chunkEnd_spec {rest : List Char} (maxBytes : Nat) (some_ : rest ≠ []) :
    ∃ chunk later, splitAt rest (chunkEnd rest maxBytes) = some (chunk,later) ∧ rest = chunk ++ later ∧ chunk ≠ [] ∧
      (size chunk ≤ maxBytes ∨ ∃ c, chunk = [c]) := by
  by_cases stuck : floorBoundary rest maxBytes = 0
  · obtain ⟨c,tail,rfl⟩ := List.exists_cons_of_ne_nil some_
    have stop : chunkEnd (c :: tail) maxBytes = size [c] := by
      rw [chunkEnd]
      simp only [stuck,if_true]
      exact second_start c tail
    refine ⟨[c],tail,?_,rfl,List.cons_ne_nil _ _,.inr ⟨c,rfl⟩⟩
    rw [stop]
    exact splitAt_append [c] tail
  · obtain ⟨chunk,later,whole,length⟩ := isCharBoundary_iff.mp (floorBoundary_boundary rest maxBytes)
    have stop : chunkEnd rest maxBytes = size chunk := by
      rw [chunkEnd,length]
      simp only [stuck,if_false]
    refine ⟨chunk,later,?_,whole,?_,?_⟩
    · rw [stop]
      conv_lhs => rw [whole]
      exact splitAt_append chunk later
    · intro empty
      rw [empty] at length
      exact stuck length.symm
    · left
      rw [length]
      exact floorBoundary_le rest maxBytes

theorem nonempty_of_long {maxBytes : Nat} {rest : List Char} (long : size rest > maxBytes) : rest ≠ [] := by
  intro empty
  rw [empty] at long
  exact absurd long (Nat.not_lt_zero _)

theorem later_shorter {maxBytes : Nat} {rest chunk later : List Char} (long : size rest > maxBytes)
    (cut : splitAt rest (chunkEnd rest maxBytes) = some (chunk,later)) : later.length < rest.length := by
  obtain ⟨first,last,found,whole,filled,_⟩ := chunkEnd_spec maxBytes (nonempty_of_long long)
  rw [cut] at found
  cases found
  rw [whole,List.length_append]
  exact Nat.lt_add_of_pos_left (List.length_pos_of_ne_nil filled)

-- A slice that does not end at a boundary panics, here `none`.
def splitFrom (maxBytes : Nat) (rest : List Char) : Option (List (List Char)) :=
  if long : size rest > maxBytes then
    match cut : splitAt rest (chunkEnd rest maxBytes) with
    | none => none
    | some (chunk,later) =>
      have := later_shorter long cut
      (splitFrom maxBytes later).map (fun chunks => chunk :: chunks)
  else if rest = [] then some []
  else some [rest]
termination_by rest.length

def splitTextChunks (text : String) (maxBytes : Nat) : Option (List String) :=
  if 0 < maxBytes then (splitFrom maxBytes text.toList).map (fun chunks => chunks.map String.ofList) else none

def entry (idx : Nat) (summary : String) : List Char :=
  ("Summary " ++ toString (idx + 1) ++ ":\n" ++ summary ++ "\n\n").toList

structure Batching where
  batches : List (List Char)
  current : List Char

def Batching.flush (s : Batching) : Batching := ⟨s.batches ++ [trimEnd s.current],[]⟩

def Batching.add (maxBytes : Nat) (s : Batching) (entry : List Char) : Option Batching :=
  let s := if s.current ≠ [] ∧ size s.current + size entry > maxBytes then s.flush else s
  if size entry > maxBytes then
    (splitFrom maxBytes entry).map (fun chunks => {s with batches := s.batches ++ chunks.map trimEnd})
  else some {s with current := s.current ++ entry}

def batchEntries (maxBytes : Nat) (entries : List (List Char)) : Option (List (List Char)) :=
  (entries.foldlM (Batching.add maxBytes) ⟨[],[]⟩).map
    (fun s => if s.current ≠ [] then s.flush.batches else s.batches)

def entries (summaries : List String) : List (List Char) := summaries.zipIdx.map (fun e => entry e.2 e.1)

def batchSummaryInputs (summaries : List String) (maxBytes : Nat) : Option (List String) :=
  if 0 < maxBytes then (batchEntries maxBytes (entries summaries)).map (fun batches => batches.map String.ofList)
  else none

-- Within the limit, or one character that no chunk could hold otherwise.
def Fits (maxBytes : Nat) (text : List Char) : Prop := size text ≤ maxBytes ∨ ∃ c, text = [c]

section Chunks
variable {maxBytes : Nat}

theorem splitFrom_spec (maxBytes : Nat) (rest : List Char) : ∃ chunks, splitFrom maxBytes rest = some chunks ∧
    chunks.flatten = rest ∧ ∀ chunk ∈ chunks, chunk ≠ [] ∧ Fits maxBytes chunk := by
  induction rest using splitFrom.induct maxBytes with
  | case1 rest long cut =>
    obtain ⟨chunk,later,found,_⟩ := chunkEnd_spec maxBytes (nonempty_of_long long)
    rw [cut] at found
    cases found
  | case2 rest long chunk later cut _ ih =>
    obtain ⟨first,last,found,whole,filled,fits⟩ := chunkEnd_spec maxBytes (nonempty_of_long long)
    rw [cut] at found
    cases found
    obtain ⟨chunks,split,joined,all⟩ := ih
    refine ⟨chunk :: chunks,?_,?_,?_⟩
    · rw [splitFrom,dif_pos long]
      split
      · rename_i other
        rw [cut] at other
        cases other
      · rename_i other
        rw [cut] at other
        cases other
        rw [split]
        rfl
    · rw [List.flatten_cons,joined,← whole]
    · intro part member
      rcases List.mem_cons.mp member with rfl | old
      · exact ⟨filled,fits⟩
      · exact all part old
  | case3 short =>
    refine ⟨[],?_,rfl,nofun⟩
    rw [splitFrom,dif_neg short,if_pos rfl]
  | case4 rest short filled =>
    refine ⟨[rest],?_,by simp,?_⟩
    · rw [splitFrom,dif_neg short,if_neg filled]
    · intro part member
      cases List.mem_singleton.mp member
      exact ⟨filled,.inl (Nat.not_lt.mp short)⟩

theorem trimEnd_fits {text : List Char} (fits : Fits maxBytes text) : Fits maxBytes (trimEnd text) := by
  obtain ⟨blank,whole,_⟩ := trimEnd_append text
  rcases fits with short | ⟨c,rfl⟩
  · left
    rw [whole,size_append] at short
    exact (Nat.le_add_right _ _).trans short
  · cases kept : trimEnd [c] with
    | nil => exact .inl (Nat.zero_le _)
    | cons d rest =>
      rw [kept,List.cons_append] at whole
      have none := (List.cons.inj whole).2
      rw [(List.append_eq_nil_iff.mp none.symm).1]
      exact .inr ⟨d,rfl⟩

end Chunks

-- Where the batching stands after the entries it has seen.
structure Batched (maxBytes : Nat) (s : Batching) (seen : List Char) : Prop where
  content : dense (s.batches.flatten ++ s.current) = dense seen
  fits : ∀ batch ∈ s.batches, Fits maxBytes batch
  room : size s.current ≤ maxBytes

section Batches
variable {maxBytes : Nat} {s : Batching} {seen entry : List Char}

theorem flush_batched (batched : Batched maxBytes s seen) : Batched maxBytes s.flush seen := by
  refine ⟨?_,?_,Nat.zero_le _⟩
  · simpa [Batching.flush] using batched.content
  · intro batch member
    rcases List.mem_append.mp member with old | new
    · exact batched.fits batch old
    · cases List.mem_singleton.mp new
      exact trimEnd_fits (.inl batched.room)

theorem dense_trimmed (chunks : List (List Char)) : dense (chunks.map trimEnd).flatten = dense chunks.flatten := by
  induction chunks with
  | nil => rfl
  | cons chunk rest ih => simp [ih]

-- What is left open when an entry comes is empty or has room for it.
theorem flushed_for (batched : Batched maxBytes s seen) (entry : List Char) :
    ∃ open_, (if s.current ≠ [] ∧ size s.current + size entry > maxBytes then s.flush else s) = open_ ∧
      Batched maxBytes open_ seen ∧ (open_.current = [] ∨ size open_.current + size entry ≤ maxBytes) := by
  by_cases full : s.current ≠ [] ∧ size s.current + size entry > maxBytes
  · exact ⟨s.flush,if_pos full,flush_batched batched,.inl rfl⟩
  · refine ⟨s,if_neg full,batched,?_⟩
    by_cases empty : s.current = []
    · exact .inl empty
    · exact .inr (Nat.not_lt.mp (fun larger => full ⟨empty,larger⟩))

theorem add_batched (batched : Batched maxBytes s seen) (entry : List Char) :
    ∃ next, s.add maxBytes entry = some next ∧ Batched maxBytes next (seen ++ entry) := by
  obtain ⟨open_,flushed,kept,room⟩ := flushed_for batched entry
  rw [Batching.add]
  simp only [flushed]
  by_cases long : size entry > maxBytes
  · have empty : open_.current = [] := by
      rcases room with empty | fits
      · exact empty
      · omega
    obtain ⟨chunks,split,joined,all⟩ := splitFrom_spec maxBytes entry
    refine ⟨{open_ with batches := open_.batches ++ chunks.map trimEnd},?_,?_,?_,kept.room⟩
    · rw [if_pos long,split,Option.map_some]
    · have content := kept.content
      rw [empty,List.append_nil] at content
      simp only [empty,List.append_nil,List.flatten_append,dense_append,dense_trimmed,joined,content]
    · intro batch member
      rcases List.mem_append.mp member with old | new
      · exact kept.fits batch old
      · obtain ⟨chunk,part,rfl⟩ := List.mem_map.mp new
        exact trimEnd_fits (all chunk part).2
  · refine ⟨{open_ with current := open_.current ++ entry},if_neg long,?_,kept.fits,?_⟩
    · rw [← List.append_assoc,dense_append,kept.content,dense_append]
    · rw [size_append]
      rcases room with empty | fits
      · rw [empty,size_nil]
        omega
      · exact fits

theorem batched_entries (batched : Batched maxBytes s seen) (entries : List (List Char)) :
    ∃ last, entries.foldlM (Batching.add maxBytes) s = some last ∧ Batched maxBytes last (seen ++ entries.flatten) := by
  induction entries generalizing s seen with
  | nil => exact ⟨s,rfl,by simpa using batched⟩
  | cons entry rest ih =>
    obtain ⟨next,added,after⟩ := add_batched batched entry
    obtain ⟨last,run,done⟩ := ih after
    refine ⟨last,?_,?_⟩
    · rw [List.foldlM_cons,added]
      exact run
    · simpa using done

theorem batchEntries_spec (maxBytes : Nat) (entries : List (List Char)) : ∃ batches,
    batchEntries maxBytes entries = some batches ∧ dense batches.flatten = dense entries.flatten ∧
      ∀ batch ∈ batches, Fits maxBytes batch := by
  have start : Batched maxBytes ⟨[],[]⟩ [] := ⟨rfl,nofun,Nat.zero_le _⟩
  obtain ⟨last,run,done⟩ := batched_entries start entries
  by_cases open_ : last.current ≠ []
  · have flushed := flush_batched done
    refine ⟨last.flush.batches,?_,?_,flushed.fits⟩
    · rw [batchEntries,run,Option.map_some,if_pos open_]
    · simpa [Batching.flush] using flushed.content
  · refine ⟨last.batches,?_,?_,done.fits⟩
    · rw [batchEntries,run,Option.map_some,if_neg open_]
    · simpa [not_not.mp open_] using done.content

end Batches

theorem ofList_join (parts : List (List Char)) : String.join (parts.map String.ofList) = String.ofList parts.flatten := by
  have pushed : ∀ front : String, (parts.map String.ofList).foldl (fun a b => a ++ b) front =
      front ++ String.ofList parts.flatten := by
    induction parts with
    | nil => simp
    | cons part rest ih =>
      intro front
      rw [List.map_cons,List.foldl_cons,ih,List.flatten_cons,String.ofList_append,String.append_assoc]
  exact (pushed "").trans (String.empty_append)

def withoutWhitespace (text : String) : String := String.ofList (dense text.toList)

def Short (maxBytes : Nat) (text : String) : Prop := text.utf8ByteSize ≤ maxBytes ∨ ∃ c, text = String.singleton c

theorem short_of_fits {maxBytes : Nat} {text : List Char} (fits : Fits maxBytes text) :
    Short maxBytes (String.ofList text) := by
  rcases fits with short | ⟨c,rfl⟩
  · left
    rw [size_ofList]
    exact short
  · exact .inr ⟨c,String.singleton_eq_ofList.symm⟩

theorem chunking_loses_nothing {maxBytes : Nat} (positive : 0 < maxBytes) :
    (∀ text, ∃ chunks, splitTextChunks text maxBytes = some chunks ∧ String.join chunks = text ∧
      (∀ front back, chunks = front ++ back → String.Pos.Raw.IsValid text ⟨(String.join front).utf8ByteSize⟩) ∧
      ∀ chunk ∈ chunks, chunk ≠ "" ∧ Short maxBytes chunk) ∧
    ∀ summaries, ∃ batches, batchSummaryInputs summaries maxBytes = some batches ∧
      withoutWhitespace (String.join batches) =
        withoutWhitespace (String.join ((entries summaries).map String.ofList)) ∧
      ∀ batch ∈ batches, Short maxBytes batch := by
  constructor
  · intro text
    obtain ⟨chunks,split,joined,all⟩ := splitFrom_spec maxBytes text.toList
    refine ⟨chunks.map String.ofList,?_,?_,?_,?_⟩
    · rw [splitTextChunks,if_pos positive,split,Option.map_some]
    · rw [ofList_join,joined,String.ofList_toList]
    · intro front back parts
      obtain ⟨first,last,rfl,rfl,rfl⟩ := List.map_eq_append_iff.mp parts
      rw [ofList_join,size_ofList,← isCharBoundary_iff_isValid,isCharBoundary_iff]
      exact ⟨first.flatten,last.flatten,by rw [← joined,List.flatten_append],rfl⟩
    · intro chunk member
      obtain ⟨letters,part,rfl⟩ := List.mem_map.mp member
      obtain ⟨filled,fits⟩ := all letters part
      refine ⟨?_,short_of_fits fits⟩
      intro empty
      have none := congrArg String.toList empty
      rw [String.toList_ofList] at none
      exact filled none
  · intro summaries
    obtain ⟨batches,batched,content,all⟩ := batchEntries_spec maxBytes (entries summaries)
    refine ⟨batches.map String.ofList,?_,?_,?_⟩
    · rw [batchSummaryInputs,if_pos positive,batched,Option.map_some]
    · rw [withoutWhitespace,withoutWhitespace,ofList_join,ofList_join,String.toList_ofList,String.toList_ofList,content]
    · intro batch member
      obtain ⟨letters,part,rfl⟩ := List.mem_map.mp member
      exact short_of_fits (all letters part)

theorem two_bytes_a_chunk :
    (∃ chunks, splitTextChunks "aé日" 2 = some chunks ∧ String.join chunks = "aé日" ∧
      (∀ front back, chunks = front ++ back → String.Pos.Raw.IsValid "aé日" ⟨(String.join front).utf8ByteSize⟩) ∧
      ∀ chunk ∈ chunks, chunk ≠ "" ∧ Short 2 chunk) ∧
    ∃ batches, batchSummaryInputs ["a b","é"] 2 = some batches ∧
      withoutWhitespace (String.join batches) =
        withoutWhitespace (String.join ((entries ["a b","é"]).map String.ofList)) ∧
      ∀ batch ∈ batches, Short 2 batch :=
  ⟨(chunking_loses_nothing Nat.zero_lt_two).1 "aé日",(chunking_loses_nothing Nat.zero_lt_two).2 ["a b","é"]⟩

end MemWal.Remember.Summaries
