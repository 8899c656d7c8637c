import MemWal.Library.Fallible
import Mathlib.Data.List.Nodup
import Mathlib.Data.List.Perm.Basic

namespace MemWal.Library

-- A table of rows with two unique columns, a primary key and a UNIQUE one.
@[ext] structure Pairs (α β : Type) where
  rows : List (α × β)
  primary : (rows.map Prod.fst).Nodup
  unique : (rows.map Prod.snd).Nodup

instance {α β : Type} [DecidableEq α] [DecidableEq β] : DecidableEq (Pairs α β) :=
  fun _ _ => decidable_of_iff _ Pairs.ext_iff.symm

-- Why the database turns a bulk INSERT away: a key that another row has, or a
-- row that the command would touch for the second time.
inductive Refusal where
  | uniqueViolation
  | cardinalityViolation
  deriving DecidableEq, Repr

namespace Pairs
variable {α β : Type}

def empty : Pairs α β := ⟨[],List.nodup_nil,List.nodup_nil⟩

theorem nodup (t : Pairs α β) : t.rows.Nodup := t.primary.of_map _

theorem same_row {t : Pairs α β} {r q : α × β} (one : r ∈ t.rows) (two : q ∈ t.rows) (same : r.2 = q.2) : r = q :=
  List.inj_on_of_nodup_map t.unique one two same

theorem same_key {t : Pairs α β} {r q : α × β} (one : r ∈ t.rows) (two : q ∈ t.rows) (same : r.1 = q.1) : r = q :=
  List.inj_on_of_nodup_map t.primary one two same

-- Another row than the one `row` would land on has its primary key.
def Taken (t : Pairs α β) (row : α × β) : Prop := ∃ r ∈ t.rows, r.1 = row.1 ∧ r.2 ≠ row.2

instance [DecidableEq α] [DecidableEq β] (t : Pairs α β) (row : α × β) : Decidable (t.Taken row) :=
  inferInstanceAs (Decidable (∃ r ∈ t.rows, r.1 = row.1 ∧ r.2 ≠ row.2))

variable [DecidableEq β]

def replace (rows : List (α × β)) (row : α × β) : List (α × β) := rows.map (fun r => if r.2 = row.2 then row else r)

theorem replace_snd (rows : List (α × β)) (row : α × β) : (replace rows row).map Prod.snd = rows.map Prod.snd := by
  rw [replace,List.map_map]
  refine List.map_congr_left ?_
  intro r _
  by_cases same : r.2 = row.2 <;> simp [same]

theorem replace_primary (t : Pairs α β) {row : α × β} (free : ¬ t.Taken row) :
    ((replace t.rows row).map Prod.fst).Nodup := by
  rw [replace,List.map_map]
  refine List.Nodup.map_on ?_ t.nodup
  intro r here q there equal
  by_cases left : r.2 = row.2 <;> by_cases right : q.2 = row.2
  · exact same_row here there (left.trans right.symm)
  · simp only [Function.comp_apply,if_pos left,if_neg right] at equal
    exact absurd ⟨q,there,equal.symm,right⟩ free
  · simp only [Function.comp_apply,if_neg left,if_pos right] at equal
    exact absurd ⟨r,here,equal,left⟩ free
  · simp only [Function.comp_apply,if_neg left,if_neg right] at equal
    exact same_key here there equal

omit [DecidableEq β] in
theorem append_primary (t : Pairs α β) {row : α × β} (free : ¬ t.Taken row) (new : row.2 ∉ t.rows.map Prod.snd) :
    ((t.rows ++ [row]).map Prod.fst).Nodup := by
  rw [List.map_append,List.nodup_append]
  refine ⟨t.primary,by simp,?_⟩
  intro a old b last equal
  obtain ⟨r,here,rfl⟩ := List.mem_map.mp old
  rw [List.map_singleton,List.mem_singleton] at last
  refine free ⟨r,here,equal.trans last,?_⟩
  intro same
  exact new (List.mem_map.mpr ⟨r,here,same⟩)

omit [DecidableEq β] in
theorem append_unique (t : Pairs α β) {row : α × β} (new : row.2 ∉ t.rows.map Prod.snd) :
    ((t.rows ++ [row]).map Prod.snd).Nodup := by
  rw [List.map_append,List.nodup_append]
  refine ⟨t.unique,by simp,?_⟩
  intro a old b last equal
  rw [List.map_singleton,List.mem_singleton] at last
  exact new (last ▸ equal ▸ old)

variable [DecidableEq α]

-- `INSERT ... ON CONFLICT (second) DO UPDATE SET first = excluded.first`, for
-- one row. Only the second column is the conflict target: a clash in the
-- primary key with any other row is an error.
def upsert (t : Pairs α β) (row : α × β) : Except Refusal (Pairs α β) :=
  if free : ¬ t.Taken row then
    if new : row.2 ∉ t.rows.map Prod.snd then
      .ok ⟨t.rows ++ [row],t.append_primary free new,t.append_unique new⟩
    else .ok ⟨replace t.rows row,t.replace_primary free,(replace_snd t.rows row).symm ▸ t.unique⟩
  else .error .uniqueViolation

-- The same for many rows in one command, all or nothing.
def upsertFrom : List β → Pairs α β → List (α × β) → Except Refusal (Pairs α β)
  | _,t,[] => .ok t
  | touched,t,row :: rest =>
    if row.2 ∈ touched then .error .cardinalityViolation
    else (t.upsert row).bind (fun next => upsertFrom (row.2 :: touched) next rest)

def upsertAll (t : Pairs α β) (rows : List (α × β)) : Except Refusal (Pairs α β) := upsertFrom [] t rows

-- As long as all rows come from one table of this kind, no key is ever taken
-- and an upsert is the insertion of what is not there yet.
theorem upsert_within {whole t : Pairs α β} {row : α × β} (within : t.rows ⊆ whole.rows) (wanted : row ∈ whole.rows) :
    ∃ next, t.upsert row = .ok next ∧ ∀ r, r ∈ next.rows ↔ r ∈ t.rows ∨ r = row := by
  have free : ¬ t.Taken row := by
    intro found
    obtain ⟨r,here,key,apart⟩ := found
    exact apart (congrArg Prod.snd (same_key (within here) wanted key))
  unfold upsert
  rw [dif_pos free]
  by_cases new : row.2 ∉ t.rows.map Prod.snd
  · rw [dif_pos new]
    exact ⟨_,rfl,fun r => by simp⟩
  · rw [dif_neg new]
    refine ⟨_,rfl,?_⟩
    obtain ⟨old,here,same⟩ := List.mem_map.mp (not_not.mp new)
    have known : row ∈ t.rows := same_row (within here) wanted same ▸ here
    have kept : replace t.rows row = t.rows := by
      rw [replace]
      conv_rhs => rw [← List.map_id t.rows]
      refine List.map_congr_left ?_
      intro r member
      by_cases equal : r.2 = row.2
      · simp [same_row member known equal]
      · simp [equal]
    intro r
    change r ∈ replace t.rows row ↔ _
    rw [kept]
    constructor
    · exact .inl
    · intro found
      rcases found with there | rfl
      · exact there
      · exact known

theorem upsertFrom_within {whole : Pairs α β} {rows : List (α × β)} (wanted : rows ⊆ whole.rows)
    (distinct : (rows.map Prod.snd).Nodup) {touched : List β} (apart : ∀ r ∈ rows, r.2 ∉ touched) {t : Pairs α β}
    (within : t.rows ⊆ whole.rows) :
    ∃ next, upsertFrom touched t rows = .ok next ∧ ∀ r, r ∈ next.rows ↔ r ∈ t.rows ∨ r ∈ rows := by
  induction rows generalizing touched t with
  | nil => exact ⟨t,rfl,fun r => by simp⟩
  | cons row rest ih =>
    have here : row ∈ whole.rows := wanted List.mem_cons_self
    rw [List.map_cons,List.nodup_cons] at distinct
    obtain ⟨middle,stored,now⟩ := upsert_within within here
    have later : ∀ r ∈ rest, r.2 ∉ row.2 :: touched := by
      intro r member again
      rcases List.mem_cons.mp again with same | old
      · exact distinct.1 (List.mem_map.mpr ⟨r,member,same⟩)
      · exact apart r (List.mem_cons_of_mem _ member) old
    have inside : middle.rows ⊆ whole.rows := by
      intro r member
      rcases (now r).mp member with old | rfl
      · exact within old
      · exact here
    obtain ⟨next,others,rows_⟩ := ih (fun r member => wanted (List.mem_cons_of_mem _ member)) distinct.2 later inside
    refine ⟨next,?_,?_⟩
    · rw [upsertFrom,if_neg (apart row List.mem_cons_self),stored]
      exact others
    · intro r
      rw [rows_,now,List.mem_cons,or_assoc]

theorem upsertAll_within {whole t : Pairs α β} {rows : List (α × β)} (wanted : rows ⊆ whole.rows)
    (distinct : (rows.map Prod.snd).Nodup) (within : t.rows ⊆ whole.rows) :
    ∃ next, t.upsertAll rows = .ok next ∧ ∀ r, r ∈ next.rows ↔ r ∈ t.rows ∨ r ∈ rows :=
  upsertFrom_within wanted distinct (fun _ _ => List.not_mem_nil) within

end Pairs
end MemWal.Library
