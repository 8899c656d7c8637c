import Mathlib.Data.List.Nodup
import Mathlib.Algebra.BigOperators.Group.List.Basic
import Mathlib.Algebra.Ring.Nat

namespace MemWal.Library

-- A finite keyed table. The key column is unique by construction, so a table
-- with a duplicated primary key or a reused object id cannot be built.
structure Store (κ ν : Type) where
  entries : List (κ × ν)
  unique : (entries.map Prod.fst).Nodup
  deriving DecidableEq

namespace Store
variable {κ ν : Type} [DecidableEq κ]

def empty : Store κ ν := ⟨[],List.nodup_nil⟩

def keys (s : Store κ ν) : List κ := s.entries.map Prod.fst

def get? (s : Store κ ν) (k : κ) : Option ν :=
  (s.entries.find? (fun e => e.1 = k)).map Prod.snd

-- Membership is the one reading of a table; every other law goes through it.
theorem get?_eq_some {s : Store κ ν} {k : κ} {v : ν} :
    s.get? k = some v ↔ (k,v) ∈ s.entries := by
  obtain ⟨entries,unique⟩ := s
  simp only [get?]
  induction entries with
  | nil => simp only [List.find?_nil,Option.map_none,reduceCtorEq,List.not_mem_nil]
  | cons head tail ih =>
    obtain ⟨j,u⟩ := head
    simp only [List.map_cons,List.nodup_cons] at unique
    have rest := ih unique.2
    by_cases same : j = k
    · subst j
      have absent : (k,v) ∉ tail := fun present =>
        unique.1 (List.mem_map.mpr ⟨_,present,rfl⟩)
      simp only [List.find?_cons_of_pos,decide_true,Option.map_some,Option.some.injEq,List.mem_cons,Prod.mk.injEq,true_and,
        absent,or_false,eq_comm]
    · have differs : (k,v) ≠ (j,u) := fun equal => same (congrArg Prod.fst equal).symm
      simpa only [List.find?_cons_of_neg,same,decide_false,Bool.false_eq_true,not_false_eq_true,Option.map_eq_some_iff,
        Prod.exists,exists_eq_right,List.mem_cons,differs,false_or] using rest

theorem get?_eq_none {s : Store κ ν} {k : κ} : s.get? k = none ↔ k ∉ s.keys := by
  constructor
  · intro missing present
    obtain ⟨⟨j,v⟩,member,rfl⟩ := List.mem_map.mp present
    rw [get?_eq_some.mpr member] at missing
    cases missing
  · intro absent
    cases found : s.get? k with
    | none => rfl
    | some v => exact absurd (List.mem_map.mpr ⟨_,get?_eq_some.mp found,rfl⟩) absent

@[simp] theorem get?_empty (k : κ) : (empty : Store κ ν).get? k = none := rfl

omit [DecidableEq κ] in
theorem append_unique {s : Store κ ν} {k : κ} (v : ν) (fresh : k ∉ s.keys) :
    ((s.entries ++ [(k,v)]).map Prod.fst).Nodup := by
  rw [List.map_append,List.nodup_append]
  refine ⟨s.unique,by simp,?_⟩
  intro j old l new equal
  simp only [List.map_cons,List.map_nil,List.mem_singleton] at new
  exact fresh (new ▸ equal ▸ old)

-- Insertion leaves an existing key alone (`ON CONFLICT DO NOTHING`).
def insert (s : Store κ ν) (k : κ) (v : ν) : Store κ ν :=
  if fresh : k ∉ s.keys then ⟨s.entries ++ [(k,v)],append_unique v fresh⟩ else s

theorem get?_insert {s : Store κ ν} {k : κ} (v : ν) (fresh : s.get? k = none) (j : κ) :
    (s.insert k v).get? j = if j = k then some v else s.get? j := by
  have absent : k ∉ s.keys := get?_eq_none.mp fresh
  ext u
  rw [get?_eq_some,insert,dif_pos absent]
  simp only [List.mem_append,List.mem_singleton,Prod.mk.injEq]
  by_cases same : j = k
  · subst j
    have none : (k,u) ∉ s.entries := fun old => absent (List.mem_map.mpr ⟨_,old,rfl⟩)
    simp [none,eq_comm]
  · simp [same,get?_eq_some]

theorem insert_present {s : Store κ ν} {k : κ} {u : ν} (v : ν) (found : s.get? k = some u) :
    s.insert k v = s := by
  have present : k ∈ s.keys := List.mem_map.mpr ⟨_,get?_eq_some.mp found,rfl⟩
  simp [insert,present]

-- Every row may change, no key does.
def map (s : Store κ ν) (f : κ → ν → ν) : Store κ ν :=
  ⟨s.entries.map (fun e => (e.1,f e.1 e.2)),by
    simpa [List.map_map,Function.comp_def] using s.unique⟩

@[simp] theorem get?_map (s : Store κ ν) (f : κ → ν → ν) (k : κ) :
    (s.map f).get? k = (s.get? k).map (f k) := by
  ext v
  rw [get?_eq_some,Option.map_eq_some_iff]
  simp only [map,List.mem_map,Prod.mk.injEq,Prod.exists]
  constructor
  · intro given
    obtain ⟨j,u,member,rfl,rfl⟩ := given
    exact ⟨u,get?_eq_some.mpr member,rfl⟩
  · intro given
    obtain ⟨u,found,rfl⟩ := given
    exact ⟨k,u,get?_eq_some.mp found,rfl,rfl⟩

def modify (s : Store κ ν) (k : κ) (f : ν → ν) : Store κ ν :=
  s.map (fun j v => if j = k then f v else v)

def put (s : Store κ ν) (k : κ) (v : ν) : Store κ ν := s.modify k (fun _ => v)

theorem get?_put {s : Store κ ν} {k : κ} {u : ν} (found : s.get? k = some u) (v : ν) (j : κ) :
    (s.put k v).get? j = if j = k then some v else s.get? j := by
  by_cases same : j = k
  · subst j; simp [put,modify,found]
  · cases other : s.get? j <;> simp [put,modify,same,other]

theorem put_absent {s : Store κ ν} {k : κ} (missing : s.get? k = none) (v : ν) : s.put k v = s := by
  obtain ⟨entries,unique⟩ := s
  simp only [put,modify,map,mk.injEq]
  conv_rhs => rw [← List.map_id entries]
  refine List.map_congr_left ?_
  intro entry present
  have other : entry.1 ≠ k := by
    intro same
    exact get?_eq_none.mp missing (same ▸ List.mem_map_of_mem present)
  simp [other]

theorem put_same {s : Store κ ν} {k : κ} {v : ν} (found : s.get? k = some v) : s.put k v = s := by
  obtain ⟨entries,unique⟩ := s
  simp only [put,modify,map,mk.injEq]
  conv_rhs => rw [← List.map_id entries]
  refine List.map_congr_left ?_
  rintro ⟨j,u⟩ member
  by_cases same : j = k
  · subst j
    have equal : some u = some v := (get?_eq_some.mpr member).symm.trans found
    simpa using equal.symm
  · simp [same]

theorem put_put (s : Store κ ν) (k : κ) (u v : ν) : (s.put k u).put k v = s.put k v := by
  obtain ⟨entries,unique⟩ := s
  simp only [put,modify,map,mk.injEq,List.map_map]
  refine List.map_congr_left ?_
  intro entry _
  by_cases same : entry.1 = k <;> simp [same]

def erase (s : Store κ ν) (k : κ) : Store κ ν :=
  ⟨s.entries.filter (fun e => e.1 ≠ k),List.Nodup.sublist (List.filter_sublist.map Prod.fst) s.unique⟩

theorem get?_erase (s : Store κ ν) (k j : κ) :
    (s.erase k).get? j = if j = k then none else s.get? j := by
  ext v
  rw [get?_eq_some]
  simp only [erase,List.mem_filter,decide_not]
  by_cases same : j = k
  · simp [same]
  · simp [same,get?_eq_some]

theorem erase_absent {s : Store κ ν} {k : κ} (missing : s.get? k = none) : s.erase k = s := by
  obtain ⟨entries,unique⟩ := s
  simp only [erase,mk.injEq,List.filter_eq_self,decide_eq_true_eq]
  intro entry present same
  exact get?_eq_none.mp missing (same ▸ List.mem_map_of_mem present)

-- `DELETE ... WHERE NOT p`.
def keep (s : Store κ ν) (p : κ → ν → Bool) : Store κ ν :=
  ⟨s.entries.filter (fun e => p e.1 e.2),List.Nodup.sublist (List.filter_sublist.map Prod.fst) s.unique⟩

theorem get?_keep {s : Store κ ν} {p : κ → ν → Bool} {k : κ} {v : ν} :
    (s.keep p).get? k = some v ↔ s.get? k = some v ∧ p k v = true := by
  rw [get?_eq_some,get?_eq_some]
  simp [keep]

-- Column sums. A counter kept beside a table is compared with one of these.
def total (s : Store κ ν) (f : κ → ν → Nat) : Nat := (s.entries.map (fun e => f e.1 e.2)).sum

theorem total_insert {s : Store κ ν} {k : κ} (v : ν) (fresh : s.get? k = none) (f : κ → ν → Nat) :
    (s.insert k v).total f = s.total f + f k v := by
  simp [total,insert,get?_eq_none.mp fresh]

theorem total_put {s : Store κ ν} {k : κ} {u : ν} (found : s.get? k = some u) (v : ν)
    (f : κ → ν → Nat) : (s.put k v).total f + f k u = s.total f + f k v := by
  have member := get?_eq_some.mp found
  obtain ⟨before,after,split⟩ := List.append_of_mem member
  have unique := s.unique
  rw [split,List.map_append,List.map_cons,List.nodup_append] at unique
  obtain ⟨_,tail,apart⟩ := unique
  have keep : ∀ part : List (κ × ν), (∀ e ∈ part, e.1 ≠ k) →
      (part.map (fun e => f e.1 (if e.1 = k then v else e.2))).sum =
        (part.map (fun e => f e.1 e.2)).sum := by
    intro part other
    refine congrArg List.sum (List.map_congr_left ?_)
    intro e present
    simp [other e present]
  have left := keep before (fun e present equal =>
    apart e.1 (List.mem_map.mpr ⟨e,present,rfl⟩) k (by simp) equal)
  have right := keep after (fun e present equal =>
    (List.nodup_cons.mp tail).1 (List.mem_map.mpr ⟨e,present,equal⟩))
  simp only [total,put,modify,map,List.map_map,Function.comp_def,split,List.map_append,List.map_cons,
    List.sum_append,List.sum_cons,left,right]
  simp only [↓reduceIte]
  omega

theorem total_erase {s : Store κ ν} {k : κ} {v : ν} (found : s.get? k = some v) (f : κ → ν → Nat) :
    (s.erase k).total f + f k v = s.total f := by
  obtain ⟨before,after,split⟩ := List.append_of_mem (get?_eq_some.mp found)
  have unique := s.unique
  rw [split,List.map_append,List.map_cons,List.nodup_append] at unique
  obtain ⟨_,tail,apart⟩ := unique
  have left : before.filter (fun e => e.1 ≠ k) = before := by
    rw [List.filter_eq_self]
    intro e present
    simpa using apart e.1 (List.mem_map.mpr ⟨e,present,rfl⟩) k (by simp)
  have right : after.filter (fun e => e.1 ≠ k) = after := by
    rw [List.filter_eq_self]
    intro e present
    have differs : e.1 ≠ k := fun same => (List.nodup_cons.mp tail).1 (List.mem_map.mpr ⟨e,present,same⟩)
    simpa using differs
  simp only [total,erase,split,List.filter_append,List.filter_cons,left,right,List.map_append,List.map_cons,
    List.sum_append,List.sum_cons]
  simp
  omega

theorem total_congr {s : Store κ ν} {f g : κ → ν → Nat} (same : ∀ k v, s.get? k = some v → f k v = g k v) :
    s.total f = s.total g := by
  refine congrArg List.sum (List.map_congr_left ?_)
  intro e member
  exact same e.1 e.2 (get?_eq_some.mpr member)

-- `SELECT key ... WHERE p`, with `count` its row count.
def keysWhere (s : Store κ ν) (p : κ → ν → Bool) : List κ :=
  (s.entries.filter (fun e => p e.1 e.2)).map Prod.fst

def count (s : Store κ ν) (p : κ → ν → Bool) : Nat := (s.keysWhere p).length

omit [DecidableEq κ] in
theorem count_eq_total (s : Store κ ν) (p : κ → ν → Bool) :
    s.count p = s.total (fun k v => if p k v then 1 else 0) := by
  obtain ⟨entries,_⟩ := s
  simp only [count,keysWhere,total,List.length_map]
  induction entries with
  | nil => rfl
  | cons head tail ih =>
    rename_i unique
    have rest := ih (List.nodup_cons.mp unique).2
    by_cases holds : p head.1 head.2
    · simp [holds,rest,Nat.add_comm]
    · simp [holds,rest]

theorem count_insert {s : Store κ ν} {k : κ} (v : ν) (fresh : s.get? k = none) (p : κ → ν → Bool) :
    (s.insert k v).count p = s.count p + if p k v then 1 else 0 := by
  rw [count_eq_total,count_eq_total,total_insert v fresh]

omit [DecidableEq κ] in
theorem count_keep (s : Store κ ν) (p q : κ → ν → Bool) :
    (s.keep p).count q = s.count (fun k v => p k v && q k v) := by
  simp [count,keysWhere,keep,List.filter_filter,Bool.and_comm]

theorem mem_keysWhere {s : Store κ ν} {p : κ → ν → Bool} {k : κ} :
    k ∈ s.keysWhere p ↔ ∃ v, s.get? k = some v ∧ p k v = true := by
  simp only [keysWhere,List.mem_map,List.mem_filter,Prod.exists,get?_eq_some]
  constructor
  · rintro ⟨j,v,⟨member,holds⟩,rfl⟩; exact ⟨v,member,holds⟩
  · rintro ⟨v,member,holds⟩; exact ⟨k,v,⟨member,holds⟩,rfl⟩

omit [DecidableEq κ] in
theorem keysWhere_nodup (s : Store κ ν) (p : κ → ν → Bool) : (s.keysWhere p).Nodup :=
  List.Nodup.sublist (List.filter_sublist.map Prod.fst) s.unique

-- `UPDATE ... SET f WHERE p`; the number of rows it affects is `count p`.
def update (s : Store κ ν) (p : κ → ν → Bool) (f : κ → ν → ν) : Store κ ν :=
  s.map (fun k v => if p k v then f k v else v)

@[simp] theorem get?_update (s : Store κ ν) (p : κ → ν → Bool) (f : κ → ν → ν) (k : κ) :
    (s.update p f).get? k = (s.get? k).map (fun v => if p k v then f k v else v) := get?_map s _ k

section Counting
variable {s : Store κ ν} {p : κ → ν → Bool}

theorem count_pos {k : κ} {v : ν} (found : s.get? k = some v) (holds : p k v = true) : 0 < s.count p :=
  List.length_pos_of_mem (mem_keysWhere.mpr ⟨v,found,holds⟩)

theorem count_congr {q : κ → ν → Bool} (same : ∀ k v, s.get? k = some v → p k v = q k v) : s.count p = s.count q := by
  have kept : s.entries.filter (fun e => p e.1 e.2) = s.entries.filter (fun e => q e.1 e.2) := by
    refine List.filter_congr ?_
    intro e member
    exact same e.1 e.2 (get?_eq_some.mpr member)
  rw [count,keysWhere,kept,count,keysWhere]

-- What a count counts decides it, whatever else the stores hold.
theorem count_agree {t : Store κ ν} (same : ∀ k v, p k v = true → (s.get? k = some v ↔ t.get? k = some v)) :
    s.count p = t.count p := by
  have perm : (s.keysWhere p).Perm (t.keysWhere p) := by
    apply (List.perm_ext_iff_of_nodup (keysWhere_nodup s p) (keysWhere_nodup t p)).mpr
    intro k
    rw [mem_keysWhere,mem_keysWhere]
    apply exists_congr
    intro v
    constructor
    · intro found
      exact ⟨(same k v found.2).mp found.1,found.2⟩
    · intro found
      exact ⟨(same k v found.2).mpr found.1,found.2⟩
  exact perm.length_eq

theorem exists_of_count (some_ : s.count p ≠ 0) : ∃ k v, s.get? k = some v ∧ p k v = true := by
  obtain ⟨k,member⟩ := List.exists_mem_of_length_pos (Nat.pos_of_ne_zero some_)
  obtain ⟨v,found,holds⟩ := mem_keysWhere.mp member
  exact ⟨k,v,found,holds⟩

-- An UPDATE whose predicate names one key and holds there is a put.
theorem count_eq_one {k : κ} {v : ν} (found : s.get? k = some v) (holds : p k v = true)
    (only : ∀ j u, p j u = true → j = k) : s.count p = 1 := by
  have within : s.keysWhere p ⊆ [k] := by
    intro j member
    obtain ⟨u,_,matched⟩ := mem_keysWhere.mp member
    rw [only j u matched]
    exact List.mem_singleton_self k
  have most := (List.subperm_of_subset (keysWhere_nodup s p) within).length_le
  have least := count_pos found holds
  unfold count at least ⊢
  simp only [List.length_singleton] at most
  omega

section Images
variable {β : Type} {f : κ → β} {listed : List β}

-- Matching rows whose images are distinct and listed are no more than the list is long.
theorem images_listed (within : ∀ k v, s.get? k = some v → p k v = true → f k ∈ listed)
    (distinct : ∀ j u k v, s.get? j = some u → p j u = true → s.get? k = some v → p k v = true → f j = f k → j = k) :
    ((s.keysWhere p).map f).Subperm listed := by
  have nodup : ((s.keysWhere p).map f).Nodup := by
    refine (keysWhere_nodup s p).map_on ?_
    intro j one k two same
    obtain ⟨u,first,holds⟩ := mem_keysWhere.mp one
    obtain ⟨v,second,holds'⟩ := mem_keysWhere.mp two
    exact distinct j u k v first holds second holds' same
  have among : (s.keysWhere p).map f ⊆ listed := by
    intro c image
    obtain ⟨k,here,rfl⟩ := List.mem_map.mp image
    obtain ⟨v,found,holds⟩ := mem_keysWhere.mp here
    exact within k v found holds
  exact List.subperm_of_subset nodup among

-- As many as the list is long are all of it.
theorem count_covers (within : ∀ k v, s.get? k = some v → p k v = true → f k ∈ listed)
    (distinct : ∀ j u k v, s.get? j = some u → p j u = true → s.get? k = some v → p k v = true → f j = f k → j = k)
    (counted : s.count p = listed.length) {b : β} (member : b ∈ listed) :
    ∃ k v, s.get? k = some v ∧ p k v = true ∧ f k = b := by
  have enough : listed.length ≤ ((s.keysWhere p).map f).length := by
    rw [List.length_map]
    exact Nat.le_of_eq counted.symm
  have all := (images_listed within distinct).perm_of_length_le enough
  obtain ⟨k,here,same⟩ := List.mem_map.mp (all.mem_iff.mpr member)
  obtain ⟨v,found,holds⟩ := mem_keysWhere.mp here
  exact ⟨k,v,found,holds,same⟩

end Images

theorem update_eq_put {k : κ} {v : ν} {f : κ → ν → ν} (found : s.get? k = some v) (holds : p k v = true)
    (only : ∀ j u, p j u = true → j = k) : s.update p f = s.put k (f k v) := by
  obtain ⟨entries,unique⟩ := s
  simp only [update,put,modify,map,mk.injEq]
  refine List.map_congr_left ?_
  intro e member
  by_cases same : e.1 = k
  · have equal : e = (k,v) := by
      have stored := get?_eq_some (s:=⟨entries,unique⟩).mpr (show (k,e.2) ∈ entries by rw [← same]; exact member)
      rw [found] at stored
      cases stored
      exact Prod.ext same rfl
    subst equal
    simp [holds]
  · have off : p e.1 e.2 = false := by
      cases value : p e.1 e.2 with
      | false => rfl
      | true => exact absurd (only _ _ value) same
    simp [same,off]

theorem update_unmatched {f : κ → ν → ν} (none_ : s.count p = 0) : s.update p f = s := by
  obtain ⟨entries,unique⟩ := s
  simp only [update,map,mk.injEq]
  conv_rhs => rw [← List.map_id entries]
  refine List.map_congr_left ?_
  intro e member
  have off : p e.1 e.2 = false := by
    cases value : p e.1 e.2 with
    | false => rfl
    | true =>
      have some_ := count_pos (get?_eq_some (s:=⟨entries,unique⟩).mpr member) value
      omega
  simp [off]

end Counting

-- `INSERT ... ON CONFLICT DO UPDATE`.
def upsert (s : Store κ ν) (k : κ) (v : ν) : Store κ ν :=
  if (s.get? k).isSome then s.put k v else s.insert k v

@[simp] theorem get?_upsert (s : Store κ ν) (k : κ) (v : ν) (j : κ) :
    (s.upsert k v).get? j = if j = k then some v else s.get? j := by
  unfold upsert
  cases found : s.get? k with
  | none => simpa using get?_insert v found j
  | some u => simpa using get?_put found v j

def insertAll (s : Store κ ν) (rows : List (κ × ν)) : Store κ ν :=
  rows.foldl (fun s row => s.insert row.1 row.2) s

theorem get?_insertAll {s : Store κ ν} {rows : List (κ × ν)} (distinct : (rows.map Prod.fst).Nodup)
    (fresh : ∀ row ∈ rows, s.get? row.1 = none) {k : κ} {v : ν} :
    (s.insertAll rows).get? k = some v ↔ s.get? k = some v ∨ (k,v) ∈ rows := by
  induction rows generalizing s with
  | nil => simp [insertAll]
  | cons head tail ih =>
    obtain ⟨j,u⟩ := head
    rw [List.map_cons,List.nodup_cons] at distinct
    have free := fresh (j,u) List.mem_cons_self
    have lookup := get?_insert u free
    have later : ∀ row ∈ tail, (s.insert j u).get? row.1 = none := by
      intro row member
      have differs : row.1 ≠ j := fun equal => distinct.1 (equal ▸ List.mem_map.mpr ⟨row,member,rfl⟩)
      rw [lookup,if_neg differs]
      exact fresh row (List.mem_cons_of_mem _ member)
    change ((s.insert j u).insertAll tail).get? k = some v ↔ _
    rw [ih distinct.2 later,lookup,List.mem_cons,Prod.mk.injEq]
    by_cases same : k = j
    · subst same
      simp [free,eq_comm]
    · simp [same]

theorem total_insertAll {s : Store κ ν} {rows : List (κ × ν)} (distinct : (rows.map Prod.fst).Nodup)
    (fresh : ∀ row ∈ rows, s.get? row.1 = none) (f : κ → ν → Nat) :
    (s.insertAll rows).total f = s.total f + (rows.map (fun row => f row.1 row.2)).sum := by
  induction rows generalizing s with
  | nil => simp [insertAll]
  | cons head tail ih =>
    rw [List.map_cons,List.nodup_cons] at distinct
    have later : ∀ row ∈ tail, (s.insert head.1 head.2).get? row.1 = none := by
      intro row member
      have differs : row.1 ≠ head.1 := fun equal => distinct.1 (equal ▸ List.mem_map.mpr ⟨row,member,rfl⟩)
      rw [get?_insert head.2 (fresh head List.mem_cons_self),if_neg differs]
      exact fresh row (List.mem_cons_of_mem _ member)
    change ((s.insert head.1 head.2).insertAll tail).total f = _
    rw [ih distinct.2 later,total_insert head.2 (fresh head List.mem_cons_self),List.map_cons,List.sum_cons,Nat.add_assoc]

theorem total_upsert_le (s : Store κ ν) (k : κ) (v : ν) (f : κ → ν → Nat) :
    (s.upsert k v).total f ≤ s.total f + f k v := by
  unfold upsert
  cases found : s.get? k with
  | none => exact Nat.le_of_eq (total_insert v found f)
  | some u =>
    have same := total_put found v f
    simp only [Option.isSome_some,if_true]
    omega

theorem total_erase_le (s : Store κ ν) (k : κ) (f : κ → ν → Nat) : (s.erase k).total f ≤ s.total f := by
  cases found : s.get? k with
  | none => rw [erase_absent found]
  | some v =>
    have same := total_erase found f
    omega

end Store
end MemWal.Library
