import Mathlib.Data.List.Induction
import MemWal.Recall.Ranking

namespace MemWal.Recall
open Library Library.Arrange
variable {δ τ ι ω σ : Type}

-- The last of the hits that names the blob of `h`.
def lastNamed (hits : List (SearchHit δ τ ι)) (h : SearchHit δ τ ι) : SearchHit δ τ ι :=
  (hits.reverse.find? (fun g => g.blobId = h.blobId)).getD h

theorem byBlob_get (hits : List (SearchHit δ τ ι)) (id : Text) :
    (byBlob hits).get? id = (hits.reverse.find? (fun g => g.blobId = id)).map (fun g => (g.createdAt,g.importance)) := by
  induction hits using List.reverseRecOn with
  | nil => rfl
  | append_singleton earlier h ih =>
    rw [byBlob,List.foldl_append,List.foldl_cons,List.foldl_nil,List.reverse_append,List.reverse_singleton,
      List.singleton_append,List.find?_cons,Store.get?_upsert]
    by_cases same : id = h.blobId
    · simp [same]
    · rw [if_neg same,decide_eq_false (Ne.symm same)]
      exact ih

theorem byBlob_hit {hits : List (SearchHit δ τ ι)} {h : SearchHit δ τ ι} (member : h ∈ hits) :
    (byBlob hits).get? h.blobId = some ((lastNamed hits h).createdAt,(lastNamed hits h).importance) := by
  rw [byBlob_get,lastNamed]
  cases found : hits.reverse.find? (fun g => g.blobId = h.blobId) with
  | some g => rfl
  | none =>
    have missing := List.find?_eq_none.mp found h (List.mem_reverse.mpr member)
    exact absurd (decide_eq_true rfl) missing

theorem zipIdx_positions {γ : Type} (xs : List γ) :
    xs.zipIdx = (List.finRange xs.length).map (fun i => (xs.get i,i.val)) := by
  apply List.ext_getElem
  · simp
  · intro n low high
    simp

theorem parseUsize_toDigits (n : Nat) : parseUsize (Nat.toDigits 10 n) = some n := by
  have digits : ∀ c ∈ Nat.toDigits 10 n, c.isDigit = true :=
    fun c member => Nat.isDigit_of_mem_toDigits (by decide) (by decide) member
  have signless : (Nat.toDigits 10 n).head? ≠ some '+' := by
    intro plus
    have := digits '+' (List.mem_of_head? plus)
    cases this
  simp only [parseUsize,if_neg signless]
  rw [if_pos ⟨Nat.toDigits_ne_nil,List.all_eq_true.mpr digits⟩,Numerals.read_toDigits (by decide) (by decide)]

-- Reading distinct places, each that is read is still full.
theorem takeSlots_order {γ : Type} {xs : List γ} {slots : List (Option γ)} {order : List (Fin xs.length)}
    (once : order.Nodup) (full : ∀ i ∈ order, slots[i.val]? = some (some (xs.get i)))
    {ranked : Fin xs.length → RankedHit δ τ ι σ} (named : ∀ i, (ranked i).memory.blobId = Nat.toDigits 10 i.val) :
    takeSlots slots (order.map ranked) = order.map xs.get := by
  induction order generalizing slots with
  | nil => rfl
  | cons i rest ih =>
    obtain ⟨apart,tail⟩ := List.nodup_cons.mp once
    have here := full i List.mem_cons_self
    have later : ∀ j ∈ rest, (slots.set i.val none)[j.val]? = some (some (xs.get j)) := by
      intro j member
      have differs : i.val ≠ j.val := fun same => apart (Fin.ext same ▸ member)
      rw [List.getElem?_set_ne differs]
      exact full j (List.mem_cons_of_mem _ member)
    rw [List.map_cons,List.map_cons,takeSlots,named,parseUsize_toDigits]
    simp only [here,Option.bind_some,id_eq,Option.map_some]
    rw [ih tail later]

section Paths
variable [LinearOrder σ] (scoring : Scoring δ τ ι ω σ) (hits : List (SearchHit δ τ ι)) (weights : ω) (now : τ)

-- The score of a hit by its own fields, and by those that the join on blob ids hands it.
def ownScore (i : Fin hits.length) : σ :=
  scoring.score (hits.get i).distance (some (hits.get i).createdAt) (some (hits.get i).importance) weights now

def joinedScore (i : Fin hits.length) : σ :=
  scoring.score (hits.get i).distance (some (lastNamed hits (hits.get i)).createdAt)
    (some (lastNamed hits (hits.get i)).importance) weights now

theorem rank_positions {κ : Type} [LinearOrder κ] (memory : κ → HydratedMemory δ τ ι) (positions : List κ)
    (active : scoring.active weights = true) :
    rank scoring (positions.map memory) weights now =
      (arrange (fun i => scoring.score (memory i).distance (memory i).createdAt (memory i).importance weights now)
        positions).map (fun i => ⟨memory i,some (scoring.score (memory i).distance (memory i).createdAt
          (memory i).importance weights now)⟩) := by
  unfold rank
  rw [if_neg (by simp [active])]
  simp only [List.map_map]
  exact (List.map_insertionSort _ _ _ positions (fun i _ j _ => by simp [RankedHit.level,WithBot.coe_le_coe])).symm

theorem manual_active (active : scoring.active weights = true) : rankSearchHits scoring hits weights now =
    (arrange (ownScore scoring hits weights now) (List.finRange hits.length)).map hits.get := by
  unfold rankSearchHits
  rw [zipIdx_positions,List.map_map]
  simp only [Function.comp_def]
  rw [rank_positions scoring weights now _ _ active]
  have arranged : Arranged (ownScore scoring hits weights now) _ _ :=
    arrange_arranged (List.pairwise_lt_finRange hits.length)
  refine takeSlots_order (arranged.all.nodup_iff.mpr (List.nodup_finRange _)) ?_ (fun _ => rfl)
  intro i _
  simp

theorem manual_inactive (inactive : scoring.active weights = false) : rankSearchHits scoring hits weights now = hits := by
  simp only [rankSearchHits,rank,inactive,if_true]
  rw [zipIdx_positions,List.map_map,List.map_map]
  refine (takeSlots_order (List.nodup_finRange _) ?_ (fun _ => rfl)).trans (List.map_get_finRange hits)
  intro i _
  simp

theorem zipped_positions (text : Nat → Text) :
    zipSearchHitFieldsOntoHydrated (fetchBatch text (hits.map (fun h => (h.blobId,h.distance)))) hits =
      (List.finRange hits.length).map (fun i => ⟨(hits.get i).blobId,text i.val,(hits.get i).distance,
        some (lastNamed hits (hits.get i)).createdAt,some (lastNamed hits (hits.get i)).importance⟩) := by
  have refs : (hits.map (fun h => (h.blobId,h.distance))).zipIdx =
      (List.finRange hits.length).map (fun i => (((hits.get i).blobId,(hits.get i).distance),i.val)) := by
    apply List.ext_getElem
    · simp
    · intro n low high
      simp
  unfold zipSearchHitFieldsOntoHydrated fetchBatch
  rw [refs,List.map_map,List.map_map]
  refine List.map_congr_left ?_
  intro i _
  simp only [Function.comp_apply]
  rw [byBlob_hit (List.get_mem hits i)]

theorem recall_active (text : Nat → Text) (active : scoring.active weights = true) :
    «recall» scoring text hits weights now =
      (arrange (joinedScore scoring hits weights now) (List.finRange hits.length)).map (fun i =>
        ⟨(hits.get i).blobId,text i.val,(hits.get i).distance,some (joinedScore scoring hits weights now i)⟩) := by
  unfold «recall»
  split
  · rename_i none_
    subst none_
    rfl
  · simp only [zipped_positions,rank_positions scoring weights now _ _ active,List.map_map]
    rfl

theorem recall_inactive (text : Nat → Text) (inactive : scoring.active weights = false) :
    «recall» scoring text hits weights now = (List.finRange hits.length).map (fun i =>
      ⟨(hits.get i).blobId,text i.val,(hits.get i).distance,none⟩) := by
  unfold «recall»
  split
  · rename_i none_
    subst none_
    rfl
  · simp only [zipped_positions,rank,inactive,if_true,List.map_map]
    rfl

-- The order that both paths are to return the hits in.
def InOrder (order : List (Fin hits.length)) : Prop :=
  if scoring.active weights = true then
    Arranged (ownScore scoring hits weights now) (List.finRange hits.length) order
  else order = List.finRange hits.length

-- Both paths return the hits in that order, whatever their plaintexts are.
def Agrees : Prop := ∀ text : Nat → Text,
  («recall» scoring text hits weights now).map (fun r => (r.blobId,r.distance)) =
    (rankSearchHits scoring hits weights now).map (fun h => (h.blobId,h.distance)) ∧
  ∃ order, InOrder scoring hits weights now order ∧ rankSearchHits scoring hits weights now = order.map hits.get ∧
    («recall» scoring text hits weights now).map (fun r => (r.blobId,r.text,r.distance)) =
      order.map (fun i => ((hits.get i).blobId,text i.val,(hits.get i).distance))

theorem agrees_of_order {order : List (Fin hits.length)} (placed : InOrder scoring hits weights now order)
    (manual : rankSearchHits scoring hits weights now = order.map hits.get)
    (results : ∀ text : Nat → Text, ∃ score : Fin hits.length → Option σ, «recall» scoring text hits weights now =
      order.map (fun i => ⟨(hits.get i).blobId,text i.val,(hits.get i).distance,score i⟩)) :
    Agrees scoring hits weights now := by
  intro text
  obtain ⟨score,equal⟩ := results text
  refine ⟨?_,order,placed,manual,?_⟩
  · rw [equal,manual,List.map_map,List.map_map]
    rfl
  · rw [equal,List.map_map]
    rfl

theorem agrees_of_alike (active : scoring.active weights = true) (alike : ∀ i j : Fin hits.length, i < j →
      (ownScore scoring hits weights now j ≤ ownScore scoring hits weights now i ↔
        joinedScore scoring hits weights now j ≤ joinedScore scoring hits weights now i)) :
    Agrees scoring hits weights now := by
  have increasing := List.pairwise_lt_finRange hits.length
  have joined : Arranged (joinedScore scoring hits weights now) _ _ := arrange_arranged increasing
  have own := joined.other_iff.mpr (fun i _ j _ less => (alike i j less).symm)
  have same := own.unique (arrange_arranged increasing)
  refine agrees_of_order scoring hits weights now (by rw [InOrder,if_pos active]; exact own) ?_
    (fun text => ⟨_,recall_active scoring hits weights now text active⟩)
  rw [manual_active scoring hits weights now active,same]

theorem agrees_of_inactive (inactive : scoring.active weights = false) : Agrees scoring hits weights now := by
  refine agrees_of_order scoring hits weights now (by simp [InOrder,inactive]) ?_
    (fun text => ⟨fun _ => none,recall_inactive scoring hits weights now text inactive⟩)
  rw [manual_inactive scoring hits weights now inactive,List.map_get_finRange]

-- The join on blob ids does no harm exactly when it turns no comparison of two
-- hits around.
theorem recall_agrees_iff : Agrees scoring hits weights now ↔ scoring.active weights = false ∨
    ∀ i j : Fin hits.length, i < j → (ownScore scoring hits weights now j ≤ ownScore scoring hits weights now i ↔
      joinedScore scoring hits weights now j ≤ joinedScore scoring hits weights now i) := by
  have increasing := List.pairwise_lt_finRange hits.length
  have joined : Arranged (joinedScore scoring hits weights now) _ _ := arrange_arranged increasing
  cases active : scoring.active weights with
  | false => exact iff_of_true (agrees_of_inactive scoring hits weights now active) (.inl rfl)
  | true =>
    simp only [reduceCtorEq,false_or]
    constructor
    · intro agrees
      obtain ⟨_,order,placed,_,results⟩ := agrees (Nat.toDigits 10)
      rw [InOrder,if_pos active] at placed
      rw [recall_active scoring hits weights now _ active,List.map_map] at results
      have injective : Function.Injective (fun i : Fin hits.length =>
          ((hits.get i).blobId,Nat.toDigits 10 i.val,(hits.get i).distance)) := by
        intro i j same
        have texts : Nat.toDigits 10 i.val = Nat.toDigits 10 j.val := congrArg (fun t => t.2.1) same
        have values := congrArg parseUsize texts
        rw [parseUsize_toDigits,parseUsize_toDigits] at values
        exact Fin.ext (Option.some.inj values)
      have equal := List.map_injective_iff.mpr injective results
      rw [← equal] at placed
      intro i j less
      exact (joined.other_iff.mp placed i (List.mem_finRange i) j (List.mem_finRange j) less).symm
    · exact agrees_of_alike scoring hits weights now active

-- So it is when hits of one blob have one time and one importance.
theorem agrees_of_same_fields (same : ∀ g ∈ hits, ∀ h ∈ hits, g.blobId = h.blobId →
    g.createdAt = h.createdAt ∧ g.importance = h.importance) : Agrees scoring hits weights now := by
  have fields : ∀ i, joinedScore scoring hits weights now i = ownScore scoring hits weights now i := by
    intro i
    have last : (lastNamed hits (hits.get i)).createdAt = (hits.get i).createdAt ∧
        (lastNamed hits (hits.get i)).importance = (hits.get i).importance := by
      unfold lastNamed
      cases found : hits.reverse.find? (fun g => g.blobId = (hits.get i).blobId) with
      | none => exact ⟨rfl,rfl⟩
      | some g =>
        exact same g (List.mem_reverse.mp (List.mem_of_find?_eq_some found)) _ (List.get_mem hits i)
          (by simpa using List.find?_some found)
    rw [joinedScore,last.1,last.2]
    rfl
  cases active : scoring.active weights with
  | false => exact agrees_of_inactive scoring hits weights now active
  | true =>
    refine agrees_of_alike scoring hits weights now active ?_
    intro i j _
    rw [fields,fields]

end Paths

-- Two hits of one blob, the farther one more important.
def twiceHit : List (SearchHit Nat Nat Nat) := [⟨['b'],1,0,2⟩,⟨['b'],3,0,9⟩]

def byImportance : Scoring Nat Nat Nat Unit Nat := ⟨fun _ => true,fun _ _ importance _ _ => importance.getD 0⟩

theorem one_blob_two_orders : ¬ ∀ (scoring : Scoring Nat Nat Nat Unit Nat) (text : Nat → Text)
    (hits : List (SearchHit Nat Nat Nat)) (weights : Unit) (now : Nat),
    («recall» scoring text hits weights now).map (fun r => (r.blobId,r.distance)) =
      (rankSearchHits scoring hits weights now).map (fun h => (h.blobId,h.distance)) := by
  intro always
  have equal := always byImportance (fun _ => []) twiceHit () 0
  revert equal
  decide +kernel

end MemWal.Recall
