import MemWal.Library.Arrange
import MemWal.Library.Numerals
import MemWal.Library.Store

namespace MemWal.Recall
open Library

abbrev Text := List Char

-- Distances, times and importances are left open: only the score looks at them.
section Types
variable (δ τ ι : Type)

structure SearchHit where
  blobId : Text
  distance : δ
  createdAt : τ
  importance : ι
  deriving DecidableEq

structure HydratedMemory where
  blobId : Text
  text : Text
  distance : δ
  createdAt : Option τ
  importance : Option ι
  deriving DecidableEq

structure RankedHit (σ : Type) where
  memory : HydratedMemory δ τ ι
  score : Option σ
  deriving DecidableEq

structure RecallResult (σ : Type) where
  blobId : Text
  text : Text
  distance : δ
  score : Option σ
  deriving DecidableEq

-- `is_ranker_active` of the weights, and the composite score of a memory.
structure Scoring (ω σ : Type) where
  active : ω → Bool
  score : δ → Option τ → Option ι → ω → τ → σ

end Types

variable {δ τ ι ω σ : Type} [LinearOrder σ]

-- `score.unwrap_or(f64::NEG_INFINITY)`
def RankedHit.level (r : RankedHit δ τ ι σ) : WithBot σ := r.score.elim ⊥ (fun score => (score : WithBot σ))

def rank (scoring : Scoring δ τ ι ω σ) (hits : List (HydratedMemory δ τ ι)) (weights : ω) (now : τ) :
    List (RankedHit δ τ ι σ) :=
  if scoring.active weights = false then hits.map (fun memory => ⟨memory,none⟩)
  else
    let scored := hits.map (fun memory => (⟨memory,
      some (scoring.score memory.distance memory.createdAt memory.importance weights now)⟩ : RankedHit δ τ ι σ))
    scored.insertionSort (fun a b => b.level ≤ a.level)

-- `blob_id.parse::<usize>()`; an index of a list always fits
def parseUsize (text : Text) : Option Nat :=
  let digits := if text.head? = some '+' then text.tail else text
  if digits ≠ [] ∧ digits.all Char.isDigit = true then some (Numerals.read 10 digits) else none

-- `slots.get_mut(idx).and_then(Option::take)` for each of the ranked
def takeSlots {γ : Type} : List (Option γ) → List (RankedHit δ τ ι σ) → List γ
  | _,[] => []
  | slots,r :: rest =>
    match (parseUsize r.memory.blobId).bind (fun idx => (slots[idx]?.bind id).map (fun hit => (hit,slots.set idx none))) with
    | some (hit,left) => hit :: takeSlots left rest
    | none => takeSlots slots rest

def rankSearchHits (scoring : Scoring δ τ ι ω σ) (hits : List (SearchHit δ τ ι)) (weights : ω) (now : τ) :
    List (SearchHit δ τ ι) :=
  let hydrated := hits.zipIdx.map (fun (h,idx) =>
    (⟨Nat.toDigits 10 idx,[],h.distance,some h.createdAt,some h.importance⟩ : HydratedMemory δ τ ι))
  takeSlots (hits.map some) (rank scoring hydrated weights now)

-- A `HashMap` collected from pairs keeps the last value of a key.
def byBlob (hits : List (SearchHit δ τ ι)) : Store Text (τ × ι) :=
  hits.foldl (fun map h => map.upsert h.blobId (h.createdAt,h.importance)) .empty

def zipSearchHitFieldsOntoHydrated (hydrated : List (HydratedMemory δ τ ι)) (hits : List (SearchHit δ τ ι)) :
    List (HydratedMemory δ τ ι) :=
  hydrated.map (fun m => match (byBlob hits).get? m.blobId with
    | some (ts,imp) => {m with createdAt := some ts, importance := some imp}
    | none => {m with createdAt := none, importance := none})

-- An engine that hydrates every hit, in the order of the hits: `text n` is what
-- it reads for the hit in place `n`. The two ranking fields are not its business.
def fetchBatch (text : Nat → Text) (hitRefs : List (Text × δ)) : List (HydratedMemory δ τ ι) :=
  hitRefs.zipIdx.map (fun (ref,n) => ⟨ref.1,text n,ref.2,none,none⟩)

-- The handler of /api/recall, from its search hits on.
def «recall» (scoring : Scoring δ τ ι ω σ) (text : Nat → Text) (hits : List (SearchHit δ τ ι)) (weights : ω) (now : τ) :
    List (RecallResult δ σ) :=
  if hits = [] then []
  else
    let hydrated := fetchBatch text (hits.map (fun h => (h.blobId,h.distance)))
    let zipped := zipSearchHitFieldsOntoHydrated hydrated hits
    (rank scoring zipped weights now).map (fun r => ⟨r.memory.blobId,r.memory.text,r.memory.distance,r.score⟩)

end MemWal.Recall
