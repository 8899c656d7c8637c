import MemWal.RateLimit.Middleware
import Mathlib.Algebra.Order.Field.Rat
import Mathlib.Tactic.NormNum
import Mathlib.Tactic.Ring

namespace MemWal.RateLimit.Fallback
open Library

-- Seconds of a clock that is read anew at each use.
abbrev Instant := Rat

-- Saturates where the clock would go back.
def durationSince (now earlier : Instant) : Rat := max 0 (now - earlier)

theorem durationSince_of_le {now later : Instant} (order : now ≤ later) : durationSince later now = later - now :=
  max_eq_right (sub_nonneg.mpr order)

structure TokenBucket where
  tokens : Rat
  lastUpdate : Instant
  deriving DecidableEq

namespace TokenBucket

def new (capacity : Rat) (now : Instant) : TokenBucket := ⟨capacity,now⟩

def projected (bucket : TokenBucket) (now : Instant) (capacity refillRatePerSec : Rat) : Rat :=
  min (bucket.tokens + durationSince now bucket.lastUpdate * refillRatePerSec) capacity

def peek (bucket : TokenBucket) (now : Instant) (weight capacity refillRatePerSec : Rat) : Bool :=
  weight ≤ bucket.projected now capacity refillRatePerSec

def consume (bucket : TokenBucket) (now : Instant) (weight capacity refillRatePerSec : Rat) : TokenBucket :=
  ⟨bucket.projected now capacity refillRatePerSec - weight,now⟩

end TokenBucket

structure InMemoryFallback where
  buckets : Store Key TokenBucket
  cleanupCounter : Nat
  deriving DecidableEq

namespace InMemoryFallback

def canConsume (fallback : InMemoryFallback) (created peeked : Instant) (key : Key)
    (weight capacity refillDuration : Rat) : InMemoryFallback × Bool :=
  let bucket := (fallback.buckets.get? key).getD (.new capacity created)
  ({fallback with buckets := fallback.buckets.upsert key bucket},
    bucket.peek peeked weight capacity (capacity / refillDuration))

-- A bucket that is not there is not debited.
def charge (fallback : InMemoryFallback) (now : Instant) (key : Key) (weight capacity refillDuration : Rat) :
    InMemoryFallback :=
  match fallback.buckets.get? key with
  | some bucket =>
    {fallback with buckets := fallback.buckets.put key (bucket.consume now weight capacity (capacity / refillDuration))}
  | none => fallback

def cleanUp (fallback : InMemoryFallback) (now : Instant) : InMemoryFallback :=
  if fallback.cleanupCounter + 1 ≥ 1000 then
    ⟨fallback.buckets.keep (fun _ bucket => durationSince now bucket.lastUpdate < 7200),0⟩
  else {fallback with cleanupCounter := fallback.cleanupCounter + 1}

def consume (fallback : InMemoryFallback) (consumed cleaned : Instant) (key : Key)
    (weight capacity refillDuration : Rat) : InMemoryFallback :=
  (fallback.charge consumed key weight capacity refillDuration).cleanUp cleaned

end InMemoryFallback

-- What the clock shows while one request holds the lock, layer by layer.
structure Reads where
  created : Layer → Instant
  peeked : Layer → Instant
  consumed : Layer → Instant
  cleaned : Layer → Instant

def Reads.times (reads : Reads) : List Instant :=
  Layer.all.flatMap (fun layer => [reads.created layer,reads.peeked layer]) ++
    Layer.all.flatMap (fun layer => [reads.consumed layer,reads.cleaned layer])

structure Request where
  auth : AuthInfo
  weight : Nat
  reads : Reads

section Branch
variable (config : RateLimitConfig) (request : Request)

def ask (layer : Layer) (fallback : InMemoryFallback) : InMemoryFallback × Bool :=
  fallback.canConsume (request.reads.created layer) (request.reads.peeked layer) (layer.key request.auth) request.weight
    (layer.limit config) layer.refillDuration

def askLayers : List Layer → InMemoryFallback → InMemoryFallback × Option Layer
  | [],fallback => (fallback,none)
  | layer :: rest,fallback =>
    let asked := ask config request layer fallback
    if asked.2 then askLayers rest asked.1 else (asked.1,some layer)

def debit (fallback : InMemoryFallback) (layer : Layer) : InMemoryFallback :=
  fallback.consume (request.reads.consumed layer) (request.reads.cleaned layer) (layer.key request.auth) request.weight
    (layer.limit config) layer.refillDuration

-- The branch of the middleware that runs once Redis has failed.
def rateLimitMiddleware (fallback : InMemoryFallback) : InMemoryFallback × Response :=
  match askLayers config request Layer.all fallback with
  | (fallback,some layer) => (fallback,.tooMany layer)
  | (fallback,none) => (Layer.all.foldl (debit config request) fallback,.next)

-- The bucket of a layer as the request finds it.
def held (fallback : InMemoryFallback) (layer : Layer) : TokenBucket :=
  (fallback.buckets.get? (layer.key request.auth)).getD (.new (layer.limit config) (request.reads.created layer))

def rate (layer : Layer) : Rat := layer.limit config / layer.refillDuration

def Passes (fallback : InMemoryFallback) : Prop :=
  ∀ layer, (held config request fallback layer).peek (request.reads.peeked layer) request.weight (layer.limit config)
    (rate config layer)

-- The map when the debit of a layer comes to it.
def beforeDebit (fallback : InMemoryFallback) (layer : Layer) : InMemoryFallback :=
  (Layer.all.takeWhile (fun earlier => earlier ≠ layer)).foldl (debit config request)
    (askLayers config request Layer.all fallback).1

def Debited (fallback : InMemoryFallback) (layer : Layer) : Prop :=
  ((beforeDebit config request fallback layer).charge (request.reads.consumed layer) (layer.key request.auth)
    request.weight (layer.limit config) layer.refillDuration).buckets.get? (layer.key request.auth) =
      some ((held config request fallback layer).consume (request.reads.consumed layer) request.weight
        (layer.limit config) (rate config layer))

def place : Layer → Nat
  | .delegateKey => 0
  | .burst => 1
  | .sustained => 2

-- No debit of the request prunes a bucket that the request has yet to debit.
def Spared (fallback : InMemoryFallback) : Prop :=
  ∀ earlier layer, place earlier < place layer → fallback.cleanupCounter + place earlier + 1 = 1000 →
    durationSince (request.reads.cleaned earlier) (held config request fallback layer).lastUpdate < 7200

end Branch

section Lookups
variable {config : RateLimitConfig} {request : Request} {fallback : InMemoryFallback} {key : Key} {bucket : TokenBucket}
  {layer : Layer}

theorem get?_ask (asked : Layer) (key : Key) : (ask config request asked fallback).1.buckets.get? key =
    if key = asked.key request.auth then some (held config request fallback asked) else fallback.buckets.get? key :=
  Store.get?_upsert _ _ _ _

theorem held_ask (asked : Layer) : held config request (ask config request asked fallback).1 layer =
    held config request fallback layer := by
  by_cases same : layer = asked
  · subst same
    simp [held,get?_ask]
  · have differs : layer.key request.auth ≠ asked.key request.auth := fun equal => same (Layer.key_layer equal)
    simp [held,get?_ask,differs]

theorem ask_keeps (config : RateLimitConfig) (request : Request) (asked : Layer)
    (found : fallback.buckets.get? key = some bucket) :
    (ask config request asked fallback).1.buckets.get? key = some bucket := by
  rw [get?_ask]
  split
  · rename_i same
    rw [held,← same,found]
    rfl
  · exact found

theorem askLayers_keeps (layers : List Layer) (found : fallback.buckets.get? key = some bucket) :
    (askLayers config request layers fallback).1.buckets.get? key = some bucket := by
  induction layers generalizing fallback with
  | nil => exact found
  | cons asked rest ih =>
    have kept := ask_keeps config request asked found
    rw [askLayers]
    split
    · exact ih kept
    · exact kept

theorem askLayers_counter (layers : List Layer) :
    (askLayers config request layers fallback).1.cleanupCounter = fallback.cleanupCounter := by
  induction layers generalizing fallback with
  | nil => rfl
  | cons asked rest ih =>
    rw [askLayers]
    split
    · exact ih
    · rfl

theorem askLayers_none (config : RateLimitConfig) (request : Request) (fallback : InMemoryFallback)
    (layers : List Layer) : (askLayers config request layers fallback).2 = none ↔
    ∀ layer ∈ layers, (held config request fallback layer).peek (request.reads.peeked layer) request.weight
      (layer.limit config) (rate config layer) = true := by
  induction layers generalizing fallback with
  | nil => simp [askLayers]
  | cons asked rest ih =>
    have verdict : (ask config request asked fallback).2 = (held config request fallback asked).peek
        (request.reads.peeked asked) request.weight (asked.limit config) (rate config asked) := rfl
    rw [askLayers]
    split
    · rename_i passed
      simp only [ih,held_ask,List.forall_mem_cons,← verdict,passed,true_and]
    · rename_i refused
      simp [← verdict,refused]

theorem askLayers_found (layers : List Layer) (passed : (askLayers config request layers fallback).2 = none)
    (member : layer ∈ layers) : (askLayers config request layers fallback).1.buckets.get? (layer.key request.auth) =
      some (held config request fallback layer) := by
  induction layers generalizing fallback with
  | nil => cases member
  | cons asked rest ih =>
    rw [askLayers] at passed ⊢
    split at passed
    · rename_i yes
      rw [if_pos yes]
      rcases List.mem_cons.mp member with rfl | later
      · apply askLayers_keeps
        rw [get?_ask,if_pos rfl]
      · rw [ih passed later,held_ask]
    · cases passed

theorem rateLimitMiddleware_eq (config : RateLimitConfig) (request : Request) (fallback : InMemoryFallback) :
    rateLimitMiddleware config request fallback = match askLayers config request Layer.all fallback with
      | (fallback,some layer) => (fallback,.tooMany layer)
      | (fallback,none) => (Layer.all.foldl (debit config request) fallback,.next) := by
  delta rateLimitMiddleware
  rfl

theorem admitted_iff : (rateLimitMiddleware config request fallback).2 = .next ↔ Passes config request fallback := by
  have asked := askLayers_none config request fallback Layer.all
  have every : Passes config request fallback ↔ (askLayers config request Layer.all fallback).2 = none := by
    rw [asked]
    constructor
    · intro passes layer _
      exact passes layer
    · intro passes layer
      exact passes layer layer.mem_all
  rw [every,rateLimitMiddleware_eq]
  cases result : askLayers config request Layer.all fallback with
  | mk asked verdict => cases verdict <;> simp

end Lookups

section Debits
variable {config : RateLimitConfig} {request : Request} {fallback : InMemoryFallback} {key : Key} {bucket : TokenBucket}
  {layer : Layer}

theorem get?_charge (fallback : InMemoryFallback) (now : Instant) (key : Key) (weight capacity refillDuration : Rat)
    (other : Key) : (fallback.charge now key weight capacity refillDuration).buckets.get? other =
      if other = key then (fallback.buckets.get? key).map
        (fun bucket => bucket.consume now weight capacity (capacity / refillDuration))
      else fallback.buckets.get? other := by
  cases found : fallback.buckets.get? key with
  | none =>
    simp only [InMemoryFallback.charge,found]
    split
    · rename_i same
      rw [same,found]
      rfl
    · rfl
  | some bucket =>
    simp only [InMemoryFallback.charge,found]
    exact Store.get?_put found _ other

theorem charge_counter (fallback : InMemoryFallback) (now : Instant) (key : Key)
    (weight capacity refillDuration : Rat) :
    (fallback.charge now key weight capacity refillDuration).cleanupCounter = fallback.cleanupCounter := by
  rw [InMemoryFallback.charge]
  split <;> rfl

theorem get?_cleanUp (below : fallback.cleanupCounter < 1000) (now : Instant) (key : Key) :
    (fallback.cleanUp now).buckets.get? key = (fallback.buckets.get? key).filter
      (fun bucket => fallback.cleanupCounter + 1 = 1000 → durationSince now bucket.lastUpdate < 7200) := by
  apply Option.ext
  intro bucket
  rw [InMemoryFallback.cleanUp,Option.filter_eq_some_iff,decide_eq_true_eq]
  by_cases due : fallback.cleanupCounter + 1 ≥ 1000
  · have exactly : fallback.cleanupCounter + 1 = 1000 := by omega
    rw [if_pos due,Store.get?_keep,decide_eq_true_eq]
    simp only [exactly,true_implies]
  · have early : fallback.cleanupCounter + 1 ≠ 1000 := by omega
    rw [if_neg due]
    simp [early]

theorem cleanUp_counter (below : fallback.cleanupCounter < 1000) (now : Instant) :
    (fallback.cleanUp now).cleanupCounter = (fallback.cleanupCounter + 1) % 1000 := by
  rw [InMemoryFallback.cleanUp]
  split
  · change 0 = _
    omega
  · change fallback.cleanupCounter + 1 = _
    omega

theorem debit_counter (below : fallback.cleanupCounter < 1000) :
    (debit config request fallback layer).cleanupCounter = (fallback.cleanupCounter + 1) % 1000 := by
  rw [debit,InMemoryFallback.consume,cleanUp_counter]
  · rw [charge_counter]
  · rw [charge_counter]
    exact below

theorem get?_debit_other (below : fallback.cleanupCounter < 1000) (other : key ≠ layer.key request.auth) :
    (debit config request fallback layer).buckets.get? key = (fallback.buckets.get? key).filter
      (fun bucket => fallback.cleanupCounter + 1 = 1000 →
        durationSince (request.reads.cleaned layer) bucket.lastUpdate < 7200) := by
  rw [debit,InMemoryFallback.consume,get?_cleanUp]
  · simp only [get?_charge,if_neg other,charge_counter]
  · rw [charge_counter]
    exact below

theorem beforeDebit_burst : beforeDebit config request fallback .burst =
    debit config request (askLayers config request Layer.all fallback).1 .delegateKey := by
  rw [beforeDebit,show Layer.all.takeWhile (fun earlier => earlier ≠ .burst) = [.delegateKey] from rfl,List.foldl_cons,
    List.foldl_nil]

theorem beforeDebit_sustained : beforeDebit config request fallback .sustained =
    debit config request (debit config request (askLayers config request Layer.all fallback).1 .delegateKey) .burst := by
  rw [beforeDebit,show Layer.all.takeWhile (fun earlier => earlier ≠ .sustained) = [.delegateKey,.burst] from rfl,
    List.foldl_cons,List.foldl_cons,List.foldl_nil]

-- A debit is made if the bucket is still the one the request found.
theorem debited_of (found : (beforeDebit config request fallback layer).buckets.get? (layer.key request.auth) =
    some (held config request fallback layer)) : Debited config request fallback layer := by
  rw [Debited,get?_charge,if_pos rfl,found]
  rfl

theorem not_debited (gone : (beforeDebit config request fallback layer).buckets.get? (layer.key request.auth) = none) :
    ¬ Debited config request fallback layer := by
  rw [Debited,get?_charge,if_pos rfl,gone]
  exact nofun

theorem debited_filtered {keeps : TokenBucket → Bool}
    (before : (beforeDebit config request fallback layer).buckets.get? (layer.key request.auth) =
      (some (held config request fallback layer)).filter keeps) :
    Debited config request fallback layer ↔ keeps (held config request fallback layer) = true := by
  constructor
  · intro debited
    by_contra lost
    apply not_debited _ debited
    rw [before]
    simp [Option.filter,lost]
  · intro kept
    apply debited_of
    rw [before]
    simp [Option.filter,kept]

theorem debited_found (debited : Debited config request fallback layer) :
    ∃ bucket, (beforeDebit config request fallback layer).buckets.get? (layer.key request.auth) = some bucket := by
  rw [Debited,get?_charge,if_pos rfl] at debited
  obtain ⟨bucket,found,_⟩ := Option.map_eq_some_iff.mp debited
  exact ⟨bucket,found⟩

section Orders
variable (below : fallback.cleanupCounter < 1000) (passes : Passes config request fallback)
include passes

theorem found_asked (layer : Layer) : (askLayers config request Layer.all fallback).1.buckets.get?
    (layer.key request.auth) = some (held config request fallback layer) := by
  apply askLayers_found Layer.all _ layer.mem_all
  apply (askLayers_none config request fallback Layer.all).mpr
  intro layer _
  exact passes layer

theorem debited_delegateKey : Debited config request fallback .delegateKey := debited_of (found_asked passes .delegateKey)

include below

theorem after_delegateKey (layer : Layer) (later : layer ≠ .delegateKey) :
    (debit config request (askLayers config request Layer.all fallback).1 .delegateKey).buckets.get?
      (layer.key request.auth) = (some (held config request fallback layer)).filter
        (fun bucket => fallback.cleanupCounter + 1 = 1000 →
          durationSince (request.reads.cleaned .delegateKey) bucket.lastUpdate < 7200) := by
  have apart : layer.key request.auth ≠ Layer.delegateKey.key request.auth := fun same => later (Layer.key_layer same)
  rw [get?_debit_other _ apart,found_asked passes,askLayers_counter]
  rw [askLayers_counter]
  exact below

theorem debited_burst : Debited config request fallback .burst ↔ (fallback.cleanupCounter + 1 = 1000 →
    durationSince (request.reads.cleaned .delegateKey) (held config request fallback .burst).lastUpdate < 7200) := by
  have before := after_delegateKey below passes .burst nofun
  rw [← beforeDebit_burst] at before
  rw [debited_filtered before,decide_eq_true_eq]

theorem debited_sustained : Debited config request fallback .sustained ↔
    (fallback.cleanupCounter + 1 = 1000 →
      durationSince (request.reads.cleaned .delegateKey) (held config request fallback .sustained).lastUpdate < 7200) ∧
    (fallback.cleanupCounter + 2 = 1000 →
      durationSince (request.reads.cleaned .burst) (held config request fallback .sustained).lastUpdate < 7200) := by
  have apart : Layer.sustained.key request.auth ≠ Layer.burst.key request.auth := fun same => nomatch Layer.key_layer same
  have counter : (debit config request (askLayers config request Layer.all fallback).1 .delegateKey).cleanupCounter =
      (fallback.cleanupCounter + 1) % 1000 := by
    rw [debit_counter,askLayers_counter]
    rw [askLayers_counter]
    exact below
  have under : (fallback.cleanupCounter + 1) % 1000 < 1000 := Nat.mod_lt _ (by decide)
  have turn : (fallback.cleanupCounter + 1) % 1000 + 1 = 1000 ↔ fallback.cleanupCounter + 2 = 1000 := by omega
  have before := @get?_debit_other config _ _ _ _ (counter ▸ under) apart
  rw [← beforeDebit_sustained] at before
  rw [after_delegateKey below passes .sustained nofun,Option.filter_filter] at before
  rw [debited_filtered before]
  simp only [counter,turn,Bool.and_eq_true,decide_eq_true_eq]

theorem debited_iff : (∀ layer, Debited config request fallback layer) ↔ Spared config request fallback := by
  constructor
  · intro debited earlier layer order due
    have burst := (debited_burst below passes).mp (debited .burst)
    have sustained := (debited_sustained below passes).mp (debited .sustained)
    cases layer with
    | delegateKey => exact absurd order (Nat.not_lt_zero _)
    | burst =>
      cases earlier with
      | delegateKey => exact burst due
      | burst => exact absurd order (Nat.lt_irrefl _)
      | sustained => exact absurd order (by decide)
    | sustained =>
      cases earlier with
      | delegateKey => exact sustained.1 due
      | burst => exact sustained.2 due
      | sustained => exact absurd order (Nat.lt_irrefl _)
  · intro spared layer
    cases layer with
    | delegateKey => exact debited_delegateKey passes
    | burst =>
      apply (debited_burst below passes).mpr
      exact spared .delegateKey .burst (by decide)
    | sustained =>
      apply (debited_sustained below passes).mpr
      constructor
      · exact spared .delegateKey .sustained (by decide)
      · exact spared .burst .sustained (by decide)

end Orders

theorem rateLimitMiddleware_admitted (passes : Passes config request fallback) :
    (rateLimitMiddleware config request fallback).1 = debit config request (debit config request
      (debit config request (askLayers config request Layer.all fallback).1 .delegateKey) .burst) .sustained := by
  have admitted := (askLayers_none config request fallback Layer.all).mpr (fun layer _ => passes layer)
  have result : askLayers config request Layer.all fallback = ((askLayers config request Layer.all fallback).1,none) :=
    Prod.ext rfl admitted
  rw [rateLimitMiddleware_eq,result]
  simp only [Layer.all,List.foldl_cons,List.foldl_nil]

end Debits

section Quiet
variable {config : RateLimitConfig} {request : Request} {fallback : InMemoryFallback} {key : Key} {layer : Layer}

theorem askLayers_other (layers : List Layer) (other : ∀ layer : Layer, key ≠ layer.key request.auth) :
    (askLayers config request layers fallback).1.buckets.get? key = fallback.buckets.get? key := by
  induction layers generalizing fallback with
  | nil => rfl
  | cons asked rest ih =>
    have same : (ask config request asked fallback).1.buckets.get? key = fallback.buckets.get? key := by
      rw [get?_ask,if_neg (other asked)]
    rw [askLayers]
    split
    · exact ih.trans same
    · exact same

theorem get?_debit_quiet (quiet : fallback.cleanupCounter + 1 < 1000) (key : Key) :
    (debit config request fallback layer).buckets.get? key = if key = layer.key request.auth then
        (fallback.buckets.get? (layer.key request.auth)).map (fun bucket => bucket.consume (request.reads.consumed layer)
          request.weight (layer.limit config) (rate config layer))
      else fallback.buckets.get? key := by
  rw [debit,InMemoryFallback.consume,InMemoryFallback.cleanUp,charge_counter,if_neg (by omega)]
  exact get?_charge _ _ _ _ _ _ key

-- A request whose debits run no cleanup leaves every other bucket alone.
structure ServedQuietly (config : RateLimitConfig) (request : Request) (fallback served : InMemoryFallback) : Prop where
  counter : served.cleanupCounter = fallback.cleanupCounter + 3
  own : ∀ layer : Layer, served.buckets.get? (layer.key request.auth) = some ((held config request fallback layer).consume
    (request.reads.consumed layer) request.weight (layer.limit config) (rate config layer))
  other : ∀ key, (∀ layer : Layer, key ≠ layer.key request.auth) → served.buckets.get? key = fallback.buckets.get? key

theorem served_quietly (quiet : fallback.cleanupCounter + 3 < 1000) (passes : Passes config request fallback) :
    ServedQuietly config request fallback (rateLimitMiddleware config request fallback).1 := by
  have start : (askLayers config request Layer.all fallback).1.cleanupCounter = fallback.cleanupCounter :=
    askLayers_counter Layer.all
  have found := found_asked passes
  have rest : ∀ key, (∀ layer : Layer, key ≠ layer.key request.auth) →
      (askLayers config request Layer.all fallback).1.buckets.get? key = fallback.buckets.get? key :=
    fun key other => askLayers_other Layer.all other
  rw [rateLimitMiddleware_admitted passes]
  generalize (askLayers config request Layer.all fallback).1 = asked at start found rest
  have one : (debit config request asked .delegateKey).cleanupCounter = fallback.cleanupCounter + 1 := by
    rw [debit_counter (by omega),start]
    omega
  have two : (debit config request (debit config request asked .delegateKey) .burst).cleanupCounter =
      fallback.cleanupCounter + 2 := by
    rw [debit_counter (by omega),one]
    omega
  refine ⟨?_,?_,?_⟩
  · rw [debit_counter (by omega),two]
    omega
  · intro layer
    have apart : ∀ {layer other : Layer}, layer ≠ other → layer.key request.auth ≠ other.key request.auth :=
      fun differs same => differs (Layer.key_layer same)
    rw [get?_debit_quiet (by omega)]
    cases layer with
    | delegateKey =>
      have skipped : Layer.delegateKey.key request.auth ≠ Layer.burst.key request.auth := apart (by decide)
      have passed : Layer.delegateKey.key request.auth ≠ Layer.sustained.key request.auth := apart (by decide)
      rw [if_neg passed,get?_debit_quiet (by omega),if_neg skipped,get?_debit_quiet (by omega),if_pos rfl,found]
      rfl
    | burst =>
      have skipped : Layer.burst.key request.auth ≠ Layer.delegateKey.key request.auth := apart (by decide)
      have passed : Layer.burst.key request.auth ≠ Layer.sustained.key request.auth := apart (by decide)
      rw [if_neg passed,get?_debit_quiet (by omega),if_pos rfl,get?_debit_quiet (by omega),if_neg skipped,found]
      rfl
    | sustained =>
      have skipped : Layer.sustained.key request.auth ≠ Layer.delegateKey.key request.auth := apart (by decide)
      have passed : Layer.sustained.key request.auth ≠ Layer.burst.key request.auth := apart (by decide)
      rw [if_pos rfl,get?_debit_quiet (by omega),if_neg passed,get?_debit_quiet (by omega),if_neg skipped,found]
      rfl
  · intro key other
    rw [get?_debit_quiet (by omega),if_neg (other _),get?_debit_quiet (by omega),if_neg (other _),
      get?_debit_quiet (by omega),if_neg (other _)]
    exact rest key other

end Quiet

-- The middleware over Redis reads one clock for the whole request, in tenths of
-- a millisecond. With that one reading it runs this branch.
section Coarse

def atInstant (time : Time) : Instant := (time : Rat) / 10000

def timed (bucket : RateLimit.TokenBucket) : TokenBucket := ⟨bucket.tokens,atInstant bucket.lastUpdate⟩

structure Mirrors (coarse : RateLimit.InMemoryFallback) (fallback : InMemoryFallback) (now : Time) : Prop where
  buckets : ∀ key, fallback.buckets.get? key = (coarse.buckets.get? key).map timed
  counter : fallback.cleanupCounter = coarse.cleanupCounter
  past : ∀ key bucket, coarse.buckets.get? key = some bucket → bucket.lastUpdate ≤ now

def standing (auth : AuthInfo) (weight : Nat) (now : Time) : Request :=
  ⟨auth,weight,⟨fun _ => atInstant now,fun _ => atInstant now,fun _ => atInstant now,fun _ => atInstant now⟩⟩

variable {coarse : RateLimit.InMemoryFallback} {fallback : InMemoryFallback} {now : Time}
  {bucket : RateLimit.TokenBucket} {config : RateLimitConfig} {auth : AuthInfo} {weight : Nat} {layer : Layer}

theorem durationSince_timed (order : bucket.lastUpdate ≤ now) :
    durationSince (atInstant now) (timed bucket).lastUpdate = ((now - bucket.lastUpdate : Int) : Rat) / 10000 := by
  have instants : atInstant bucket.lastUpdate ≤ atInstant now := by
    apply div_le_div_of_nonneg_right _ (by norm_num)
    exact_mod_cast order
  rw [timed,durationSince_of_le instants,atInstant,atInstant]
  push_cast
  ring

theorem projected_timed (order : bucket.lastUpdate ≤ now) (capacity refillRate : Rat) :
    (timed bucket).projected (atInstant now) capacity refillRate = bucket.projected now capacity refillRate := by
  rw [TokenBucket.projected,durationSince_timed order]
  rfl

theorem mirrors_ask (config : RateLimitConfig) (auth : AuthInfo) (weight : Nat)
    (mirrors : Mirrors coarse fallback now) (layer : Layer) :
    (coarse.canConsume now (layer.key auth) weight (layer.limit config) layer.refillDuration).2 =
        (ask config (standing auth weight now) layer fallback).2 ∧
      Mirrors (coarse.canConsume now (layer.key auth) weight (layer.limit config) layer.refillDuration).1
        (ask config (standing auth weight now) layer fallback).1 now := by
  have bucket : held config (standing auth weight now) fallback layer =
      timed ((coarse.buckets.get? (layer.key auth)).getD ⟨layer.limit config,now⟩) := by
    have found : fallback.buckets.get? (layer.key (standing auth weight now).auth) = _ := mirrors.buckets (layer.key auth)
    rw [held,found]
    cases coarse.buckets.get? (layer.key auth) <;> rfl
  have order : ((coarse.buckets.get? (layer.key auth)).getD ⟨layer.limit config,now⟩).lastUpdate ≤ now := by
    cases found : coarse.buckets.get? (layer.key auth) with
    | none => exact le_rfl
    | some stored => exact mirrors.past _ _ found
  refine ⟨?_,?_,mirrors.counter,?_⟩
  · have verdict : (ask config (standing auth weight now) layer fallback).2 =
        (held config (standing auth weight now) fallback layer).peek (atInstant now) weight (layer.limit config)
          (rate config layer) := rfl
    rw [verdict,bucket,TokenBucket.peek,projected_timed order]
    rfl
  · intro key
    rw [get?_ask,bucket]
    change _ = ((coarse.buckets.upsert _ _).get? key).map timed
    rw [Store.get?_upsert]
    change (if key = layer.key auth then _ else _) = _
    split
    · rfl
    · exact mirrors.buckets key
  · intro key stored found
    change (coarse.buckets.upsert _ _).get? key = some stored at found
    rw [Store.get?_upsert] at found
    split at found
    · cases found
      exact order
    · exact mirrors.past key stored found

theorem mirrors_askLayers (config : RateLimitConfig) (auth : AuthInfo) (weight : Nat) (layers : List Layer)
    (mirrors : Mirrors coarse fallback now) :
    (fallbackLayers config now auth weight layers coarse).2 =
        (askLayers config (standing auth weight now) layers fallback).2 ∧
      Mirrors (fallbackLayers config now auth weight layers coarse).1
        (askLayers config (standing auth weight now) layers fallback).1 now := by
  induction layers generalizing coarse fallback with
  | nil => exact ⟨rfl,mirrors⟩
  | cons layer rest ih =>
    obtain ⟨verdict,next⟩ := mirrors_ask config auth weight mirrors layer
    rw [fallbackLayers,askLayers]
    simp only [verdict]
    split
    · exact ih next
    · exact ⟨rfl,next⟩

theorem mirrors_cleanUp (mirrors : Mirrors coarse fallback now) :
    Mirrors (if coarse.cleanupCounter + 1 ≥ 1000 then
        ⟨coarse.buckets.keep (fun _ bucket => now - bucket.lastUpdate < seconds 7200),0⟩
      else ⟨coarse.buckets,coarse.cleanupCounter + 1⟩) (fallback.cleanUp (atInstant now)) now := by
  have recent : ∀ bucket : RateLimit.TokenBucket, bucket.lastUpdate ≤ now →
      (durationSince (atInstant now) (timed bucket).lastUpdate < 7200 ↔ now - bucket.lastUpdate < seconds 7200) := by
    intro bucket order
    rw [durationSince_timed order,div_lt_iff₀ (by norm_num)]
    have scale : (7200 : Rat) * 10000 = ((seconds 7200 : Int) : Rat) := by norm_num [seconds,milliseconds]
    rw [scale]
    exact Int.cast_lt
  rw [InMemoryFallback.cleanUp,mirrors.counter]
  split
  · refine ⟨?_,rfl,?_⟩
    · intro key
      apply Option.ext
      intro bucket
      rw [Store.get?_keep,mirrors.buckets,Option.map_eq_some_iff,Option.map_eq_some_iff]
      constructor
      · intro kept
        obtain ⟨⟨stored,found,rfl⟩,young⟩ := kept
        have inside := (recent stored (mirrors.past _ _ found)).mp (of_decide_eq_true young)
        exact ⟨stored,Store.get?_keep.mpr ⟨found,decide_eq_true inside⟩,rfl⟩
      · intro kept
        obtain ⟨stored,found,rfl⟩ := kept
        obtain ⟨found,young⟩ := Store.get?_keep.mp found
        have inside := (recent stored (mirrors.past _ _ found)).mpr (of_decide_eq_true young)
        exact ⟨⟨stored,found,rfl⟩,decide_eq_true inside⟩
    · intro key bucket found
      exact mirrors.past key bucket (Store.get?_keep.mp found).1
  · exact ⟨mirrors.buckets,rfl,mirrors.past⟩

theorem mirrors_debit (config : RateLimitConfig) (auth : AuthInfo) (weight : Nat) (mirrors : Mirrors coarse fallback now)
    (layer : Layer) :
    Mirrors (coarse.consume now (layer.key auth) weight (layer.limit config) layer.refillDuration)
      (debit config (standing auth weight now) fallback layer) now := by
  have lookup := get?_charge fallback (atInstant now) (layer.key auth) weight (layer.limit config) layer.refillDuration
  have whole : debit config (standing auth weight now) fallback layer =
    (fallback.charge (atInstant now) (layer.key auth) weight (layer.limit config) layer.refillDuration).cleanUp
      (atInstant now) := rfl
  rw [whole]
  cases found : coarse.buckets.get? (layer.key auth) with
  | none =>
    have absent : fallback.buckets.get? (layer.key auth) = none := by rw [mirrors.buckets,found]; rfl
    have same : fallback.charge (atInstant now) (layer.key auth) weight (layer.limit config) layer.refillDuration =
        fallback := by
      simp only [InMemoryFallback.charge,absent]
    have cleaned := mirrors_cleanUp mirrors
    rw [← same] at cleaned
    simpa only [RateLimit.InMemoryFallback.consume,found] using cleaned
  | some bucket =>
    have order := mirrors.past _ _ found
    have present : fallback.buckets.get? (layer.key auth) = some (timed bucket) := by rw [mirrors.buckets,found]; rfl
    let next : RateLimit.TokenBucket :=
      ⟨bucket.projected now (layer.limit config) (layer.limit config / layer.refillDuration) - weight,now⟩
    have stored := Store.get?_put found next
    have charged : Mirrors ⟨coarse.buckets.put (layer.key auth) next,coarse.cleanupCounter⟩
        (fallback.charge (atInstant now) (layer.key auth) weight (layer.limit config) layer.refillDuration) now := by
      refine ⟨?_,?_,?_⟩
      · intro key
        rw [lookup,stored,present,Option.map_some,TokenBucket.consume,projected_timed order]
        split
        · rfl
        · exact mirrors.buckets key
      · rw [charge_counter]
        exact mirrors.counter
      · intro key old kept
        rw [stored] at kept
        split at kept
        · cases kept
          exact le_rfl
        · exact mirrors.past key old kept
    have cleaned := mirrors_cleanUp charged
    simpa only [RateLimit.InMemoryFallback.consume,found] using cleaned

theorem mirrors_debits (layers : List Layer) (mirrors : Mirrors coarse fallback now) :
    Mirrors (layers.foldl (fun coarse layer => coarse.consume now (layer.key auth) weight (layer.limit config)
      layer.refillDuration) coarse) (layers.foldl (debit config (standing auth weight now)) fallback) now := by
  induction layers generalizing coarse fallback with
  | nil => exact mirrors
  | cons layer rest ih => exact ih (mirrors_debit config auth weight mirrors layer)

theorem checkLayers_fallback (config : RateLimitConfig) (now : Time) (auth : AuthInfo) (weight : Nat)
    (trips : Layer → Trip) (layers : List Layer) (s : Limiter) :
    (checkLayers config now auth weight trips layers s).1.fallback = s.fallback := by
  induction layers generalizing s with
  | nil => rfl
  | cons layer rest ih =>
    have same : (s.trip now auth layer (now - layer.span) (layer.limit config) weight (trips layer) false).1.fallback =
        s.fallback := by
      rw [Limiter.trip]
      split <;> rfl
    rw [checkLayers]
    split
    · rw [ih,same]
    · exact same
    · exact same

theorem middleware_falls_back {s : Limiter} {path : String} {trips : Layer → Trip} (limited : config.benchBypassEnabled = false)
    (mirrors : Mirrors s.fallback fallback now)
    (down : (checkLayers config now auth (endpointWeight path) trips Layer.all s).2 = .redisDown) :
    (RateLimit.rateLimitMiddleware config s now auth path trips).2 =
        (rateLimitMiddleware config (standing auth (endpointWeight path) now) fallback).2 ∧
      Mirrors (RateLimit.rateLimitMiddleware config s now auth path trips).1.fallback
        (rateLimitMiddleware config (standing auth (endpointWeight path) now) fallback).1 now := by
  have kept := checkLayers_fallback config now auth (endpointWeight path) trips Layer.all s
  cases checked : checkLayers config now auth (endpointWeight path) trips Layer.all s with
  | mk after verdict =>
    rw [checked] at kept down
    simp only at kept down
    subst down
    rw [← kept] at mirrors
    obtain ⟨answer,asked⟩ := mirrors_askLayers config auth (endpointWeight path) Layer.all mirrors
    simp only [RateLimit.rateLimitMiddleware,rateLimitMiddleware_eq,limited,checked,Bool.false_eq_true,if_false]
    generalize fallbackLayers config now auth (endpointWeight path) Layer.all after.fallback = one at answer asked
    generalize askLayers config (standing auth (endpointWeight path) now) Layer.all fallback = other at answer asked
    obtain ⟨coarse,refusal⟩ := one
    obtain ⟨fallback,refusal⟩ := other
    simp only at answer asked
    subst answer
    cases refusal with
    | none =>
      refine ⟨rfl,?_⟩
      simp only
      exact mirrors_debits Layer.all asked
    | some layer => exact ⟨rfl,asked⟩

end Coarse

end MemWal.RateLimit.Fallback
