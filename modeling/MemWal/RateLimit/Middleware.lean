import MemWal.RateLimit.Window
import Mathlib.Algebra.Order.Ring.Rat
import Mathlib.Data.Rat.Init

namespace MemWal.RateLimit
open Library Library.Windows

structure RateLimitConfig where
  maxRequestsPerMinute : Nat
  maxRequestsPerHour : Nat
  maxRequestsPerDelegateKey : Nat
  benchBypassEnabled : Bool := false
  deriving DecidableEq, Repr

-- An owner is a Sui address.
structure AuthInfo where
  publicKey : String
  owner : String
  address : owner.toList.head? = some '0'
  deriving DecidableEq

-- The path is percent-decoded already.
def endpointWeight (decoded : String) : Nat :=
  match String.ofList (decoded.toList.reverse.dropWhile (· = '/')).reverse with
  | "/api/analyze" => 5
  | "/api/remember" => 5
  | "/api/remember/bulk" => 10
  | "/api/remember/manual" => 3
  | "/api/restore" => 3
  | "/api/ask" => 2
  | _ => 1

inductive Layer where
  | delegateKey
  | burst
  | sustained
  deriving DecidableEq, Repr

namespace Layer

def all : List Layer := [.delegateKey,.burst,.sustained]

def key (auth : AuthInfo) : Layer → Key
  | .delegateKey => "rate:dk:" ++ auth.publicKey
  | .burst => "rate:" ++ auth.owner
  | .sustained => "rate:hr:" ++ auth.owner

def span : Layer → Time
  | .delegateKey | .burst => milliseconds 60000
  | .sustained => milliseconds 3600000

-- A tenth of a millisecond between the buckets of one request.
def lead : Layer → Time
  | .delegateKey => 0
  | .burst => 1
  | .sustained => 2

def ttlSeconds : Layer → Int
  | .delegateKey | .burst => 120
  | .sustained => 3700

def limit (config : RateLimitConfig) : Layer → Nat
  | .delegateKey => config.maxRequestsPerDelegateKey
  | .burst => config.maxRequestsPerMinute
  | .sustained => config.maxRequestsPerHour

theorem mem_all (layer : Layer) : layer ∈ all := by cases layer <;> simp [all]

theorem covered (layer : Layer) (now : Time) :
    now + layer.lead + layer.span ≤ now + seconds layer.ttlSeconds := by
  rw [Int.add_assoc]
  refine Int.add_le_add_left ?_ now
  cases layer <;> decide

-- The keys of two layers never meet, whoever the callers are.
theorem key_layer {layer other : Layer} {auth auth' : AuthInfo} (same : layer.key auth = other.key auth') :
    layer = other := by
  have first := auth.address
  have second := auth'.address
  have letters := congrArg String.toList same
  cases layer <;> cases other <;> simp [key] at letters ⊢
  · rw [← letters] at second
    simp at second
  · rw [letters] at first
    simp at first
  · rw [letters] at first
    simp at first
  · rw [← letters] at second
    simp at second

end Layer

structure TokenBucket where
  tokens : Rat
  lastUpdate : Time
  deriving DecidableEq

-- Durations are in seconds, times in tenths of a millisecond.
def TokenBucket.projected (bucket : TokenBucket) (now : Time) (capacity refillRate : Rat) : Rat :=
  min (bucket.tokens + ((now - bucket.lastUpdate : Int) : Rat) / 10000 * refillRate) capacity

structure InMemoryFallback where
  buckets : Store Key TokenBucket
  cleanupCounter : Nat
  deriving DecidableEq

namespace InMemoryFallback

def canConsume (fallback : InMemoryFallback) (now : Time) (key : Key) (weight capacity refillDuration : Rat) :
    InMemoryFallback × Bool :=
  let bucket := (fallback.buckets.get? key).getD ⟨capacity,now⟩
  ({fallback with buckets := fallback.buckets.upsert key bucket},
    weight ≤ bucket.projected now capacity (capacity / refillDuration))

def consume (fallback : InMemoryFallback) (now : Time) (key : Key) (weight capacity refillDuration : Rat) :
    InMemoryFallback :=
  let buckets :=
    match fallback.buckets.get? key with
    | some bucket =>
      fallback.buckets.put key ⟨bucket.projected now capacity (capacity / refillDuration) - weight,now⟩
    | none => fallback.buckets
  if fallback.cleanupCounter + 1 ≥ 1000 then
    ⟨buckets.keep (fun _ bucket => now - bucket.lastUpdate < seconds 7200),0⟩
  else ⟨buckets,fallback.cleanupCounter + 1⟩

end InMemoryFallback

-- One script run that recorded its weight, for a request or as a charge.
structure Entry where
  key : Key
  time : Time
  weight : Nat
  charge : Bool
  deriving DecidableEq, Repr

structure Limiter where
  redis : Redis
  fallback : InMemoryFallback
  log : List Entry

def Limiter.init : Limiter := ⟨.empty,⟨.empty,0⟩,[]⟩

-- `check_and_record_window`, with what it recorded noted beside the buckets.
def Limiter.check (s : Limiter) (now : Time) (auth : AuthInfo) (layer : Layer) (windowStart : Time)
    (limit weight : Nat) (requestId : RequestId) (charge : Bool) : Limiter × WindowCheckResult :=
  let ran := checkAndRecordWindow s.redis now (layer.key auth) windowStart (now + layer.lead) limit weight
    layer.ttlSeconds requestId
  ({s with
    redis := ran.1
    log := if ran.2 = .allowed then s.log ++ [⟨layer.key auth,now + layer.lead,weight,charge⟩] else s.log},ran.2)

-- What is not ours in one call of a script: its UUID, and a connection that
-- fails before or after the script ran.
structure Trip where
  requestId : RequestId
  lost : Option Bool := none
  deriving DecidableEq, Repr

def Limiter.trip (s : Limiter) (now : Time) (auth : AuthInfo) (layer : Layer) (windowStart : Time)
    (limit weight : Nat) (trip : Trip) (charge : Bool) : Limiter × Option WindowCheckResult :=
  let ran := s.check now auth layer windowStart limit weight trip.requestId charge
  match trip.lost with
  | none => (ran.1,some ran.2)
  | some true => (ran.1,none)
  | some false => (s,none)

inductive Verdict where
  | admitted
  | denied (layer : Layer)
  | redisDown
  deriving DecidableEq, Repr

def checkLayers (config : RateLimitConfig) (now : Time) (auth : AuthInfo) (weight : Nat) (trips : Layer → Trip) :
    List Layer → Limiter → Limiter × Verdict
  | [],s => (s,.admitted)
  | layer :: rest,s =>
    let tripped := s.trip now auth layer (now - layer.span) (layer.limit config) weight (trips layer) false
    match tripped.2 with
    | some .allowed => checkLayers config now auth weight trips rest tripped.1
    | some .denied => (tripped.1,.denied layer)
    | none => (tripped.1,.redisDown)

def Layer.refillDuration : Layer → Rat
  | .delegateKey | .burst => 60
  | .sustained => 3600

def fallbackLayers (config : RateLimitConfig) (now : Time) (auth : AuthInfo) (weight : Nat) :
    List Layer → InMemoryFallback → InMemoryFallback × Option Layer
  | [],fallback => (fallback,none)
  | layer :: rest,fallback =>
    let asked := fallback.canConsume now (layer.key auth) weight (layer.limit config) layer.refillDuration
    if asked.2 then fallbackLayers config now auth weight rest asked.1 else (asked.1,some layer)

def consumeLayers (config : RateLimitConfig) (now : Time) (auth : AuthInfo) (weight : Nat)
    (fallback : InMemoryFallback) : InMemoryFallback :=
  Layer.all.foldl (fun fallback layer =>
    fallback.consume now (layer.key auth) weight (layer.limit config) layer.refillDuration) fallback

inductive Response where
  | next
  | tooMany (layer : Layer)
  deriving DecidableEq, Repr

def rateLimitMiddleware (config : RateLimitConfig) (s : Limiter) (now : Time) (auth : AuthInfo) (path : String)
    (trips : Layer → Trip) : Limiter × Response :=
  if config.benchBypassEnabled then (s,.next)
  else
    let weight := endpointWeight path
    match checkLayers config now auth weight trips Layer.all s with
    | (s,.admitted) => (s,.next)
    | (s,.denied layer) => (s,.tooMany layer)
    | (s,.redisDown) =>
      match fallbackLayers config now auth weight Layer.all s.fallback with
      | (fallback,some layer) => ({s with fallback := fallback},.tooMany layer)
      | (fallback,none) => ({s with fallback := consumeLayers config now auth weight fallback},.next)

def i64Max : Nat := 2^63 - 1

-- The results and the errors of the three calls are ignored.
def chargeExplicitWeight (s : Limiter) (now : Time) (auth : AuthInfo) (weight : Nat) (trips : Layer → Trip) : Limiter :=
  if weight = 0 then s
  else Layer.all.foldl (fun s layer => (s.trip now auth layer now i64Max weight (trips layer) true).1) s

end MemWal.RateLimit
