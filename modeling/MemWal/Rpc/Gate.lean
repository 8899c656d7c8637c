import Mathlib.Data.Int.Order.Basic
import MemWal.Library.Fallible
import MemWal.Library.Store

namespace MemWal.Rpc
open Library Library.Fallible

-- An `Instant` is an integer, a `Duration` a natural number of nanoseconds.
def seconds (n : Nat) : Nat := n * 1000000000

def maxRequestsPerWindow : Nat := 1000000
def maxRequestWindow : Nat := seconds (60 * 60)
def defaultRpcMaxInFlight : Nat := 64
def maxRpcMaxInFlight : Nat := 10000
def backgroundQuotaPercent : Nat := 90

inductive RequestPriority where
  | interactive
  | background
  deriving DecidableEq, Repr

inductive SuiErr where
  | rejected (message : String)
  deriving DecidableEq, Repr

-- The configuration of a gate: its window and the sizes of its two semaphores.
structure RateGate where
  requestsPerWindow : Nat
  window : Nat
  inFlight : Nat
  backgroundInFlight : Nat
  deriving DecidableEq, Repr

namespace RateGate

def new (requestsPerWindow : Nat) (window : Nat) : Except SuiErr RateGate := do
  ensure (requestsPerWindow ≠ 0) (.rejected "SUI_RPC_REQUESTS_PER_WINDOW must be greater than zero")
  ensure (requestsPerWindow ≤ maxRequestsPerWindow)
    (.rejected s!"SUI_RPC_REQUESTS_PER_WINDOW must not exceed {maxRequestsPerWindow}")
  ensure (window ≠ 0) (.rejected "SUI_RPC_WINDOW_SECS must be greater than zero")
  ensure (window ≤ maxRequestWindow) (.rejected "SUI_RPC_WINDOW_SECS must not exceed 3600")
  return ⟨requestsPerWindow,window,defaultRpcMaxInFlight,defaultRpcMaxInFlight * backgroundQuotaPercent / 100⟩

def withMaxInFlight (gate : RateGate) (maxInFlight : Nat) : Except SuiErr RateGate := do
  ensure (2 ≤ maxInFlight ∧ maxInFlight ≤ maxRpcMaxInFlight)
    (.rejected s!"SUI_RPC_MAX_IN_FLIGHT must be between 2 and {maxRpcMaxInFlight}")
  let background := max (min (maxInFlight * backgroundQuotaPercent / 100) (maxInFlight - 1)) 1
  return {gate with inFlight := maxInFlight, backgroundInFlight := background}

def admissionLimit (gate : RateGate) : RequestPriority → Nat
  | .interactive => gate.requestsPerWindow
  | .background => max (gate.requestsPerWindow * backgroundQuotaPercent / 100) 1

end RateGate

-- What the two constructors let through.
inductive Accepted : RateGate → Prop where
  | new : RateGate.new n w = .ok gate → Accepted gate
  | limited : Accepted gate → gate.withMaxInFlight m = .ok gate' → Accepted gate'

structure RateGateState where
  admittedAt : List Int
  cooldownUntil : Option Int
  deriving DecidableEq, Repr

-- `later.duration_since(earlier)`, which is zero where it would be negative
def durationSince (later earlier : Int) : Nat := (later - earlier).toNat

inductive Verdict where
  | admitted
  | wait (duration : Nat)
  | panicked
  deriving DecidableEq, Repr

-- The `while` loop that takes what has left the window off the front.
def prune (gate : RateGate) (now : Int) (admittedAt : List Int) : List Int :=
  admittedAt.dropWhile (fun admitted => gate.window ≤ durationSince now admitted)

-- One turn of the loop in `acquire`, from taking the lock to letting it go.
def attempt (gate : RateGate) (priority : RequestPriority) (now : Int) (state : RateGateState) :
    RateGateState × Verdict :=
  match state.cooldownUntil.filter (fun deadline => now < deadline) with
  | some deadline => ({state with cooldownUntil := some deadline},.wait (durationSince deadline now))
  | none =>
    let admittedAt := prune gate now state.admittedAt
    if admittedAt.length < gate.admissionLimit priority then (⟨admittedAt ++ [now],none⟩,.admitted)
    else match admittedAt.head? with
      | some oldest => (⟨admittedAt,none⟩,.wait (gate.window - durationSince now oldest))
      | none => (⟨admittedAt,none⟩,.panicked)

-- Where an acquire call is: before its first permit, with the background
-- permit alone, with all its permits and out for the lock, asleep, or returned.
inductive Phase where
  | started
  | queued
  | ready
  | sleeping (wakesAt : Int)
  | admitted
  deriving DecidableEq, Repr

structure Acquire where
  priority : RequestPriority
  phase : Phase
  deriving DecidableEq, Repr

def Acquire.holdsTotal (a : Acquire) : Bool :=
  match a.phase with
  | .started => false
  | .queued => false
  | _ => true

def Acquire.holdsBackground (a : Acquire) : Bool := decide (a.priority = .background ∧ a.phase ≠ .started)

-- What has happened at the gate, in the order in which it happened.
inductive Mark where
  | admitted (priority : RequestPriority) (time : Int)
  | recorded (deadline : Int)
  deriving DecidableEq, Repr

-- The gate with everybody at it. Calls of `cool_down_for` carry the deadline
-- that they computed before they asked for the lock.
structure System where
  clock : Int
  state : RateGateState
  inFlight : Nat
  backgroundInFlight : Nat
  acquires : Store Nat Acquire
  coolDowns : Store Nat Int
  trace : List Mark
  deriving DecidableEq

def System.fresh (gate : RateGate) (clock : Int) : System :=
  ⟨clock,⟨[],none⟩,gate.inFlight,gate.backgroundInFlight,.empty,.empty,[]⟩

inductive Act where
  | tick (elapsed : Nat)
  | start (id : Nat) (priority : RequestPriority)
  | takeBackground (id : Nat)
  | takeTotal (id : Nat)
  | attempt (id : Nat)
  | wake (id : Nat)
  | cancel (id : Nat)
  | drop (id : Nat)
  | coolDownFor (id : Nat) (duration : Nat)
  | record (id : Nat)
  | cancelCoolDown (id : Nat)
  deriving DecidableEq, Repr

namespace System

def move (s : System) (id : Nat) (a : Acquire) : System := {s with acquires := s.acquires.put id a}

-- An acquire call or its permit goes away, and what it held goes back.
def release (s : System) (id : Nat) (a : Acquire) : System :=
  {s with
    inFlight := s.inFlight + a.holdsTotal.toNat
    backgroundInFlight := s.backgroundInFlight + a.holdsBackground.toNat
    acquires := s.acquires.erase id }

def takeBackground (s : System) (id : Nat) (a : Acquire) : Option System :=
  match a with
  | ⟨.background,.started⟩ =>
    if 0 < s.backgroundInFlight then
      some (move {s with backgroundInFlight := s.backgroundInFlight - 1} id ⟨.background,.queued⟩)
    else none
  | _ => none

def takeTotal (s : System) (id : Nat) (a : Acquire) : Option System :=
  if a = ⟨.interactive,.started⟩ ∨ a = ⟨.background,.queued⟩ then
    if 0 < s.inFlight then some (move {s with inFlight := s.inFlight - 1} id ⟨a.priority,.ready⟩) else none
  else none

def attempt (gate : RateGate) (s : System) (id : Nat) (a : Acquire) : Option System :=
  if a.phase = .ready then
    match Rpc.attempt gate a.priority s.clock s.state with
    | (state,.admitted) =>
      some (move {s with state := state, trace := s.trace ++ [.admitted a.priority s.clock]} id ⟨a.priority,.admitted⟩)
    | (state,.wait duration) => some (move {s with state := state} id ⟨a.priority,.sleeping (s.clock + duration)⟩)
    | (state,.panicked) => some (release {s with state := state} id a)
  else none

def wake (s : System) (id : Nat) (a : Acquire) : Option System :=
  match a.phase with
  | .sleeping wakesAt => if wakesAt ≤ s.clock then some (s.move id ⟨a.priority,.ready⟩) else none
  | _ => none

def cancel (s : System) (id : Nat) (a : Acquire) : Option System := if a.phase = .admitted then none else some (s.release id a)

def drop (s : System) (id : Nat) (a : Acquire) : Option System := if a.phase = .admitted then some (s.release id a) else none

def record (s : System) (id : Nat) (deadline : Int) : System :=
  {s with
    state := {s.state with cooldownUntil := some (s.state.cooldownUntil.elim deadline (max · deadline))}
    coolDowns := s.coolDowns.erase id
    trace := s.trace ++ [.recorded deadline] }

end System

def step (gate : RateGate) (s : System) : Act → Option System
  | .tick elapsed => some {s with clock := s.clock + elapsed}
  | .start id priority =>
    if s.acquires.get? id = none then some {s with acquires := s.acquires.insert id ⟨priority,.started⟩} else none
  | .takeBackground id => (s.acquires.get? id).bind (s.takeBackground id)
  | .takeTotal id => (s.acquires.get? id).bind (s.takeTotal id)
  | .attempt id => (s.acquires.get? id).bind (s.attempt gate id)
  | .wake id => (s.acquires.get? id).bind (s.wake id)
  | .cancel id => (s.acquires.get? id).bind (s.cancel id)
  | .drop id => (s.acquires.get? id).bind (s.drop id)
  | .coolDownFor id duration =>
    if s.coolDowns.get? id = none then some {s with coolDowns := s.coolDowns.insert id (s.clock + duration)} else none
  | .record id => (s.coolDowns.get? id).map (s.record id)
  | .cancelCoolDown id => (s.coolDowns.get? id).map (fun _ => {s with coolDowns := s.coolDowns.erase id})

def run (gate : RateGate) (s : System) (acts : List Act) : Option System := acts.foldlM (step gate) s

-- A burst of two, and a third call that has to wait for the window.
example : ((RateGate.new 2 50).toOption.bind (fun gate => run gate (.fresh gate 0)
    [.start 0 .interactive,.takeTotal 0,.attempt 0,.start 1 .interactive,.takeTotal 1,.attempt 1,.start 2 .interactive,
      .takeTotal 2,.tick 49,.attempt 2])).bind (fun s => s.acquires.get? 2) = some ⟨.interactive,.sleeping 50⟩ := by
  decide +kernel

end MemWal.Rpc
