import MemWal.Library.Runs
import MemWal.Mcp.Limiter

namespace MemWal.Mcp.Sse
open Library Limiter

-- Where a call of `handleSse` is suspended, or how it ended.
inductive Stage where
  | awaitingAuth | connecting | returned | threw
  deriving DecidableEq, Repr

-- The variables of one call and the state of its response. A listener is a
-- flag: `listening` is `cleanup`, on the response and as the transport's
-- `onclose`; `sdkListening` is the one that the transport adds in `connect`.
structure Handler where
  slot : Option Nat
  stage : Stage
  closed : Bool
  listening : Bool
  sdkListening : Bool
  cleanedUp : Bool
  deriving DecidableEq, Repr

structure Routes where
  limiter : Session
  sessionsById : Store String Nat
  handlers : Store Nat Handler

-- What can happen to a call that was made, and to its response and transport.
inductive Moment where
  | authResolved | authThrown | sdkListens | connected | connectThrown | responseClosed | transportClosed
  deriving DecidableEq, Repr

inductive Event where
  | request (id : Nat) (now : Time) (ip : String)
  | moment (id : Nat) (m : Moment)
  -- The sessions of the other transport share the limiter.
  | otherAcquire (now : Time) (ip : String)
  | otherRelease (closure : Nat)
  deriving DecidableEq, Repr

namespace Routes

def start (config : RateLimitConfig) : Routes := ⟨.start config,.empty,.empty⟩

def slots (s : Routes) : List Nat := s.handlers.entries.filterMap (fun e => e.2.slot)

def releaseSlot (s : Routes) (h : Handler) : Routes :=
  match h.slot with
  | none => s
  | some closure => {s with limiter := s.limiter.release closure}

-- Up to the first await.
def handleSse (s : Routes) (id : Nat) (now : Time) (ip : String) : Routes :=
  match s.handlers.get? id with
  | some _ => s
  | none =>
    match (s.limiter.limiter.acquire now ip).2 with
    | .error _ => {s with
        limiter := s.limiter.acquire now ip
        handlers := s.handlers.insert id ⟨none,.returned,false,false,false,false⟩}
    | .ok _ => {s with
        limiter := s.limiter.acquire now ip
        handlers := s.handlers.insert id ⟨some s.limiter.grants.length,.awaitingAuth,false,false,false,false⟩}

-- The transport of a call has the id that `sessionId` gives it.
variable (sessionId : Nat → String)

def cleanup (s : Routes) (id : Nat) : Routes :=
  match s.handlers.get? id with
  | none => s
  | some h =>
    if h.cleanedUp then s
    else releaseSlot {s with
      sessionsById := s.sessionsById.erase (sessionId id)
      handlers := s.handlers.put id {h with cleanedUp := true}} h

def advance (s : Routes) (id : Nat) (h : Handler) : Moment → Routes
  | .authResolved =>
    if h.stage = .awaitingAuth then {s with
      sessionsById := s.sessionsById.upsert (sessionId id) id
      handlers := s.handlers.put id {h with stage := .connecting, listening := true}}
    else s
  | .authThrown =>
    if h.stage = .awaitingAuth then
      releaseSlot {s with handlers := s.handlers.put id {h with stage := .returned}} h
    else s
  | .sdkListens =>
    if h.stage = .connecting then {s with handlers := s.handlers.put id {h with sdkListening := true}} else s
  | .connected =>
    if h.stage = .connecting then {s with handlers := s.handlers.put id {h with stage := .returned}} else s
  | .connectThrown =>
    if h.stage = .connecting then {s with handlers := s.handlers.put id {h with stage := .threw}} else s
  -- The listeners that are there by now are called, in their order.
  | .responseClosed =>
    if h.closed then s
    else
      let marked := {s with handlers := s.handlers.put id {h with closed := true}}
      let first := if h.listening then cleanup sessionId marked id else marked
      if h.sdkListening then cleanup sessionId first id else first
  | .transportClosed => if h.listening then cleanup sessionId s id else s

def step (s : Routes) : Event → Routes
  | .request id now ip => s.handleSse id now ip
  | .moment id m =>
    match s.handlers.get? id with
    | none => s
    | some h => s.advance sessionId id h m
  | .otherAcquire now ip => {s with limiter := s.limiter.acquire now ip}
  | .otherRelease closure => if closure ∈ s.slots then s else {s with limiter := s.limiter.release closure}

def run (config : RateLimitConfig) (events : List Event) : Routes := events.foldl (step sessionId) (start config)

end Routes

-- All calls are over and all responses have emitted 'close'.
def Quiet (s : Routes) : Prop := ∀ id h, s.handlers.get? id = some h →
  (h.stage = .returned ∨ h.stage = .threw) ∧ h.closed = true

structure GivenBack (s : Routes) : Prop where
  slots : s.limiter.limiter.totalActive =
    (s.limiter.grants.zipIdx.filter (fun e => !e.1.released && e.2 ∉ s.slots)).length
  sessions : ∀ key id, s.sessionsById.get? key = some id → s.handlers.get? id = none

-- `resolveAuth` succeeds when the response is closed already.
def Late (s : Routes) : Event → Prop
  | .moment id .authResolved => ∃ h, s.handlers.get? id = some h ∧ h.stage = .awaitingAuth ∧ h.closed = true
  | _ => False

-- Whenever that happens, `close` is called on the transport later.
def Rescued (sessionId : Nat → String) (config : RateLimitConfig) (events : List Event) : Prop :=
  ∀ earlier id later, events = earlier ++ .moment id .authResolved :: later →
    Late (Routes.run sessionId config earlier) (.moment id .authResolved) → .moment id .transportClosed ∈ later

namespace Handler

-- Some path is left that releases the slot.
def owes (h : Handler) : Bool := h.stage = .awaitingAuth || (h.listening && !h.cleanedUp)

-- The response has emitted 'close' and the cleanup still waits for it.
def leaks (h : Handler) : Bool := h.listening && h.closed && !h.cleanedUp

-- One call by itself.
def after (h : Handler) : Moment → Handler
  | .authResolved => if h.stage = .awaitingAuth then {h with stage := .connecting, listening := true} else h
  | .authThrown => if h.stage = .awaitingAuth then {h with stage := .returned} else h
  | .sdkListens => if h.stage = .connecting then {h with sdkListening := true} else h
  | .connected => if h.stage = .connecting then {h with stage := .returned} else h
  | .connectThrown => if h.stage = .connecting then {h with stage := .threw} else h
  | .responseClosed => if h.closed then h else {h with closed := true, cleanedUp := h.cleanedUp || h.listening}
  | .transportClosed => {h with cleanedUp := h.cleanedUp || h.listening}

structure Sane (h : Handler) : Prop where
  early : h.stage = .awaitingAuth → h.listening = false ∧ h.cleanedUp = false
  wired : h.stage = .connecting → h.listening = true
  sdk : h.sdkListening = true → h.listening = true
  slotless : h.slot = none → h.stage ≠ .awaitingAuth ∧ h.listening = false

variable {h : Handler}

theorem after_slot (h : Handler) (m : Moment) : (h.after m).slot = h.slot := by
  cases m <;> simp only [after] <;> (try split) <;> rfl

theorem Sane.after_sane (sane : h.Sane) (m : Moment) : (h.after m).Sane := by
  obtain ⟨early,wired,sdk,slotless⟩ := sane
  cases m with
  | authResolved =>
    simp only [after]
    split
    · rename_i awaiting
      exact ⟨nofun,fun _ => rfl,fun _ => rfl,fun none => absurd awaiting (slotless none).1⟩
    · exact ⟨early,wired,sdk,slotless⟩
  | authThrown =>
    simp only [after]
    split
    · exact ⟨nofun,nofun,sdk,fun none => ⟨nofun,(slotless none).2⟩⟩
    · exact ⟨early,wired,sdk,slotless⟩
  | sdkListens =>
    simp only [after]
    split
    · rename_i connecting
      exact ⟨early,wired,fun _ => wired connecting,slotless⟩
    · exact ⟨early,wired,sdk,slotless⟩
  | connected =>
    simp only [after]
    split
    · exact ⟨nofun,nofun,sdk,fun none => ⟨nofun,(slotless none).2⟩⟩
    · exact ⟨early,wired,sdk,slotless⟩
  | connectThrown =>
    simp only [after]
    split
    · exact ⟨nofun,nofun,sdk,fun none => ⟨nofun,(slotless none).2⟩⟩
    · exact ⟨early,wired,sdk,slotless⟩
  | responseClosed =>
    simp only [after]
    split
    · exact ⟨early,wired,sdk,slotless⟩
    · refine ⟨?_,wired,sdk,slotless⟩
      intro awaiting
      simp [early awaiting]
  | transportClosed =>
    refine ⟨?_,wired,sdk,slotless⟩
    intro awaiting
    simp [after,early awaiting]

theorem owes_before_cleanup (h : Handler) (closed : Bool)
    (owes : Handler.owes {h with closed, cleanedUp := h.cleanedUp || h.listening} = true) : h.owes = true := by
  simp only [Handler.owes,Bool.or_eq_true,Bool.and_eq_true,Bool.not_eq_true',Bool.or_eq_false_iff] at owes ⊢
  rcases owes with awaiting | ⟨listening,open_,_⟩
  · exact .inl awaiting
  · exact .inr ⟨listening,open_⟩

-- Nothing that is released is owed again.
theorem after_owes (h : Handler) (m : Moment) (owes : (h.after m).owes = true) : h.owes = true := by
  cases m with
  | authResolved =>
    by_cases awaiting : h.stage = .awaitingAuth
    · simp [Handler.owes,awaiting]
    · simpa only [after,if_neg awaiting] using owes
  | authThrown =>
    by_cases awaiting : h.stage = .awaitingAuth
    · simp [Handler.owes,awaiting]
    · simpa only [after,if_neg awaiting] using owes
  | sdkListens =>
    simp only [after] at owes
    split at owes <;> exact owes
  | connected =>
    by_cases connecting : h.stage = .connecting
    · simpa [after,connecting,Handler.owes] using owes
    · simpa only [after,if_neg connecting] using owes
  | connectThrown =>
    by_cases connecting : h.stage = .connecting
    · simpa [after,connecting,Handler.owes] using owes
    · simpa only [after,if_neg connecting] using owes
  | responseClosed =>
    simp only [after] at owes
    split at owes
    · exact owes
    · exact owes_before_cleanup h _ owes
  | transportClosed => exact owes_before_cleanup h _ owes

-- Only a call whose response is closed by the time it is wired comes to leak,
-- and only `close` on its transport ends that.
theorem Sane.after_leaks (sane : h.Sane) (m : Moment) : (h.after m).leaks = true ↔
    (h.leaks = true ∧ m ≠ .transportClosed) ∨ m = .authResolved ∧ h.stage = .awaitingAuth ∧ h.closed = true := by
  cases m with
  | authResolved =>
    by_cases awaiting : h.stage = .awaitingAuth
    · obtain ⟨silent,open_⟩ := sane.early awaiting
      simp [after,awaiting,leaks,silent,open_]
    · simp [after,awaiting]
  | authThrown =>
    simp only [after]
    split <;> simp [leaks]
  | sdkListens =>
    simp only [after]
    split <;> simp [leaks]
  | connected =>
    simp only [after]
    split <;> simp [leaks]
  | connectThrown =>
    simp only [after]
    split <;> simp [leaks]
  | responseClosed =>
    by_cases closed : h.closed = true
    · simp [after,closed]
    · cases listening : h.listening <;> simp [after,closed,leaks,listening]
  | transportClosed => cases listening : h.listening <;> simp [after,leaks,listening]

end Handler

end MemWal.Mcp.Sse
