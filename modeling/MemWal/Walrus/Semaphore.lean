import Mathlib.Data.List.Nodup
import Mathlib.Data.List.Sublists
import Mathlib.Data.List.Perm.Basic

namespace MemWal.Walrus

-- A ticket stands for one call of `acquire` and for its promise. The first
-- three fields are the object's own; then the calls in their order, the
-- promises resolved and rejected so far, in order, and the closures called.
structure AsyncSemaphore (τ : Type) where
  capacity : Nat
  available : Int
  waiters : List τ
  arrivals : List τ
  granted : List τ
  timedOut : List τ
  released : List τ
  deriving DecidableEq, Repr

namespace AsyncSemaphore
variable {τ : Type}

def new (capacity : Nat) : AsyncSemaphore τ := ⟨capacity,capacity,[],[],[],[],[]⟩

variable [DecidableEq τ]

def Settled (s : AsyncSemaphore τ) (ticket : τ) : Prop := ticket ∈ s.granted ∨ ticket ∈ s.timedOut

instance (s : AsyncSemaphore τ) (ticket : τ) : Decidable (s.Settled ticket) :=
  inferInstanceAs (Decidable (_ ∨ _))

def waiter (s : AsyncSemaphore τ) (ticket : τ) : AsyncSemaphore τ :=
  if s.Settled ticket then s else {s with available := s.available - 1, granted := s.granted ++ [ticket]}

def drainFrom : List τ → AsyncSemaphore τ → AsyncSemaphore τ
  | [],s => {s with waiters := []}
  | next :: rest,s =>
    if 0 < s.available then drainFrom rest ({s with waiters := rest}.waiter next)
    else {s with waiters := next :: rest}

def drain (s : AsyncSemaphore τ) : AsyncSemaphore τ := drainFrom s.waiters s

def release (s : AsyncSemaphore τ) : AsyncSemaphore τ := drain {s with available := min s.capacity (s.available + 1)}

def acquire (s : AsyncSemaphore τ) (ticket : τ) : AsyncSemaphore τ :=
  if ticket ∈ s.arrivals then s
  else if 0 < s.available then
    {s with available := s.available - 1, arrivals := s.arrivals ++ [ticket], granted := s.granted ++ [ticket]}
  else {s with waiters := s.waiters ++ [ticket], arrivals := s.arrivals ++ [ticket]}

-- Only a call that was queued has a timer.
def timeOut (s : AsyncSemaphore τ) (ticket : τ) : AsyncSemaphore τ :=
  if ticket ∉ s.arrivals ∨ s.Settled ticket then s
  else {s with waiters := s.waiters.filter (· != ticket), timedOut := s.timedOut ++ [ticket]}

-- The closure that a resolved promise carries, called at most once.
def close (s : AsyncSemaphore τ) (ticket : τ) : AsyncSemaphore τ :=
  if ticket ∈ s.granted ∧ ticket ∉ s.released then release {s with released := s.released ++ [ticket]} else s

-- The grants that are not released.
def held (s : AsyncSemaphore τ) : List τ := s.granted.filter (· ∉ s.released)

inductive Act (τ : Type) where
  | acquire (ticket : τ)
  | timeOut (ticket : τ)
  | close (ticket : τ)
  deriving DecidableEq, Repr

def act (s : AsyncSemaphore τ) : Act τ → AsyncSemaphore τ
  | .acquire ticket => s.acquire ticket
  | .timeOut ticket => s.timeOut ticket
  | .close ticket => s.close ticket

def run (capacity : Nat) (acts : List (Act τ)) : AsyncSemaphore τ := acts.foldl act (new capacity)

end AsyncSemaphore

section Invariant
open AsyncSemaphore
variable {τ : Type} [DecidableEq τ] {s : AsyncSemaphore τ} {ticket : τ}

-- What holds also while the queue is drained. The grants and then the waiters
-- stand in the order of their calls, so no waiter is overtaken.
structure Conserved (s : AsyncSemaphore τ) : Prop where
  distinct : s.arrivals.Nodup
  order : (s.granted ++ s.waiters).Sublist s.arrivals
  each : (s.granted ++ s.waiters ++ s.timedOut).Perm s.arrivals
  closed : ∀ ticket ∈ s.released, ticket ∈ s.granted
  sum : s.available + s.held.length = s.capacity
  room : 0 ≤ s.available

structure Sound (s : AsyncSemaphore τ) : Prop extends Conserved s where
  idle : 0 < s.available → s.waiters = []

theorem Conserved.parts (conserved : Conserved s) : (s.granted ++ s.waiters ++ s.timedOut).Nodup :=
  conserved.each.nodup_iff.mpr conserved.distinct

theorem Conserved.arrived (conserved : Conserved s) :
    ticket ∈ s.arrivals ↔ (ticket ∈ s.granted ∨ ticket ∈ s.waiters) ∨ ticket ∈ s.timedOut := by
  rw [← conserved.each.mem_iff,List.mem_append,List.mem_append]

theorem Conserved.timedOut_apart (conserved : Conserved s) (late : ticket ∈ s.timedOut) :
    ticket ∉ s.granted ∧ ticket ∉ s.waiters := by
  have apart := List.disjoint_of_nodup_append conserved.parts
  constructor
  · intro granted
    exact apart (List.mem_append_left _ granted) late
  · intro waiting
    exact apart (List.mem_append_right _ waiting) late

theorem Conserved.waiter_unsettled (conserved : Conserved s) (waiting : ticket ∈ s.waiters) : ¬ s.Settled ticket := by
  intro found
  rcases found with granted | late
  · have apart := List.disjoint_of_nodup_append (List.nodup_append.mp conserved.parts).1
    exact apart granted waiting
  · exact (conserved.timedOut_apart late).2 waiting

theorem new_sound (capacity : Nat) : Sound (new capacity : AsyncSemaphore τ) :=
  ⟨⟨List.nodup_nil,List.Sublist.refl _,List.Perm.refl _,nofun,by simp [new,held],Int.natCast_nonneg _⟩,fun _ => rfl⟩

-- What one call leaves of the state a ticket is in.
structure Frame (s next : AsyncSemaphore τ) (ticket : τ) : Prop where
  arrivals : ticket ∈ next.arrivals ↔ ticket ∈ s.arrivals
  released : ticket ∈ next.released ↔ ticket ∈ s.released
  granted : ticket ∈ s.granted → ticket ∈ next.granted
  timedOut : ticket ∈ s.timedOut → ticket ∈ next.timedOut

omit [DecidableEq τ] in
theorem Frame.refl (s : AsyncSemaphore τ) (ticket : τ) : Frame s s ticket := ⟨Iff.rfl,Iff.rfl,id,id⟩

-- What draining does: it grants some of the waiters.
structure Drained (s next : AsyncSemaphore τ) : Prop where
  capacity : next.capacity = s.capacity
  arrivals : next.arrivals = s.arrivals
  timedOut : next.timedOut = s.timedOut
  released : next.released = s.released
  granted : s.granted <+: next.granted

omit [DecidableEq τ] in
theorem Drained.trans {middle next : AsyncSemaphore τ} (one : Drained s middle) (other : Drained middle next) :
    Drained s next :=
  ⟨other.capacity.trans one.capacity,other.arrivals.trans one.arrivals,other.timedOut.trans one.timedOut,
    other.released.trans one.released,one.granted.trans other.granted⟩

theorem held_grant {released : List τ} (unreleased : ticket ∉ released) (granted : List τ) :
    ((granted ++ [ticket]).filter (· ∉ released)).length = (granted.filter (· ∉ released)).length + 1 := by
  simp [unreleased]

-- The first waiter takes the slot that is free.
theorem wake_first {rest : List τ} (conserved : Conserved s) (queue : s.waiters = ticket :: rest) (free : 0 < s.available) :
    Conserved ({s with waiters := rest}.waiter ticket) ∧ ({s with waiters := rest}.waiter ticket).waiters = rest ∧
      Drained s ({s with waiters := rest}.waiter ticket) := by
  have unsettled := conserved.waiter_unsettled (queue ▸ List.mem_cons_self)
  have unreleased : ticket ∉ s.released := fun closed => unsettled (.inl (conserved.closed ticket closed))
  have order := conserved.order
  have each := conserved.each
  have sum := conserved.sum
  rw [queue] at order each
  have woken : ({s with waiters := rest}.waiter ticket) =
      {s with waiters := rest, available := s.available - 1, granted := s.granted ++ [ticket]} := if_neg unsettled
  rw [woken]
  refine ⟨⟨conserved.distinct,?_,?_,?_,?_,?_⟩,rfl,⟨rfl,rfl,rfl,rfl,List.prefix_append _ _⟩⟩
  · simpa using order
  · simpa using each
  · intro other closed
    exact List.mem_append_left _ (conserved.closed other closed)
  · simp only [held,held_grant unreleased] at sum ⊢
    omega
  · change 0 ≤ s.available - 1
    omega

theorem drainFrom_sound {queue : List τ} (conserved : Conserved s) (whole : s.waiters = queue) :
    Sound (drainFrom queue s) ∧ Drained s (drainFrom queue s) := by
  induction queue generalizing s with
  | nil =>
    have same : drainFrom [] s = s := by rw [drainFrom,← whole]
    rw [same]
    exact ⟨⟨conserved,fun _ => whole⟩,⟨rfl,rfl,rfl,rfl,List.prefix_rfl⟩⟩
  | cons next rest ih =>
    rw [drainFrom]
    split
    · rename_i free
      obtain ⟨woken,left,drained⟩ := wake_first conserved whole free
      obtain ⟨sound,further⟩ := ih woken left
      exact ⟨sound,drained.trans further⟩
    · rename_i full
      rw [← whole]
      exact ⟨⟨conserved,fun free => absurd free full⟩,⟨rfl,rfl,rfl,rfl,List.prefix_rfl⟩⟩

theorem arrivals_distinct (sound : Sound s) (fresh : ticket ∉ s.arrivals) : (s.arrivals ++ [ticket]).Nodup := by
  rw [← List.concat_eq_append]
  exact sound.distinct.concat fresh

-- A call that finds a slot finds nobody waiting.
theorem take_sound (sound : Sound s) (fresh : ticket ∉ s.arrivals) (free : 0 < s.available) : Sound
    {s with available := s.available - 1, arrivals := s.arrivals ++ [ticket], granted := s.granted ++ [ticket]} := by
  have ungranted : ticket ∉ s.granted := fun granted => fresh (sound.arrived.mpr (.inl (.inl granted)))
  have unreleased : ticket ∉ s.released := fun closed => ungranted (sound.closed ticket closed)
  have none := sound.idle free
  have order := sound.order
  have each := sound.each
  have sum := sound.sum
  rw [none,List.append_nil] at order each
  refine ⟨⟨arrivals_distinct sound fresh,?_,?_,?_,?_,?_⟩,fun _ => none⟩
  · simp only [none,List.append_nil]
    exact order.append (List.Sublist.refl _)
  · simp only [none,List.append_nil]
    have moved : (s.granted ++ [ticket] ++ s.timedOut).Perm (s.granted ++ s.timedOut ++ [ticket]) := by
      rw [List.append_assoc,List.append_assoc]
      exact List.perm_append_comm.append_left _
    exact moved.trans (each.append_right _)
  · intro other closed
    exact List.mem_append_left _ (sound.closed other closed)
  · simp only [held,held_grant unreleased] at sum ⊢
    omega
  · change 0 ≤ s.available - 1
    omega

theorem queue_sound (sound : Sound s) (fresh : ticket ∉ s.arrivals) (full : ¬ 0 < s.available) :
    Sound {s with waiters := s.waiters ++ [ticket], arrivals := s.arrivals ++ [ticket]} := by
  refine ⟨⟨arrivals_distinct sound fresh,?_,?_,sound.closed,sound.sum,sound.room⟩,fun free => absurd free full⟩
  · rw [← List.append_assoc]
    exact sound.order.append (List.Sublist.refl _)
  · have moved : (s.granted ++ (s.waiters ++ [ticket]) ++ s.timedOut).Perm
        (s.granted ++ s.waiters ++ s.timedOut ++ [ticket]) := by
      rw [← List.append_assoc,List.append_assoc _ [ticket],List.append_assoc _ s.timedOut]
      exact List.perm_append_comm.append_left _
    exact moved.trans (sound.each.append_right _)

theorem acquire_sound (sound : Sound s) (ticket : τ) : Sound (s.acquire ticket) := by
  rw [acquire]
  split
  · exact sound
  · rename_i fresh
    split
    · rename_i free
      exact take_sound sound fresh free
    · rename_i full
      exact queue_sound sound fresh full

theorem timeOut_sound (sound : Sound s) (ticket : τ) : Sound (s.timeOut ticket) := by
  rw [timeOut]
  split
  · exact sound
  · rename_i pending
    obtain ⟨arrived,unsettled⟩ := not_or.mp pending
    obtain ⟨ungranted,intime⟩ := not_or.mp unsettled
    have waiting : ticket ∈ s.waiters := by
      rcases sound.arrived.mp (not_not.mp arrived) with (granted | waiting) | late
      · exact absurd granted ungranted
      · exact waiting
      · exact absurd late intime
    have distinct : s.waiters.Nodup := (List.nodup_append.mp (List.nodup_append.mp sound.parts).1).2.1
    refine ⟨⟨sound.distinct,?_,?_,sound.closed,sound.sum,sound.room⟩,?_⟩
    · exact (List.filter_sublist.append_left _).trans sound.order
    · have moved : (s.waiters.filter (· != ticket) ++ [ticket]).Perm s.waiters := by
        rw [← List.Nodup.erase_eq_filter distinct]
        exact List.perm_append_comm.trans (List.perm_cons_erase waiting).symm
      have swap : (s.granted ++ s.waiters.filter (· != ticket) ++ (s.timedOut ++ [ticket])).Perm
          (s.granted ++ (s.waiters.filter (· != ticket) ++ [ticket]) ++ s.timedOut) := by
        simp only [List.append_assoc]
        exact (List.perm_append_comm.append_left _).append_left _
      exact (swap.trans ((moved.append_left _).append_right _)).trans sound.each
    · intro free
      simp [sound.idle free]

theorem held_close (conserved : Conserved s) (granted : ticket ∈ s.granted) (unreleased : ticket ∉ s.released) :
    (AsyncSemaphore.held {s with released := s.released ++ [ticket]}).length + 1 = s.held.length := by
  have distinct : s.granted.Nodup := (List.nodup_append.mp (List.nodup_append.mp conserved.parts).1).1
  have fewer : AsyncSemaphore.held {s with released := s.released ++ [ticket]} = s.held.erase ticket := by
    simp only [held]
    rw [List.Nodup.erase_eq_filter (distinct.filter _),List.filter_filter]
    apply List.filter_congr
    intro other _
    rw [Bool.eq_iff_iff]
    simp [and_comm]
  have member : ticket ∈ s.held := List.mem_filter.mpr ⟨granted,decide_eq_true unreleased⟩
  rw [fewer,List.length_erase_of_mem member]
  have some_ := List.length_pos_of_mem member
  omega

theorem release_sound (sound : Sound s) (granted : ticket ∈ s.granted) (unreleased : ticket ∉ s.released) :
    Sound (s.close ticket) ∧ Drained {s with released := s.released ++ [ticket]} (s.close ticket) := by
  have fewer := held_close sound.toConserved granted unreleased
  have sum := sound.sum
  have room := sound.room
  have below : s.available + 1 ≤ s.capacity := by omega
  have clamp : min (s.capacity : Int) (s.available + 1) = s.available + 1 := Int.min_eq_right below
  have freed : s.close ticket = drainFrom s.waiters {s with released := s.released ++ [ticket], available := s.available + 1} := by
    rw [close,if_pos ⟨granted,unreleased⟩,release]
    simp only [clamp]
    rfl
  have conserved : Conserved {s with released := s.released ++ [ticket], available := s.available + 1} := by
    refine ⟨sound.distinct,sound.order,sound.each,?_,?_,?_⟩
    · intro other closed
      rcases List.mem_append.mp closed with old | new
      · exact sound.closed other old
      · exact List.mem_singleton.mp new ▸ granted
    · have same : AsyncSemaphore.held {s with released := s.released ++ [ticket], available := s.available + 1} =
        AsyncSemaphore.held {s with released := s.released ++ [ticket]} := rfl
      rw [same]
      change s.available + 1 + _ = (s.capacity : Int)
      omega
    · change 0 ≤ s.available + 1
      omega
  obtain ⟨after,drained⟩ := drainFrom_sound conserved rfl
  rw [freed]
  exact ⟨after,⟨drained.capacity,drained.arrivals,drained.timedOut,drained.released,drained.granted⟩⟩

theorem close_sound (sound : Sound s) (ticket : τ) : Sound (s.close ticket) := by
  by_cases open_ : ticket ∈ s.granted ∧ ticket ∉ s.released
  · exact (release_sound sound open_.1 open_.2).1
  · rwa [close,if_neg open_]

theorem acquire_kept (s : AsyncSemaphore τ) (ticket : τ) : (s.acquire ticket).capacity = s.capacity ∧
    (s.acquire ticket).released = s.released ∧ (s.acquire ticket).timedOut = s.timedOut := by
  rw [acquire]
  split
  · exact ⟨rfl,rfl,rfl⟩
  · split <;> exact ⟨rfl,rfl,rfl⟩

theorem timeOut_kept (s : AsyncSemaphore τ) (ticket : τ) :
    (s.timeOut ticket).capacity = s.capacity ∧ (s.timeOut ticket).arrivals = s.arrivals := by
  rw [timeOut]
  split <;> exact ⟨rfl,rfl⟩

theorem timeOut_frame (s : AsyncSemaphore τ) (ticket other : τ) : Frame s (s.timeOut ticket) other := by
  rw [timeOut]
  split
  · exact .refl s other
  · exact ⟨Iff.rfl,Iff.rfl,id,List.mem_append_left _⟩

theorem close_kept (sound : Sound s) (ticket : τ) : (s.close ticket).capacity = s.capacity ∧
    (s.close ticket).arrivals = s.arrivals ∧ (s.close ticket).timedOut = s.timedOut := by
  by_cases open_ : ticket ∈ s.granted ∧ ticket ∉ s.released
  · obtain ⟨_,drained⟩ := release_sound sound open_.1 open_.2
    exact ⟨drained.capacity,drained.arrivals,drained.timedOut⟩
  · rw [close,if_neg open_]
    exact ⟨rfl,rfl,rfl⟩

theorem act_sound (sound : Sound s) (a : Act τ) :
    Sound (s.act a) ∧ (s.act a).capacity = s.capacity ∧ ∀ ticket ∈ s.timedOut, ticket ∈ (s.act a).timedOut := by
  cases a with
  | acquire ticket =>
    obtain ⟨capacity,_,timedOut⟩ := acquire_kept s ticket
    exact ⟨acquire_sound sound ticket,capacity,fun late old => timedOut.symm ▸ old⟩
  | timeOut ticket =>
    exact ⟨timeOut_sound sound ticket,(timeOut_kept s ticket).1,fun late old => (timeOut_frame s ticket late).timedOut old⟩
  | close ticket =>
    obtain ⟨capacity,_,timedOut⟩ := close_kept sound ticket
    exact ⟨close_sound sound ticket,capacity,fun late old => timedOut.symm ▸ old⟩

theorem acts_sound (sound : Sound s) (acts : List (Act τ)) :
    Sound (acts.foldl act s) ∧ (acts.foldl act s).capacity = s.capacity ∧
      ∀ ticket ∈ s.timedOut, ticket ∈ (acts.foldl act s).timedOut := by
  induction acts generalizing s with
  | nil => exact ⟨sound,rfl,fun _ => id⟩
  | cons a rest ih =>
    obtain ⟨next,capacity,kept⟩ := act_sound sound a
    obtain ⟨last,same,later⟩ := ih next
    exact ⟨last,same.trans capacity,fun ticket late => later ticket (kept ticket late)⟩

theorem run_sound (capacity : Nat) (acts : List (Act τ)) :
    Sound (run capacity acts) ∧ (run capacity acts).capacity = capacity := by
  obtain ⟨sound,same,_⟩ := acts_sound (new_sound capacity) acts
  exact ⟨sound,same⟩

end Invariant

end MemWal.Walrus
