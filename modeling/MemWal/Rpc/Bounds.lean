import Mathlib.Data.List.TakeWhile
import MemWal.Library.Windows
import MemWal.Rpc.Gate

namespace MemWal.Rpc
open Library Library.Fallible

-- What one act can do to the system, guards included.
inductive Effect (gate : RateGate) (s : System) (act : Act) : System → Prop where
  | ticked (elapsed : Nat) : Effect gate s act {s with clock := s.clock + elapsed}
  | started (id : Nat) (priority : RequestPriority) : act = .start id priority → s.acquires.get? id = none →
      Effect gate s act {s with acquires := s.acquires.insert id ⟨priority,.started⟩}
  | queued (id : Nat) : s.acquires.get? id = some ⟨.background,.started⟩ → 0 < s.backgroundInFlight →
      Effect gate s act (System.move {s with backgroundInFlight := s.backgroundInFlight - 1} id ⟨.background,.queued⟩)
  | readied (id : Nat) (a : Acquire) : s.acquires.get? id = some a →
      a = ⟨.interactive,.started⟩ ∨ a = ⟨.background,.queued⟩ → 0 < s.inFlight →
      Effect gate s act (System.move {s with inFlight := s.inFlight - 1} id ⟨a.priority,.ready⟩)
  | admitted (id : Nat) (p : RequestPriority) (state : RateGateState) : s.acquires.get? id = some ⟨p,.ready⟩ →
      attempt gate p s.clock s.state = (state,.admitted) →
      Effect gate s act (System.move {s with state := state, trace := s.trace ++ [.admitted p s.clock]} id ⟨p,.admitted⟩)
  | waited (id : Nat) (p : RequestPriority) (state : RateGateState) (duration : Nat) :
      s.acquires.get? id = some ⟨p,.ready⟩ → attempt gate p s.clock s.state = (state,.wait duration) →
      Effect gate s act (System.move {s with state := state} id ⟨p,.sleeping (s.clock + duration)⟩)
  | panicked (id : Nat) (p : RequestPriority) (state : RateGateState) : s.acquires.get? id = some ⟨p,.ready⟩ →
      attempt gate p s.clock s.state = (state,.panicked) →
      Effect gate s act (System.release {s with state := state} id ⟨p,.ready⟩)
  | woken (id : Nat) (p : RequestPriority) (wakesAt : Int) : s.acquires.get? id = some ⟨p,.sleeping wakesAt⟩ →
      wakesAt ≤ s.clock → Effect gate s act (s.move id ⟨p,.ready⟩)
  | released (id : Nat) (a : Acquire) : s.acquires.get? id = some a → Effect gate s act (s.release id a)
  | cooling (id : Nat) (duration : Nat) : s.coolDowns.get? id = none →
      Effect gate s act {s with coolDowns := s.coolDowns.insert id (s.clock + duration)}
  | recorded (id : Nat) (deadline : Int) : s.coolDowns.get? id = some deadline →
      Effect gate s act (s.record id deadline)
  | warmed (id : Nat) (deadline : Int) : s.coolDowns.get? id = some deadline →
      Effect gate s act {s with coolDowns := s.coolDowns.erase id}

section Steps
variable {gate : RateGate} {s next : System} {act : Act}

theorem attempt_effect {id : Nat} {a : Acquire} (found : s.acquires.get? id = some a)
    (ran : s.attempt gate id a = some next) : Effect gate s act next := by
  unfold System.attempt at ran
  split at ran
  · rename_i ready
    obtain ⟨p,phase⟩ := a
    cases ready
    split at ran
    · rename_i state outcome
      cases ran
      exact .admitted id p state found outcome
    · rename_i state duration outcome
      cases ran
      exact .waited id p state duration found outcome
    · rename_i state outcome
      cases ran
      exact .panicked id p state found outcome
  · cases ran

theorem permit_effect {id : Nat} {a : Acquire} (found : s.acquires.get? id = some a)
    (ran : s.takeBackground id a = some next ∨ s.takeTotal id a = some next) : Effect gate s act next := by
  rcases ran with ran | ran
  · unfold System.takeBackground at ran
    split at ran
    · split at ran
      · rename_i left
        cases ran
        exact .queued id found left
      · cases ran
    · cases ran
  · unfold System.takeTotal at ran
    split at ran
    · rename_i waiting
      split at ran
      · rename_i left
        cases ran
        exact .readied id a found waiting left
      · cases ran
    · cases ran

theorem wake_effect {id : Nat} {a : Acquire} (found : s.acquires.get? id = some a) (ran : s.wake id a = some next) :
    Effect gate s act next := by
  obtain ⟨p,phase⟩ := a
  unfold System.wake at ran
  split at ran
  · rename_i wakesAt asleep
    cases asleep
    split at ran
    · rename_i due
      cases ran
      exact .woken id p wakesAt found due
    · cases ran
  · cases ran

theorem leave_effect {id : Nat} {a : Acquire} (found : s.acquires.get? id = some a)
    (ran : s.cancel id a = some next ∨ s.drop id a = some next) : Effect gate s act next := by
  rcases ran with ran | ran
  · unfold System.cancel at ran
    split at ran
    · cases ran
    · cases ran
      exact .released id a found
  · unfold System.drop at ran
    split at ran
    · cases ran
      exact .released id a found
    · cases ran

theorem step_effect (ran : step gate s act = some next) : Effect gate s act next := by
  cases act with
  | tick elapsed =>
    cases ran
    exact .ticked elapsed
  | start id priority =>
    simp only [step] at ran
    split at ran
    · rename_i free
      cases ran
      exact .started id priority rfl free
    · cases ran
  | takeBackground id =>
    obtain ⟨a,found,ran⟩ := Option.bind_eq_some_iff.mp ran
    exact permit_effect found (.inl ran)
  | takeTotal id =>
    obtain ⟨a,found,ran⟩ := Option.bind_eq_some_iff.mp ran
    exact permit_effect found (.inr ran)
  | attempt id =>
    obtain ⟨a,found,ran⟩ := Option.bind_eq_some_iff.mp ran
    exact attempt_effect found ran
  | wake id =>
    obtain ⟨a,found,ran⟩ := Option.bind_eq_some_iff.mp ran
    exact wake_effect found ran
  | cancel id =>
    obtain ⟨a,found,ran⟩ := Option.bind_eq_some_iff.mp ran
    exact leave_effect found (.inl ran)
  | drop id =>
    obtain ⟨a,found,ran⟩ := Option.bind_eq_some_iff.mp ran
    exact leave_effect found (.inr ran)
  | coolDownFor id duration =>
    simp only [step] at ran
    split at ran
    · rename_i free
      cases ran
      exact .cooling id duration free
    · cases ran
  | record id =>
    obtain ⟨deadline,found,rfl⟩ := Option.map_eq_some_iff.mp ran
    exact .recorded id deadline found
  | cancelCoolDown id =>
    obtain ⟨deadline,found,rfl⟩ := Option.map_eq_some_iff.mp ran
    exact .warmed id deadline found

-- What every act keeps holds along every run.
theorem run_keeps {I : System → Prop} (kept : ∀ s act next, I s → Effect gate s act next → I next) {acts : List Act}
    (start : I s) (ran : run gate s acts = some next) : I next := by
  induction acts generalizing s with
  | nil =>
    cases ran
    exact start
  | cons act rest ih =>
    rw [run,List.foldlM_cons] at ran
    obtain ⟨middle,first,others⟩ := Option.bind_eq_some_iff.mp ran
    exact ih (kept s act middle start (step_effect first)) others

end Steps

-- What is held and what is left are the two semaphores.
structure Permits (gate : RateGate) (s : System) : Prop where
  total : s.inFlight + s.acquires.total (fun _ a => a.holdsTotal.toNat) = gate.inFlight
  background : s.backgroundInFlight + s.acquires.total (fun _ a => a.holdsBackground.toNat) = gate.backgroundInFlight

section Semaphores
variable {gate : RateGate} {s : System} {id : Nat} {a : Acquire} {act : Act}

theorem Permits.move (held : Permits gate s) (found : s.acquires.get? id = some a) (b : Acquire) (left backgroundLeft : Nat)
    (total : left + b.holdsTotal.toNat = s.inFlight + a.holdsTotal.toNat)
    (background : backgroundLeft + b.holdsBackground.toNat = s.backgroundInFlight + a.holdsBackground.toNat)
    (state : RateGateState) (trace : List Mark) :
    Permits gate (System.move {s with
      inFlight := left, backgroundInFlight := backgroundLeft, state := state, trace := trace} id b) := by
  have all := Store.total_put found b (fun _ a => a.holdsTotal.toNat)
  have some_ := Store.total_put found b (fun _ a => a.holdsBackground.toNat)
  have one := held.total
  have two := held.background
  constructor
  · simp only [System.move]
    omega
  · simp only [System.move]
    omega

theorem Permits.release (held : Permits gate s) (found : s.acquires.get? id = some a) (state : RateGateState) :
    Permits gate (System.release {s with state := state} id a) := by
  have all := Store.total_erase found (fun _ a => a.holdsTotal.toNat)
  have some_ := Store.total_erase found (fun _ a => a.holdsBackground.toNat)
  have one := held.total
  have two := held.background
  constructor
  · simp only [System.release]
    omega
  · simp only [System.release]
    omega

theorem Permits.kept {next : System} (held : Permits gate s) (effect : Effect gate s act next) : Permits gate next := by
  cases effect with
  | ticked => exact ⟨held.total,held.background⟩
  | started id priority _ free =>
    constructor
    · simpa [Store.total_insert _ free,Acquire.holdsTotal] using held.total
    · simpa [Store.total_insert _ free,Acquire.holdsBackground] using held.background
  | queued id found left =>
    refine held.move found ⟨.background,.queued⟩ s.inFlight _ rfl ?_ s.state s.trace
    simp only [Acquire.holdsBackground,reduceCtorEq,ne_eq,not_false_eq_true,and_self,decide_true,Bool.toNat_true,
      not_true,and_false,decide_false,Bool.toNat_false]
    omega
  | readied id a found waiting left =>
    refine held.move found ⟨a.priority,.ready⟩ _ s.backgroundInFlight ?_ ?_ s.state s.trace
    · rcases waiting with rfl | rfl
      all_goals
        simp only [Acquire.holdsTotal,Bool.toNat_true,Bool.toNat_false]
        omega
    · rcases waiting with rfl | rfl
      all_goals rfl
  | admitted id p state found =>
    exact held.move found ⟨p,.admitted⟩ s.inFlight s.backgroundInFlight rfl (by cases p <;> rfl) state _
  | waited id p state duration found =>
    exact held.move found ⟨p,.sleeping _⟩ s.inFlight s.backgroundInFlight rfl (by cases p <;> rfl) state s.trace
  | panicked id p state found => exact held.release found state
  | woken id p wakesAt found =>
    exact held.move found ⟨p,.ready⟩ s.inFlight s.backgroundInFlight rfl (by cases p <;> rfl) s.state s.trace
  | released id a found => exact held.release found s.state
  | cooling => exact ⟨held.total,held.background⟩
  | recorded => exact ⟨held.total,held.background⟩
  | warmed => exact ⟨held.total,held.background⟩

theorem fresh_permits (clock : Int) : Permits gate (.fresh gate clock) := ⟨rfl,rfl⟩

end Semaphores

-- The four ways out of one turn of the loop.
inductive Attempted (gate : RateGate) (p : RequestPriority) (now : Int) (state : RateGateState) :
    RateGateState → Verdict → Prop where
  | cooling (deadline : Int) : state.cooldownUntil = some deadline → now < deadline →
      Attempted gate p now state state (.wait (durationSince deadline now))
  | admitted : (∀ deadline, state.cooldownUntil = some deadline → deadline ≤ now) →
      (prune gate now state.admittedAt).length < gate.admissionLimit p →
      Attempted gate p now state ⟨prune gate now state.admittedAt ++ [now],none⟩ .admitted
  | full (oldest : Int) : (∀ deadline, state.cooldownUntil = some deadline → deadline ≤ now) →
      gate.admissionLimit p ≤ (prune gate now state.admittedAt).length →
      (prune gate now state.admittedAt).head? = some oldest →
      Attempted gate p now state ⟨prune gate now state.admittedAt,none⟩ (.wait (gate.window - durationSince now oldest))
  | panicked : (∀ deadline, state.cooldownUntil = some deadline → deadline ≤ now) →
      gate.admissionLimit p ≤ (prune gate now state.admittedAt).length →
      (prune gate now state.admittedAt).head? = none →
      Attempted gate p now state ⟨prune gate now state.admittedAt,none⟩ .panicked

theorem attempt_spec (gate : RateGate) (p : RequestPriority) (now : Int) (state : RateGateState) :
    Attempted gate p now state (attempt gate p now state).1 (attempt gate p now state).2 := by
  unfold attempt
  split
  · rename_i deadline live
    obtain ⟨set,future⟩ := Option.filter_eq_some_iff.mp live
    rw [show ({state with cooldownUntil := some deadline} : RateGateState) = state by rw [← set]]
    exact .cooling deadline set (by simpa using future)
  · rename_i none_
    have over_ : ∀ deadline, state.cooldownUntil = some deadline → deadline ≤ now := by
      intro deadline set
      rw [set] at none_
      simpa using none_
    by_cases room : (prune gate now state.admittedAt).length < gate.admissionLimit p
    · simp only [if_pos room]
      exact .admitted over_ room
    · simp only [if_neg room]
      split
      · rename_i oldest first
        exact .full oldest over_ (Nat.le_of_not_lt room) first
      · rename_i empty
        exact .panicked over_ (Nat.le_of_not_lt room) empty

theorem attempted {gate : RateGate} {p : RequestPriority} {now : Int} {state next : RateGateState} {verdict : Verdict}
    (outcome : attempt gate p now state = (next,verdict)) : Attempted gate p now state next verdict := by
  have spec := attempt_spec gate p now state
  rwa [outcome] at spec

-- A gate that admits anybody at all has an oldest admission when it is full.
theorem never_panics {gate : RateGate} {p : RequestPriority} (some_ : 0 < gate.admissionLimit p) (now : Int)
    (state : RateGateState) : (attempt gate p now state).2 ≠ .panicked := by
  intro failed
  generalize outcome : attempt gate p now state = result at failed
  obtain ⟨next,verdict⟩ := result
  cases failed
  cases attempted outcome with
  | panicked _ full empty =>
    rw [List.head?_eq_none_iff] at empty
    rw [empty,List.length_nil] at full
    omega

def Mark.admission : Mark → Option (RequestPriority × Int)
  | .admitted p time => some (p,time)
  | .recorded _ => none

def admissions (trace : List Mark) : List (RequestPriority × Int) := trace.filterMap Mark.admission

@[simp] theorem admissions_append (one two : List Mark) : admissions (one ++ two) = admissions one ++ admissions two :=
  List.filterMap_append

@[simp] theorem admissions_admitted (p : RequestPriority) (time : Int) :
    admissions [.admitted p time] = [(p,time)] := rfl

-- Every admission found fewer than its limit in the window that it closes.
def Limited (gate : RateGate) (log : List (RequestPriority × Int)) : Prop :=
  ∀ before p time after, log = before ++ (p,time) :: after →
    (before.filter (fun a => time - gate.window < a.2)).length < gate.admissionLimit p

structure Logged (gate : RateGate) (s : System) : Prop where
  past : ∀ a ∈ admissions s.trace, a.2 ≤ s.clock
  ordered : ((admissions s.trace).map Prod.snd).Pairwise (· ≤ ·)
  log : ∃ gone, (admissions s.trace).map Prod.snd = gone ++ s.state.admittedAt ∧
    ∀ time ∈ gone, time + gate.window ≤ s.clock
  limited : Limited gate (admissions s.trace)

section Log
variable {gate : RateGate} {now : Int} {act : Act}

-- What pruning takes has left the window, and what it leaves is inside.
theorem prune_split {log : List Int} (ordered : log.Pairwise (· ≤ ·)) (past : ∀ time ∈ log, time ≤ now) :
    ∃ gone, log = gone ++ prune gate now log ∧ (∀ time ∈ gone, time + gate.window ≤ now) ∧
      ∀ time ∈ prune gate now log, now - gate.window < time := by
  refine ⟨_,(List.takeWhile_append_dropWhile).symm,?_,?_⟩
  · intro time member
    have old : gate.window ≤ durationSince now time := by simpa using List.mem_takeWhile_imp member
    have before := past time ((List.takeWhile_sublist _).subset member)
    unfold durationSince at old
    omega
  · intro time member
    cases kept : prune gate now log with
    | nil =>
      rw [kept] at member
      exact absurd member List.not_mem_nil
    | cons oldest rest =>
      have young : ¬ gate.window ≤ durationSince now oldest := by
        have first := List.head?_dropWhile_not (fun admitted => decide (gate.window ≤ durationSince now admitted)) log
        rw [show log.dropWhile _ = oldest :: rest from kept] at first
        simpa only [List.head?_cons,Bool.not_eq_eq_eq_not,Bool.not_true,decide_eq_false_iff_not] using first
      have sorted : (oldest :: rest).Pairwise (· ≤ ·) := kept ▸ ordered.sublist (List.dropWhile_sublist _)
      rw [kept] at member
      have after : oldest ≤ time := by
        rcases List.mem_cons.mp member with rfl | later
        · exact Int.le_refl _
        · exact List.rel_of_pairwise_cons sorted later
      unfold durationSince at young
      omega

theorem Logged.sorted {s : System} (logged : Logged gate s) : s.state.admittedAt.Pairwise (· ≤ ·) := by
  obtain ⟨gone,all,_⟩ := logged.log
  have ordered := logged.ordered
  rw [all] at ordered
  exact (List.pairwise_append.mp ordered).2.1

theorem Logged.before {s : System} (logged : Logged gate s) : ∀ time ∈ s.state.admittedAt, time ≤ s.clock := by
  obtain ⟨gone,all,_⟩ := logged.log
  intro time member
  have there : time ∈ (admissions s.trace).map Prod.snd := by
    rw [all]
    exact List.mem_append_right _ member
  obtain ⟨a,own,rfl⟩ := List.mem_map.mp there
  exact logged.past a own

-- The log as `acquire` reads it: what of the trace lies in the last window.
theorem Logged.pruned {s : System} (logged : Logged gate s) :
    ∃ gone, (admissions s.trace).map Prod.snd = gone ++ prune gate s.clock s.state.admittedAt ∧
      (∀ time ∈ gone, time + gate.window ≤ s.clock) ∧
      ∀ time ∈ prune gate s.clock s.state.admittedAt, s.clock - gate.window < time := by
  obtain ⟨gone,all,old⟩ := logged.log
  obtain ⟨stale,split,left,young⟩ := @prune_split gate _ _ logged.sorted logged.before
  refine ⟨gone ++ stale,?_,?_,young⟩
  · rw [all,List.append_assoc,← split]
  · intro time member
    rcases List.mem_append.mp member with one | two
    · exact old time one
    · exact left time two

theorem Logged.count {s : System} (logged : Logged gate s) :
    ((admissions s.trace).filter (fun a => s.clock - gate.window < a.2)).length =
      (prune gate s.clock s.state.admittedAt).length := by
  obtain ⟨gone,all,old,young⟩ := logged.pruned
  have mapped : ((admissions s.trace).filter (fun a => s.clock - gate.window < a.2)).length =
      (((admissions s.trace).map Prod.snd).filter (fun time => s.clock - gate.window < time)).length := by
    rw [List.filter_map,List.length_map]
    rfl
  have none_ : gone.filter (fun time => s.clock - gate.window < time) = [] := by
    rw [List.filter_eq_nil_iff]
    intro time member
    have := old time member
    simp only [decide_eq_true_eq]
    omega
  have all_ : (prune gate s.clock s.state.admittedAt).filter (fun time => s.clock - gate.window < time) =
      prune gate s.clock s.state.admittedAt := by
    rw [List.filter_eq_self]
    intro time member
    simpa using young time member
  rw [mapped,all,List.filter_append,none_,all_,List.nil_append]

theorem Logged.waits {s : System} (logged : Logged gate s) {p : RequestPriority} {state : RateGateState}
    {verdict : Verdict} (outcome : Attempted gate p s.clock s.state state verdict) (waits : verdict ≠ .admitted) :
    ∃ gone, (admissions s.trace).map Prod.snd = gone ++ state.admittedAt ∧
      ∀ time ∈ gone, time + gate.window ≤ s.clock := by
  obtain ⟨gone,all,old,_⟩ := logged.pruned
  cases outcome with
  | cooling => exact logged.log
  | admitted => exact absurd rfl waits
  | full => exact ⟨gone,all,old⟩
  | panicked => exact ⟨gone,all,old⟩

theorem Limited.append {log : List (RequestPriority × Int)} (limited : Limited gate log) {p : RequestPriority}
    {time : Int} (room : (log.filter (fun a => time - gate.window < a.2)).length < gate.admissionLimit p) :
    Limited gate (log ++ [(p,time)]) := by
  intro before q t after split
  rcases List.append_eq_append_iff.mp split with ⟨rest,rfl,tail⟩ | ⟨rest,rfl,tail⟩
  · cases rest with
    | nil =>
      rw [List.nil_append,List.cons.injEq] at tail
      obtain ⟨same,_⟩ := tail
      cases same
      rwa [List.append_nil]
    | cons a more =>
      rw [List.cons_append,List.cons.injEq] at tail
      have := congrArg List.length tail.2
      simp at this
  · cases rest with
    | nil =>
      rw [List.nil_append,List.cons.injEq] at tail
      obtain ⟨same,_⟩ := tail
      cases same
      rwa [List.append_nil] at room
    | cons a more =>
      rw [List.cons_append,List.cons.injEq] at tail
      obtain ⟨rfl,_⟩ := tail
      exact limited before q t more rfl

theorem Logged.kept {s next : System} (logged : Logged gate s) (effect : Effect gate s act next) : Logged gate next := by
  cases effect with
  | ticked elapsed =>
    refine ⟨?_,logged.ordered,?_,logged.limited⟩
    · intro a member
      have := logged.past a member
      change a.2 ≤ s.clock + elapsed
      omega
    · obtain ⟨gone,all,old⟩ := logged.log
      refine ⟨gone,all,?_⟩
      intro time member
      have := old time member
      change time + gate.window ≤ s.clock + elapsed
      omega
  | admitted id p state found outcome =>
    have spec := attempted outcome
    have count := logged.count
    obtain ⟨gone,all,old,young⟩ := logged.pruned
    cases spec with
    | admitted over_ room =>
      refine ⟨?_,?_,⟨gone,?_,old⟩,?_⟩
      · intro a member
        rw [System.move,admissions_append,admissions_admitted] at member
        rcases List.mem_append.mp member with earlier | new
        · exact logged.past a earlier
        · rw [List.mem_singleton.mp new]
          exact Int.le_refl _
      · rw [System.move,admissions_append,admissions_admitted,List.map_append,List.pairwise_append]
        refine ⟨logged.ordered,List.pairwise_singleton _ _,?_⟩
        intro x earlier y last
        obtain ⟨a,own,rfl⟩ := List.mem_map.mp earlier
        rw [List.map_singleton,List.mem_singleton] at last
        rw [last]
        exact logged.past a own
      · rw [System.move,admissions_append,admissions_admitted,List.map_append,all,List.append_assoc]
        rfl
      · rw [System.move,admissions_append,admissions_admitted]
        apply logged.limited.append
        rwa [count]
  | waited id p state duration found outcome =>
    exact ⟨logged.past,logged.ordered,logged.waits (attempted outcome) (by simp),logged.limited⟩
  | panicked id p state found outcome =>
    exact ⟨logged.past,logged.ordered,logged.waits (attempted outcome) (by simp),logged.limited⟩
  | recorded id deadline =>
    have same : admissions (s.trace ++ [.recorded deadline]) = admissions s.trace := by
      rw [admissions_append]
      exact List.append_nil _
    refine ⟨?_,?_,?_,?_⟩
    all_goals rw [System.record,same]
    · exact logged.past
    · exact logged.ordered
    · exact logged.log
    · exact logged.limited
  | started | queued | readied | woken | released | cooling | warmed =>
    exact ⟨logged.past,logged.ordered,logged.log,logged.limited⟩

theorem fresh_logged (clock : Int) : Logged gate (.fresh gate clock) := by
  refine ⟨?_,List.Pairwise.nil,⟨[],rfl,?_⟩,?_⟩
  · intro a member
    exact absurd member List.not_mem_nil
  · intro time member
    exact absurd member List.not_mem_nil
  · intro before p time after split
    cases before <;> cases split

-- However a window is closed off: the last admission in it saw the others.
theorem Limited.window {log : List (RequestPriority × Int)} (limited : Limited gate log)
    (inside : RequestPriority × Int → Bool) (narrow : ∀ a b, inside a = true → inside b = true → b.2 - gate.window < a.2)
    (limit : Nat) (held : ∀ a ∈ log, inside a = true → gate.admissionLimit a.1 ≤ limit) :
    (log.filter inside).length ≤ limit := by
  rcases Windows.last_of inside log with none_ | ⟨before,e,after,split,own,found⟩
  · rw [none_]
    exact Nat.zero_le _
  · have seen := limited before e.1 e.2 after split
    have bound := held e (split ▸ List.mem_append_right _ List.mem_cons_self) own
    have among : (before.filter inside).length ≤ (before.filter (fun a => e.2 - gate.window < a.2)).length := by
      refine List.Sublist.length_le (List.monotone_filter_right _ ?_)
      intro a there
      simpa using narrow a e there own
    rw [found,List.length_append,List.length_singleton]
    omega

end Log

-- After a deadline is recorded, nobody is admitted before it has come.
structure Cooled (s : System) : Prop where
  blocked : s.trace.Pairwise (fun a b => ∀ deadline p time, a = .recorded deadline → b = .admitted p time → deadline ≤ time)
  held : ∀ deadline, .recorded deadline ∈ s.trace → s.clock < deadline →
    ∃ later, s.state.cooldownUntil = some later ∧ deadline ≤ later

section Cooldown
variable {gate : RateGate} {s next : System} {act : Act}

theorem attempted_cooldown {p : RequestPriority} {now : Int} {state next : RateGateState} {verdict : Verdict}
    (outcome : Attempted gate p now state next verdict) {deadline : Int} (set : state.cooldownUntil = some deadline)
    (future : now < deadline) : next.cooldownUntil = some deadline ∧ verdict ≠ .admitted := by
  cases outcome with
  | cooling => exact ⟨set,by simp⟩
  | admitted over_ => exact absurd (over_ deadline set) (Int.not_le.mpr future)
  | full _ over_ => exact absurd (over_ deadline set) (Int.not_le.mpr future)
  | panicked over_ => exact absurd (over_ deadline set) (Int.not_le.mpr future)

-- A deadline ahead is never brought forward.
theorem Effect.cooldown (effect : Effect gate s act next) {deadline : Int}
    (set : s.state.cooldownUntil = some deadline) (future : s.clock < deadline) :
    ∃ later, next.state.cooldownUntil = some later ∧ deadline ≤ later := by
  cases effect with
  | admitted id p state found outcome => exact absurd rfl (attempted_cooldown (attempted outcome) set future).2
  | waited id p state duration found outcome =>
    exact ⟨deadline,(attempted_cooldown (attempted outcome) set future).1,Int.le_refl _⟩
  | panicked id p state found outcome =>
    exact ⟨deadline,(attempted_cooldown (attempted outcome) set future).1,Int.le_refl _⟩
  | recorded id other =>
    refine ⟨max deadline other,?_,Int.le_max_left _ _⟩
    rw [System.record,set]
    rfl
  | ticked | started | queued | readied | woken | released | cooling | warmed => exact ⟨deadline,set,Int.le_refl _⟩

theorem Effect.clock (effect : Effect gate s act next) : s.clock ≤ next.clock := by
  cases effect with
  | ticked elapsed =>
    change s.clock ≤ s.clock + elapsed
    omega
  | admitted | waited | panicked | recorded | started | queued | readied | woken | released | cooling | warmed =>
    exact Int.le_refl _

theorem Cooled.kept (cooled : Cooled s) (effect : Effect gate s act next) : Cooled next := by
  -- A deadline from before the step that is still ahead after it.
  have old : ∀ deadline, .recorded deadline ∈ s.trace → next.clock < deadline →
      ∃ later, next.state.cooldownUntil = some later ∧ deadline ≤ later := by
    intro deadline member future
    have ahead : s.clock < deadline := Int.lt_of_le_of_lt effect.clock future
    obtain ⟨later,set,order⟩ := cooled.held deadline member ahead
    obtain ⟨last,now,order'⟩ := effect.cooldown set (Int.lt_of_lt_of_le ahead order)
    exact ⟨last,now,Int.le_trans order order'⟩
  cases effect with
  | admitted id p state found outcome =>
    refine ⟨?_,?_⟩
    · rw [System.move,List.pairwise_append]
      refine ⟨cooled.blocked,List.pairwise_singleton _ _,?_⟩
      rintro _ member _ last deadline q time rfl rfl
      cases List.mem_singleton.mp last
      by_contra early
      obtain ⟨later,set,order⟩ := cooled.held deadline member (Int.not_le.mp early)
      exact (attempted_cooldown (attempted outcome) set (Int.lt_of_lt_of_le (Int.not_le.mp early) order)).2 rfl
    · intro deadline member
      refine old deadline ?_
      rcases List.mem_append.mp member with earlier | last
      · exact earlier
      · cases List.mem_singleton.mp last
  | recorded id other =>
    refine ⟨?_,?_⟩
    · rw [System.record,List.pairwise_append]
      refine ⟨cooled.blocked,List.pairwise_singleton _ _,?_⟩
      rintro _ _ _ last deadline q time rfl rfl
      cases List.mem_singleton.mp last
    · intro deadline member future
      rcases List.mem_append.mp member with earlier | last
      · exact old deadline earlier future
      · cases List.mem_singleton.mp last
        cases set : s.state.cooldownUntil with
        | none => exact ⟨other,by simp [System.record,set],Int.le_refl _⟩
        | some current => exact ⟨max current other,by simp [System.record,set],Int.le_max_right _ _⟩
  | ticked | waited | panicked | started | queued | readied | woken | released | cooling | warmed =>
    exact ⟨cooled.blocked,old⟩

theorem fresh_cooled (clock : Int) : Cooled (.fresh gate clock) :=
  ⟨List.Pairwise.nil,fun _ member => absurd member List.not_mem_nil⟩

theorem run_cooldown {acts : List Act} (ran : run gate s acts = some next) {deadline : Int}
    (set : s.state.cooldownUntil = some deadline) (future : next.clock < deadline) :
    ∃ later, next.state.cooldownUntil = some later ∧ deadline ≤ later := by
  refine run_keeps (I := fun u => u.clock < deadline → ∃ later, u.state.cooldownUntil = some later ∧ deadline ≤ later)
    ?_ (fun _ => ⟨deadline,set,Int.le_refl _⟩) ran future
  intro u _ v held effect ahead
  have before : u.clock < deadline := Int.lt_of_le_of_lt effect.clock ahead
  obtain ⟨later,now,order⟩ := held before
  obtain ⟨last,then_,order'⟩ := effect.cooldown now (Int.lt_of_lt_of_le before order)
  exact ⟨last,then_,Int.le_trans order order'⟩

end Cooldown
end MemWal.Rpc
