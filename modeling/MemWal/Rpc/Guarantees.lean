import MemWal.Rpc.Cancellation

namespace MemWal.Rpc
open Library Library.Fallible

-- What both constructors make sure of.
structure Configured (gate : RateGate) : Prop where
  requests : 0 < gate.requestsPerWindow
  share : gate.backgroundInFlight ≤ gate.inFlight * 90 / 100

theorem Accepted.configured {gate : RateGate} (accepted : Accepted gate) : Configured gate := by
  induction accepted with
  | new made =>
    simp only [RateGate.new,bind_ok,ensure_ok,exists_const,pure_ok] at made
    obtain ⟨some_,_,_,_,rfl⟩ := made
    exact ⟨Nat.pos_of_ne_zero some_,Nat.le_refl _⟩
  | limited _ made before =>
    simp only [RateGate.withMaxInFlight,bind_ok,ensure_ok,exists_const,pure_ok] at made
    obtain ⟨⟨two,_⟩,rfl⟩ := made
    refine ⟨before.requests,?_⟩
    simp only [backgroundQuotaPercent]
    omega

theorem Configured.limit {gate : RateGate} (configured : Configured gate) (p : RequestPriority) :
    0 < gate.admissionLimit p ∧ gate.admissionLimit p ≤ gate.requestsPerWindow := by
  have some_ := configured.requests
  cases p with
  | interactive => exact ⟨some_,Nat.le_refl _⟩
  | background =>
    simp only [RateGate.admissionLimit,backgroundQuotaPercent]
    omega

theorem background_limit (gate : RateGate) :
    gate.admissionLimit .background = max 1 (gate.requestsPerWindow * 9 / 10) := by
  simp only [RateGate.admissionLimit,backgroundQuotaPercent]
  omega

-- How many of the admissions fall in a stretch of time.
def admittedIn (trace : List Mark) (inside : Int → Bool) : Nat := ((admissions trace).filter (fun a => inside a.2)).length

def from_ (start : Int) (window : Nat) (time : Int) : Bool := decide (start ≤ time ∧ time < start + window)

def until_ (start : Int) (window : Nat) (time : Int) : Bool := decide (start < time ∧ time ≤ start + window)

theorem held_count (s : System) (p : Acquire → Bool) :
    s.acquires.count (fun _ a => p a) = s.acquires.total (fun _ a => (p a).toNat) := by
  rw [Store.count_eq_total]
  refine Store.total_congr ?_
  intro _ a _
  cases p a <;> rfl

section Run
variable {gate : RateGate} {clock : Int} {acts : List Act} {s : System}

theorem reached_permits (ran : run gate (.fresh gate clock) acts = some s) : Permits gate s :=
  run_keeps (fun _ _ _ held effect => held.kept effect) (fresh_permits clock) ran

theorem reached_logged (ran : run gate (.fresh gate clock) acts = some s) : Logged gate s :=
  run_keeps (fun _ _ _ logged effect => logged.kept effect) (fresh_logged clock) ran

theorem reached_cooled (ran : run gate (.fresh gate clock) acts = some s) : Cooled s :=
  run_keeps (fun _ _ _ cooled effect => cooled.kept effect) (fresh_cooled clock) ran

end Run

-- Any calls in any order on a clock that only goes forward.
theorem rpc_gate_bounds (gate : RateGate) (accepted : Accepted gate) (clock : Int) (acts : List Act) (s : System)
    (ran : run gate (.fresh gate clock) acts = some s) :
    (∀ start, admittedIn s.trace (from_ start gate.window) ≤ gate.requestsPerWindow ∧
      admittedIn s.trace (until_ start gate.window) ≤ gate.requestsPerWindow) ∧
    (∀ before time after, admissions s.trace = before ++ (.background,time) :: after →
      (before.filter (fun a => time - gate.window < a.2)).length < max 1 (gate.requestsPerWindow * 9 / 10)) ∧
    (2 ≤ gate.requestsPerWindow → ∀ start,
      ((∀ a ∈ admissions s.trace, from_ start gate.window a.2 = true → a.1 = .background) →
        admittedIn s.trace (from_ start gate.window) < gate.requestsPerWindow) ∧
      ((∀ a ∈ admissions s.trace, until_ start gate.window a.2 = true → a.1 = .background) →
        admittedIn s.trace (until_ start gate.window) < gate.requestsPerWindow)) ∧
    (∀ before deadline middle p time after,
      s.trace = before ++ .recorded deadline :: (middle ++ .admitted p time :: after) → deadline ≤ time) ∧
    (∀ deadline, .recorded deadline ∈ s.trace → s.clock < deadline →
      ∃ later, s.state.cooldownUntil = some later ∧ deadline ≤ later) ∧
    (∀ more t deadline, run gate s more = some t → s.state.cooldownUntil = some deadline → t.clock < deadline →
      ∃ later, t.state.cooldownUntil = some later ∧ deadline ≤ later) ∧
    (s.acquires.count (fun _ a => a.holdsTotal) ≤ gate.inFlight ∧
      s.acquires.count (fun _ a => a.holdsBackground) ≤ gate.inFlight * 90 / 100) ∧
    (∀ id p more t, (∀ q, .start id q ∉ more) → run gate s (.start id p :: more ++ [.cancel id]) = some t →
      ∃ u, run gate s (without id more) = some u ∧ AsIf gate none t u ∧
        ∀ rest last, run gate t rest = some last → ∃ last', run gate u rest = some last' ∧ AsIf gate none last last') ∧
    ∀ p, (attempt gate p s.clock s.state).2 ≠ .panicked := by
  have configured := accepted.configured
  have logged := reached_logged ran
  have cooled := reached_cooled ran
  have permits := reached_permits ran
  have narrow : ∀ start, (∀ a b : RequestPriority × Int, from_ start gate.window a.2 = true →
        from_ start gate.window b.2 = true → b.2 - gate.window < a.2) ∧
      ∀ a b : RequestPriority × Int, until_ start gate.window a.2 = true → until_ start gate.window b.2 = true →
        b.2 - gate.window < a.2 := by
    intro start
    constructor
    all_goals
      intro a b one two
      simp only [from_,until_,decide_eq_true_eq] at one two
      omega
  have background : 2 ≤ gate.requestsPerWindow → gate.admissionLimit .background ≤ gate.requestsPerWindow - 1 := by
    intro two
    rw [background_limit]
    omega
  refine ⟨?_,?_,?_,?_,cooled.held,fun more t deadline later set future => run_cooldown later set future,⟨?_,?_⟩,?_,?_⟩
  · intro start
    exact ⟨logged.limited.window _ (narrow start).1 _ (fun a _ _ => (configured.limit a.1).2),
      logged.limited.window _ (narrow start).2 _ (fun a _ _ => (configured.limit a.1).2)⟩
  · intro before time after split
    rw [← background_limit]
    exact logged.limited before _ time after split
  · intro two start
    constructor
    · intro alone
      have bound := logged.limited.window _ (narrow start).1 _ (fun a member inside => (alone a member inside) ▸ background two)
      unfold admittedIn
      omega
    · intro alone
      have bound := logged.limited.window _ (narrow start).2 _ (fun a member inside => (alone a member inside) ▸ background two)
      unfold admittedIn
      omega
  · intro before deadline middle p time after split
    have blocked := cooled.blocked
    rw [split] at blocked
    have after_ := (List.pairwise_append.mp blocked).2.1
    exact List.rel_of_pairwise_cons after_ (List.mem_append_right _ List.mem_cons_self) deadline p time rfl rfl
  · have total := permits.total
    rw [held_count]
    omega
  · have some_ := permits.background
    have share := configured.share
    rw [held_count]
    omega
  · intro id p more t again cancelled_
    obtain ⟨u,ran',alike⟩ := cancelled again cancelled_
    exact ⟨u,ran',alike,fun rest last onward => alike.run onward⟩
  · intro p
    exact never_panics (configured.limit p).1 _ _

def sampleGate : RateGate := ⟨2,50,64,57⟩

-- Two calls go through, the third waits and is cancelled.
def sampleActs : List Act :=
  [.start 0 .interactive,.takeTotal 0,.attempt 0,.start 1 .background,.takeBackground 1,.takeTotal 1,.attempt 1,
    .coolDownFor 0 30,.record 0,.tick 20,.drop 0,.start 2 .interactive,.takeTotal 2,.attempt 2,.cancel 2]

theorem sample_gate_bounded : ∃ s, run sampleGate (.fresh sampleGate 0) sampleActs = some s ∧
    ∀ start, admittedIn s.trace (from_ start 50) ≤ 2 ∧ admittedIn s.trace (until_ start 50) ≤ 2 := by
  obtain ⟨s,ran⟩ := Option.isSome_iff_exists.mp
    (show (run sampleGate (.fresh sampleGate 0) sampleActs).isSome = true by decide +kernel)
  exact ⟨s,ran,(rpc_gate_bounds sampleGate (Accepted.new (show RateGate.new 2 50 = .ok sampleGate by decide +kernel)) 0
    sampleActs s ran).1⟩

end MemWal.Rpc
