import Mathlib.Data.List.Induction

namespace MemWal.Library.Runs
variable {σ α ε : Type} (exec : σ → α → Except ε σ)

-- A call that fails leaves the state as it was; a run is the list of calls
-- that were attempted, in order, and the state after it is a function of it.
def settle (s : σ) (call : α) : σ :=
  match exec s call with
  | .ok next => next
  | .error _ => s

def after (s : σ) (calls : List α) : σ := calls.foldl (settle exec) s

-- The state in which call number `i` of the run is attempted.
def before (s : σ) (calls : List α) (i : Nat) : σ := after exec s (calls.take i)

-- A check before each call of a run, made in one pass.
def always (P : σ → α → Bool) : σ → List α → Bool
  | _,[] => true
  | s,call :: rest => P s call && always P (settle exec s call) rest

variable {exec}

theorem settle_ok (ran : exec s call = .ok next) : settle exec s call = next := by
  simp [settle,ran]

variable (exec) in
theorem settle_cases (s : σ) (call : α) :
    (∃ next, exec s call = .ok next ∧ settle exec s call = next) ∨ settle exec s call = s := by
  cases ran : exec s call with
  | ok next => exact .inl ⟨next,rfl,settle_ok ran⟩
  | error _ => right; simp [settle,ran]

theorem before_succ {calls : List α} (found : calls[i]? = some call) :
    before exec s calls (i+1) = settle exec (before exec s calls i) call := by
  simp [before,List.take_add_one,found,after]

theorem before_past {calls : List α} (missing : calls[i]? = none) :
    before exec s calls (i+1) = before exec s calls i := by
  simp [before,List.take_add_one,missing]

theorem before_drop (s : σ) (calls : List α) (i j : Nat) :
    before exec (before exec s calls i) (calls.drop i) j = before exec s calls (i+j) := by
  simp only [before,after,List.take_add,List.foldl_append]

-- What every successful call preserves holds along every run.
theorem invariant_after {I : σ → Prop} (start : I s)
    (preserved : ∀ s call next, I s → exec s call = .ok next → I next) (calls : List α) :
    I (after exec s calls) := by
  induction calls generalizing s with
  | nil => exact start
  | cons call rest ih =>
    refine ih ?_
    rcases settle_cases exec s call with ⟨next,ran,equal⟩ | equal
    · rw [equal]; exact preserved s call next start ran
    · rw [equal]; exact start

theorem invariant_before {I : σ → Prop} (start : I s)
    (preserved : ∀ s call next, I s → exec s call = .ok next → I next) (calls : List α) (i : Nat) :
    I (before exec s calls i) := invariant_after start preserved _

-- Between two positions of a run a fact survives when no call in between
-- breaks it. The step hypothesis names the position, so a caller can exclude
-- the one kind of call that would.
theorem stays_between {P : σ → Prop} {calls : List α} {i j : Nat} (order : i ≤ j)
    (start : P (before exec s calls i))
    (keep : ∀ k call, i ≤ k → k < j → calls[k]? = some call →
      P (before exec s calls k) → P (settle exec (before exec s calls k) call)) :
    P (before exec s calls j) := by
  induction order with
  | refl => exact start
  | @step j order ih =>
    have held := ih (fun k call low high => keep k call low (Nat.lt_succ_of_lt high))
    cases found : calls[j]? with
    | none => rw [before_past found]; exact held
    | some call => rw [before_succ found]; exact keep j call order (Nat.lt_succ_self j) found held

theorem before_of_always {P : σ → α → Bool} {calls : List α} (checked : always exec P s calls = true)
    (i : Nat) (call : α) (found : calls[i]? = some call) : P (before exec s calls i) call = true := by
  induction calls generalizing s i with
  | nil => cases found
  | cons first rest ih =>
    simp only [always,Bool.and_eq_true] at checked
    cases i with
    | zero =>
      cases found
      exact checked.1
    | succ i => exact ih checked.2 i found

-- The same, with only the calls that succeed to be looked at.
theorem kept_between {P : σ → Prop} {calls : List α} {i j : Nat} (order : i ≤ j) (start : P (before exec s calls i))
    (keep : ∀ k call next, i ≤ k → k < j → calls[k]? = some call → P (before exec s calls k) →
      exec (before exec s calls k) call = .ok next → P next) : P (before exec s calls j) := by
  refine stays_between order start ?_
  intro k call low high found held
  rcases settle_cases exec (before exec s calls k) call with ⟨next,ran,equal⟩ | equal
  · rw [equal]
    exact keep k call next low high found held ran
  · rw [equal]
    exact held

-- A reflexive and transitive relation that each successful call respects
-- relates any earlier state of a run to any later one.
theorem relation_between {R : σ → σ → Prop} {I : σ → Prop} {calls : List α} (refl : ∀ s, R s s)
    (trans : ∀ a b c, R a b → R b c → R a c) (start : I s)
    (preserved : ∀ s call next, I s → exec s call = .ok next → I next)
    (step : ∀ s call next, I s → exec s call = .ok next → R s next) {i j : Nat} (order : i ≤ j) :
    R (before exec s calls i) (before exec s calls j) := by
  refine kept_between (P:=R (before exec s calls i)) order (refl _) ?_
  intro k call next _ _ _ held ran
  exact trans _ _ _ held (step _ _ _ (invariant_before start preserved calls k) ran)

-- A fact that some events bring about and others end: it holds after a run
-- exactly if one of the former was not followed by any of the latter.
theorem since {step : σ → α → σ} {I P : σ → Prop} {Starts : σ → α → Prop} {Stops : α → Prop} (start : I s)
    (keeps : ∀ s event, I s → I (step s event)) (before : ¬ P s)
    (each : ∀ s event, I s → (P (step s event) ↔ P s ∧ ¬ Stops event ∨ Starts s event)) (events : List α) :
    P (events.foldl step s) ↔ ∃ earlier event later, events = earlier ++ event :: later ∧
      Starts (earlier.foldl step s) event ∧ ∀ other ∈ later, ¬ Stops other := by
  induction events using List.reverseRecOn with
  | nil =>
    constructor
    · intro held
      exact absurd held before
    · intro found
      obtain ⟨earlier,event,later,split,_⟩ := found
      simp at split
  | append_singleton earlier last ih =>
    have reached : I (earlier.foldl step s) := List.foldlRecOn earlier step start (fun s held event _ => keeps s event held)
    rw [List.foldl_append,List.foldl_cons,List.foldl_nil,each _ last reached,ih]
    constructor
    · intro either
      rcases either with ⟨⟨first,event,later,split,starts,quiet⟩,still⟩ | starts
      · refine ⟨first,event,later ++ [last],by simp [split],starts,?_⟩
        intro other member
        rcases List.mem_append.mp member with old | new
        · exact quiet other old
        · exact List.mem_singleton.mp new ▸ still
      · exact ⟨earlier,last,[],rfl,starts,nofun⟩
    · intro found
      obtain ⟨first,event,later,split,starts,quiet⟩ := found
      rcases List.eq_nil_or_concat later with rfl | ⟨rest,final,rfl⟩
      · obtain ⟨rfl,same⟩ := List.append_inj' split rfl
        cases List.singleton_inj.mp same
        exact .inr starts
      · left
        have whole : earlier ++ [last] = (first ++ event :: rest) ++ [final] := by simp [split]
        obtain ⟨rfl,same⟩ := List.append_inj' whole rfl
        cases List.singleton_inj.mp same
        refine ⟨⟨first,event,rest,rfl,starts,?_⟩,quiet last (by simp)⟩
        intro other member
        exact quiet other (by simp [member])

end MemWal.Library.Runs
