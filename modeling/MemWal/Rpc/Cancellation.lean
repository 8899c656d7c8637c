import MemWal.Rpc.Bounds

namespace MemWal.Rpc
open Library Library.Fallible

-- Gate states that no later reading can tell apart: `t` may still hold, at the
-- front of its log and in its cooldown, what has run out by `now`.
structure Fresher (gate : RateGate) (now : Int) (s t : RateGateState) : Prop where
  log : ∃ stale, t.admittedAt = stale ++ s.admittedAt ∧ ∀ time ∈ stale, gate.window ≤ durationSince now time
  cooldown : s.cooldownUntil.filter (fun deadline => now < deadline) =
    t.cooldownUntil.filter (fun deadline => now < deadline)

namespace Fresher
variable {gate : RateGate} {now : Int} {s t u : RateGateState}

theorem refl : Fresher gate now s s := ⟨⟨[],rfl,fun _ member => absurd member List.not_mem_nil⟩,rfl⟩

theorem trans (first : Fresher gate now s t) (second : Fresher gate now t u) : Fresher gate now s u := by
  obtain ⟨⟨one,equal,old⟩,same⟩ := first
  obtain ⟨⟨two,equal',old'⟩,same'⟩ := second
  refine ⟨⟨two ++ one,?_,?_⟩,same.trans same'⟩
  · rw [equal',equal,List.append_assoc]
  · intro time member
    rcases List.mem_append.mp member with left | right
    · exact old' time left
    · exact old time right

theorem later (fresher : Fresher gate now s t) {then_ : Int} (order : now ≤ then_) : Fresher gate then_ s t := by
  obtain ⟨⟨stale,equal,old⟩,same⟩ := fresher
  have still : ∀ set : Option Int, set.filter (fun deadline => then_ < deadline) =
      (set.filter (fun deadline => now < deadline)).filter (fun deadline => then_ < deadline) := by
    intro set
    cases set with
    | none => rfl
    | some deadline =>
      by_cases ahead : now < deadline
      · simp [Option.filter,ahead]
      · have past : ¬ then_ < deadline := by omega
        simp [Option.filter,ahead,past]
  refine ⟨⟨stale,equal,?_⟩,?_⟩
  · intro time member
    have := old time member
    unfold durationSince at this ⊢
    omega
  · rw [still s.cooldownUntil,still t.cooldownUntil,same]

theorem prune (fresher : Fresher gate now s t) : Rpc.prune gate now t.admittedAt = Rpc.prune gate now s.admittedAt := by
  obtain ⟨stale,equal,old⟩ := fresher.log
  rw [equal]
  exact List.dropWhile_append_of_pos (fun time member => decide_eq_true (old time member))

-- The same call gets the same answer.
theorem attempt (fresher : Fresher gate now s t) (p : RequestPriority) :
    (Rpc.attempt gate p now t).2 = (Rpc.attempt gate p now s).2 ∧
    Fresher gate now (Rpc.attempt gate p now s).1 (Rpc.attempt gate p now t).1 := by
  have answer := fresher.cooldown
  unfold Rpc.attempt
  rw [← answer,fresher.prune]
  cases s.cooldownUntil.filter (fun deadline => now < deadline) with
  | some deadline => exact ⟨rfl,fresher.log,rfl⟩
  | none => exact ⟨rfl,refl⟩

-- A turn that ends in waiting changes nothing that matters.
theorem waited {p : RequestPriority} {next : RateGateState} {verdict : Verdict}
    (outcome : Attempted gate p now s next verdict) (waits : verdict ≠ .admitted) : Fresher gate now next s := by
  have pruned : Fresher gate now ⟨Rpc.prune gate now s.admittedAt,s.cooldownUntil⟩ s := by
    refine ⟨⟨_,(List.takeWhile_append_dropWhile).symm,?_⟩,rfl⟩
    intro time member
    simpa using List.mem_takeWhile_imp member
  have dropped : (∀ deadline, s.cooldownUntil = some deadline → deadline ≤ now) →
      Fresher gate now ⟨Rpc.prune gate now s.admittedAt,none⟩ s := by
    intro over_
    refine ⟨pruned.log,?_⟩
    cases set : s.cooldownUntil with
    | none => rfl
    | some deadline =>
      have past := over_ deadline set
      simp [Option.filter,Int.not_lt.mpr past]
  cases outcome with
  | cooling => exact refl
  | admitted => exact absurd rfl waits
  | full _ over_ => exact dropped over_
  | panicked over_ => exact dropped over_

theorem record (fresher : Fresher gate now s t) (deadline : Int) :
    Fresher gate now {s with cooldownUntil := some (s.cooldownUntil.elim deadline (max · deadline))}
      {t with cooldownUntil := some (t.cooldownUntil.elim deadline (max · deadline))} := by
  refine ⟨fresher.log,?_⟩
  -- Only deadlines that are ahead can outlast the new one.
  have meant : ∀ set : Option Int, (some (set.elim deadline (max · deadline))).filter (fun deadline => now < deadline) =
      (some ((set.filter (fun deadline => now < deadline)).elim deadline (max · deadline))).filter
        (fun deadline => now < deadline) := by
    intro set
    cases set with
    | none => rfl
    | some current =>
      by_cases ahead : now < current
      · simp [Option.filter,ahead]
      · by_cases new : now < deadline
        · have larger : max current deadline = deadline := by omega
          simp [Option.filter,ahead,larger]
        · have past : ¬ now < max current deadline := by omega
          simp [Option.filter,ahead,new,past]
  rw [meant s.cooldownUntil,meant t.cooldownUntil,fresher.cooldown]

end Fresher

-- `t` is `s` without the acquire call `hidden`: its row is gone, and what it
-- holds is free.
structure AsIf (gate : RateGate) (hidden : Option (Nat × Acquire)) (s t : System) : Prop where
  clock : t.clock = s.clock
  state : Fresher gate s.clock s.state t.state
  inFlight : t.inFlight = s.inFlight + hidden.elim 0 (fun h => h.2.holdsTotal.toNat)
  background : t.backgroundInFlight = s.backgroundInFlight + hidden.elim 0 (fun h => h.2.holdsBackground.toNat)
  acquires : ∀ id, t.acquires.get? id = if hidden.map Prod.fst = some id then none else s.acquires.get? id
  present : ∀ h, hidden = some h → s.acquires.get? h.1 = some h.2
  coolDowns : t.coolDowns = s.coolDowns
  trace : t.trace = s.trace

-- The acquire call that an act belongs to.
def Act.about : Act → Option Nat
  | .start id _ => some id
  | .takeBackground id => some id
  | .takeTotal id => some id
  | .attempt id => some id
  | .wake id => some id
  | .cancel id => some id
  | .drop id => some id
  | _ => none

namespace AsIf
variable {gate : RateGate} {hidden : Option (Nat × Acquire)} {s t next : System} {id : Nat} {a : Acquire}

theorem seen (alike : AsIf gate hidden s t) (other : hidden.map Prod.fst ≠ some id) :
    t.acquires.get? id = s.acquires.get? id := by rw [alike.acquires,if_neg other]

-- An acquire call that both know moves on in both.
theorem move (alike : AsIf gate hidden s t) (other : hidden.map Prod.fst ≠ some id) (found : s.acquires.get? id = some a)
    (b : Acquire) (left left' backgroundLeft backgroundLeft' : Nat) {state state' : RateGateState} (trace : List Mark)
    (total : left' = left + hidden.elim 0 (fun h => h.2.holdsTotal.toNat))
    (background : backgroundLeft' = backgroundLeft + hidden.elim 0 (fun h => h.2.holdsBackground.toNat))
    (fresher : Fresher gate s.clock state state') :
    AsIf gate hidden
      (System.move {s with inFlight := left, backgroundInFlight := backgroundLeft, state := state, trace := trace} id b)
      (System.move {t with inFlight := left', backgroundInFlight := backgroundLeft', state := state', trace := trace} id b) := by
  have found' : t.acquires.get? id = some a := (alike.seen other).trans found
  refine ⟨alike.clock,fresher,total,background,?_,?_,alike.coolDowns,rfl⟩
  · intro j
    simp only [System.move,Store.get?_put found,Store.get?_put found',alike.acquires]
    by_cases own : j = id
    · subst own
      simp [other]
    · simp [own]
  · intro h is_
    have differs : h.1 ≠ id := by
      intro same
      obtain rfl := same
      exact other (by rw [is_]; rfl)
    simp only [System.move,Store.get?_put found,if_neg differs]
    exact alike.present h is_

theorem release (alike : AsIf gate hidden s t) (other : hidden.map Prod.fst ≠ some id) (a : Acquire)
    {state state' : RateGateState} (fresher : Fresher gate s.clock state state') :
    AsIf gate hidden (System.release {s with state := state} id a) (System.release {t with state := state'} id a) := by
  refine ⟨alike.clock,fresher,?_,?_,?_,?_,alike.coolDowns,alike.trace⟩
  · simp only [System.release,alike.inFlight]
    omega
  · simp only [System.release,alike.background]
    omega
  · intro j
    simp only [System.release,Store.get?_erase,alike.acquires]
    by_cases own : j = id
    · simp [own]
    · simp [own]
  · intro h is_
    have differs : h.1 ≠ id := by
      intro same
      obtain rfl := same
      exact other (by rw [is_]; rfl)
    simp only [System.release,Store.get?_erase,if_neg differs]
    exact alike.present h is_

-- What somebody else does at the one gate can be done at the other.
theorem step (alike : AsIf gate hidden s t) {act : Act} (other : hidden.map Prod.fst = none ∨ act.about ≠ hidden.map Prod.fst)
    (ran : Rpc.step gate s act = some next) :
    ∃ next', Rpc.step gate t act = some next' ∧ AsIf gate hidden next next' := by
  have apart : ∀ id, act.about = some id → hidden.map Prod.fst ≠ some id := by
    intro id own same
    rcases other with none_ | differs
    · rw [none_] at same
      cases same
    · exact differs (own.trans same.symm)
  cases act with
  | tick elapsed =>
    cases ran
    refine ⟨_,rfl,?_,alike.state.later ?_,alike.inFlight,alike.background,alike.acquires,alike.present,alike.coolDowns,
      alike.trace⟩
    · change t.clock + elapsed = s.clock + elapsed
      rw [alike.clock]
    · change s.clock ≤ s.clock + elapsed
      omega
  | start id priority =>
    have seen := alike.seen (apart id rfl)
    simp only [Rpc.step] at ran ⊢
    split at ran
    · rename_i free
      cases ran
      have free' : t.acquires.get? id = none := seen.trans free
      rw [if_pos free']
      refine ⟨_,rfl,alike.clock,alike.state,alike.inFlight,alike.background,?_,?_,alike.coolDowns,alike.trace⟩
      · intro j
        simp only [Store.get?_insert _ free,Store.get?_insert _ free',alike.acquires]
        by_cases own : j = id
        · subst own
          simp [apart j rfl]
        · simp [own]
      · intro h is_
        have there := alike.present h is_
        have differs : h.1 ≠ id := by
          intro equal
          obtain rfl := equal
          rw [free] at there
          cases there
        simpa only [Store.get?_insert _ free,if_neg differs] using there
    · cases ran
  | takeBackground id =>
    obtain ⟨a,found,ran⟩ := Option.bind_eq_some_iff.mp ran
    have seen := alike.seen (apart id rfl)
    unfold System.takeBackground at ran
    split at ran
    · split at ran
      · rename_i left
        cases ran
        have left' : 0 < t.backgroundInFlight := by
          rw [alike.background]
          omega
        have moved := alike.move (apart id rfl) found ⟨.background,.queued⟩ s.inFlight t.inFlight
          (s.backgroundInFlight - 1) (t.backgroundInFlight - 1) s.trace alike.inFlight
          (by rw [alike.background]; omega) alike.state
        refine ⟨_,?_,moved⟩
        simp [Rpc.step,seen,found,System.takeBackground,left',alike.trace]
      · cases ran
    · cases ran
  | takeTotal id =>
    obtain ⟨a,found,ran⟩ := Option.bind_eq_some_iff.mp ran
    have seen := alike.seen (apart id rfl)
    unfold System.takeTotal at ran
    split at ran
    · rename_i waiting
      split at ran
      · rename_i left
        cases ran
        have left' : 0 < t.inFlight := by
          rw [alike.inFlight]
          omega
        have moved := alike.move (apart id rfl) found ⟨a.priority,.ready⟩ (s.inFlight - 1) (t.inFlight - 1)
          s.backgroundInFlight t.backgroundInFlight s.trace (by rw [alike.inFlight]; omega) alike.background alike.state
        refine ⟨_,?_,moved⟩
        simp [Rpc.step,seen,found,System.takeTotal,waiting,left',alike.trace]
      · cases ran
    · cases ran
  | attempt id =>
    obtain ⟨a,found,ran⟩ := Option.bind_eq_some_iff.mp ran
    have found' := (alike.seen (apart id rfl)).trans found
    obtain ⟨answer,fresher⟩ := alike.state.attempt a.priority
    simp only [Rpc.step,found',Option.bind_some]
    unfold System.attempt at ran ⊢
    split at ran
    · rename_i ready
      rw [if_pos ready,alike.clock]
      generalize mine : Rpc.attempt gate a.priority s.clock s.state = outcome at ran answer fresher
      generalize others : Rpc.attempt gate a.priority s.clock t.state = outcome' at answer fresher
      obtain ⟨state,verdict⟩ := outcome
      obtain ⟨state',verdict'⟩ := outcome'
      simp only at answer fresher
      subst answer
      cases verdict' with
      | admitted =>
        cases ran
        refine ⟨_,?_,alike.move (apart id rfl) found ⟨a.priority,.admitted⟩ _ _ _ _ _ alike.inFlight alike.background fresher⟩
        simp [alike.trace,alike.clock]
      | wait duration =>
        cases ran
        refine ⟨_,?_,alike.move (apart id rfl) found ⟨a.priority,.sleeping (s.clock + duration)⟩ _ _ _ _ _ alike.inFlight
          alike.background fresher⟩
        simp [alike.trace,alike.clock]
      | panicked =>
        cases ran
        refine ⟨_,?_,alike.release (apart id rfl) a fresher⟩
        simp [alike.clock]
    · cases ran
  | wake id =>
    obtain ⟨a,found,ran⟩ := Option.bind_eq_some_iff.mp ran
    have found' := (alike.seen (apart id rfl)).trans found
    simp only [Rpc.step,found',Option.bind_some]
    unfold System.wake at ran ⊢
    split at ran
    · rename_i wakesAt asleep
      split at ran
      · rename_i due
        cases ran
        have moved := alike.move (apart id rfl) found ⟨a.priority,.ready⟩ _ _ _ _ s.trace alike.inFlight alike.background
          alike.state
        have due' : wakesAt ≤ t.clock := by rwa [alike.clock]
        refine ⟨_,?_,moved⟩
        simp [due',← alike.trace]
      · cases ran
    · cases ran
  | cancel id =>
    obtain ⟨a,found,ran⟩ := Option.bind_eq_some_iff.mp ran
    have found' := (alike.seen (apart id rfl)).trans found
    simp only [Rpc.step,found',Option.bind_some]
    unfold System.cancel at ran ⊢
    split at ran
    · cases ran
    · rename_i waiting
      cases ran
      rw [if_neg waiting]
      exact ⟨_,rfl,alike.release (apart id rfl) a alike.state⟩
  | drop id =>
    obtain ⟨a,found,ran⟩ := Option.bind_eq_some_iff.mp ran
    have found' := (alike.seen (apart id rfl)).trans found
    simp only [Rpc.step,found',Option.bind_some]
    unfold System.drop at ran ⊢
    split at ran
    · rename_i done
      cases ran
      rw [if_pos done]
      exact ⟨_,rfl,alike.release (apart id rfl) a alike.state⟩
    · cases ran
  | coolDownFor id duration =>
    simp only [Rpc.step,alike.coolDowns] at ran ⊢
    split at ran
    · rename_i free
      cases ran
      rw [if_pos free]
      refine ⟨_,rfl,alike.clock,alike.state,alike.inFlight,alike.background,alike.acquires,alike.present,?_,alike.trace⟩
      simp only [alike.clock]
    · cases ran
  | record id =>
    obtain ⟨deadline,found,rfl⟩ := Option.map_eq_some_iff.mp ran
    simp only [Rpc.step,alike.coolDowns,found,Option.map_some]
    refine ⟨_,rfl,alike.clock,alike.state.record deadline,alike.inFlight,alike.background,alike.acquires,alike.present,?_,?_⟩
    · simp only [System.record,alike.coolDowns]
    · simp only [System.record,alike.trace]
  | cancelCoolDown id =>
    obtain ⟨deadline,found,rfl⟩ := Option.map_eq_some_iff.mp ran
    simp only [Rpc.step,alike.coolDowns,found,Option.map_some]
    exact ⟨_,rfl,alike.clock,alike.state,alike.inFlight,alike.background,alike.acquires,alike.present,rfl,alike.trace⟩

theorem run (alike : AsIf gate none s t) {acts : List Act} (ran : Rpc.run gate s acts = some next) :
    ∃ next', Rpc.run gate t acts = some next' ∧ AsIf gate none next next' := by
  induction acts generalizing s t with
  | nil =>
    cases ran
    exact ⟨t,rfl,alike⟩
  | cons act rest ih =>
    rw [Rpc.run,List.foldlM_cons] at ran
    obtain ⟨middle,first,others⟩ := Option.bind_eq_some_iff.mp ran
    obtain ⟨middle',first',alike'⟩ := alike.step (.inl rfl) first
    obtain ⟨next',others',last⟩ := ih alike' others
    refine ⟨next',?_,last⟩
    rw [Rpc.run,List.foldlM_cons,first']
    exact others'

-- From the moment it starts, a call can be thought away: nothing is in the log
-- and nothing is held yet.
theorem started (free : s.acquires.get? id = none) (p : RequestPriority) :
    AsIf gate (some (id,⟨p,.started⟩)) {s with acquires := s.acquires.insert id ⟨p,.started⟩} s := by
  refine ⟨rfl,Fresher.refl,rfl,?_,?_,?_,rfl,rfl⟩
  · cases p <;> rfl
  · intro j
    simp only [Store.get?_insert _ free,Option.map_some,Option.some.injEq]
    by_cases own : id = j
    · subst own
      simp [free]
    · simp [own,Ne.symm own]
  · intro h is_
    cases is_
    simp [Store.get?_insert _ free]

-- Its own steps, up to its admission, are steps to nobody else.
theorem own_move (alike : AsIf gate (some (id,a)) s t) (b : Acquire) (left backgroundLeft : Nat) {state : RateGateState}
    (total : left + b.holdsTotal.toNat = s.inFlight + a.holdsTotal.toNat)
    (background : backgroundLeft + b.holdsBackground.toNat = s.backgroundInFlight + a.holdsBackground.toNat)
    (fresher : Fresher gate s.clock state s.state) :
    AsIf gate (some (id,b))
      (System.move {s with inFlight := left, backgroundInFlight := backgroundLeft, state := state} id b) t := by
  have found := alike.present _ rfl
  refine ⟨alike.clock,fresher.trans alike.state,?_,?_,?_,?_,alike.coolDowns,alike.trace⟩
  · rw [alike.inFlight]
    exact total.symm
  · rw [alike.background]
    exact background.symm
  · intro j
    rw [alike.acquires]
    simp only [System.move,Store.get?_put found,Option.map_some,Option.some.injEq]
    by_cases own : id = j
    · simp [own]
    · simp [own,Ne.symm own]
  · intro h is_
    cases is_
    simp [System.move,Store.get?_put found]

theorem own_release (alike : AsIf gate (some (id,a)) s t) : AsIf gate none (s.release id a) t := by
  refine ⟨alike.clock,alike.state,alike.inFlight,alike.background,?_,(fun _ none_ => nomatch none_),alike.coolDowns,
    alike.trace⟩
  intro j
  rw [alike.acquires]
  simp only [System.release,Store.get?_erase,Option.map_some,Option.some.injEq,Option.map_none,reduceCtorEq,if_false]
  by_cases own : id = j
  · simp [own]
  · simp [own,Ne.symm own]

end AsIf

-- The call `id` has been admitted or is gone.
def Settled (id : Nat) (s : System) : Prop := ∀ a, s.acquires.get? id = some a → a.phase = .admitted

section Calls
variable {gate : RateGate} {s t next : System} {id : Nat} {a : Acquire} {act : Act}

theorem Settled.kept (settled : Settled id s) (effect : Effect gate s act next) (again : ∀ p, act ≠ .start id p) :
    Settled id next := by
  -- Only a call that is neither admitted nor gone moves, and then to another row.
  have moved : ∀ {j : Nat} {c b : Acquire}, s.acquires.get? j = some c → c.phase ≠ .admitted →
      ∀ a, (s.acquires.put j b).get? id = some a → a.phase = .admitted := by
    intro j c b found waiting a stored
    have apart : id ≠ j := by
      intro same
      obtain rfl := same
      exact waiting (settled c found)
    rw [Store.get?_put found,if_neg apart] at stored
    exact settled a stored
  have left : ∀ {j : Nat}, ∀ a, (s.acquires.erase j).get? id = some a → a.phase = .admitted := by
    intro j a stored
    rw [Store.get?_erase] at stored
    split at stored
    · cases stored
    · exact settled a stored
  cases effect with
  | started j p is_ free =>
    intro a stored
    have apart : id ≠ j := by
      intro same
      obtain rfl := same
      exact again p is_
    rw [Store.get?_insert _ free,if_neg apart] at stored
    exact settled a stored
  | queued j found => exact moved found (by simp)
  | readied j c found waiting => exact moved found (by rcases waiting with rfl | rfl <;> simp)
  | admitted j p state found => exact moved found (by simp)
  | waited j p state duration found => exact moved found (by simp)
  | panicked j p state found => exact left
  | woken j p wakesAt found => exact moved found (by simp)
  | released j c found => exact left
  | ticked | cooling | recorded | warmed => exact settled

theorem settled_cancel {acts : List Act} (settled : Settled id s) (again : ∀ p, .start id p ∉ acts)
    (ran : run gate s (acts ++ [.cancel id]) = some next) : False := by
  induction acts generalizing s with
  | nil =>
    obtain ⟨middle,first,_⟩ := Option.bind_eq_some_iff.mp ran
    obtain ⟨a,found,left⟩ := Option.bind_eq_some_iff.mp first
    simp [System.cancel,settled a found] at left
  | cons act rest ih =>
    rw [List.cons_append,run,List.foldlM_cons] at ran
    obtain ⟨middle,first,others⟩ := Option.bind_eq_some_iff.mp ran
    refine ih (settled.kept (step_effect first) ?_) ?_ others
    · intro p equal
      exact again p (equal ▸ List.mem_cons_self)
    · intro p member
      exact again p (List.mem_cons_of_mem _ member)

-- One step of the call itself: it settles, or it still waits and nobody can
-- tell the difference.
theorem own_step (alike : AsIf gate (some (id,a)) s t) (own : act.about = some id) (ran : step gate s act = some next) :
    Settled id next ∨ ∃ b, AsIf gate (some (id,b)) next t := by
  have found := alike.present _ rfl
  have gone : ∀ {state : RateGateState} {c : Acquire}, Settled id (System.release {s with state := state} id c) := by
    intro state c b stored
    simp [System.release,Store.get?_erase] at stored
  cases act with
  | start j p =>
    cases own
    simp [step,found] at ran
  | takeBackground j =>
    cases own
    simp only [step,found,Option.bind_some] at ran
    unfold System.takeBackground at ran
    split at ran
    · split at ran
      · rename_i left
        cases ran
        refine .inr ⟨_,alike.own_move ⟨.background,.queued⟩ s.inFlight (s.backgroundInFlight - 1) rfl ?_ Fresher.refl⟩
        simp only [Acquire.holdsBackground,reduceCtorEq,ne_eq,not_false_eq_true,and_self,decide_true,Bool.toNat_true,
          not_true,and_false,decide_false,Bool.toNat_false]
        omega
      · cases ran
    · cases ran
  | takeTotal j =>
    cases own
    simp only [step,found,Option.bind_some] at ran
    unfold System.takeTotal at ran
    split at ran
    · rename_i waiting
      split at ran
      · rename_i left
        cases ran
        refine .inr ⟨_,alike.own_move ⟨a.priority,.ready⟩ (s.inFlight - 1) s.backgroundInFlight ?_ ?_ Fresher.refl⟩
        · rcases waiting with rfl | rfl
          all_goals
            simp only [Acquire.holdsTotal,Bool.toNat_true,Bool.toNat_false]
            omega
        · rcases waiting with rfl | rfl
          all_goals rfl
      · cases ran
    · cases ran
  | attempt j =>
    cases own
    simp only [step,found,Option.bind_some] at ran
    unfold System.attempt at ran
    split at ran
    · rename_i ready
      obtain ⟨p,phase⟩ := a
      cases ready
      split at ran
      · rename_i state outcome
        cases ran
        left
        intro b stored
        simp only [System.move,Store.get?_put found] at stored
        cases stored
        rfl
      · rename_i state duration outcome
        cases ran
        refine .inr ⟨_,alike.own_move ⟨p,.sleeping _⟩ s.inFlight s.backgroundInFlight rfl (by cases p <;> rfl) ?_⟩
        exact Fresher.waited (attempted outcome) (by simp)
      · cases ran
        exact .inl gone
    · cases ran
  | wake j =>
    cases own
    simp only [step,found,Option.bind_some] at ran
    obtain ⟨p,phase⟩ := a
    unfold System.wake at ran
    split at ran
    · rename_i wakesAt asleep
      cases asleep
      split at ran
      · cases ran
        exact .inr ⟨_,alike.own_move ⟨p,.ready⟩ s.inFlight s.backgroundInFlight rfl (by cases p <;> rfl) Fresher.refl⟩
      · cases ran
    · cases ran
  | cancel j =>
    cases own
    simp only [step,found,Option.bind_some] at ran
    unfold System.cancel at ran
    split at ran
    · cases ran
    · cases ran
      exact .inl gone
  | drop j =>
    cases own
    simp only [step,found,Option.bind_some] at ran
    unfold System.drop at ran
    split at ran
    · cases ran
      exact .inl gone
    · cases ran
  | tick | coolDownFor | record | cancelCoolDown => cases own

-- The acts of everybody but one acquire call.
def without (id : Nat) (acts : List Act) : List Act := acts.filter (fun act => act.about ≠ some id)

theorem cancelled_from {acts : List Act} (again : ∀ p, .start id p ∉ acts) (alike : AsIf gate (some (id,a)) s t)
    (ran : run gate s (acts ++ [.cancel id]) = some next) :
    ∃ next', run gate t (without id acts) = some next' ∧ AsIf gate none next next' := by
  induction acts generalizing s t a with
  | nil =>
    obtain ⟨middle,first,last⟩ := Option.bind_eq_some_iff.mp ran
    cases last
    obtain ⟨b,found,left⟩ := Option.bind_eq_some_iff.mp first
    have same := found.symm.trans (alike.present _ rfl)
    cases same
    unfold System.cancel at left
    split at left
    · cases left
    · cases left
      exact ⟨t,rfl,alike.own_release⟩
  | cons act rest ih =>
    rw [List.cons_append,run,List.foldlM_cons] at ran
    obtain ⟨middle,first,others⟩ := Option.bind_eq_some_iff.mp ran
    have later : ∀ p, .start id p ∉ rest := fun p member => again p (List.mem_cons_of_mem _ member)
    by_cases own : act.about = some id
    · have skipped : without id (act :: rest) = without id rest := by simp [without,own]
      rw [skipped]
      rcases own_step alike own first with settled | ⟨b,still⟩
      · exact (settled_cancel settled later others).elim
      · exact ih later still others
    · have kept : without id (act :: rest) = act :: without id rest := by simp [without,own]
      obtain ⟨middle',first',still⟩ := alike.step (.inr own) first
      obtain ⟨next',others',last⟩ := ih later still others
      refine ⟨next',?_,last⟩
      rw [kept,run,List.foldlM_cons,first']
      exact others'

-- An acquire call that ends by being cancelled, from its start on.
theorem cancelled {acts : List Act} {p : RequestPriority} (again : ∀ q, .start id q ∉ acts)
    (ran : run gate s (.start id p :: acts ++ [.cancel id]) = some next) :
    ∃ next', run gate s (without id acts) = some next' ∧ AsIf gate none next next' := by
  rw [List.cons_append,run,List.foldlM_cons] at ran
  obtain ⟨middle,first,others⟩ := Option.bind_eq_some_iff.mp ran
  simp only [step] at first
  split at first
  · rename_i free
    cases first
    exact cancelled_from again (AsIf.started free p) others
  · cases first

end Calls
end MemWal.Rpc
