import MemWal.Library.Fallible
import MemWal.Library.Runs
import MemWal.Library.Store

namespace MemWal.Library

-- A sequential program as a tree of the calls it makes: what it does between
-- two calls is not visible to anyone else.
inductive Program (Op : Type) (Answer : Op → Type) (ε α : Type) : Type where
  | done (value : α)
  | fail (error : ε)
  | call (op : Op) (resume : Answer op → Program Op Answer ε α)

namespace Program
variable {Op : Type} {Answer : Op → Type} {ε δ α β γ : Type}

def bind : Program Op Answer ε α → (α → Program Op Answer ε β) → Program Op Answer ε β
  | .done value,next => next value
  | .fail error,_ => .fail error
  | .call op resume,next => .call op (fun answer => (resume answer).bind next)

instance : Monad (Program Op Answer ε) where
  pure := .done
  bind := bind

def perform (op : Op) : Program Op Answer ε (Answer op) := .call op .done

-- `result.map_err(f)?`
def orFail (convert : δ → ε) : Except δ α → Program Op Answer ε α
  | .ok value => .done value
  | .error error => .fail (convert error)

-- The caller looks at the result of a program instead of passing its error on.
def attempt : Program Op Answer ε α → Program Op Answer δ (Except ε α)
  | .done value => .done (.ok value)
  | .fail error => .done (.error error)
  | .call op resume => .call op (fun answer => (resume answer).attempt)

-- The body is dropped after any of its calls, with or without a visible effect
-- of that call, when the check says so.
def cutOff (late : Program Op Answer ε Bool) : Program Op Answer ε α → Program Op Answer ε (Option α)
  | .done value => .done (some value)
  | .fail error => .fail error
  | .call op resume => .call op (fun answer =>
      late.bind (fun isLate => if isLate then .done none else cutOff late (resume answer)))

-- Every call of the program is of the given kind.
def Only (kind : Op → Prop) : Program Op Answer ε α → Prop
  | .done _ => True
  | .fail _ => True
  | .call op resume => kind op ∧ ∀ answer, (resume answer).Only kind

section Kinds
variable {kind : Op → Prop}

theorem Only.perform {op : Op} (here : kind op) : (perform op : Program Op Answer ε (Answer op)).Only kind :=
  ⟨here,fun _ => trivial⟩

theorem Only.mono {wider : Op → Prop} {p : Program Op Answer ε α} (only : p.Only kind)
    (implies : ∀ op, kind op → wider op) : p.Only wider := by
  induction p with
  | done value => trivial
  | fail error => trivial
  | call op resume ih => exact ⟨implies op only.1,fun answer => ih answer (only.2 answer)⟩

theorem Only.bind {p : Program Op Answer ε α} {next : α → Program Op Answer ε β} (first : p.Only kind)
    (rest : ∀ value, (next value).Only kind) : (p >>= next).Only kind := by
  induction p with
  | done value => exact rest value
  | fail error => trivial
  | call op resume ih => exact ⟨first.1,fun answer => ih answer (first.2 answer)⟩

theorem Only.attempt {p : Program Op Answer ε α} (only : p.Only kind) :
    (p.attempt : Program Op Answer δ (Except ε α)).Only kind := by
  induction p with
  | done value => trivial
  | fail error => trivial
  | call op resume ih => exact ⟨only.1,fun answer => ih answer (only.2 answer)⟩

theorem Only.orFail {convert : δ → ε} (result : Except δ α) :
    (orFail convert result : Program Op Answer ε α).Only kind := by
  cases result <;> trivial

theorem Only.foldlM {f : γ → β → Program Op Answer ε γ} (body : ∀ acc item, (f acc item).Only kind) (items : List β)
    (acc : γ) : (items.foldlM f acc).Only kind := by
  induction items generalizing acc with
  | nil => trivial
  | cons item rest ih =>
    rw [List.foldlM_cons]
    exact bind (body acc item) ih

end Kinds
end Program

section Services
variable {Op : Type} {Answer : Op → Type} {σ χ ε δ α β γ : Type}

-- What programs may rely on and have to respect: an invariant of the shared
-- state, how the shared state can have moved on between two calls, and in
-- which states a call may be made.
structure Discipline (serve : σ → (op : Op) → χ → σ × Answer op) where
  Inv : σ → Prop
  Later : σ → σ → Prop
  Allowed : σ → Op → Prop
  refl : ∀ s, Later s s
  trans : ∀ a b c, Later a b → Later b c → Later a c
  serves : ∀ s op c, Inv s → Allowed s op → Inv (serve s op c).1 ∧ Later s (serve s op c).1

variable {serve : σ → (op : Op) → χ → σ × Answer op} (d : Discipline serve)

-- From state `s` on, and whatever others do in between, every call the program
-- makes is allowed; the value it returns satisfies `post`.
def Safe (post : α → σ → Prop) : Program Op Answer ε α → σ → Prop
  | .done value,s => post value s
  | .fail _,_ => True
  | .call op resume,s => ∀ now, d.Later s now → d.Inv now →
      d.Allowed now op ∧ ∀ c, Safe post (resume (serve now op c).2) (serve now op c).1

variable {d}
namespace Safe

theorem weaken {post weaker : α → σ → Prop} {p : Program Op Answer ε α} {s : σ} (safe : Safe d post p s)
    (implies : ∀ value s, post value s → weaker value s) : Safe d weaker p s := by
  induction p generalizing s with
  | done value => exact implies value s safe
  | fail error => trivial
  | call op resume ih =>
    intro now later kept
    obtain ⟨allowed,next⟩ := safe now later kept
    exact ⟨allowed,fun c => ih _ (next c)⟩

theorem later {p : Program Op Answer ε α} {s now : σ} (safe : Safe d (fun _ _ => True) p s)
    (since : d.Later s now) : Safe d (fun _ _ => True) p now := by
  cases p with
  | done value => trivial
  | fail error => trivial
  | call op resume => exact fun after more kept => safe after (d.trans s now after since more) kept

theorem of_only {kind : Op → Prop} {p : Program Op Answer ε α} (free : ∀ op, kind op → ∀ s, d.Allowed s op)
    (only : p.Only kind) (s : σ) : Safe d (fun _ _ => True) p s := by
  induction p generalizing s with
  | done value => trivial
  | fail error => trivial
  | call op resume ih => exact fun now _ _ => ⟨free op only.1 now,fun c => ih _ (only.2 _) _⟩

-- The state a program ends in is later than the one it started in.
theorem remember {post : α → σ → Prop} {p : Program Op Answer ε α} {s : σ} (safe : Safe d post p s) :
    Safe d (fun value now => post value now ∧ d.Later s now) p s := by
  suffices from_ : ∀ before, d.Later before s → Safe d (fun value now => post value now ∧ d.Later before now) p s from
    from_ s (d.refl s)
  induction p generalizing s with
  | done value => exact fun before since => ⟨safe,since⟩
  | fail error => exact fun _ _ => trivial
  | call op resume ih =>
    intro before since now more kept
    obtain ⟨allowed,next⟩ := safe now more kept
    refine ⟨allowed,fun c => ih _ (next c) before ?_⟩
    exact d.trans before s _ since (d.trans s now _ more (d.serves now op c kept allowed).2)

theorem bind {Q : α → σ → Prop} {post : β → σ → Prop} {p : Program Op Answer ε α}
    {next : α → Program Op Answer ε β} {s : σ} (kept : d.Inv s) (first : Safe d Q p s)
    (rest : ∀ value now, d.Later s now → d.Inv now → Q value now → Safe d post (next value) now) :
    Safe d post (p >>= next) s := by
  induction p generalizing s with
  | done value => exact rest value s (d.refl s) kept first
  | fail error => trivial
  | call op resume ih =>
    intro now since sound
    obtain ⟨allowed,tail⟩ := first now since sound
    refine ⟨allowed,fun c => ?_⟩
    obtain ⟨after,moved⟩ := d.serves now op c sound allowed
    refine ih _ after (tail c) ?_
    intro value last more
    exact rest value last (d.trans s now last since (d.trans now _ last moved more))

theorem attempt {Q : α → σ → Prop} {p : Program Op Answer ε α} {s : σ} (safe : Safe d Q p s) :
    Safe d (fun result s => ∀ value, result = .ok value → Q value s)
      (p.attempt : Program Op Answer δ (Except ε α)) s := by
  induction p generalizing s with
  | done value =>
    intro other same
    cases same
    exact safe
  | fail error =>
    intro other same
    cases same
  | call op resume ih =>
    intro now since kept
    obtain ⟨allowed,next⟩ := safe now since kept
    exact ⟨allowed,fun c => ih _ (next c)⟩

theorem orFail {Q : α → σ → Prop} {convert : δ → ε} {result : Except δ α} {s : σ}
    (ok : ∀ value, result = .ok value → Q value s) :
    Safe d Q (Program.orFail convert result : Program Op Answer ε α) s := by
  cases result with
  | ok value => exact ok value rfl
  | error error => trivial

theorem cutOff {late : Program Op Answer ε Bool} {p : Program Op Answer ε α} {s : σ}
    (check : ∀ s, Safe d (fun _ _ => True) late s) (safe : Safe d (fun _ _ => True) p s) :
    Safe d (fun _ _ => True) (Program.cutOff late p) s := by
  induction p generalizing s with
  | done value => trivial
  | fail error => trivial
  | call op resume ih =>
    intro now since kept
    obtain ⟨allowed,next⟩ := safe now since kept
    refine ⟨allowed,fun c => ?_⟩
    refine bind (d.serves now op c kept allowed).1 (check _) ?_
    intro isLate after more _ _
    cases isLate with
    | true => trivial
    | false => exact ih _ (later (next c) more)

-- A loop over a list. The invariant speaks of the part already gone through.
theorem foldlM {I : List β → γ → σ → Prop} {f : γ → β → Program Op Answer ε γ} {items : List β}
    (body : ∀ seen item acc s, item ∈ items → d.Inv s → I seen acc s → Safe d (I (seen ++ [item])) (f acc item) s)
    (seen : List β) (acc : γ) {s : σ} (kept : d.Inv s) (start : I seen acc s) :
    Safe d (I (seen ++ items)) (items.foldlM f acc) s := by
  induction items generalizing seen acc s with
  | nil =>
    rw [List.append_nil]
    exact start
  | cons item rest ih =>
    rw [List.foldlM_cons]
    refine bind kept (body seen item acc s List.mem_cons_self kept start) ?_
    intro after now _ sound held
    have tail := ih (fun seen item acc s member => body seen item acc s (List.mem_cons_of_mem _ member))
      (seen ++ [item]) after sound held
    rw [List.append_assoc] at tail
    exact tail

end Safe
end Services

-- Any number of programs over one shared state, interleaved at their calls,
-- beside events that none of them makes.
structure Pool (σ π : Type) where
  shared : σ
  workers : Store Nat π

inductive Move (Request χ Event : Type) where
  | spawn (worker : Nat) (request : Request)
  | step (worker : Nat) (choice : χ)
  | crash (worker : Nat)
  | outside (event : Event)
  deriving DecidableEq

section Pools
open Fallible
variable {Op : Type} {Answer : Op → Type} {σ χ ε α Request Event Failure : Type}

structure Setting (Op : Type) (Answer : Op → Type) (σ χ ε α Request Event Failure : Type) where
  serve : σ → (op : Op) → χ → σ × Answer op
  program : Request → Program Op Answer ε α
  happen : σ → Event → Except Failure σ

variable (setting : Setting Op Answer σ χ ε α Request Event Failure)

def Pool.exec (w : Pool σ (Program Op Answer ε α)) :
    Move Request χ Event → Except (Option Failure) (Pool σ (Program Op Answer ε α))
  | .spawn worker request =>
    match w.workers.get? worker with
    | none => .ok {w with workers := w.workers.upsert worker (setting.program request)}
    | some _ => .error none
  | .step worker choice =>
    match w.workers.get? worker with
    | some (.call op resume) =>
      let served := setting.serve w.shared op choice
      .ok ⟨served.1,w.workers.upsert worker (resume served.2)⟩
    | _ => .error none
  | .crash worker => .ok {w with workers := w.workers.erase worker}
  | .outside event =>
    match setting.happen w.shared event with
    | .ok shared => .ok {w with shared := shared}
    | .error failure => .error (some failure)

-- The call that a move serves, if it serves one.
def Pool.served (w : Pool σ (Program Op Answer ε α)) : Move Request χ Event → Option (Op × χ)
  | .step worker choice =>
    match w.workers.get? worker with
    | some (.call op _) => some (op,choice)
    | _ => none
  | _ => none

structure Pool.Sound (d : Discipline setting.serve) (w : Pool σ (Program Op Answer ε α)) : Prop where
  inv : d.Inv w.shared
  safe : ∀ worker p, w.workers.get? worker = some p → Safe d (fun _ _ => True) p w.shared

variable {setting}

-- A move of a sound pool either serves an allowed call, is an outside event, or
-- leaves the shared state alone.
inductive Pool.Effect (d : Discipline setting.serve) (w next : Pool σ (Program Op Answer ε α)) :
    Move Request χ Event → Prop where
  | served (worker : Nat) (op : Op) (choice : χ) :
      w.served (.step worker choice : Move Request χ Event) = some (op,choice) →
      d.Allowed w.shared op → next.shared = (setting.serve w.shared op choice).1 →
      Pool.Effect d w next (.step worker choice)
  | happened (event : Event) : setting.happen w.shared event = .ok next.shared → Pool.Effect d w next (.outside event)
  | unmoved (move : Move Request χ Event) : next.shared = w.shared → Pool.Effect d w next move

section Steps
variable {d : Discipline setting.serve} {w next : Pool σ (Program Op Answer ε α)} {move : Move Request χ Event}

theorem Pool.exec_effect (sound : w.Sound setting d) (ran : w.exec setting move = .ok next) :
    Pool.Effect d w next move := by
  cases move with
  | spawn worker request =>
    simp only [Pool.exec] at ran
    split at ran
    · cases ran
      exact .unmoved _ rfl
    · cases ran
  | crash worker =>
    cases ran
    exact .unmoved _ rfl
  | outside event =>
    simp only [Pool.exec] at ran
    split at ran
    · rename_i shared happened
      cases ran
      exact .happened event happened
    · cases ran
  | step worker choice =>
    simp only [Pool.exec] at ran
    split at ran
    · rename_i op resume found
      cases ran
      have here := sound.safe worker _ found w.shared (d.refl _) sound.inv
      exact .served worker op choice (by simp [Pool.served,found]) here.1 rfl
    · cases ran

-- Outside events have to respect the discipline too; programs have to start
-- safe. Then every pool reached is sound.
theorem Pool.exec_sound
    (events : ∀ s event after, d.Inv s → setting.happen s event = .ok after → d.Inv after ∧ d.Later s after)
    (programs : ∀ request s, d.Inv s → Safe d (fun _ _ => True) (setting.program request) s)
    (sound : w.Sound setting d) (ran : w.exec setting move = .ok next) :
    next.Sound setting d ∧ d.Later w.shared next.shared := by
  have others : ∀ {shared : σ}, d.Later w.shared shared → ∀ worker p, w.workers.get? worker = some p →
      Safe d (fun _ _ => True) p shared := fun since worker p found => (sound.safe worker p found).later since
  cases move with
  | spawn worker request =>
    simp only [Pool.exec] at ran
    split at ran
    · cases ran
      refine ⟨⟨sound.inv,?_⟩,d.refl _⟩
      intro j p found
      rw [Store.get?_upsert] at found
      split at found
      · cases found
        exact programs request _ sound.inv
      · exact sound.safe j p found
    · cases ran
  | crash worker =>
    cases ran
    refine ⟨⟨sound.inv,?_⟩,d.refl _⟩
    intro j p found
    rw [Store.get?_erase] at found
    split at found
    · cases found
    · exact sound.safe j p found
  | outside event =>
    simp only [Pool.exec] at ran
    split at ran
    · rename_i shared happened
      cases ran
      obtain ⟨kept,since⟩ := events _ event _ sound.inv happened
      exact ⟨⟨kept,others since⟩,since⟩
    · cases ran
  | step worker choice =>
    simp only [Pool.exec] at ran
    split at ran
    · rename_i op resume found
      cases ran
      obtain ⟨allowed,rest⟩ := sound.safe worker _ found w.shared (d.refl _) sound.inv
      obtain ⟨kept,since⟩ := d.serves w.shared op choice sound.inv allowed
      refine ⟨⟨kept,?_⟩,since⟩
      intro j p present
      rw [Store.get?_upsert] at present
      split at present
      · cases present
        exact rest choice
      · exact others since j p present
    · cases ran

end Steps
end Pools
end MemWal.Library
