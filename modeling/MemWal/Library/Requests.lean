import MemWal.Library.Traces

namespace MemWal.Library
section Calls
variable {Op : Type} {Answer : Op → Type} {σ χ ε α β : Type} {serve : σ → (op : Op) → χ → σ × Answer op}

theorem Completes.not_fail {error : ε} {calls : List (Made σ Op χ)} {value : α} :
    ¬ Completes serve (.fail error : Program Op Answer ε α) calls (.ok value) := by
  intro completes
  cases calls <;> cases completes

-- A program that has no way to fail.
def Program.Unfailing : Program Op Answer ε α → Prop
  | .done _ => True
  | .fail _ => False
  | .call _ resume => ∀ answer, (resume answer).Unfailing

theorem Program.Unfailing.bind {p : Program Op Answer ε α} {next : α → Program Op Answer ε β} (first : p.Unfailing)
    (rest : ∀ value, (next value).Unfailing) : (p >>= next).Unfailing := by
  induction p with
  | done value => exact rest value
  | fail error => cases first
  | call op resume ih => exact fun answer => ih answer (first answer)

theorem Program.Unfailing.attempt {δ : Type} (p : Program Op Answer ε α) :
    (p.attempt : Program Op Answer δ (Except ε α)).Unfailing := by
  induction p with
  | done value => trivial
  | fail error => trivial
  | call op resume ih => exact fun answer => ih answer

theorem Program.Unfailing.foldlM {f : α → β → Program Op Answer ε α} (body : ∀ acc item, (f acc item).Unfailing)
    (items : List β) (acc : α) : (items.foldlM f acc).Unfailing := by
  induction items generalizing acc with
  | nil => trivial
  | cons item rest ih =>
    rw [List.foldlM_cons]
    exact (body acc item).bind ih

theorem Completes.unfailing {p : Program Op Answer ε α} (unfailing : p.Unfailing) {calls : List (Made σ Op χ)} {error : ε} :
    ¬ Completes serve p calls (.error error) := by
  intro completes
  induction p generalizing calls with
  | done value => cases calls <;> cases completes
  | fail error => cases unfailing
  | call op resume ih =>
    cases calls with
    | nil => cases completes
    | cons made rest => exact ih _ (unfailing _) completes.2

theorem Completes.join {p : Program Op Answer ε α} {next : α → Program Op Answer ε β} {first rest : List (Made σ Op χ)}
    {value : α} {result : Except ε β} (head : Completes serve p first (.ok value))
    (tail : Completes serve (next value) rest result) : Completes serve (p >>= next) (first ++ rest) result := by
  induction p generalizing first with
  | done other =>
    cases first with
    | nil =>
      cases head
      exact tail
    | cons made more => cases head
  | fail error =>
    cases first with
    | nil => cases head
    | cons made more => cases head
  | call op resume ih =>
    cases first with
    | nil => cases head
    | cons made more => exact ⟨head.1,ih _ head.2⟩

-- What is left of a program after some of its calls.
def Program.rest (serve : σ → (op : Op) → χ → σ × Answer op) :
    Program Op Answer ε α → List (Made σ Op χ) → Program Op Answer ε α
  | .call op resume,made :: calls => (resume (serve made.state op made.choice).2).rest serve calls
  | p,_ => p

theorem Completes.rest {p : Program Op Answer ε α} {calls : List (Made σ Op χ)} {value : α}
    (completes : Completes serve p calls (.ok value)) : p.rest serve calls = .done value := by
  induction calls generalizing p with
  | nil =>
    cases p with
    | done other =>
      cases completes
      rfl
    | fail error => cases completes
    | call op resume => cases completes
  | cons made calls ih =>
    cases p with
    | done other => cases completes
    | fail error => cases completes
    | call op resume => exact ih completes.2

-- A last call of a kind that the first part never makes comes after its end.
theorem Execution.beyond_last {Others : σ → σ → Prop} {p : Program Op Answer ε α} {next : α → Program Op Answer ε β}
    {s : σ} {calls : List (Made σ Op χ)} {last : Made σ Op χ}
    (ran : Execution serve Others (p >>= next) s (calls ++ [last])) (kind : Op → Prop) (only : p.Only kind)
    (other : ¬ kind last.op) :
    ∃ first rest value since, calls = first ++ rest ∧ Completes serve p first (.ok value) ∧
      Execution serve Others (next value) since (rest ++ [last]) := by
  obtain ⟨first,rest,value,since,split,member,head,tail⟩ := ran.beyond only (by simp) other
  rcases List.eq_nil_or_concat rest with rfl | ⟨front,end_,rfl⟩
  · cases member
  · rw [List.concat_eq_append] at tail
    rw [List.concat_eq_append,← List.append_assoc] at split
    obtain ⟨equal,same⟩ := List.append_inj' split rfl
    cases same
    exact ⟨first,front,value,since,equal,head,tail⟩

-- A call of another kind is not among those of the first part.
theorem Completes.skips {p : Program Op Answer ε α} {first rest : List (Made σ Op χ)} {result : Except ε α}
    {kind : Op → Prop} (completes : Completes serve p first result) (only : p.Only kind) {made : Made σ Op χ}
    (member : made ∈ first ++ rest) (other : ¬ kind made.op) : made ∈ rest := by
  rcases List.mem_append.mp member with before | after
  · exact absurd (completes.only only made before) other
  · exact after

theorem Completes.execution {p : Program Op Answer ε α} {calls : List (Made σ Op χ)} {result : Except ε α} {s : σ}
    (completes : Completes serve p calls result) : Execution serve (fun _ _ => True) p s calls := by
  induction calls generalizing p s with
  | nil => cases p <;> trivial
  | cons made rest ih =>
    cases p with
    | done value => cases completes
    | fail error => cases completes
    | call op resume => exact ⟨completes.1,trivial,ih completes.2⟩

-- What is left to do after a program makes no call.
theorem Execution.of_map {p : Program Op Answer ε α} {next : α → β} {s : σ} {calls : List (Made σ Op χ)}
    (ran : Execution serve (fun _ _ => True) (p >>= fun value => (pure (next value) : Program Op Answer ε β)) s calls) :
    Execution serve (fun _ _ => True) p s calls := by
  rcases ran.bind with early | ⟨first,rest,value,since,rfl,head,tail⟩
  · exact early
  · cases rest with
    | nil =>
      rw [List.append_nil]
      exact head.execution
    | cons made more => cases tail

end Calls

namespace Crew
variable {Op : Type} {Answer : Op → Type} {σ χ ε α Request Event : Type}
variable (crew : Crew Op Answer σ χ ε α Request Event)

-- A call of a run, with the request it is made for: the worker was started for
-- it and has not died since.
structure MadeAt (w : Pool σ (Program Op Answer ε α)) (moves : List (Move Request χ Event)) (worker i : Nat)
    (request : Request) (p : Nat) (op : Op) (c : χ) : Prop where
  spawned : moves[i]? = some (.spawn worker request)
  idle : (Runs.before crew.exec w moves i).workers.get? worker = none
  after : i < p
  alive : ∀ q, i < q → q < p → moves[q]? ≠ some (.crash worker)
  serves : ∃ move, moves[p]? = some move ∧ served (Runs.before crew.exec w moves p) move = some (worker,op,c)

variable {crew} {w : Pool σ (Program Op Answer ε α)} {moves : List (Move Request χ Event)} {worker : Nat}

theorem serving {p : Nat} {move : Move Request χ Event} {op : Op} {c : χ}
    (call : served (Runs.before crew.exec w moves p) move = some (worker,op,c)) :
    ∃ program, (Runs.before crew.exec w moves p).workers.get? worker = some program := by
  cases move with
  | step k choice =>
    simp only [served] at call
    split at call
    · rename_i first resume program
      cases call
      exact ⟨_,program⟩
    · cases call
  | spawn k request => cases call
  | crash k => cases call
  | outside event => cases call

theorem made_at {p : Nat} {move : Move Request χ Event} {op : Op} {c : χ} (idle : w.workers.get? worker = none)
    (found : moves[p]? = some move) (call : served (Runs.before crew.exec w moves p) move = some (worker,op,c)) :
    ∃ i request, MadeAt crew w moves worker i request p op c := by
  obtain ⟨program,holds⟩ := serving call
  obtain ⟨i,request,small,spawned,free,alive⟩ := started idle holds
  exact ⟨i,request,spawned,free,small,alive,move,found,call⟩

-- A worker that is there stays there until it dies.
theorem stays {i j : Nat} (order : i ≤ j) (there : ((Runs.before crew.exec w moves i).workers.get? worker).isSome = true)
    (alive : ∀ q, i ≤ q → q < j → moves[q]? ≠ some (.crash worker)) :
    ((Runs.before crew.exec w moves j).workers.get? worker).isSome = true := by
  refine Runs.kept_between
    (P:=fun v : Pool σ (Program Op Answer ε α) => (v.workers.get? worker).isSome = true) order there ?_
  intro k move next low high found held ran
  cases move with
  | spawn other request =>
    simp only [exec] at ran
    split at ran
    · cases ran
      rw [Store.get?_upsert]
      split
      · rfl
      · exact held
    · cases ran
  | step other choice =>
    simp only [exec] at ran
    split at ran
    · cases ran
      rw [Store.get?_upsert]
      split
      · rfl
      · exact held
    · cases ran
  | crash other =>
    cases ran
    rw [Store.get?_erase]
    split
    · rename_i same
      exact absurd (same ▸ found) (alive k low high)
    · exact held
  | outside event =>
    cases ran
    exact held

theorem spawn_there {i : Nat} {request : Request} (spawned : moves[i]? = some (.spawn worker request))
    (idle : (Runs.before crew.exec w moves i).workers.get? worker = none) :
    (Runs.before crew.exec w moves (i+1)).workers.get? worker = some (crew.program request) := by
  rw [Runs.before_succ spawned]
  simp [Runs.settle,exec,idle,Store.get?_upsert]

namespace MadeAt
variable {i j p q : Nat} {request other : Request} {op op' : Op} {c c' : χ}

-- A call is made for one request only.
theorem not_between (made : MadeAt crew w moves worker i request p op c)
    (made' : MadeAt crew w moves worker j other p op' c') : ¬ i < j := by
  intro less
  have there : ((Runs.before crew.exec w moves j).workers.get? worker).isSome = true := by
    apply stays (i:=i+1) less
    · rw [spawn_there made.spawned made.idle]
      rfl
    · intro q low high
      exact made.alive q low (Nat.lt_trans high made'.after)
  rw [made'.idle] at there
  cases there

theorem unique (made : MadeAt crew w moves worker i request p op c)
    (made' : MadeAt crew w moves worker j other p op' c') : i = j := by
  have first := made.not_between made'
  have second := made'.not_between made
  omega

theorem same_request (made : MadeAt crew w moves worker i request p op c)
    (made' : MadeAt crew w moves worker i other q op' c') : request = other := by
  cases made.spawned.symm.trans made'.spawned
  rfl

end MadeAt

-- The calls of a worker that lives through the first part of a run.
theorem made_append (first rest : List (Move Request χ Event)) (w : Pool σ (Program Op Answer ε α))
    (alive : .crash worker ∉ first) :
    crew.made worker w (first ++ rest) = crew.made worker w first ++ crew.made worker (Runs.after crew.exec w first) rest := by
  induction first generalizing w with
  | nil => rfl
  | cons move tail ih =>
    have later := fun v => ih v (fun there => alive (List.mem_cons_of_mem _ there))
    cases move with
    | spawn k request => exact later _
    | outside event => exact later _
    | crash k =>
      have different : k ≠ worker := by
        intro same
        obtain rfl := same
        exact alive List.mem_cons_self
      simp only [List.cons_append,made,if_neg different]
      exact later _
    | step k choice =>
      simp only [List.cons_append,made]
      split
      · split
        · rw [later,List.cons_append]
          rfl
        · exact later _
      · rename_i idle
        rw [later]
        simp only [Runs.after,List.foldl_cons,settle_idle idle]

variable (crew) in
-- A worker that lives through a run is where its calls have brought it.
theorem made_rest {p : Program Op Answer ε α} (moves : List (Move Request χ Event)) {w : Pool σ (Program Op Answer ε α)}
    (alive : .crash worker ∉ moves) (found : w.workers.get? worker = some p) :
    (Runs.after crew.exec w moves).workers.get? worker =
      some (p.rest (fun s op c => crew.service.serve s worker op c) (crew.made worker w moves)) := by
  induction moves generalizing w p with
  | nil =>
    cases p <;> exact found
  | cons move rest ih =>
    have later := fun {v} {q} => ih (p:=q) (w:=v) (fun there => alive (List.mem_cons_of_mem _ there))
    cases move with
    | spawn k request =>
      apply later
      simp only [Runs.settle,exec]
      cases there : w.workers.get? k with
      | some _ => exact found
      | none =>
        have different : worker ≠ k := by
          intro given
          obtain rfl := given
          rw [found] at there
          cases there
        simp only [Store.get?_upsert,different,if_false]
        exact found
    | outside event => exact later found
    | crash k =>
      have different : k ≠ worker := by
        intro given
        obtain rfl := given
        exact alive List.mem_cons_self
      simp only [made,if_neg different]
      apply later
      simp only [Runs.settle,exec,Store.get?_erase]
      rw [if_neg (fun same => different same.symm)]
      exact found
    | step k choice =>
      cases call : served w (.step k choice : Move Request χ Event) with
      | none =>
        simp only [made,call,Runs.after,List.foldl_cons,settle_idle call]
        exact later found
      | some served_ =>
        obtain ⟨caller,op,c⟩ := served_
        simp only [served] at call
        split at call
        · rename_i first resume there
          cases call
          have ran : Runs.settle crew.exec w (.step k choice) =
              ⟨(crew.service.serve w.shared k op choice).1,
                w.workers.upsert k (resume (crew.service.serve w.shared k op choice).2)⟩ := by
            simp only [Runs.settle,exec,there]
          by_cases same : k = worker
          · subst same
            cases found.symm.trans there
            simp only [made,served,there,if_true]
            apply later
            rw [ran]
            simp only [Store.get?_upsert,if_true]
          · simp only [made,served,there,if_neg same]
            apply later
            rw [ran]
            simp only [Store.get?_upsert]
            rw [if_neg (fun equal => same equal.symm)]
            exact found
        · cases call

-- A call with those that its worker made for the same request before it.
theorem MadeAt.calls {i p : Nat} {request : Request} {op : Op} {c : χ}
    (made : MadeAt crew w moves worker i request p op c) :
    ∃ calls, Execution (fun s op c => crew.service.serve s worker op c) (fun _ _ => True) (crew.program request)
        (Runs.before crew.exec w moves i).shared (calls ++ [⟨(Runs.before crew.exec w moves p).shared,op,c⟩]) ∧
      (∀ call ∈ calls, ∃ q, q < p ∧ call.state = (Runs.before crew.exec w moves q).shared ∧
        MadeAt crew w moves worker i request q call.op call.choice) ∧
      (∀ q op' c', q < p → MadeAt crew w moves worker i request q op' c' →
        ⟨(Runs.before crew.exec w moves q).shared,op',c'⟩ ∈ calls) ∧
      (Runs.before crew.exec w moves (p+1)).workers.get? worker =
        some ((crew.program request).rest (fun s op c => crew.service.serve s worker op c)
          (calls ++ [⟨(Runs.before crew.exec w moves p).shared,op,c⟩])) := by
  obtain ⟨d,rfl⟩ : ∃ d, p = i + 1 + d := ⟨p - (i+1),by have := made.after; omega⟩
  obtain ⟨move,found,call⟩ := made.serves
  let between := (moves.drop (i+1)).take d
  have at_ : ∀ k, k ≤ d → Runs.before crew.exec (Runs.before crew.exec w moves (i+1)) between k =
      Runs.before crew.exec w moves (i+1+k) := by
    intro k small
    rw [← Runs.before_drop w moves (i+1) k]
    simp only [Runs.before,between,List.take_take,Nat.min_eq_left small]
  have located : ∀ k, k < d → between[k]? = moves[i+1+k]? := by
    intro k small
    rw [List.getElem?_take_of_lt small,List.getElem?_drop]
  have alive : (.crash worker : Move Request χ Event) ∉ between := by
    intro there
    obtain ⟨k,found⟩ := List.mem_iff_getElem?.mp there
    have small : k < d := by
      by_contra past
      rw [List.getElem?_eq_none (by simp [between]; omega)] at found
      cases found
    rw [located k small] at found
    exact made.alive _ (by omega) (by omega) found
  have end_ : Runs.after crew.exec (Runs.before crew.exec w moves (i+1)) between =
      Runs.before crew.exec w moves (i+1+d) := by
    rw [← at_ d (Nat.le_refl d)]
    simp [Runs.before,between,List.take_take]
  have all : crew.made worker (Runs.before crew.exec w moves (i+1)) (between ++ [move]) =
      crew.made worker (Runs.before crew.exec w moves (i+1)) between ++
        [⟨(Runs.before crew.exec w moves (i+1+d)).shared,op,c⟩] := by
    rw [made_append _ _ _ alive,end_]
    congr 1
    cases move with
    | step k choice => simp [Crew.made,call]
    | spawn k request => cases call
    | crash k => cases call
    | outside event => cases call
  refine ⟨crew.made worker (Runs.before crew.exec w moves (i+1)) between,?_,?_,?_,?_⟩
  · have ran : Execution (fun s op c => crew.service.serve s worker op c) (fun _ _ => True) (crew.program request)
        (Runs.before crew.exec w moves i).shared
        (crew.made worker (Runs.before crew.exec w moves (i+1)) (between ++ [move])) :=
      made_execution _ (spawn_there made.spawned made.idle)
    rw [all] at ran
    exact ran
  · intro made_ member
    obtain ⟨k,next,there,serves,state⟩ := made_position member
    have small : k < d := by
      by_contra past
      rw [List.getElem?_eq_none (by simp [between]; omega)] at there
      cases there
    rw [at_ k (Nat.le_of_lt small)] at serves state
    rw [located k small] at there
    refine ⟨i+1+k,by omega,state,made.spawned,made.idle,by omega,?_,next,there,serves⟩
    exact fun q low high => made.alive q low (by omega)
  · intro q op' c' less made'
    obtain ⟨k,rfl⟩ : ∃ k, q = i + 1 + k := ⟨q - (i+1),by have := made'.after; omega⟩
    obtain ⟨next,there,serves⟩ := made'.serves
    have small : k < d := by omega
    have serves' : served (Runs.before crew.exec (Runs.before crew.exec w moves (i+1)) between k) next =
        some (worker,op',c') := by
      rw [at_ k (Nat.le_of_lt small)]
      exact serves
    have member := mem_made ((located k small).trans there) serves' (by
      intro q less
      rw [located q (by omega)]
      exact made'.alive _ (by omega) (by omega))
    rw [at_ k (Nat.le_of_lt small)] at member
    exact member
  · have living : (.crash worker : Move Request χ Event) ∉ between ++ [move] := by
      intro there
      rcases List.mem_append.mp there with early | last
      · exact alive early
      · cases List.mem_singleton.mp last
        cases call
    have ended := made_rest crew (between ++ [move]) living (spawn_there made.spawned made.idle)
    rw [all] at ended
    rw [← ended,Runs.before_succ found,← end_]
    simp [Runs.after]

-- What one position of a run does to the shared state.
theorem shared_step (w : Pool σ (Program Op Answer ε α)) (moves : List (Move Request χ Event)) (p : Nat) :
    (∃ worker op c, (moves[p]?).bind (served (Runs.before crew.exec w moves p)) = some (worker,op,c) ∧
      (Runs.before crew.exec w moves (p+1)).shared =
        (crew.service.serve (Runs.before crew.exec w moves p).shared worker op c).1) ∨
    (moves[p]?).bind (served (Runs.before crew.exec w moves p)) = none ∧
      ((∃ worker, (Runs.before crew.exec w moves (p+1)).shared =
        crew.service.abandon (Runs.before crew.exec w moves p).shared worker) ∨
      (∃ event, (Runs.before crew.exec w moves (p+1)).shared =
        crew.happen (Runs.before crew.exec w moves p).shared event) ∨
      (Runs.before crew.exec w moves (p+1)).shared = (Runs.before crew.exec w moves p).shared) := by
  cases found : moves[p]? with
  | none => exact .inr ⟨rfl,.inr (.inr (by rw [Runs.before_past found]))⟩
  | some move =>
    rw [Runs.before_succ found,Option.bind_some]
    cases move with
    | outside event => exact .inr ⟨rfl,.inr (.inl ⟨event,rfl⟩)⟩
    | crash k => exact .inr ⟨rfl,.inl ⟨k,rfl⟩⟩
    | spawn k request =>
      refine .inr ⟨rfl,.inr (.inr ?_)⟩
      simp only [Runs.settle,exec]
      cases (Runs.before crew.exec w moves p).workers.get? k <;> rfl
    | step k c =>
      cases call : served (Runs.before crew.exec w moves p) (.step k c : Move Request χ Event) with
      | none =>
        refine .inr ⟨rfl,.inr (.inr ?_)⟩
        rw [settle_idle call]
      | some made =>
        obtain ⟨next,ran,equal⟩ := crew.exec_served call
        refine .inl ⟨made.1,made.2.1,made.2.2,rfl,?_⟩
        rw [Runs.settle_ok ran,equal]

end Crew
end MemWal.Library
