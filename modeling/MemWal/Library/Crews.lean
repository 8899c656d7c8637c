import MemWal.Library.Programs

namespace MemWal.Library

-- Workers that can hold a part of the shared state: a call is served for the
-- worker that makes it, and a worker that dies gives up what it held.
structure Service (Op : Type) (Answer : Op → Type) (σ χ : Type) where
  serve : σ → Nat → (op : Op) → χ → σ × Answer op
  abandon : σ → Nat → σ

section Terms
variable {Op : Type} {Answer : Op → Type} {σ χ ε δ α β γ : Type}

-- `Rely` is what one worker can count on while the others work, `Allowed` when a
-- call may be made, `Given` what is assumed about the calls of a run.
structure Terms (service : Service Op Answer σ χ) where
  Inv : σ → Prop
  Rely : Nat → σ → σ → Prop
  Allowed : σ → Nat → Op → Prop
  Given : σ → Nat → Op → χ → Prop
  refl : ∀ k s, Rely k s s
  trans : ∀ k a b c, Rely k a b → Rely k b c → Rely k a c
  serves : ∀ s k op c, Inv s → Allowed s k op → Given s k op c →
    Inv (service.serve s k op c).1 ∧ ∀ j, j ≠ k → Rely j s (service.serve s k op c).1
  abandons : ∀ s k, Inv s → Inv (service.abandon s k) ∧ ∀ j, j ≠ k → Rely j s (service.abandon s k)

variable {service : Service Op Answer σ χ} (t : Terms service) (k : Nat)

-- Every call the worker makes from here on is allowed, whatever the others do in
-- between; what it ends with satisfies `post`.
def Keeps (post : Except ε α → σ → Prop) : Program Op Answer ε α → σ → Prop
  | .done value,s => post (.ok value) s
  | .fail error,s => post (.error error) s
  | .call op resume,s => ∀ now, t.Rely k s now → t.Inv now → t.Allowed now k op ∧
      ∀ c, t.Given now k op c → Keeps post (resume (service.serve now k op c).2) (service.serve now k op c).1

variable {t k}
namespace Keeps
variable {post weaker : Except ε α → σ → Prop} {p : Program Op Answer ε α} {s now : σ}

theorem weaken (keeps : Keeps t k post p s) (implies : ∀ result s, post result s → weaker result s) :
    Keeps t k weaker p s := by
  induction p generalizing s with
  | done value => exact implies _ s keeps
  | fail error => exact implies _ s keeps
  | call op resume ih =>
    intro now since inv
    obtain ⟨allowed,next⟩ := keeps now since inv
    exact ⟨allowed,fun c given => ih _ (next c given)⟩

theorem later (keeps : Keeps t k (fun _ _ => True) p s) (since : t.Rely k s now) :
    Keeps t k (fun _ _ => True) p now := by
  cases p with
  | done value => trivial
  | fail error => trivial
  | call op resume => exact fun after more inv => keeps after (t.trans k s now after since more) inv

-- A fact that neither the others nor the worker's own calls disturb.
theorem remember {P : σ → Prop} (stable : ∀ s now, t.Rely k s now → P s → P now)
    (kept : ∀ s op c, t.Inv s → P s → P (service.serve s k op c).1) (keeps : Keeps t k post p s) (start : P s) :
    Keeps t k (fun result s => post result s ∧ P s) p s := by
  induction p generalizing s with
  | done value => exact ⟨keeps,start⟩
  | fail error => exact ⟨keeps,start⟩
  | call op resume ih =>
    intro now since inv
    obtain ⟨allowed,next⟩ := keeps now since inv
    exact ⟨allowed,fun c given => ih _ (next c given) (kept now op c inv (stable s now since start))⟩

theorem of_only {kind : Op → Prop} (free : ∀ op, kind op → ∀ s, t.Allowed s k op) (only : p.Only kind) (s : σ) :
    Keeps t k (fun _ _ => True) p s := by
  induction p generalizing s with
  | done value => trivial
  | fail error => trivial
  | call op resume ih => exact fun now _ _ => ⟨free op only.1 now,fun c _ => ih _ (only.2 _) _⟩

theorem bind {Q : Except ε α → σ → Prop} {post : Except ε β → σ → Prop} {next : α → Program Op Answer ε β}
    (inv : t.Inv s) (first : Keeps t k Q p s)
    (rest : ∀ value now, t.Inv now → Q (.ok value) now → Keeps t k post (next value) now)
    (failed : ∀ error now, t.Inv now → Q (.error error) now → post (.error error) now) :
    Keeps t k post (p >>= next) s := by
  induction p generalizing s with
  | done value => exact rest value s inv first
  | fail error => exact failed error s inv first
  | call op resume ih =>
    intro now since sound
    obtain ⟨allowed,tail⟩ := first now since sound
    exact ⟨allowed,fun c given => ih _ (t.serves now k op c sound allowed given).1 (tail c given)⟩

theorem attempt {Q : Except ε α → σ → Prop} (keeps : Keeps t k Q p s) :
    Keeps t k (fun (result : Except δ (Except ε α)) s => ∃ inner, result = .ok inner ∧ Q inner s)
      (p.attempt : Program Op Answer δ (Except ε α)) s := by
  induction p generalizing s with
  | done value => exact ⟨.ok value,rfl,keeps⟩
  | fail error => exact ⟨.error error,rfl,keeps⟩
  | call op resume ih =>
    intro now since inv
    obtain ⟨allowed,next⟩ := keeps now since inv
    exact ⟨allowed,fun c given => ih _ (next c given)⟩

theorem orFail {convert : δ → ε} {result : Except δ α} (ok : ∀ value, result = .ok value → post (.ok value) s)
    (error : ∀ e, result = .error e → post (.error (convert e)) s) :
    Keeps t k post (Program.orFail convert result) s := by
  cases result with
  | ok value => exact ok value rfl
  | error e => exact error e rfl

theorem orFail_bind {convert : δ → ε} {result : Except δ α} {post : Except ε β → σ → Prop}
    {next : α → Program Op Answer ε β} (ok : ∀ value, result = .ok value → Keeps t k post (next value) s)
    (error : ∀ e, result = .error e → post (.error (convert e)) s) :
    Keeps t k post (Program.orFail convert result >>= next) s := by
  cases result with
  | ok value => exact ok value rfl
  | error e => exact error e rfl

-- A loop over a list; the invariant speaks of the part already gone through.
theorem foldlM {I : List β → γ → σ → Prop} {post : Except ε γ → σ → Prop} {f : γ → β → Program Op Answer ε γ}
    {items : List β}
    (body : ∀ seen item acc s, item ∈ items → t.Inv s → I seen acc s →
      Keeps t k (fun result s => (∀ value, result = .ok value → I (seen ++ [item]) value s) ∧
        ∀ error, result = .error error → post (.error error) s) (f acc item) s)
    (finish : ∀ acc s, t.Inv s → I items acc s → post (.ok acc) s)
    (acc : γ) (inv : t.Inv s) (start : I [] acc s) : Keeps t k post (items.foldlM f acc) s := by
  suffices from_ : ∀ seen rest acc s, items = seen ++ rest → t.Inv s → I seen acc s →
      Keeps t k post (rest.foldlM f acc) s from from_ [] items acc s rfl inv start
  intro seen rest
  induction rest generalizing seen with
  | nil =>
    intro acc s split inv held
    rw [List.append_nil] at split
    subst split
    exact finish acc s inv held
  | cons item rest ih =>
    intro acc s split inv held
    rw [List.foldlM_cons]
    refine bind inv (body seen item acc s (by rw [split]; simp) inv held) ?_ ?_
    · intro value now sound known
      exact ih (seen ++ [item]) value now (by rw [split]; simp) sound (known.1 value rfl)
    · intro error now _ known
      exact known.2 error rfl

end Keeps

-- One worker on its own, amid others that are only known by what they respect:
-- the calls it makes, each with the state it meets.
structure Made (σ Op χ : Type) where
  state : σ
  op : Op
  choice : χ

def Execution (serve : σ → (op : Op) → χ → σ × Answer op) (Others : σ → σ → Prop) :
    Program Op Answer ε α → σ → List (Made σ Op χ) → Prop
  | _,_,[] => True
  | .call op resume,s,made :: rest => made.op = op ∧ Others s made.state ∧
      Execution serve Others (resume (serve made.state op made.choice).2) (serve made.state op made.choice).1 rest
  | .done _,_,_ :: _ => False
  | .fail _,_,_ :: _ => False

-- The program on its own, with the given choices.
def play (serve : σ → (op : Op) → χ → σ × Answer op) : Program Op Answer ε α → σ → List χ → List (Made σ Op χ)
  | .call op resume,s,c :: rest => ⟨s,op,c⟩ :: play serve (resume (serve s op c).2) (serve s op c).1 rest
  | .call _ _,_,[] => []
  | .done _,_,_ => []
  | .fail _,_,_ => []

theorem play_execution {serve : σ → (op : Op) → χ → σ × Answer op} {Others : σ → σ → Prop} (refl : ∀ s, Others s s)
    (p : Program Op Answer ε α) (s : σ) (choices : List χ) :
    Execution serve Others p s (play serve p s choices) := by
  induction choices generalizing p s with
  | nil => cases p <;> trivial
  | cons c rest ih =>
    cases p with
    | done value => trivial
    | fail error => trivial
    | call op resume => exact ⟨rfl,refl s,ih _ _⟩

theorem play_choice {serve : σ → (op : Op) → χ → σ × Answer op} {p : Program Op Answer ε α} {s : σ} {choices : List χ}
    {made : Made σ Op χ} (member : made ∈ play serve p s choices) : made.choice ∈ choices := by
  induction choices generalizing p s with
  | nil => cases p <;> cases member
  | cons c rest ih =>
    cases p with
    | done value => cases member
    | fail error => cases member
    | call op resume =>
      rcases List.mem_cons.mp member with rfl | later
      · exact List.mem_cons_self
      · exact List.mem_cons_of_mem _ (ih later)

theorem play_invariant {serve : σ → (op : Op) → χ → σ × Answer op} {I : σ → Prop} {kind : Op → Bool}
    (preserved : ∀ s op c, kind op = true → I s → I (serve s op c).1) {p : Program Op Answer ε α} {s : σ}
    {choices : List χ} (only : (play serve p s choices).all (fun made => kind made.op) = true) (start : I s) :
    ∀ made ∈ play serve p s choices, I made.state := by
  induction choices generalizing p s with
  | nil =>
    intro made member
    cases p <;> cases member
  | cons c rest ih =>
    intro made member
    cases p with
    | done value => cases member
    | fail error => cases member
    | call op resume =>
      simp only [play,List.all_cons,Bool.and_eq_true] at only
      rcases List.mem_cons.mp member with rfl | later
      · exact start
      · exact ih only.2 (preserved s op c only.1 start) made later

section Records
variable {serve : σ → (op : Op) → χ → σ × Answer op}

-- The same calls with the list of those made before kept beside the state.
def recording (serve : σ → (op : Op) → χ → σ × Answer op) : Service Op Answer (List (Made σ Op χ) × σ) χ where
  serve past _ op c := ((past.1 ++ [⟨past.2,op,c⟩],(serve past.2 op c).1),(serve past.2 op c).2)
  abandon past _ := past

structure Account (serve : σ → (op : Op) → χ → σ × Answer op) where
  Later : σ → σ → Prop
  Allowed : List (Made σ Op χ) → σ → Op → Prop
  Given : List (Made σ Op χ) → σ → Op → χ → Prop
  refl : ∀ s, Later s s
  trans : ∀ a b c, Later a b → Later b c → Later a c

def Account.terms (a : Account serve) : Terms (recording serve) where
  Inv _ := True
  Rely j past now := j = 0 → now.1 = past.1 ∧ a.Later past.2 now.2
  Allowed past k op := k = 0 ∧ a.Allowed past.1 past.2 op
  Given past _ op c := a.Given past.1 past.2 op c
  refl _ past _ := ⟨rfl,a.refl past.2⟩
  trans _ x y z first second zero :=
    ⟨(second zero).1.trans (first zero).1,a.trans x.2 y.2 z.2 (first zero).2 (second zero).2⟩
  serves _ _ _ _ _ allowed _ := ⟨trivial,fun _ other zero => absurd (zero.trans allowed.1.symm) other⟩
  abandons past _ _ := ⟨trivial,fun _ _ _ => ⟨rfl,a.refl past.2⟩⟩

theorem Execution.allowed {a : Account serve} {post : Except ε α → List (Made σ Op χ) × σ → Prop}
    {p : Program Op Answer ε α} {past : List (Made σ Op χ)} {s : σ} {calls : List (Made σ Op χ)}
    (keeps : Keeps a.terms 0 post p (past,s)) (ran : Execution serve a.Later p s calls)
    (given : ∀ i made, calls[i]? = some made → a.Given (past ++ calls.take i) made.state made.op made.choice)
    (i : Nat) (made : Made σ Op χ) (found : calls[i]? = some made) :
    a.Allowed (past ++ calls.take i) made.state made.op := by
  induction calls generalizing p past s i with
  | nil => cases found
  | cons first rest ih =>
    cases p with
    | done value => cases ran
    | fail error => cases ran
    | call op resume =>
      obtain ⟨rfl,since,ran⟩ := ran
      obtain ⟨allowed,next⟩ := keeps (past,first.state) (fun _ => ⟨rfl,since⟩) trivial
      have here := given 0 first rfl
      rw [List.take_zero,List.append_nil] at here
      cases i with
      | zero =>
        cases found
        rw [List.take_zero,List.append_nil]
        exact allowed.2
      | succ i =>
        have tail := ih (next first.choice here) ran ?_ i found
        · rw [List.take_succ_cons,List.append_cons]
          exact tail
        · intro j made found
          have later := given (j+1) made found
          rw [List.take_succ_cons,List.append_cons] at later
          exact later

-- What is allowed stays allowed when more has happened before, and what is given
-- with a longer past is given with a shorter one.
structure Account.Steady (a : Account serve) : Prop where
  allowed : ∀ past more s op, past.Sublist more → a.Allowed past s op → a.Allowed more s op
  given : ∀ past more s op c, past.Sublist more → a.Given more s op c → a.Given past s op c

theorem Keeps.extend {a : Account serve} (steady : a.Steady) {p : Program Op Answer ε α}
    {past more : List (Made σ Op χ)} {s now : σ} (sub : past.Sublist more) (since : a.Later s now)
    (keeps : Keeps a.terms 0 (fun _ _ => True) p (past,s)) : Keeps a.terms 0 (fun _ _ => True) p (more,now) := by
  induction p generalizing past more s now with
  | done value => trivial
  | fail error => trivial
  | call op resume ih =>
    intro after rely _
    obtain ⟨rfl,moved⟩ := rely rfl
    obtain ⟨allowed,next⟩ := keeps (past,after.2) (fun _ => ⟨rfl,a.trans _ _ _ since moved⟩) trivial
    refine ⟨⟨rfl,steady.allowed _ _ _ _ sub allowed.2⟩,fun c given => ?_⟩
    exact ih _ (sub.append_right _) (a.refl _) (next c (steady.given _ _ _ _ _ sub given))

theorem Keeps.cutOff {a : Account serve} (steady : a.Steady) {late : Op} {isLate : Answer late → Bool}
    (free : ∀ past s, a.Allowed past s late)
    (quiet : ∀ past s c, a.Given past s late c → a.Later s (serve s late c).1)
    {p : Program Op Answer ε α} {past : List (Made σ Op χ)} {s : σ}
    (keeps : Keeps a.terms 0 (fun _ _ => True) p (past,s)) :
    Keeps a.terms 0 (fun _ _ => True)
      (Program.cutOff (.call late (fun answer => .done (isLate answer))) p) (past,s) := by
  induction p generalizing past s with
  | done value => trivial
  | fail error => trivial
  | call op resume ih =>
    intro now rely _
    obtain ⟨allowed,next⟩ := keeps now rely trivial
    refine ⟨allowed,fun c given => ?_⟩
    intro after more _
    obtain ⟨same,since⟩ := more rfl
    refine ⟨⟨rfl,free _ _⟩,fun d told => ?_⟩
    simp only [Program.bind]
    split
    · trivial
    · refine Keeps.extend steady (List.sublist_append_left _ _) (a.trans _ _ _ since (quiet _ _ _ told)) ?_
      rw [same]
      exact ih _ (next c given)

end Records
end Terms

-- A crew: any number of such workers over one shared state, started at any time,
-- interleaved at their calls and dying at any of them, beside events that none of
-- them causes.
structure Crew (Op : Type) (Answer : Op → Type) (σ χ ε α Request Event : Type) where
  service : Service Op Answer σ χ
  program : Request → Program Op Answer ε α
  happen : σ → Event → σ

namespace Crew
variable {Op : Type} {Answer : Op → Type} {σ χ ε α Request Event : Type}
variable (crew : Crew Op Answer σ χ ε α Request Event)

def exec (w : Pool σ (Program Op Answer ε α)) :
    Move Request χ Event → Except Unit (Pool σ (Program Op Answer ε α))
  | .spawn worker request =>
    match w.workers.get? worker with
    | none => .ok {w with workers := w.workers.upsert worker (crew.program request)}
    | some _ => .error ()
  | .step worker choice =>
    match w.workers.get? worker with
    | some (.call op resume) =>
      let served := crew.service.serve w.shared worker op choice
      .ok ⟨served.1,w.workers.upsert worker (resume served.2)⟩
    | _ => .error ()
  | .crash worker => .ok ⟨crew.service.abandon w.shared worker,w.workers.erase worker⟩
  | .outside event => .ok {w with shared := crew.happen w.shared event}

-- The call that a move serves, with the worker that makes it.
def served (w : Pool σ (Program Op Answer ε α)) : Move Request χ Event → Option (Nat × Op × χ)
  | .step worker choice =>
    match w.workers.get? worker with
    | some (.call op _) => some (worker,op,choice)
    | _ => none
  | _ => none

variable {crew}

theorem exec_served {w : Pool σ (Program Op Answer ε α)} {move : Move Request χ Event} {worker : Nat} {op : Op}
    {choice : χ} (call : served w move = some (worker,op,choice)) :
    ∃ next, crew.exec w move = .ok next ∧ next.shared = (crew.service.serve w.shared worker op choice).1 := by
  cases move with
  | step k c =>
    simp only [served] at call
    split at call
    · rename_i first resume program
      cases call
      simp only [exec,program]
      exact ⟨_,rfl,rfl⟩
    · cases call
  | spawn k request => cases call
  | crash k => cases call
  | outside event => cases call

-- What one worker has made of a run: its calls, up to its death.
def made (crew : Crew Op Answer σ χ ε α Request Event) (worker : Nat) (w : Pool σ (Program Op Answer ε α)) :
    List (Move Request χ Event) → List (Made σ Op χ)
  | [] => []
  | .crash k :: rest => if k = worker then [] else crew.made worker (Runs.settle crew.exec w (.crash k)) rest
  | .step k choice :: rest =>
    match served w (.step k choice : Move Request χ Event) with
    | some (caller,op,c) =>
      if caller = worker then ⟨w.shared,op,c⟩ :: crew.made worker (Runs.settle crew.exec w (.step k choice)) rest
      else crew.made worker (Runs.settle crew.exec w (.step k choice)) rest
    | none => crew.made worker w rest
  | move :: rest => crew.made worker (Runs.settle crew.exec w move) rest

-- It is an execution of the worker's program amid whatever the others do.
theorem made_execution {worker : Nat} {p : Program Op Answer ε α} (moves : List (Move Request χ Event))
    {w : Pool σ (Program Op Answer ε α)} {since : σ} (found : w.workers.get? worker = some p) :
    Execution (fun s op c => crew.service.serve s worker op c) (fun _ _ => True) p since (crew.made worker w moves) := by
  induction moves generalizing w p since with
  | nil => cases p <;> trivial
  | cons move rest ih =>
    cases move with
    | spawn k request =>
      refine ih ?_
      simp only [Runs.settle,exec]
      cases there : w.workers.get? k with
      | some _ => exact found
      | none =>
        have different : worker ≠ k := by
          intro given
          obtain rfl := given
          rw [found] at there
          cases there
        simp only [Store.get?_upsert,different,if_false]
        exact found
    | outside event => exact ih found
    | crash k =>
      simp only [made]
      split
      · cases p <;> trivial
      · rename_i different
        refine ih ?_
        simp only [Runs.settle,exec,Store.get?_erase]
        rw [if_neg (fun same => different same.symm)]
        exact found
    | step k choice =>
      cases there : w.workers.get? k with
      | none =>
        simp only [made,served,there]
        exact ih found
      | some q =>
        cases q with
        | done value =>
          simp only [made,served,there]
          exact ih found
        | fail error =>
          simp only [made,served,there]
          exact ih found
        | call op resume =>
          by_cases same : k = worker
          · subst same
            cases found.symm.trans there
            simp only [made,served,there,if_true]
            refine ⟨rfl,trivial,ih ?_⟩
            simp only [Runs.settle,exec,there,Store.get?_upsert,if_true]
          · simp only [made,served,there,if_neg same]
            refine ih ?_
            simp only [Runs.settle,exec,there,Store.get?_upsert]
            rw [if_neg (fun equal => same equal.symm)]
            exact found

-- A worker that is not there holds nothing, so that a new one can take its name.
structure Contract (crew : Crew Op Answer σ χ ε α Request Event) (t : Terms crew.service) where
  Idle : Nat → σ → Prop
  stays : ∀ j s now, t.Rely j s now → Idle j s → Idle j now
  leaves : ∀ s k, t.Inv s → Idle k (crew.service.abandon s k)
  happens : ∀ s event, t.Inv s → t.Inv (crew.happen s event) ∧ ∀ j, t.Rely j s (crew.happen s event)
  programs : ∀ request s k, t.Inv s → Idle k s → Keeps t k (fun _ _ => True) (crew.program request) s

variable {t : Terms crew.service}

structure Sound (contract : Contract crew t) (w : Pool σ (Program Op Answer ε α)) : Prop where
  inv : t.Inv w.shared
  keeps : ∀ worker p, w.workers.get? worker = some p → Keeps t worker (fun _ _ => True) p w.shared
  idle : ∀ worker, w.workers.get? worker = none → contract.Idle worker w.shared

-- What a move does to the shared state.
inductive Effect (t : Terms crew.service) (w : Pool σ (Program Op Answer ε α)) (next : σ) :
    Move Request χ Event → Prop where
  | served (worker : Nat) (op : Op) (choice : χ) :
      served w (.step worker choice : Move Request χ Event) = some (worker,op,choice) →
      t.Allowed w.shared worker op → next = (crew.service.serve w.shared worker op choice).1 →
      Effect t w next (.step worker choice)
  | abandoned (worker : Nat) : next = crew.service.abandon w.shared worker → Effect t w next (.crash worker)
  | happened (event : Event) : next = crew.happen w.shared event → Effect t w next (.outside event)
  | unmoved (worker : Nat) (request : Request) : next = w.shared → Effect t w next (.spawn worker request)

section Steps
variable {contract : Contract crew t} {w next : Pool σ (Program Op Answer ε α)} {move : Move Request χ Event}

theorem exec_effect (sound : Sound contract w) (ran : crew.exec w move = .ok next) :
    Effect t w next.shared move := by
  cases move with
  | spawn worker request =>
    simp only [exec] at ran
    split at ran
    · cases ran
      exact .unmoved worker request rfl
    · cases ran
  | crash worker =>
    cases ran
    exact .abandoned worker rfl
  | outside event =>
    cases ran
    exact .happened event rfl
  | step worker choice =>
    simp only [exec] at ran
    split at ran
    · rename_i op resume found
      cases ran
      have here := sound.keeps worker _ found w.shared (t.refl _ _) sound.inv
      exact .served worker op choice (by simp [served,found]) here.1 rfl
    · cases ran

-- The rest of the pool after a move of one worker.
theorem sound_after {shared : σ} {worker : Nat} {p : Program Op Answer ε α} (sound : Sound contract w)
    (inv : t.Inv shared) (others : ∀ j, j ≠ worker → t.Rely j w.shared shared)
    (keeps : Keeps t worker (fun _ _ => True) p shared) :
    Sound contract ⟨shared,w.workers.upsert worker p⟩ := by
  refine ⟨inv,?_,?_⟩
  · intro j q found
    rw [Store.get?_upsert] at found
    split at found
    · rename_i same
      cases found
      rw [same]
      exact keeps
    · rename_i different
      exact (sound.keeps j q found).later (others j different)
  · intro j missing
    rw [Store.get?_upsert] at missing
    split at missing
    · cases missing
    · rename_i different
      exact contract.stays j _ _ (others j different) (sound.idle j missing)

theorem exec_sound (sound : Sound contract w) (ran : crew.exec w move = .ok next)
    (given : ∀ worker op choice, served w move = some (worker,op,choice) → t.Given w.shared worker op choice) :
    Sound contract next := by
  cases move with
  | spawn worker request =>
    simp only [exec] at ran
    split at ran
    · rename_i missing
      cases ran
      exact sound_after sound sound.inv (fun j _ => t.refl j _)
        (contract.programs request _ worker sound.inv (sound.idle worker missing))
    · cases ran
  | step worker choice =>
    simp only [exec] at ran
    split at ran
    · rename_i op resume found
      cases ran
      have assumed := given worker op choice (by simp [served,found])
      obtain ⟨allowed,rest⟩ := sound.keeps worker _ found w.shared (t.refl _ _) sound.inv
      obtain ⟨inv,others⟩ := t.serves w.shared worker op choice sound.inv allowed assumed
      exact sound_after sound inv others (rest choice assumed)
    · cases ran
  | crash worker =>
    cases ran
    obtain ⟨inv,others⟩ := t.abandons w.shared worker sound.inv
    refine ⟨inv,?_,?_⟩
    · intro j p found
      rw [Store.get?_erase] at found
      split at found
      · cases found
      · rename_i different
        exact (sound.keeps j p found).later (others j different)
    · intro j missing
      by_cases same : j = worker
      · rw [same]
        exact contract.leaves _ _ sound.inv
      · rw [Store.get?_erase,if_neg same] at missing
        exact contract.stays j _ _ (others j same) (sound.idle j missing)
  | outside event =>
    cases ran
    obtain ⟨inv,others⟩ := contract.happens w.shared event sound.inv
    refine ⟨inv,?_,?_⟩
    · intro j p found
      exact (sound.keeps j p found).later (others j)
    · intro j missing
      exact contract.stays j _ _ (others j) (sound.idle j missing)

end Steps

-- Runs of a crew whose terms assume nothing. What is assumed about the calls of
-- one run is `K`.
section Runs
variable {contract : Contract crew t} {w : Pool σ (Program Op Answer ε α)} {moves : List (Move Request χ Event)}

def Assumed (crew : Crew Op Answer σ χ ε α Request Event) (K : σ → Nat → Op → χ → Prop)
    (w : Pool σ (Program Op Answer ε α)) (moves : List (Move Request χ Event)) : Prop :=
  ∀ i move worker op choice, moves[i]? = some move →
    served (Runs.before crew.exec w moves i) move = some (worker,op,choice) →
    K (Runs.before crew.exec w moves i).shared worker op choice

theorem sound_before (free : ∀ s k op c, t.Given s k op c) (sound : Sound contract w) (i : Nat) :
    Sound contract (Runs.before crew.exec w moves i) :=
  Runs.invariant_before sound (fun _ _ _ held ran => exec_sound held ran (fun _ _ _ _ => free _ _ _ _)) moves i

theorem effect_at (free : ∀ s k op c, t.Given s k op c) (sound : Sound contract w) {i : Nat}
    {move : Move Request χ Event} (found : moves[i]? = some move) :
    Effect t (Runs.before crew.exec w moves i) (Runs.before crew.exec w moves (i+1)).shared move ∨
      Runs.before crew.exec w moves (i+1) = Runs.before crew.exec w moves i := by
  rw [Runs.before_succ found]
  rcases Runs.settle_cases crew.exec (Runs.before crew.exec w moves i) move with ⟨next,ran,equal⟩ | equal
  · rw [equal]
    exact .inl (exec_effect (sound_before free sound i) ran)
  · exact .inr equal

-- A relation between the shared state at one position of a run and at the next.
theorem step_relation {K : σ → Nat → Op → χ → Prop} {R : σ → σ → Prop} (free : ∀ s k op c, t.Given s k op c)
    (sound : Sound contract w) (assumed : Assumed crew K w moves) (refl : ∀ s, R s s)
    (serves : ∀ s k op c, t.Inv s → t.Allowed s k op → K s k op c → R s (crew.service.serve s k op c).1)
    (abandons : ∀ s k, t.Inv s → R s (crew.service.abandon s k))
    (happens : ∀ s event, t.Inv s → R s (crew.happen s event)) (i : Nat) :
    R (Runs.before crew.exec w moves i).shared (Runs.before crew.exec w moves (i+1)).shared := by
  have inv : t.Inv (Runs.before crew.exec w moves i).shared := (sound_before free sound i).inv
  cases found : moves[i]? with
  | none =>
    rw [Runs.before_past found]
    exact refl _
  | some move =>
    rcases effect_at free sound found with effect | equal
    · cases effect with
      | served worker op choice call allowed equal =>
        rw [equal]
        exact serves _ _ _ _ inv allowed (assumed i _ _ _ _ found call)
      | abandoned worker equal =>
        rw [equal]
        exact abandons _ _ inv
      | happened event equal =>
        rw [equal]
        exact happens _ _ inv
      | unmoved worker request equal =>
        rw [equal]
        exact refl _
    · rw [equal]
      exact refl _

theorem invariant {K : σ → Nat → Op → χ → Prop} {J : σ → Prop} (free : ∀ s k op c, t.Given s k op c)
    (sound : Sound contract w) (assumed : Assumed crew K w moves) (start : J w.shared)
    (serves : ∀ s k op c, t.Inv s → t.Allowed s k op → K s k op c → J s → J (crew.service.serve s k op c).1)
    (abandons : ∀ s k, t.Inv s → J s → J (crew.service.abandon s k))
    (happens : ∀ s event, t.Inv s → J s → J (crew.happen s event)) (i : Nat) :
    J (Runs.before crew.exec w moves i).shared := by
  induction i with
  | zero => exact start
  | succ i ih =>
    exact step_relation (R := fun s next => J s → J next) free sound assumed (fun _ held => held)
      serves abandons happens i ih

theorem allowed_at (free : ∀ s k op c, t.Given s k op c) (sound : Sound contract w) {i : Nat}
    {move : Move Request χ Event} {worker : Nat} {op : Op} {choice : χ}
    (call : served (Runs.before crew.exec w moves i) move = some (worker,op,choice)) :
    t.Allowed (Runs.before crew.exec w moves i).shared worker op := by
  have here : Sound contract (Runs.before crew.exec w moves i) := sound_before free sound i
  cases move with
  | step j c =>
    simp only [served] at call
    split at call
    · rename_i first resume found
      cases call
      exact (here.keeps _ _ found _ (t.refl _ _) here.inv).1
    · cases call
  | spawn j request => cases call
  | crash j => cases call
  | outside event => cases call

end Runs
end Crew
end MemWal.Library
