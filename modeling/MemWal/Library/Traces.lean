import MemWal.Library.Crews

namespace MemWal.Library
variable {Op : Type} {Answer : Op → Type} {σ χ ε δ α β γ : Type}
variable (serve : σ → (op : Op) → χ → σ × Answer op)

-- The calls of a program from its start to its end, each with the state it
-- meets, whatever happens to the state between them.
def Completes : Program Op Answer ε α → List (Made σ Op χ) → Except ε α → Prop
  | .done value,[],result => result = .ok value
  | .fail error,[],result => result = .error error
  | .call op resume,made :: rest,result => made.op = op ∧ Completes (resume (serve made.state op made.choice).2) rest result
  | _,_,_ => False

instance Completes.instDecidable [DecidableEq Op] [DecidableEq ε] [DecidableEq α] :
    (p : Program Op Answer ε α) → (calls : List (Made σ Op χ)) → (result : Except ε α) →
      Decidable (Completes serve p calls result)
  | .done value,[],result => inferInstanceAs (Decidable (result = .ok value))
  | .fail error,[],result => inferInstanceAs (Decidable (result = .error error))
  | .call op resume,made :: rest,result =>
    have := Completes.instDecidable (resume (serve made.state op made.choice).2) rest result
    inferInstanceAs (Decidable (made.op = op ∧ Completes serve (resume (serve made.state op made.choice).2) rest result))
  | .done _,_ :: _,_ => .isFalse id
  | .fail _,_ :: _,_ => .isFalse id
  | .call _ _,[],_ => .isFalse id

variable {serve}
namespace Completes
variable {p : Program Op Answer ε α} {calls : List (Made σ Op χ)} {result : Except ε α}

theorem only {kind : Op → Prop} (completes : Completes serve p calls result) (only : p.Only kind) :
    ∀ made ∈ calls, kind made.op := by
  induction calls generalizing p with
  | nil => exact fun _ member => nomatch member
  | cons first rest ih =>
    cases p with
    | done value => cases completes
    | fail error => cases completes
    | call op resume =>
      obtain ⟨rfl,tail⟩ := completes
      intro made member
      rcases List.mem_cons.mp member with rfl | later
      · exact only.1
      · exact ih tail (only.2 _) made later

theorem bind {next : α → Program Op Answer ε β} {result : Except ε β} (completes : Completes serve (p >>= next) calls result) :
    (∃ error, result = .error error ∧ Completes serve p calls (.error error)) ∨
    ∃ first rest value, calls = first ++ rest ∧ Completes serve p first (.ok value) ∧
      Completes serve (next value) rest result := by
  induction p generalizing calls with
  | done value => exact .inr ⟨[],calls,value,rfl,rfl,completes⟩
  | fail error =>
    cases calls with
    | nil => exact .inl ⟨error,completes,rfl⟩
    | cons made rest => cases completes
  | call op resume ih =>
    cases calls with
    | nil => cases completes
    | cons made rest =>
      obtain ⟨same,tail⟩ := completes
      rcases ih _ tail with ⟨error,equal,failed⟩ | ⟨first,later,value,rfl,head,others⟩
      · exact .inl ⟨error,equal,same,failed⟩
      · exact .inr ⟨made :: first,later,value,rfl,⟨same,head⟩,others⟩

theorem bind_ok {next : α → Program Op Answer ε β} {value : β} (completes : Completes serve (p >>= next) calls (.ok value)) :
    ∃ first rest between, calls = first ++ rest ∧ Completes serve p first (.ok between) ∧
      Completes serve (next between) rest (.ok value) := by
  rcases bind completes with ⟨error,equal,_⟩ | split
  · cases equal
  · exact split

theorem pure_ok {value result : α} (completes : Completes serve (pure value : Program Op Answer ε α) calls (.ok result)) :
    calls = [] ∧ result = value := by
  cases calls with
  | nil =>
    cases completes
    exact ⟨rfl,rfl⟩
  | cons made rest => cases completes

theorem attempt {result : Except δ (Except ε α)} (completes : Completes serve (p.attempt : Program Op Answer δ _) calls result) :
    ∃ inner, result = .ok inner ∧ Completes serve p calls inner := by
  induction p generalizing calls with
  | done value =>
    cases calls with
    | nil => exact ⟨.ok value,completes,rfl⟩
    | cons made rest => cases completes
  | fail error =>
    cases calls with
    | nil => exact ⟨.error error,completes,rfl⟩
    | cons made rest => cases completes
  | call op resume ih =>
    cases calls with
    | nil => cases completes
    | cons made rest =>
      obtain ⟨same,tail⟩ := completes
      obtain ⟨inner,equal,done⟩ := ih _ tail
      exact ⟨inner,equal,same,done⟩

theorem orFail {convert : δ → ε} {given : Except δ α} (completes : Completes serve (.orFail convert given) calls result) :
    calls = [] ∧ result = given.mapError convert := by
  cases given with
  | ok value =>
    cases calls with
    | nil => exact ⟨rfl,completes⟩
    | cons made rest => cases completes
  | error error =>
    cases calls with
    | nil => exact ⟨rfl,completes⟩
    | cons made rest => cases completes

theorem orFail_ok {convert : δ → ε} {given : Except δ α} {value : α}
    (completes : Completes serve (.orFail convert given) calls (.ok value)) : calls = [] ∧ given = .ok value := by
  obtain ⟨none_,equal⟩ := orFail completes
  cases given with
  | ok other =>
    cases equal
    exact ⟨none_,rfl⟩
  | error error => cases equal

theorem perform {op : Op} {result : Except ε (Answer op)} (completes : Completes serve (.perform op) calls result) :
    ∃ state choice, calls = [⟨state,op,choice⟩] ∧ result = .ok (serve state op choice).2 := by
  cases calls with
  | nil => cases completes
  | cons made rest =>
    obtain ⟨state,op',choice⟩ := made
    obtain ⟨rfl,tail⟩ := completes
    cases rest with
    | nil => exact ⟨state,choice,rfl,tail⟩
    | cons next more => cases tail

-- A loop over a list, for what holds of its result: the invariant speaks of the
-- part already gone through.
theorem foldlM {I : List β → γ → Prop} {f : γ → β → Program Op Answer ε γ} {items : List β}
    (body : ∀ seen item acc calls out, I seen acc → Completes serve (f acc item) calls (.ok out) → I (seen ++ [item]) out)
    {acc out : γ} {calls : List (Made σ Op χ)} (start : I [] acc)
    (completes : Completes serve (items.foldlM f acc) calls (.ok out)) : I items out := by
  suffices from_ : ∀ seen rest acc calls, items = seen ++ rest → I seen acc →
      Completes serve (rest.foldlM f acc) calls (.ok out) → I items out from from_ [] items acc calls rfl start completes
  intro seen rest
  induction rest generalizing seen with
  | nil =>
    intro acc calls split held completes
    obtain ⟨_,rfl⟩ := pure_ok completes
    rw [split,List.append_nil]
    exact held
  | cons item rest ih =>
    intro acc calls split held completes
    rw [List.foldlM_cons] at completes
    obtain ⟨first,later,between,_,head,tail⟩ := bind_ok completes
    exact ih (seen ++ [item]) between later (by rw [split]; simp) (body seen item acc first between held head) tail

-- What every round of a loop calls.
theorem foldlM_each {P : β → Made σ Op χ → Prop} {f : γ → β → Program Op Answer ε γ} {items : List β}
    (body : ∀ acc item calls out, Completes serve (f acc item) calls (.ok out) → ∃ made ∈ calls, P item made)
    {acc out : γ} {calls : List (Made σ Op χ)} (completes : Completes serve (items.foldlM f acc) calls (.ok out)) :
    ∀ item ∈ items, ∃ made ∈ calls, P item made := by
  induction items generalizing acc calls with
  | nil => exact fun _ member => nomatch member
  | cons first rest ih =>
    rw [List.foldlM_cons] at completes
    obtain ⟨front,later,between,rfl,head,tail⟩ := bind_ok completes
    intro item member
    rcases List.mem_cons.mp member with rfl | there
    · obtain ⟨made,inside,holds⟩ := body acc item front between head
      exact ⟨made,List.mem_append_left _ inside,holds⟩
    · obtain ⟨made,inside,holds⟩ := ih tail item there
      exact ⟨made,List.mem_append_right _ inside,holds⟩

theorem ite {condition : Prop} [Decidable condition] {q : Program Op Answer ε α}
    (completes : Completes serve (if condition then p else q) calls result) :
    condition ∧ Completes serve p calls result ∨ ¬ condition ∧ Completes serve q calls result := by
  by_cases holds : condition
  · exact .inl ⟨holds,by rwa [if_pos holds] at completes⟩
  · exact .inr ⟨holds,by rwa [if_neg holds] at completes⟩

end Completes

-- The calls of a program that may not have come to its end.
namespace Execution
variable {Others : σ → σ → Prop} {p : Program Op Answer ε α} {s : σ} {calls : List (Made σ Op χ)}

theorem only {kind : Op → Prop} (ran : Execution serve Others p s calls) (only : p.Only kind) :
    ∀ made ∈ calls, kind made.op := by
  induction calls generalizing p s with
  | nil => exact fun _ member => nomatch member
  | cons first rest ih =>
    cases p with
    | done value => cases ran
    | fail error => cases ran
    | call op resume =>
      obtain ⟨rfl,_,tail⟩ := ran
      intro made member
      rcases List.mem_cons.mp member with rfl | later
      · exact only.1
      · exact ih tail (only.2 _) made later

theorem bind {next : α → Program Op Answer ε β} (ran : Execution serve Others (p >>= next) s calls) :
    Execution serve Others p s calls ∨ ∃ first rest value since, calls = first ++ rest ∧
      Completes serve p first (.ok value) ∧ Execution serve Others (next value) since rest := by
  induction p generalizing s calls with
  | done value => exact .inr ⟨[],calls,value,s,rfl,rfl,ran⟩
  | fail error =>
    cases calls with
    | nil => exact .inl trivial
    | cons made rest => cases ran
  | call op resume ih =>
    cases calls with
    | nil => exact .inl trivial
    | cons made rest =>
      obtain ⟨same,moved,tail⟩ := ran
      rcases ih _ tail with early | ⟨first,later,value,since,rfl,head,others⟩
      · exact .inl ⟨same,moved,early⟩
      · exact .inr ⟨made :: first,later,value,since,rfl,⟨same,head⟩,others⟩

-- A call of a kind that the first part never makes comes after its end.
theorem beyond {next : α → Program Op Answer ε β} {kind : Op → Prop} (ran : Execution serve Others (p >>= next) s calls)
    (only_ : p.Only kind) {made : Made σ Op χ} (member : made ∈ calls) (other : ¬ kind made.op) :
    ∃ first rest value since, calls = first ++ rest ∧ made ∈ rest ∧ Completes serve p first (.ok value) ∧
      Execution serve Others (next value) since rest := by
  rcases bind ran with early | ⟨first,rest,value,since,rfl,head,tail⟩
  · exact absurd (only early only_ made member) other
  · rcases List.mem_append.mp member with before | after
    · exact absurd (head.only only_ made before) other
    · exact ⟨first,rest,value,since,rfl,after,head,tail⟩

theorem ite {condition : Prop} [Decidable condition] {q : Program Op Answer ε α}
    (ran : Execution serve Others (if condition then p else q) s calls) :
    condition ∧ Execution serve Others p s calls ∨ ¬ condition ∧ Execution serve Others q s calls := by
  by_cases holds : condition
  · exact .inl ⟨holds,by rwa [if_pos holds] at ran⟩
  · exact .inr ⟨holds,by rwa [if_neg holds] at ran⟩

end Execution

namespace Crew
variable {Op : Type} {Answer : Op → Type} {σ χ ε α Request Event : Type} {crew : Crew Op Answer σ χ ε α Request Event}

theorem settle_idle {w : Pool σ (Program Op Answer ε α)} {k : Nat} {choice : χ}
    (idle : served w (.step k choice : Move Request χ Event) = none) : Runs.settle crew.exec w (.step k choice) = w := by
  cases found : w.workers.get? k with
  | none => simp only [Runs.settle,exec,found]
  | some program =>
    cases program with
    | done value => simp only [Runs.settle,exec,found]
    | fail error => simp only [Runs.settle,exec,found]
    | call op resume => simp [served,found] at idle

-- Each call of a worker is served at a position of the run.
theorem made_position {worker : Nat} {moves : List (Move Request χ Event)} {w : Pool σ (Program Op Answer ε α)}
    {call : Made σ Op χ} (member : call ∈ crew.made worker w moves) :
    ∃ j move, moves[j]? = some move ∧
      served (Runs.before crew.exec w moves j) move = some (worker,call.op,call.choice) ∧
      call.state = (Runs.before crew.exec w moves j).shared := by
  induction moves generalizing w with
  | nil => cases member
  | cons move rest ih =>
    have later : call ∈ crew.made worker (Runs.settle crew.exec w move) rest → ∃ j next, (move :: rest)[j]? = some next ∧
        served (Runs.before crew.exec w (move :: rest) j) next = some (worker,call.op,call.choice) ∧
        call.state = (Runs.before crew.exec w (move :: rest) j).shared := by
      intro there
      obtain ⟨j,next,found,call,state⟩ := ih there
      exact ⟨j+1,next,found,call,state⟩
    cases move with
    | spawn k request => exact later member
    | outside event => exact later member
    | crash k =>
      simp only [made] at member
      split at member
      · cases member
      · exact later member
    | step k choice =>
      simp only [made] at member
      split at member
      · rename_i caller op c call
        split at member
        · rename_i same
          rcases List.mem_cons.mp member with rfl | there
          · exact ⟨0,_,rfl,same ▸ call,rfl⟩
          · exact later there
        · exact later member
      · rename_i idle
        rw [settle_idle idle] at later
        exact later member

-- The calls of a worker stand in the order of the run.
theorem made_split {worker : Nat} {moves : List (Move Request χ Event)} {w : Pool σ (Program Op Answer ε α)}
    {before after : List (Made σ Op χ)} {call : Made σ Op χ} (split : crew.made worker w moves = before ++ call :: after) :
    ∃ j, call.state = (Runs.before crew.exec w moves j).shared ∧
      ∀ later ∈ after, ∃ m, j ≤ m ∧ later.state = (Runs.before crew.exec w moves m).shared := by
  induction moves generalizing w before with
  | nil => cases before <;> cases split
  | cons move rest ih =>
    have later : ∀ {before}, crew.made worker (Runs.settle crew.exec w move) rest = before ++ call :: after →
        ∃ j, call.state = (Runs.before crew.exec w (move :: rest) j).shared ∧
          ∀ later ∈ after, ∃ m, j ≤ m ∧ later.state = (Runs.before crew.exec w (move :: rest) m).shared := by
      intro before split
      obtain ⟨j,state,order⟩ := ih split
      refine ⟨j+1,state,?_⟩
      intro later member
      obtain ⟨m,le,state⟩ := order later member
      exact ⟨m+1,Nat.succ_le_succ le,state⟩
    cases move with
    | spawn k request => exact later split
    | outside event => exact later split
    | crash k =>
      simp only [made] at split
      split at split
      · cases before <;> cases split
      · exact later split
    | step k choice =>
      simp only [made] at split
      split at split
      · split at split
        · cases before with
          | nil =>
            cases split
            refine ⟨0,rfl,?_⟩
            intro later member
            obtain ⟨m,_,_,_,state⟩ := made_position member
            exact ⟨m+1,Nat.zero_le _,state⟩
          | cons first before => exact later (List.cons.inj split).2
        · exact later split
      · rename_i idle
        rw [settle_idle idle] at later
        exact later split

-- A call served before its worker dies is one of those it makes.
theorem mem_made {worker : Nat} {moves : List (Move Request χ Event)} {w : Pool σ (Program Op Answer ε α)} {j : Nat}
    {move : Move Request χ Event} {op : Op} {c : χ} (found : moves[j]? = some move)
    (call : served (Runs.before crew.exec w moves j) move = some (worker,op,c))
    (alive : ∀ q, q < j → moves[q]? ≠ some (.crash worker)) :
    ⟨(Runs.before crew.exec w moves j).shared,op,c⟩ ∈ crew.made worker w moves := by
  induction moves generalizing w j with
  | nil => cases found
  | cons first rest ih =>
    cases j with
    | zero =>
      cases found
      cases move with
      | spawn k request => cases call
      | outside event => cases call
      | crash k => cases call
      | step k choice =>
        simp only [made]
        rw [show served w (.step k choice : Move Request χ Event) = some (worker,op,c) from call]
        simp [Runs.before,Runs.after]
    | succ j =>
      have later : ⟨(Runs.before crew.exec w (first :: rest) (j+1)).shared,op,c⟩ ∈
          crew.made worker (Runs.settle crew.exec w first) rest :=
        ih (w:=Runs.settle crew.exec w first) (j:=j) found call (fun q small => alive (q+1) (by omega))
      cases first with
      | spawn k request => exact later
      | outside event => exact later
      | crash k =>
        simp only [made]
        rw [if_neg (fun same => alive 0 (Nat.succ_pos j) (by rw [same]; rfl))]
        exact later
      | step k choice =>
        simp only [made]
        split
        · split
          · exact List.mem_cons_of_mem _ later
          · exact later
        · rename_i idle
          rw [settle_idle idle] at later
          exact later

-- Every worker was started, and has not died since.
theorem started {moves : List (Move Request χ Event)} {w : Pool σ (Program Op Answer ε α)} {worker p : Nat}
    {program : Program Op Answer ε α} (idle : w.workers.get? worker = none)
    (found : (Runs.before crew.exec w moves p).workers.get? worker = some program) :
    ∃ i request, i < p ∧ moves[i]? = some (.spawn worker request) ∧
      (Runs.before crew.exec w moves i).workers.get? worker = none ∧
      ∀ q, i < q → q < p → moves[q]? ≠ some (.crash worker) := by
  induction p generalizing program with
  | zero =>
    rw [show Runs.before crew.exec w moves 0 = w from rfl,idle] at found
    cases found
  | succ p ih =>
    -- what was there before the last move
    have earlier : ∀ {old}, (Runs.before crew.exec w moves p).workers.get? worker = some old →
        moves[p]? ≠ some (.crash worker) → ∃ i request, i < p + 1 ∧ moves[i]? = some (.spawn worker request) ∧
          (Runs.before crew.exec w moves i).workers.get? worker = none ∧
          ∀ q, i < q → q < p + 1 → moves[q]? ≠ some (.crash worker) := by
      intro old there survives
      obtain ⟨i,request,small,spawned,free,alive⟩ := ih there
      refine ⟨i,request,by omega,spawned,free,?_⟩
      intro q after before
      rcases Nat.lt_or_eq_of_le (Nat.le_of_lt_succ before) with less | rfl
      · exact alive q after less
      · exact survives
    cases move : moves[p]? with
    | none =>
      rw [Runs.before_past move] at found
      exact earlier found (by simp [move])
    | some move_ =>
      rw [Runs.before_succ move] at found
      cases move_ with
      | outside event => exact earlier found (by simp [move])
      | crash k =>
        simp only [Runs.settle,exec,Store.get?_erase] at found
        split at found
        · cases found
        · rename_i different
          refine earlier found ?_
          rw [move]
          intro equal
          cases equal
          exact different rfl
      | step k choice =>
        simp only [Runs.settle,exec] at found
        split at found
        · rename_i next ran
          split at ran
          · rename_i op resume there
            cases ran
            simp only [Store.get?_upsert] at found
            split at found
            · rename_i same
              exact earlier (same ▸ there) (by simp [move])
            · exact earlier found (by simp [move])
          · cases ran
        · exact earlier found (by simp [move])
      | spawn k request =>
        simp only [Runs.settle,exec] at found
        cases there : (Runs.before crew.exec w moves p).workers.get? k with
        | some old =>
          rw [there] at found
          exact earlier found (by simp [move])
        | none =>
          rw [there] at found
          simp only [Store.get?_upsert] at found
          split at found
          · rename_i same
            subst same
            exact ⟨p,request,Nat.lt_succ_self p,move,there,fun q after before => absurd before (by omega)⟩
          · exact earlier found (by simp [move])

-- So that every call of a run is made for a request that was started before it.
theorem requested {moves : List (Move Request χ Event)} {w : Pool σ (Program Op Answer ε α)} {worker p : Nat}
    {move : Move Request χ Event} {op : Op} {c : χ} (idle : w.workers.get? worker = none) (found : moves[p]? = some move)
    (call : served (Runs.before crew.exec w moves p) move = some (worker,op,c)) :
    ∃ i request, i < p ∧ moves[i]? = some (.spawn worker request) ∧
      (Runs.before crew.exec w moves i).workers.get? worker = none ∧
      ⟨(Runs.before crew.exec w moves p).shared,op,c⟩ ∈
        crew.made worker (Runs.before crew.exec w moves (i+1)) (moves.drop (i+1)) := by
  have there : ∃ program, (Runs.before crew.exec w moves p).workers.get? worker = some program := by
    cases move with
    | step k choice =>
      simp only [served] at call
      split at call
      · rename_i first resume program
        cases call
        exact ⟨_,program⟩
      · cases call
    | spawn k request => cases call
    | crash k => cases call
    | outside event => cases call
  obtain ⟨program,holds⟩ := there
  obtain ⟨i,request,small,spawned,free,alive⟩ := started idle holds
  obtain ⟨d,rfl⟩ : ∃ d, p = i + 1 + d := ⟨p - (i+1),by omega⟩
  refine ⟨i,request,small,spawned,free,?_⟩
  have there : (moves.drop (i+1))[d]? = some move := by
    rw [List.getElem?_drop]
    exact found
  have called : served (Runs.before crew.exec (Runs.before crew.exec w moves (i+1)) (moves.drop (i+1)) d) move =
      some (worker,op,c) := by
    rw [Runs.before_drop]
    exact call
  have here := mem_made there called (by
    intro q less
    rw [List.getElem?_drop]
    exact alive _ (by omega) (by omega))
  rw [Runs.before_drop] at here
  exact here

end Crew
end MemWal.Library
