import MemWal.Library.Traces
import MemWal.Remember.Ciphertexts

namespace MemWal.Remember
open Library Library.Crew

variable {config : Config} {s next : System} {k : Nat} {op : Op} {c : Choice} {job : JobId} {ε δ α β γ : Type}

-- The token that the row accepts.
def Current (s : System) (job : JobId) (token : Token) : Prop :=
  ∃ row, s.rows.get? job = some row ∧ row.prepareClaimToken = some token

-- A statement takes effect on a row.
abbrev Lands (s : System) (job : JobId) (statement : Statement) (c : Choice) : Prop :=
  c.fault ≠ .before ∧ (s.rows.get? job).any (fun row => statement.applies s.clock row) = true

abbrev Call : Type := Made System Op Choice

def AsksSidecar : Op → Prop
  | .post _ | .setMetadataBatch _ _ | .sealEncrypt _ => True
  | _ => False

-- A call that neither asks the sidecar for anything nor changes a row.
def Still (config : Config) (worker : Nat) (call : Call) : Prop :=
  ¬ AsksSidecar call.op ∧
    (serve config call.state worker call.op call.choice).1.rows = call.state.rows

-- The delivery is of an upload that was prepared under the token.
def Carries (config : Config) (worker : Nat) (calls : List Call) (job : JobId) (token : Token) : Prop :=
  ∃ first rest task attempt walletIndex preparation owner ns, calls = first :: rest ∧ first.op = .fetch task attempt ∧
    (serve config first.state worker (.fetch task attempt) first.choice).2 =
      some ⟨walletIndex,.uploadAndTransfer preparation owner ns job (some token)⟩

-- The call that takes the upload lock.
def Takes (config : Config) (worker : Nat) (job : JobId) (call : Call) : Prop :=
  call.op = .tryAcquire job ∧ (serve config call.state worker (.tryAcquire job) call.choice).2 = .ok true

-- The call that consumes the claim.
def Consumes (job : JobId) (token : Token) (call : Call) : Prop :=
  call.op = .update [job] (.consumePreparationClaim token) ∧
    Lands call.state job (.consumePreparationClaim token) call.choice

-- The delivery holds the upload lock while the row does not accept its token. What
-- it consumed before is its own: the upload clears the token of the row it records.
def HoldsStale (config : Config) (worker : Nat) (calls : List Call) (job : JobId) (token : Token) : Prop :=
  ∃ before call after, calls = before ++ call :: after ∧ (∃ taken ∈ before ++ [call], Takes config worker job taken) ∧
    ¬ Current call.state job token ∧ ∀ earlier ∈ before, ¬ Consumes job token earlier

-- The fence

-- Calls that neither ask the sidecar for anything nor write a row, the one that
-- takes the lock apart.
inductive Quiet : Op → Prop where
  | fetch (task attempt : Nat) : Quiet (.fetch task attempt)
  | select (job : JobId) : Quiet (.select job)
  | release (job : JobId) : Quiet (.release job)
  | acknowledge (task : Nat) (result : Disposition) : Quiet (.acknowledge task result)

def NoTake (op : Op) : Prop := ∀ job, op ≠ .tryAcquire job

theorem Quiet.noTake (quiet : Quiet op) : NoTake op := by
  cases quiet <;> exact nofun

-- Under the lock the claim is consumed first. When it was not, only quiet calls follow.
inductive Locked (job : JobId) (token : Token) : Program Op Op.Answer ε α → Prop where
  | consume {resume : Except Unit Nat → Program Op Op.Answer ε α} : (resume (.ok 0)).Only Quiet →
      (resume (.error ())).Only Quiet → Locked job token (.call (.update [job] (.consumePreparationClaim token)) resume)

-- Before the lock is taken only quiet calls are made. It is asked for once.
inductive Guarded (job : JobId) (token : Token) : Program Op Op.Answer ε α → Prop where
  | quiet {op : Op} {resume : op.Answer → Program Op Op.Answer ε α} : Quiet op → (∀ answer, Guarded job token (resume answer)) →
      Guarded job token (.call op resume)
  | take {resume : Except Unit Bool → Program Op Op.Answer ε α} : Locked job token (resume (.ok true)) →
      (∀ answer, answer ≠ .ok true → (resume answer).Only NoTake) → Guarded job token (.call (.tryAcquire job) resume)
  | calm {p : Program Op Op.Answer ε α} : p.Only Quiet → Guarded job token p

section Programs
variable {token : Token} {p : Program Op Op.Answer ε α} {next : α → Program Op Op.Answer ε β}

theorem Locked.bind (locked : Locked job token p) (rest : ∀ value, (next value).Only Quiet) :
    Locked job token (p >>= next) := by
  cases locked with
  | consume refused failed => exact .consume (.bind refused rest) (.bind failed rest)

theorem Locked.attempt (locked : Locked job token p) :
    Locked job token (p.attempt : Program Op Op.Answer δ (Except ε α)) := by
  cases locked with
  | consume refused failed => exact .consume refused.attempt failed.attempt

theorem Guarded.bind (guarded : Guarded job token p) (rest : ∀ value, (next value).Only Quiet) :
    Guarded job token (p >>= next) := by
  induction guarded with
  | quiet still _ ih => exact .quiet still ih
  | take locked refused =>
    refine .take (locked.bind rest) ?_
    intro answer other
    exact .bind (refused answer other) (fun value => (rest value).mono (fun _ => Quiet.noTake))
  | calm only => exact .calm (.bind only rest)

theorem Guarded.attempt (guarded : Guarded job token p) :
    Guarded job token (p.attempt : Program Op Op.Answer δ (Except ε α)) := by
  induction guarded with
  | quiet still _ ih => exact .quiet still ih
  | take locked refused => exact .take locked.attempt (fun answer other => (refused answer other).attempt)
  | calm only => exact .calm only.attempt

end Programs

theorem executeUpload_guarded (walletIndex : Nat) (job : JobId) (owner ns : String) (token : Token)
    (preparation : Preparation) :
    Guarded job token (executeUploadAndTransfer walletIndex job owner ns (some token) preparation) := by
  refine .take (.consume ⟨.release job,fun _ => trivial⟩ ⟨.release job,fun _ => trivial⟩) ?_
  intro answer other
  cases answer with
  | error _ => exact ⟨nofun,fun _ => trivial⟩
  | ok acquired =>
    cases acquired with
    | false => exact ⟨nofun,fun _ => trivial⟩
    | true => exact absurd rfl other

theorem executeWalletJob_guarded (config : Config) (walletIndex attempt : Nat) (preparation : Preparation)
    (owner ns : String) (job : JobId) (token : Token) :
    Guarded job token (executeWalletJob config ⟨walletIndex,.uploadAndTransfer preparation owner ns job (some token)⟩ attempt) := by
  unfold executeWalletJob
  dsimp only
  cases walletIndexForUploadAttempt walletIndex attempt config.poolSize with
  | none => exact .calm trivial
  | some walletIndex =>
    refine .quiet (.select job) ?_
    intro read
    cases read with
    | error _ => exact .calm trivial
    | ok row =>
      change Guarded job token (if row.any (fun row => row.prepareClaimToken = some token) then _ else _)
      split
      · exact executeUpload_guarded walletIndex job owner ns token preparation
      · exact .calm trivial

theorem delivery_guarded (config : Config) (walletIndex attempt task : Nat) (preparation : Preparation)
    (owner ns : String) (job : JobId) (token : Token) :
    Guarded job token (do
      let result ← Program.attempt
        (executeWalletJob config ⟨walletIndex,.uploadAndTransfer preparation owner ns job (some token)⟩ attempt)
      .perform (Op.acknowledge task (intoApalis result)) : Program Op Op.Answer Unit Unit) := by
  apply (executeWalletJob_guarded config walletIndex attempt preparation owner ns job token).attempt.bind
  intro result
  exact ⟨.acknowledge task (intoApalis result),fun _ => trivial⟩

abbrev Delivers (config : Config) (worker : Nat) (p : Program Op Op.Answer ε α) (s : System) (calls : List Call) :
    Prop :=
  Execution (fun s op c => serve config s worker op c) (fun _ _ => True) p s calls

section Executions
variable {worker : Nat} {token : Token} {p : Program Op Op.Answer ε α} {calls before after : List Call} {call : Call}

theorem Quiet.still (quiet : Quiet call.op) : Still config worker call := by
  obtain ⟨s,op,c⟩ := call
  refine ⟨?_,?_⟩
  · cases quiet <;> exact id
  · change (serve config s worker op c).1.rows = s.rows
    apply served_rows_same
    all_goals
      intros
      cases quiet
      all_goals nofun

theorem tryAcquire_still {s : System} {c : Choice} : Still config worker ⟨s,.tryAcquire job,c⟩ := by
  refine ⟨id,?_⟩
  simp only [serve]
  split
  · split <;> rfl
  · rfl

-- A statement that does not land changes nothing.
theorem unconsumed {c : Choice} (missed : ¬ Lands s job (.consumePreparationClaim token) c) :
    (serve config s worker (.update [job] (.consumePreparationClaim token)) c).1.rows = s.rows ∧
      ((serve config s worker (.update [job] (.consumePreparationClaim token)) c).2 = .ok 0 ∨
        (serve config s worker (.update [job] (.consumePreparationClaim token)) c).2 = .error ()) := by
  by_cases early : c.fault = .before
  · simp only [serve,System.note,early]
    exact ⟨rfl,.inr rfl⟩
  have none_ : s.affected [job] (.consumePreparationClaim token) = 0 := by
    by_contra some_
    obtain ⟨row,found,applies⟩ := affected_one some_
    exact missed ⟨early,by rw [found]; exact applies⟩
  have unmoved : (s.execute [job] (.consumePreparationClaim token)).rows = s.rows := by
    rw [System.execute,Store.update_unmatched none_]
  simp only [serve,System.note]
  cases fault : c.fault with
  | none => exact ⟨unmoved,.inl (congrArg Except.ok none_)⟩
  | before => exact absurd fault early
  | after => exact ⟨unmoved,.inr rfl⟩

theorem quiet_execution (only : p.Only Quiet) (ran : Delivers config worker p s calls) (member : call ∈ calls) :
    Still config worker call := Quiet.still (ran.only only call member)

theorem first_before {first : Call} {rest : List Call} (split : first :: rest = before ++ call :: after) :
    first ∈ before ++ [call] := by
  rcases List.cons_eq_append_iff.mp split with ⟨rfl,same⟩ | ⟨before,rfl,_⟩
  · cases same
    exact List.mem_cons_self
  · exact List.mem_cons_self

-- Whatever is asked of the sidecar or written under the lock comes after the claim
-- was consumed.
theorem locked_execution (locked : Locked job token p) (ran : Delivers config worker p s calls)
    (split : calls = before ++ call :: after) (moves : ¬ Still config worker call) :
    ∃ consume ∈ before ++ [call], Consumes job token consume := by
  have member : call ∈ calls := by
    rw [split]
    exact List.mem_append_right _ List.mem_cons_self
  cases locked with
  | @consume resume refused failed =>
    cases calls with
    | nil => cases member
    | cons first rest =>
      obtain ⟨same,_,ran⟩ := ran
      obtain ⟨state,op,choice⟩ := first
      cases same
      by_cases lands : Lands state job (.consumePreparationClaim token) choice
      · exact ⟨_,first_before split,rfl,lands⟩
      · obtain ⟨unmoved,answer⟩ := @unconsumed config _ _ worker _ _ lands
        have quiet : (resume (serve config state worker (.update [job] (.consumePreparationClaim token)) choice).2).Only
            Quiet := by
          rcases answer with ok | error
          · rw [ok]
            exact refused
          · rw [error]
            exact failed
        rcases List.mem_cons.mp member with rfl | later
        · exact absurd ⟨id,unmoved⟩ moves
        · exact absurd (quiet_execution quiet ran later) moves

theorem not_takes (quiet : NoTake call.op) : ¬ Takes config worker job call := fun takes => quiet job takes.1

theorem guarded_execution (guarded : Guarded job token p) (ran : Delivers config worker p s calls)
    (takes : ∃ taken ∈ calls, Takes config worker job taken) (split : calls = before ++ call :: after)
    (moves : ¬ Still config worker call) : ∃ consume ∈ before ++ [call], Consumes job token consume := by
  induction guarded generalizing s calls before with
  | calm only =>
    obtain ⟨taken,member,takes⟩ := takes
    exact absurd takes (not_takes (ran.only only taken member).noTake)
  | @quiet op resume quiet _ ih =>
    cases calls with
    | nil => cases before <;> cases split
    | cons first rest =>
      obtain ⟨same,_,ran⟩ := ran
      have here : Quiet first.op := same ▸ quiet
      have later : ∃ taken ∈ rest, Takes config worker job taken := by
        obtain ⟨taken,member,takes⟩ := takes
        rcases List.mem_cons.mp member with rfl | later
        · exact absurd takes (not_takes here.noTake)
        · exact ⟨taken,later,takes⟩
      rcases List.cons_eq_append_iff.mp split with ⟨_,same⟩ | ⟨front,rfl,tail⟩
      · cases same
        exact absurd here.still moves
      · obtain ⟨consume,member,consumes⟩ := ih _ ran later tail
        exact ⟨consume,List.mem_cons_of_mem _ member,consumes⟩
  | @take resume locked refused =>
    cases calls with
    | nil => cases before <;> cases split
    | cons first rest =>
      obtain ⟨same,_,ran⟩ := ran
      obtain ⟨state,op,choice⟩ := first
      cases same
      rcases List.cons_eq_append_iff.mp split with ⟨_,same⟩ | ⟨front,rfl,tail⟩
      · cases same
        exact absurd tryAcquire_still moves
      · by_cases acquired : (serve config state worker (.tryAcquire job) choice).2 = .ok true
        · rw [acquired] at ran
          obtain ⟨consume,member,consumes⟩ := locked_execution locked ran tail moves
          exact ⟨consume,List.mem_cons_of_mem _ member,consumes⟩
        · obtain ⟨taken,member,takes⟩ := takes
          rcases List.mem_cons.mp member with rfl | later
          · exact absurd takes.2 acquired
          · exact absurd takes (not_takes (ran.only (refused _ acquired) taken later))

-- The whole delivery of a job that was prepared under a token.
theorem carried_execution {attempt task : Nat} (ran : Delivers config worker (walletWorker config task attempt) s calls)
    (carries : Carries config worker calls job token) (takes : ∃ taken ∈ calls, Takes config worker job taken)
    (split : calls = before ++ call :: after) (moves : ¬ Still config worker call) :
    ∃ consume ∈ before ++ [call], Consumes job token consume := by
  obtain ⟨first,rest,task',attempt',walletIndex,preparation,owner,ns,rfl,fetches,fetched⟩ := carries
  obtain ⟨same,_,ran⟩ := ran
  obtain ⟨state,op,c⟩ := first
  cases same
  cases fetches
  have here : Quiet (.fetch task attempt) := .fetch task attempt
  have later : ∃ taken ∈ rest, Takes config worker job taken := by
    obtain ⟨taken,member,takes⟩ := takes
    rcases List.mem_cons.mp member with rfl | later
    · exact absurd takes (not_takes here.noTake)
    · exact ⟨taken,later,takes⟩
  rcases List.cons_eq_append_iff.mp split with ⟨_,same⟩ | ⟨front,rfl,tail⟩
  · cases same
    exact absurd (Quiet.still here) moves
  · dsimp only at ran
    rw [fetched] at ran
    obtain ⟨consume,member,consumes⟩ := guarded_execution
      (delivery_guarded config walletIndex attempt task preparation owner ns job token) ran later tail moves
    exact ⟨consume,List.mem_cons_of_mem _ member,consumes⟩

end Executions

-- The claims on a row

theorem token_came {row : Row} {statement : Statement} {token : Token} (allowed : Allowed config s k op)
    (runs : Executes s job op statement)
    (current : (statement.apply s.clock row).prepareClaimToken = some token) :
    row.prepareClaimToken = some token ∨ token = s.nextId := by
  cases statement with
  | claimPreparation drawn =>
    obtain ⟨_,rfl⟩ := runs.claims allowed
    exact .inr (Option.some.inj current).symm
  | persistUploadedState blobId blobObjectId => cases current
  | markDone blobId => cases current
  | _ => exact .inl current

-- A token that was drawn and is not the row's does not become it.
theorem superseded_served {token : Token} (allowed : Allowed config s k op) (drawn : token < s.nextId)
    (gone : ¬ Current s job token) : ¬ Current (serve config s k op c).1 job token := by
  intro given
  obtain ⟨after,found,current⟩ := given
  cases served_row found with
  | same before => exact gone ⟨after,before,current⟩
  | inserted row inserts _ written =>
    subst inserts
    rw [written] at current
    change row.prepareClaimToken = some token at current
    rw [NewRow.unclaimed allowed] at current
    cases current
  | written row statement before runs _ _ written =>
    subst written
    rcases token_came allowed runs current with still | fresh
    · exact gone ⟨row,before,still⟩
    · exact Nat.ne_of_lt drawn fresh

theorem superseded_happened {event : Event} {token : Token} (gone : ¬ Current s job token) :
    ¬ Current (happen s event) job token := by
  intro given
  obtain ⟨after,found,current⟩ := given
  rcases happened_row found with before | ⟨row,before,_,rfl⟩
  · exact gone ⟨after,before,current⟩
  · exact gone ⟨row,before,current⟩

theorem superseded_between {moves : Moves} {i j : Nat} {token : Token} (le : i ≤ j)
    (drawn : token < (state config moves i).nextId) (gone : ¬ Current (state config moves i) job token) :
    ¬ Current (state config moves j) job token := by
  have kept : (state config moves i).nextId ≤ (state config moves j).nextId ∧
      (token < (state config moves i).nextId → ¬ Current (state config moves i) job token →
        ¬ Current (state config moves j) job token) := by
    refine relates (R:=fun s next => s.nextId ≤ next.nextId ∧
        (token < s.nextId → ¬ Current s job token → ¬ Current next job token)) (K:=fun _ _ _ _ => True)
      (fun _ => ⟨Nat.le_refl _,fun _ gone => gone⟩) ?_ (fun _ _ _ _ _ => trivial) ?_ ?_ ?_ le
    · rintro a b c ⟨more,first⟩ ⟨still,second⟩
      exact ⟨Nat.le_trans more still,fun drawn gone => second (Nat.lt_of_lt_of_le drawn more) (first drawn gone)⟩
    · intro s k op c inv allowed _
      exact ⟨(grows_served inv allowed).drawn,superseded_served allowed⟩
    · exact fun s k inv => ⟨Nat.le_refl _,fun _ gone => gone⟩
    · exact fun s event inv => ⟨(grows_happened inv event).drawn,fun _ => superseded_happened⟩
  exact kept.2 drawn gone

-- Only a failed row becomes pending again.
def Unclaimable (s : System) (job : JobId) : Prop :=
  ∃ row, s.rows.get? job = some row ∧ row.status ≠ .pending

def Failed (s : System) (job : JobId) : Prop := ∃ row, s.rows.get? job = some row ∧ row.status = .failed

theorem pending_written {row : Row} {statement : Statement} (held : row.status ≠ .pending) (sound : row.status ≠ .failed)
    (now : Nat) : (statement.apply now row).status ≠ .pending := by
  cases statement with
  | afterWalletError aborts => cases aborts <;> simp [Statement.apply]
  | claimPreparation token =>
    simp only [Statement.apply,sound,false_and,if_false]
    exact held
  | persistPreparation token preparation => exact held
  | persistUploadJournal journal => exact held
  | claimPaidRecovery token => exact held
  | _ => simp [Statement.apply]

theorem unclaimable_served (inv : Consistent config s) (allowed : Allowed config s k op) (held : Unclaimable s job) :
    Failed s job ∨ Unclaimable (serve config s k op c).1 job := by
  obtain ⟨row,found,pending⟩ := held
  by_cases failed : row.status = .failed
  · exact .inl ⟨row,found,failed⟩
  · obtain ⟨after,there,_⟩ := (grows_served (c:=c) inv allowed).rows job row found
    refine .inr ⟨after,there,?_⟩
    cases served_row there with
    | same before =>
      cases found.symm.trans before
      exact pending
    | inserted other _ missing _ =>
      rw [found] at missing
      cases missing
    | written before statement same _ _ _ written =>
      cases found.symm.trans same
      rw [written]
      exact pending_written pending failed s.clock

theorem unclaimable_happened {event : Event} (inv : Consistent config s) (held : Unclaimable s job) :
    Failed s job ∨ Unclaimable (happen s event) job := by
  obtain ⟨row,found,pending⟩ := held
  by_cases failed : row.status = .failed
  · exact .inl ⟨row,found,failed⟩
  · obtain ⟨after,there,_⟩ := (grows_happened inv event).rows job row found
    refine .inr ⟨after,there,?_⟩
    rcases happened_row there with before | ⟨before,same,_,written⟩
    · cases found.symm.trans before
      exact pending
    · cases found.symm.trans same
      rw [written]
      exact pending_written pending failed s.clock

theorem unclaimable_between {moves : Moves} {i j : Nat} (le : i ≤ j) (held : Unclaimable (state config moves i) job) :
    (∃ m, i ≤ m ∧ m < j ∧ Failed (state config moves m) job) ∨ Unclaimable (state config moves j) job := by
  induction le with
  | refl => exact .inr held
  | @step j le ih =>
    rcases ih with ⟨m,after,before,failed⟩ | held
    · exact .inl ⟨m,after,Nat.lt_succ_of_lt before,failed⟩
    · have moved := relates_next (i:=j) (R:=fun s next => Unclaimable s job → Failed s job ∨ Unclaimable next job)
        (K:=fun _ _ _ _ => True) (fun _ held => .inr held) (fun _ _ _ _ _ => trivial)
        (fun _ _ _ _ inv allowed _ held => unclaimable_served inv allowed held) (fun _ _ _ held => .inr held)
        (fun _ _ inv held => unclaimable_happened inv held) held
      rcases moved with failed | held
      · exact .inl ⟨j,le,Nat.lt_succ_self j,failed⟩
      · exact .inr held

theorem consumed_unclaimable {token : Token} (lands : Lands s job (.consumePreparationClaim token) c) :
    Unclaimable (serve config s k (.update [job] (.consumePreparationClaim token)) c).1 job := by
  obtain ⟨stored,met⟩ := lands
  obtain ⟨row,found,applies⟩ := (Option.any_eq_true _ _).mp met
  refine ⟨(Statement.consumePreparationClaim token).apply s.clock row,?_,nofun⟩
  have written : (s.execute [job] (.consumePreparationClaim token)).rows.get? job =
      some ((Statement.consumePreparationClaim token).apply s.clock row) := by
    simp [System.execute,Store.get?_update,found,System.matching,applies]
  cases fault : c.fault with
  | before => exact absurd fault stored
  | none => simpa only [serve,System.faulty,fault,System.note] using written
  | after => simpa only [serve,System.faulty,fault,System.note] using written

-- A worker that delivers a wallet job, from its first call to its death.
def Delivered (config : Config) (moves : Moves) (i worker : Nat) (calls : List Call) : Prop :=
  ∃ task attempt, moves[i]? = some (.spawn worker (.wallet task attempt)) ∧
    (workers config moves i).workers.get? worker = none ∧
    calls = made (server config) worker (workers config moves (i+1)) (moves.drop (i+1))

theorem delivered_execution {moves : Moves} {i worker : Nat} {calls : List Call}
    (delivered : Delivered config moves i worker calls) :
    ∃ task attempt, Delivers config worker (walletWorker config task attempt) (state config moves i) calls := by
  obtain ⟨task,attempt,found,absent,rfl⟩ := delivered
  refine ⟨task,attempt,?_⟩
  change Execution (fun s op c => (server config).service.serve s worker op c) (fun _ _ => True) _ _ _
  apply made_execution
  unfold workers at absent ⊢
  rw [Runs.before_succ found]
  simp only [Runs.settle,exec]
  rw [absent]
  exact (Store.get?_upsert _ _ _ _).trans (if_pos rfl)

theorem delivered_split {moves : Moves} {i worker : Nat} {calls before after : List Call} {call : Call}
    (delivered : Delivered config moves i worker calls) (split : calls = before ++ call :: after) :
    ∃ j, call.state = state config moves j ∧ ∀ later ∈ after, ∃ m, j ≤ m ∧ later.state = state config moves m := by
  obtain ⟨_,_,_,_,rfl⟩ := delivered
  obtain ⟨j,here,later⟩ := made_split split
  refine ⟨i+1+j,?_,?_⟩
  · rw [here]
    exact congrArg Pool.shared (Runs.before_drop _ _ _ _)
  · intro call member
    obtain ⟨m,le,there⟩ := later call member
    refine ⟨i+1+m,Nat.add_le_add_left le _,?_⟩
    rw [there]
    exact congrArg Pool.shared (Runs.before_drop _ _ _ _)

-- The token of a delivered job was drawn before its first call.
theorem carried_drawn {moves : Moves} {i worker : Nat} {calls : List Call} {token : Token} {call : Call}
    (delivered : Delivered config moves i worker calls) (carries : Carries config worker calls job token)
    (member : call ∈ calls) : token < call.state.nextId := by
  obtain ⟨first,rest,task,attempt,walletIndex,preparation,owner,ns,same,_,fetched⟩ := carries
  obtain ⟨j,here,later⟩ := @delivered_split _ _ _ _ _ [] _ _ delivered same
  have drawn : token < (state config moves j).nextId := by
    rw [here] at fetched
    have queued : (state config moves j).queue.get? task =
        some ⟨walletIndex,.uploadAndTransfer preparation owner ns job (some token)⟩ := by
      simp only [serve] at fetched
      split at fetched
      · cases fetched
      · rename_i found
        rw [found]
        exact fetched
    have inv := consistent_at config moves j
    have prepared : Prepared config (state config moves j) job (some token) preparation :=
      inv.pushed _ (inv.queued task _ queued).2
    exact prepared.2.1
  subst same
  rcases List.mem_cons.mp member with rfl | after
  · exact here ▸ drawn
  · obtain ⟨m,le,there⟩ := later call after
    rw [there]
    exact Nat.lt_of_lt_of_le drawn (grows_between config moves le).drawn

theorem consumed_current {token : Token} {call : Call} (consumes : Consumes job token call) :
    Current call.state job token := by
  obtain ⟨_,_,met⟩ := consumes
  obtain ⟨row,found,applies⟩ := (Option.any_eq_true _ _).mp met
  simp only [Statement.applies,Bool.decide_and,Bool.and_eq_true,decide_eq_true_eq] at applies
  exact ⟨row,found,applies.1⟩

-- A claim that is gone is not consumed later.
theorem stale_still {moves : Moves} {i worker : Nat} {calls : List Call} {token : Token}
    (delivered : Delivered config moves i worker calls) (carries : Carries config worker calls job token)
    (stale : HoldsStale config worker calls job token) : ∀ call ∈ calls, Still config worker call := by
  obtain ⟨before,call,after,split,⟨taken,there,takes⟩,gone,unconsumed⟩ := stale
  obtain ⟨task,attempt,ran⟩ := delivered_execution delivered
  obtain ⟨j,here,later⟩ := delivered_split delivered split
  have member : call ∈ calls := by
    rw [split]
    exact List.mem_append_right _ List.mem_cons_self
  have locked : taken ∈ calls := by
    rw [split]
    rcases List.mem_append.mp there with first | last
    · exact List.mem_append_left _ first
    · rw [List.mem_singleton.mp last]
      exact List.mem_append_right _ List.mem_cons_self
  have drawn : token < call.state.nextId := carried_drawn delivered carries member
  rw [here] at gone drawn
  intro moved inside
  by_contra moves_
  obtain ⟨front,back,divided⟩ := List.append_of_mem inside
  obtain ⟨consume,among,consumes⟩ := carried_execution ran carries ⟨taken,locked,takes⟩ divided moves_
  have made : consume ∈ before ++ call :: after := by
    rw [← split,divided]
    rcases List.mem_append.mp among with first | last
    · exact List.mem_append_left _ first
    · rw [List.mem_singleton.mp last]
      exact List.mem_append_right _ List.mem_cons_self
  have current := consumed_current consumes
  rcases List.mem_append.mp made with early | late
  · exact unconsumed consume early consumes
  · rcases List.mem_cons.mp late with rfl | next
    · rw [here] at current
      exact gone current
    · obtain ⟨m,le,state⟩ := later consume next
      rw [state] at current
      exact superseded_between le drawn gone current

theorem idempotent_remember (config : Config) (moves : Moves) :
    (∀ i owner key one other, (owner,some key,one) ∈ (state config moves i).accepted →
      (owner,some key,other) ∈ (state config moves i).accepted → one = other) ∧
    (∀ i one other a b key, (state config moves i).rows.get? one = some a →
      (state config moves i).rows.get? other = some b → a.owner = b.owner → a.idempotencyKey = some key →
      b.idempotencyKey = some key → one = other) ∧
    (∀ i job one other, Current (state config moves i) job one → Current (state config moves i) job other →
      one = other) ∧
    (∀ i j job token, i ≤ j → token < (state config moves i).nextId → ¬ Current (state config moves i) job token →
      ¬ Current (state config moves j) job token) ∧
    (∀ i worker job token c, Serves config moves i worker (.update [job] (.consumePreparationClaim token)) c →
      (state config moves i).locks.get? job = some worker) ∧
    (∀ i worker calls job token, Delivered config moves i worker calls → Carries config worker calls job token →
      ((∃ taken ∈ calls, Takes config worker job taken) →
        ∀ before call after, calls = before ++ call :: after → ¬ Still config worker call →
          ∃ consume ∈ before ++ [call], Consumes job token consume) ∧
      (HoldsStale config worker calls job token → ∀ call ∈ calls, Still config worker call)) ∧
    ∀ i j worker claimer job token c d, i < j →
      Serves config moves i worker (.update [job] (.consumePreparationClaim token)) c →
      Lands (state config moves i) job (.consumePreparationClaim token) c →
      Serves config moves j claimer (.claimPreparation job) d →
      Lands (state config moves j) job (.claimPreparation (state config moves j).nextId) d →
      ∃ m, i < m ∧ m ≤ j ∧ Failed (state config moves m) job := by
  refine ⟨?_,?_,?_,?_,?_,?_,?_⟩
  · intro i owner key one other first second
    have inv := consistent_at config moves i
    obtain ⟨a,found,its,keyed⟩ := inv.accepted owner (some key) one first
    obtain ⟨b,there,same,again⟩ := inv.accepted owner (some key) other second
    exact inv.keys one other a b key found there (its.trans same.symm) keyed again
  · exact fun i one other a b key => (consistent_at config moves i).keys one other a b key
  · rintro i job one other ⟨row,found,current⟩ ⟨again,there,its⟩
    cases found.symm.trans there
    exact Option.some.inj (current.symm.trans its)
  · exact fun i j job token le drawn gone => superseded_between le drawn gone
  · intro i worker job token c serves
    exact (serves.allowed job (List.mem_singleton_self job)).1
  · intro i worker calls job token delivered carries
    obtain ⟨task,attempt,ran⟩ := delivered_execution delivered
    refine ⟨?_,stale_still delivered carries⟩
    exact fun takes before call after split moves => carried_execution ran carries takes split moves
  · intro i j worker claimer job token c d later consumes landed claims granted
    have held : Unclaimable (state config moves (i+1)) job := consumes.next ▸ consumed_unclaimable landed
    rcases unclaimable_between later held with ⟨m,after,before,failed⟩ | ⟨row,found,pending⟩
    · exact ⟨m,after,Nat.le_of_lt before,failed⟩
    · obtain ⟨again,there,applies⟩ := (Option.any_eq_true _ _).mp granted.2
      cases found.symm.trans there
      simp only [Statement.applies,Bool.decide_and,Bool.and_eq_true,decide_eq_true_eq] at applies
      rcases applies.2.1 with open_ | failed
      · exact absurd open_ pending
      · exact ⟨j,later,Nat.le_refl j,row,found,failed⟩

-- The lease runs out between the two checks of a delivery (worker 2), and the
-- client's second request gets a new claim before the lock is taken.
def staleRun : Moves :=
  .spawn 0 (.remember ⟨"owner","account","key"⟩ ⟨"text","ns",some "retry"⟩) :: turns 0 6 ++
  .spawn 1 (.task 2) :: turns 1 7 ++ .spawn 2 (.wallet 3 1) :: turns 2 2 ++
  .outside (.tick 61) :: .spawn 3 (.remember ⟨"owner","account","key"⟩ ⟨"text","ns",some "retry"⟩) :: turns 3 4 ++
  turns 2 4

def staleCalls : List Call := made (server sampleConfig) 2 (workers sampleConfig staleRun 16) (staleRun.drop 16)

-- The delivery of `reclaimedRun` that holds its claim.
def heldCalls : List Call := made (server sampleConfig) 2 (workers sampleConfig reclaimedRun 16) (reclaimedRun.drop 16)

def deliveredJob : WalletJob := ⟨0,.uploadAndTransfer ⟨[0,0],[0],50,"account","key"⟩ "owner" "ns" 0 (some 1)⟩

theorem split_at {calls : List Call} {n : Nat} {call : Call} (found : calls[n]? = some call) :
    calls = calls.take n ++ call :: calls.drop (n+1) := by
  obtain ⟨inside,rfl⟩ := List.getElem?_eq_some_iff.mp found
  rw [← List.drop_eq_getElem_cons inside,List.take_append_drop]

theorem carries_sample {calls : List Call} (fetched : calls.head?.map (fun call =>
    (call.op,(serve sampleConfig call.state 2 (.fetch 3 1) call.choice).2)) = some (.fetch 3 1,some deliveredJob)) :
    Carries sampleConfig 2 calls 0 1 := by
  obtain ⟨first,found,answer⟩ := Option.map_eq_some_iff.mp fetched
  obtain ⟨rest,split⟩ := List.head?_eq_some_iff.mp found
  obtain ⟨fetches,answered⟩ := Prod.mk.inj answer
  exact ⟨first,rest,3,1,_,_,_,_,split,fetches,answered⟩

theorem takes_sample {calls : List Call} (granted : calls[2]?.map (fun call =>
    (call.op,(serve sampleConfig call.state 2 (.tryAcquire 0) call.choice).2)) = some (.tryAcquire 0,.ok true)) :
    ∃ taken, calls[2]? = some taken ∧ Takes sampleConfig 2 0 taken := by
  obtain ⟨taken,found,answer⟩ := Option.map_eq_some_iff.mp granted
  exact ⟨taken,found,Prod.mk.inj answer⟩

theorem idempotent_remember_fenced :
    (∀ call ∈ staleCalls, Still sampleConfig 2 call) ∧
      (∃ before call after, heldCalls = before ++ call :: after ∧ AsksSidecar call.op ∧
        ∃ consume ∈ before ++ [call], Consumes 0 1 consume) ∧
      ∃ m, 19 < m ∧ m ≤ 38 ∧ Failed (state sampleConfig reclaimedRun m) 0 := by
  refine ⟨?_,?_,?_⟩
  · obtain ⟨taken,found,takes⟩ := @takes_sample staleCalls (by decide +kernel)
    have replaced : staleCalls[2]?.map (fun call => (call.state.rows.get? 0).map Row.prepareClaimToken) =
        some (some (some 4)) := by decide +kernel
    have early : ∀ earlier ∈ staleCalls.take 2, earlier.op ≠ .update [0] (.consumePreparationClaim 1) := by
      decide +kernel
    refine ((idempotent_remember sampleConfig staleRun).2.2.2.2.2.1 15 2 staleCalls 0 1 ⟨3,1,rfl,by decide +kernel,rfl⟩
      (carries_sample (by decide +kernel))).2 ⟨_,taken,_,split_at found,⟨taken,by simp,takes⟩,?_,?_⟩
    · intro given
      obtain ⟨row,held,current⟩ := given
      rw [found,Option.map_some,held] at replaced
      cases current.symm.trans (Option.some.inj (Option.some.inj replaced))
    · exact fun earlier member consumes => early earlier member consumes.1
  · obtain ⟨taken,found,takes⟩ := @takes_sample heldCalls (by decide +kernel)
    have posted : heldCalls[7]?.map Made.op = some (.post ⟨[0,0],0,0,none,none,none,none⟩) := by decide +kernel
    obtain ⟨call,there,posts⟩ := Option.map_eq_some_iff.mp posted
    have asks : AsksSidecar call.op := by
      rw [posts]
      trivial
    refine ⟨_,call,_,split_at there,asks,?_⟩
    exact ((idempotent_remember sampleConfig reclaimedRun).2.2.2.2.2.1 15 2 heldCalls 0 1
      ⟨3,1,rfl,by decide +kernel,rfl⟩ (carries_sample (by decide +kernel))).1
      ⟨taken,List.mem_of_getElem? found,takes⟩ _ call _ (split_at there) (fun still => still.1 asks)
  · have first : Lands (state sampleConfig reclaimedRun 19) 0 (.consumePreparationClaim 1) {} := by decide +kernel
    have second : Lands (state sampleConfig reclaimedRun 38) 0
        (.claimPreparation (state sampleConfig reclaimedRun 38).nextId) {} := by decide +kernel
    exact (idempotent_remember sampleConfig reclaimedRun).2.2.2.2.2.2 19 38 2 4 0 1 {} {} (by decide)
      ⟨.step 2 {},rfl,by decide +kernel⟩ first ⟨.step 4 {},rfl,by decide +kernel⟩ second

end MemWal.Remember
