import MemWal.Remember.Admission

namespace MemWal.Remember
open Library Library.Crew

-- Who works on remember jobs: requests, in-process tasks, deliveries of the two
-- queues and handlers of the sidecar.
inductive Request where
  | remember (auth : AuthInfo) (body : RememberRequest)
  | rememberBulk (auth : AuthInfo) (items : List (String × String))
  | analyze (auth : AuthInfo) (ns : String) (facts : List (String × Nat))
  | task (id : Nat)
  | bulk (task : Nat)
  | wallet (task attempt : Nat)
  | sidecar (posted : Nat)

-- An error of a route goes into its HTTP response.
def answering (route : Route Unit) : Program Op Op.Answer Unit Unit := do
  let _ ← Program.attempt route
  return ()

def programOf (config : Config) : Request → Program Op Op.Answer Unit Unit
  | .remember auth body => answering (rememberRequest config auth body)
  | .rememberBulk auth items => answering (rememberBulk auth items)
  | .analyze auth ns facts => answering (analyze config auth ns facts)
  | .task id => answering (taskWorker config id)
  | .bulk task => answering (bulkWorker task)
  | .wallet task attempt => walletWorker config task attempt
  | .sidecar posted => sidecarHandler config posted

def server (config : Config) : Crew Op Op.Answer System Choice Unit Unit Request Event where
  service := service config
  program := programOf config
  happen := happen

abbrev Moves : Type := List (Move Request Choice Event)

abbrev Workers : Type := Pool System (Program Op Op.Answer Unit Unit)

def start : Workers := ⟨{},.empty⟩

-- The workers and the shared state in which move `i` of a run is made.
def workers (config : Config) (moves : Moves) (i : Nat) : Workers :=
  Runs.before (server config).exec start moves i

def state (config : Config) (moves : Moves) (i : Nat) : System := (workers config moves i).shared

-- Move `i` serves a call.
def Serves (config : Config) (moves : Moves) (i worker : Nat) (op : Op) (c : Choice) : Prop :=
  ∃ move, moves[i]? = some move ∧ served (workers config moves i) move = some (worker,op,c)

-- A server for runs on fixed inputs, and `n` calls of one worker that go well.
def sampleConfig : Config where
  poolSize := 2
  openaiApiKey := false
  address index := some index
  registryId := "registry"
  sealPolicyPackageId := "package"
  requestFingerprint text ns := text ++ ns
  sealEncrypted preparation := List.replicate (preparation+1) 0
  digestFromBytes bytes := bytes.content
  directSigningAllowed := true
  sdk := ⟨BlobId.mk,fun b o _ n => (b,o,n),fun _ _ same => BlobId.mk.inj same,fun _ _ _ _ => rfl,fun _ _ _ _ => rfl⟩

def turns (worker n : Nat) : Moves := List.replicate n (.step worker {})

-- A check of every call of a run, made in one pass.
def checks (config : Config) (K : System → Nat → Op → Choice → Bool) (moves : Moves) : Bool :=
  Runs.always (server config).exec (fun w move =>
    match served w move with
    | some (worker,op,c) => K w.shared worker op c
    | none => true) start moves

theorem given_of_checks {config : Config} {moves : Moves} {K : System → Nat → Op → Choice → Bool}
    (checked : checks config K moves = true) (i worker : Nat) (op : Op) (c : Choice)
    (serves : Serves config moves i worker op c) : K (state config moves i) worker op c = true := by
  obtain ⟨move,found,call⟩ := serves
  have here := Runs.before_of_always checked i move found
  unfold workers at call
  simp only [call] at here
  exact here

section Members
variable {config : Config} {s : System} {k : Nat}

theorem keeps_answering {route : Route Unit} (inv : Consistent config s)
    (conducts : Conducts config k (fun _ _ => True) route s) :
    Keeps (order config) k (fun _ _ => True) (answering route) s :=
  Keeps.bind inv (Keeps.attempt (conducts.keeps inv)) (fun _ _ _ _ => trivial) (fun _ _ _ _ => trivial)

theorem keeps_program (request : Request) (inv : Consistent config s) (idle : Idle k s) :
    Keeps (order config) k (fun _ _ => True) (programOf config request) s := by
  cases request with
  | remember auth body => exact keeps_answering inv (conducts_rememberRequest idle)
  | rememberBulk auth items => exact keeps_answering inv conducts_rememberBulk
  | analyze auth ns facts => exact keeps_answering inv (conducts_analyze idle)
  | task id => exact keeps_answering inv (conducts_taskWorker id idle)
  | bulk task => exact keeps_answering inv (conducts_bulkWorker task idle)
  | wallet task attempt => exact keeps_walletWorker config task attempt s
  | sidecar posted => exact keeps_sidecarHandler config posted s

end Members

def contract (config : Config) : Contract (server config) (order config) where
  Idle := Idle
  stays _ _ _ since idle := since.deliveries.trans idle
  leaves s k _ := by
    change (s.deliveries.erase k).get? k = none
    simp [Store.get?_erase]
  happens _ event inv := Remember.happens inv event
  programs request _ _ inv idle := keeps_program request inv idle

theorem consistent_start (config : Config) : Consistent config {} where
  rows _ _ found := nomatch found
  keys _ _ _ _ _ found := nomatch found
  accepted _ _ _ member := nomatch member
  pushed _ member := nomatch member
  queued _ _ found := nomatch found
  delivered _ _ found := nomatch found
  bulk _ _ found := nomatch found
  tasks _ _ found := nomatch found
  requests _ _ found := nomatch found
  oneRegister _ _ _ _ _ _ found := nomatch found
  answers _ _ found := nomatch found
  submitted _ _ member := nomatch member

theorem sound_start (config : Config) : Sound (contract config) start where
  inv := consistent_start config
  keeps _ _ found := nomatch found
  idle _ _ := rfl

section Runs
variable (config : Config) (moves : Moves)

theorem consistent_at (i : Nat) : Consistent config (state config moves i) :=
  (sound_before (fun _ _ _ _ => trivial) (sound_start config) i : Sound (contract config) _).inv

variable {config moves}

theorem Serves.allowed {i worker : Nat} {op : Op} {c : Choice} (served : Serves config moves i worker op c) :
    Allowed config (state config moves i) worker op := by
  obtain ⟨move,_,call⟩ := served
  exact allowed_at (fun _ _ _ _ => trivial) (sound_start config) call

theorem Serves.next {i worker : Nat} {op : Op} {c : Choice} (serves : Serves config moves i worker op c) :
    state config moves (i+1) = (serve config (state config moves i) worker op c).1 := by
  obtain ⟨move,found,call⟩ := serves
  obtain ⟨next,ran,shared⟩ := exec_served call
  unfold state workers
  rw [Runs.before_succ found]
  exact (congrArg Pool.shared (Runs.settle_ok ran)).trans shared

-- What the server assumes of the calls of a run.
theorem assumed_of_serves {K : System → Nat → Op → Choice → Prop}
    (given : ∀ i worker op c, Serves config moves i worker op c → K (state config moves i) worker op c) :
    Assumed (server config) K start moves :=
  fun i move worker op c found call => given i worker op c ⟨move,found,call⟩

-- What every call, every death and every event respects holds between any two
-- positions of a run.
theorem relates_next {K : System → Nat → Op → Choice → Prop} {R : System → System → Prop} (refl : ∀ s, R s s)
    (given : ∀ i worker op c, Serves config moves i worker op c → K (state config moves i) worker op c)
    (serves : ∀ s k op c, Consistent config s → Allowed config s k op → K s k op c → R s (serve config s k op c).1)
    (abandons : ∀ s k, Consistent config s → R s (abandon s k))
    (happens : ∀ s event, Consistent config s → R s (happen s event)) (i : Nat) :
    R (state config moves i) (state config moves (i+1)) :=
  step_relation (t:=order config) (fun _ _ _ _ => trivial) (sound_start config)
    (assumed_of_serves given) refl serves abandons happens i

theorem relates {K : System → Nat → Op → Choice → Prop} {R : System → System → Prop} (refl : ∀ s, R s s)
    (trans : ∀ a b c, R a b → R b c → R a c)
    (given : ∀ i worker op c, Serves config moves i worker op c → K (state config moves i) worker op c)
    (serves : ∀ s k op c, Consistent config s → Allowed config s k op → K s k op c → R s (serve config s k op c).1)
    (abandons : ∀ s k, Consistent config s → R s (abandon s k))
    (happens : ∀ s event, Consistent config s → R s (happen s event)) {i j : Nat} (le : i ≤ j) :
    R (state config moves i) (state config moves j) := by
  induction le with
  | refl => exact refl _
  | @step j _ ih => exact trans _ _ _ ih (relates_next refl given serves abandons happens j)

theorem grows_between (config : Config) (moves : Moves) {i j : Nat} (le : i ≤ j) :
    Grows config (state config moves i) (state config moves j) := by
  refine relates (K:=fun _ _ _ _ => True) .refl (fun _ _ _ => .trans) (fun _ _ _ _ _ => trivial) ?_ ?_ ?_ le
  · exact fun s k op c inv allowed _ => ((Remember.serves inv op c allowed).others (k+1) (Nat.succ_ne_self k)).toGrows
  · exact fun s k inv => ((Steps.abandon inv).others (k+1) (Nat.succ_ne_self k)).toGrows
  · exact fun s event inv => ((Remember.happens inv event).2 0).toGrows

theorem holds {K : System → Nat → Op → Choice → Prop} {J : System → Prop} (base : J {})
    (given : ∀ i worker op c, Serves config moves i worker op c → K (state config moves i) worker op c)
    (serves : ∀ s k op c, Consistent config s → Allowed config s k op → K s k op c → J s →
      J (serve config s k op c).1)
    (abandons : ∀ s k, Consistent config s → J s → J (abandon s k))
    (happens : ∀ s event, Consistent config s → J s → J (happen s event)) (i : Nat) : J (state config moves i) :=
  invariant (t:=order config) (fun _ _ _ _ => trivial) (sound_start config) (assumed_of_serves given) base
    serves abandons happens i

end Runs
end MemWal.Remember
