import MemWal.Library.Alone
import MemWal.Remember.Effects

namespace MemWal.Remember
open Library

variable {config : Config} {s : System} {job : JobId} {row after : Row}

def WalletOperation.prepareClaimToken : WalletOperation → Option Token
  | .uploadAndTransfer _ _ _ _ token => token
  | _ => none

def HasSealContext (config : Config) (preparation : Preparation) : Prop :=
  (recoverySealPersistence config preparation).isOk = true

instance : Decidable (HasSealContext config preparation) := inferInstanceAs (Decidable (_ = true))

-- The transfer or the indexing of the row's blob, or what puts its transfer on the
-- queue.
def Toward (config : Config) (job : JobId) (row : Row) : Op → Prop
  | .setMetadataBatch _ blobObjectId => row.blobObjectId = some blobObjectId
  | .insertVector id entry => id = job ∧ row.blobId = some entry.blobId
  | .push ⟨_,.setMetadataAndTransfer blobObjectId _ _ id blobId preparation⟩ =>
    id = job ∧ row.blobObjectId = some blobObjectId ∧ row.blobId = some blobId ∧ HasSealContext config preparation
  | _ => False

-- Nothing fails, and nobody holds the lock.
def Undisturbed (c : Choice) : Prop := c.fault = .none ∧ c.error = none ∧ c.busy = false

-- The program, run by the worker alone, gets to such a call.
abbrev GetsTo {ε α : Type} (config : Config) (worker : Nat) (goal : Op → Prop) :
    Program Op Op.Answer ε α → System → Prop :=
  Reaches (fun s op c => serve config s worker op c) Undisturbed goal

-- A job of the row is queued whose next delivery gets to the transfer or the indexing
-- once the upload lock of the row is free.
def Carried (config : Config) (s : System) (job : JobId) (row : Row) : Prop :=
  ∃ task queued, s.queue.get? task = some queued ∧ queued.operation.rememberJobId = job ∧
    ∀ worker attempt, GetsTo config worker (Toward config job row) (walletWorker config task attempt)
      {s with locks := s.locks.erase job}

-- Jobs that carry the blob on

def Onward (config : Config) (job : JobId) (row : Row) : WalletOperation → Prop
  | .uploadAndTransfer preparation _ _ id token =>
    id = job ∧ token = none ∧ 0 < config.poolSize ∧ HasSealContext config preparation
  | .setMetadataAndTransfer blobObjectId _ _ id blobId preparation => id = job ∧ row.blobObjectId = some blobObjectId ∧
    row.blobId = some blobId ∧ HasSealContext config preparation
  | .finalizeUploadedBlob _ _ id blobId _ _ _ => id = job ∧ row.blobId = some blobId

theorem onward_mine {operation : WalletOperation} (onward : Onward config job row operation) :
    operation.rememberJobId = job := by
  cases operation with
  | uploadAndTransfer => exact onward.1
  | setMetadataAndTransfer => exact onward.1
  | finalizeUploadedBlob => exact onward.1

theorem onward_unclaimed {operation : WalletOperation} (onward : Onward config job row operation) :
    operation.prepareClaimToken = none := by
  cases operation with
  | uploadAndTransfer => exact onward.2.1
  | setMetadataAndTransfer => rfl
  | finalizeUploadedBlob => rfl

-- Only the blob of the row and its object decide it.
theorem Onward.later {operation : WalletOperation} (onward : Onward config job row operation)
    (paid : row.blobId ≠ none) (later : RowLater row after) : Onward config job after operation := by
  cases operation with
  | uploadAndTransfer => exact onward
  | setMetadataAndTransfer =>
    obtain ⟨mine,object,blob,context⟩ := onward
    exact ⟨mine,(later.object paid).trans object,(later.blob _ blob).1,context⟩
  | finalizeUploadedBlob =>
    obtain ⟨mine,blob⟩ := onward
    exact ⟨mine,(later.blob _ blob).1⟩

section Reaching
variable {worker : Nat}

theorem locked_reaches (found : s.rows.get? job = some row) (paid : row.blobId ≠ none) (open_ : row.status ≠ .done)
    {preparation : Preparation} (context : HasSealContext config preparation) (walletIndex : Nat) (owner ns : String) :
    GetsTo config worker (Toward config job row)
      (executeUploadAndTransferLocked walletIndex job owner ns preparation) s := by
  obtain ⟨blobId,recorded⟩ := Option.ne_none_iff_exists'.mp paid
  unfold executeUploadAndTransferLocked
  right
  intro c undisturbed
  have read : (serve config s worker (.select job) c).2 = .ok (some row) := by
    simp only [serve,undisturbed.1,found]
  dsimp only
  rw [read]
  rw [Program.bind]
  cases object : row.blobObjectId with
  | some blobObjectId =>
    have resume : uploadResumeDisposition (.ok (some row)) = .resumeTransfer blobId blobObjectId := by
      simp [uploadResumeDisposition,recorded,open_,object]
    rw [resume]
    left
    exact ⟨rfl,object,recorded,context⟩
  | none =>
    have resume : uploadResumeDisposition (.ok (some row)) = .resumeIndex blobId := by
      simp [uploadResumeDisposition,recorded,open_,object]
    rw [resume]
    left
    exact ⟨rfl,recorded⟩

theorem upload_reaches (found : s.rows.get? job = some row) (paid : row.blobId ≠ none) (open_ : row.status ≠ .done)
    (free : s.locks.get? job = none) {preparation : Preparation} (context : HasSealContext config preparation)
    (walletIndex : Nat) (owner ns : String) :
    GetsTo config worker (Toward config job row)
      (executeUploadAndTransfer walletIndex job owner ns none preparation) s := by
  unfold executeUploadAndTransfer
  right
  intro c undisturbed
  obtain ⟨fault,_,idle⟩ := undisturbed
  have acquired : serve config s worker (.tryAcquire job) c =
      ({s with locks := s.locks.insert job worker},.ok true) := by
    simp [serve,fault,idle,free]
  have still : ({s with locks := s.locks.insert job worker} : System).rows.get? job = some row := found
  dsimp only
  rw [acquired]
  exact (locked_reaches still paid open_ context walletIndex owner ns).attempt.bind

theorem transfer_reaches {walletIndex : Nat} {blobObjectId : ObjectId} {preparation : Preparation}
    (context : HasSealContext config preparation) (object : row.blobObjectId = some blobObjectId) :
    GetsTo config worker (Toward config job row)
      (executeSetMetadataAndTransfer config walletIndex blobObjectId preparation) s := by
  unfold executeSetMetadataAndTransfer
  cases sealed : recoverySealPersistence config preparation with
  | ok _ => exact .inl object
  | error _ =>
    unfold HasSealContext at context
    rw [sealed] at context
    cases context

-- A delivery is the execution of the queued job.
theorem delivery_reaches {task attempt : Nat} {queued : WalletJob} (there : s.queue.get? task = some queued) :
    GetsTo config worker (Toward config job row) (walletWorker config task attempt) s ↔
      GetsTo config worker (Toward config job row)
        ((executeWalletJob config queued attempt).attempt >>=
          (fun result => .perform (Op.acknowledge task (intoApalis result))) : Program Op Op.Answer Unit Unit)
        {s with deliveries := s.deliveries.upsert worker ⟨task,queued,attempt,none,false,false,false,false⟩} := by
  have fetched : ∀ c, serve config s worker (.fetch task attempt) c =
      ({s with deliveries := s.deliveries.upsert worker ⟨task,queued,attempt,none,false,false,false,false⟩},
        some queued) := by
    intro c
    simp only [serve,there]
  unfold walletWorker
  constructor
  · intro reaches
    rcases reaches with fetches | reaches
    · exact fetches.elim
    · have delivered := reaches {} ⟨rfl,rfl,rfl⟩
      dsimp only at delivered
      rw [fetched] at delivered
      exact delivered
  · intro delivered
    right
    intro c _
    dsimp only
    rw [fetched]
    exact delivered

theorem onward_carries {task : Nat} {queued : WalletJob}
    (there : s.queue.get? task = some queued) (onward : Onward config job row queued.operation)
    (found : s.rows.get? job = some row) (paid : row.blobId ≠ none) (open_ : row.status ≠ .done) :
    Carried config s job row := by
  refine ⟨task,queued,there,onward_mine onward,?_⟩
  intro worker attempt
  have unlocked : ({s with locks := s.locks.erase job} : System).queue.get? task = some queued := there
  apply (delivery_reaches unlocked).mpr
  apply Reaches.bind
  apply Reaches.attempt
  obtain ⟨walletIndex,operation⟩ := queued
  cases operation with
  | uploadAndTransfer preparation owner ns id token =>
    obtain ⟨rfl,rfl,wallets,context⟩ := onward
    have index : walletIndexForUploadAttempt walletIndex attempt config.poolSize =
        some ((walletIndex % config.poolSize + (attempt - 1) % config.poolSize) % config.poolSize) :=
      if_neg (Nat.pos_iff_ne_zero.mp wallets)
    unfold executeWalletJob
    dsimp only
    rw [index]
    refine upload_reaches ?_ paid open_ ?_ context _ owner ns
    · exact found
    · exact (Store.get?_erase _ _ _).trans (if_pos rfl)
  | setMetadataAndTransfer blobObjectId owner ns id blobId preparation =>
    obtain ⟨rfl,object,_,context⟩ := onward
    exact (transfer_reaches context object).attempt.bind
  | finalizeUploadedBlob owner ns id blobId vector size importance => exact .inl onward

-- A delivery that is fenced out gets nowhere.
theorem fenced_reaches {task attempt worker walletIndex : Nat} {preparation : Preparation} {owner ns : String}
    {token : Token}
    (there : s.queue.get? task = some ⟨walletIndex,.uploadAndTransfer preparation owner ns job (some token)⟩)
    (found : s.rows.get? job = some row) (cleared : row.prepareClaimToken = none) :
    ¬ GetsTo config worker (Toward config job after) (walletWorker config task attempt) s := by
  have nowhere : ∀ result t, ¬ GetsTo config worker (Toward config job after)
      (.perform (Op.acknowledge task result) : Program Op Op.Answer Unit Unit) t := by
    intro result t reaches
    rcases reaches with toward | reaches
    · exact toward
    · exact reaches {} ⟨rfl,rfl,rfl⟩
  intro reaches
  have reaches := (delivery_reaches there).mp reaches
  unfold executeWalletJob at reaches
  dsimp only at reaches
  cases index : walletIndexForUploadAttempt walletIndex attempt config.poolSize with
  | none =>
    rw [index] at reaches
    exact nowhere _ _ reaches
  | some executing =>
    rw [index] at reaches
    rcases reaches with reads | reaches
    · exact reads
    · have read : ∀ t : System, t.rows = s.rows → (serve config t worker (.select job) {}).2 = .ok (some row) := by
        intro t same
        exact congrArg Except.ok (same ▸ found)
      have reaches := reaches {} ⟨rfl,rfl,rfl⟩
      dsimp only at reaches
      rw [read] at reaches
      · have other : (some row).any (fun row => decide (row.prepareClaimToken = some token)) = false := by
          simp [cleared]
        change GetsTo config worker _ (Program.bind (Program.attempt
          (if (some row).any (fun row => decide (row.prepareClaimToken = some token)) = true
            then executeUploadAndTransfer executing job owner ns (some token) preparation
            else return ())) _) _ at reaches
        rw [other] at reaches
        exact nowhere _ _ reaches
      · rfl

end Reaching
end MemWal.Remember
