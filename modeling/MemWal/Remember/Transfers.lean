import MemWal.Remember.Registration
import Mathlib.Data.Fintype.Basic

namespace MemWal.Remember
open Library

variable {config : Config} {s next : System} {k : Nat} {op : Op} {c : Choice} {job : JobId}

-- A wallet that signs as the one that registered the paid blob.
def Registers (s : System) (job : JobId) (index : Option Nat) : Prop :=
  ∃ row, s.rows.get? job = some row ∧ row.blobId ≠ none ∧ row.journal.uploadWalletIndex = index

theorem Registers.stays (grows : Grows config s next) {index : Option Nat} (registers : Registers s job index) :
    Registers next job index := by
  obtain ⟨row,found,paid,same⟩ := registers
  obtain ⟨after,there,later⟩ := grows.rows job row found
  obtain ⟨blobId,present⟩ := Option.ne_none_iff_exists'.mp paid
  refine ⟨after,there,?_,(congrArg StoredUploadJournal.uploadWalletIndex (later.journal paid)).trans same⟩
  rw [(later.blob blobId present).1]
  exact Option.some_ne_none _

def WalletOperation.Transfers (operation : WalletOperation) (job : JobId) : Prop :=
  ∃ blobObjectId owner ns blobId preparation,
    operation = .setMetadataAndTransfer blobObjectId owner ns job blobId preparation

instance (operation : WalletOperation) (job : JobId) : Decidable (operation.Unclaimed job) :=
  match operation with
  | .uploadAndTransfer preparation owner ns id none =>
    decidable_of_iff (id = job) ⟨fun same => ⟨preparation,owner,ns,same ▸ rfl⟩,fun ⟨_,_,_,same⟩ => by cases same; rfl⟩
  | .uploadAndTransfer _ _ _ _ (some _) => isFalse (fun ⟨_,_,_,same⟩ => nomatch same)
  | .setMetadataAndTransfer .. => isFalse (fun ⟨_,_,_,same⟩ => nomatch same)
  | .finalizeUploadedBlob .. => isFalse (fun ⟨_,_,_,same⟩ => nomatch same)

-- A delivery that finds a blob to transfer has come around to the wallet of the
-- journal: attempts rotate the wallet, recoveries draw a new one.
def rotatesBack (config : Config) (s : System) (worker : Nat) : Op → Choice → Bool
  | .select job,c => decide (c.fault = .none → ∀ d ∈ s.deliveries.get? worker, d.job.operation.Unclaimed job →
      ∀ row ∈ s.rows.get? job, row.blobId ≠ none → row.blobObjectId ≠ none → row.status ≠ .done →
        row.journal.uploadWalletIndex = walletIndexForUploadAttempt d.job.walletIndex d.attempt config.poolSize)
  | _,_ => true

structure Indexed (config : Config) (s : System) : Prop where
  pushed : ∀ pushed ∈ s.pushed, ∀ job, pushed.operation.Transfers job → Registers s job (some pushed.walletIndex)
  resumed : ∀ worker d job, s.deliveries.get? worker = some d → Resumes d job →
    Registers s job (walletIndexForUploadAttempt d.job.walletIndex d.attempt config.poolSize)

-- What a delivery has learnt otherwise is not about the blob.
theorem resumes_updated {statement : Statement} {rows : Except Unit Nat} {d : Delivery}
    (resumes : Resumes (noteUpdate statement rows d) job) : Resumes d job := by
  unfold Resumes at resumes
  rw [noteUpdate_job,noteUpdate_lastRead] at resumes
  exact resumes

theorem indexed_served (inv : Consistent config s) (allowed : Allowed config s k op)
    (back : rotatesBack config s k op c) (indexed : Indexed config s) : Indexed config (serve config s k op c).1 := by
  have grows : Grows config s (serve config s k op c).1 := grows_served inv allowed
  refine ⟨?_,?_⟩
  · intro pushed member id transfers
    rcases served_pushed member with before | rfl
    · exact (indexed.pushed pushed before id transfers).stays grows
    · refine Registers.stays grows ?_
      obtain ⟨blobObjectId,owner,ns,blobId,preparation,operation⟩ := transfers
      obtain ⟨recorded,last⟩ := allowed
      rw [operation] at recorded last
      obtain ⟨row,d,_,_,found,_,_,uploading,index⟩ := last
      obtain ⟨other,there,paid⟩ := recorded
      cases found.symm.trans there
      rcases index with journal | ⟨resumes,index⟩
      · exact ⟨row,found,paid ▸ Option.some_ne_none blobId,journal⟩
      · exact index ▸ indexed.resumed k d id uploading.delivery resumes
  · intro worker after id found resumes
    refine Registers.stays grows ?_
    rcases served_delivery found with ⟨_,before⟩ | ⟨rfl,noted⟩
    · exact indexed.resumed worker after id before resumes
    · cases noted with
      | same before => exact indexed.resumed worker after id before resumes
      | fetched task attempt job queued written =>
        subst written
        obtain ⟨_,read,nothing,_⟩ := resumes
        cases nothing
      | read job d fault before written =>
        subst written
        obtain ⟨unclaimed,row,read,paid,object,open_⟩ := resumes
        have mine : id = job := by
          obtain ⟨_,_,_,operation⟩ := unclaimed
          have owned := allowed d before
          rw [operation] at owned
          exact owned
        subst mine
        exact ⟨row,read,paid,of_decide_eq_true back fault d before unclaimed row read paid object open_⟩
      | updated jobs statement d before written =>
        subst written
        rw [noteUpdate_job,noteUpdate_attempt]
        exact indexed.resumed worker d id before (resumes_updated resumes)
      | pushed job d fault before written =>
        subst written
        exact indexed.resumed worker d id before resumes

theorem indexed_start (config : Config) : Indexed config {} where
  pushed _ member := nomatch member
  resumed _ _ _ found := nomatch found

theorem indexed_happened (inv : Consistent config s) (event : Event) (indexed : Indexed config s) :
    Indexed config (happen s event) := by
  have grows : Grows config s (happen s event) := grows_happened inv event
  refine ⟨?_,?_⟩
  · intro pushed member id transfers
    rw [happened_pushed] at member
    exact (indexed.pushed pushed member id transfers).stays grows
  · intro worker d id found resumes
    rw [happened_deliveries] at found
    exact (indexed.resumed worker d id found resumes).stays grows

theorem indexed_abandoned (indexed : Indexed config s) : Indexed config (abandon s k) := by
  refine ⟨indexed.pushed,?_⟩
  intro worker d id found resumes
  exact indexed.resumed worker d id (abandoned_delivery found).2 resumes

theorem transfer_signed_by_owner (config : Config) (moves : Moves)
    (back : ∀ i worker op c, Serves config moves i worker op c → rotatesBack config (state config moves i) worker op c)
    (i : Nat) : ∀ pushed ∈ (state config moves i).pushed, ∀ job, pushed.operation.Transfers job →
      ∃ row, (state config moves i).rows.get? job = some row ∧
        row.journal.uploadWalletIndex = some pushed.walletIndex := by
  intro pushed member job transfers
  have indexed : Indexed config (state config moves i) :=
    holds (indexed_start config) back (fun _ _ _ _ => indexed_served) (fun _ _ _ => indexed_abandoned)
      (fun _ event inv => indexed_happened inv event) i
  obtain ⟨row,found,_,same⟩ := indexed.pushed pushed member job transfers
  exact ⟨row,found,same⟩

-- The worker of the registration goes on, up to the certified step, and records
-- the blob.
def uploadRun : Moves :=
  registrationRun ++ turns 1 1 ++
  .spawn 5 (.sidecar 5) :: turns 5 7 ++ turns 1 3 ++
  .spawn 6 (.sidecar 6) :: turns 6 5 ++ .step 6 {number := 1} :: turns 6 1 ++ turns 1 3

-- It hands the transfer on itself.
def handOverRun : Moves := uploadRun ++ turns 1 1

theorem transfer_signed_by_owner_handOver :
    (state sampleConfig handOverRun 70).pushed ≠ [] ∧
    ∀ pushed ∈ (state sampleConfig handOverRun 70).pushed, ∀ job, pushed.operation.Transfers job →
      ∃ row, (state sampleConfig handOverRun 70).rows.get? job = some row ∧
        row.journal.uploadWalletIndex = some pushed.walletIndex :=
  ⟨by decide +kernel,transfer_signed_by_owner sampleConfig handOverRun
    (given_of_checks (K:=rotatesBack sampleConfig) (by decide +kernel)) 70⟩

-- It dies before that. The second attempt finds the blob and signs with the second
-- wallet of the pool.
def rotatedRun : Moves := uploadRun ++ .crash 1 :: .spawn 7 (.wallet 1 2) :: turns 7 4

theorem transfer_signed_by_another :
    ¬ ∀ pushed ∈ (state sampleConfig rotatedRun 75).pushed, ∀ job, pushed.operation.Transfers job →
      ∃ row, (state sampleConfig rotatedRun 75).rows.get? job = some row ∧
        row.journal.uploadWalletIndex = some pushed.walletIndex := by
  intro signed
  have member : buildResumeTransferJob 1 0 ⟨[0]⟩ 7 "owner" "ns" ⟨[0],[0],50,"account","key"⟩ ∈
      (state sampleConfig rotatedRun 75).pushed := by decide +kernel
  obtain ⟨row,found,index⟩ := signed _ member 0 ⟨7,"owner","ns",⟨[0]⟩,_,rfl⟩
  have first : ((state sampleConfig rotatedRun 75).rows.get? 0).map (fun row => row.journal.uploadWalletIndex) =
      some (some 0) := by decide +kernel
  rw [found,Option.map_some,index] at first
  cases first

end MemWal.Remember
