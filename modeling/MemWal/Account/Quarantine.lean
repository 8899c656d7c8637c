import MemWal.Account.Revocation
import MemWal.Library.Blake2b

namespace MemWal.Account
open Library Library.Fallible Library.Runs

theorem quarantine_idles_step {H : Hash256} {tx : Tx} {id : ID} {a b : MemWalAccount}
    (idle : a.adminQuarantined = true → a.active = false) (step : AccountStep H tx id a b) :
    b.adminQuarantined = true → b.active = false := by
  cases step with
  | same | added | removed => exact idle
  | deactivated | quarantined => intro _; rfl
  | cleared => intro held; cases held
  | reactivated counter called owner calm => intro held; rw [calm] at held; cases held

def Contained (w : World) : Prop :=
  ∀ id a, w.accounts.get? id = some a → a.adminQuarantined = true → a.active = false

-- New accounts arrive unquarantined, imported inactive ones included.
theorem effect_contained {H : Hash256} {w next : World} {tx : Tx} (valid : Represents H w)
    (contained : Contained w) (effect : Effect H w tx next) : Contained next := by
  intro id b after
  cases stored : w.accounts.get? id with
  | some a =>
    obtain ⟨c,now,step⟩ := effect_account valid stored effect
    cases Option.some.inj (now.symm.trans after)
    exact quarantine_idles_step (contained id a stored) step
  | none =>
    have put : ∀ {j : ID} {c d : MemWalAccount}, w.accounts.get? j = some c →
        (w.accounts.put j d).get? id = some b → b.adminQuarantined = true → b.active = false := by
      intro j c d found changed
      rw [Store.get?_put found] at changed
      split at changed
      · rename_i equal
        rw [← equal,stored] at found
        cases found
      · rw [stored] at changed
        cases changed
    have insert : ∀ {a : MemWalAccount}, a.adminQuarantined = false → a.id ∉ w.objectIds →
        (w.accounts.insert a.id a).get? id = some b → b.adminQuarantined = true → b.active = false := by
      intro a calm fresh changed
      have missing : w.accounts.get? a.id = none := by
        cases old : w.accounts.get? a.id with
        | none => rfl
        | some _ => exact absurd (valid.issued _ _ old) fresh
      rw [Store.get?_insert a missing] at changed
      split at changed
      · cases changed
        intro held
        rw [calm] at held
        cases held
      · rw [stored] at changed
        cases changed
    cases effect with
    | native clock events called fresh =>
      exact insert (a:=⟨tx.fresh,tx.sender,[],clock,true,false,none,0⟩) rfl fresh after
    | importedAccount capId legacyAccountId owner active createdAt proof sides root imported events
        called fresh =>
      exact insert (a:=⟨tx.fresh,owner,[],createdAt,active,false,some legacyAccountId,0⟩) rfl fresh after
    | added j c key events called found => exact put found after
    | removed j c publicKey key counter events called found => exact put found after
    | deactivated j c counter events called found => exact put found after
    | quarantined j c counter events called found => exact put found after
    | cleared j c events called found => exact put found after
    | reactivated j c counter events called found => exact put found after
    | importedDelegate capId j c legacyAccountId key proof sides root imported events called found =>
      exact put found after
    | custody | pinned | migrated | finalized | unchanged =>
      cases stored.symm.trans after

theorem stateAt_contained (H : Hash256) (g : Genesis) (txs : List Tx) (i : Nat) :
    Contained (stateAt H g txs i) := by
  have both : Represents H (stateAt H g txs i) ∧ Contained (stateAt H g txs i) :=
    invariant_before (I:=fun w => Represents H w ∧ Contained w)
    ⟨init_represents H g.registryId g.adminCapId g.publisher,by intro id a stored; cases stored⟩
    (fun w tx next valid ran => ⟨execute_represents w tx next valid.1 ran,
      effect_contained valid.1 valid.2 (execute_effect ran)⟩) txs i
  exact both.2

section Interval
variable (H : Hash256) (g : Genesis) (txs : List Tx) (account : ID)

def Quarantines (w : World) (tx : Tx) : Prop :=
  tx.call = .adminDeactivateAccount account ∧ Succeeds H w tx ∧
    ∃ a, w.accounts.get? account = some a ∧ a.adminQuarantined = false

def Clears (w : World) (tx : Tx) : Prop :=
  tx.call = .adminClearQuarantine account ∧ Succeeds H w tx

-- No `admin_clear_quarantine` followed by a `reactivate_account` in between.
def Unreleased (j i : Nat) : Prop :=
  ¬ ∃ m n clear turn, j < m ∧ m < n ∧ n < i ∧ txs[m]? = some clear ∧ txs[n]? = some turn ∧
    Clears H account (stateAt H g txs m) clear ∧ Reactivates H (stateAt H g txs n) turn account

variable {H g txs account}

theorem quarantines_holds {tx : Tx} {j : Nat} (called : txs[j]? = some tx)
    (set : Quarantines H account (stateAt H g txs j) tx) :
    ∃ a, (stateAt H g txs (j+1)).accounts.get? account = some a ∧ a.adminQuarantined = true := by
  rw [stateAt_succ called]
  obtain ⟨call,ran,a,stored,calm⟩ := set
  have ran := settle_succeeds ran
  simp only [execute,call,World.borrowAdminCap,World.fetchAccount,bind_ok,require_ok,ensure_ok,
    exists_const,pure_ok] at ran
  obtain ⟨_,c,found,⟨b,events⟩,ran,equal⟩ := ran
  cases Option.some.inj (found.symm.trans stored)
  rcases adminDeactivateAccount_ok ran with ⟨held,_⟩ | ⟨_,counter,_,rfl⟩
  · rw [calm] at held
    cases held
  · exact ⟨_,updated found equal,rfl⟩

theorem held_until_cleared {j i : Nat} (order : j ≤ i)
    (start : ∃ a, (stateAt H g txs j).accounts.get? account = some a ∧ a.adminQuarantined = true)
    (quiet : ∀ m call, j ≤ m → m < i → txs[m]? = some call →
      ¬ Clears H account (stateAt H g txs m) call) :
    ∃ b, (stateAt H g txs i).accounts.get? account = some b ∧ b.adminQuarantined = true := by
  refine account_between order start ?_
  intro m call a b low high attempted stored held step next
  cases step with
  | cleared turned =>
    rcases moved_or_succeeds stored attempted next with unmoved | ran
    · rw [unmoved] at held
      cases held
    · exact absurd ⟨turned,ran⟩ (quiet m call low high attempted)
  | quarantined => rfl
  | same | added | removed | deactivated | reactivated => exact held

theorem reactivates_calm {w : World} {tx : Tx} (turned : Reactivates H w tx account) :
    ∃ a, w.accounts.get? account = some a ∧ a.adminQuarantined = false := by
  obtain ⟨call,next,ran⟩ := turned
  simp only [execute,call,World.fetchAccount,reactivateAccount,bind_ok,require_ok,ensure_ok,
    exists_const] at ran
  obtain ⟨a,found,_,⟨_,_,_,calm,_⟩,_⟩ := ran
  exact ⟨a,found,calm⟩

-- The owner cannot come back on its own: before every reactivation that
-- succeeds after the quarantine there is a clear.
theorem unreleased_idle {tx : Tx} {j i : Nat} (order : j < i) (called : txs[j]? = some tx)
    (set : Quarantines H account (stateAt H g txs j) tx) (closed : Unreleased H g txs account j i) :
    ∃ b, (stateAt H g txs i).accounts.get? account = some b ∧ b.active = false := by
  obtain ⟨a,stored,held⟩ := quarantines_holds called set
  refine idle_until_reactivated order ⟨a,stored,stateAt_contained H g txs (j+1) account a stored held⟩ ?_
  intro n turn low high attempted turned
  obtain ⟨b,now,calm⟩ := reactivates_calm turned
  obtain ⟨c,now',stillHeld⟩ := held_until_cleared low ⟨a,stored,held⟩ (by
    intro m clear after before at_ cleared
    exact closed ⟨m,n,clear,turn,after,before,high,at_,attempted,cleared,turned⟩)
  cases Option.some.inj (now'.symm.trans now)
  rw [calm] at stillHeld
  cases stillHeld

theorem retry_inert {retry : Tx} {j i : Nat} (order : j < i) (attempted : txs[i]? = some retry)
    (call : retry.call = .adminDeactivateAccount account)
    (start : ∃ a, (stateAt H g txs (j+1)).accounts.get? account = some a ∧ a.adminQuarantined = true)
    (quiet : ∀ m clear, j < m → m < i → txs[m]? = some clear →
      ¬ Clears H account (stateAt H g txs m) clear) :
    (stateAt H g txs (i+1)).accounts.get? account = (stateAt H g txs i).accounts.get? account := by
  obtain ⟨a,stored,held⟩ := held_until_cleared order start quiet
  obtain ⟨b,next,step⟩ := settle_account retry (stateAt_represents (H:=H) (g:=g) i) stored
  rw [stateAt_succ attempted,stored,next]
  cases step with
  | same => rfl
  | quarantined counter called calm => rw [held] at calm; cases calm
  | added key kind =>
    rcases kind with ⟨_,_,called⟩ | ⟨_,_,_,_,_,called⟩
    all_goals rw [call] at called; cases called
  | removed publicKey counter called => rw [call] at called; cases called
  | deactivated counter called => rw [call] at called; cases called
  | cleared called => rw [call] at called; cases called
  | reactivated counter called => rw [call] at called; cases called

end Interval

-- A retry is inert while the quarantine it repeats still stands. After a clear
-- the same call is a new quarantine, with its own rotation.
theorem quarantine_contains (H : Hash256) (g : Genesis) (txs : List Tx) (account : ID) :
    (∀ i id a, (stateAt H g txs i).accounts.get? id = some a → a.adminQuarantined = true →
      a.active = false) ∧
    (∀ j i tx later caller id, j < i → txs[j]? = some tx → txs[i]? = some later →
      Quarantines H account (stateAt H g txs j) tx → Unreleased H g txs account j i →
      ¬ Approves H (stateAt H g txs i) later account caller id) ∧
    (∀ j i tx retry, j < i → txs[j]? = some tx → txs[i]? = some retry →
      Quarantines H account (stateAt H g txs j) tx → Unreleased H g txs account j i →
      retry.call = .adminDeactivateAccount account →
      (∀ m clear, j < m → m < i → txs[m]? = some clear →
        ¬ Clears H account (stateAt H g txs m) clear) →
      (stateAt H g txs (i+1)).accounts.get? account = (stateAt H g txs i).accounts.get? account) := by
  refine ⟨fun i => stateAt_contained H g txs i,?_,?_⟩
  · intro j i tx later caller id order called _ set closed
    exact idle_never_approves (unreleased_idle order called set closed)
  · intro j i tx retry order called attempted set _ call quiet
    exact retry_inert order attempted call (quarantines_holds called set) quiet

-- A publisher, an owner, and the run: pin an empty snapshot, finalize, create
-- the account, quarantine it, clear it, and call `admin_deactivate_account` again.
def requarantineRun : List Tx :=
  [⟨⟨sample 1,sample 11⟩,.pinAllowlistRoot (List.replicate 32 0) 0 0⟩,
   ⟨⟨sample 1,sample 12⟩,.finalizeMigration 0 (List.replicate 32 0) 0⟩,
   ⟨⟨sample 2,sample 13⟩,.createAccount 5⟩,
   ⟨⟨sample 1,sample 14⟩,.adminDeactivateAccount (sample 13)⟩,
   ⟨⟨sample 1,sample 15⟩,.adminClearQuarantine (sample 13)⟩,
   ⟨⟨sample 1,sample 16⟩,.adminDeactivateAccount (sample 13)⟩]

def requarantineState (i : Nat) : World :=
  stateAt Blake2b.hash256 ⟨sample 9,sample 10,sample 1⟩ requarantineRun i

-- Read over the whole interval, with the clear in it, the retry clause fails.
theorem requarantine_changes_account :
    ¬ ∀ (H : Hash256) (g : Genesis) (txs : List Tx) (account : ID) (j i : Nat) (tx retry : Tx),
      j < i → txs[j]? = some tx → txs[i]? = some retry →
      Quarantines H account (stateAt H g txs j) tx → Unreleased H g txs account j i →
      retry.call = .adminDeactivateAccount account →
      (stateAt H g txs (i+1)).accounts.get? account = (stateAt H g txs i).accounts.get? account := by
  intro inert
  have call : ∀ tx ∈ requarantineRun, tx.call ≠ .reactivateAccount (sample 13) := by decide
  have set : Quarantines Blake2b.hash256 (sample 13) (requarantineState 3)
      ⟨⟨sample 1,sample 14⟩,.adminDeactivateAccount (sample 13)⟩ := by
    refine ⟨rfl,⟨_,rfl⟩,_,rfl,rfl⟩
  have closed : Unreleased Blake2b.hash256 ⟨sample 9,sample 10,sample 1⟩ requarantineRun (sample 13) 3 5 := by
    intro found
    obtain ⟨m,n,clear,turn,_,_,_,_,at_,_,turned,_⟩ := found
    exact call turn (List.mem_of_getElem? at_) turned
  have equal := inert Blake2b.hash256 ⟨sample 9,sample 10,sample 1⟩ requarantineRun (sample 13) 3 5 _ _
    (by decide) rfl rfl set closed rfl
  have differs : (requarantineState 6).accounts.get? (sample 13) ≠
      (requarantineState 5).accounts.get? (sample 13) := by decide +kernel
  exact differs equal

end MemWal.Account
