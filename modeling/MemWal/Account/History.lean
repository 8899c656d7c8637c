import MemWal.Account.Representation

namespace MemWal.Account
open Library Library.Fallible Library.Runs

-- What one transaction can do to one existing account. The owner, the
-- provenance and the creation time are in no case touched.
inductive AccountStep (H : Hash256) (tx : Tx) (id : ID) (a : MemWalAccount) : MemWalAccount → Prop where
  | same : AccountStep H tx id a a
  | added (key : DelegateKey) :
      ((∃ label clock, tx.call = .addDelegateKey id key.publicKey label clock) ∨
        ∃ cap label createdAt proof sides,
          tx.call = .legacyImportDelegateKey cap id key.publicKey label createdAt proof sides) →
      deriveSuiAddress H key.publicKey = .ok key.suiAddress →
      AccountStep H tx id a {a with delegateKeys := a.delegateKeys ++ [key]}
  | removed (publicKey : Bytes) (counter : UInt64) :
      tx.call = .removeDelegateKey id publicKey →
      counter.toNat = a.accessCounterVersion.toNat + 1 →
      AccountStep H tx id a {a with
        delegateKeys := a.delegateKeys.eraseP (fun key => key.publicKey = publicKey)
        accessCounterVersion := counter}
  | deactivated (counter : UInt64) :
      tx.call = .deactivateAccount id → counter.toNat = a.accessCounterVersion.toNat + 1 →
      AccountStep H tx id a {a with active := false, accessCounterVersion := counter}
  | quarantined (counter : UInt64) :
      tx.call = .adminDeactivateAccount id → a.adminQuarantined = false →
      counter.toNat = a.accessCounterVersion.toNat + 1 →
      AccountStep H tx id a {a with
        active := false, adminQuarantined := true, accessCounterVersion := counter}
  | cleared : tx.call = .adminClearQuarantine id → a.adminQuarantined = true →
      AccountStep H tx id a {a with adminQuarantined := false}
  | reactivated (counter : UInt64) :
      tx.call = .reactivateAccount id → tx.sender = a.owner → a.adminQuarantined = false →
      a.active = false → a.accessCounterVersion.toNat ≤ counter.toNat →
      AccountStep H tx id a {a with active := true, accessCounterVersion := counter}

theorem touched {H : Hash256} {w : World} {tx : Tx} {id j : ID} {a b c : MemWalAccount}
    (found : w.accounts.get? j = some c) (stored : w.accounts.get? id = some a)
    (step : id = j → AccountStep H tx id a b) :
    ∃ d, (w.accounts.put j b).get? id = some d ∧ AccountStep H tx id a d := by
  by_cases equal : id = j
  · exact ⟨b,by simp [Store.get?_put found,equal],step equal⟩
  · exact ⟨a,by simpa [Store.get?_put found,equal] using stored,.same⟩

theorem effect_account {H : Hash256} {w next : World} {tx : Tx} {id : ID} {a : MemWalAccount}
    (valid : Represents H w) (stored : w.accounts.get? id = some a) (effect : Effect H w tx next) :
    ∃ b, next.accounts.get? id = some b ∧ AccountStep H tx id a b := by
  -- An account created now sits under a fresh id, never under this one.
  have other : ∀ created : MemWalAccount, created.id ∉ w.objectIds →
      (w.accounts.insert created.id created).get? id = some a := by
    intro created fresh
    have differs : id ≠ created.id := fun equal => fresh (equal ▸ valid.issued id a stored)
    have missing : w.accounts.get? created.id = none := by
      cases old : w.accounts.get? created.id with
      | none => rfl
      | some _ => exact absurd (valid.issued _ _ old) fresh
    simpa [Store.get?_insert created missing,differs] using stored
  have agree : ∀ {j : ID} {c : MemWalAccount}, w.accounts.get? j = some c → id = j → c = a := by
    intro j c found equal
    subst equal
    exact Option.some.inj (found.symm.trans stored)
  cases effect with
  | custody => exact ⟨a,stored,.same⟩
  | native clock events called fresh => exact ⟨a,other ⟨tx.fresh,_,_,_,_,_,_,_⟩ fresh,.same⟩
  | added j c key events called found owner final length short room absent address =>
    refine touched found stored ?_
    intro equal
    cases agree found equal
    subst equal
    exact .added key (.inl ⟨_,_,called⟩) (derived_address length address)
  | removed j c publicKey key counter events called found owner final present bumped =>
    refine touched found stored ?_
    intro equal
    cases agree found equal
    subst equal
    exact .removed publicKey counter called bumped
  | deactivated j c counter events called found owner final active bumped =>
    refine touched found stored ?_
    intro equal
    cases agree found equal
    subst equal
    exact .deactivated counter called bumped
  | quarantined j c counter events called found calm bumped =>
    refine touched found stored ?_
    intro equal
    cases agree found equal
    subst equal
    exact .quarantined counter called calm bumped
  | cleared j c events called found held =>
    refine touched found stored ?_
    intro equal
    cases agree found equal
    subst equal
    exact .cleared called held
  | reactivated j c counter events called found owner final calm idle grown =>
    refine touched found stored ?_
    intro equal
    cases agree found equal
    subst equal
    exact .reactivated counter called owner.symm calm idle grown
  | pinned => exact ⟨a,stored,.same⟩
  | migrated => exact ⟨a,stored,.same⟩
  | finalized => exact ⟨a,stored,.same⟩
  | importedAccount capId legacyAccountId owner active createdAt proof sides root imported events called
      fresh => exact ⟨a,other ⟨tx.fresh,_,_,_,_,_,_,_⟩ fresh,.same⟩
  | importedDelegate capId j c legacyAccountId key proof sides root imported events called found open_
      pinned legacy length short proven absent room below address counted =>
    refine touched found stored ?_
    intro equal
    cases agree found equal
    subst equal
    exact .added key (.inr ⟨_,_,_,_,_,called⟩) (derived_address length address)
  | unchanged => exact ⟨a,stored,.same⟩

theorem settle_account {H : Hash256} {w : World} (tx : Tx) {id : ID} {a : MemWalAccount}
    (valid : Represents H w) (stored : w.accounts.get? id = some a) :
    ∃ b, (settle (execute H) w tx).accounts.get? id = some b ∧ AccountStep H tx id a b := by
  rcases settle_cases (execute H) w tx with ⟨next,ran,equal⟩ | equal
  · rw [equal]
    exact effect_account valid stored (execute_effect ran)
  · rw [equal]
    exact ⟨a,stored,.same⟩

theorem AccountStep.owner {H : Hash256} {tx : Tx} {id : ID} {a b : MemWalAccount}
    (step : AccountStep H tx id a b) : b.owner = a.owner := by cases step <;> rfl

theorem AccountStep.counter {H : Hash256} {tx : Tx} {id : ID} {a b : MemWalAccount}
    (step : AccountStep H tx id a b) : a.accessCounterVersion ≤ b.accessCounterVersion := by
  rw [UInt64.le_iff_toNat_le]
  cases step with
  | same => exact Nat.le_refl _
  | added => exact Nat.le_refl _
  | removed _ counter _ bumped => exact Nat.le_of_lt (by simp only; omega)
  | deactivated counter _ bumped => exact Nat.le_of_lt (by simp only; omega)
  | quarantined counter _ _ bumped => exact Nat.le_of_lt (by simp only; omega)
  | cleared => exact Nat.le_refl _
  | reactivated counter _ _ _ _ grown => exact grown

-- The runs of the module, from publication on.
structure Genesis where
  registryId : ID
  adminCapId : ID
  publisher : Address

def stateAt (H : Hash256) (g : Genesis) (txs : List Tx) (i : Nat) : World :=
  before (execute H) (init g.registryId g.adminCapId g.publisher) txs i

section Runs
variable {H : Hash256} {g : Genesis} {txs : List Tx} {id : ID}

theorem stateAt_represents (i : Nat) : Represents H (stateAt H g txs i) :=
  reached_represents H g.registryId g.adminCapId g.publisher txs i

theorem stateAt_succ {tx : Tx} {i : Nat} (called : txs[i]? = some tx) :
    stateAt H g txs (i+1) = settle (execute H) (stateAt H g txs i) tx := before_succ called

-- A fact about one account survives up to `j` when every transaction before
-- `j` keeps it, failing ones being no step at all.
theorem account_between {P : MemWalAccount → Prop} {i j : Nat} (order : i ≤ j)
    (start : ∃ a, (stateAt H g txs i).accounts.get? id = some a ∧ P a)
    (keep : ∀ k tx a b, i ≤ k → k < j → txs[k]? = some tx →
      (stateAt H g txs k).accounts.get? id = some a → P a → AccountStep H tx id a b →
      (stateAt H g txs (k+1)).accounts.get? id = some b → P b) :
    ∃ b, (stateAt H g txs j).accounts.get? id = some b ∧ P b := by
  refine stays_between (P:=fun w : World => ∃ a, w.accounts.get? id = some a ∧ P a) order start ?_
  intro k tx low high called held
  obtain ⟨a,stored,holds⟩ := held
  obtain ⟨b,next,step⟩ := settle_account tx (stateAt_represents (H:=H) (g:=g) k) stored
  refine ⟨b,next,keep k tx a b low high called stored holds step ?_⟩
  rw [stateAt_succ called]
  exact next

theorem counter_grows {i j : Nat} {a : MemWalAccount} (order : i ≤ j)
    (stored : (stateAt H g txs i).accounts.get? id = some a) :
    ∃ b, (stateAt H g txs j).accounts.get? id = some b ∧
      a.accessCounterVersion ≤ b.accessCounterVersion ∧ b.owner = a.owner := by
  refine account_between (P:=fun b => a.accessCounterVersion ≤ b.accessCounterVersion ∧
    b.owner = a.owner) order ⟨a,stored,UInt64.le_refl _,rfl⟩ ?_
  intro k tx b c _ _ _ _ held step _
  exact ⟨UInt64.le_trans held.1 step.counter,step.owner.trans held.2⟩

end Runs
end MemWal.Account
