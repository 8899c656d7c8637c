import MemWal.Account.Module
import MemWal.Library.Runs

namespace MemWal.Account
open Library Library.Fallible

inductive Call where
  | transferAdminCap (target : Address)
  | transferMigrationCap (cap : ID) (target : Address)
  | createAccount (clock : UInt64)
  | addDelegateKey (account : ID) (publicKey label : Bytes) (clock : UInt64)
  | removeDelegateKey (account : ID) (publicKey : Bytes)
  | deactivateAccount (account : ID)
  | adminDeactivateAccount (account : ID)
  | adminClearQuarantine (account : ID)
  | reactivateAccount (account : ID)
  | migrateRegistry
  | pinAllowlistRoot (root : Bytes) (expectedAccountImports expectedDelegateImports : UInt64)
  | repinAllowlistRoot (root : Bytes) (expectedAccountImports expectedDelegateImports : UInt64)
  | mintMigrationCap (allowlistRoot : Bytes)
  | burnMigrationCap (cap : ID)
  | finalizeMigration (clock : UInt64) (completionEvidenceSha256 : Bytes) (evidenceExpiresAtMs : UInt64)
  | legacyImportAccount (cap : ID) (legacyAccountId : ID) (owner : Address) (active : Bool)
      (createdAt : UInt64) (merkleProof : List Bytes) (siblingIsLeft : List Bool)
  | legacyImportDelegateKey (cap account : ID) (publicKey label : Bytes) (createdAt : UInt64)
      (merkleProof : List Bytes) (siblingIsLeft : List Bool)
  | sealApprove (id : Bytes) (account : ID)
  | sealEncryptFence (id : Bytes) (account : ID)
  deriving DecidableEq

-- `fresh` is the id `object::new` would return in this transaction.
structure Tx extends TxContext where
  call : Call
  deriving DecidableEq

structure World where
  registry : AccountRegistry
  accounts : Store ID MemWalAccount
  adminCap : AdminCap
  migrationCaps : Store ID MigrationCap
  objectIds : List ID
  events : List Event
  deriving DecidableEq

-- `init` at publish: an empty registry, and the AdminCap for the publisher.
def init (registryId adminCapId : ID) (publisher : Address) : World where
  registry := {
    id := registryId
    accounts := .empty
    migrationFinalized := false
    pinnedAllowlistRoot := none
    expectedAccountImports := 0
    expectedDelegateImports := 0
    importedAccounts := 0
    importedDelegates := 0
    version := version }
  accounts := .empty
  adminCap := ⟨adminCapId,publisher⟩
  migrationCaps := .empty
  objectIds := [registryId,adminCapId]
  events := []

namespace World

def fetchAccount (w : World) (id : ID) : Except Abort MemWalAccount :=
  require (w.accounts.get? id) .invalidInput

-- An owned object can be an input only of its holder's transactions.
def borrowAdminCap (w : World) (tx : Tx) : Except Abort Unit :=
  ensure (w.adminCap.holder = tx.sender) .invalidInput

def borrowMigrationCap (w : World) (tx : Tx) (id : ID) : Except Abort MigrationCap := do
  let cap ← require (w.migrationCaps.get? id) .invalidInput
  ensure (cap.holder = tx.sender) .invalidInput
  return cap

def newObject (w : World) (tx : Tx) : Except Abort Unit :=
  ensure (tx.fresh ∉ w.objectIds) .invalidInput

def emit (w : World) (events : List Event) : World := {w with events := w.events ++ events}

def withAccount (w : World) (id : ID) (account : MemWalAccount) : World :=
  {w with accounts := w.accounts.put id account}

def withRegistry (w : World) (registry : AccountRegistry) : World := {w with registry := registry}

def shareAccount (w : World) (account : MemWalAccount) : World :=
  {w with
    accounts := w.accounts.insert account.id account
    objectIds := account.id :: w.objectIds }

end World

def execute (H : Hash256) (w : World) (tx : Tx) : Except Abort World :=
  match tx.call with
  | .transferAdminCap target => do
    w.borrowAdminCap tx
    return {w with adminCap := transferAdminCap w.adminCap target}
  | .transferMigrationCap id target => do
    let cap ← w.borrowMigrationCap tx id
    return {w with migrationCaps := w.migrationCaps.put id (transferMigrationCap cap target)}
  | .createAccount clock => do
    w.newObject tx
    let (registry,account,events) ← createAccount w.registry clock tx.toTxContext
    return ((w.withRegistry registry).shareAccount account).emit events
  | .addDelegateKey id publicKey label clock => do
    let account ← w.fetchAccount id
    let (account,events) ← addDelegateKey H account w.registry publicKey label clock tx.toTxContext
    return (w.withAccount id account).emit events
  | .removeDelegateKey id publicKey => do
    let account ← w.fetchAccount id
    let (account,events) ← removeDelegateKey account w.registry publicKey tx.toTxContext
    return (w.withAccount id account).emit events
  | .deactivateAccount id => do
    let account ← w.fetchAccount id
    let (account,events) ← deactivateAccount account w.registry tx.toTxContext
    return (w.withAccount id account).emit events
  | .adminDeactivateAccount id => do
    w.borrowAdminCap tx
    let account ← w.fetchAccount id
    let (account,events) ← adminDeactivateAccount account
    return (w.withAccount id account).emit events
  | .adminClearQuarantine id => do
    w.borrowAdminCap tx
    let account ← w.fetchAccount id
    let (account,events) ← adminClearQuarantine w.registry account
    return (w.withAccount id account).emit events
  | .reactivateAccount id => do
    let account ← w.fetchAccount id
    let (account,events) ← reactivateAccount account w.registry tx.toTxContext
    return (w.withAccount id account).emit events
  | .migrateRegistry => do
    w.borrowAdminCap tx
    let (registry,events) ← migrateRegistry w.registry
    return (w.withRegistry registry).emit events
  | .pinAllowlistRoot root accounts delegates => do
    w.borrowAdminCap tx
    let (registry,events) ← pinAllowlistRoot w.registry root accounts delegates
    return (w.withRegistry registry).emit events
  | .repinAllowlistRoot root accounts delegates => do
    w.borrowAdminCap tx
    let (registry,events) ← repinAllowlistRoot w.registry root accounts delegates
    return (w.withRegistry registry).emit events
  | .mintMigrationCap root => do
    w.borrowAdminCap tx
    w.newObject tx
    let (cap,events) ← mintMigrationCap w.registry root tx.toTxContext
    return World.emit {w with
      migrationCaps := w.migrationCaps.insert cap.id cap
      objectIds := cap.id :: w.objectIds } events
  | .burnMigrationCap id => do
    let cap ← w.borrowMigrationCap tx id
    return World.emit {w with migrationCaps := w.migrationCaps.erase id} (burnMigrationCap cap)
  | .finalizeMigration clock evidence expires => do
    w.borrowAdminCap tx
    let (registry,events) ← finalizeMigration w.registry clock evidence expires
    return (w.withRegistry registry).emit events
  | .legacyImportAccount id legacyAccountId owner active createdAt proof sides => do
    let cap ← w.borrowMigrationCap tx id
    w.newObject tx
    let (registry,account,events) ← legacyImportAccount H cap w.registry legacyAccountId owner active
      createdAt proof sides tx.toTxContext
    return ((w.withRegistry registry).shareAccount account).emit events
  | .legacyImportDelegateKey id accountId publicKey label createdAt proof sides => do
    let cap ← w.borrowMigrationCap tx id
    let account ← w.fetchAccount accountId
    let (registry,account,events) ← legacyImportDelegateKey H cap w.registry account publicKey label
      createdAt proof sides
    return ((w.withRegistry registry).withAccount accountId account).emit events
  | .sealApprove id accountId => do
    let account ← w.fetchAccount accountId
    sealApprove id w.registry account tx.toTxContext
    return w
  | .sealEncryptFence id accountId => do
    let account ← w.fetchAccount accountId
    sealEncryptFence id w.registry account
    return w

-- What a successful transaction can do to the shared state, guards included.
-- Every invariant below is read off this one case analysis.
inductive Effect (H : Hash256) (w : World) (tx : Tx) : World → Prop where
  | custody (adminCap : AdminCap) (caps : Store ID MigrationCap) (ids : List ID) (events : List Event) :
      w.objectIds ⊆ ids → Effect H w tx {w with
        adminCap := adminCap, migrationCaps := caps, objectIds := ids, events := w.events ++ events}
  | native (clock : UInt64) (events : List Event) :
      tx.call = .createAccount clock → tx.fresh ∉ w.objectIds → w.registry.version = version →
      w.registry.migrationFinalized = true → w.registry.accounts.get? tx.sender = none →
      Effect H w tx (((w.withRegistry
        {w.registry with accounts := w.registry.accounts.insert tx.sender tx.fresh}).shareAccount
        ⟨tx.fresh,tx.sender,[],clock,true,false,none,0⟩).emit events)
  | added (id : ID) (a : MemWalAccount) (key : DelegateKey) (events : List Event) :
      tx.call = .addDelegateKey id key.publicKey key.label key.createdAt →
      w.accounts.get? id = some a → a.owner = tx.sender → w.registry.migrationFinalized = true →
      key.publicKey.length = 32 → key.label.length ≤ 64 → a.delegateKeys.length < 20 →
      (∀ other ∈ a.delegateKeys, other.publicKey ≠ key.publicKey) →
      key.suiAddress = H.apply (0 :: key.publicKey) →
      Effect H w tx ((w.withAccount id {a with delegateKeys := a.delegateKeys ++ [key]}).emit events)
  | removed (id : ID) (a : MemWalAccount) (publicKey : Bytes) (key : DelegateKey) (counter : UInt64)
      (events : List Event) :
      tx.call = .removeDelegateKey id publicKey → w.accounts.get? id = some a → a.owner = tx.sender →
      w.registry.migrationFinalized = true →
      a.delegateKeys.find? (fun key => key.publicKey = publicKey) = some key →
      counter.toNat = a.accessCounterVersion.toNat + 1 →
      Effect H w tx ((w.withAccount id {a with
        delegateKeys := a.delegateKeys.eraseP (fun key => key.publicKey = publicKey)
        accessCounterVersion := counter}).emit events)
  | deactivated (id : ID) (a : MemWalAccount) (counter : UInt64) (events : List Event) :
      tx.call = .deactivateAccount id → w.accounts.get? id = some a → a.owner = tx.sender →
      w.registry.migrationFinalized = true → a.active = true →
      counter.toNat = a.accessCounterVersion.toNat + 1 →
      Effect H w tx ((w.withAccount id {a with
        active := false, accessCounterVersion := counter}).emit events)
  | quarantined (id : ID) (a : MemWalAccount) (counter : UInt64) (events : List Event) :
      tx.call = .adminDeactivateAccount id → w.accounts.get? id = some a → a.adminQuarantined = false →
      counter.toNat = a.accessCounterVersion.toNat + 1 →
      Effect H w tx ((w.withAccount id {a with
        active := false, adminQuarantined := true, accessCounterVersion := counter}).emit events)
  | cleared (id : ID) (a : MemWalAccount) (events : List Event) :
      tx.call = .adminClearQuarantine id → w.accounts.get? id = some a → a.adminQuarantined = true →
      Effect H w tx ((w.withAccount id {a with adminQuarantined := false}).emit events)
  | reactivated (id : ID) (a : MemWalAccount) (counter : UInt64) (events : List Event) :
      tx.call = .reactivateAccount id → w.accounts.get? id = some a → a.owner = tx.sender →
      w.registry.migrationFinalized = true → a.adminQuarantined = false → a.active = false →
      a.accessCounterVersion.toNat ≤ counter.toNat →
      Effect H w tx ((w.withAccount id {a with
        active := true, accessCounterVersion := counter}).emit events)
  | pinned (root : Bytes) (accounts delegates : UInt64) (events : List Event) :
      (w.registry.pinnedAllowlistRoot = none ∨ w.registry.migrationFinalized = false ∧
        w.registry.importedAccounts = 0 ∧ w.registry.importedDelegates = 0) →
      Effect H w tx ((w.withRegistry {w.registry with
        pinnedAllowlistRoot := some root
        expectedAccountImports := accounts
        expectedDelegateImports := delegates}).emit events)
  | migrated (events : List Event) :
      w.registry.version < version →
      Effect H w tx ((w.withRegistry {w.registry with version := version}).emit events)
  | finalized (clock : UInt64) (evidence : Bytes) (expires : UInt64) (events : List Event) :
      tx.call = .finalizeMigration clock evidence expires →
      w.registry.migrationFinalized = false → w.registry.pinnedAllowlistRoot.isSome = true →
      w.registry.importedAccounts = w.registry.expectedAccountImports →
      w.registry.importedDelegates = w.registry.expectedDelegateImports →
      Effect H w tx ((w.withRegistry {w.registry with migrationFinalized := true}).emit events)
  | importedAccount (capId legacyAccountId : ID) (owner : Address) (active : Bool) (createdAt : UInt64)
      (proof : List Bytes) (sides : List Bool) (root : Bytes) (imported : UInt64) (events : List Event) :
      tx.call = .legacyImportAccount capId legacyAccountId owner active createdAt proof sides →
      tx.fresh ∉ w.objectIds → w.registry.migrationFinalized = false →
      w.registry.pinnedAllowlistRoot = some root →
      assertMigrationProof H root (migrationAccountLeaf H legacyAccountId owner active createdAt)
        proof sides = .ok () →
      w.registry.accounts.get? owner = none →
      w.registry.importedAccounts.toNat < w.registry.expectedAccountImports.toNat →
      imported.toNat = w.registry.importedAccounts.toNat + 1 →
      Effect H w tx (((w.withRegistry {w.registry with
        accounts := w.registry.accounts.insert owner tx.fresh
        importedAccounts := imported}).shareAccount
        ⟨tx.fresh,owner,[],createdAt,active,false,some legacyAccountId,0⟩).emit events)
  | importedDelegate (capId id : ID) (a : MemWalAccount) (legacyAccountId : ID) (key : DelegateKey)
      (proof : List Bytes) (sides : List Bool) (root : Bytes) (imported : UInt64) (events : List Event) :
      tx.call = .legacyImportDelegateKey capId id key.publicKey key.label key.createdAt proof sides →
      w.accounts.get? id = some a → w.registry.migrationFinalized = false →
      w.registry.pinnedAllowlistRoot = some root → a.legacyAccountId = some legacyAccountId →
      key.publicKey.length = 32 → key.label.length ≤ 64 →
      assertMigrationProof H root (H.digest (delegateLeafMessage legacyAccountId key.publicKey
        key.label key.createdAt)) proof sides = .ok () →
      (∀ other ∈ a.delegateKeys, other.publicKey ≠ key.publicKey) →
      a.delegateKeys.length < 20 →
      w.registry.importedDelegates.toNat < w.registry.expectedDelegateImports.toNat →
      key.suiAddress = H.apply (0 :: key.publicKey) →
      imported.toNat = w.registry.importedDelegates.toNat + 1 →
      Effect H w tx (((w.withRegistry {w.registry with importedDelegates := imported}).withAccount id
        {a with delegateKeys := a.delegateKeys ++ [key]}).emit events)
  | unchanged (events : List Event) : Effect H w tx (w.emit events)

theorem emit_nil (w : World) : w.emit [] = w := by simp [World.emit]

theorem addDelegateKey_effect {H : Hash256} {w : World} {tx : Tx} {id : ID}
    (called : tx.call = .addDelegateKey id publicKey label clock) (ran : execute H w tx = .ok next) :
    Effect H w tx next := by
  simp only [execute,called,World.fetchAccount,addDelegateKey,bind_ok,require_ok,ensure_ok,exists_const,
    pure_ok] at ran
  obtain ⟨a,found,result,⟨_,owner,final,_,_,short,room,distinct,address,derived,rfl⟩,rfl⟩ := ran
  obtain ⟨length,equal⟩ := deriveSuiAddress_ok derived
  exact .added id a ⟨publicKey,address,label,clock⟩ _ called found owner final length short room
    distinct equal

theorem removeDelegateKey_effect {H : Hash256} {w : World} {tx : Tx} {id : ID}
    (called : tx.call = .removeDelegateKey id publicKey) (ran : execute H w tx = .ok next) :
    Effect H w tx next := by
  simp only [execute,called,World.fetchAccount,bind_ok,require_ok,pure_ok] at ran
  obtain ⟨a,found,⟨b,events⟩,ran,rfl⟩ := ran
  obtain ⟨owner,final,⟨key,present⟩,counter,bumped,rfl⟩ := removeDelegateKey_ok ran
  exact .removed id a publicKey key counter _ called found owner final present bumped

theorem deactivateAccount_effect {H : Hash256} {w : World} {tx : Tx} {id : ID}
    (called : tx.call = .deactivateAccount id) (ran : execute H w tx = .ok next) :
    Effect H w tx next := by
  simp only [execute,called,World.fetchAccount,bind_ok,require_ok,pure_ok] at ran
  obtain ⟨a,found,⟨b,events⟩,ran,rfl⟩ := ran
  obtain ⟨owner,final,active,counter,bumped,rfl⟩ := deactivateAccount_ok ran
  exact .deactivated id a counter _ called found owner final active bumped

theorem withAccount_same {w : World} {id : ID} {a : MemWalAccount} (found : w.accounts.get? id = some a) :
    w.withAccount id a = w := by simp [World.withAccount,Store.put_same found]

theorem adminDeactivateAccount_effect {H : Hash256} {w : World} {tx : Tx} {id : ID}
    (called : tx.call = .adminDeactivateAccount id) (ran : execute H w tx = .ok next) :
    Effect H w tx next := by
  simp only [execute,called,World.borrowAdminCap,World.fetchAccount,bind_ok,require_ok,ensure_ok,
    exists_const,pure_ok] at ran
  obtain ⟨_,a,found,⟨b,events⟩,frozen,rfl⟩ := ran
  rcases adminDeactivateAccount_ok frozen with ⟨_,rfl,rfl⟩ | ⟨calm,counter,bumped,rfl⟩
  · simp only [withAccount_same found]
    exact .unchanged []
  · exact .quarantined id a counter _ called found calm bumped

theorem adminClearQuarantine_effect {H : Hash256} {w : World} {tx : Tx} {id : ID}
    (called : tx.call = .adminClearQuarantine id) (ran : execute H w tx = .ok next) :
    Effect H w tx next := by
  simp only [execute,called,World.borrowAdminCap,World.fetchAccount,adminClearQuarantine,bind_ok,
    require_ok,ensure_ok,exists_const,pure_ok] at ran
  obtain ⟨_,a,found,result,⟨_,answer⟩,rfl⟩ := ran
  split at answer
  · cases answer
    simp only [withAccount_same found]
    exact .unchanged []
  · rename_i held
    cases answer
    exact .cleared id a _ called found (by simpa using held)

theorem reactivateAccount_effect {H : Hash256} {w : World} {tx : Tx} {id : ID}
    (called : tx.call = .reactivateAccount id) (ran : execute H w tx = .ok next) :
    Effect H w tx next := by
  simp only [execute,called,World.fetchAccount,reactivateAccount,bind_ok,require_ok,ensure_ok,exists_const,
    pure_ok] at ran
  obtain ⟨a,found,result,⟨_,owner,final,calm,idle,turned⟩,rfl⟩ := ran
  split at turned
  · simp only [bind_ok,pure_ok] at turned
    obtain ⟨account,rotated,rfl⟩ := turned
    obtain ⟨counter,bumped,rfl⟩ := rotateAccessCounter_ok rotated
    exact .reactivated id a counter _ called found owner final calm idle (by omega)
  · cases turned
    exact .reactivated id a a.accessCounterVersion _ called found owner final calm idle (Nat.le_refl _)

theorem legacyImportAccount_effect {H : Hash256} {w : World} {tx : Tx}
    (called : tx.call = .legacyImportAccount capId legacyAccountId owner active createdAt proof sides)
    (ran : execute H w tx = .ok next) : Effect H w tx next := by
  simp only [execute,called,World.newObject,legacyImportAccount,bind_ok,require_ok,ensure_ok,exists_const,
    pure_ok] at ran
  obtain ⟨cap,_,fresh,result,⟨_,unlatched,root,pinned,same,_,proven,absent,room,imported,added,rfl⟩,rfl⟩ := ran
  subst same
  exact .importedAccount capId legacyAccountId owner active createdAt proof sides _ imported _ called
    fresh unlatched pinned proven absent (UInt64.lt_iff_toNat_lt.mp room) (checkedAdd_ok added)

theorem legacyImportDelegateKey_effect {H : Hash256} {w : World} {tx : Tx} {id : ID}
    (called : tx.call = .legacyImportDelegateKey capId id publicKey label createdAt proof sides)
    (ran : execute H w tx = .ok next) : Effect H w tx next := by
  simp only [execute,called,World.fetchAccount,legacyImportDelegateKey,migrationDelegateLeaf,bind_ok,
    require_ok,ensure_ok,exists_const,pure_ok] at ran
  obtain ⟨cap,_,a,found,result,⟨_,unlatched,root,pinned,same,legacyAccountId,legacy,length,short,
    leaf,⟨_,rfl⟩,_,proven,answer⟩,rfl⟩ := ran
  subst same
  split at answer
  · cases answer
    have unmoved : (w.withRegistry w.registry).withAccount id a = w := withAccount_same found
    simp only [unmoved]
    exact .unchanged []
  · rename_i absent
    simp only [bind_ok,ensure_ok,exists_const,pure_ok] at answer
    obtain ⟨room,below,address,derived,imported,added,rfl⟩ := answer
    exact .importedDelegate capId id a legacyAccountId ⟨publicKey,address,label,createdAt⟩ proof sides
      _ imported _ called found unlatched pinned legacy length short proven
      (fun other member equal => absent ⟨other,member,equal⟩) room (UInt64.lt_iff_toNat_lt.mp below)
      (deriveSuiAddress_ok derived).2 (checkedAdd_ok added)

theorem execute_effect {H : Hash256} {w next : World} {tx : Tx} (ran : execute H w tx = .ok next) :
    Effect H w tx next := by
  cases called : tx.call with
  | addDelegateKey => exact addDelegateKey_effect called ran
  | removeDelegateKey => exact removeDelegateKey_effect called ran
  | deactivateAccount => exact deactivateAccount_effect called ran
  | adminDeactivateAccount => exact adminDeactivateAccount_effect called ran
  | adminClearQuarantine => exact adminClearQuarantine_effect called ran
  | reactivateAccount => exact reactivateAccount_effect called ran
  | legacyImportAccount => exact legacyImportAccount_effect called ran
  | legacyImportDelegateKey => exact legacyImportDelegateKey_effect called ran
  | transferAdminCap target =>
    simp only [execute,called,World.borrowAdminCap,bind_ok,ensure_ok,exists_const,pure_ok] at ran
    obtain ⟨_,rfl⟩ := ran
    simpa using Effect.custody (H:=H) (w:=w) (transferAdminCap w.adminCap target)
      w.migrationCaps w.objectIds [] (List.Subset.refl _)
  | transferMigrationCap id target =>
    simp only [execute,called,bind_ok,pure_ok] at ran
    obtain ⟨cap,_,rfl⟩ := ran
    simpa using Effect.custody (H:=H) (w:=w) w.adminCap
      (w.migrationCaps.put id (transferMigrationCap cap target)) w.objectIds [] (List.Subset.refl _)
  | mintMigrationCap root =>
    simp only [execute,called,World.borrowAdminCap,World.newObject,mintMigrationCap,bind_ok,require_ok,
      ensure_ok,exists_const,pure_ok] at ran
    obtain ⟨_,_,result,⟨_,_,_,_,_,_,rfl⟩,rfl⟩ := ran
    exact .custody w.adminCap _ _ _ (List.subset_cons_self _ _)
  | burnMigrationCap id =>
    simp only [execute,called,bind_ok,pure_ok] at ran
    obtain ⟨cap,_,rfl⟩ := ran
    exact .custody w.adminCap _ _ _ (List.Subset.refl _)
  | createAccount clock =>
    simp only [execute,called,World.newObject,createAccount,bind_ok,ensure_ok,exists_const,pure_ok] at ran
    obtain ⟨fresh,result,⟨current,final,absent,rfl⟩,rfl⟩ := ran
    exact .native clock _ called fresh current final absent
  | migrateRegistry =>
    simp only [execute,called,World.borrowAdminCap,migrateRegistry,bind_ok,ensure_ok,exists_const,pure_ok] at ran
    obtain ⟨_,result,⟨older,rfl⟩,rfl⟩ := ran
    exact .migrated _ older
  | pinAllowlistRoot root accounts delegates =>
    simp only [execute,called,World.borrowAdminCap,pinAllowlistRoot,bind_ok,ensure_ok,exists_const,pure_ok] at ran
    obtain ⟨_,result,⟨_,_,unpinned,rfl⟩,rfl⟩ := ran
    exact .pinned root accounts delegates _ (.inl unpinned)
  | repinAllowlistRoot root accounts delegates =>
    simp only [execute,called,World.borrowAdminCap,repinAllowlistRoot,bind_ok,require_ok,ensure_ok,exists_const,
      pure_ok] at ran
    obtain ⟨_,result,⟨_,unlatched,_,_,_,zero,rfl⟩,rfl⟩ := ran
    exact .pinned root accounts delegates _ (.inr ⟨unlatched,zero⟩)
  | finalizeMigration clock evidence expires =>
    simp only [execute,called,World.borrowAdminCap,finalizeMigration,bind_ok,ensure_ok,exists_const,pure_ok] at ran
    obtain ⟨_,result,⟨_,unlatched,pinned,_,_,_,_,_,counts,rfl⟩,rfl⟩ := ran
    exact .finalized clock evidence expires _ called unlatched pinned counts.1 counts.2
  | sealApprove id accountId =>
    simp only [execute,called,bind_ok,pure_ok] at ran
    obtain ⟨_,_,_,_,rfl⟩ := ran
    simpa [emit_nil] using Effect.unchanged (H := H) (w := w) []
  | sealEncryptFence id accountId =>
    simp only [execute,called,bind_ok,pure_ok] at ran
    obtain ⟨_,_,_,_,rfl⟩ := ran
    simpa [emit_nil] using Effect.unchanged (H := H) (w := w) []

end MemWal.Account
