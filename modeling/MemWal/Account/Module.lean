import MemWal.Account.Types

namespace MemWal.Account
open Library Library.Fallible
variable (H : Hash256)

def bcsU64 (value : UInt64) : Bytes := Bytes.writeLe 8 value.toNat
def bcsBool (value : Bool) : Bytes := [if value then 1 else 0]

def deriveSuiAddress (publicKey : Bytes) : Except Abort Address := do
  ensure (publicKey.length = ed25519PublicKeyLength) .EInvalidPublicKeyLength
  return H.apply (0 :: publicKey)

def rotateAccessCounter (account : MemWalAccount) : Except Abort MemWalAccount := do
  let next ← checkedAdd account.accessCounterVersion 1
  return {account with accessCounterVersion := next}

-- Capability custody, accounts and delegate keys

def transferAdminCap (cap : AdminCap) (target : Address) : AdminCap := {cap with holder := target}
def transferMigrationCap (cap : MigrationCap) (target : Address) : MigrationCap := {cap with holder := target}

def createAccount (registry : AccountRegistry) (clock : UInt64) (ctx : TxContext) :
    Except Abort (AccountRegistry × MemWalAccount × List Event) := do
  ensure (registry.version = version) .EWrongVersion
  ensure (registry.migrationFinalized = true) .EMigrationInProgress
  let sender := ctx.sender
  ensure (registry.accounts.get? sender = none) .EAccountAlreadyExists
  let account : MemWalAccount := {
    id := ctx.fresh
    owner := sender
    delegateKeys := []
    createdAt := clock
    active := true
    adminQuarantined := false
    legacyAccountId := none
    accessCounterVersion := 0 }
  return ({registry with accounts := registry.accounts.insert sender account.id},account,
    [.accountCreated account.id sender])

def addDelegateKey (account : MemWalAccount) (registry : AccountRegistry) (publicKey label : Bytes)
    (clock : UInt64) (ctx : TxContext) : Except Abort (MemWalAccount × List Event) := do
  ensure (registry.version = version) .EWrongVersion
  ensure (account.owner = ctx.sender) .ENotOwner
  ensure (registry.migrationFinalized = true) .EMigrationInProgress
  ensure (account.active = true) .EAccountDeactivated
  ensure (publicKey.length = ed25519PublicKeyLength) .EInvalidPublicKeyLength
  ensure (label.length ≤ maxLabelLength) .ELabelTooLong
  ensure (account.delegateKeys.length < maxDelegateKeys) .ETooManyDelegateKeys
  ensure (∀ key ∈ account.delegateKeys, key.publicKey ≠ publicKey) .EDelegateKeyAlreadyExists
  let suiAddress ← deriveSuiAddress H publicKey
  let key : DelegateKey := ⟨publicKey,suiAddress,label,clock⟩
  return ({account with delegateKeys := account.delegateKeys ++ [key]},
    [.delegateKeyAdded account.id key.publicKey key.suiAddress key.label])

-- The first key with these bytes goes, and the counter with it. There is no
-- `active` check: a frozen account can still be purged.
def removeDelegateKey (account : MemWalAccount) (registry : AccountRegistry) (publicKey : Bytes)
    (ctx : TxContext) : Except Abort (MemWalAccount × List Event) := do
  ensure (registry.version = version) .EWrongVersion
  ensure (account.owner = ctx.sender) .ENotOwner
  ensure (registry.migrationFinalized = true) .EMigrationInProgress
  let key ← require (account.delegateKeys.find? (fun key => key.publicKey = publicKey))
    .EDelegateKeyNotFound
  let account ← rotateAccessCounter
    {account with delegateKeys := account.delegateKeys.eraseP (fun key => key.publicKey = publicKey)}
  return (account,[.delegateKeyRemoved account.id publicKey key.suiAddress])

-- Activation and quarantine

def deactivateAccount (account : MemWalAccount) (registry : AccountRegistry) (ctx : TxContext) :
    Except Abort (MemWalAccount × List Event) := do
  ensure (registry.version = version) .EWrongVersion
  ensure (account.owner = ctx.sender) .ENotOwner
  ensure (registry.migrationFinalized = true) .EMigrationInProgress
  ensure (account.active = true) .EAccountDeactivated
  let account ← rotateAccessCounter {account with active := false}
  return (account,[.accountDeactivated account.id account.owner])

def adminDeactivateAccount (account : MemWalAccount) : Except Abort (MemWalAccount × List Event) := do
  if account.adminQuarantined then return (account,[])
  let account ← rotateAccessCounter {account with adminQuarantined := true}
  if account.active then
    return ({account with active := false},
      [.accountDeactivated account.id account.owner,.accountQuarantined account.id account.owner])
  return (account,[.accountQuarantined account.id account.owner])

def adminClearQuarantine (registry : AccountRegistry) (account : MemWalAccount) :
    Except Abort (MemWalAccount × List Event) := do
  ensure (registry.version = version) .EWrongVersion
  if !account.adminQuarantined then return (account,[])
  return ({account with adminQuarantined := false},
    [.accountQuarantineCleared account.id account.owner])

def reactivateAccount (account : MemWalAccount) (registry : AccountRegistry) (ctx : TxContext) :
    Except Abort (MemWalAccount × List Event) := do
  ensure (registry.version = version) .EWrongVersion
  ensure (account.owner = ctx.sender) .ENotOwner
  ensure (registry.migrationFinalized = true) .EMigrationInProgress
  ensure (account.adminQuarantined = false) .EAccountQuarantined
  ensure (account.active = false) .EAccountAlreadyActive
  let account ←
    if account.legacyAccountId.isSome ∧ account.accessCounterVersion = 0 then
      rotateAccessCounter account
    else pure account
  return ({account with active := true},[.accountReactivated account.id account.owner])

def migrateRegistry (registry : AccountRegistry) : Except Abort (AccountRegistry × List Event) := do
  let current := registry.version
  ensure (current < version) .EAlreadyMigrated
  return ({registry with version := version},[.registryMigrated registry.id current version])

-- The pinned snapshot and its caps

def pinAllowlistRoot (registry : AccountRegistry) (root : Bytes)
    (expectedAccountImports expectedDelegateImports : UInt64) :
    Except Abort (AccountRegistry × List Event) := do
  ensure (registry.version = version) .EWrongVersion
  ensure (root.length = merkleHashLength) .EInvalidMigrationProof
  ensure (registry.pinnedAllowlistRoot = none) .EAllowlistRootAlreadyPinned
  return ({registry with
      pinnedAllowlistRoot := some root
      expectedAccountImports := expectedAccountImports
      expectedDelegateImports := expectedDelegateImports },
    [.allowlistRootPinned registry.id root expectedAccountImports expectedDelegateImports])

def repinAllowlistRoot (registry : AccountRegistry) (root : Bytes)
    (expectedAccountImports expectedDelegateImports : UInt64) :
    Except Abort (AccountRegistry × List Event) := do
  ensure (registry.version = version) .EWrongVersion
  ensure (registry.migrationFinalized = false) .EMigrationFinalized
  ensure (root.length = merkleHashLength) .EInvalidMigrationProof
  let oldRoot ← require registry.pinnedAllowlistRoot .EAllowlistRootNotPinned
  ensure (registry.importedAccounts = 0 ∧ registry.importedDelegates = 0) .EAllowlistRepinAfterImport
  return ({registry with
      pinnedAllowlistRoot := some root
      expectedAccountImports := expectedAccountImports
      expectedDelegateImports := expectedDelegateImports },
    [.allowlistRootRepinned registry.id oldRoot root expectedAccountImports expectedDelegateImports])

def mintMigrationCap (registry : AccountRegistry) (allowlistRoot : Bytes) (ctx : TxContext) :
    Except Abort (MigrationCap × List Event) := do
  ensure (registry.version = version) .EWrongVersion
  ensure (registry.migrationFinalized = false) .EMigrationFinalized
  ensure (allowlistRoot.length = merkleHashLength) .EInvalidMigrationProof
  let pinned ← require registry.pinnedAllowlistRoot .EAllowlistRootNotPinned
  ensure (pinned = allowlistRoot) .EAllowlistRootMismatch
  return (⟨ctx.fresh,allowlistRoot,ctx.sender⟩,[.migrationCapMinted ctx.fresh])

def burnMigrationCap (cap : MigrationCap) : List Event := [.migrationCapBurned cap.id]

def finalizeMigration (registry : AccountRegistry) (clock : UInt64) (completionEvidenceSha256 : Bytes)
    (evidenceExpiresAtMs : UInt64) : Except Abort (AccountRegistry × List Event) := do
  ensure (registry.version = version) .EWrongVersion
  ensure (registry.migrationFinalized = false) .EMigrationFinalized
  ensure (registry.pinnedAllowlistRoot.isSome = true) .EAllowlistRootNotPinned
  ensure (completionEvidenceSha256.length = merkleHashLength) .EInvalidCompletionEvidence
  ensure (clock ≤ evidenceExpiresAtMs) .ECompletionEvidenceExpired
  let latest ← checkedAdd clock maxCompletionEvidenceTtlMs
  ensure (evidenceExpiresAtMs ≤ latest) .EInvalidCompletionEvidence
  ensure (registry.importedAccounts = registry.expectedAccountImports ∧
    registry.importedDelegates = registry.expectedDelegateImports) .EMigrationImportCountMismatch
  return ({registry with migrationFinalized := true},
    [.migrationFinalized registry.id completionEvidenceSha256 evidenceExpiresAtMs])

-- Allowlist leaves and inner nodes: three tagged byte layouts

def accountLeafMessage (legacyAccountId : ID) (owner : Address) (active : Bool) (createdAt : UInt64) : Bytes :=
  [4,0] ++ (legacyAccountId.bytes ++ (owner.bytes ++ (bcsBool active ++ bcsU64 createdAt)))

def delegateLeafMessage (legacyAccountId : ID) (publicKey label : Bytes) (createdAt : UInt64) : Bytes :=
  [4,1] ++ (legacyAccountId.bytes ++ (publicKey ++ (Bytes.writeBlock label ++ bcsU64 createdAt)))

def merkleParentMessage (left right : Bytes) : Bytes := [4,2] ++ (left ++ right)

def migrationAccountLeaf (legacyAccountId : ID) (owner : Address) (active : Bool) (createdAt : UInt64) : Bytes :=
  H.digest (accountLeafMessage legacyAccountId owner active createdAt)

def migrationDelegateLeaf (legacyAccountId : ID) (publicKey label : Bytes) (createdAt : UInt64) :
    Except Abort Bytes := do
  ensure (publicKey.length = ed25519PublicKeyLength) .EInvalidPublicKeyLength
  return H.digest (delegateLeafMessage legacyAccountId publicKey label createdAt)

def migrationMerkleParent (left right : Bytes) : Except Abort Bytes := do
  ensure (left.length = merkleHashLength) .EInvalidMigrationProof
  ensure (right.length = merkleHashLength) .EInvalidMigrationProof
  return H.digest (merkleParentMessage left right)

-- The loop of `assert_migration_proof`; the two vectors have one length there.
def foldMigrationProof (current : Bytes) : List Bytes → List Bool → Except Abort Bytes
  | sibling :: proof,siblingIsLeft :: sides => do
    let next ← if siblingIsLeft then migrationMerkleParent H sibling current
      else migrationMerkleParent H current sibling
    foldMigrationProof next proof sides
  | _,_ => return current

def assertMigrationProof (root leaf : Bytes) (proof : List Bytes) (siblingIsLeft : List Bool) :
    Except Abort Unit := do
  ensure (root.length = merkleHashLength) .EInvalidMigrationProof
  ensure (proof.length = siblingIsLeft.length) .EInvalidMigrationProof
  let current ← foldMigrationProof H leaf proof siblingIsLeft
  ensure (current = root) .EInvalidMigrationProof

-- Import of legacy accounts and delegates

def legacyImportAccount (cap : MigrationCap) (registry : AccountRegistry) (legacyAccountId : ID)
    (owner : Address) (active : Bool) (createdAt : UInt64) (merkleProof : List Bytes)
    (siblingIsLeft : List Bool) (ctx : TxContext) :
    Except Abort (AccountRegistry × MemWalAccount × List Event) := do
  ensure (registry.version = version) .EWrongVersion
  ensure (registry.migrationFinalized = false) .EMigrationFinalized
  let pinned ← require registry.pinnedAllowlistRoot .EAllowlistRootNotPinned
  ensure (pinned = cap.allowlistRoot) .EAllowlistRootMismatch
  assertMigrationProof H cap.allowlistRoot
    (migrationAccountLeaf H legacyAccountId owner active createdAt) merkleProof siblingIsLeft
  ensure (registry.accounts.get? owner = none) .EAccountAlreadyExists
  ensure (registry.importedAccounts < registry.expectedAccountImports) .EMigrationImportCountMismatch
  let account : MemWalAccount := {
    id := ctx.fresh
    owner := owner
    delegateKeys := []
    createdAt := createdAt
    active := active
    adminQuarantined := false
    legacyAccountId := some legacyAccountId
    accessCounterVersion := 0 }
  let imported ← checkedAdd registry.importedAccounts 1
  return ({registry with
      accounts := registry.accounts.insert owner account.id
      importedAccounts := imported },account,
    [.accountCreated account.id owner,.accountImported legacyAccountId account.id owner])

-- A key already present is skipped after the proof check and before the
-- capacity and count checks, so a retry on a full account stays a no-op.
def legacyImportDelegateKey (cap : MigrationCap) (registry : AccountRegistry) (account : MemWalAccount)
    (publicKey label : Bytes) (createdAt : UInt64) (merkleProof : List Bytes)
    (siblingIsLeft : List Bool) : Except Abort (AccountRegistry × MemWalAccount × List Event) := do
  ensure (registry.version = version) .EWrongVersion
  ensure (registry.migrationFinalized = false) .EMigrationFinalized
  let pinned ← require registry.pinnedAllowlistRoot .EAllowlistRootNotPinned
  ensure (pinned = cap.allowlistRoot) .EAllowlistRootMismatch
  let legacyAccountId ← require account.legacyAccountId .ENotLegacyImported
  ensure (publicKey.length = ed25519PublicKeyLength) .EInvalidPublicKeyLength
  ensure (label.length ≤ maxLabelLength) .ELabelTooLong
  let leaf ← migrationDelegateLeaf H legacyAccountId publicKey label createdAt
  assertMigrationProof H cap.allowlistRoot leaf merkleProof siblingIsLeft
  if ∃ key ∈ account.delegateKeys, key.publicKey = publicKey then
    return (registry,account,[])
  ensure (account.delegateKeys.length < maxDelegateKeys) .ETooManyDelegateKeys
  ensure (registry.importedDelegates < registry.expectedDelegateImports) .EMigrationImportCountMismatch
  let suiAddress ← deriveSuiAddress H publicKey
  let key : DelegateKey := ⟨publicKey,suiAddress,label,createdAt⟩
  let imported ← checkedAdd registry.importedDelegates 1
  return ({registry with importedDelegates := imported},
    {account with delegateKeys := account.delegateKeys ++ [key]},
    [.delegateKeyAdded account.id key.publicKey key.suiAddress key.label])

-- SEAL access control

def isDelegateAddress (account : MemWalAccount) (address : Address) : Bool :=
  account.delegateKeys.any (fun key => key.suiAddress = address)

def foldSealCounter : Bytes → Nat → UInt64 → Except Abort UInt64
  | [],_,counter => .ok counter
  | byte :: rest,i,counter => do
    let next ← checkedAdd counter (byte.toUInt64 <<< UInt64.ofNat (8 * i))
    foldSealCounter rest (i + 1) next

def sealIdCounter (id : Bytes) : Except Abort UInt64 := do
  ensure (sealIdCounterLength ≤ id.length) .arithmetic
  foldSealCounter (id.drop (id.length - sealIdCounterLength)) 0 0

def hasSuffix (data suffix : Bytes) : Bool :=
  if suffix.length > data.length then false
  else data.drop (data.length - suffix.length) = suffix

def assertSealIdOwner (id : Bytes) (account : MemWalAccount) : Except Abort UInt64 := do
  let ownerBytes := account.owner.bytes
  ensure (ownerBytes.length + sealIdCounterLength ≤ id.length) .ENoAccess
  let counter ← sealIdCounter id
  let expected := ownerBytes ++ bcsU64 counter
  ensure (hasSuffix id expected = true) .ENoAccess
  return counter

def sealApprove (id : Bytes) (registry : AccountRegistry) (account : MemWalAccount) (ctx : TxContext) :
    Except Abort Unit := do
  ensure (registry.version = version) .EWrongVersion
  ensure (account.active = true) .EAccountDeactivated
  let counter ← assertSealIdOwner id account
  ensure (counter ≤ account.accessCounterVersion) .ENoAccess
  if ctx.sender = account.owner then return ()
  ensure (isDelegateAddress account ctx.sender = true) .ENoAccess

def sealEncryptFence (id : Bytes) (registry : AccountRegistry) (account : MemWalAccount) :
    Except Abort Unit := do
  ensure (registry.version = version) .EWrongVersion
  let counter ← assertSealIdOwner id account
  ensure (counter = account.accessCounterVersion) .ENoAccess

def sealKeyId (owner : Address) (counter : UInt64) : Bytes := owner.bytes ++ bcsU64 counter

-- What success of the account functions means

variable {H}

theorem deriveSuiAddress_ok {publicKey : Bytes} {address : Address}
    (derived : deriveSuiAddress H publicKey = .ok address) :
    publicKey.length = 32 ∧ address = H.apply (0 :: publicKey) := by
  simp only [deriveSuiAddress,bind_ok,ensure_ok,exists_const,pure_ok] at derived
  exact ⟨derived.1,derived.2.symm⟩

theorem derived_address {publicKey : Bytes} {address : Address}
    (length : publicKey.length = 32) (equal : address = H.apply (0 :: publicKey)) :
    deriveSuiAddress H publicKey = .ok address := by
  subst equal
  simp [deriveSuiAddress,ensure,ed25519PublicKeyLength,length,bind,Except.bind,pure,Except.pure]

theorem rotateAccessCounter_ok {a b : MemWalAccount} (rotated : rotateAccessCounter a = .ok b) :
    ∃ counter : UInt64, counter.toNat = a.accessCounterVersion.toNat + 1 ∧
      b = {a with accessCounterVersion := counter} := by
  simp only [rotateAccessCounter,bind_ok,pure_ok] at rotated
  obtain ⟨counter,added,rfl⟩ := rotated
  exact ⟨counter,checkedAdd_ok added,rfl⟩

theorem removeDelegateKey_ok {a b : MemWalAccount} {registry : AccountRegistry} {publicKey : Bytes}
    {ctx : TxContext} {events : List Event}
    (ran : removeDelegateKey a registry publicKey ctx = .ok (b,events)) :
    a.owner = ctx.sender ∧ registry.migrationFinalized = true ∧
    (∃ key, a.delegateKeys.find? (fun key => key.publicKey = publicKey) = some key) ∧
    ∃ counter : UInt64, counter.toNat = a.accessCounterVersion.toNat + 1 ∧
      b = {a with
        delegateKeys := a.delegateKeys.eraseP (fun key => key.publicKey = publicKey)
        accessCounterVersion := counter} := by
  simp only [removeDelegateKey,bind_ok,require_ok,ensure_ok,exists_const,pure_ok] at ran
  obtain ⟨_,owner,final,key,present,account,rotated,equal⟩ := ran
  obtain ⟨counter,bumped,rfl⟩ := rotateAccessCounter_ok rotated
  cases equal
  exact ⟨owner,final,⟨key,present⟩,counter,bumped,rfl⟩

theorem deactivateAccount_ok {a b : MemWalAccount} {registry : AccountRegistry} {ctx : TxContext}
    {events : List Event} (ran : deactivateAccount a registry ctx = .ok (b,events)) :
    a.owner = ctx.sender ∧ registry.migrationFinalized = true ∧ a.active = true ∧
    ∃ counter : UInt64, counter.toNat = a.accessCounterVersion.toNat + 1 ∧
      b = {a with active := false, accessCounterVersion := counter} := by
  simp only [deactivateAccount,bind_ok,ensure_ok,exists_const,pure_ok] at ran
  obtain ⟨_,owner,final,active,account,rotated,equal⟩ := ran
  obtain ⟨counter,bumped,rfl⟩ := rotateAccessCounter_ok rotated
  cases equal
  exact ⟨owner,final,active,counter,bumped,rfl⟩

theorem adminDeactivateAccount_ok {a b : MemWalAccount} {events : List Event}
    (ran : adminDeactivateAccount a = .ok (b,events)) :
    (a.adminQuarantined = true ∧ b = a ∧ events = []) ∨ a.adminQuarantined = false ∧
      ∃ counter : UInt64, counter.toNat = a.accessCounterVersion.toNat + 1 ∧
        b = {a with active := false, adminQuarantined := true, accessCounterVersion := counter} := by
  unfold adminDeactivateAccount at ran
  split at ran
  · rename_i held
    cases ran
    exact .inl ⟨held,rfl,rfl⟩
  · rename_i calm
    simp only [bind_ok] at ran
    obtain ⟨account,rotated,answer⟩ := ran
    obtain ⟨counter,bumped,rfl⟩ := rotateAccessCounter_ok rotated
    refine .inr ⟨by simpa using calm,counter,bumped,?_⟩
    split at answer
    · cases answer; rfl
    · rename_i idle
      have idle : a.active = false := by simpa using idle
      cases answer
      rw [← idle]

end MemWal.Account
