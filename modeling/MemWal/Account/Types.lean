import MemWal.Library.Bytes
import MemWal.Library.Fallible
import MemWal.Library.Store

namespace MemWal.Account
open Library

abbrev Address := Bytes32
abbrev ID := Bytes32

-- The module's own aborts under their source names. `arithmetic` is the VM's
-- overflow abort; `invalidInput` is the runtime turning a transaction away
-- before any module code runs (no such object, a capability held by somebody
-- else, an object id that was handed out before).
inductive Abort where
  | EDelegateKeyAlreadyExists
  | EDelegateKeyNotFound
  | ETooManyDelegateKeys
  | EAccountAlreadyExists
  | ENotOwner
  | EInvalidPublicKeyLength
  | EAccountDeactivated
  | EWrongVersion
  | EAlreadyMigrated
  | ELabelTooLong
  | EAccountAlreadyActive
  | EMigrationFinalized
  | ENotLegacyImported
  | EInvalidMigrationProof
  | EAllowlistRootAlreadyPinned
  | EAllowlistRootMismatch
  | EAllowlistRootNotPinned
  | EMigrationInProgress
  | EAccountQuarantined
  | EMigrationImportCountMismatch
  | EInvalidCompletionEvidence
  | ECompletionEvidenceExpired
  | EAllowlistRepinAfterImport
  | ENoAccess
  | arithmetic
  | invalidInput
  deriving DecidableEq, Repr

def maxDelegateKeys : Nat := 20
def ed25519PublicKeyLength : Nat := 32
def maxLabelLength : Nat := 64
def merkleHashLength : Nat := 32
def sealIdCounterLength : Nat := 8
def maxCompletionEvidenceTtlMs : UInt64 := 900000
def version : UInt64 := 4

structure AccountRegistry where
  id : ID
  accounts : Store Address ID
  migrationFinalized : Bool
  pinnedAllowlistRoot : Option Bytes
  expectedAccountImports : UInt64
  expectedDelegateImports : UInt64
  importedAccounts : UInt64
  importedDelegates : UInt64
  version : UInt64
  deriving DecidableEq

structure DelegateKey where
  publicKey : Bytes
  suiAddress : Address
  label : Bytes
  createdAt : UInt64
  deriving DecidableEq

structure MemWalAccount where
  id : ID
  owner : Address
  delegateKeys : List DelegateKey
  createdAt : UInt64
  active : Bool
  adminQuarantined : Bool
  legacyAccountId : Option ID
  accessCounterVersion : UInt64
  deriving DecidableEq

-- Both capabilities are `key`-only, so each has one holder at a time and only
-- the module's own transfer functions move it.
structure AdminCap where
  id : ID
  holder : Address
  deriving DecidableEq

structure MigrationCap where
  id : ID
  allowlistRoot : Bytes
  holder : Address
  deriving DecidableEq

inductive Event where
  | accountCreated (accountId : ID) (owner : Address)
  | accountImported (legacyAccountId newAccountId : ID) (owner : Address)
  | delegateKeyAdded (accountId : ID) (publicKey : Bytes) (suiAddress : Address) (label : Bytes)
  | delegateKeyRemoved (accountId : ID) (publicKey : Bytes) (suiAddress : Address)
  | accountDeactivated (accountId : ID) (owner : Address)
  | accountReactivated (accountId : ID) (owner : Address)
  | accountQuarantined (accountId : ID) (owner : Address)
  | accountQuarantineCleared (accountId : ID) (owner : Address)
  | registryMigrated (registryId : ID) (was now : UInt64)
  | migrationCapMinted (capId : ID)
  | migrationCapBurned (capId : ID)
  | migrationFinalized (registryId : ID) (completionEvidenceSha256 : Bytes)
      (evidenceExpiresAtMs : UInt64)
  | allowlistRootPinned (registryId : ID) (root : Bytes)
      (expectedAccountImports expectedDelegateImports : UInt64)
  | allowlistRootRepinned (registryId : ID) (oldRoot newRoot : Bytes)
      (expectedAccountImports expectedDelegateImports : UInt64)
  deriving DecidableEq

structure TxContext where
  sender : Address
  fresh : ID
  deriving DecidableEq

def checkedAdd (a b : UInt64) : Except Abort UInt64 :=
  if a.toNat + b.toNat < 2 ^ 64 then .ok (a + b) else .error .arithmetic

theorem checkedAdd_ok {a b c : UInt64} (added : checkedAdd a b = .ok c) : c.toNat = a.toNat + b.toNat := by
  unfold checkedAdd at added
  split at added
  · rename_i fits
    cases added
    rw [UInt64.toNat_add,Nat.mod_eq_of_lt fits]
  · cases added

theorem checkedAdd_total {a b : UInt64} (fits : a.toNat + b.toNat < 2 ^ 64) :
    checkedAdd a b = .ok (a + b) := if_pos fits

-- Concrete ids and addresses for the runs that evaluate the model.
def sample (tail : UInt8) : Bytes32 := ⟨List.replicate 31 0 ++ [tail],by simp⟩

end MemWal.Account
