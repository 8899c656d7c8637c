import MemWal.Library.Store

namespace MemWal.Remember
open Library

abbrev JobId := Nat
abbrev Token := Nat
abbrev ObjectId := Nat
abbrev Digest := Nat
abbrev Address := Nat
abbrev Ciphertext := List UInt8

structure BlobId where
  bytes : List UInt8
  deriving DecidableEq, Repr

inductive Status where
  | pending | running | uploaded | done | failed
  deriving DecidableEq, Repr

-- `resumeStep`: what the sidecar returned last, in its own vocabulary.
inductive WriteBlobStep where
  | encoded (blobId : BlobId) (nonce : Nat)
  | registered (blobId : BlobId) (blobObjectId : ObjectId) (txDigest : Digest)
  | uploaded (blobId : BlobId) (blobObjectId : ObjectId) (certificate : Nat)
  | certified (blobId : BlobId) (blobObjectId : ObjectId)
  deriving DecidableEq, Repr

namespace WriteBlobStep

def blobId : WriteBlobStep → BlobId
  | .encoded b _ | .registered b _ _ | .uploaded b _ _ | .certified b _ => b

def blobObjectId : WriteBlobStep → Option ObjectId
  | .encoded _ _ => none
  | .registered _ o _ | .uploaded _ o _ | .certified _ o => some o

def isEncoded : WriteBlobStep → Bool
  | .encoded _ _ => true
  | _ => false

end WriteBlobStep

structure TransactionData where
  sender : Address
  gasOwner : Address
  maxEpoch : Option Nat
  content : Nat
  deriving DecidableEq, Repr

structure PreparedRegisterTransaction where
  transactionBytes : TransactionData
  signature : Address
  digest : Digest
  deriving DecidableEq, Repr

structure StoredUploadJournal where
  uploadWalletIndex : Option Nat := none
  uploadWalletAddress : Option Address := none
  uploadExecutionIdentity : Option Nat := none
  uploadResumeStep : Option WriteBlobStep := none
  uploadRegisterTransaction : Option PreparedRegisterTransaction := none
  deriving DecidableEq, Repr

structure UploadJournal where
  walletIndex : Nat
  walletAddress : Option Address
  executionIdentity : Option Nat
  resumeStep : Option WriteBlobStep
  registerTransaction : Option PreparedRegisterTransaction
  deriving DecidableEq, Repr

def UploadJournal.stored (journal : UploadJournal) : StoredUploadJournal where
  uploadWalletIndex := some journal.walletIndex
  uploadWalletAddress := journal.walletAddress
  uploadExecutionIdentity := journal.executionIdentity
  uploadResumeStep := journal.resumeStep
  uploadRegisterTransaction := journal.registerTransaction

def StoredUploadJournal.load (stored : StoredUploadJournal) (fallbackWalletIndex : Nat) : UploadJournal where
  walletIndex := stored.uploadWalletIndex.getD fallbackWalletIndex
  walletAddress := stored.uploadWalletAddress
  executionIdentity := stored.uploadExecutionIdentity
  resumeStep := stored.uploadResumeStep
  registerTransaction := stored.uploadRegisterTransaction

-- The five `preparation_*` columns, written together; a wallet job carries the
-- same data.
structure Preparation where
  encrypted : Ciphertext
  vector : List Nat
  importance : Nat
  accountId : String
  publicKey : String
  deriving DecidableEq, Repr

-- A row of `remember_jobs`. `batched` is not a column: it tells the rows that
-- the bulk and the analyze routes insert, which have no idempotency key and no
-- preparation claim.
structure Row where
  owner : String
  ns : String
  idempotencyKey : Option String
  requestFingerprint : Option String
  batched : Bool
  status : Status := .pending
  blobId : Option BlobId := none
  blobObjectId : Option ObjectId := none
  prepareClaimToken : Option Token := none
  prepareClaimedAt : Option Nat := none
  recoveryClaimToken : Option Token := none
  recoveryClaimedAt : Option Nat := none
  preparation : Option Preparation := none
  journal : StoredUploadJournal := {}
  updatedAt : Nat := 0
  deriving DecidableEq, Repr

def prepareClaimTtlSecs : Nat := 60
def staleRememberJobAfter : Nat := 10 * 60

-- `claimed_at IS NULL OR claimed_at < NOW() - 60 s`
def leaseOver (now : Nat) : Option Nat → Bool
  | none => true
  | some claimedAt => claimedAt + prepareClaimTtlSecs < now

-- Every UPDATE statement on `remember_jobs`.
inductive Statement where
  | consumePreparationClaim (token : Token)
  | markRunning
  | afterWalletError (abortsRetries : Bool)
  | markFailed
  | markPreparationFailed (token : Token)
  | persistPreparation (token : Token) (preparation : Preparation)
  | persistUploadJournal (journal : UploadJournal)
  | persistUploadedState (blobId : BlobId) (blobObjectId : ObjectId)
  | markDone (blobId : BlobId)
  | claimPreparation (token : Token)
  | claimPaidRecovery (token : Token)
  | publishPaidRecovery (token : Token)
  | failStale
  deriving DecidableEq, Repr

namespace Statement

-- The WHERE clause, the row's id apart.
def applies (now : Nat) (row : Row) : Statement → Bool
  | .consumePreparationClaim token =>
    row.prepareClaimToken = some token ∧ row.blobId = none ∧ (row.status = .pending ∨ row.status = .running)
  | .markRunning | .markFailed | .persistUploadJournal _ | .persistUploadedState _ _ | .markDone _ => true
  | .afterWalletError _ => row.status ≠ .uploaded ∧ row.status ≠ .done
  | .markPreparationFailed token =>
    row.status ≠ .done ∧ row.status ≠ .uploaded ∧ row.prepareClaimToken = some token
  | .persistPreparation token _ => row.prepareClaimToken = some token
  | .claimPreparation _ =>
    row.blobId = none ∧ (row.status = .pending ∨ row.status = .failed) ∧ leaseOver now row.prepareClaimedAt
  | .claimPaidRecovery _ =>
    (row.status = .failed ∨ row.status = .uploaded) ∧ row.blobId ≠ none ∧ leaseOver now row.recoveryClaimedAt
  | .publishPaidRecovery token =>
    row.recoveryClaimToken = some token ∧ row.blobId ≠ none ∧ (row.status = .failed ∨ row.status = .uploaded)
  | .failStale => (row.status = .running ∨ row.status = .uploaded) ∧ row.updatedAt + staleRememberJobAfter < now

-- The SET clause.
def apply (now : Nat) (row : Row) : Statement → Row
  | .consumePreparationClaim _ => {row with
      status := .running
      prepareClaimedAt := none
      updatedAt := now}
  | .markRunning => {row with
      status := .running
      updatedAt := now}
  | .afterWalletError abortsRetries => {row with
      status := if abortsRetries then .failed else .running
      updatedAt := now}
  | .markFailed | .markPreparationFailed _ | .failStale => {row with
      status := .failed
      updatedAt := now}
  | .persistPreparation _ preparation => {row with
      preparation := some preparation
      updatedAt := now}
  | .persistUploadJournal journal => {row with
      journal := journal.stored
      updatedAt := now}
  | .persistUploadedState blobId blobObjectId => {row with
      status := .uploaded
      blobId := some blobId
      blobObjectId := some blobObjectId
      prepareClaimedAt := none
      prepareClaimToken := none
      updatedAt := now}
  | .markDone blobId => {row with
      status := .done
      blobId := some blobId
      prepareClaimedAt := none
      prepareClaimToken := none
      recoveryClaimedAt := none
      recoveryClaimToken := none
      updatedAt := now}
  | .claimPreparation token => {row with
      prepareClaimedAt := some now
      prepareClaimToken := some token
      status := if row.status = .failed ∧ row.blobId = none then .pending else row.status
      updatedAt := now}
  | .claimPaidRecovery token => {row with
      recoveryClaimedAt := some now
      recoveryClaimToken := some token
      updatedAt := now}
  | .publishPaidRecovery _ => {row with
      status := .uploaded
      updatedAt := now}

end Statement
end MemWal.Remember
