import MemWal.Library.Bytes
import MemWal.Library.Fallible
import MemWal.Library.Store

namespace MemWal.SecurityDelete
open Library

abbrev Owner := String
abbrev BlobId := String
abbrev ObjectId := String
abbrev Uuid := BitVec 128
abbrev Timestamp := Nat
abbrev Cursor := String

inductive BlobState where
  | deletable | deleting | deleted | deletedExternal | notOwner | expired
  deriving DecidableEq, Repr

inductive BatchState where
  | awaitingSignature | executing | completed | failed | rolledBack
  deriving DecidableEq, Repr

inductive Outcome where
  | claimed | deleted | deletedExternal | notOwner | expired | released
  deriving DecidableEq, Repr

def BatchState.active : BatchState → Bool
  | .awaitingSignature | .executing => true
  | .completed | .failed | .rolledBack => false

-- The three states an eviction or a sweep may write. The ledger records them
-- under the same wire values.
inductive Terminal where
  | deletedExternal | notOwner | expired
  deriving DecidableEq, Repr

def Terminal.state : Terminal → BlobState
  | .deletedExternal => .deletedExternal
  | .notOwner => .notOwner
  | .expired => .expired

def Terminal.outcome : Terminal → Outcome
  | .deletedExternal => .deletedExternal
  | .notOwner => .notOwner
  | .expired => .expired

def BlobState.terminal? : BlobState → Option Terminal
  | .deletedExternal => some .deletedExternal
  | .notOwner => some .notOwner
  | .expired => some .expired
  | .deletable | .deleting | .deleted => none

-- One owned input of the transaction: the reference the chain checks.
structure ObjectRef where
  objectId : ObjectId
  version : Nat
  digest : String
  deriving DecidableEq, Repr

structure SharedObjectInfo where
  objectId : ObjectId
  initialSharedVersion : Nat
  mutable_ : Bool
  packageId : Option String
  deriving DecidableEq, Repr

-- A delete transaction as its bytes decode. Owned inputs stand in the order of
-- the delete commands; input zero of the real transaction is `system`.
structure DeleteTx where
  sender : Owner
  sponsor : Owner
  package : String
  system : SharedObjectInfo
  inputs : List ObjectRef
  gasPrice : Nat
  gasBudget : Nat
  epoch : Nat
  chain : Bytes
  nonce : Nat
  deriving DecidableEq, Repr

-- The transaction digest, taken as collision free: it is its preimage.
structure Digest where
  preimage : DeleteTx
  deriving DecidableEq, Repr

def DeleteTx.digest (tx : DeleteTx) : Digest := ⟨tx⟩

structure TrackingRow where
  objectId : Option ObjectId
  state : BlobState
  batchId : Option Uuid
  createdAt : Timestamp
  trackedSeq : Nat
  updatedAt : Timestamp
  deriving DecidableEq, Repr

structure BatchRow where
  owner : Owner
  state : BatchState
  digest : Option Digest
  txBytes : Option DeleteTx
  inputBlobIds : Option (List BlobId)
  blobCount : Nat
  nonce : Nat
  expireEpoch : Nat
  claimedAt : Timestamp
  signatures : Option (List Bytes)
  executingAt : Option Timestamp
  lastSubmitAt : Option Timestamp
  submitAttempts : Nat
  resolvedAt : Option Timestamp
  deriving DecidableEq, Repr

structure MemberRow where
  objectId : Option ObjectId
  outcome : Outcome
  claimedAt : Timestamp
  resolvedAt : Option Timestamp
  deriving DecidableEq, Repr

structure ResolverCheckpoint where
  scanFence : Nat
  cursor : Option Cursor
  completedFence : Option Nat
  deriving DecidableEq, Repr

structure SweepCursor where
  updatedAt : Timestamp
  owner : Owner
  blobId : BlobId
  deriving DecidableEq, Repr

-- The three tables, the resolver's sequence and the entries of
-- `deletion_job_state`, one field for each kind of key.
structure Db where
  batches : Store Uuid BatchRow
  tracking : Store (Owner × BlobId) TrackingRow
  members : Store (Uuid × Owner × BlobId) MemberRow
  sequence : Nat
  resolverCompleted : Store Owner Nat
  resolverCheckpoint : Store Owner ResolverCheckpoint
  sweepCursor : Option SweepCursor
  deriving DecidableEq

def Db.empty : Db := ⟨.empty,.empty,.empty,0,.empty,.empty,none⟩

-- What the database itself brings to a transaction: its clock, and the rows
-- other transactions hold locked.
structure Moment where
  now : Timestamp
  locked : List (Owner × BlobId)
  deriving DecidableEq, Repr

-- Why a transaction was aborted. `constraint` is a unique index or a check
-- other than the (expire_epoch, nonce) one, whose name the caller looks for.
inductive StoreError where
  | badRequest
  | constraint
  | nonceCollision
  | activeBatchLimit (ids : List Uuid)
  | conflict (blobIds : List BlobId)
  | storage
  deriving DecidableEq, Repr

end MemWal.SecurityDelete
