import MemWal.SecurityDelete.Chain

namespace MemWal.SecurityDelete
open Library Library.Fallible

-- Building the transaction

def maxDeleteBlobsPerTx : Nat := 900

inductive TxBuildError where
  | empty | tooMany | duplicate | missingBlobId
  | address (field : String)
  deriving DecidableEq, Repr

structure BuiltTx where
  txBytes : DeleteTx
  digest : Digest
  nonce : Nat
  expireEpoch : Nat
  inputBlobIds : List BlobId
  deriving DecidableEq, Repr

def blobBefore (a b : ObjectInfo) : Bool :=
  let left := a.blobId.getD ""
  let right := b.blobId.getD ""
  left < right || (left = right && a.objectId ≤ b.objectId)

def repeatsObject : List ObjectInfo → Bool
  | a :: b :: rest => a.objectId = b.objectId || repeatsObject (b :: rest)
  | _ => false

def parseAddress (field raw : String) : Except TxBuildError String :=
  require (canonicalSuiAddress raw) (.address field)

def ownedInput (blob : ObjectInfo) : Except TxBuildError (ObjectRef × BlobId) := do
  let objectId ← parseAddress "blob object" blob.objectId
  let blobId ← require blob.blobId .missingBlobId
  return (⟨objectId,blob.version,blob.digest⟩,blobId)

def buildDeleteTx (sender sponsor : String) (blobs : List ObjectInfo) (walrusPkg : String)
    (systemObj : SharedObjectInfo) (epoch gasPrice gasBudget : Nat) (chainDigest : Bytes) (nonce : Nat) :
    Except TxBuildError BuiltTx := do
  ensure (blobs ≠ []) .empty
  ensure (blobs.length ≤ maxDeleteBlobsPerTx) .tooMany
  let sender ← parseAddress "sender" sender
  let sponsor ← parseAddress "sponsor" sponsor
  let package ← parseAddress "Walrus package" walrusPkg
  let systemId ← parseAddress "Walrus system object" systemObj.objectId
  let ordered := blobs.insertionSort (fun a b => blobBefore a b = true)
  ensure (repeatsObject ordered = false) .duplicate
  let inputs ← ordered.mapM ownedInput
  let tx : DeleteTx := {
    sender := sender
    sponsor := sponsor
    package := package
    system := {systemObj with objectId := systemId, packageId := none}
    inputs := inputs.map Prod.fst
    gasPrice := gasPrice
    gasBudget := gasBudget
    epoch := epoch
    chain := chainDigest
    nonce := nonce}
  return ⟨tx,tx.digest,nonce,epoch,inputs.map Prod.snd⟩

-- The first four bytes of the batch id.
def deriveNonce (batchId : Uuid) : Nat := batchId.toNat / 2^96

theorem ownedInput_ok {blob : ObjectInfo} {input : ObjectRef × BlobId} (made : ownedInput blob = .ok input) :
    canonicalSuiAddress blob.objectId = some input.1.objectId ∧ blob.blobId = some input.2 := by
  simp only [ownedInput,parseAddress,bind_ok,require_ok,pure_ok] at made
  obtain ⟨objectId,known,blobId,present,rfl⟩ := made
  exact ⟨known,present⟩

-- What the columns of a prepared batch have to do with each other.
structure BuiltTx.Matches (built : BuiltTx) (blobs : List ObjectInfo) (epoch nonce : Nat) : Prop where
  digest : built.digest = built.txBytes.digest
  nonce : built.nonce = nonce ∧ built.txBytes.nonce = nonce
  epoch : built.expireEpoch = epoch ∧ built.txBytes.epoch = epoch
  inputs : ∃ ordered, ordered.Perm blobs ∧
    List.Forall₂ (fun blob blobId => blob.blobId = some blobId) ordered built.inputBlobIds ∧
    List.Forall₂ (fun blob input => canonicalSuiAddress blob.objectId = some input.objectId) ordered
      built.txBytes.inputs

theorem buildDeleteTx_ok {sender sponsor walrusPkg : String} {blobs : List ObjectInfo} {systemObj : SharedObjectInfo}
    {epoch gasPrice gasBudget nonce : Nat} {chainDigest : Bytes} {built : BuiltTx}
    (made : buildDeleteTx sender sponsor blobs walrusPkg systemObj epoch gasPrice gasBudget chainDigest nonce =
      .ok built) : built.Matches blobs epoch nonce := by
  simp only [buildDeleteTx,bind_ok,ensure_ok,exists_const,pure_ok] at made
  obtain ⟨_,_,sender',_,sponsor',_,package,_,systemId,_,_,inputs,owned,rfl⟩ := made
  refine ⟨rfl,⟨rfl,rfl⟩,⟨rfl,rfl⟩,blobs.insertionSort (fun a b => blobBefore a b = true),
    List.perm_insertionSort _ _,?_,?_⟩
  · rw [List.forall₂_map_right_iff]
    exact (mapM_ok owned).imp (fun _ _ here => (ownedInput_ok here).2)
  · rw [List.forall₂_map_right_iff]
    exact (mapM_ok owned).imp (fun _ _ here => (ownedInput_ok here).1)

-- Freshness of the inputs of a prepared transaction

inductive StaleInputReason where
  | deletedExternal | notOwner | changedReference
  deriving DecidableEq, Repr

structure StaleInput where
  blobId : BlobId
  reason : StaleInputReason
  deriving DecidableEq, Repr

structure ExpectedInput where
  blobId : BlobId
  reference : ObjectRef
  deriving DecidableEq, Repr

def transactionPackage (txBytes : DeleteTx) : Option String := some txBytes.package

def expectedInputs (txBytes : DeleteTx) (inputBlobIds : List BlobId) : Except String (List ExpectedInput) := do
  ensure (txBytes.inputs.length = inputBlobIds.length) "prepared deletion transaction input count changed"
  return (inputBlobIds.zip txBytes.inputs).map (fun pair => ⟨pair.1,pair.2⟩)

def objectIds (expected : List ExpectedInput) : List ObjectId := expected.map (fun input => input.reference.objectId)

def staleReason (owner : Owner) (expected : ExpectedInput) : Option ObjectInfo → Option StaleInputReason
  | none => some .deletedExternal
  | some object =>
    if object.blobId ≠ some expected.blobId ∨ sameOwner object.owner owner = false then some .notOwner
    else if canonicalSuiAddress object.objectId ≠ some expected.reference.objectId ∨
        object.version ≠ expected.reference.version ∨ object.digest ≠ expected.reference.digest then
      some .changedReference
    else none

def staleInputs (owner : Owner) (expected : List ExpectedInput) (current : List (Option ObjectInfo)) :
    Except String (List StaleInput) := do
  ensure (expected.length = current.length) "Sui object response count changed"
  return (expected.zip current).filterMap (fun pair =>
    (staleReason owner pair.1 pair.2).map (fun reason => ⟨pair.1.blobId,reason⟩))

-- What an eviction writes for a stale input. A changed reference is no reason
-- to give the blob up.
def StaleInputReason.terminal : StaleInputReason → Option BlobState
  | .deletedExternal => some .deletedExternal
  | .notOwner => some .notOwner
  | .changedReference => none

-- What the reconciler concludes from the object behind a row.
def terminalState (object : Option ObjectInfo) (expectedBlobId : BlobId) (expectedOwner : Owner)
    (epoch expiryMargin : Nat) : Option BlobState :=
  match object with
  | none => some .deletedExternal
  | some object =>
    if object.blobId ≠ some expectedBlobId then none
    else if sameOwner object.owner expectedOwner = false then some .notOwner
    else if object.endEpoch.any (fun end_ => isAtOrBefore end_ epoch expiryMargin) then some .expired
    else none

end MemWal.SecurityDelete
