import MemWal.SecurityDelete.Preparation

namespace MemWal.SecurityDelete.Transactions
open Library Library.Fallible Library.Batches

-- The delete transaction as the chain sees it: inputs, commands, and arguments
-- that point into them.

structure ObjectReference where
  objectId : ObjectId
  version : Nat
  digest : Bytes
  deriving DecidableEq, Repr

inductive Input where
  | pure (value : Owner)
  | shared (objectId : ObjectId) (initialSharedVersion : Nat) (mutable_ : Bool)
  | immutableOrOwned (reference : ObjectReference)
  deriving DecidableEq, Repr

inductive Argument where
  | input (index : Nat)
  | result (command : Nat)
  deriving DecidableEq, Repr

inductive Command where
  | moveCall (package module_ function : String) (arguments : List Argument)
  | transferObjects (objects : List Argument) (address : Argument)
  deriving DecidableEq, Repr

structure ValidDuring where
  minEpoch : Option Nat
  maxEpoch : Option Nat
  chain : Bytes
  nonce : Nat
  deriving DecidableEq, Repr

structure Transaction where
  inputs : List Input
  commands : List Command
  sender : Owner
  gasOwner : Owner
  gasObjects : List ObjectReference
  gasPrice : Nat
  gasBudget : Nat
  expiration : ValidDuring
  deriving DecidableEq, Repr

def Transaction.argument (tx : Transaction) : Argument → Option Input
  | .input index => tx.inputs[index]?
  | .result _ => none

-- `TransactionBuilder`, which numbers inputs and commands as they come.
structure TransactionBuilder where
  inputs : List Input := []
  commands : List Command := []
  sender : Option Owner := none
  sponsor : Option Owner := none
  gasPrice : Option Nat := none
  gasBudget : Option Nat := none
  expiration : Option ValidDuring := none
  gasObjects : List ObjectReference := []
  deriving DecidableEq, Repr

namespace TransactionBuilder

def addInput (builder : TransactionBuilder) (input : Input) : TransactionBuilder × Argument :=
  ({builder with inputs := builder.inputs ++ [input]},.input builder.inputs.length)

def moveCall (builder : TransactionBuilder) (package module_ function : String) (arguments : List Argument) :
    TransactionBuilder × Argument :=
  ({builder with commands := builder.commands ++ [.moveCall package module_ function arguments]},
    .result builder.commands.length)

def transferObjects (builder : TransactionBuilder) (objects : List Argument) (address : Argument) :
    TransactionBuilder :=
  {builder with commands := builder.commands ++ [.transferObjects objects address]}

def objectIds (builder : TransactionBuilder) : List ObjectId :=
  builder.inputs.filterMap (fun input =>
    match input with
    | .pure _ => none
    | .shared objectId _ _ => some objectId
    | .immutableOrOwned reference => some reference.objectId)

-- What is built: the parts as they were added.
structure Builds (builder : TransactionBuilder) (tx : Transaction) : Prop where
  inputs : tx.inputs = builder.inputs
  commands : tx.commands = builder.commands
  sender : builder.sender = some tx.sender
  sponsor : builder.sponsor = some tx.gasOwner
  gasPrice : builder.gasPrice = some tx.gasPrice
  gasBudget : builder.gasBudget = some tx.gasBudget
  expiration : builder.expiration = some tx.expiration
  gasObjects : tx.gasObjects = builder.gasObjects

end TransactionBuilder

-- The parts of `sui_sdk_types`, `sui_transaction_builder` and `bcs` in use.
structure Sdk where
  parseDigest : String → Option Bytes
  tryBuild : TransactionBuilder → Option Transaction
  transactionDigest : Transaction → String
  toBytes : Transaction → Option Bytes
  fromBytes : Bytes → Option Transaction

-- A builder with gas and with no object twice is accepted, in the order of its
-- parts; a transaction of a few thousand parts has an encoding, which decodes.
structure Sdk.Documented (sdk : Sdk) : Prop where
  builds : ∀ builder tx, builder.Builds tx → builder.gasObjects ≠ [] → builder.objectIds.Nodup →
    sdk.tryBuild builder = some tx
  encodes : ∀ tx, tx.inputs.length ≤ 2048 → tx.commands.length ≤ 2048 → ∃ bytes, sdk.toBytes tx = some bytes
  decodes : ∀ tx bytes, sdk.toBytes tx = some bytes → sdk.fromBytes bytes = some tx

-- tx_build.rs

def transferObjectsChunk : Nat := 500

inductive BuildError where
  | refused (error : TxBuildError)
  | digest | build | serialize
  deriving DecidableEq, Repr

structure BuiltTx where
  txBytes : Bytes
  digest : String
  nonce : Nat
  expireEpoch : Nat
  inputBlobIds : List BlobId
  deriving DecidableEq, Repr

def parseAddress (field raw : String) : Except BuildError Owner :=
  require (canonicalSuiAddress raw) (.refused (.address field))

structure Draft where
  builder : TransactionBuilder
  reclaimed : List Argument
  inputBlobIds : List BlobId

def deleteBlob (sdk : Sdk) (package : String) (system : Argument) (draft : Draft) (blob : ObjectInfo) :
    Except BuildError Draft := do
  let objectId ← parseAddress "blob object" blob.objectId
  let digest ← require (sdk.parseDigest blob.digest) .digest
  let (builder,object) := draft.builder.addInput (.immutableOrOwned ⟨objectId,blob.version,digest⟩)
  let (builder,result) := builder.moveCall package "system" "delete_blob" [system,object]
  let blobId ← require blob.blobId (.refused .missingBlobId)
  return ⟨builder,draft.reclaimed ++ [result],draft.inputBlobIds ++ [blobId]⟩

-- `Address::ZERO` and `Digest::ZERO`.
def zeroAddress : Owner := "0x0000000000000000000000000000000000000000000000000000000000000000"

def placeholderGas : ObjectReference := ⟨zeroAddress,1,List.replicate 32 0⟩

def buildDeleteTx (sdk : Sdk) (sender sponsor : String) (blobs : List ObjectInfo) (walrusPkg : String)
    (systemObj : SharedObjectInfo) (epoch gasPrice gasBudget : Nat) (chainDigest : Bytes) (nonce : Nat) :
    Except BuildError BuiltTx := do
  ensure (blobs ≠ []) (.refused .empty)
  ensure (blobs.length ≤ maxDeleteBlobsPerTx) (.refused .tooMany)
  let sender ← parseAddress "sender" sender
  let sponsor ← parseAddress "sponsor" sponsor
  let package ← parseAddress "Walrus package" walrusPkg
  let systemId ← parseAddress "Walrus system object" systemObj.objectId
  let ordered := blobs.insertionSort (fun a b => blobBefore a b = true)
  ensure (repeatsObject ordered = false) (.refused .duplicate)
  let (builder,system) := ({} : TransactionBuilder).addInput
    (.shared systemId systemObj.initialSharedVersion systemObj.mutable_)
  let draft ← ordered.foldlM (deleteBlob sdk package system) ⟨builder,[],[]⟩
  let (builder,recipient) := draft.builder.addInput (.pure sender)
  let builder := (chunks transferObjectsChunk draft.reclaimed).foldl
    (fun builder chunk => builder.transferObjects chunk recipient) builder
  let builder := {builder with
    sender := some sender
    sponsor := some sponsor
    gasPrice := some gasPrice
    gasBudget := some gasBudget
    expiration := some ⟨some epoch,some epoch,chainDigest,nonce⟩
    gasObjects := [placeholderGas]}
  let built ← require (sdk.tryBuild builder) .build
  let transaction := {built with gasObjects := []}
  let txBytes ← require (sdk.toBytes transaction) .serialize
  return ⟨txBytes,sdk.transactionDigest transaction,nonce,epoch,draft.inputBlobIds⟩

-- input_freshness.rs

structure ExpectedInput where
  blobId : BlobId
  reference : ObjectReference
  deriving DecidableEq, Repr

def owned : Input → Option ObjectReference
  | .immutableOrOwned reference => some reference
  | _ => none

def expectedInputs (sdk : Sdk) (txBytes : Bytes) (inputBlobIds : List BlobId) : Except String (List ExpectedInput) := do
  let transaction ← require (sdk.fromBytes txBytes) "prepared batch transaction is invalid"
  let references := transaction.inputs.filterMap owned
  ensure (references.length = inputBlobIds.length) "prepared deletion transaction input count changed"
  return (inputBlobIds.zip references).map (fun pair => ⟨pair.1,pair.2⟩)

def fetchCurrent (batchGetObjects : List ObjectId → Except SuiErr (List (Option ObjectInfo)))
    (expected : List ExpectedInput) : Except SuiErr (List (Option ObjectInfo)) :=
  (chunks 100 (expected.map (fun input => input.reference.objectId))).foldlM (fun objects chunk => do
    let more ← batchGetObjects chunk
    return objects ++ more) []

def staleReason (sdk : Sdk) (owner : Owner) (expected : ExpectedInput) : Option ObjectInfo → Option StaleInputReason
  | none => some .deletedExternal
  | some object =>
    if object.blobId ≠ some expected.blobId ∨ sameOwner object.owner owner = false then some .notOwner
    else if canonicalSuiAddress object.objectId ≠ some expected.reference.objectId ∨
        object.version ≠ expected.reference.version ∨
        sdk.parseDigest object.digest ≠ some expected.reference.digest then
      some .changedReference
    else none

def staleInputs (sdk : Sdk) (owner : Owner) (expected : List ExpectedInput) (current : List (Option ObjectInfo)) :
    Except String (List StaleInput) := do
  ensure (expected.length = current.length) "Sui object response count changed"
  return (expected.zip current).filterMap (fun pair =>
    (staleReason sdk owner pair.1 pair.2).map (fun reason => ⟨pair.1.blobId,reason⟩))

end MemWal.SecurityDelete.Transactions
