import MemWal.Auth.Types
import MemWal.Library.Fallible

namespace MemWal.Funding
open Library

-- A decoded transaction, as `TransactionDataBuilder` holds it.

inductive Argument where
  | gasCoin
  | input (index : Nat)
  | result (command : Nat)
  | nestedResult (command result : Nat)
  deriving DecidableEq, Repr

inductive Reservation where
  | maxAmountU64 (amount : Nat)
  | other (amount : Nat)
  deriving DecidableEq, Repr

inductive WithdrawalType where
  | balance (coinType : String)
  | other
  deriving DecidableEq, Repr

inductive WithdrawFrom where
  | sender | sponsor
  deriving DecidableEq, Repr

structure FundsWithdrawal where
  reservation : Reservation
  typeArg : WithdrawalType
  withdrawFrom : WithdrawFrom
  deriving DecidableEq, Repr

structure ObjectInput where
  objectId : String
  shared : Bool
  deriving DecidableEq, Repr

inductive Input where
  | pure (bytes : Bytes)
  | object (object : ObjectInput)
  | fundsWithdrawal (withdrawal : FundsWithdrawal)
  deriving DecidableEq, Repr

structure MoveCall where
  package : String
  module : String
  function : String
  typeArguments : List String
  arguments : List Argument
  deriving DecidableEq, Repr

inductive Command where
  | moveCall (call : MoveCall)
  | splitCoins (coin : Argument) (amounts : List Argument)
  | mergeCoins (destination : Argument) (sources : List Argument)
  | other (kind : String)
  deriving DecidableEq, Repr

structure TransactionData where
  sender : Option String
  gasOwner : Option String
  gasBudget : Option Nat
  inputs : List Input
  commands : List Command
  deriving DecidableEq, Repr

-- What the script takes from the SDK.
structure Kit where
  isValidSuiAddress : String → Bool
  normalizeSuiAddress : String → String
  normalizeStructTag : String → String
  stringify : String → String
  fromBytes : Bytes → Option TransactionData

abbrev WriterAddresses := List (String × List String)

def suiType : String := "0x2::sui::SUI"

def suiFramework (kit : Kit) : String := kit.normalizeSuiAddress "0x2"

def maxRecipients : Nat := 500

-- `walTypeForNetwork` yields no other type than one that ends with `::wal::WAL`,
-- and a journal is held against the intent of its run.
structure FundingIntent (kit : Kit) where
  sender : String
  walType : String
  writers : WriterAddresses
  mistPerAddress : Nat
  frostPerAddress : Nat
  gasBudget : Nat
  notSui : kit.normalizeStructTag walType ≠ kit.normalizeStructTag suiType

structure Payment where
  address : String
  coinType : String
  amount : Nat
  deriving DecidableEq, Repr

-- White space as `String.prototype.trim` knows it.
def isTrimmed (c : Char) : Bool :=
  let n := c.toNat
  (0x9 ≤ n && n ≤ 0xd) || (0x2000 ≤ n && n ≤ 0x200a) ||
    n ∈ [0x20,0xa0,0x1680,0x2028,0x2029,0x202f,0x205f,0x3000,0xfeff]

def trim (text : String) : String :=
  String.ofList ((text.toList.dropWhile isTrimmed).reverse.dropWhile isTrimmed).reverse

section Validator
variable (kit : Kit)

def assertAddress (v what : String) : Except String String := do
  Fallible.ensure (kit.isValidSuiAddress v = true) (what ++ " is not a valid Sui address: " ++ kit.stringify v)
  return kit.normalizeSuiAddress v

-- The first entry that was there before.
def repeated : List String → List String → Option String
  | _,[] => none
  | seen,a :: rest => if a ∈ seen then some a else repeated (a :: seen) rest

def normalizeWriter (entry : String × List String) : Except String (String × List String) := do
  Fallible.ensure (trim entry.1 ≠ "") "writer id must not be empty"
  Fallible.ensure (entry.2 ≠ []) (entry.1 ++ " has no addresses")
  let addresses ← entry.2.zipIdx.mapM (fun (a,i) => assertAddress kit (trim a) (entry.1 ++ "[" ++ toString i ++ "]"))
  return (entry.1,addresses)

-- The tail of `normalizeWriters`.
def checkRecipients (writers : WriterAddresses) : Except String WriterAddresses := do
  let out := writers.flatMap Prod.snd
  Fallible.ensure (out ≠ []) "no addresses to fund"
  match repeated [] out with
  | some dup => .error ("duplicate recipient " ++ dup ++ " — each address must appear once")
  | none =>
    Fallible.ensure (out.length ≤ maxRecipients)
      ("too many recipients (" ++ toString out.length ++ "); max " ++ toString maxRecipients ++ " per tx")
    return writers

def normalizeWriters (manifest : WriterAddresses) : Except String WriterAddresses := do
  checkRecipients (← manifest.mapM (normalizeWriter kit))

def flattenWriters (manifest : WriterAddresses) : Except String (List String) := do
  let writers ← normalizeWriters kit manifest
  return writers.flatMap Prod.snd

variable (data : TransactionData)

def inputForArgument (argument : Option Argument) (what : String) : Except String Input :=
  match argument with
  | some (.input index) => Fallible.require data.inputs[index]? (what ++ " refers to a missing transaction input")
  | _ => .error (what ++ " must refer to a transaction input")

def addressText (bytes : Bytes) : String := kit.normalizeSuiAddress ("0x" ++ Auth.hexEncode bytes)

-- The bytes of a decoded input are canonical base64; empty ones are refused there.
def pureBytes (argument : Option Argument) (what kind : String) : Except String Bytes := do
  match ← inputForArgument data argument what with
  | .pure bytes =>
    Fallible.ensure (bytes ≠ []) (what ++ " must be canonical base64")
    return bytes
  | _ => .error (what ++ " must be a pure " ++ kind)

def pureAddress (argument : Option Argument) (what : String) : Except String String := do
  let bytes ← pureBytes data argument what "address"
  Fallible.ensure (bytes.length = 32) (what ++ " must contain a Sui address")
  return addressText kit bytes

def pureU64 (argument : Option Argument) (what : String) : Except String Nat := do
  let bytes ← pureBytes data argument what "u64"
  Fallible.ensure (bytes.length = 8) (what ++ " must contain a u64")
  return Bytes.readLe bytes

def MoveCall.calls (call : MoveCall) (module function : String) : Bool :=
  kit.normalizeSuiAddress call.package = suiFramework kit ∧ call.module = module ∧ call.function = function

def MoveCall.typed (call : MoveCall) (coinType : String) : Bool :=
  match call.typeArguments with
  | [type] => kit.normalizeStructTag type = coinType
  | _ => false

def withdrawalAmount (coinType what : String) (input : Input) : Except String Nat :=
  let invalid : Except String Nat := .error (what ++ " has an invalid address-balance withdrawal")
  match input with
  | .fundsWithdrawal ⟨.maxAmountU64 amount,.balance type,.sender⟩ =>
    if kit.normalizeStructTag type = coinType then .ok amount else invalid
  | _ => invalid

def splitAmount (argument : Option Argument) (what : String) : Except String Nat := do
  match argument with
  | some (.nestedResult splitIndex outputIndex) =>
    match data.commands[splitIndex]? with
    | some (.splitCoins _ amounts) =>
      let amount ← Fallible.require amounts[outputIndex]? (what ++ " refers to a missing split amount")
      pureU64 data (some amount) (what ++ " split amount")
    | _ => .error (what ++ " does not consume a split coin")
  | _ => .error (what ++ " does not consume a split coin")

def outputAmount (argument : Option Argument) (coinType what : String) : Except String Nat := do
  match argument with
  | some (.nestedResult commandIndex resultIndex) =>
    match data.commands[commandIndex]? with
    | some (.moveCall moveCall) =>
      Fallible.ensure (resultIndex = 0) (what ++ " does not consume a balance-producing Move call")
      if moveCall.calls kit "balance" "redeem_funds" ∧ moveCall.typed kit coinType then
        withdrawalAmount kit coinType what (← inputForArgument data moveCall.arguments[0]? (what ++ " withdrawal"))
      else if moveCall.calls kit "coin" "into_balance" ∧ moveCall.typed kit coinType then
        splitAmount data moveCall.arguments[0]? what
      else .error (what ++ " has an unexpected balance source")
    | _ => .error (what ++ " does not consume a balance-producing Move call")
  | _ => .error (what ++ " must consume a prepared balance")

def MoveCall.target (call : MoveCall) : String := call.module ++ "::" ++ call.function

def allowedMoveCalls : List String := ["balance::redeem_funds","balance::send_funds","coin::redeem_funds",
  "coin::into_balance","coin::send_funds","coin::destroy_zero"]

variable (intent : FundingIntent kit)

def allowedTypes : List String := [kit.normalizeStructTag suiType,kit.normalizeStructTag intent.walType]

-- One turn of the loop over the commands, with the payment it adds.
def checkCommand (commandIndex : Nat) : Command → Except String (Option Payment)
  | .mergeCoins _ _ | .splitCoins _ _ => return none
  | .other kind => .error ("funding transaction contains unexpected " ++ kind ++ " command")
  | .moveCall call => do
    match call.typeArguments with
    | [type] =>
      Fallible.ensure (kit.normalizeSuiAddress call.package = suiFramework kit ∧ call.target ∈ allowedMoveCalls)
        ("funding transaction contains unexpected Move call " ++ call.target)
      let coinType := kit.normalizeStructTag type
      Fallible.ensure (coinType ∈ allowedTypes kit intent)
        ("funding transaction uses unexpected coin type " ++ coinType)
      if call.target = "coin::send_funds" then
        let recipient ← pureAddress kit data call.arguments[1]?
          ("command " ++ toString commandIndex ++ " remainder recipient")
        Fallible.ensure (recipient = intent.sender) "funding transaction sends a coin remainder away from sender"
        return none
      else if call.target ≠ "balance::send_funds" then return none
      else
        Fallible.ensure (call.arguments.length = 2)
          ("command " ++ toString commandIndex ++ " send_funds has invalid arguments")
        let address ← pureAddress kit data call.arguments[1]? ("command " ++ toString commandIndex ++ " recipient")
        let amount ← outputAmount kit data call.arguments[0]? coinType ("command " ++ toString commandIndex ++ " payment")
        return some ⟨address,coinType,amount⟩
    | _ => .error ("funding transaction contains unexpected Move call " ++ call.target)

def actualPayments : Nat → List Command → Except String (List Payment)
  | _,[] => return []
  | commandIndex,command :: rest => do
    let payment ← checkCommand kit data intent commandIndex command
    let others ← actualPayments (commandIndex+1) rest
    return payment.toList ++ others

def paymentsTo (address : String) : List Payment :=
  [⟨address,kit.normalizeStructTag suiType,intent.mistPerAddress⟩,
    ⟨address,kit.normalizeStructTag intent.walType,intent.frostPerAddress⟩]

def expectedPayments : Except String (List Payment) := do
  let addresses ← flattenWriters kit intent.writers
  return addresses.flatMap (paymentsTo kit intent)

def comparePayments : Nat → List Payment → List Payment → Except String Unit
  | index,actual :: others,expected :: more => do
    Fallible.ensure (actual = expected) ("funding transaction payment " ++ toString index ++ " does not match intent")
    comparePayments (index+1) others more
  | _,_,_ => return ()

def assertFundingTransaction (bytes : Bytes) : Except String TransactionData := do
  let data ← Fallible.require (kit.fromBytes bytes) "transaction bytes do not decode"
  Fallible.ensure (data.sender.any (fun sender => decide (sender ≠ "" ∧ kit.normalizeSuiAddress sender = intent.sender)))
    "funding transaction sender does not match the journal intent"
  Fallible.ensure (data.gasOwner.any (fun owner => decide (owner ≠ "" ∧ kit.normalizeSuiAddress owner = intent.sender)))
    "funding transaction gas owner does not match the sender"
  Fallible.ensure (data.gasBudget.getD 0 = intent.gasBudget)
    "funding transaction gas budget does not match the journal intent"
  let actual ← actualPayments kit data intent 0 data.commands
  let expected ← expectedPayments kit intent
  Fallible.ensure (actual.length = expected.length)
    ("funding transaction has " ++ toString actual.length ++ " payments; expected " ++ toString expected.length)
  comparePayments 0 actual expected
  return data

end Validator
end MemWal.Funding
