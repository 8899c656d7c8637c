import MemWal.Funding.Validator
import MemWal.Library.Store
import Mathlib.Logic.Function.Basic

namespace MemWal.Funding
open Library

-- What the commands of a programmable transaction do with coins and balances,
-- run one after another; a value is taken at most once.

inductive Place where
  | gas
  | input (index : Nat)
  | result (command result : Nat)
  deriving DecidableEq, Repr

inductive Asset where
  | coin (coinType : String) (value : Nat)
  | balance (coinType : String) (value : Nat)
  | withdrawal (coinType : String) (limit : Nat)
  deriving DecidableEq, Repr

def Asset.worth (coinType : String) : Asset → Nat
  | .coin type value | .balance type value => if type = coinType then value else 0
  | .withdrawal _ _ => 0

-- The coins on chain, and the address balance of the sender.
structure World where
  gasCoin : Option Nat
  coins : String → Option (String × Nat)
  funds : String → Nat

-- `payments` is what `balance::send_funds` has sent, `remainders` what
-- `coin::send_funds` has; `drift` is what was merged into each coin less what was
-- split from it.
structure State where
  assets : Store Place Asset
  funds : String → Nat
  payments : List Payment := []
  remainders : List Payment := []
  drift : Place → Int := fun _ => 0

def u64Max : Nat := 2^64 - 1

section Semantics
variable (kit : Kit) (data : TransactionData)

-- The results that a later command can name with `Result`.
def resultCount : Command → Nat
  | .splitCoins _ amounts => amounts.length
  | .moveCall call => if call.function = "redeem_funds" ∨ call.function = "into_balance" then 1 else 0
  | _ => 0

def resolve : Argument → Option Place
  | .gasCoin => some .gas
  | .input index => some (.input index)
  | .nestedResult command result => some (.result command result)
  | .result command => if (data.commands[command]?).map resultCount = some 1 then some (.result command 0) else none

def pureBytesAt : Argument → Option Bytes
  | .input index =>
    match data.inputs[index]? with
    | some (.pure bytes) => some bytes
    | _ => none
  | _ => none

def u64At (argument : Argument) : Option Nat := do
  let bytes ← pureBytesAt data argument
  if bytes.length = 8 then some (Bytes.readLe bytes) else none

def addressAt (argument : Argument) : Option String := do
  let bytes ← pureBytesAt data argument
  if bytes.length = 32 then some (addressText kit bytes) else none

def State.coinAt (s : State) (place : Place) : Option (String × Nat) :=
  match s.assets.get? place with
  | some (.coin type value) => some (type,value)
  | _ => none

def State.withCoin (s : State) (place : Place) (type : String) (value : Nat) (change : Int) : State :=
  {s with
    assets := s.assets.put place (.coin type value)
    drift := Function.update s.drift place (s.drift place + change)}

def State.drop (s : State) (place : Place) : State := {s with assets := s.assets.erase place}

def State.add (s : State) (place : Place) (asset : Asset) : State := {s with assets := s.assets.insert place asset}

def State.addCoins (s : State) (command : Nat) (type : String) : Nat → List Nat → State
  | _,[] => s
  | j,value :: rest => (s.add (.result command j) (.coin type value)).addCoins command type (j+1) rest

-- `SplitCoins`
def splitCoins (s : State) (index : Nat) (coin : Argument) (amounts : List Argument) : Option State := do
  let place ← resolve data coin
  let (type,value) ← s.coinAt place
  let values ← amounts.mapM (u64At data)
  if values.sum ≤ value then
    some ((s.withCoin place type (value - values.sum) (-values.sum)).addCoins index type 0 values)
  else none

-- The sources of `MergeCoins`, each of the type of the destination.
def takeCoins (type : String) (destination : Place) : State → List Argument → Option (State × Nat)
  | s,[] => some (s,0)
  | s,source :: rest => do
    let place ← resolve data source
    let (found,value) ← s.coinAt place
    if found = type ∧ place ≠ destination then
      let (after,others) ← takeCoins type destination (s.drop place) rest
      some (after,value + others)
    else none

-- `MergeCoins`
def mergeCoins (s : State) (destination : Argument) (sources : List Argument) : Option State := do
  let place ← resolve data destination
  let (type,value) ← s.coinAt place
  let (after,merged) ← takeCoins data type place s sources
  if value + merged ≤ u64Max then some (after.withCoin place type (value + merged) merged) else none

-- `balance::redeem_funds` and `coin::redeem_funds`
def redeemFunds (s : State) (index : Nat) (type : String) (argument : Argument) (asset : String → Nat → Asset) :
    Option State := do
  let place ← resolve data argument
  match s.assets.get? place with
  | some (.withdrawal found limit) =>
    if found = type ∧ limit ≤ s.funds type then
      some {(s.drop place).add (.result index 0) (asset type limit) with
        funds := Function.update s.funds type (s.funds type - limit)}
    else none
  | _ => none

-- `coin::into_balance`
def intoBalance (s : State) (index : Nat) (type : String) (argument : Argument) : Option State := do
  let place ← resolve data argument
  let (found,value) ← s.coinAt place
  if found = type then some ((s.drop place).add (.result index 0) (.balance type value)) else none

-- `balance::send_funds`
def sendBalance (s : State) (type : String) (argument recipient : Argument) : Option State := do
  let place ← resolve data argument
  let address ← addressAt kit data recipient
  match s.assets.get? place with
  | some (.balance found value) =>
    if found = type then some {s.drop place with payments := s.payments ++ [⟨address,type,value⟩]} else none
  | _ => none

-- `coin::send_funds`
def sendCoin (s : State) (type : String) (argument recipient : Argument) : Option State := do
  let place ← resolve data argument
  let address ← addressAt kit data recipient
  let (found,value) ← s.coinAt place
  if found = type then some {s.drop place with remainders := s.remainders ++ [⟨address,type,value⟩]} else none

-- `coin::destroy_zero`
def destroyZero (s : State) (type : String) (argument : Argument) : Option State := do
  let place ← resolve data argument
  let (found,value) ← s.coinAt place
  if found = type ∧ value = 0 then some (s.drop place) else none

def moveCall (s : State) (index : Nat) (call : MoveCall) : Option State :=
  match call.typeArguments with
  | [type] =>
    let coinType := kit.normalizeStructTag type
    if kit.normalizeSuiAddress call.package ≠ suiFramework kit then none
    else if call.module = "balance" ∧ call.function = "redeem_funds" then
      match call.arguments with
      | [withdrawal] => redeemFunds data s index coinType withdrawal .balance
      | _ => none
    else if call.module = "balance" ∧ call.function = "send_funds" then
      match call.arguments with
      | [balance,recipient] => sendBalance kit data s coinType balance recipient
      | _ => none
    else if call.module = "coin" ∧ call.function = "redeem_funds" then
      match call.arguments with
      | [withdrawal] => redeemFunds data s index coinType withdrawal .coin
      | _ => none
    else if call.module = "coin" ∧ call.function = "into_balance" then
      match call.arguments with
      | [coin] => intoBalance data s index coinType coin
      | _ => none
    else if call.module = "coin" ∧ call.function = "send_funds" then
      match call.arguments with
      | [coin,recipient] => sendCoin kit data s coinType coin recipient
      | _ => none
    else if call.module = "coin" ∧ call.function = "destroy_zero" then
      match call.arguments with
      | [coin] => destroyZero data s coinType coin
      | _ => none
    else none
  | _ => none

-- The commands that a funding transaction may hold; of others nothing is said.
def execCommand (s : State) (index : Nat) : Command → Option State
  | .splitCoins coin amounts => splitCoins data s index coin amounts
  | .mergeCoins destination sources => mergeCoins data s destination sources
  | .moveCall call => moveCall kit data s index call
  | .other _ => none

def execCommands (s : State) : Nat → List Command → Option State
  | _,[] => some s
  | index,command :: rest => do
    let next ← execCommand kit data s index command
    execCommands next (index+1) rest

-- A withdrawal from the sponsor is one from the gas owner.
def inputAsset (world : World) : Input → Option Asset
  | .pure _ => none
  | .object object => (world.coins object.objectId).map (fun coin => .coin coin.1 coin.2)
  | .fundsWithdrawal withdrawal =>
    match withdrawal.typeArg with
    | .other => none
    | .balance type =>
      if withdrawal.withdrawFrom = .sender ∨
          data.gasOwner.map kit.normalizeSuiAddress = data.sender.map kit.normalizeSuiAddress then
        match withdrawal.reservation with
        | .maxAmountU64 amount | .other amount => some (.withdrawal (kit.normalizeStructTag type) amount)
      else none

def inputAssets (world : World) : Nat → List Input → List (Place × Asset)
  | _,[] => []
  | index,input :: rest =>
    ((inputAsset kit data world input).map (fun asset => (.input index,asset))).toList ++ inputAssets world (index+1) rest

def initial (world : World) : State where
  assets := ((Store.empty : Store Place Asset).insertAll
    ((world.gasCoin.map (fun value => (.gas,.coin (kit.normalizeStructTag suiType) value))).toList ++
      inputAssets kit data world 0 data.inputs))
  funds := world.funds

-- Coins and balances that nothing has taken make the transaction fail.
def State.settled (s : State) : Bool :=
  s.assets.entries.all (fun entry => match entry.1 with
    | .result _ _ => false
    | _ => true)

def objectIds : List Input → List String
  | [] => []
  | .object object :: rest => object.objectId :: objectIds rest
  | _ :: rest => objectIds rest

-- No object is an input twice.
def execute (world : World) : Option State := do
  let final ← execCommands kit data (initial kit data world) 0 data.commands
  if (objectIds data.inputs).Nodup ∧ final.settled = true then some final else none

end Semantics
end MemWal.Funding
