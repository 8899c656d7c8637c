import MemWal.Account.Types
import MemWal.Library.Numerals
import MemWal.Library.Pairs

namespace MemWal.Indexer
open Library Library.Fallible Account

abbrev Text := List Char

-- An event as a checkpoint carries it: its type and its BCS bytes.
structure Ev where
  address : Address
  moduleName : String
  name : String
  contents : Bytes
  deriving DecidableEq

-- The events of each transaction; a failed one has none.
abbrev Checkpoint := List (Option (List Ev))

inductive Failure where
  | eof
  | remainingInput
  | refused (reason : Refusal)
  deriving DecidableEq, Repr

structure AccountCreatedEvent where
  accountId : Bytes32
  owner : Bytes32
  deriving DecidableEq

def read32 (bytes : Bytes) : Except Failure (Bytes32 × Bytes) :=
  if enough : 32 ≤ bytes.length then .ok (⟨bytes.take 32,by simpa using enough⟩,bytes.drop 32) else .error .eof

-- `bcs::from_bytes`: every field in turn, and nothing left at the end.
def fromBytes (bytes : Bytes) : Except Failure AccountCreatedEvent := do
  let (accountId,rest) ← read32 bytes
  let (owner,rest) ← read32 rest
  ensure (rest = []) .remainingInput
  return ⟨accountId,owner⟩

structure StoredAccount where
  accountId : Text
  owner : Text
  deriving DecidableEq, Repr

def hexText (id : Bytes32) : Text := '0' :: 'x' :: Numerals.toHex id.bytes

def processEvent (package : Address) (rows : List StoredAccount) (ev : Ev) : Except Failure (List StoredAccount) := do
  if ev.address = package ∧ ev.moduleName = "account" ∧ ev.name = "AccountCreated" then
    let parsed ← fromBytes ev.contents
    return rows ++ [⟨hexText parsed.accountId,hexText parsed.owner⟩]
  return rows

def process (package : Address) (checkpoint : Checkpoint) : Except Failure (List StoredAccount) :=
  checkpoint.foldlM (fun rows tx => (tx.getD []).foldlM (processEvent package) rows) []

-- The accounts table: account_id is its primary key, owner is UNIQUE.
abbrev AccountsTable := Pairs Text Text

def StoredAccount.row (account : StoredAccount) : Text × Text := (account.accountId,account.owner)

-- One INSERT of all values, with the number of rows it affects.
def commit (values : List StoredAccount) (table : AccountsTable) : Except Failure (AccountsTable × Nat) :=
  match table.upsertAll (values.map StoredAccount.row) with
  | .ok next => .ok (next,values.length)
  | .error reason => .error (.refused reason)

-- One commit of the pipeline: the rows of the checkpoints that it groups.
def commitBatch (package : Address) (checkpoints : List Checkpoint) (table : AccountsTable)
    (batch : List (Fin checkpoints.length)) : Except Failure AccountsTable := do
  let values ← batch.mapM (fun n => process package (checkpoints.get n))
  let (next,_) ← commit values.flatten table
  return next

-- A whole schedule of commits, from the table that the migrations create.
def index (package : Address) (checkpoints : List Checkpoint) (schedule : List (List (Fin checkpoints.length))) :
    Except Failure AccountsTable := schedule.foldlM (commitBatch package checkpoints) .empty

theorem hexText_injective {a b : Bytes32} (same : hexText a = hexText b) : a = b := by
  have digits : Numerals.toHex a.bytes = Numerals.toHex b.bytes := by
    injection same with _ rest
    injection rest
  have bytes := congrArg Numerals.pairBytes digits
  rw [Numerals.pairBytes_toHex,Numerals.pairBytes_toHex] at bytes
  exact Bytes32.ext bytes

theorem read32_append (id : Bytes32) (rest : Bytes) : read32 (id.bytes ++ rest) = .ok (id,rest) := by
  have enough : 32 ≤ (id.bytes ++ rest).length := by
    rw [List.length_append,id.length32]
    omega
  have front : (id.bytes ++ rest).take 32 = id.bytes := List.take_left' id.length32
  have back : (id.bytes ++ rest).drop 32 = rest := List.drop_left' id.length32
  rw [read32,dif_pos enough]
  simp only [front,back]

theorem fromBytes_written (accountId owner : Bytes32) :
    fromBytes (accountId.bytes ++ owner.bytes) = .ok ⟨accountId,owner⟩ := by
  have second : read32 owner.bytes = .ok (owner,[]) := by
    have read := read32_append owner []
    rwa [List.append_nil] at read
  simp only [fromBytes,bind_ok,ensure_ok,pure_ok]
  exact ⟨_,read32_append accountId owner.bytes,_,second,(),rfl,rfl⟩

end MemWal.Indexer
