import MemWal.Library.Bytes
import Mathlib.Algebra.Group.Int.Defs
import Mathlib.Data.String.Basic

namespace MemWal.Auth
open Library

-- `u8`/`i64` parsing as the standard library and the `hex` crate do it.

def hexDigit (c : Char) : Option UInt8 :=
  if '0' ≤ c ∧ c ≤ '9' then some (UInt8.ofNat (c.toNat - '0'.toNat))
  else if 'a' ≤ c ∧ c ≤ 'f' then some (UInt8.ofNat (c.toNat - 'a'.toNat + 10))
  else if 'A' ≤ c ∧ c ≤ 'F' then some (UInt8.ofNat (c.toNat - 'A'.toNat + 10))
  else none

def hexBytes : List Char → Option Bytes
  | [] => some []
  | [_] => none
  | high :: low :: rest => do
    let h ← hexDigit high
    let l ← hexDigit low
    return (h * 16 + l) :: (← hexBytes rest)

def hexDecode (text : String) : Option Bytes := hexBytes text.toList

def hexEncode (bytes : Bytes) : String :=
  let digit (n : Nat) : Char := if n < 10 then Char.ofNat ('0'.toNat + n) else Char.ofNat ('a'.toNat + (n - 10))
  String.ofList (bytes.flatMap (fun b => [digit (b.toNat / 16),digit (b.toNat % 16)]))

def hexLetter (n : Nat) : Char := if n < 10 then Char.ofNat ('0'.toNat + n) else Char.ofNat ('a'.toNat + (n - 10))

theorem hexEncode_letters (bytes : Bytes) :
    (hexEncode bytes).toList = bytes.flatMap (fun b => [hexLetter (b.toNat / 16),hexLetter (b.toNat % 16)]) :=
  String.toList_ofList

theorem hexEncode_length (bytes : Bytes) : (hexEncode bytes).toList.length = 2 * bytes.length := by
  rw [hexEncode_letters]
  induction bytes with
  | nil => rfl
  | cons b rest ih =>
    rw [List.flatMap_cons,List.length_append,ih,List.length_cons]
    simp only [List.length_cons,List.length_nil]
    omega

theorem nibbles (b : UInt8) : b.toNat / 16 < 16 ∧ b.toNat % 16 < 16 := by
  have bound := b.toNat_lt
  omega

theorem hexLetter_injective : ∀ m, m < 16 → ∀ n, n < 16 → hexLetter m = hexLetter n → m = n := by decide

theorem hexEncode_injective {x y : Bytes} (same : hexEncode x = hexEncode y) : x = y := by
  have letters := congrArg String.toList same
  rw [hexEncode_letters,hexEncode_letters] at letters
  clear same
  induction x generalizing y with
  | nil =>
    cases y with
    | nil => rfl
    | cons b rest => cases letters
  | cons a x ih =>
    cases y with
    | nil => cases letters
    | cons b y =>
      rw [List.flatMap_cons,List.flatMap_cons] at letters
      simp only [List.cons_append,List.nil_append,List.cons.injEq] at letters
      obtain ⟨high,low,rest⟩ := letters
      have highs := hexLetter_injective _ (nibbles a).1 _ (nibbles b).1 high
      have lows := hexLetter_injective _ (nibbles a).2 _ (nibbles b).2 low
      have numbers : a.toNat = b.toNat := by omega
      rw [UInt8.toNat_inj.mp numbers,ih rest]

def i64Min : Int := -(2^63)
def i64Max : Int := 2^63 - 1

def parseDigits : List Char → Option Nat
  | [] => none
  | digits => if digits.all Char.isDigit then
      some (digits.foldl (fun n c => n * 10 + (c.toNat - '0'.toNat)) 0)
    else none

def parseI64 (text : String) : Option Int := do
  let value ← match text.toList with
    | '-' :: digits => (parseDigits digits).map (fun n => -(n : Int))
    | '+' :: digits => (parseDigits digits).map Int.ofNat
    | digits => (parseDigits digits).map Int.ofNat
  if i64Min ≤ value ∧ value ≤ i64Max then some value else none

def checkedSub (a b : Int) : Option Int := if i64Min ≤ a - b ∧ a - b ≤ i64Max then some (a - b) else none

-- What the middleware takes from other crates.
structure Kit where
  uuidVersion : String → Option Nat
  validKey : Bytes → Bool
  verify : Bytes → String → Bytes → Bool
  sha256 : Hash256
  base64 : String → Option Bytes

abbrev AccountId := String
abbrev Owner := String

structure AuthInfo where
  publicKey : String
  owner : Owner
  accountId : AccountId
  delegateKey : Option String
  sealSession : Option String
  deriving DecidableEq, Repr

-- A request as `verify_signature` sees it: the headers it reads, where they hold
-- visible text, and the body.
structure SignedRequest where
  publicKey : Option String
  signature : Option String
  timestamp : Option String
  nonce : Option String
  accountId : Option AccountId
  delegateKey : Option String
  sealSession : Option String
  method : String
  pathAndQuery : String
  body : Bytes
  deriving DecidableEq, Repr

-- What the signature of such a request covers.
structure SignedMessage where
  timestamp : String
  method : String
  pathAndQuery : String
  body : Bytes
  nonce : String
  accountId : AccountId
  deriving DecidableEq, Repr

def SignedMessage.text (kit : Kit) (message : SignedMessage) : String :=
  message.timestamp ++ "." ++ message.method ++ "." ++ message.pathAndQuery ++ "." ++
    hexEncode (kit.sha256.digest message.body) ++ "." ++ message.nonce ++ "." ++ message.accountId

-- A sponsor request after its body was parsed.
structure SponsorRequest where
  sender : String
  transactionKindBytes : Bytes
  authSignature : Option String
  authTimestamp : Option Int
  authNonce : Option String
  deriving DecidableEq, Repr

structure SponsorMessage where
  sender : String
  transactionKindBytes : Bytes
  timestamp : Int
  nonce : String
  deriving DecidableEq, Repr

def SponsorMessage.text (kit : Kit) (message : SponsorMessage) : String :=
  "MemWal sponsor authorization\nsender: " ++ message.sender ++ "\ntransaction-kind-sha256: " ++
    hexEncode (kit.sha256.digest message.transactionKindBytes) ++ "\ntimestamp: " ++ toString message.timestamp ++
    "\nnonce: " ++ message.nonce

-- A signed message with its signature, on either of the two routes.
inductive Credential where
  | signed (message : SignedMessage) (signature : Bytes)
  | sponsor (message : SponsorMessage) (signature : String)
  deriving DecidableEq, Repr

namespace Credential

def nonceKey : Credential → String
  | .signed message _ => "nonce:" ++ message.nonce
  | .sponsor message _ => "sponsor:auth:nonce:" ++ message.nonce

def timestamp : Credential → Option Int
  | .signed message _ => parseI64 message.timestamp
  | .sponsor message _ => some message.timestamp

end Credential

-- What the two routes answer on failure.
inductive Rejection where
  | unauthorized | badRequest | upgradeRequired
  | sponsor (status : Nat) (message : String)
  deriving DecidableEq, Repr

-- An on-chain object as the full node reports it.
structure AccountFields where
  owner : Option Owner
  active : Option Bool
  delegateKeys : Option (List Bytes)
  deriving DecidableEq, Repr

structure ObjectContent where
  objectType : Option String
  fields : Option AccountFields
  deriving DecidableEq, Repr

inductive OnchainVerifyError where
  | rpcError | keyNotFound | accountDeactivated | wrongObjectType | scanCapExceeded
  deriving DecidableEq, Repr

structure Config where
  packageId : String
  suiNetwork : String
  memwalAccountId : Option AccountId
  registryScanMaxPages : Nat
  deriving DecidableEq, Repr

end MemWal.Auth
