import MemWal.Auth.Types
import MemWal.Library.Crews
import MemWal.Library.Expiring

namespace MemWal.Auth
open Library Library.Expiring

-- Times are in milliseconds.
structure CachedKey where
  accountId : AccountId
  owner : Owner
  expiresAt : Nat
  deriving DecidableEq, Repr

structure Grant where
  credential : Credential
  at_ : Nat
  -- Whether the request heard of it.
  passed : Bool
  deriving DecidableEq, Repr

-- The shared parts of the server, and the nonces that were recorded.
structure World where
  clock : Nat := 0
  nonces : Store String Nat := .empty
  cache : Store String CachedKey := .empty
  objects : Store AccountId ObjectContent := .empty
  registry : List AccountId := []
  grants : List Grant := []

inductive Op where
  | now
  | readBody
  | setNonce (key : String) (seconds : Nat) (credential : Credential)
  | getCachedAccount (publicKey : String)
  | deleteCachedKey (publicKey : String)
  | cacheDelegateKey (publicKey : String) (accountId : AccountId) (owner : Owner)
  | getObject (objectId : AccountId)
  | scanPermit
  | registryPage (cursor : Nat)
  | verifyPersonal (sender : String) (message : String) (signature : String)
  | run (auth : AuthInfo)
  deriving DecidableEq, Repr

structure RegistryPage where
  accounts : List AccountId
  nextCursor : Option Nat
  deriving DecidableEq, Repr

inductive SdCode where
  | rpcUnavailable | internalError | invalidSignature
  deriving DecidableEq, Repr

@[reducible] def Answer : Op → Type
  | .now => Int
  | .readBody => Bool
  | .setNonce _ _ _ => Except Unit Bool
  | .getCachedAccount _ => Except Unit (Option (AccountId × Owner))
  | .deleteCachedKey _ | .cacheDelegateKey _ _ _ => Except Unit Unit
  | .getObject _ => Option ObjectContent
  | .scanPermit => Bool
  | .registryPage _ => Option RegistryPage
  | .verifyPersonal _ _ _ => Except SdCode Unit
  | .run _ => Unit

-- How a call goes: it is lost before or after it takes effect, or it works; the
-- wallet verifier answers what it likes.
inductive Fault where
  | before | after
  deriving DecidableEq, Repr

structure Choice where
  fault : Option Fault := none
  verified : Except SdCode Unit := .ok ()

def fallible {α : Type} (s next : World) (answer : α) : Option Fault → World × Except Unit α
  | none => (next,.ok answer)
  | some .before => (s,.error ())
  | some .after => (next,.error ())

def World.setNonce (s : World) (key : String) (seconds : Nat) (credential : Credential) (passed : Bool) :
    World × Bool :=
  let (nonces,recorded) := setIfAbsent s.nonces s.clock (seconds * 1000) key
  ({s with
    nonces := nonces
    grants := if recorded then s.grants ++ [⟨credential,s.clock,passed⟩] else s.grants},recorded)

def World.cached (s : World) (publicKey : String) : Option CachedKey :=
  (s.cache.get? publicKey).filter (fun row => decide (s.clock < row.expiresAt))

def oneDay : Nat := 24 * 60 * 60 * 1000

def serve (s : World) : (op : Op) → Choice → World × Answer op
  | .now,_ => (s,(s.clock / 1000 : Nat))
  | .readBody,c => (s,c.fault.isNone)
  | .setNonce key seconds credential,c =>
    let (next,recorded) := s.setNonce key seconds credential c.fault.isNone
    fallible s next recorded c.fault
  | .getCachedAccount publicKey,c =>
    fallible s s ((s.cached publicKey).map (fun row => (row.accountId,row.owner))) c.fault
  | .deleteCachedKey publicKey,c => fallible s {s with cache := s.cache.erase publicKey} () c.fault
  | .cacheDelegateKey publicKey accountId owner,c =>
    fallible s {s with cache := s.cache.upsert publicKey ⟨accountId,owner,s.clock + oneDay⟩} () c.fault
  | .getObject objectId,c => (s,if c.fault.isNone then s.objects.get? objectId else none)
  | .scanPermit,c => (s,c.fault.isNone)
  | .registryPage cursor,c =>
    let rest := s.registry.drop (cursor * 50)
    (s,if c.fault.isNone then
        some ⟨rest.take 50,if rest.length ≤ 50 then none else some (cursor + 1)⟩
      else none)
  | .verifyPersonal _ _ _,c => (s,c.verified)
  | .run _,_ => (s,())

abbrev Handler := Program Op Answer Rejection

abbrev Onchain := Program Op Answer OnchainVerifyError

def call {ε : Type} (op : Op) : Program Op Answer ε (Answer op) := .perform op

def get {α ε : Type} (value : Option α) (error : ε) : Program Op Answer ε α := .orFail id (Fallible.require value error)

def check {ε : Type} (condition : Prop) [Decidable condition] (error : ε) : Program Op Answer ε Unit :=
  .orFail id (Fallible.ensure condition error)

-- storage/sui.rs

def memwalAccountType (config : Config) : String := config.packageId ++ "::account::MemWalAccount"

def checkAccount (config : Config) (publicKey : Bytes) (object : Option ObjectContent) :
    Except OnchainVerifyError Owner := do
  let content ← Fallible.require object .rpcError
  Fallible.ensure (content.objectType = some (memwalAccountType config)) .wrongObjectType
  let fields ← Fallible.require content.fields .rpcError
  let owner ← Fallible.require fields.owner .rpcError
  let active ← Fallible.require fields.active .rpcError
  Fallible.ensure (active = true) .accountDeactivated
  let delegateKeys ← Fallible.require fields.delegateKeys .rpcError
  Fallible.ensure (publicKey ∈ delegateKeys) .keyNotFound
  return owner

def verifyDelegateKeyOnchain (config : Config) (accountObjectId : AccountId) (publicKey : Bytes) : Onchain Owner := do
  let object ← call (.getObject accountObjectId)
  .orFail id (checkAccount config publicKey object)

-- The accounts of one page, in order; a key that is not found lets the scan go on.
def scanAccounts (config : Config) (publicKey : Bytes) : List AccountId → Onchain (Option (AccountId × Owner))
  | [] => return none
  | accountId :: rest => do
    match ← (verifyDelegateKeyOnchain config accountId publicKey).attempt with
    | .ok owner => return some (accountId,owner)
    | .error .keyNotFound => scanAccounts config publicKey rest
    | .error error => .fail error

def scanPages (config : Config) (publicKey : Bytes) : Nat → Nat → Onchain (AccountId × Owner)
  | 0,_ => .fail .scanCapExceeded
  | pages + 1,cursor => do
    let page ← get (← call (.registryPage cursor)) .rpcError
    match ← scanAccounts config publicKey page.accounts with
    | some found => return found
    | none =>
      match page.nextCursor with
      | none => .fail .keyNotFound
      | some next => scanPages config publicKey pages next

def findAccountByDelegateKey (config : Config) (publicKey : Bytes) : Onchain (AccountId × Owner) :=
  scanPages config publicKey config.registryScanMaxPages 0

-- auth.rs

def exactAccount (config : Config) (publicKeyHex : String) (publicKey : Bytes) (accountIdHint : Option AccountId) :
    Program Op Answer Unit (AccountId × Owner) := do
  match accountIdHint <|> config.memwalAccountId with
  | some exactAccountId =>
    match ← (verifyDelegateKeyOnchain config exactAccountId publicKey).attempt with
    | .error _ => .fail ()
    | .ok owner =>
      let _ ← call (.cacheDelegateKey publicKeyHex exactAccountId owner)
      return (exactAccountId,owner)
  | none =>
    check (config.suiNetwork ≠ "testnet") ()
    let permit ← call .scanPermit
    check (permit = true) ()
    match ← (findAccountByDelegateKey config publicKey).attempt with
    | .error _ => .fail ()
    | .ok (accountId,owner) =>
      let _ ← call (.cacheDelegateKey publicKeyHex accountId owner)
      return (accountId,owner)

def resolveAccount (config : Config) (publicKeyHex : String) (publicKey : Bytes) (accountIdHint : Option AccountId) :
    Program Op Answer Unit (AccountId × Owner) := do
  match ← call (.getCachedAccount publicKeyHex) with
  | .ok (some (cachedAccountId,_)) =>
    match ← (verifyDelegateKeyOnchain config cachedAccountId publicKey).attempt with
    | .ok owner => return (cachedAccountId,owner)
    | .error _ =>
      let _ ← call (.deleteCachedKey publicKeyHex)
      exactAccount config publicKeyHex publicKey accountIdHint
  | _ => exactAccount config publicKeyHex publicKey accountIdHint

-- The calls that the resolution of an account makes.
def Resolves : Op → Prop
  | .getCachedAccount _ | .deleteCachedKey _ | .cacheDelegateKey _ _ _ | .getObject _ | .scanPermit
  | .registryPage _ => True
  | _ => False

section Resolves
variable {config : Config} {ε : Type}

theorem call_resolves {op : Op} (resolves : Resolves op) : (call op : Program Op Answer ε (Answer op)).Only Resolves :=
  .perform resolves

theorem verifyDelegateKeyOnchain_only (accountId : AccountId) (publicKey : Bytes) :
    (verifyDelegateKeyOnchain config accountId publicKey).Only Resolves :=
  .bind (call_resolves trivial) (fun _ => .orFail _)

theorem scanAccounts_only (publicKey : Bytes) (accounts : List AccountId) :
    (scanAccounts config publicKey accounts).Only Resolves := by
  induction accounts with
  | nil => trivial
  | cons accountId rest ih =>
    refine .bind (verifyDelegateKeyOnchain_only accountId publicKey).attempt (fun verified => ?_)
    split
    · trivial
    · exact ih
    · trivial

theorem scanPages_only (publicKey : Bytes) (pages cursor : Nat) :
    (scanPages config publicKey pages cursor).Only Resolves := by
  induction pages generalizing cursor with
  | zero => trivial
  | succ pages ih =>
    refine .bind (call_resolves trivial) (fun answer => .bind (.orFail _) (fun page => ?_))
    refine .bind (scanAccounts_only publicKey page.accounts) (fun found => ?_)
    split
    · trivial
    · split
      · trivial
      · exact ih _

theorem exactAccount_only (publicKeyHex : String) (publicKey : Bytes) (hint : Option AccountId) :
    (exactAccount config publicKeyHex publicKey hint).Only Resolves := by
  unfold exactAccount
  split
  · refine .bind (verifyDelegateKeyOnchain_only _ publicKey).attempt (fun verified => ?_)
    split
    · trivial
    · exact .bind (call_resolves trivial) (fun _ => trivial)
  · refine .bind (.orFail _) (fun _ => .bind (call_resolves trivial) (fun _ => .bind (.orFail _) (fun _ => ?_)))
    refine .bind (scanPages_only publicKey _ _).attempt (fun found => ?_)
    split
    · trivial
    · exact .bind (call_resolves trivial) (fun _ => trivial)

theorem resolveAccount_only (publicKeyHex : String) (publicKey : Bytes) (hint : Option AccountId) :
    (resolveAccount config publicKeyHex publicKey hint).Only Resolves := by
  refine .bind (call_resolves trivial) (fun cached => ?_)
  split
  · refine .bind (verifyDelegateKeyOnchain_only _ publicKey).attempt (fun verified => ?_)
    split
    · trivial
    · exact .bind (call_resolves trivial) (fun _ => exactAccount_only publicKeyHex publicKey hint)
  · exact exactAccount_only publicKeyHex publicKey hint

end Resolves

def protectedBodyLimitBytes : Nat := 2 * 1024 * 1024

def inWindow (now timestamp : Int) : Bool :=
  let age := (checkedSub now timestamp).getD i64Max
  decide (-300 ≤ age ∧ age ≤ 300)

-- The part that comes before the account is looked up.
structure Signed where
  publicKeyHex : String
  publicKey : Bytes
  message : SignedMessage
  signature : Bytes

def decodeRequest (kit : Kit) (request : SignedRequest) : Handler Signed := do
  let publicKeyHex ← get request.publicKey .unauthorized
  let signatureHex ← get request.signature .unauthorized
  let timestampStr ← get request.timestamp .unauthorized
  let nonce ← get request.nonce .upgradeRequired
  check ((kit.uuidVersion nonce).isSome = true) .unauthorized
  let timestamp ← get (parseI64 timestampStr) .unauthorized
  let now ← call .now
  check (inWindow now timestamp = true) .unauthorized
  let publicKey ← get (hexDecode publicKeyHex) .unauthorized
  check (publicKey.length = 32) .unauthorized
  check (kit.validKey publicKey = true) .unauthorized
  let signature ← get (hexDecode signatureHex) .unauthorized
  check (signature.length = 64) .unauthorized
  return ⟨publicKeyHex,publicKey,⟨timestampStr,request.method,request.pathAndQuery,request.body,nonce,
    request.accountId.getD ""⟩,signature⟩

def recordNonce (credential : Credential) : Handler Unit := do
  let recorded ← call (.setNonce credential.nonceKey 600 credential)
  check (recorded.toOption = some true) .unauthorized

def verifySignature (kit : Kit) (config : Config) (request : SignedRequest) : Handler Unit := do
  let signed ← decodeRequest kit request
  let read ← call .readBody
  check (read = true ∧ request.body.length ≤ protectedBodyLimitBytes) .badRequest
  check (kit.verify signed.publicKey (signed.message.text kit) signed.signature = true) .unauthorized
  recordNonce (.signed signed.message signed.signature)
  match ← (resolveAccount config signed.publicKeyHex signed.publicKey request.accountId).attempt with
  | .error _ => .fail .unauthorized
  | .ok (accountId,owner) =>
    call (.run ⟨signed.publicKeyHex,owner,accountId,request.delegateKey,request.sealSession⟩)

-- routes/sponsor.rs

def sponsorAuthWindowSeconds : Int := 300
def sponsorAuthNonceTtlSeconds : Nat := 600
def maxWalletAuthSignatureBytes : Nat := 8192

def required : Rejection := .sponsor 401 "Sponsor authorization required"
def invalid : Rejection := .sponsor 401 "Invalid sponsor authorization"

def authenticateSponsorRequest (kit : Kit) (request : SponsorRequest) : Handler Unit := do
  let signature ← get request.authSignature required
  let timestamp ← get request.authTimestamp required
  let nonce ← get request.authNonce required
  let now ← call .now
  let age := (checkedSub now timestamp).getD i64Max
  let signatureLen := (kit.base64 signature).map List.length
  check ((-sponsorAuthWindowSeconds ≤ age ∧ age ≤ sponsorAuthWindowSeconds) ∧ kit.uuidVersion nonce = some 4 ∧
    signatureLen.any (fun len => decide (65 ≤ len ∧ len ≤ maxWalletAuthSignatureBytes)) = true) invalid
  let message : SponsorMessage := ⟨request.sender,request.transactionKindBytes,timestamp,nonce⟩
  let credential := Credential.sponsor message signature
  match ← call (.setNonce credential.nonceKey sponsorAuthNonceTtlSeconds credential) with
  | .error _ => .fail (.sponsor 503 "Sponsor auth Redis unavailable")
  | .ok reserved =>
    check (reserved = true) invalid
    match ← call (.verifyPersonal request.sender (message.text kit) signature) with
    | .ok _ => return ()
    | .error .rpcUnavailable | .error .internalError =>
      .fail (.sponsor 503 "Sponsor wallet verification unavailable")
    | .error _ => .fail invalid

-- Both routes on one server, amid a clock that only goes forward, a chain that
-- changes and a cache that is swept.

inductive Request where
  | signed (request : SignedRequest)
  | sponsor (request : SponsorRequest)

inductive Event where
  | wait (milliseconds : Nat)
  | object (accountId : AccountId) (content : Option ObjectContent)
  | registered (accountId : AccountId)
  | evictExpiredDelegateKeys

def happen (s : World) : Event → World
  | .wait milliseconds => {s with clock := s.clock + milliseconds}
  | .object accountId none => {s with objects := s.objects.erase accountId}
  | .object accountId (some content) => {s with objects := s.objects.upsert accountId content}
  | .registered accountId => {s with registry := s.registry ++ [accountId]}
  | .evictExpiredDelegateKeys => {s with cache := s.cache.keep (fun _ row => decide (s.clock < row.expiresAt))}

def server (kit : Kit) (config : Config) : Crew Op Answer World Choice Rejection Unit Request Event where
  service := ⟨fun s _ op c => serve s op c,fun s _ => s⟩
  program
    | .signed request => verifySignature kit config request
    | .sponsor request => authenticateSponsorRequest kit request
  happen := happen

abbrev Pooled := Pool World (Program Op Answer Rejection Unit)

abbrev Act := Move Request Choice Event

def at_ (kit : Kit) (config : Config) (start : World) (acts : List Act) (i : Nat) : Pooled :=
  Runs.before (server kit config).exec ⟨start,.empty⟩ acts i

-- The calls made for the request that is started at position `i`.
def callsOf (kit : Kit) (config : Config) (start : World) (acts : List Act) (i worker : Nat) : List (Made World Op Choice) :=
  Crew.made (server kit config) worker (at_ kit config start acts (i+1)) (acts.drop (i+1))

def sampleKey : String := "0000000000000000000000000000000000000000000000000000000000000000"

def sampleNonce : String := "f47ac10b-58cc-4372-a567-0e02b2c3d479"

-- A kit that accepts one signature for each message, as Ed25519 does for a key.
def sampleKit : Kit where
  uuidVersion text := if text.length = 36 then some 4 else none
  validKey _ := true
  verify _ _ signature := signature.all (fun b => b = 0)
  sha256 := ⟨fun _ => List.replicate 32 0,fun _ => List.length_replicate⟩
  base64 text := some (List.replicate 65 (UInt8.ofNat text.length))

def sampleConfig : Config := ⟨"0xp","mainnet",none,1⟩

def replayed : SignedRequest where
  publicKey := some sampleKey
  signature := some (sampleKey ++ sampleKey)
  timestamp := some "1000"
  nonce := some sampleNonce
  accountId := some "0xa"
  delegateKey := none
  sealSession := none
  method := "POST"
  pathAndQuery := "/api/remember"
  body := []

end MemWal.Auth
