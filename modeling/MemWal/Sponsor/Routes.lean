import MemWal.Auth.Middleware
import MemWal.Library.Embedding

namespace MemWal.Sponsor
open Library
open Auth (Rejection Fault)

-- Transaction kinds as `bcs` decodes them, as far as the routes look at them.
structure MoveCall where
  package : Bytes
  module : String
  function : String
  typeArguments : List String
  deriving DecidableEq, Repr

inductive Command where
  | moveCall (call : MoveCall)
  | other
  deriving DecidableEq, Repr

inductive TransactionKind where
  | programmableTransaction (commands : List Command)
  | other
  deriving DecidableEq, Repr

-- What the routes take from other crates, beside what the wallet check does:
-- a body that is JSON gives its `digest` text, if it has one.
structure Kit where
  auth : Auth.Kit
  transactionKind : Bytes → Option TransactionKind
  address : String → Option Bytes
  digest : Bytes → Option (Option String)

structure Config where
  packageId : String
  deriving DecidableEq, Repr

structure SponsorRequest where
  sender : String
  transactionBlockKindBytes : String
  authSignature : Option String
  authTimestamp : Option Int
  authNonce : Option String
  deriving DecidableEq, Repr

structure SponsorExecuteRequest where
  digest : String
  signature : String
  sender : Option String
  deriving DecidableEq, Repr

-- What the sidecar answers; the body is missing when it could not be read.
structure Upstream where
  status : Nat
  body : Option Bytes
  deriving DecidableEq, Repr

inductive Payload where
  | upstream (body : Bytes)
  | error (message : String)
  deriving DecidableEq, Repr

structure Response where
  status : Nat
  payload : Payload
  deriving DecidableEq, Repr

-- `sponsor:pending:{digest}` in Redis, until its time to live has passed.
structure Binding where
  sender : String
  expiresAt : Nat
  deriving DecidableEq, Repr

structure World where
  auth : Auth.World := {}
  pending : Store String Binding := .empty

def World.bound (s : World) (key : String) : Option Binding :=
  (s.pending.get? key).filter (fun binding => decide (s.auth.clock < binding.expiresAt))

inductive Op where
  | auth (op : Auth.Op)
  | setPending (key sender : String) (seconds : Nat)
  | consumePending (key sender : String)
  | sidecarSponsor (sender transactionBlockKindBytes : String)
  | sidecarExecute (digest signature : String) (verifyEffects : Bool)
  deriving DecidableEq, Repr

@[reducible] def Answer : Op → Type
  | .auth op => Auth.Answer op
  | .setPending _ _ _ => Except Unit Bool
  | .consumePending _ _ => Except Unit Int
  | .sidecarSponsor _ _ | .sidecarExecute _ _ _ => Except Unit Upstream

structure Choice where
  auth : Auth.Choice := {}
  fault : Option Fault := none
  upstream : Except Unit Upstream := .error ()

def fallible {α : Type} (s next : World) (answer : α) : Option Fault → World × Except Unit α
  | none => (next,.ok answer)
  | some .before => (s,.error ())
  | some .after => (next,.error ())

-- `SET key sender NX EX seconds`
def World.setPending (s : World) (key sender : String) (seconds : Nat) : World × Bool :=
  match s.bound key with
  | some _ => (s,false)
  | none => ({s with pending := s.pending.upsert key ⟨sender,s.auth.clock + seconds * 1000⟩},true)

-- CONSUME_PENDING_SPONSOR_LUA
def World.consumePending (s : World) (key sender : String) : World × Int :=
  match s.bound key with
  | none => (s,0)
  | some value => if value.sender ≠ sender then (s,-1) else ({s with pending := s.pending.erase key},1)

def serve (s : World) : (op : Op) → Choice → World × Answer op
  | .auth op,c => ({s with auth := (Auth.serve s.auth op c.auth).1},(Auth.serve s.auth op c.auth).2)
  | .setPending key sender seconds,c =>
    let (next,recorded) := s.setPending key sender seconds
    fallible s next recorded c.fault
  | .consumePending key sender,c =>
    let (next,consumed) := s.consumePending key sender
    fallible s next consumed c.fault
  | .sidecarSponsor _ _,c => (s,c.upstream)
  | .sidecarExecute _ _ _,c => (s,c.upstream)

abbrev Handler := Program Op Answer Rejection

def call {ε : Type} (op : Op) : Program Op Answer ε (Answer op) := .perform op

def get {α : Type} (value : Option α) (error : Rejection) : Handler α := .orFail id (Fallible.require value error)

def check (condition : Prop) [Decidable condition] (error : Rejection) : Handler Unit :=
  .orFail id (Fallible.ensure condition error)

def badRequest (message : String) : Rejection := .sponsor 400 message
def unauthorized (message : String) : Rejection := .sponsor 401 message
def internal (message : String) : Rejection := .sponsor 500 message
def upstreamUnavailable (message : String) : Rejection := .sponsor 503 message

def maxSponsoredSignatureBytes : Nat := 2048
def pendingSponsorTtlSeconds : Nat := 600

def maskUpstream (status : Nat) : Nat × String :=
  if status = 429 then (503,"Sponsor service temporarily overloaded")
  else if status = 401 ∨ status = 403 then (502,"Sponsor service misconfigured")
  else if 500 ≤ status ∧ status ≤ 599 then (502,"Sponsor service error")
  else (400,"Sponsor request rejected")

def isSuccess (status : Nat) : Bool := decide (200 ≤ status ∧ status ≤ 299)

def isAsciiHexdigit (c : Char) : Bool :=
  ('0' ≤ c ∧ c ≤ '9') ∨ ('a' ≤ c ∧ c ≤ 'f') ∨ ('A' ≤ c ∧ c ≤ 'F')

def validateSuiAddress (s : String) : Bool :=
  match s.toList with
  | '0' :: 'x' :: digits => digits.length = 64 ∧ digits.all isAsciiHexdigit
  | _ => false

def isBase58 (c : Char) : Bool :=
  ('1' ≤ c ∧ c ≤ '9') ∨ ('A' ≤ c ∧ c ≤ 'H') ∨ ('J' ≤ c ∧ c ≤ 'N') ∨ ('P' ≤ c ∧ c ≤ 'Z') ∨ ('a' ≤ c ∧ c ≤ 'k') ∨
    ('m' ≤ c ∧ c ≤ 'z')

def validateDigest (s : String) : Bool :=
  (32 ≤ s.utf8ByteSize ∧ s.utf8ByteSize ≤ 44) ∧ s.toList.all isBase58

def validateSponsoredSignatureLen (len : Nat) : Bool := decide (65 ≤ len ∧ len ≤ maxSponsoredSignatureBytes)

def parseSponsorRequest (kit : Kit) (body : Option SponsorRequest) : Handler (SponsorRequest × Bytes) := do
  let req ← get body (badRequest "Invalid request body")
  check (validateSuiAddress req.sender = true) (badRequest "Invalid sender address")
  let txBytes ← get (kit.auth.base64 req.transactionBlockKindBytes)
    (badRequest "transactionBlockKindBytes must be valid base64")
  check (¬ (txBytes.length < 10 ∨ txBytes.length > 7000)) (badRequest "transactionBlockKindBytes out of range")
  return (req,txBytes)

def permitted (package : Bytes) : Command → Bool
  | .moveCall call => call.package = package ∧ call.module = "account" ∧
      call.function ∈ ["create_account","add_delegate_key","remove_delegate_key"] ∧ call.typeArguments = []
  | .other => false

def validateSponsorTransactionKind (kit : Kit) (bytes : Bytes) (packageId : String) : Handler Unit := do
  let kind ← get (kit.transactionKind bytes) (badRequest "Invalid transaction kind")
  match kind with
  | .other => .fail (badRequest "Transaction kind is not permitted for sponsorship")
  | .programmableTransaction commands =>
    let package ← get (kit.address packageId) (internal "Invalid configured MemWal package ID")
    check (commands.length = 1 ∧ commands.all (permitted package) = true)
      (badRequest "Transaction kind is not permitted for sponsorship")

def authenticateSponsorRequest (kit : Kit) (req : SponsorRequest) (bytes : Bytes) : Handler Unit :=
  (Auth.authenticateSponsorRequest kit.auth ⟨req.sender,bytes,req.authSignature,req.authTimestamp,req.authNonce⟩).embed
    .auth (fun _ answer => answer)

def pendingKey (digest : String) : String := "sponsor:pending:" ++ digest

def recordPendingSponsor (digest sender : String) : Handler Unit := do
  match ← call (.setPending (pendingKey digest) sender pendingSponsorTtlSeconds) with
  | .error _ => .fail (upstreamUnavailable "Sponsor binding Redis unavailable")
  | .ok recorded => check (recorded = true) (upstreamUnavailable "Sponsor digest binding collision")

def consumePendingSponsor (digest sender : String) : Handler Unit := do
  match ← call (.consumePending (pendingKey digest) sender) with
  | .error _ => .fail (upstreamUnavailable "Sponsor binding Redis unavailable")
  | .ok consumed => check (consumed = 1) (unauthorized "Invalid or expired sponsor authorization")

def masked (status : Nat) : Response := ⟨(maskUpstream status).1,.error (maskUpstream status).2⟩

def forwardSponsor (kit : Kit) (req : SponsorRequest) : Handler Response := do
  match ← call (.sidecarSponsor req.sender req.transactionBlockKindBytes) with
  | .error _ => .fail (internal "Sponsor proxy failed")
  | .ok upstream =>
    let body ← get upstream.body (internal "Sponsor proxy read failed")
    if isSuccess upstream.status then
      let sponsored ← get (kit.digest body) (internal "Invalid sponsor upstream response")
      let digest ← get (sponsored.filter validateDigest) (internal "Invalid sponsor upstream digest")
      recordPendingSponsor digest req.sender
      return ⟨upstream.status,.upstream body⟩
    else return masked upstream.status

def sponsorProxy (kit : Kit) (config : Config) (body : Option SponsorRequest) : Handler Response := do
  let (req,bytes) ← parseSponsorRequest kit body
  validateSponsorTransactionKind kit bytes config.packageId
  authenticateSponsorRequest kit req bytes
  forwardSponsor kit req

def callSidecarSponsorExecute (digest signature : String) (verifyEffects : Bool) : Handler (Nat × Bytes) := do
  match ← call (.sidecarExecute digest signature verifyEffects) with
  | .error _ => .fail (internal "Sponsor execute proxy failed")
  | .ok upstream =>
    let body ← get upstream.body (internal "Sponsor execute proxy read failed")
    return (upstream.status,body)

def sponsorExecuteProxy (kit : Kit) (body : Option SponsorExecuteRequest) : Handler Response := do
  let req ← get body (badRequest "Invalid request body")
  check (validateDigest req.digest = true) (badRequest "Invalid digest")
  let sender ← get (req.sender.filter validateSuiAddress) (unauthorized "Sponsor authorization required")
  let sigBytes ← get (kit.auth.base64 req.signature) (badRequest "signature must be valid base64")
  check (validateSponsoredSignatureLen sigBytes.length = true) (badRequest "signature has unexpected length")
  consumePendingSponsor req.digest sender
  let (status,body) ← callSidecarSponsorExecute req.digest req.signature false
  if isSuccess status then return ⟨status,.upstream body⟩ else return masked status

-- Both routes on one server; Redis may lose a binding before its time.

inductive Request where
  | sponsor (body : Option SponsorRequest)
  | execute (body : Option SponsorExecuteRequest)
  deriving DecidableEq, Repr

inductive Event where
  | auth (event : Auth.Event)
  | evicted (key : String)

def happen (s : World) : Event → World
  | .auth event => {s with auth := Auth.happen s.auth event}
  | .evicted key => {s with pending := s.pending.erase key}

def server (kit : Kit) (config : Config) : Crew Op Answer World Choice Rejection Response Request Event where
  service := ⟨fun s _ op c => serve s op c,fun s _ => s⟩
  program
    | .sponsor body => sponsorProxy kit config body
    | .execute body => sponsorExecuteProxy kit body
  happen := happen

abbrev Pooled := Pool World (Program Op Answer Rejection Response)

abbrev Act := Move Request Choice Event

def at_ (kit : Kit) (config : Config) (start : World) (acts : List Act) (p : Nat) : Pooled :=
  Runs.before (server kit config).exec ⟨start,.empty⟩ acts p

-- The call served at a position of a run, with the worker that makes it.
def callAt (kit : Kit) (config : Config) (start : World) (acts : List Act) (p : Nat) : Option (Nat × Op × Choice) :=
  (acts[p]?).bind (Crew.served (at_ kit config start acts p))

end MemWal.Sponsor
