import MemWal.Auth.Middleware
import MemWal.Library.Numerals

namespace MemWal.Sdk
open Library

-- packages/sdk/src/memwal.ts

-- What the client takes from other packages and from HTTP. `header` is what the
-- server reads of a header that was set, `target` what it reads of a path.
structure Kit where
  sha256 : Bytes → Bytes
  publicKey : Bytes → Bytes
  sign : String → Bytes → Bytes
  header : String → Option String
  target : String → String
  randomUUID : Nat → String

structure MemWalConfig where
  privateKey : Bytes
  accountId : String
  ns : String

-- signedRequest

def bytesToHex (bytes : Bytes) : String := String.ofList (Numerals.toHex bytes)

-- `new TextEncoder().encode(data)`
def encode (data : String) : Bytes := data.toList.flatMap String.utf8EncodeChar

def sha256hex (kit : Kit) (data : String) : String := bytesToHex (kit.sha256 (encode data))

-- The body that is sent is the text that is hashed. A GET has none.
def bodyStr (method json : String) : String := if method = "GET" then "" else json

def signedText (kit : Kit) (accountId : String) (nowMs : Nat) (nonce method path json : String) : String :=
  toString (nowMs / 1000) ++ "." ++ method ++ "." ++ path ++ "." ++ sha256hex kit (bodyStr method json) ++ "." ++ nonce ++
    "." ++ accountId

-- As the server receives it.
def signedRequest (kit : Kit) (config : MemWalConfig) (nowMs : Nat) (nonce method path json : String)
    (sealSession : Option String) : Auth.SignedRequest where
  publicKey := kit.header (bytesToHex (kit.publicKey config.privateKey))
  signature := kit.header (bytesToHex (kit.sign (signedText kit config.accountId nowMs nonce method path json) config.privateKey))
  timestamp := kit.header (toString (nowMs / 1000))
  nonce := kit.header nonce
  accountId := kit.header config.accountId
  delegateKey := none
  sealSession := sealSession.bind kit.header
  method := method
  pathAndQuery := kit.target path
  body := encode (bodyStr method json)

-- rememberAsync, rememberAndWait

structure RememberBody where
  text : String
  ns : String
  idempotencyKey : String
  deriving DecidableEq

-- A call that awaits: `waits` in `rememberAndWait`, which polls the job once it is accepted.
structure Remembering where
  requestIdentity : String
  body : RememberBody
  generatedKey : Bool
  waits : Bool
  accepted : Option String := none

-- `draws` are the keys that were generated, each under the identity it was
-- generated for; `released` are the identities whose key was given up, and
-- `bodies` what was to be sent, with whether the key is the client's own. These are
-- histories.
structure MemWalState where
  pendingRememberKeys : Store String String := .empty
  calls : Store Nat Remembering := .empty
  draws : List (String × String) := []
  bodies : List (Bool × RememberBody) := []
  released : List String := []
  destroyed : Nat := 0

namespace MemWalState

def requestIdentity (ns text : String) : String := ns ++ "\x00" ++ text

def setKey (client : MemWalState) (identity key : String) : MemWalState :=
  {client with pendingRememberKeys := client.pendingRememberKeys.upsert identity key}

-- The key of a call, and what it leaves behind.
def idempotencyKey (kit : Kit) (client : MemWalState) (identity : String) (given : Option String) : MemWalState × String :=
  match given,client.pendingRememberKeys.get? identity with
  | some key,_ => (client,key)
  | none,some key => (client.setKey identity key,key)
  | none,none =>
    let key := kit.randomUUID client.draws.length
    ({client with draws := client.draws ++ [(identity,key)]}.setKey identity key,key)

-- Up to its first await.
def remember (kit : Kit) (config : MemWalConfig) (client : MemWalState) (n : Nat) (waits : Bool) (text : String)
    (ns idempotencyKey : Option String) : MemWalState :=
  let resolved := ns.getD config.ns
  let identity := requestIdentity resolved text
  let keyed := client.idempotencyKey kit identity idempotencyKey
  let body := ⟨text,resolved,keyed.2⟩
  {keyed.1 with
    calls := keyed.1.calls.upsert n ⟨identity,body,idempotencyKey.isNone,waits,none⟩
    bodies := keyed.1.bodies ++ [(idempotencyKey.isNone,body)]}

-- Whatever key is pending by then is given up.
def release (client : MemWalState) (call : Remembering) : MemWalState :=
  if call.generatedKey then
    {client with
      pendingRememberKeys := client.pendingRememberKeys.erase call.requestIdentity
      released := client.released ++ [call.requestIdentity]}
  else client

def finish (client : MemWalState) (n : Nat) (call : Remembering) : MemWalState :=
  {client.release call with calls := client.calls.erase n}

def destroy (client : MemWalState) : MemWalState :=
  {client with pendingRememberKeys := .empty,destroyed := client.destroyed + 1}

end MemWalState

-- What is called, and how the requests go: `failed` is any error, of a request or of
-- the polling.
inductive Act where
  | remember (n : Nat) (waits : Bool) (text : String) (ns idempotencyKey : Option String)
  | accepted (n : Nat) (job : String)
  | completed (n : Nat)
  | failed (n : Nat)
  | destroy

inductive Refused where
  | notNow
  deriving DecidableEq

def exec (kit : Kit) (config : MemWalConfig) (client : MemWalState) : Act → Except Refused MemWalState
  | .remember n waits text ns idempotencyKey =>
    if (client.calls.get? n).isSome then .error .notNow
    else .ok (client.remember kit config n waits text ns idempotencyKey)
  | .accepted n job =>
    match client.calls.get? n with
    | some call =>
      if call.accepted.isSome then .error .notNow
      else if call.waits then .ok {client with calls := client.calls.upsert n {call with accepted := some job}}
      else .ok (client.finish n call)
    | none => .error .notNow
  | .completed n =>
    match client.calls.get? n with
    | some call => if call.accepted.isSome then .ok (client.finish n call) else .error .notNow
    | none => .error .notNow
  | .failed n => if (client.calls.get? n).isSome then .ok {client with calls := client.calls.erase n} else .error .notNow
  | .destroy => .ok client.destroy

def at_ (kit : Kit) (config : MemWalConfig) (acts : List Act) (i : Nat) : MemWalState :=
  Runs.before (exec kit config) {} acts i

-- HTTP carries the header texts that hold visible ASCII.
def sampleKit : Kit where
  sha256 _ := List.replicate 32 0
  publicKey _ := List.replicate 32 0
  sign _ _ := List.replicate 64 0
  header text := if text.toList.all (fun c => '!' ≤ c && c ≤ '~') then some text else none
  target path := path
  randomUUID n := "f47ac10b-58cc-4372-a567-0e02b2c3d47" ++ toString (n % 10)

def sampleClient : MemWalConfig := ⟨List.replicate 32 7,"0xa","default"⟩

end MemWal.Sdk
