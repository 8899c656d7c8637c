import MemWal.Library.Crews
import MemWal.SecurityDelete.Routes
import MemWal.SecurityDelete.Tokens

namespace MemWal.SecurityDelete.Tokens
open Library

structure ChallengeRecord where
  canonicalAddress : Owner
  message : String
  expires : Int
  deriving DecidableEq, Repr

-- What the routes take from other crates beside the tokens.
structure Kit extends Mac where
  recordJson : ChallengeRecord → String
  readRecord : String → Option ChallengeRecord
  isUuid : String → Bool
  isSignature : String → Bool

structure Kit.Documented (kit : Kit) : Prop where
  claims : kit.toMac.Documented
  records : ∀ record, kit.readRecord (kit.recordJson record) = some record

structure TokenConfig where
  deletionTokenSecret : Option Bytes
  deletionTokenTtlSecs : Nat
  deriving DecidableEq, Repr

def challengeMessage (address nonce : String) (expiresUnix : Int) : String :=
  "MemWal security deletion auth\naddress: " ++ address ++ "\nnonce: " ++ nonce ++ "\nexpires: " ++ toString expiresUnix

structure Issue where
  challengeId : String
  record : ChallengeRecord
  deriving DecidableEq, Repr

-- A signature that a node has called valid.
structure Verified where
  address : Owner
  message : String
  signature : String
  deriving DecidableEq, Repr

-- A token that was handed out, with when its challenge was checked.
structure Mint where
  challengeId : String
  address : Owner
  signature : String
  checkedAt : Int
  mintedAt : Int
  token : String
  deriving DecidableEq, Repr

-- A request that was let in.
structure Admission where
  owner : Owner
  token : String
  admittedAt : Int
  deriving DecidableEq, Repr

inductive ChallengeOp where
  | now
  | newUuid
  | issue (id : String) (record : ChallengeRecord) (ttlSecs : Nat)
  | take (id : String)
  | verifySignature (address message signature : String)
  | hand (mint : Mint)
  | enter (admission : Admission)
  deriving DecidableEq

@[reducible] def ChallengeAnswer : ChallengeOp → Type
  | .now => Int
  | .newUuid => String
  | .issue _ _ _ => Except Unit Bool
  | .take _ => Except Unit (Option String)
  | .verifySignature _ _ _ => Except Unit (Option Bool)
  | .hand _ => Unit
  | .enter _ => Unit

-- Redis, with a deadline beside each value. The lists are histories, and `holding`
-- names the requests that have taken a challenge and not handed a token out for it.
structure Nonces where
  clock : Nat := 0
  nonces : Store String (String × Nat) := .empty
  holding : Store Nat (String × String) := .empty
  issued : List Issue := []
  verified : List Verified := []
  handed : List Mint := []
  admitted : List Admission := []

inductive Fault where
  | before | after
  deriving DecidableEq, Repr

-- `fault` is how a call to Redis fails, if it does: without or after its effect.
structure ChallengeChoice where
  fault : Option Fault := none
  uuid : String := ""
  verdict : Except Unit (Option Bool) := .error ()

section Serve

def Nonces.seconds (s : Nonces) : Int := (s.clock / 1000 : Nat)

def Nonces.live (s : Nonces) (id : String) : Option String :=
  (s.nonces.get? id).bind (fun entry => if s.clock < entry.2 then some entry.1 else none)

-- `SET id record NX EX ttl`
def Nonces.issue (kit : Kit) (s : Nonces) (id : String) (record : ChallengeRecord) (ttlSecs : Nat) : Nonces × Bool :=
  match s.live id with
  | some _ => (s,false)
  | none => ({s with
      nonces := s.nonces.upsert id (kit.recordJson record,s.clock + ttlSecs * 1000)
      issued := s.issued ++ [⟨id,record⟩]},true)

-- `GETDEL id`
def Nonces.take (s : Nonces) (id : String) : Nonces × Option String := ({s with nonces := s.nonces.erase id},s.live id)

def Nonces.hold (s : Nonces) (worker : Nat) (id : String) : Option String → Nonces
  | some raw => {s with holding := s.holding.upsert worker (id,raw)}
  | none => s

def faulty {α : Type} (s : Nonces) (done : Nonces × α) : Option Fault → Nonces × Except Unit α
  | none => (done.1,.ok done.2)
  | some .before => (s,.error ())
  | some .after => (done.1,.error ())

def serveChallenge (kit : Kit) (s : Nonces) (worker : Nat) :
    (op : ChallengeOp) → ChallengeChoice → Nonces × ChallengeAnswer op
  | .now,_ => (s,s.seconds)
  | .newUuid,c => (s,c.uuid)
  | .issue id record ttlSecs,c => faulty s (s.issue kit id record ttlSecs) c.fault
  | .take id,c => faulty s ((s.take id).1.hold worker id (s.take id).2,(s.take id).2) c.fault
  | .verifySignature address message signature,c =>
    (if c.verdict matches .ok (some true) then {s with verified := s.verified ++ [⟨address,message,signature⟩]} else s,
      c.verdict)
  | .hand mint,_ => ({s with handed := s.handed ++ [mint],holding := s.holding.erase worker},())
  | .enter admission,_ => ({s with admitted := s.admitted ++ [admission]},())

end Serve

inductive TokenRequest where
  | challenge (address : String)
  | verify (challengeId address signature : String)
  | owned (authorization : Option String)
  deriving DecidableEq, Repr

inductive TokenResponse where
  | challenge (challengeId challenge : String) (expiresInSecs : Nat)
  | token (token : String) (expiresInSecs : Nat)
  | owner (owner : Owner)
  deriving DecidableEq, Repr

abbrev TokenRoute (α : Type) := Program ChallengeOp ChallengeAnswer SdError α

section Routes
variable (kit : Kit) (config : TokenConfig)

def request (op : ChallengeOp) : TokenRoute (ChallengeAnswer op) := .perform op

def settle {α : Type} (result : Except SdError α) : TokenRoute α := .orFail id result

def invalidSignature : SdError := .new .authInvalidSignature "Invalid signature"

def challengeExpired : SdError := .new .authChallengeExpired "Authentication challenge is expired"

def internalError : SdError := .new .internalError "Internal server error"

def challengeTtlSecs : Nat := 300

def challenge (rawAddress : String) : TokenRoute TokenResponse := do
  let address ← settle (Fallible.require (canonicalSuiAddress rawAddress) invalidRequest)
  let challengeId ← request .newUuid
  let now ← request .now
  let expires := now + challengeTtlSecs
  let message := challengeMessage address challengeId expires
  match ← request (.issue challengeId ⟨address,message,expires⟩ challengeTtlSecs) with
  | .ok true => return .challenge challengeId message challengeTtlSecs
  | _ => .fail internalError

-- `GrpcWalletSignatureVerifier::verify_personal`
def verifyPersonal (rawAddress message signature : String) : TokenRoute Unit := do
  let address ← settle (Fallible.require (canonicalSuiAddress rawAddress) invalidSignature)
  settle (Fallible.ensure (kit.isSignature signature = true) invalidSignature)
  match ← request (.verifySignature address message signature) with
  | .error _ => .fail rpcError
  | .ok (some true) => return ()
  | .ok _ => .fail invalidSignature

def takeRecord (challengeId : String) : TokenRoute ChallengeRecord := do
  match ← request (.take challengeId) with
  | .error _ => .fail internalError
  | .ok none => .fail challengeExpired
  | .ok (some raw) => settle (Fallible.require (kit.readRecord raw) internalError)

def verify (challengeId rawAddress signature : String) : TokenRoute TokenResponse := do
  settle (Fallible.ensure (kit.isUuid challengeId = true) invalidRequest)
  let address ← settle (Fallible.require (canonicalSuiAddress rawAddress) invalidRequest)
  let record ← takeRecord kit challengeId
  let now ← request .now
  settle (Fallible.ensure (¬ (record.expires < now ∨ record.canonicalAddress ≠ address)) challengeExpired)
  verifyPersonal kit address record.message signature
  let secret ← settle (Fallible.require config.deletionTokenSecret featureDisabled)
  let mintedAt ← request .now
  let token := mintToken kit.toMac secret address config.deletionTokenTtlSecs mintedAt
  request (.hand ⟨challengeId,address,signature,now,mintedAt,token⟩)
  return .token token config.deletionTokenTtlSecs

def bearer (authorization : Option String) : Option String :=
  authorization.bind (fun value =>
    if "Bearer ".toList.isPrefixOf value.toList then some (String.ofList (value.toList.drop 7)) else none)

-- `SdOwner::from_request_parts`
def fromRequestParts (authorization : Option String) : TokenRoute TokenResponse := do
  let token ← settle (Fallible.require (bearer authorization) tokenError)
  let secret ← settle (Fallible.require config.deletionTokenSecret tokenError)
  let now ← request .now
  let owner ← settle (verifyToken kit.toMac secret token now)
  request (.enter ⟨owner,token,now⟩)
  return .owner owner

def route : TokenRequest → TokenRoute TokenResponse
  | .challenge address => challenge address
  | .verify challengeId address signature => verify kit config challengeId address signature
  | .owned authorization => fromRequestParts kit config authorization

inductive TokenEvent where
  | wait (milliseconds : Nat)
  | evict (id : String)
  deriving DecidableEq, Repr

def happenChallenge (s : Nonces) : TokenEvent → Nonces
  | .wait milliseconds => {s with clock := s.clock + milliseconds}
  | .evict id => {s with nonces := s.nonces.erase id}

def gatekeepers : Crew ChallengeOp ChallengeAnswer Nonces ChallengeChoice SdError TokenResponse TokenRequest TokenEvent where
  service := ⟨serveChallenge kit,fun s worker => {s with holding := s.holding.erase worker}⟩
  program := route kit config
  happen := happenChallenge

end Routes
end MemWal.SecurityDelete.Tokens
