import MemWal.Blobs.Discovery
import MemWal.Library.Requests
import Mathlib.Data.List.Infix

namespace MemWal.Restore
open Library
open Blobs (Text OnChainBlob)

inductive AppError where
  | badRequest (message : String)
  | rateLimited (message : String)
  | internal (message : String)
  deriving DecidableEq, Repr

inductive SealCredential where
  | session (value : String)
  | delegateKey (value : String)
  deriving DecidableEq, Repr

structure AuthInfo where
  owner : Text
  accountId : Text
  sealSession : Option String
  delegateKey : Option String
  deriving DecidableEq, Repr

structure RestoreRequest where
  ns : Text
  limit : Nat
  deriving DecidableEq, Repr

structure RestoreResponse where
  restored : Nat
  skipped : Nat
  total : Nat
  ns : Text
  owner : Text
  truncated : Bool
  deriving DecidableEq, Repr

structure Config where
  packageId : Text
  sealPolicyPackageId : Text
  registryId : Text
  suiPrivateKey : Option String

-- A row of `vector_entries`; embeddings are whatever the embedder gives.
structure VectorRow where
  owner : Text
  ns : Text
  blobId : Text
  vector : List Int
  blobSizeBytes : Nat
  importance : Nat
  deriving DecidableEq, Repr

structure Failure where
  reason : String
  attempts : Nat
  deriving DecidableEq, Repr

structure World where
  rows : Store Nat VectorRow := .empty
  failures : Store (Text × Text × Text) Failure := .empty

inductive QueryResult where
  | answered (blobs : List OnChainBlob) (sourceCapped : Bool)
  | transport (error : String)
  | status (body : String)
  | unparsed (error : String)
  deriving DecidableEq

inductive Download where
  | data (bytes : Bytes)
  | blobNotFound
  | failed
  deriving DecidableEq

inductive Op where
  | checkRestoreCallRateLimit (owner : Text)
  | queryBlobsByOwner (owner ns packageId : Text) (limit : Nat)
  | getBlobsByNamespace (owner ns : Text)
  | getFailedBlobIds (owner ns : Text)
  | completions (count : Nat)
  | downloadBlob (blobId : Text)
  | deleteByBlobId (blobId owner ns : Text)
  | sealDecrypt (data : Bytes) (credential : SealCredential) (packageId policyPackageId registryId accountId : Text)
  | recordRestoreFailure (owner ns blobId : Text) (reason : String)
  | embed (text : Text)
  | insertVector (row : VectorRow)
  deriving DecidableEq

@[reducible] def Answer : Op → Type
  | .checkRestoreCallRateLimit _ => Except AppError Unit
  | .queryBlobsByOwner _ _ _ _ => QueryResult
  | .getBlobsByNamespace _ _ | .getFailedBlobIds _ _ => Except String (List Text)
  | .completions _ => List Nat
  | .downloadBlob _ => Download
  | .deleteByBlobId _ _ _ | .recordRestoreFailure _ _ _ _ | .insertVector _ => Except String Unit
  | .sealDecrypt _ _ _ _ _ _ => Except String Bytes
  | .embed _ => Option (List Int)

-- A statement that fails may have taken effect all the same.
inductive Fault where
  | before (error : String)
  | after (error : String)
  deriving DecidableEq

-- How the world around the server decides a call.
structure Choice where
  admitted : Except AppError Unit
  query : Text → Text → Text → Nat → QueryResult
  order : Nat → List Nat
  download : Text → Download
  decrypt : Bytes → Except String Bytes
  embed : Text → Option (List Int)
  fault : Option Fault

def fallible {α : Type} (s next : World) (answer : α) : Option Fault → World × Except String α
  | none => (next,.ok answer)
  | some (.before error) => (s,.error error)
  | some (.after error) => (next,.error error)

def World.belongs (owner ns : Text) (row : VectorRow) : Bool := row.owner = owner && row.ns = ns

-- `SELECT DISTINCT blob_id`
def World.blobIds (s : World) (owner ns : Text) : List Text :=
  ((s.rows.entries.filter (fun e => World.belongs owner ns e.2)).map (fun e => e.2.blobId)).dedup

def World.failedIds (s : World) (owner ns : Text) : List Text :=
  (s.failures.entries.filter (fun e => e.1.1 = owner && e.1.2.1 = ns)).map (fun e => e.1.2.2)

def World.deleteByBlobId (s : World) (blobId owner ns : Text) : World :=
  {s with rows := s.rows.keep (fun _ row => !(row.blobId = blobId && World.belongs owner ns row))}

def World.recordRestoreFailure (s : World) (owner ns blobId : Text) (reason : String) : World :=
  let attempts := ((s.failures.get? (owner,ns,blobId)).map Failure.attempts).getD 0
  {s with failures := (s.failures.upsert (owner,ns,blobId) ⟨reason,attempts + 1⟩)}

-- `Uuid::new_v4`: an id that no row has.
def World.newId (s : World) : Nat := s.rows.keys.foldr max 0 + 1

def World.insertVector (s : World) (row : VectorRow) : World := {s with rows := s.rows.upsert s.newId row}

def serve (s : World) : (op : Op) → Choice → World × Answer op
  | .checkRestoreCallRateLimit _,c => (s,c.admitted)
  | .queryBlobsByOwner owner ns packageId limit,c => (s,c.query owner ns packageId limit)
  | .getBlobsByNamespace owner ns,c => fallible s s (s.blobIds owner ns) c.fault
  | .getFailedBlobIds owner ns,c => fallible s s (s.failedIds owner ns) c.fault
  | .completions count,c => (s,c.order count)
  | .downloadBlob blobId,c => (s,c.download blobId)
  | .deleteByBlobId blobId owner ns,c => fallible s (s.deleteByBlobId blobId owner ns) () c.fault
  | .sealDecrypt data _ _ _ _ _,c => (s,c.decrypt data)
  | .recordRestoreFailure owner ns blobId reason,c =>
    fallible s (s.recordRestoreFailure owner ns blobId reason) () c.fault
  | .embed text,c => (s,c.embed text)
  | .insertVector row,c => fallible s (s.insertVector row) () c.fault

abbrev Handler := Program Op Answer AppError

def call (op : Op) : Handler (Answer op) := .perform op

def maxNamespaceBytes : Nat := 255

def validateNamespace (ns : Text) : Except AppError Unit :=
  if ns = [] then .error (.badRequest "namespace cannot be empty")
  else if (String.ofList ns).utf8ByteSize > maxNamespaceBytes then
    .error (.badRequest s!"namespace exceeds maximum length of {maxNamespaceBytes} bytes")
  else .ok ()

def paginateMissingBlobs (allMissing : List Text) (limit : Nat) : List Text × Bool :=
  (allMissing.take limit,decide (allMissing.length > limit))

def clampRestoreLimit (limit : Nat) : Nat := max 1 (min limit 100)

def fromAuthOrFallback (auth : AuthInfo) (fallbackPrivateKey : Option String) : Option SealCredential :=
  match auth.sealSession,auth.delegateKey with
  | some session,_ => some (.session session)
  | none,some key => some (.delegateKey key)
  | none,none => fallbackPrivateKey.map .delegateKey

def noCredential : AppError :=
  .internal "SEAL credential required for restore (x-seal-session, x-delegate-key, or SERVER_SUI_PRIVATE_KEY)"

def contains (text part : String) : Bool := decide (part.toList <:+: text.toList)

def permanentFromError (err : String) : Bool :=
  let lower := String.ofList (err.toList.map Char.toLower)
  if ["timeouterror","aborted due to timeout","fetch_keys failed","too many failed fetch","internal server",
      "temporarily unavailable","rate limit","429","503"].any (contains lower) then false
  else ["Not enough shares","InvalidCiphertext","InvalidPersonalMessageSignature","NoAccessError"].any (contains err)

def fromUtf8 (plaintext : Bytes) : Option Text := (String.fromUTF8? ⟨plaintext.toArray⟩).map String.toList

def queryBlobsByOwner (owner ns packageId : Text) (limit : Nat) : Handler (List OnChainBlob × Bool) := do
  match ← call (.queryBlobsByOwner owner ns packageId limit) with
  | .answered blobs sourceCapped => return (blobs,sourceCapped)
  | .transport error => .fail (.internal s!"Sidecar walrus/query-blobs failed: {error}")
  | .status body => .fail (.internal s!"walrus query-blobs failed: {body}")
  | .unparsed error => .fail (.internal s!"Failed to parse query-blobs response: {error}")

-- `buffer_unordered`: the tasks end in some order, which is the order of the results.
def arranged {α : Type} (order : List Nat) (items : List α) : List α :=
  if order.Perm (List.range items.length) then order.filterMap (fun i => items[i]?) else items

def downloadOne (owner ns : Text) (downloaded : List (Text × Bytes)) (blobId : Text) : Handler (List (Text × Bytes)) := do
  match ← call (.downloadBlob blobId) with
  | .data data => return downloaded ++ [(blobId,data)]
  | .blobNotFound =>
    let _ ← call (.deleteByBlobId blobId owner ns)
    return downloaded
  | .failed => return downloaded

def decryptOne (config : Config) (auth : AuthInfo) (credential : SealCredential) (ns : Text)
    (decrypted : List (Text × Text)) (item : Text × Bytes) : Handler (List (Text × Text)) := do
  match ← call (.sealDecrypt item.2 credential config.packageId config.sealPolicyPackageId config.registryId
    auth.accountId) with
  | .ok plaintext =>
    match fromUtf8 plaintext with
    | some text => return decrypted ++ [(item.1,text)]
    | none =>
      let _ ← call (.recordRestoreFailure auth.owner ns item.1 "invalid_utf8")
      return decrypted
  | .error e =>
    if permanentFromError e = true then
      let _ ← call (.recordRestoreFailure auth.owner ns item.1 "decrypt_permanent")
      return decrypted
    else return decrypted

def embedOne (results : List (Text × List Int)) (item : Text × Text) : Handler (List (Text × List Int)) := do
  match ← call (.embed item.2) with
  | some vector => return results ++ [(item.1,vector)]
  | none => return results

def importanceStandard : Nat := 50

def blobSize (downloaded : List (Text × Bytes)) (blobId : Text) : Nat :=
  ((downloaded.reverse.find? (fun item => item.1 = blobId)).map (fun item => item.2.length)).getD 0

def insertOne (owner ns : Text) (downloaded : List (Text × Bytes)) (_ : Unit) (item : Text × List Int) : Handler Unit := do
  match ← call (.insertVector ⟨owner,ns,item.1,item.2,blobSize downloaded item.1,importanceStandard⟩) with
  | .ok _ => return ()
  | .error e => .fail (.internal s!"Failed to insert vector: {e}")

-- What follows once the page of missing blobs is known.
def recover (config : Config) (auth : AuthInfo) (credential : SealCredential) (ns : Text) (missingBlobIds : List Text) :
    Handler Nat := do
  let order ← call (.completions missingBlobIds.length)
  let downloaded ← (arranged order missingBlobIds).foldlM (downloadOne auth.owner ns) []
  let order ← call (.completions downloaded.length)
  let decryptedTexts ← (arranged order downloaded).foldlM (decryptOne config auth credential ns) []
  let results ← decryptedTexts.foldlM embedOne []
  results.foldlM (insertOne auth.owner ns downloaded) ()
  return results.length

def restore (config : Config) (auth : AuthInfo) (body : RestoreRequest) : Handler RestoreResponse := do
  Program.orFail id (validateNamespace body.ns)
  let owner := auth.owner
  let admitted ← call (.checkRestoreCallRateLimit owner)
  Program.orFail id admitted
  let limit := clampRestoreLimit body.limit
  let credential ← Program.orFail id (Fallible.require (fromAuthOrFallback auth config.suiPrivateKey) noCredential)
  let (onChainBlobs,sourceCapped) ← queryBlobsByOwner owner body.ns config.packageId limit
  let allBlobIds := onChainBlobs.map OnChainBlob.blobId
  let total := allBlobIds.length
  if total = 0 then return ⟨0,0,0,body.ns,owner,sourceCapped⟩
  let existing ← call (.getBlobsByNamespace owner body.ns)
  let existingBlobIds ← Program.orFail (fun e => .internal s!"Failed to get blobs by namespace: {e}") existing
  let failed ← call (.getFailedBlobIds owner body.ns)
  let failedBlobIds ← Program.orFail (fun e => .internal s!"Failed to get failed blobs: {e}") failed
  let allMissing := allBlobIds.filter (fun id => !(existingBlobIds ++ failedBlobIds).contains id)
  let (missingBlobIds,limitTruncated) := paginateMissingBlobs allMissing limit
  let truncated := limitTruncated || sourceCapped
  let skipped := total - missingBlobIds.length
  if missingBlobIds = [] then return ⟨0,skipped,total,body.ns,owner,truncated⟩
  let restored ← recover config auth credential body.ns missingBlobIds
  return ⟨restored,skipped,total,body.ns,owner,truncated⟩

-- A configuration and a caller for the runs that evaluate the model.
def sampleConfig : Config := ⟨['p'],['p'],['r'],none⟩
def sampleAuth : AuthInfo := ⟨['o'],['a'],some "session",none⟩

end MemWal.Restore
