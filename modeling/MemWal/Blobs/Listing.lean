import MemWal.Blobs.Ids

namespace MemWal.Blobs
open Library Library.Numerals

-- What `listOwnedObjects` gives for an object, as far as the route reads it:
-- `owner` is every address that the owner field names.
structure OwnedObject where
  objectId : Option Text
  owner : List Text
  rawBlobId : Option Text
  deriving DecidableEq

structure Page where
  objects : List OwnedObject
  hasNextPage : Bool
  cursor : Option Text
  deriving DecidableEq

structure RawBlobObj where
  objectId : Text
  owner : List Text
  rawBlobId : Option Text
  deriving DecidableEq

structure BlobMeta extends RawBlobObj where
  blobNamespace : Text
  blobOwner : Text
  blobPackageId : Text
  blobAgentId : Text
  deriving DecidableEq

structure Kit where
  walrus : WalrusIds
  normalizeSuiAddress : Text → Text
  serverSuiAddresses : List Text

-- The chain reads of one query: the successive pages, the metadata entries and
-- the creation sender of an object. A read that throws after its retries is `none`.
structure Reads where
  pages : List (Option Page)
  metadata : Text → Option (List (Text × Text))
  creationSender : Text → Option (Option Text)

structure QueryRequest where
  owner : Text
  ns : Option Text
  packageId : Option Text
  limit : Option Nat
  blobIds : Option (List Text)
  deriving DecidableEq

structure OnChainBlob where
  blobId : Text
  objectId : Text
  ns : Text
  packageId : Text
  agentId : Text
  deriving DecidableEq

structure QueryAnswer where
  blobs : List OnChainBlob
  total : Nat
  sourceCapped : Bool
  deriving DecidableEq

-- A cap of `none` is `Infinity`.
def reached (cap : Option Nat) (count : Nat) : Bool :=
  match cap with
  | none => false
  | some cap => decide (cap ≤ count)

def slice {α : Type} (cap : Option Nat) (items : List α) : List α :=
  match cap with
  | none => items
  | some cap => items.take cap

def isSourceCapped (fetchedCount : Nat) (cap : Option Nat) : Bool :=
  match cap with
  | none => false
  | some cap => decide (fetchedCount > cap)

variable (kit : Kit)

def candidate (requestedBlobIds : Option (List Text)) (obj : OwnedObject) : Option RawBlobObj := do
  let objectId ← obj.objectId
  match requestedBlobIds with
  | some requested =>
    if requested.contains ((chainBlobIdFromRaw kit.walrus obj.rawBlobId).getD []) then
      some ⟨objectId,obj.owner,obj.rawBlobId⟩
    else none
  | none => some ⟨objectId,obj.owner,obj.rawBlobId⟩

def takeObjects (cap : Option Nat) (requestedBlobIds : Option (List Text)) :
    List OwnedObject → List RawBlobObj → List RawBlobObj
  | [],out => out
  | obj :: objects,out =>
    match candidate kit requestedBlobIds obj with
    | none => takeObjects cap requestedBlobIds objects out
    | some raw =>
      if reached cap (out ++ [raw]).length = true then out ++ [raw]
      else takeObjects cap requestedBlobIds objects (out ++ [raw])

def listBlobObjectsGrpc (cap : Option Nat) (requestedBlobIds : Option (List Text)) :
    List (Option Page) → List RawBlobObj → Option (List RawBlobObj)
  | pages,out =>
    if reached cap out.length = true then some out
    else match pages with
      | some page :: rest =>
        let out := takeObjects kit cap requestedBlobIds page.objects out
        if page.hasNextPage = false ∨ page.cursor = none ∨ page.cursor = some [] then some out
        else listBlobObjectsGrpc cap requestedBlobIds rest out
      | _ => none

def ownerMatchesRecipient (recipient : List Text) (owner : Text) : Bool :=
  owner ≠ [] && recipient.any (fun address =>
    address ≠ [] && kit.normalizeSuiAddress address = kit.normalizeSuiAddress owner)

-- Whether a candidate is trusted; the creation senders are cached, which is not
-- visible as they never change.
def trustedBlobCandidate (reads : Reads) (recipient : Text) (blob : RawBlobObj) : Option Bool :=
  if ownerMatchesRecipient kit blob.owner recipient = false then some false
  else (reads.creationSender blob.objectId).map (fun uploader =>
    match uploader with
    | some sender => sender ≠ [] && kit.serverSuiAddresses.contains sender
    | none => false)

def filterTrustedBlobCandidates (reads : Reads) (candidates : List BlobMeta) (recipient : Text) :
    Option (List BlobMeta) := do
  let provenance ← candidates.mapM (fun blob =>
    (trustedBlobCandidate kit reads recipient blob.toRawBlobObj).map (fun trusted => (blob,trusted)))
  return (provenance.filter (fun checked => checked.2)).map (fun checked => checked.1)

def key (name : String) : Text := name.toList

def blobMeta (entries : Option (List (Text × Text))) (obj : RawBlobObj) : BlobMeta :=
  let found := entries.getD []
  let last := fun name default => ((found.reverse.find? (fun entry => entry.1 = key name)).map Prod.snd).getD default
  ⟨obj,last "memwal_namespace" (key "default"),last "memwal_owner" [],last "memwal_package_id" [],
    last "memwal_agent_id" []⟩

-- An empty filter text is no filter.
def passes (filter : Option Text) (value : Text) : Bool :=
  match filter with
  | none | some [] => true
  | some wanted => value = wanted

def isHexAddress (owner : Text) : Bool :=
  match owner with
  | '0' :: 'x' :: digits => 1 ≤ digits.length && digits.length ≤ 64 && digits.all (fun c => decide (IsHex c))
  | _ => false

def queryCap (limit : Option Nat) (blobIds : Option (List Text)) : Option Nat :=
  let wanted := limit.getD 0
  let desiredMatches := max 1 (min wanted 500)
  if 0 < wanted ∧ blobIds = none then some (max 1 (min (desiredMatches * 5) 100)) else none

def listed (found : BlobMeta) : Option OnChainBlob :=
  (blobIdFromRaw found.rawBlobId).map (fun blobId =>
    ⟨blobId,found.objectId,found.blobNamespace,found.blobPackageId,found.blobAgentId⟩)

-- POST /walrus/query-blobs without leases; `none` is an answer with an error status.
def queryBlobs (reads : Reads) (req : QueryRequest) : Option QueryAnswer := do
  if req.owner = [] then none
  let owner := if isHexAddress req.owner = true then kit.normalizeSuiAddress req.owner else req.owner
  let requestedBlobIds := req.blobIds.map (fun ids => ids.filter (fun id => id ≠ []))
  let cap := queryCap req.limit req.blobIds
  let probeCap := cap.map (fun cap => cap + 1)
  let probedObjs ← listBlobObjectsGrpc kit probeCap requestedBlobIds reads.pages []
  let ownedCandidates := slice cap probedObjs
  let sourceCapped := isSourceCapped probedObjs.length cap
  let metas := ownedCandidates.map (fun obj => blobMeta (reads.metadata obj.objectId) obj)
  let metadataMatches := metas.filter (fun found =>
    passes req.ns found.blobNamespace && passes req.packageId found.blobPackageId)
  let trustedMetas ← filterTrustedBlobCandidates kit reads metadataMatches owner
  let blobs := trustedMetas.filterMap listed
  return ⟨blobs,blobs.length,sourceCapped⟩

end MemWal.Blobs
