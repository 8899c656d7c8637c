import MemWal.Funding.Exactness
import MemWal.Library.Base64
import MemWal.Library.Json
import Mathlib.Data.List.TakeWhile

namespace MemWal.Funding.Payout
open Library

-- What the script takes from the language and the SDK beyond the checks of a
-- transaction.
structure ScriptKit extends Kit where
  parse : String → Option Json
  pretty : Json → String
  print : Json → String
  dateParse : String → Option Int
  isoText : Int → String
  encode64 : Bytes → String
  decode64 : String → Bytes
  digestOf : Bytes → String
  addressOf : String → Option String
  sign : String → Bytes → String
  verify : Bytes → String → String → Bool

-- An address that is accepted has one normal form, base64 reads back, and
-- neither a digest nor a signature is blank.
structure ScriptKit.Documented (kit : ScriptKit) : Prop where
  valid : ∀ a, kit.isValidSuiAddress a = true → kit.isValidSuiAddress (kit.normalizeSuiAddress a) = true
  normal : ∀ a, kit.isValidSuiAddress a = true →
    kit.normalizeSuiAddress (kit.normalizeSuiAddress a) = kit.normalizeSuiAddress a
  trimmed : ∀ a, kit.isValidSuiAddress a = true → trim (kit.normalizeSuiAddress a) = kit.normalizeSuiAddress a
  some_ : ∀ a, kit.isValidSuiAddress a = true → kit.normalizeSuiAddress a ≠ ""
  empty : kit.fromBytes [] = none
  decodes : ∀ bytes, kit.decode64 (kit.encode64 bytes) = bytes
  encoded : ∀ bytes, bytes ≠ [] → trim (kit.encode64 bytes) ≠ ""
  digested : ∀ bytes, trim (kit.digestOf bytes) ≠ ""
  signed : ∀ bytes signature sender, kit.verify bytes signature sender = true → trim signature ≠ ""

structure StatefulSet where
  name : String
  uid : String
  generation : Nat
  revision : String
  replicas : Nat
  currentReplicas : Nat
  updatedReplicas : Nat
  readyReplicas : Nat
  deriving DecidableEq, Repr

structure WriterSecret where
  name : String
  uid : String
  resourceVersion : String
  deriving DecidableEq, Repr

inductive SecretSource where
  | secretKeyRef | envFrom
  deriving DecidableEq, Repr

structure SecretProvider where
  container : String
  secretName : String
  key : String
  source : SecretSource
  deriving DecidableEq, Repr

structure Image where
  name : String
  image : String
  imageId : String
  deriving DecidableEq, Repr

structure Writer where
  id : String
  ordinal : Nat
  podUid : String
  revision : String
  images : List Image
  addresses : List String
  deriving DecidableEq, Repr

structure LiveWriterSnapshot where
  collectedAt : String
  context : String
  namespace_ : String
  statefulSet : StatefulSet
  writerSecrets : List WriterSecret
  writerSecretProviders : List SecretProvider
  writers : List Writer
  deriving DecidableEq, Repr

def liveSnapshotMaxAgeMs : Int := 15 * 60 * 1000
def liveSnapshotFutureSkewMs : Int := 60 * 1000

def requireRecord (value : Option Json) (what : String) : Except String Json.Members :=
  match value with
  | some (.object members) => .ok members
  | _ => .error (what ++ " must be an object")

def requireString (value : Option Json) (what : String) : Except String String :=
  match value with
  | some (.string text) => if trim text ≠ "" then .ok text else .error (what ++ " must be a non-empty string")
  | _ => .error (what ++ " must be a non-empty string")

def requirePositiveInteger (value : Option Json) (what : String) : Except String Nat :=
  match value with
  | some (.number (.safe n _)) => if 0 < n then .ok n.toNat else .error (what ++ " must be a positive integer")
  | _ => .error (what ++ " must be a positive integer")

def requireItems (value : Option Json) (failure : String) : Except String (List Json) :=
  match value with
  | some (.array items) => .ok items
  | _ => .error failure

def isInteger (value : Option Json) (n : Nat) : Bool :=
  match value with
  | some (.number (.safe m _)) => decide (m = n)
  | _ => false

def isTrue (value : Option Json) : Bool :=
  match value with
  | some (.bool value) => value
  | _ => false

section Parser
variable (kit : ScriptKit)

def normalizeEntry (entry : String × Option Json) : Except String (String × List String) := do
  Fallible.ensure (trim entry.1 ≠ "") "writer id must not be empty"
  let addrs ← requireItems entry.2 (entry.1 ++ " has no addresses")
  normalizeWriter kit.toKit (entry.1,addrs.map Json.text)

-- `normalizeWriters` of a value that was not looked at before.
def normalizeManifest (manifest : List (String × Option Json)) : Except String WriterAddresses := do
  checkRecipients (← manifest.mapM (normalizeEntry kit))

-- `items.map(..)` with a set of what the items before were called.
def parseEach {α : Type} (name : α → String) (one : List String → Nat → Json → Except String α) :
    List String → Nat → List Json → Except String (List α)
  | _,_,[] => return []
  | seen,index,raw :: rest => do
    let item ← one seen index raw
    let others ← parseEach name one (name item :: seen) (index+1) rest
    return item :: others

def place (list : String) (index : Nat) : String := list ++ "[" ++ toString index ++ "]"

def parseStatefulSet (root : Json.Members) : Except String StatefulSet := do
  let raw ← requireRecord (Json.field "statefulSet" root) "snapshot statefulSet"
  let name ← requireString (Json.field "name" raw) "statefulSet.name"
  let uid ← requireString (Json.field "uid" raw) "statefulSet.uid"
  let generation ← requirePositiveInteger (Json.field "generation" raw) "statefulSet.generation"
  let revision ← requireString (Json.field "revision" raw) "statefulSet.revision"
  let replicas ← requirePositiveInteger (Json.field "replicas" raw) "statefulSet.replicas"
  let currentReplicas ← requirePositiveInteger (Json.field "currentReplicas" raw) "statefulSet.currentReplicas"
  let updatedReplicas ← requirePositiveInteger (Json.field "updatedReplicas" raw) "statefulSet.updatedReplicas"
  let readyReplicas ← requirePositiveInteger (Json.field "readyReplicas" raw) "statefulSet.readyReplicas"
  Fallible.ensure (currentReplicas = replicas ∧ updatedReplicas = replicas ∧ readyReplicas = replicas)
    "snapshot StatefulSet rollout is not fully ready and updated"
  return ⟨name,uid,generation,revision,replicas,currentReplicas,updatedReplicas,readyReplicas⟩

def parseSecret (seen : List String) (index : Nat) (raw : Json) : Except String WriterSecret := do
  let secret ← requireRecord (some raw) (place "writerSecrets" index)
  let name ← requireString (Json.field "name" secret) (place "writerSecrets" index ++ ".name")
  Fallible.ensure (isTrue (Json.field "immutable" secret) = true) (name ++ " must be an immutable Kubernetes Secret")
  Fallible.ensure (name ∉ seen) ("duplicate writer Secret " ++ name)
  let uid ← requireString (Json.field "uid" secret) (name ++ ".uid")
  let resourceVersion ← requireString (Json.field "resourceVersion" secret) (name ++ ".resourceVersion")
  return ⟨name,uid,resourceVersion⟩

def readSource (container : String) (source : Option Json) : Except String SecretSource :=
  match source with
  | some (.string "secretKeyRef") => .ok .secretKeyRef
  | some (.string "envFrom") => .ok .envFrom
  | _ => .error (container ++ " has an invalid writer Secret source")

def parseProvider (secretNames : List String) (seen : List String) (index : Nat) (raw : Json) :
    Except String SecretProvider := do
  let provider ← requireRecord (some raw) (place "writerSecretProviders" index)
  let container ← requireString (Json.field "container" provider) (place "writerSecretProviders" index ++ ".container")
  let secretName ← requireString (Json.field "secretName" provider) (container ++ ".secretName")
  let key ← requireString (Json.field "key" provider) (container ++ ".secretKey")
  Fallible.ensure (key = "SERVER_SUI_PRIVATE_KEYS") (container ++ " writer Secret must provide SERVER_SUI_PRIVATE_KEYS")
  let source ← readSource container (Json.field "source" provider)
  Fallible.ensure (secretName ∈ secretNames) (container ++ " references unverified Secret " ++ secretName)
  Fallible.ensure (container ∉ seen) (container ++ " has ambiguous writer Secret providers")
  return ⟨container,secretName,key,source⟩

def parseImage (id : String) (seen : List String) (index : Nat) (raw : Json) : Except String Image := do
  let image ← requireRecord (some raw) (place (id ++ ".images") index)
  let name ← requireString (Json.field "name" image) (place (id ++ ".images") index ++ ".name")
  Fallible.ensure (name ∉ seen) (id ++ " repeats container " ++ name)
  let text ← requireString (Json.field "image" image) (id ++ "." ++ name ++ ".image")
  let imageId ← requireString (Json.field "imageId" image) (id ++ "." ++ name ++ ".imageId")
  return ⟨name,text,imageId⟩

def podId (set : StatefulSet) (ordinal : Nat) : String := set.name ++ "-" ++ toString ordinal

def parseWriter (set : StatefulSet) (seen : List String) (ordinal : Nat) (raw : Json) : Except String Writer := do
  let what := place "writers" ordinal
  let writer ← requireRecord (some raw) what
  let id ← requireString (Json.field "id" writer) (what ++ ".id")
  let podUid ← requireString (Json.field "podUid" writer) (what ++ ".podUid")
  let revision ← requireString (Json.field "revision" writer) (what ++ ".revision")
  Fallible.ensure (isInteger (Json.field "ordinal" writer) ordinal = true) (what ++ ".ordinal must be " ++ toString ordinal)
  Fallible.ensure (id = podId set ordinal) (what ++ ".id must be " ++ podId set ordinal)
  Fallible.ensure (revision = set.revision) (id ++ " is not on StatefulSet revision " ++ set.revision)
  Fallible.ensure (podUid ∉ seen) ("duplicate pod UID " ++ podUid)
  let items ← requireItems (Json.field "images" writer) (id ++ " must report at least one running container image")
  Fallible.ensure (items ≠ []) (id ++ " must report at least one running container image")
  let images ← parseEach Image.name (parseImage id) [] 0 items
  let addresses ← normalizeManifest kit [(id,Json.field "addresses" writer)]
  return ⟨id,ordinal,podUid,revision,images,addresses.flatMap Prod.snd⟩

def checkAge (requireFresh : Bool) (ageMs : Int) : Except String Unit := do
  Fallible.ensure (requireFresh = true → ageMs ≤ liveSnapshotMaxAgeMs)
    ("live writer snapshot is older than 15 minutes (" ++ toString (ageMs / 1000) ++ "s)")
  Fallible.ensure (requireFresh = true → -liveSnapshotFutureSkewMs ≤ ageMs)
    "live writer snapshot collectedAt is in the future"

-- The provider that some writer does not run, if there is one.
def unprovided (providers : List SecretProvider) (writers : List Writer) : Option SecretProvider :=
  providers.find? (fun provider => writers.any (fun writer =>
    !writer.images.any (fun image => decide (image.name = provider.container))))

-- `parseLiveWriterSnapshot` of a parsed text.
def readLiveWriterSnapshot (parsed : Json) (nowMs : Int) (requireFresh : Bool) : Except String LiveWriterSnapshot := do
  let root ← requireRecord (some parsed) "live writer snapshot"
  Fallible.ensure (isInteger (Json.field "schemaVersion" root) 1 = true) "live writer snapshot schemaVersion must be 1"
  let collectedAt ← requireString (Json.field "collectedAt" root) "snapshot collectedAt"
  let collectedAtMs ← Fallible.require (kit.dateParse collectedAt) "snapshot collectedAt must be an ISO-8601 timestamp"
  checkAge requireFresh (nowMs - collectedAtMs)
  let statefulSet ← parseStatefulSet root
  let rawSecrets ← requireItems (Json.field "writerSecrets" root) "snapshot must identify at least one immutable writer Secret"
  Fallible.ensure (rawSecrets ≠ []) "snapshot must identify at least one immutable writer Secret"
  let writerSecrets ← parseEach WriterSecret.name parseSecret [] 0 rawSecrets
  let rawProviders ← requireItems (Json.field "writerSecretProviders" root)
    "snapshot must resolve the Secret provider for SERVER_SUI_PRIVATE_KEYS"
  Fallible.ensure (rawProviders ≠ []) "snapshot must resolve the Secret provider for SERVER_SUI_PRIVATE_KEYS"
  let writerSecretProviders ← parseEach SecretProvider.container (parseProvider (writerSecrets.map WriterSecret.name))
    [] 0 rawProviders
  let rawWriters ← requireItems (Json.field "writers" root) "snapshot writers must be an array"
  Fallible.ensure (rawWriters.length = statefulSet.replicas) ("snapshot has " ++ toString rawWriters.length ++
    " writers but StatefulSet has " ++ toString statefulSet.replicas ++ " replicas")
  let writers ← parseEach Writer.podUid (parseWriter kit statefulSet) [] 0 rawWriters
  Fallible.ensure (∀ writer ∈ writers, some writer.images = writers.head?.map Writer.images)
    "writer pods do not run the same container image IDs"
  match unprovided writerSecretProviders writers with
  | some provider =>
    .error ("writer Secret provider " ++ provider.container ++ " is not running in every writer pod")
  | none =>
    let context ← requireString (Json.field "context" root) "snapshot context"
    let namespace_ ← requireString (Json.field "namespace" root) "snapshot namespace"
    return ⟨collectedAt,context,namespace_,statefulSet,writerSecrets,writerSecretProviders,writers⟩

def parseLiveWriterSnapshot (raw : String) (nowMs : Int) (requireFresh : Bool) : Except String LiveWriterSnapshot := do
  let parsed ← Fallible.require (kit.parse raw) "LIVE_WRITER_ADDRESSES_JSON is not valid JSON"
  readLiveWriterSnapshot kit parsed nowMs requireFresh

def assertSnapshotMatchesWriters (expected : WriterAddresses) (snapshot : LiveWriterSnapshot) : Except String Unit := do
  Fallible.ensure (snapshot.writers.map Writer.id = expected.map Prod.fst)
    "live writer order does not exactly match the payout manifest"
  match snapshot.writers.find? (fun writer => decide (some writer.addresses ≠ expected.lookup writer.id)) with
  | some writer => .error (writer.id ++ " live wallet order does not match the payout manifest")
  | none => return ()

def reconcileLiveWriters (expected : WriterAddresses) (raw : String) (nowMs : Int) : Except String LiveWriterSnapshot := do
  let snapshot ← parseLiveWriterSnapshot kit raw nowMs true
  assertSnapshotMatchesWriters expected snapshot
  return snapshot

end Parser

section Printing

def StatefulSet.json (set : StatefulSet) : Json := .object [("name",.string set.name),("uid",.string set.uid),
  ("generation",.nat set.generation),("revision",.string set.revision),("replicas",.nat set.replicas),
  ("currentReplicas",.nat set.currentReplicas),("updatedReplicas",.nat set.updatedReplicas),
  ("readyReplicas",.nat set.readyReplicas)]

def WriterSecret.json (secret : WriterSecret) : Json := .object [("name",.string secret.name),("uid",.string secret.uid),
  ("resourceVersion",.string secret.resourceVersion),("immutable",.bool true)]

def SecretSource.text : SecretSource → String
  | .secretKeyRef => "secretKeyRef"
  | .envFrom => "envFrom"

def SecretProvider.json (provider : SecretProvider) : Json := .object [("container",.string provider.container),
  ("secretName",.string provider.secretName),("key",.string provider.key),("source",.string provider.source.text)]

def Image.json (image : Image) : Json :=
  .object [("name",.string image.name),("image",.string image.image),("imageId",.string image.imageId)]

def Writer.json (writer : Writer) : Json := .object [("id",.string writer.id),("ordinal",.nat writer.ordinal),
  ("podUid",.string writer.podUid),("revision",.string writer.revision),("images",.array (writer.images.map Image.json)),
  ("addresses",.array (writer.addresses.map .string))]

def LiveWriterSnapshot.members (snapshot : LiveWriterSnapshot) : Json.Members := [("schemaVersion",.nat 1),
  ("collectedAt",.string snapshot.collectedAt),("context",.string snapshot.context),
  ("namespace",.string snapshot.namespace_),("statefulSet",snapshot.statefulSet.json),
  ("writerSecrets",.array (snapshot.writerSecrets.map WriterSecret.json)),
  ("writerSecretProviders",.array (snapshot.writerSecretProviders.map SecretProvider.json)),
  ("writers",.array (snapshot.writers.map Writer.json))]

def LiveWriterSnapshot.json (snapshot : LiveWriterSnapshot) : Json := .object snapshot.members

end Printing

-- What an accepted snapshot says.
section WellFormed

abbrev Filled (text : String) : Prop := trim text ≠ ""

def Counted (n : Nat) : Prop := 0 < n ∧ n < 2^53

structure StatefulSet.Ready (set : StatefulSet) : Prop where
  name : Filled set.name
  uid : Filled set.uid
  generation : Counted set.generation
  revision : Filled set.revision
  replicas : Counted set.replicas
  rollout : set.currentReplicas = set.replicas ∧ set.updatedReplicas = set.replicas ∧ set.readyReplicas = set.replicas

structure WriterSecret.Sound (secret : WriterSecret) : Prop where
  name : Filled secret.name
  uid : Filled secret.uid
  resourceVersion : Filled secret.resourceVersion

structure SecretProvider.Sound (secretNames : List String) (provider : SecretProvider) : Prop where
  container : Filled provider.container
  secretName : Filled provider.secretName
  key : provider.key = "SERVER_SUI_PRIVATE_KEYS"
  known : provider.secretName ∈ secretNames

structure Image.Sound (image : Image) : Prop where
  name : Filled image.name
  source : Filled image.image
  id : Filled image.imageId

variable (kit : ScriptKit)

-- Addresses in normal form, none of them twice.
structure Payable (addresses : List String) : Prop where
  some_ : addresses ≠ []
  distinct : addresses.Nodup
  few : addresses.length ≤ maxRecipients
  valid : ∀ a ∈ addresses, kit.isValidSuiAddress a = true
  normal : ∀ a ∈ addresses, trim a = a ∧ kit.normalizeSuiAddress a = a

structure Writer.Sound (set : StatefulSet) (ordinal : Nat) (writer : Writer) : Prop where
  place : writer.ordinal = ordinal
  small : ordinal < 2^53
  id : writer.id = podId set ordinal
  named : Filled writer.id
  podUid : Filled writer.podUid
  revision : writer.revision = set.revision
  revised : Filled writer.revision
  running : writer.images ≠ []
  images : ∀ image ∈ writer.images, image.Sound
  distinct : (writer.images.map Image.name).Nodup
  payable : Payable kit writer.addresses

structure LiveWriterSnapshot.WellFormed (snapshot : LiveWriterSnapshot) : Prop where
  collectedAt : Filled snapshot.collectedAt
  dated : (kit.dateParse snapshot.collectedAt).isSome
  context : Filled snapshot.context
  namespace_ : Filled snapshot.namespace_
  statefulSet : snapshot.statefulSet.Ready
  secrets : snapshot.writerSecrets ≠ [] ∧ ∀ secret ∈ snapshot.writerSecrets, secret.Sound
  secretNames : (snapshot.writerSecrets.map WriterSecret.name).Nodup
  providers : snapshot.writerSecretProviders ≠ [] ∧ ∀ provider ∈ snapshot.writerSecretProviders,
    provider.Sound (snapshot.writerSecrets.map WriterSecret.name)
  containers : (snapshot.writerSecretProviders.map SecretProvider.container).Nodup
  replicas : snapshot.writers.length = snapshot.statefulSet.replicas
  writers : ∀ i (writer : Writer), snapshot.writers[i]? = some writer → writer.Sound kit snapshot.statefulSet i
  pods : (snapshot.writers.map Writer.podUid).Nodup
  images : ∀ writer ∈ snapshot.writers, some writer.images = snapshot.writers.head?.map Writer.images
  provided : ∀ provider ∈ snapshot.writerSecretProviders, ∀ writer ∈ snapshot.writers,
    ∃ image ∈ writer.images, image.name = provider.container

end WellFormed

section Readers
variable {value : Option Json} {what text : String} {n : Nat}

@[simp] theorem requireRecord_ok {members : Json.Members} :
    requireRecord value what = .ok members ↔ value = some (.object members) := by
  unfold requireRecord
  split <;> simp_all

@[simp] theorem requireString_ok : requireString value what = .ok text ↔ value = some (.string text) ∧ Filled text := by
  unfold requireString Filled
  split
  · split
    · rename_i there filled
      simp only [Except.ok.injEq,Option.some.injEq,Json.string.injEq]
      constructor
      · rintro rfl
        exact ⟨rfl,filled⟩
      · exact fun given => given.1
    · rename_i there blank
      simp only [reduceCtorEq,false_iff,Option.some.injEq,Json.string.injEq,not_and]
      rintro rfl
      exact blank
  · rename_i other
    simp only [reduceCtorEq,false_iff,not_and]
    intro equal
    exact absurd equal (other text)

@[simp] theorem requireItems_ok {items : List Json} :
    requireItems value what = .ok items ↔ value = some (.array items) := by
  unfold requireItems
  split <;> simp_all

theorem requireString_filled (filled : Filled text) : requireString (some (.string text)) what = .ok text := if_pos filled

theorem ensure_holds {condition : Prop} [Decidable condition] (holds : condition) :
    Fallible.ensure condition what = .ok () := if_pos holds

theorem ok_bind {α β : Type} {result : α} {next : α → Except String β} : (Except.ok result >>= next) = next result := rfl

theorem requirePositiveInteger_counted (read : requirePositiveInteger value what = .ok n) : Counted n := by
  unfold requirePositiveInteger at read
  split at read
  · rename_i m bound
    split at read
    · rename_i positive
      cases read
      unfold Counted
      omega
    · cases read
  · cases read

theorem requirePositiveInteger_nat (counted : Counted n) : requirePositiveInteger (some (.nat n)) what = .ok n := by
  have positive : (0 : Int) < n := by exact_mod_cast counted.1
  rw [Json.nat_small counted.2]
  simp only [requirePositiveInteger,if_pos positive,Int.toNat_natCast]

theorem isInteger_nat (small : n < 2^53) : isInteger (some (.nat n)) n = true := by
  rw [Json.nat_small small]
  simp [isInteger]

theorem isInteger_small (read : isInteger value n = true) : n < 2^53 := by
  unfold isInteger at read
  split at read
  · rename_i m bound
    have equal : m = n := of_decide_eq_true read
    omega
  · cases read

end Readers

section Each
variable {α : Type} {name : α → String} {one : List String → Nat → Json → Except String α} (good : Nat → α → Prop)
variable {seen : List String} {index : Nat} {xs : List α}

theorem parseEach_sound
    (each : ∀ seen index raw x, one seen index raw = .ok x → good index x ∧ name x ∉ seen)
    {items : List Json} (parsed : parseEach name one seen index items = .ok xs) :
    xs.length = items.length ∧ (∀ x ∈ xs, name x ∉ seen) ∧ (xs.map name).Nodup ∧
      ∀ i x, xs[i]? = some x → good (index+i) x := by
  induction items generalizing seen index xs with
  | nil =>
    cases parsed
    simp
  | cons raw rest ih =>
    simp only [parseEach,Fallible.bind_ok,Fallible.pure_ok] at parsed
    obtain ⟨x,first,others,tail,rfl⟩ := parsed
    obtain ⟨here,new⟩ := each _ _ _ _ first
    obtain ⟨length,fresh,distinct,all⟩ := ih tail
    refine ⟨by simp [length],?_,?_,?_⟩
    · intro y member
      rcases List.mem_cons.mp member with rfl | later
      · exact new
      · exact fun old => fresh y later (List.mem_cons_of_mem _ old)
    · refine List.nodup_cons.mpr ⟨?_,distinct⟩
      intro again
      obtain ⟨y,member,same⟩ := List.mem_map.mp again
      exact fresh y member (same ▸ List.mem_cons_self)
    · intro i y found
      cases i with
      | zero =>
        cases found
        exact here
      | succ i =>
        have later := all i y found
        rwa [show index + 1 + i = index + (i + 1) by omega] at later

theorem parseEach_back {json : α → Json}
    (each : ∀ seen index x, good index x → name x ∉ seen → one seen index (json x) = .ok x)
    (fresh : ∀ x ∈ xs, name x ∉ seen) (distinct : (xs.map name).Nodup)
    (all : ∀ i x, xs[i]? = some x → good (index+i) x) : parseEach name one seen index (xs.map json) = .ok xs := by
  induction xs generalizing seen index with
  | nil => rfl
  | cons x rest ih =>
    have here := each seen index x (all 0 x rfl) (fresh x List.mem_cons_self)
    obtain ⟨new,distinct⟩ := List.nodup_cons.mp distinct
    rw [List.map_cons,parseEach,here,ok_bind,ih ?_ distinct ?_]
    · rfl
    · intro y member old
      rcases List.mem_cons.mp old with same | before
      · exact new (same ▸ List.mem_map_of_mem member)
      · exact fresh y (List.mem_cons_of_mem _ member) before
    · intro i y found
      have later := all (i+1) y found
      rwa [show index + (i + 1) = index + 1 + i by omega] at later

end Each

section Parts
variable {seen : List String} {index : Nat} {raw : Json}

theorem parseStatefulSet_ready {root : Json.Members} {set : StatefulSet} (parsed : parseStatefulSet root = .ok set) :
    set.Ready := by
  simp only [parseStatefulSet,Fallible.bind_ok,Fallible.pure_ok,Fallible.ensure_ok,requireString_ok,exists_const] at parsed
  obtain ⟨_,_,name,⟨_,named⟩,uid,⟨_,identified⟩,generation,counted,revision,⟨_,revised⟩,replicas,several,_,_,_,_,_,_,
    rollout,rfl⟩ := parsed
  exact ⟨named,identified,requirePositiveInteger_counted counted,revised,requirePositiveInteger_counted several,rollout⟩

theorem parseStatefulSet_back {root : Json.Members} {set : StatefulSet} (ready : set.Ready)
    (found : Json.field "statefulSet" root = some set.json) : parseStatefulSet root = .ok set := by
  have counts : Counted set.currentReplicas ∧ Counted set.updatedReplicas ∧ Counted set.readyReplicas := by
    obtain ⟨current,updated,all⟩ := ready.rollout
    rw [current,updated,all]
    exact ⟨ready.replicas,ready.replicas,ready.replicas⟩
  simp [parseStatefulSet,found,StatefulSet.json,requireRecord,Json.field,ok_bind,requireString_filled ready.name,
    requireString_filled ready.uid,requirePositiveInteger_nat ready.generation,requireString_filled ready.revision,
    requirePositiveInteger_nat ready.replicas,requirePositiveInteger_nat counts.1,requirePositiveInteger_nat counts.2.1,
    requirePositiveInteger_nat counts.2.2,ensure_holds ready.rollout]

theorem parseSecret_sound {secret : WriterSecret} (parsed : parseSecret seen index raw = .ok secret) :
    secret.Sound ∧ secret.name ∉ seen := by
  simp only [parseSecret,Fallible.bind_ok,Fallible.pure_ok,Fallible.ensure_ok,requireString_ok,exists_const] at parsed
  obtain ⟨_,_,name,⟨_,named⟩,_,new,uid,⟨_,identified⟩,version,⟨_,versioned⟩,rfl⟩ := parsed
  exact ⟨⟨named,identified,versioned⟩,new⟩

theorem parseSecret_back {secret : WriterSecret} (sound : secret.Sound) (new : secret.name ∉ seen) :
    parseSecret seen index secret.json = .ok secret := by
  simp [parseSecret,WriterSecret.json,requireRecord,Json.field,ok_bind,requireString_filled sound.name,isTrue,
    ensure_holds new,requireString_filled sound.uid,requireString_filled sound.resourceVersion]

theorem readSource_text {container : String} (source : SecretSource) :
    readSource container (some (.string source.text)) = .ok source := by
  cases source <;> rfl

theorem parseProvider_sound {names : List String} {provider : SecretProvider}
    (parsed : parseProvider names seen index raw = .ok provider) :
    provider.Sound names ∧ provider.container ∉ seen := by
  simp only [parseProvider,Fallible.bind_ok,Fallible.pure_ok,Fallible.ensure_ok,requireString_ok,exists_const] at parsed
  obtain ⟨_,_,container,⟨_,contained⟩,secretName,⟨_,named⟩,key,_,same,source,_,known,new,rfl⟩ := parsed
  exact ⟨⟨contained,named,same,known⟩,new⟩

theorem parseProvider_back {names : List String} {provider : SecretProvider} (sound : provider.Sound names)
    (new : provider.container ∉ seen) : parseProvider names seen index provider.json = .ok provider := by
  have filled : Filled provider.key := by
    rw [sound.key]
    decide
  simp [parseProvider,SecretProvider.json,requireRecord,Json.field,ok_bind,requireString_filled sound.container,
    requireString_filled sound.secretName,requireString_filled filled,ensure_holds sound.key,readSource_text,
    ensure_holds sound.known,ensure_holds new]

theorem parseImage_sound {id : String} {image : Image} (parsed : parseImage id seen index raw = .ok image) :
    image.Sound ∧ image.name ∉ seen := by
  simp only [parseImage,Fallible.bind_ok,Fallible.pure_ok,Fallible.ensure_ok,requireString_ok,exists_const] at parsed
  obtain ⟨_,_,name,⟨_,named⟩,new,text,⟨_,shown⟩,imageId,⟨_,identified⟩,rfl⟩ := parsed
  exact ⟨⟨named,shown,identified⟩,new⟩

theorem parseImage_back {id : String} {image : Image} (sound : image.Sound) (new : image.name ∉ seen) :
    parseImage id seen index image.json = .ok image := by
  simp [parseImage,Image.json,requireRecord,Json.field,ok_bind,requireString_filled sound.name,ensure_holds new,
    requireString_filled sound.source,requireString_filled sound.id]

end Parts

section Addresses
variable {kit : ScriptKit}

theorem repeated_none {seen out : List String} : repeated seen out = none ↔ out.Nodup ∧ ∀ a ∈ out, a ∉ seen := by
  induction out generalizing seen with
  | nil => simp [repeated]
  | cons a rest ih =>
    rw [repeated]
    split
    · rename_i there
      simp [there]
    · rename_i new
      rw [ih,List.nodup_cons]
      constructor
      · intro given
        obtain ⟨distinct,fresh⟩ := given
        refine ⟨⟨fun again => fresh a again List.mem_cons_self,distinct⟩,?_⟩
        intro b member
        rcases List.mem_cons.mp member with rfl | later
        · exact new
        · exact fun old => fresh b later (List.mem_cons_of_mem _ old)
      · intro given
        obtain ⟨⟨once,distinct⟩,fresh⟩ := given
        refine ⟨distinct,fun b later old => ?_⟩
        rcases List.mem_cons.mp old with rfl | before
        · exact once later
        · exact fresh b (List.mem_cons_of_mem _ later) before

theorem checkRecipients_ok {writers result : WriterAddresses} : checkRecipients writers = .ok result ↔
    result = writers ∧ writers.flatMap Prod.snd ≠ [] ∧ (writers.flatMap Prod.snd).Nodup ∧
      (writers.flatMap Prod.snd).length ≤ maxRecipients := by
  have distinct : repeated [] (writers.flatMap Prod.snd) = none ↔ (writers.flatMap Prod.snd).Nodup := by
    rw [repeated_none]
    simp
  simp only [checkRecipients,Fallible.bind_ok,Fallible.ensure_ok,exists_const]
  cases again : repeated [] (writers.flatMap Prod.snd) with
  | some dup =>
    have twice : ¬ (writers.flatMap Prod.snd).Nodup := fun once => by simp [distinct.mpr once] at again
    simp [twice]
  | none =>
    simp only [Fallible.bind_ok,Fallible.ensure_ok,Fallible.pure_ok,exists_const]
    constructor
    · rintro ⟨some_,few,rfl⟩
      exact ⟨rfl,some_,distinct.mp again,few⟩
    · rintro ⟨rfl,some_,_,few⟩
      exact ⟨some_,few,rfl⟩

theorem assertAddress_ok {v what a : String} :
    assertAddress kit.toKit v what = .ok a ↔ kit.isValidSuiAddress v = true ∧ kit.normalizeSuiAddress v = a := by
  simp only [assertAddress,Fallible.bind_ok,Fallible.ensure_ok,Fallible.pure_ok,exists_const]

theorem addresses_normal (documented : kit.Documented) {f : String × Nat → Except String String}
    {pairs : List (String × Nat)} {addresses : List String} (made : pairs.mapM f = .ok addresses) (what : Nat → String)
    (reads : ∀ pair, f pair = assertAddress kit.toKit (trim pair.1) (what pair.2)) :
    (∀ a ∈ addresses, kit.isValidSuiAddress a = true) ∧
      ∀ a ∈ addresses, trim a = a ∧ kit.normalizeSuiAddress a = a := by
  have each := Fallible.mapM_ok made
  have one : ∀ a ∈ addresses, ∃ v, kit.isValidSuiAddress v = true ∧ kit.normalizeSuiAddress v = a := by
    intro a member
    obtain ⟨i,found⟩ := List.mem_iff_getElem?.mp member
    clear made
    induction each generalizing i with
    | nil => cases found
    | cons head tail ih =>
      cases i with
      | zero =>
        cases found
        rw [reads] at head
        exact ⟨_,assertAddress_ok.mp head⟩
      | succ i => exact ih (List.mem_of_getElem? found) i found
  refine ⟨?_,?_⟩
  · intro a member
    obtain ⟨v,valid,rfl⟩ := one a member
    exact documented.valid v valid
  · intro a member
    obtain ⟨v,valid,rfl⟩ := one a member
    exact ⟨documented.trimmed v valid,documented.normal v valid⟩

theorem addresses_back (kit : ScriptKit) (what : Nat → String) {f : String × Nat → Except String String}
    (reads : ∀ pair, f pair = assertAddress kit.toKit (trim pair.1) (what pair.2)) {addresses : List String}
    (valid : ∀ a ∈ addresses, kit.isValidSuiAddress a = true)
    (normal : ∀ a ∈ addresses, trim a = a ∧ kit.normalizeSuiAddress a = a) (start : Nat) :
    (addresses.zipIdx start).mapM f = .ok addresses := by
  induction addresses generalizing start with
  | nil => rfl
  | cons a rest ih =>
    have here : f (a,start) = .ok a := by
      rw [reads,(normal a List.mem_cons_self).1]
      exact assertAddress_ok.mpr ⟨valid a List.mem_cons_self,(normal a List.mem_cons_self).2⟩
    have tail := ih (fun a member => valid a (List.mem_cons_of_mem _ member))
      (fun a member => normal a (List.mem_cons_of_mem _ member)) (start+1)
    simp only [List.zipIdx_cons,List.mapM_cons,here,tail,ok_bind]
    rfl

theorem entry_normal (documented : kit.Documented) {entry : String × Option Json} {result : String × List String}
    (made : normalizeEntry kit entry = .ok result) : result.1 = entry.1 ∧
      (∀ a ∈ result.2, kit.isValidSuiAddress a = true) ∧
      ∀ a ∈ result.2, trim a = a ∧ kit.normalizeSuiAddress a = a := by
  simp only [normalizeEntry,normalizeWriter,Fallible.bind_ok,Fallible.ensure_ok,Fallible.pure_ok,exists_const] at made
  obtain ⟨_,items,_,_,_,addresses,made,rfl⟩ := made
  exact ⟨rfl,addresses_normal documented made (fun i => entry.1 ++ "[" ++ toString i ++ "]") (fun _ => rfl)⟩

theorem manifest_single {id : String} {value : Option Json} {writers : WriterAddresses}
    (made : normalizeManifest kit [(id,value)] = .ok writers) :
    ∃ entry, normalizeEntry kit (id,value) = .ok entry ∧ checkRecipients [entry] = .ok writers := by
  simp only [normalizeManifest,List.mapM_cons,List.mapM_nil,Fallible.bind_ok,Fallible.pure_ok] at made
  obtain ⟨_,⟨entry,one,_,rfl,rfl⟩,checked⟩ := made
  exact ⟨entry,one,checked⟩

theorem manifest_payable (documented : kit.Documented) {id : String} {value : Option Json} {writers : WriterAddresses}
    (made : normalizeManifest kit [(id,value)] = .ok writers) : Payable kit (writers.flatMap Prod.snd) := by
  obtain ⟨entry,one,checked⟩ := manifest_single made
  obtain ⟨rfl,some_,distinct,few⟩ := checkRecipients_ok.mp checked
  obtain ⟨_,valid,normal⟩ := entry_normal documented one
  have flat : [entry].flatMap Prod.snd = entry.2 := by simp
  rw [flat] at some_ distinct few ⊢
  exact ⟨some_,distinct,few,valid,normal⟩

theorem texts_back (addresses : List String) : (addresses.map Json.string).map Json.text = addresses := by
  rw [List.map_map]
  exact List.map_id'' (fun _ => rfl) addresses

theorem writer_back {entry : String × List String} (named : Filled entry.1) (some_ : entry.2 ≠ [])
    (valid : ∀ a ∈ entry.2, kit.isValidSuiAddress a = true)
    (normal : ∀ a ∈ entry.2, trim a = a ∧ kit.normalizeSuiAddress a = a) :
    normalizeWriter kit.toKit entry = .ok entry ∧
      normalizeEntry kit (entry.1,some (.array (entry.2.map .string))) = .ok entry := by
  have made := addresses_back kit (fun i => entry.1 ++ "[" ++ toString i ++ "]") (fun _ => rfl) valid normal 0
  have holds : ∀ what, Fallible.ensure (trim entry.1 ≠ "") what = (.ok () : Except String Unit) := fun _ => if_pos named
  have one : normalizeWriter kit.toKit entry = .ok entry := by
    simp only [normalizeWriter,holds,ok_bind,ensure_holds some_,made]
    rfl
  refine ⟨one,?_⟩
  simp only [normalizeEntry,requireItems,texts_back,holds,ok_bind]
  exact one

theorem manifest_back {id : String} {addresses : List String} (named : Filled id) (payable : Payable kit addresses) :
    normalizeManifest kit [(id,some (.array (addresses.map .string)))] = .ok [(id,addresses)] := by
  have one := (@writer_back kit (id,addresses) named payable.some_ payable.valid payable.normal).2
  have all : [(id,some (Json.array (addresses.map .string)))].mapM (normalizeEntry kit) = .ok [(id,addresses)] := by
    simp only [List.mapM_cons,List.mapM_nil,one,ok_bind]
    rfl
  rw [normalizeManifest,all,ok_bind,checkRecipients_ok]
  simpa using ⟨payable.some_,payable.distinct,payable.few⟩

end Addresses

section Snapshots
variable {kit : ScriptKit}

theorem parseWriter_sound (documented : kit.Documented) {set : StatefulSet} {seen : List String} {ordinal : Nat}
    {raw : Json} {writer : Writer} (parsed : parseWriter kit set seen ordinal raw = .ok writer) :
    writer.Sound kit set ordinal ∧ writer.podUid ∉ seen := by
  simp only [parseWriter,Fallible.bind_ok,Fallible.pure_ok,Fallible.ensure_ok,requireString_ok,requireItems_ok,
    exists_const] at parsed
  obtain ⟨_,_,id,⟨_,named⟩,podUid,⟨_,identified⟩,revision,⟨_,revised⟩,numbered,rfl,rfl,new,items,_,some_,images,read,
    addresses,made,rfl⟩ := parsed
  obtain ⟨length,_,distinct,all⟩ := parseEach_sound (fun _ (image : Image) => image.Sound)
    (fun _ _ _ _ => parseImage_sound) read
  refine ⟨⟨rfl,isInteger_small numbered,rfl,named,identified,rfl,revised,?_,?_,distinct,manifest_payable documented made⟩,new⟩
  · intro none_
    rw [show images = [] from none_] at length
    exact some_ (List.length_eq_zero_iff.mp length.symm)
  · intro image member
    obtain ⟨i,found⟩ := List.mem_iff_getElem?.mp member
    exact all i image found

theorem parseWriter_back {set : StatefulSet} {seen : List String} {ordinal : Nat} {writer : Writer}
    (sound : writer.Sound kit set ordinal) (new : writer.podUid ∉ seen) :
    parseWriter kit set seen ordinal writer.json = .ok writer := by
  have images : parseEach Image.name (parseImage writer.id) [] 0 (writer.images.map Image.json) = .ok writer.images := by
    apply parseEach_back (fun _ (image : Image) => image.Sound) (fun _ _ _ => parseImage_back) _ sound.distinct
    · intro i image found
      exact sound.images image (List.mem_of_getElem? found)
    · intro image _ old
      cases old
  have running : writer.images.map Image.json ≠ [] := by simpa using sound.running
  have number : isInteger (some (.nat writer.ordinal)) ordinal = true := by
    rw [sound.place]
    exact isInteger_nat sound.small
  simp only [parseWriter,Writer.json,requireRecord,Json.field,ok_bind,reduceIte,String.reduceEq,
    requireString_filled sound.named,requireString_filled sound.podUid,requireString_filled sound.revised,
    ensure_holds number,ensure_holds sound.id,ensure_holds sound.revision,ensure_holds new,requireItems,
    ensure_holds running,images,manifest_back sound.named sound.payable]
  rw [← sound.place]
  simp [pure,Except.pure]

theorem unprovided_none {providers : List SecretProvider} {writers : List Writer} : unprovided providers writers = none ↔
    ∀ provider ∈ providers, ∀ writer ∈ writers, ∃ image ∈ writer.images, image.name = provider.container := by
  simp [unprovided,List.find?_eq_none]

-- An accepted snapshot is well formed.
theorem read_wellFormed (documented : kit.Documented) {parsed : Json} {nowMs : Int} {requireFresh : Bool}
    {snapshot : LiveWriterSnapshot} (read : readLiveWriterSnapshot kit parsed nowMs requireFresh = .ok snapshot) :
    snapshot.WellFormed kit := by
  simp only [readLiveWriterSnapshot,Fallible.bind_ok,Fallible.ensure_ok,Fallible.require_ok,requireString_ok,
    requireItems_ok,exists_const] at read
  obtain ⟨root,_,_,collectedAt,⟨_,collected⟩,ms,dated,_,_,set,ready,rawSecrets,_,someSecrets,secrets,readSecrets,
    rawProviders,_,someProviders,providers,readProviders,rawWriters,_,replicas,writers,readWriters,images,rest⟩ := read
  obtain ⟨secretCount,_,secretNames,secretsSound⟩ := parseEach_sound (fun _ (secret : WriterSecret) => secret.Sound)
    (fun _ _ _ _ => parseSecret_sound) readSecrets
  obtain ⟨providerCount,_,containers,providersSound⟩ := parseEach_sound
    (fun _ (provider : SecretProvider) => provider.Sound (secrets.map WriterSecret.name)) (fun _ _ _ _ => parseProvider_sound)
    readProviders
  obtain ⟨writerCount,_,pods,writersSound⟩ := parseEach_sound (fun i (writer : Writer) => writer.Sound kit set i)
    (fun _ _ _ _ => parseWriter_sound documented) readWriters
  split at rest
  · cases rest
  · rename_i provided
    simp only [Fallible.bind_ok,Fallible.pure_ok,requireString_ok] at rest
    obtain ⟨context,⟨_,contextual⟩,namespace_,⟨_,spaced⟩,rfl⟩ := rest
    refine ⟨collected,by rw [dated]; rfl,contextual,spaced,parseStatefulSet_ready ready,⟨?_,?_⟩,secretNames,⟨?_,?_⟩,
      containers,writerCount.trans replicas,?_,pods,images,unprovided_none.mp provided⟩
    · rintro rfl
      exact someSecrets (List.length_eq_zero_iff.mp secretCount.symm)
    · intro secret member
      obtain ⟨i,found⟩ := List.mem_iff_getElem?.mp member
      exact secretsSound i secret found
    · rintro rfl
      exact someProviders (List.length_eq_zero_iff.mp providerCount.symm)
    · intro provider member
      obtain ⟨i,found⟩ := List.mem_iff_getElem?.mp member
      exact providersSound i provider found
    · intro i writer found
      have sound := writersSound i writer found
      rwa [Nat.zero_add] at sound

section Members
variable (snapshot : LiveWriterSnapshot)

theorem member_version : Json.field "schemaVersion" snapshot.members = some (.nat 1) := by
  simp [LiveWriterSnapshot.members,Json.field]

theorem member_collected : Json.field "collectedAt" snapshot.members = some (.string snapshot.collectedAt) := by
  simp [LiveWriterSnapshot.members,Json.field]

theorem member_context : Json.field "context" snapshot.members = some (.string snapshot.context) := by
  simp [LiveWriterSnapshot.members,Json.field]

theorem member_namespace : Json.field "namespace" snapshot.members = some (.string snapshot.namespace_) := by
  simp [LiveWriterSnapshot.members,Json.field]

theorem member_set : Json.field "statefulSet" snapshot.members = some snapshot.statefulSet.json := by
  simp [LiveWriterSnapshot.members,Json.field]

theorem member_secrets : Json.field "writerSecrets" snapshot.members =
    some (.array (snapshot.writerSecrets.map WriterSecret.json)) := by
  simp [LiveWriterSnapshot.members,Json.field]

theorem member_providers : Json.field "writerSecretProviders" snapshot.members =
    some (.array (snapshot.writerSecretProviders.map SecretProvider.json)) := by
  simp [LiveWriterSnapshot.members,Json.field]

theorem member_writers : Json.field "writers" snapshot.members = some (.array (snapshot.writers.map Writer.json)) := by
  simp [LiveWriterSnapshot.members,Json.field]

end Members

theorem snapshot_back {snapshot : LiveWriterSnapshot} (wellFormed : snapshot.WellFormed kit) (nowMs : Int) :
    readLiveWriterSnapshot kit snapshot.json nowMs false = .ok snapshot := by
  obtain ⟨ms,dated⟩ := Option.isSome_iff_exists.mp wellFormed.dated
  have secrets : parseEach WriterSecret.name parseSecret [] 0 (snapshot.writerSecrets.map WriterSecret.json) =
      .ok snapshot.writerSecrets := by
    apply parseEach_back (fun _ (secret : WriterSecret) => secret.Sound) (fun _ _ _ => parseSecret_back) _
      wellFormed.secretNames
    · intro i secret found
      exact wellFormed.secrets.2 secret (List.mem_of_getElem? found)
    · intro secret _ old
      cases old
  have providers : parseEach SecretProvider.container (parseProvider (snapshot.writerSecrets.map WriterSecret.name)) [] 0
      (snapshot.writerSecretProviders.map SecretProvider.json) = .ok snapshot.writerSecretProviders := by
    apply parseEach_back (fun _ (provider : SecretProvider) =>
      provider.Sound (snapshot.writerSecrets.map WriterSecret.name)) (fun _ _ _ => parseProvider_back) _ wellFormed.containers
    · intro i provider found
      exact wellFormed.providers.2 provider (List.mem_of_getElem? found)
    · intro provider _ old
      cases old
  have writers : parseEach Writer.podUid (parseWriter kit snapshot.statefulSet) [] 0 (snapshot.writers.map Writer.json) =
      .ok snapshot.writers := by
    apply parseEach_back (fun i (writer : Writer) => writer.Sound kit snapshot.statefulSet i)
      (fun _ _ _ => parseWriter_back) _ wellFormed.pods
    · intro i writer found
      rw [Nat.zero_add]
      exact wellFormed.writers i writer found
    · intro writer _ old
      cases old
  have someSecrets : snapshot.writerSecrets.map WriterSecret.json ≠ [] := by simpa using wellFormed.secrets.1
  have someProviders : snapshot.writerSecretProviders.map SecretProvider.json ≠ [] := by simpa using wellFormed.providers.1
  have replicas : (snapshot.writers.map Writer.json).length = snapshot.statefulSet.replicas := by
    rw [List.length_map]
    exact wellFormed.replicas
  have fresh : checkAge false (nowMs - ms) = .ok () := rfl
  have one : isInteger (some (.nat 1)) 1 = true := isInteger_nat (by decide)
  have set := parseStatefulSet_back wellFormed.statefulSet (member_set snapshot)
  simp only [readLiveWriterSnapshot,Fallible.require,ok_bind,LiveWriterSnapshot.json,requireRecord,
    member_version,ensure_holds one,member_collected,requireString_filled wellFormed.collectedAt,dated,fresh,set,
    member_secrets,requireItems,ensure_holds someSecrets,secrets,member_providers,ensure_holds someProviders,providers,
    member_writers,ensure_holds replicas,writers,ensure_holds wellFormed.images,
    unprovided_none.mpr wellFormed.provided,member_context,requireString_filled wellFormed.context,
    member_namespace,requireString_filled wellFormed.namespace_]
  rfl

theorem parsed_wellFormed (documented : kit.Documented) {raw : String} {nowMs : Int} {requireFresh : Bool}
    {snapshot : LiveWriterSnapshot} (parsed : parseLiveWriterSnapshot kit raw nowMs requireFresh = .ok snapshot) :
    snapshot.WellFormed kit := by
  obtain ⟨value,_,read⟩ := Fallible.bind_ok.mp parsed
  exact read_wellFormed documented read

-- What is accepted is well formed, and a text that says what a snapshot says is
-- accepted, however old it is by then, exactly where the snapshot is well formed.
theorem snapshot_round_trip (kit : ScriptKit) (documented : kit.Documented) :
    (∀ raw nowMs requireFresh snapshot, parseLiveWriterSnapshot kit raw nowMs requireFresh = .ok snapshot →
      snapshot.WellFormed kit) ∧
    ∀ raw snapshot, kit.parse raw = some snapshot.json → ∀ nowMs,
      parseLiveWriterSnapshot kit raw nowMs false = .ok snapshot ↔ snapshot.WellFormed kit := by
  refine ⟨fun _ _ _ _ parsed => parsed_wellFormed documented parsed,fun raw snapshot read nowMs => ⟨?_,?_⟩⟩
  · intro parsed
    exact parsed_wellFormed documented parsed
  · intro wellFormed
    rw [parseLiveWriterSnapshot,read,Fallible.require,ok_bind]
    exact snapshot_back wellFormed nowMs

end Snapshots

-- A rollout with two writers, and a text printed from it.

def otherWriter : String := String.ofList ('0' :: 'x' :: List.replicate 64 '2')

def sampleSnapshot : LiveWriterSnapshot where
  collectedAt := "2026-01-01T00:00:00.000Z"
  context := "prod"
  namespace_ := "memwal"
  statefulSet := ⟨"writer","set-uid",3,"writer-7f",2,2,2,2⟩
  writerSecrets := [⟨"writer-keys","secret-uid","42"⟩,⟨"server-keys","other-uid","43"⟩]
  writerSecretProviders := [⟨"sidecar","writer-keys","SERVER_SUI_PRIVATE_KEYS",.secretKeyRef⟩,
    ⟨"server","server-keys","SERVER_SUI_PRIVATE_KEYS",.secretKeyRef⟩]
  writers := [
    ⟨"writer-0",0,"pod-uid-0","writer-7f",[⟨"sidecar","sidecar:1","sha256:12"⟩,⟨"server","server:1","sha256:34"⟩],
      [sampleWriter]⟩,
    ⟨"writer-1",1,"pod-uid-1","writer-7f",[⟨"sidecar","sidecar:1","sha256:12"⟩,⟨"server","server:1","sha256:34"⟩],
      [otherWriter]⟩]

-- What pays the two of them, 10 MIST and 20 FROST each.

def writerPayment (first recipient withdrawal : Nat) : List Command := [.splitCoins .gasCoin [.input 0],
  balanceCall "coin" "into_balance" suiType [.nestedResult first 0],
  balanceCall "balance" "send_funds" suiType [.nestedResult (first+1) 0,.input recipient],
  balanceCall "balance" "redeem_funds" sampleWal [.input withdrawal],
  balanceCall "balance" "send_funds" sampleWal [.nestedResult (first+3) 0,.input recipient]]

def pairTransaction : TransactionData := {sampleTransaction (writerPayment 0 1 3 ++ writerPayment 5 4 5) with
  inputs := (sampleTransaction []).inputs ++
    [.pure (List.replicate 32 34),.fundsWithdrawal ⟨.maxAmountU64 20,.balance sampleWal,.sender⟩]}

mutual
def layout (gap : String) : Json → String
  | .null => "null"
  | .bool value => toString value
  | .number value => value.text
  | .string text => "\"" ++ text ++ "\""
  | .array items => "[\n" ++ ",\n".intercalate (layoutItems (gap ++ "  ") items) ++ "\n" ++ gap ++ "]"
  | .object members => "\x7b\n" ++ ",\n".intercalate (layoutMembers (gap ++ "  ") members) ++ "\n" ++ gap ++ "\x7d"

def layoutItems (gap : String) : List Json → List String
  | [] => []
  | item :: rest => (gap ++ layout gap item) :: layoutItems gap rest

def layoutMembers (gap : String) : Json.Members → List String
  | [] => []
  | (key,value) :: rest => (gap ++ "\"" ++ key ++ "\": " ++ layout gap value) :: layoutMembers gap rest
end

def sampleScript (parse : String → Option Json) : ScriptKit where
  isValidSuiAddress address := address ∈ [sampleSender,sampleWriter,otherWriter]
  normalizeSuiAddress := padded
  normalizeStructTag := sampleKit.normalizeStructTag
  stringify text := "\"" ++ text ++ "\""
  fromBytes bytes := if bytes = [0,0,0] then some pairTransaction else none
  parse := parse
  pretty := layout ""
  print := layout ""
  dateParse text := if text = sampleSnapshot.collectedAt then some 1767225600000 else none
  isoText _ := "2026-01-01T00:01:00.000Z"
  encode64 bytes := String.ofList (Numerals.base64url bytes)
  decode64 text := (Numerals.base64urlRead text.toList).getD []
  digestOf _ := "4Nh1cUxMYFJrbgvA9k6TGhyz1H7cyCMAaMJxUFkZBdPm"
  addressOf key := if key = "suiprivkey1" then some sampleSender else none
  sign _ _ := "AHBheW91dA"
  verify bytes signature sender := bytes = [0,0,0] && signature = "AHBheW91dA" && sender = sampleSender

theorem filled_of_solid {text : String} {c : Char} (member : c ∈ text.toList) (solid : isTrimmed c = false) : Filled text := by
  intro blank
  have letters := congrArg String.toList blank
  rw [trim,String.toList_ofList] at letters
  have none_ := List.reverse_eq_nil_iff.mp letters
  rw [List.dropWhile_eq_nil_iff] at none_
  have kept : c ∈ text.toList.dropWhile isTrimmed := by
    rw [← List.takeWhile_append_dropWhile (p:=isTrimmed) (l:=text.toList)] at member
    rcases List.mem_append.mp member with front | back
    · have trimmed := List.mem_takeWhile_imp front
      rw [solid] at trimmed
      cases trimmed
    · exact back
  have trimmed := none_ c (List.mem_reverse.mpr kept)
  rw [solid] at trimmed
  cases trimmed

theorem sampleScript_parse (parse : String → Option Json) : (sampleScript parse).parse = parse := rfl

theorem symbol_solid {n : Nat} (small : n < 64) : isTrimmed (Numerals.symbol n) = false := by
  revert n
  decide

theorem sampleScript_documented (parse : String → Option Json) : (sampleScript parse).Documented where
  valid a valid := by
    revert a
    simp only [sampleScript,decide_eq_true_eq]
    decide +kernel
  normal a valid := by
    revert a
    simp only [sampleScript,decide_eq_true_eq]
    decide +kernel
  trimmed a valid := by
    revert a
    simp only [sampleScript,decide_eq_true_eq]
    decide +kernel
  some_ a valid := by
    revert a
    simp only [sampleScript,decide_eq_true_eq]
    decide +kernel
  empty := rfl
  decodes bytes := by simp [sampleScript]
  encoded bytes some_ := by
    cases bytes with
    | nil => exact absurd rfl some_
    | cons b rest =>
      have small := b.toNat_lt
      have first : ∃ tail, Numerals.base64url (b :: rest) = Numerals.symbol (b.toNat / 4) :: tail := by
        cases rest with
        | nil => exact ⟨_,rfl⟩
        | cons c more => cases more <;> exact ⟨_,rfl⟩
      obtain ⟨tail,letters⟩ := first
      refine filled_of_solid (c:=Numerals.symbol (b.toNat / 4)) ?_ (symbol_solid (by omega))
      change Numerals.symbol (b.toNat / 4) ∈ (String.ofList (Numerals.base64url (b :: rest))).toList
      rw [letters,String.toList_ofList]
      exact List.mem_cons_self
  digested bytes := by
    change Filled "4Nh1cUxMYFJrbgvA9k6TGhyz1H7cyCMAaMJxUFkZBdPm"
    decide +kernel
  signed bytes signature sender verified := by
    simp only [sampleScript,Bool.and_eq_true,decide_eq_true_eq] at verified
    rw [verified.1.2]
    decide +kernel

def sampleTexts (text : String) : Option Json :=
  if text = layout "" sampleSnapshot.json then some sampleSnapshot.json else none

theorem sampleTexts_snapshot : sampleTexts (layout "" sampleSnapshot.json) = some sampleSnapshot.json := if_pos rfl

theorem sampleSnapshot_read :
    parseLiveWriterSnapshot (sampleScript sampleTexts) (layout "" sampleSnapshot.json) 0 false = .ok sampleSnapshot ∧
      sampleSnapshot.WellFormed (sampleScript sampleTexts) := by
  have read : readLiveWriterSnapshot (sampleScript sampleTexts) sampleSnapshot.json 0 false = .ok sampleSnapshot := by
    decide +kernel
  have parses : (sampleScript sampleTexts).parse (layout "" sampleSnapshot.json) = some sampleSnapshot.json := by
    rw [sampleScript_parse,sampleTexts_snapshot]
  have parsed : parseLiveWriterSnapshot (sampleScript sampleTexts) (layout "" sampleSnapshot.json) 0 false =
      .ok sampleSnapshot := by
    rw [parseLiveWriterSnapshot,parses,Fallible.require,ok_bind,read]
  exact ⟨parsed,((snapshot_round_trip _ (sampleScript_documented sampleTexts)).2 _ _ parses 0).mp parsed⟩

end MemWal.Funding.Payout
