import Mathlib.Data.Prod.Lex
import MemWal.Library.Base64
import MemWal.Library.Keyset
import MemWal.SecurityDelete.Routes

namespace MemWal.SecurityDelete.Listing
open Library Library.Fallible Library.Numerals

-- The instants of a `DateTime<Utc>`, to the microsecond that the database keeps.
def minMicros : Int := -8334601228800000000

def maxMicros : Int := 8210266876799999999

abbrev DateTime := {micros : Int // minMicros ≤ micros ∧ micros ≤ maxMicros}

def fromTimestampMicros (micros : Int) : Option DateTime :=
  if inRange : minMicros ≤ micros ∧ micros ≤ maxMicros then some ⟨micros,inRange⟩ else none

-- A text of the database. Its order is the collation, which is left open.
structure DbText where
  text : String

-- `delete_blobs_tracking`
structure TrackedBlob where
  owner : DbText
  blobId : DbText
  objectId : Option ObjectId
  state : BlobState
  batchId : Option Uuid
  createdAt : DateTime
  trackedSeq : Nat
  trackedAt : DateTime
  updatedAt : DateTime

structure Table where
  rows : List TrackedBlob
  primaryKey : (rows.map (fun row => (row.owner,row.blobId))).Nodup

structure BlobRow where
  blobId : DbText
  objectId : Option ObjectId
  createdAt : DateTime
  trackedAt : DateTime
  trackedSeq : Nat
  state : BlobState
  batchId : Option Uuid

def TrackedBlob.blobRow (row : TrackedBlob) : BlobRow :=
  ⟨row.blobId,row.objectId,row.createdAt,row.trackedAt,row.trackedSeq,row.state,row.batchId⟩

structure Counts where
  total : Nat
  deletable : Nat
  deleting : Nat
  deleted : Nat
  deletedExternal : Nat
  notOwner : Nat
  expired : Nat
  deriving DecidableEq, Repr

structure ListCursor where
  v : UInt8
  createdAtMicros : Int
  blobId : String
  deriving DecidableEq, Repr

structure SweepCheckpoint where
  v : UInt8
  updatedAt : DateTime
  owner : String
  blobId : String
  deriving DecidableEq

-- What `serde_json` writes and reads, and the text of an instant.
structure Serde where
  listCursorToVec : ListCursor → Bytes
  listCursorFromSlice : Bytes → Except String ListCursor
  sweepCheckpointToString : SweepCheckpoint → String
  sweepCheckpointFromStr : String → Except String SweepCheckpoint
  toRfc3339 : DateTime → String

structure AppState where
  legacyDb : Option Table
  deleteBatchMax : Nat

structure ListQuery where
  state : Option String
  cursor : Option String
  limit : Option Int
  deriving DecidableEq, Repr

structure BlobItemJson where
  blobId : String
  objectId : Option String
  createdAt : String
  state : String
  deriving DecidableEq, Repr

structure ListResponse where
  items : List BlobItemJson
  counts : Counts
  deleteBatchMax : Nat
  nextCursor : Option String
  deriving DecidableEq, Repr

def listMax : Int := 200

def stateText : BlobState → String
  | .deletable => "deletable"
  | .deleting => "deleting"
  | .deleted => "deleted"
  | .deletedExternal => "deleted_external"
  | .notOwner => "not_owner"
  | .expired => "expired"

def validBlobState : String → Option BlobState
  | "deletable" => some .deletable
  | "deleting" => some .deleting
  | "deleted" => some .deleted
  | "deleted_external" => some .deletedExternal
  | "not_owner" => some .notOwner
  | "expired" => some .expired
  | _ => none

def parseStates (raw : Option String) : Except SdError (List BlobState) := do
  let states := ((raw.getD "deletable").toList.splitOn ',').map String.ofList
  ensure (states ≠ []) invalidRequest
  require (states.mapM validBlobState) invalidRequest

variable (serde : Serde)

def decodeCursor (raw : Option String) : Except SdError (Option (DateTime × String)) :=
  match raw with
  | none => .ok none
  | some raw => do
    let bytes ← require (base64urlRead raw.toList) invalidRequest
    let cursor ← (serde.listCursorFromSlice bytes).mapError (fun _ => invalidRequest)
    ensure (cursor.v = 1 ∧ cursor.blobId ≠ "") invalidRequest
    let createdAt ← require (fromTimestampMicros cursor.createdAtMicros) invalidRequest
    return some (createdAt,cursor.blobId)

def encodeCursor (createdAt : DateTime) (blobId : String) : String :=
  String.ofList (base64url (serde.listCursorToVec ⟨1,createdAt.val,blobId⟩))

def legacyPool (state : AppState) : Except SdError Table := require state.legacyDb featureDisabled

section Queries
variable [LinearOrder DbText]

def TrackedBlob.listKey (row : TrackedBlob) : DateTime ×ₗ DbText := toLex (row.createdAt,row.blobId)

def Table.matching (table : Table) (owner : DbText) (states : List BlobState) : List TrackedBlob :=
  table.rows.filter (fun row => row.owner = owner ∧ (states = [] ∨ row.state ∈ states))

def listBlobs (pool : Table) (owner : DbText) (states : List BlobState) (cursor : Option (DateTime × DbText))
    (limit : Int) : Except StoreError (List BlobRow) := do
  ensure (1 ≤ limit ∧ limit ≤ 1000) .badRequest
  return (Keyset.page TrackedBlob.listKey limit.toNat (cursor.map toLex) (pool.matching owner states)).map TrackedBlob.blobRow

def counts (pool : Table) (owner : DbText) : Counts :=
  let own := pool.rows.filter (fun row => row.owner = owner)
  let filter (state : BlobState) := own.countP (fun row => row.state = state)
  ⟨own.length,filter .deletable,filter .deleting,filter .deleted,filter .deletedExternal,filter .notOwner,filter .expired⟩

def blobItem (row : BlobRow) : BlobItemJson :=
  ⟨row.blobId.text,row.objectId,serde.toRfc3339 row.createdAt,stateText row.state⟩

def listDeletableBlobs (state : AppState) (owner : DbText) (query : ListQuery) : Except SdError ListResponse := do
  let states ← parseStates query.state
  let limit := query.limit.getD 100
  ensure (1 ≤ limit ∧ limit ≤ listMax) invalidRequest
  let cursor ← decodeCursor serde query.cursor
  let pool ← legacyPool state
  let cursor := cursor.map (fun place => (place.1,DbText.mk place.2))
  let rows ← (listBlobs pool owner states cursor (limit + 1)).mapError SdError.internal
  -- One row more than the limit was asked for, to tell whether any follow.
  let more := limit.toNat < rows.length
  let rows := if more then rows.take limit.toNat else rows
  let nextCursor := if more then rows.getLast?.map (fun row => encodeCursor serde row.createdAt row.blobId.text) else none
  return ⟨rows.map (blobItem serde),counts pool owner,state.deleteBatchMax,nextCursor⟩

-- The pages of a client that asks for the next one until there is none.
inductive Follows (state : AppState) (owner : DbText) : ListQuery → List ListResponse → Prop where
  | last (query : ListQuery) (page : ListResponse) :
      listDeletableBlobs serde state owner query = .ok page → page.nextCursor = none → Follows state owner query [page]
  | next (query : ListQuery) (page : ListResponse) (cursor : String) (pages : List ListResponse) :
      listDeletableBlobs serde state owner query = .ok page → page.nextCursor = some cursor →
      Follows state owner {query with cursor := some cursor} pages → Follows state owner query (page :: pages)

end Queries

theorem Follows.unique [LinearOrder DbText] {serde : Serde} {state : AppState} {owner : DbText} {query : ListQuery}
    {one two : List ListResponse} (left : Follows serde state owner query one) (right : Follows serde state owner query two) :
    one = two := by
  induction left generalizing two with
  | last query page answered none_ =>
    cases right with
    | last _ page' answered' none' =>
      rw [answered] at answered'
      cases answered'
      rfl
    | next _ page' cursor pages answered' some_ rest =>
      rw [answered] at answered'
      cases answered'
      rw [none_] at some_
      cases some_
  | next query page cursor pages answered some_ rest ih =>
    cases right with
    | last _ page' answered' none_ =>
      rw [answered] at answered'
      cases answered'
      rw [none_] at some_
      cases some_
    | next _ page' cursor' pages' answered' some' rest' =>
      rw [answered] at answered'
      cases answered'
      rw [some_] at some'
      cases some'
      rw [ih rest']

-- `serde_json` gives back the cursor that it wrote for a row.
def ReadsCursors (table : Table) : Prop := ∀ row ∈ table.rows,
  serde.listCursorFromSlice (serde.listCursorToVec ⟨1,row.createdAt.val,row.blobId.text⟩) =
    .ok ⟨1,row.createdAt.val,row.blobId.text⟩

variable {serde} {table : Table}

theorem fromTimestampMicros_val (time : DateTime) : fromTimestampMicros time.val = some time := dif_pos time.property

theorem decode_encode (reads : ReadsCursors serde table) (named : ∀ row ∈ table.rows, row.blobId.text ≠ "")
    {row : TrackedBlob} (listed : row ∈ table.rows) :
    decodeCursor serde (some (encodeCursor serde row.createdAt row.blobId.text)) = .ok (some (row.createdAt,row.blobId.text)) := by
  unfold decodeCursor encodeCursor
  simp only [String.toList_ofList,base64urlRead_base64url,require_ok,bind_ok,ensure_ok,pure_ok]
  refine ⟨_,rfl,⟨1,row.createdAt.val,row.blobId.text⟩,?_,(),⟨rfl,named row listed⟩,row.createdAt,?_,rfl⟩
  · rw [reads row listed]
    rfl
  · exact fromTimestampMicros_val row.createdAt

section Pages
variable [LinearOrder DbText] {owner : DbText} {states : List BlobState}

theorem matching_distinct : ((table.matching owner states).map TrackedBlob.listKey).Nodup := by
  have keys := table.primaryKey.sublist ((List.filter_sublist (l:=table.rows)
    (p:=fun row => row.owner = owner ∧ (states = [] ∨ row.state ∈ states))).map (fun row => (row.owner,row.blobId)))
  apply List.Nodup.of_map (fun key : DateTime ×ₗ DbText => (owner,(ofLex key).2))
  rw [List.map_map]
  refine (List.map_congr_left ?_ ▸ keys)
  intro row member
  have own := (decide_eq_true_eq.mp (List.mem_filter.mp member).2).1
  rw [own]
  rfl

def placeOf (cursor : Option (DateTime × String)) : Option (DateTime ×ₗ DbText) :=
  cursor.map (fun place => toLex (place.1,DbText.mk place.2))

variable {state : AppState} {query : ListQuery}

-- What a request with a cursor that can be read is answered.
theorem listDeletableBlobs_page (owner : DbText) {cursor : Option (DateTime × String)} (pool : state.legacyDb = some table)
    (valid : parseStates query.state = .ok states) (inRange : 1 ≤ query.limit.getD 100 ∧ query.limit.getD 100 ≤ listMax)
    (read : decodeCursor serde query.cursor = .ok cursor) :
    let limit := (query.limit.getD 100).toNat
    let rest := Keyset.remaining TrackedBlob.listKey (placeOf cursor) (table.matching owner states)
    ∃ page, listDeletableBlobs serde state owner query = .ok page ∧
      page.items = (rest.take limit).map (fun row => blobItem serde row.blobRow) ∧
      page.nextCursor = if limit < rest.length then
        (rest.take limit).getLast?.map (fun row => encodeCursor serde row.createdAt row.blobId.text) else none := by
  intro limit rest
  have probe : listBlobs table owner states (cursor.map (fun place => (place.1,DbText.mk place.2))) (query.limit.getD 100 + 1) =
      .ok ((rest.take (limit + 1)).map TrackedBlob.blobRow) := by
    unfold listBlobs
    have bound : (query.limit.getD 100 + 1).toNat = limit + 1 := by omega
    have fits : 1 ≤ query.limit.getD 100 + 1 ∧ query.limit.getD 100 + 1 ≤ 1000 := by
      have small := inRange.2
      unfold listMax at small
      omega
    simp only [bind_ok,ensure_ok,pure_ok]
    refine ⟨(),fits,?_⟩
    rw [bound,Option.map_map]
    rfl
  have more : (limit < ((rest.take (limit + 1)).map TrackedBlob.blobRow).length) ↔ limit < rest.length := by
    rw [List.length_map,List.length_take]
    omega
  have cut : ((rest.take (limit + 1)).map TrackedBlob.blobRow).take limit = (rest.take limit).map TrackedBlob.blobRow := by
    rw [← List.map_take,List.take_take,Nat.min_eq_left (Nat.le_succ limit)]
  have some_ : legacyPool state = .ok table := require_ok.mpr pool
  have accepted : ensure (1 ≤ query.limit.getD 100 ∧ query.limit.getD 100 ≤ listMax) invalidRequest = .ok () :=
    ensure_ok.mpr inRange
  unfold listDeletableBlobs
  rw [valid]
  simp only [read,some_,probe,accepted,bind,Except.bind,Except.mapError,pure,Except.pure]
  refine ⟨_,rfl,?_,?_⟩
  · change (if limit < _ then _ else _ : List BlobRow).map _ = _
    by_cases longer : limit < rest.length
    · rw [if_pos (more.mpr longer),cut,List.map_map]
      rfl
    · rw [if_neg (fun less => longer (more.mp less)),List.map_map,List.take_of_length_le (by omega),
        List.take_of_length_le (by omega)]
      rfl
  · change (if limit < _ then _ else _ : Option String) = _
    by_cases longer : limit < rest.length
    · rw [if_pos (more.mpr longer),if_pos longer]
      change ((if limit < _ then _ else _ : List BlobRow).getLast?).map _ = _
      rw [if_pos (more.mpr longer),cut,List.getLast?_map,Option.map_map]
      rfl
    · rw [if_neg (fun less => longer (more.mp less)),if_neg longer]

-- The cursor of a page was made from a row of the table, and is read as that row's place.
def Produced (serde : Serde) (table : Table) (raw : String) : Prop := ∃ row ∈ table.rows,
  raw = encodeCursor serde row.createdAt row.blobId.text ∧
    decodeCursor serde (some raw) = .ok (some (row.createdAt,row.blobId.text))

theorem follows_remaining (owner : DbText) (reads : ReadsCursors serde table) (named : ∀ row ∈ table.rows, row.blobId.text ≠ "")
    (pool : state.legacyDb = some table) {cursor : Option (DateTime × String)}
    (valid : parseStates query.state = .ok states) (inRange : 1 ≤ query.limit.getD 100 ∧ query.limit.getD 100 ≤ listMax)
    (read : decodeCursor serde query.cursor = .ok cursor) :
    ∃ pages, Follows serde state owner query pages ∧
      pages.flatMap ListResponse.items =
        (Keyset.remaining TrackedBlob.listKey (placeOf cursor) (table.matching owner states)).map
          (fun row => blobItem serde row.blobRow) ∧
      ∀ page ∈ pages, ∀ raw, page.nextCursor = some raw → Produced serde table raw := by
  induction size : (Keyset.remaining TrackedBlob.listKey (placeOf cursor) (table.matching owner states)).length
    using Nat.strongRecOn generalizing query cursor with
  | ind n ih =>
    obtain ⟨page,answered,items,next⟩ := listDeletableBlobs_page owner pool valid inRange read
    generalize isRest : Keyset.remaining TrackedBlob.listKey (placeOf cursor) (table.matching owner states) = rest
      at items next size
    have positive : 0 < (query.limit.getD 100).toNat := by
      have small := inRange.1
      omega
    generalize (query.limit.getD 100).toNat = limit at items next positive
    by_cases longer : limit < rest.length
    · have some_ : rest.take limit ≠ [] := by
        intro none_
        rcases List.take_eq_nil_iff.mp none_ with zero | empty
        · exact absurd zero (Nat.ne_of_gt positive)
        · rw [empty] at longer
          exact absurd longer (Nat.not_lt_zero _)
      have ends := List.getLast?_eq_some_getLast some_
      generalize (rest.take limit).getLast some_ = row at ends
      rw [if_pos longer,ends,Option.map_some] at next
      have inside : row ∈ rest := List.mem_of_mem_take (List.mem_of_getLast? ends)
      rw [← isRest] at inside
      have listed : row ∈ table.rows := (List.mem_filter.mp (Keyset.mem_remaining.mp inside).1).1
      have decoded := decode_encode reads named listed
      have ends' : (Keyset.page TrackedBlob.listKey limit (placeOf cursor) (table.matching owner states)).getLast? = some row := by
        rw [Keyset.page,isRest]
        exact ends
      have past := Keyset.remaining_next matching_distinct ends'
      rw [isRest] at past
      have shorter : (rest.drop limit).length < n := by
        rw [List.length_drop,size]
        exact Nat.sub_lt (by omega) positive
      obtain ⟨pages,follows,whole,produced⟩ := @ih _ shorter
        {query with cursor := some (encodeCursor serde row.createdAt row.blobId.text)} _ valid inRange decoded
        (congrArg List.length past)
      refine ⟨page :: pages,.next query page _ pages answered next follows,?_,?_⟩
      · rw [List.flatMap_cons,whole,items]
        change _ ++ (Keyset.remaining _ (some row.listKey) _).map _ = _
        rw [past,← List.map_append,List.take_append_drop]
      · intro other member raw found
        rcases List.mem_cons.mp member with here | later
        · rw [here,next] at found
          cases found
          exact ⟨row,listed,rfl,decoded⟩
        · exact produced other later raw found
    · rw [if_neg longer] at next
      refine ⟨[page],.last query page answered next,?_,?_⟩
      · rw [List.flatMap_singleton,items,List.take_of_length_le (Nat.not_lt.mp longer)]
      · intro other member raw found
        rw [List.mem_singleton.mp member,next] at found
        cases found

end Pages

end MemWal.SecurityDelete.Listing
