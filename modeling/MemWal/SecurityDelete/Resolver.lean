import MemWal.Library.Runs
import MemWal.SecurityDelete.Changes

namespace MemWal.SecurityDelete.Resolver
open Library Library.Fallible

structure OwnedPage where
  blobs : List (BlobId × ObjectId)
  next : Option Cursor
  deriving DecidableEq, Repr

-- The cursors a walk from the first page can hold, each with what the pages
-- before it have listed.
inductive Reaches (page : Option Cursor → OwnedPage) : Option Cursor → List BlobId → Prop where
  | first : Reaches page none []
  | next {cursor : Option Cursor} {seen : List BlobId} {after : Cursor} : Reaches page cursor seen →
      (page cursor).next = some after → Reaches page (some after) (seen ++ (page cursor).blobs.map Prod.fst)

-- What one owner holds on chain, and the pages of `list_owned_blobs` for it.
structure Listing where
  held : BlobId → Bool
  page : Option Cursor → OwnedPage
  complete : ∀ cursor seen, Reaches page cursor seen → (page cursor).next = none →
    ∀ blobId, held blobId = true → blobId ∈ seen ++ (page cursor).blobs.map Prod.fst

structure ResolverReport where
  resolved : Nat
  markedNotOwner : Nat
  ownersCompleted : Nat
  ownersDeferred : Nat
  deriving DecidableEq, Repr

-- Where `run_resolver_tick` stands in the loop body of one owner: each stage is
-- named by the database or chain call it makes next.
inductive Stage where
  | load
  | reserve (previous : Option ResolverCheckpoint)
  | opening (checkpoint : ResolverCheckpoint)
  | listing (checkpoint : ResolverCheckpoint)
  | filling (checkpoint : ResolverCheckpoint) (page : OwnedPage)
  | advancing (checkpoint : ResolverCheckpoint) (page : OwnedPage)
  | completing (checkpoint : ResolverCheckpoint)
  | closing (checkpoint : ResolverCheckpoint)
  deriving DecidableEq, Repr

structure Tick where
  owner : Owner
  rest : List Owner
  stage : Stage
  report : ResolverReport
  deriving DecidableEq, Repr

-- A transaction on `vector_entries` whose trigger has run: it holds the shared
-- lock of its owner, its sequence number is drawn, its row is not visible yet.
structure Insertion where
  owner : Owner
  blobId : BlobId
  createdAt : Timestamp
  trackedSeq : Nat
  deriving DecidableEq, Repr

structure World where
  db : Db
  chain : Owner → Listing
  inserting : List Insertion
  ticks : Store Nat Tick

def World.initial (chain : Owner → Listing) : World := ⟨.empty,chain,[],.empty⟩

inductive Failure where
  | badRequest | internal | refused | absent
  | storage (failure : StoreError)
  deriving DecidableEq

inductive Call where
  | start (worker : Nat) (ownersPerTick : Int)
  | resolve (worker : Nat) (m : Moment) (contended : Bool)
  | crash (worker : Nat)
  | client (m : Moment) (t : Transaction)
  | beginInsert (rawOwner : String) (blobId : BlobId) (createdAt : Timestamp)
  | commitInsert (m : Moment) (insertion : Insertion)
  | abortInsert (insertion : Insertion)
  | relist (owner : Owner) (listing : Listing)

def Tick.open? (owners : List Owner) (report : ResolverReport) : Option Tick :=
  match owners with
  | [] => none
  | owner :: rest => some ⟨owner,rest,.load,report⟩

-- The tick of a replica moves on, or is over.
def World.setTick (w : World) (worker : Nat) (moved : Option Tick) : World :=
  {w with
    ticks := match moved with
      | some tick => w.ticks.upsert worker tick
      | none => w.ticks.erase worker}

def World.toStage (w : World) (worker : Nat) (tick : Tick) (stage : Stage) : World :=
  w.setTick worker (some {tick with stage := stage})

def Db.persistCheckpoint (db : Db) (owner : Owner) (checkpoint : ResolverCheckpoint) : Db :=
  {db with resolverCheckpoint := db.resolverCheckpoint.upsert owner checkpoint}

def fencedCheckpoint (fence : Nat) : Option ResolverCheckpoint → ResolverCheckpoint
  | none => ⟨fence,none,none⟩
  | some checkpoint => {checkpoint with scanFence := fence}

-- The lock attempt also fails when an owner with the same hash holds it.
def World.lockFree (w : World) (owner : Owner) (contended : Bool) : Bool :=
  !contended && w.inserting.all (fun insertion => insertion.owner ≠ owner)

def World.resolve (w : World) (worker : Nat) (tick : Tick) (m : Moment) (contended : Bool) : World :=
  match tick.stage with
  | .load =>
    match w.db.resolverCheckpoint.get? tick.owner with
    | none => w.toStage worker tick (.reserve none)
    | some checkpoint =>
      if checkpoint.cursor.isNone && checkpoint.completedFence.isSome then
        w.toStage worker tick (.reserve (some checkpoint))
      else w.toStage worker tick (.opening checkpoint)
  | .reserve previous =>
    match w.db.tryReserveResolverScanFence (w.lockFree tick.owner contended) with
    | (_,none) =>
      w.setTick worker (Tick.open? tick.rest
        {tick.report with ownersDeferred := tick.report.ownersDeferred + 1})
    | (db,some fence) => {w with db := db}.toStage worker tick (.opening (fencedCheckpoint fence previous))
  | .opening checkpoint =>
    {w with db := Db.persistCheckpoint w.db tick.owner checkpoint}.toStage worker tick (.listing checkpoint)
  | .listing checkpoint =>
    w.toStage worker tick (.filling checkpoint ((w.chain tick.owner).page checkpoint.cursor))
  | .filling checkpoint page =>
    let filled := w.db.setObjectIds m tick.owner page.blobs
    {w with db := filled.1}.setTick worker (some {tick with
      stage := .advancing checkpoint page
      report := {tick.report with resolved := tick.report.resolved + filled.2}})
  | .advancing checkpoint page =>
    -- A cursor that does not advance ends the whole tick with an error.
    if page.next.isSome && page.next = checkpoint.cursor then w.setTick worker none
    else
      let advanced := {checkpoint with cursor := page.next}
      {w with db := Db.persistCheckpoint w.db tick.owner advanced}.toStage worker tick
        (if page.next.isNone then .completing advanced else .listing advanced)
  | .completing checkpoint =>
    let completed := w.db.completeResolverScan m tick.owner checkpoint.scanFence
    {w with db := completed.1}.setTick worker (some {tick with
      stage := .closing {checkpoint with completedFence := some checkpoint.scanFence}
      report := {tick.report with
        markedNotOwner := tick.report.markedNotOwner + completed.2
        ownersCompleted := tick.report.ownersCompleted + 1}})
  | .closing checkpoint =>
    {w with db := Db.persistCheckpoint w.db tick.owner checkpoint}.setTick worker
      (Tick.open? tick.rest tick.report)

-- Transactions of the routes and the reconciler. The resolver's own and the
-- trigger's come in through their own calls.
def Transaction.foreign : Transaction → Bool
  | .reserveFence .. | .setObjectIds .. | .completeScan .. | .saveCheckpoint .. | .trackDeletable .. => false
  | _ => true

def Stage.scanning : Stage → Bool
  | .load | .reserve _ => false
  | _ => true

-- No scan of the owner has begun and not ended, here or in its checkpoint.
def World.unscanned (w : World) (owner : Owner) : Bool :=
  (w.db.resolverCheckpoint.get? owner).all (fun checkpoint => checkpoint.cursor.isNone) &&
  w.ticks.entries.all (fun e => e.2.owner ≠ owner || !e.2.stage.scanning)

def exec (w : World) : Call → Except Failure World
  | .start worker ownersPerTick => do
    ensure (w.ticks.get? worker = none) .refused
    ensure (0 < ownersPerTick) .badRequest
    return w.setTick worker (Tick.open? (w.db.ownersNeedingResolution ownersPerTick.toNat) ⟨0,0,0,0⟩)
  | .resolve worker m contended => do
    let tick ← require (w.ticks.get? worker) .absent
    return w.resolve worker tick m contended
  | .crash worker => return w.setTick worker none
  | .client m t => do
    ensure (Transaction.foreign t = true) .refused
    match t.run m w.db with
    | .ok (db,_) => return {w with db := db}
    | .error failure => .error (.storage failure)
  | .beginInsert rawOwner blobId createdAt => do
    let owner ← require (canonicalSuiAddress rawOwner) (.storage .constraint)
    return {w with
      db := {w.db with sequence := w.db.sequence + 1}
      inserting := ⟨owner,blobId,createdAt,w.db.sequence + 1⟩ :: w.inserting}
  | .commitInsert m insertion => do
    ensure (insertion ∈ w.inserting) .absent
    return {w with
      db := w.db.insertTracked m insertion.owner insertion.blobId insertion.createdAt insertion.trackedSeq
      inserting := w.inserting.erase insertion}
  | .abortInsert insertion => return {w with inserting := w.inserting.erase insertion}
  | .relist owner listing => do
    -- What an owner holds is constant while one of its scans runs.
    ensure (w.unscanned owner = true) .refused
    return {w with chain := Function.update w.chain owner listing}

end MemWal.SecurityDelete.Resolver
