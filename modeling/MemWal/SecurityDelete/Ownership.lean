import MemWal.SecurityDelete.Resolver

namespace MemWal.SecurityDelete.Resolver
open Library Library.Runs Library.Fallible

-- A row that the end of a scan with a higher fence would disown.
def Exposed (rows : Store (Owner × BlobId) TrackingRow) (key : Owner × BlobId) (trackedSeq : Nat) : Prop :=
  ∃ row, rows.get? key = some row ∧ row.state = .deletable ∧ row.objectId = none ∧
    row.trackedSeq = trackedSeq

-- A claimed row that a rollback of its batch would expose.
def Parked (db : Db) (batchId : Uuid) (key : Owner × BlobId) (trackedSeq : Nat) : Prop :=
  ∃ row, db.tracking.get? key = some row ∧ row.state = .deleting ∧ row.batchId = some batchId ∧
    row.objectId = none ∧ row.trackedSeq = trackedSeq

section Rows
variable {m : Moment} {db next : Db} {key : Owner × BlobId} {trackedSeq : Nat}

theorem exposed_of_update {rows : Store (Owner × BlobId) TrackingRow} {p : Owner × BlobId → TrackingRow → Bool}
    {f : Owner × BlobId → TrackingRow → TrackingRow} (open_ : Exposed (rows.update p f) key trackedSeq)
    (shut : ∀ row, p key row = true → (f key row).state ≠ .deletable) : Exposed rows key trackedSeq := by
  obtain ⟨row,found,state,unset,seq⟩ := open_
  rw [Store.get?_update,Option.map_eq_some_iff] at found
  obtain ⟨old,stored,equal⟩ := found
  split at equal
  · rename_i hit
    subst equal
    exact absurd state (shut old hit)
  · subst equal
    exact ⟨old,stored,state,unset,seq⟩

theorem terminal_not_deletable (terminal : Terminal) : terminal.state ≠ .deletable := by
  cases terminal <;> simp [Terminal.state]

theorem exposed_of_objectIds {owner : Owner} {pairs : List (BlobId × ObjectId)}
    (open_ : Exposed (db.setObjectIds m owner pairs).1.tracking key trackedSeq) : Exposed db.tracking key trackedSeq := by
  obtain ⟨row,found,state,unset,seq⟩ := open_
  rw [(setObjectIds_parts _ _ owner pairs).1,Option.map_eq_some_iff] at found
  obtain ⟨old,stored,rfl⟩ := found
  obtain ⟨sameState,_,sameSeq,kept,_⟩ := fillObjectId_keeps (m:=m) owner key pairs old
  refine ⟨old,stored,sameState.symm.trans state,?_,sameSeq.symm.trans seq⟩
  cases known : old.objectId with
  | none => rfl
  | some objectId =>
    rw [kept (by rw [known]; rfl),known] at unset
    cases unset

-- The two ways in which a row becomes exposed: a rollback hands it back, or it
-- is tracked for the first time.
theorem change_exposes {t : Transaction} (change : Change m db t next) (open_ : Exposed next.tracking key trackedSeq) :
    Exposed db.tracking key trackedSeq ∨
    (∃ batchId release batch, t = .rollback batchId release ∧ db.batches.get? batchId = some batch ∧
      batch.state = release.expected ∧ Parked db batchId key trackedSeq) ∨
    (∃ rawOwner blobId createdAt, t = .trackDeletable rawOwner blobId createdAt) := by
  cases change with
  | same | prepared | begun | retried | fenced | checkpointed | sweepMoved => exact .inl open_
  | claimed _ owner batchId keys _ _ _ _ _ tracking =>
    rw [tracking] at open_
    exact .inl (exposed_of_update open_ (fun _ _ => by simp))
  | evicted owner blobId batchId toState terminal row objectId _ found state =>
    obtain ⟨after,stored,open_,unset,seq⟩ := open_
    rw [Store.get?_put found] at stored
    split at stored
    · cases stored
      exact absurd open_ (terminal_not_deletable terminal)
    · exact .inl ⟨after,stored,open_,unset,seq⟩
  | released batchId release batch stored expected =>
    obtain ⟨row,found,state,unset,seq⟩ := open_
    simp only [Store.get?_update,Option.map_eq_some_iff,decide_eq_true_eq] at found
    obtain ⟨old,present,equal⟩ := found
    split at equal
    · rename_i held
      subst equal
      exact .inr (.inl ⟨batchId,release,batch,rfl,stored,expected,old,present,held.2,held.1,unset,seq⟩)
    · subst equal
      exact .inl ⟨old,present,state,unset,seq⟩
  | finalized | disowned =>
    refine .inl (exposed_of_update open_ ?_)
    intro row _
    simp
  | swept owner blobId toState terminal =>
    refine .inl (exposed_of_update open_ ?_)
    intro row _
    exact terminal_not_deletable terminal
  | objectIds => exact .inl (exposed_of_objectIds open_)
  | claimedObjectIds owner batchId pairs =>
    refine .inl (exposed_of_update open_ ?_)
    intro row hit
    simp only [decide_eq_true_eq] at hit
    simp [hit.2.2.2.1]
  | tracked rawOwner owner blobId createdAt => exact .inr (.inr ⟨rawOwner,blobId,createdAt,rfl⟩)

theorem change_sequence {t : Transaction} (change : Change m db t next) : db.sequence ≤ next.sequence := by
  cases change with
  | claimed _ _ _ _ _ _ _ _ _ _ _ _ sequence => exact Nat.le_of_eq sequence.symm
  | objectIds owner pairs =>
    obtain ⟨_,_,_,sequence,_⟩ := setObjectIds_parts m db owner pairs
    exact Nat.le_of_eq sequence.symm
  | fenced | tracked => exact Nat.le_succ _
  | _ => exact Nat.le_refl _

theorem change_checkpoint {t : Transaction} (change : Change m db t next) (foreign : Transaction.foreign t = true) :
    next.resolverCheckpoint = db.resolverCheckpoint := by
  cases change with
  | claimed _ _ _ _ _ _ _ _ _ _ _ _ _ checkpoint => exact checkpoint
  | objectIds | checkpointed => simp [Transaction.foreign] at foreign
  | _ => rfl

theorem fillObjectId_fills {owner : Owner} {blobId : BlobId} {pairs : List (BlobId × ObjectId)} {row : TrackingRow}
    (listed : blobId ∈ pairs.map Prod.fst) (state : row.state = .deletable) :
    (fillObjectId m owner (owner,blobId) pairs row).objectId ≠ none := by
  induction pairs generalizing row with
  | nil => cases listed
  | cons pair rest ih =>
    have unfolded : fillObjectId m owner (owner,blobId) (pair :: rest) row = fillObjectId m owner (owner,blobId) rest
      (if (owner,blobId) = (owner,pair.1) ∧ row.objectId = none ∧ row.state = .deletable then
        {row with objectId := some pair.2, updatedAt := m.now} else row) := rfl
    have kept := fun after : TrackingRow => (fillObjectId_keeps (m:=m) owner (owner,blobId) rest after).2.2.2.1
    rw [unfolded]
    by_cases unset : row.objectId = none
    · by_cases same : blobId = pair.1
      · rw [if_pos ⟨by rw [same],unset,state⟩,kept _ rfl]
        simp
      · have later : blobId ∈ rest.map Prod.fst := by
          rcases List.mem_cons.mp listed with here | later
          · exact absurd here same
          · exact later
        rw [if_neg (fun all => same (Prod.mk.inj all.1).2)]
        exact ih later state
    · rw [if_neg (fun all => unset all.2.1),kept row (Option.isSome_iff_ne_none.mpr unset)]
      exact unset

theorem objectIds_settle {owner : Owner} {blobId : BlobId} {pairs : List (BlobId × ObjectId)}
    (listed : blobId ∈ pairs.map Prod.fst) :
    ¬Exposed (db.setObjectIds m owner pairs).1.tracking (owner,blobId) trackedSeq := by
  intro ⟨row,found,state,unset,_⟩
  rw [(setObjectIds_parts _ _ owner pairs).1,Option.map_eq_some_iff] at found
  obtain ⟨old,_,rfl⟩ := found
  have same := (fillObjectId_keeps (m:=m) owner (owner,blobId) pairs old).1
  exact fillObjectId_fills listed (same.symm.trans state) unset

end Rows

-- What every walk to the cursor has listed. Walks are nested, so this is what
-- a scan that stands at the cursor has seen.
def Listed (listing : Listing) (cursor : Option Cursor) (blobId : BlobId) : Prop :=
  ∀ seen, Reaches listing.page cursor seen → blobId ∈ seen

def Reachable (listing : Listing) (cursor : Option Cursor) : Prop := ∃ seen, Reaches listing.page cursor seen

theorem listed_first (listing : Listing) (blobId : BlobId) : ¬Listed listing none blobId := by
  intro listed
  exact absurd (listed [] .first) (by simp)

theorem listed_page {listing : Listing} {cursor : Option Cursor} {blobId : BlobId}
    (each : ∀ seen, Reaches listing.page cursor seen → blobId ∈ seen ++ (listing.page cursor).blobs.map Prod.fst) :
    Listed listing cursor blobId ∨ blobId ∈ (listing.page cursor).blobs.map Prod.fst := by
  by_cases here : blobId ∈ (listing.page cursor).blobs.map Prod.fst
  · exact .inr here
  · left
    intro seen walk
    rcases List.mem_append.mp (each seen walk) with earlier | here'
    · exact earlier
    · exact absurd here' here

theorem listed_next {listing : Listing} {cursor : Option Cursor} {after : Cursor} {blobId : BlobId}
    (next : (listing.page cursor).next = some after) (listed : Listed listing (some after) blobId) :
    Listed listing cursor blobId ∨ blobId ∈ (listing.page cursor).blobs.map Prod.fst :=
  listed_page (fun _ walk => listed _ (.next walk next))

theorem listed_last {listing : Listing} {cursor : Option Cursor} {blobId : BlobId}
    (last : (listing.page cursor).next = none) (held : listing.held blobId = true) :
    Listed listing cursor blobId ∨ blobId ∈ (listing.page cursor).blobs.map Prod.fst :=
  listed_page (fun seen walk => listing.complete cursor seen walk last blobId held)

def Stage.fence? : Stage → Option Nat
  | .load | .reserve _ => none
  | .opening checkpoint | .listing checkpoint | .filling checkpoint _ | .advancing checkpoint _
  | .completing checkpoint | .closing checkpoint => some checkpoint.scanFence

def Stage.listed (listing : Listing) : Stage → BlobId → Prop
  | .load | .reserve _ | .closing _ => fun _ => False
  | .opening checkpoint | .listing checkpoint | .filling checkpoint _ => Listed listing checkpoint.cursor
  | .advancing checkpoint page => fun blobId =>
      Listed listing checkpoint.cursor blobId ∨ blobId ∈ page.blobs.map Prod.fst
  | .completing _ => fun blobId => listing.held blobId = true

def Stage.Valid (listing : Listing) : Stage → Prop
  | .load => True
  | .reserve previous => ∀ checkpoint, previous = some checkpoint → checkpoint.cursor = none
  | .opening checkpoint | .listing checkpoint => Reachable listing checkpoint.cursor
  | .filling checkpoint page | .advancing checkpoint page =>
      Reachable listing checkpoint.cursor ∧ page = listing.page checkpoint.cursor
  | .completing checkpoint | .closing checkpoint => checkpoint.cursor = none

-- The scans of an owner that have a fence: one for each replica inside a tick,
-- and the one that the saved checkpoint would resume.
inductive Underway (w : World) (owner : Owner) : Nat → (BlobId → Prop) → Prop where
  | saved (checkpoint : ResolverCheckpoint) : w.db.resolverCheckpoint.get? owner = some checkpoint →
      Underway w owner checkpoint.scanFence (Listed (w.chain owner) checkpoint.cursor)
  | working (worker : Nat) (tick : Tick) (fence : Nat) : w.ticks.get? worker = some tick → tick.owner = owner →
      tick.stage.fence? = some fence → Underway w owner fence (tick.stage.listed (w.chain owner))

-- A rollback that hands back an owned, unresolved row after a scan under way
-- has gone past the page that lists its blob.
def Undermines (w : World) : Call → Prop
  | .client _ (.rollback batchId release) => ∃ batch owner fence listed blobId trackedSeq,
      w.db.batches.get? batchId = some batch ∧ batch.state = release.expected ∧
      Parked w.db batchId (owner,blobId) trackedSeq ∧ (w.chain owner).held blobId = true ∧
      Underway w owner fence listed ∧ listed blobId ∧ trackedSeq < fence
  | _ => False

structure Passed (w : World) (owner : Owner) (fence : Nat) (listed : BlobId → Prop) : Prop where
  drawn : fence ≤ w.db.sequence
  later : ∀ insertion ∈ w.inserting, insertion.owner = owner → fence < insertion.trackedSeq
  settled : ∀ blobId, listed blobId → (w.chain owner).held blobId = true →
    ∀ trackedSeq < fence, ¬Exposed w.db.tracking (owner,blobId) trackedSeq

structure Placed (w : World) (tick : Tick) : Prop where
  valid : tick.stage.Valid (w.chain tick.owner)
  passed : ∀ fence, tick.stage.fence? = some fence →
    Passed w tick.owner fence (tick.stage.listed (w.chain tick.owner))

structure Resumable (w : World) (owner : Owner) (checkpoint : ResolverCheckpoint) : Prop where
  reachable : Reachable (w.chain owner) checkpoint.cursor
  passed : Passed w owner checkpoint.scanFence (Listed (w.chain owner) checkpoint.cursor)

structure Sound (w : World) : Prop where
  saved : ∀ owner checkpoint, w.db.resolverCheckpoint.get? owner = some checkpoint → Resumable w owner checkpoint
  placed : ∀ worker tick, w.ticks.get? worker = some tick → Placed w tick

section Steps
variable {w next : World} {m : Moment}

-- A step that exposes no row and draws sequence numbers only upwards leaves
-- every scan in order.
structure Quiet (w next : World) : Prop where
  chain : next.chain = w.chain
  sequence : w.db.sequence ≤ next.db.sequence
  inserting : ∀ insertion ∈ next.inserting, insertion ∈ w.inserting ∨ w.db.sequence < insertion.trackedSeq
  exposed : ∀ key trackedSeq, Exposed next.db.tracking key trackedSeq → Exposed w.db.tracking key trackedSeq

theorem Passed.step {owner : Owner} {fence : Nat} {listed : BlobId → Prop} (passed : Passed w owner fence listed)
    (chain : next.chain = w.chain) (sequence : w.db.sequence ≤ next.db.sequence)
    (inserting : ∀ insertion ∈ next.inserting, insertion ∈ w.inserting ∨ w.db.sequence < insertion.trackedSeq)
    (exposed : ∀ blobId trackedSeq, listed blobId → (w.chain owner).held blobId = true → trackedSeq < fence →
      Exposed next.db.tracking (owner,blobId) trackedSeq → Exposed w.db.tracking (owner,blobId) trackedSeq) :
    Passed next owner fence listed := by
  refine ⟨passed.drawn.trans sequence,?_,?_⟩
  · intro insertion member same
    rcases inserting insertion member with old | new
    · exact passed.later insertion old same
    · exact lt_of_le_of_lt passed.drawn new
  · intro blobId seen held trackedSeq low open_
    rw [chain] at held
    exact passed.settled blobId seen held trackedSeq low (exposed blobId trackedSeq seen held low open_)

theorem Passed.quiet {owner : Owner} {fence : Nat} {listed : BlobId → Prop} (passed : Passed w owner fence listed)
    (quiet : Quiet w next) : Passed next owner fence listed :=
  passed.step quiet.chain quiet.sequence quiet.inserting (fun _ _ _ _ _ => quiet.exposed _ _)

theorem Passed.fewer {owner : Owner} {fence : Nat} {listed listed' : BlobId → Prop}
    (passed : Passed w owner fence listed)
    (fewer : ∀ blobId, listed' blobId → (w.chain owner).held blobId = true → listed blobId) :
    Passed w owner fence listed' :=
  ⟨passed.drawn,passed.later,fun blobId seen held => passed.settled blobId (fewer blobId seen held) held⟩

theorem Sound.step (sound : Sound w) (chain : next.chain = w.chain)
    (keeps : ∀ owner fence listed, Underway w owner fence listed → Passed w owner fence listed →
      Passed next owner fence listed)
    (saved : ∀ owner checkpoint, next.db.resolverCheckpoint.get? owner = some checkpoint →
      w.db.resolverCheckpoint.get? owner = some checkpoint ∨ Resumable next owner checkpoint)
    (ticks : ∀ worker tick, next.ticks.get? worker = some tick →
      w.ticks.get? worker = some tick ∨ Placed next tick) : Sound next := by
  constructor
  · intro owner checkpoint found
    rcases saved owner checkpoint found with old | new
    · have prior := sound.saved owner checkpoint old
      refine ⟨by rw [chain]; exact prior.reachable,?_⟩
      rw [chain]
      exact keeps owner _ _ (.saved checkpoint old) prior.passed
    · exact new
  · intro worker tick found
    rcases ticks worker tick found with old | new
    · have prior := sound.placed worker tick old
      refine ⟨by rw [chain]; exact prior.valid,?_⟩
      intro fence at_
      rw [chain]
      exact keeps tick.owner fence _ (.working worker tick fence old rfl at_) (prior.passed fence at_)
    · exact new

theorem setTick_get {worker j : Nat} {moved : Option Tick} {tick : Tick}
    (found : (w.setTick worker moved).ticks.get? j = some tick) :
    moved = some tick ∨ w.ticks.get? j = some tick := by
  cases moved with
  | none =>
    simp only [World.setTick,Store.get?_erase] at found
    split at found
    · cases found
    · exact .inr found
  | some after =>
    simp only [World.setTick,Store.get?_upsert] at found
    split at found
    · exact .inl found
    · exact .inr found

theorem resolver_step {worker : Nat} {moved : Option Tick} (sound : Sound w) (quiet : Quiet w next)
    (ticks : next.ticks = w.ticks)
    (saved : ∀ owner checkpoint, next.db.resolverCheckpoint.get? owner = some checkpoint →
      w.db.resolverCheckpoint.get? owner = some checkpoint ∨ Resumable next owner checkpoint)
    (placed : ∀ tick, moved = some tick → Placed next tick) : Sound (next.setTick worker moved) := by
  refine Sound.step sound quiet.chain ?_ ?_ ?_
  · intro owner fence listed _ passed
    have kept := passed.quiet quiet
    exact ⟨kept.drawn,kept.later,kept.settled⟩
  · intro owner checkpoint found
    rcases saved owner checkpoint found with old | new
    · exact .inl old
    · exact .inr ⟨new.reachable,new.passed.drawn,new.passed.later,new.passed.settled⟩
  · intro j tick found
    rcases setTick_get found with new | old
    · have here := placed tick new
      refine .inr ⟨here.valid,fun fence at_ => ?_⟩
      have kept := here.passed fence at_
      exact ⟨kept.drawn,kept.later,kept.settled⟩
    · rw [ticks] at old
      exact .inl old

theorem Quiet.refl (w : World) : Quiet w w := ⟨rfl,Nat.le_refl _,fun _ member => .inl member,fun _ _ open_ => open_⟩

theorem moved_sound {worker : Nat} {moved : Option Tick} (sound : Sound w)
    (placed : ∀ tick, moved = some tick → Placed w tick) : Sound (w.setTick worker moved) :=
  resolver_step sound (.refl w) rfl (fun _ _ found => .inl found) placed

theorem persisted_quiet (owner : Owner) (checkpoint : ResolverCheckpoint) :
    Quiet w {w with db := Db.persistCheckpoint w.db owner checkpoint} :=
  ⟨rfl,Nat.le_refl _,fun _ member => .inl member,fun _ _ open_ => open_⟩

theorem Resumable.quiet {owner : Owner} {checkpoint : ResolverCheckpoint} (resumable : Resumable w owner checkpoint)
    (quiet : Quiet w next) : Resumable next owner checkpoint := by
  refine ⟨by rw [quiet.chain]; exact resumable.reachable,?_⟩
  rw [quiet.chain]
  exact resumable.passed.quiet quiet

theorem Placed.quiet {tick : Tick} (placed : Placed w tick) (quiet : Quiet w next) : Placed next tick := by
  refine ⟨by rw [quiet.chain]; exact placed.valid,?_⟩
  intro fence at_
  rw [quiet.chain]
  exact (placed.passed fence at_).quiet quiet

theorem persisted_sound {worker : Nat} {moved : Option Tick} {owner : Owner} {checkpoint : ResolverCheckpoint}
    (sound : Sound w) (resumable : Resumable w owner checkpoint) (placed : ∀ tick, moved = some tick → Placed w tick) :
    Sound ({w with db := Db.persistCheckpoint w.db owner checkpoint}.setTick worker moved) := by
  have quiet := persisted_quiet (w:=w) owner checkpoint
  refine resolver_step sound quiet rfl ?_ (fun tick here => (placed tick here).quiet quiet)
  intro j saved found
  simp only [Db.persistCheckpoint,Store.get?_upsert] at found
  split at found
  · rename_i same
    subst same
    cases found
    exact .inr (resumable.quiet quiet)
  · exact .inl found

theorem opened_placed {owners : List Owner} {report : ResolverReport} {tick : Tick}
    (opened : Tick.open? owners report = some tick) : Placed w tick := by
  cases owners with
  | nil => cases opened
  | cons owner rest =>
    cases opened
    exact ⟨trivial,fun _ at_ => by cases at_⟩

section Stages
variable {worker : Nat} {tick : Tick} {contended : Bool} (sound : Sound w)
include sound

theorem load_sound (at_ : tick.stage = .load) : Sound (w.resolve worker tick m contended) := by
  unfold World.resolve
  simp only [at_]
  split
  · refine moved_sound sound ?_
    intro after equal
    cases equal
    exact ⟨fun _ none_ => (by cases none_),fun _ none_ => (by cases none_)⟩
  · rename_i checkpoint found
    have resumable := sound.saved _ _ found
    split
    · rename_i ended
      refine moved_sound sound ?_
      intro after equal
      cases equal
      refine ⟨?_,fun _ none_ => by cases none_⟩
      intro previous same
      cases same
      simp only [Bool.and_eq_true,Option.isNone_iff_eq_none] at ended
      exact ended.1
    · refine moved_sound sound ?_
      intro after equal
      cases equal
      refine ⟨resumable.reachable,?_⟩
      intro fence same
      cases same
      exact resumable.passed

variable (placed : Placed w tick)
include placed

-- The lock excludes inserts of the owner that have a number but no row yet, and
-- the fence lies above every number drawn before.
theorem reserve_sound {previous : Option ResolverCheckpoint} (at_ : tick.stage = .reserve previous) :
    Sound (w.resolve worker tick m contended) := by
  have first : (fencedCheckpoint (w.db.sequence + 1) previous).cursor = none ∧
      (fencedCheckpoint (w.db.sequence + 1) previous).scanFence = w.db.sequence + 1 := by
    have valid := placed.valid
    rw [at_] at valid
    cases previous with
    | none => exact ⟨rfl,rfl⟩
    | some checkpoint => exact ⟨valid checkpoint rfl,rfl⟩
  unfold World.resolve
  simp only [at_,Db.tryReserveResolverScanFence]
  cases free : w.lockFree tick.owner contended with
  | false => exact moved_sound sound (fun _ opened => opened_placed opened)
  | true =>
    simp only [World.lockFree,Bool.and_eq_true,List.all_eq_true,decide_eq_true_eq] at free
    have quiet : Quiet w {w with db := {w.db with sequence := w.db.sequence + 1}} :=
      ⟨rfl,Nat.le_succ _,fun _ member => .inl member,fun _ _ open_ => open_⟩
    refine resolver_step sound quiet rfl (fun _ _ found => .inl found) ?_
    intro after equal
    cases equal
    refine ⟨⟨[],by rw [first.1]; exact .first⟩,?_⟩
    intro fence same
    cases same
    refine ⟨by rw [first.2],fun insertion member same => absurd same (free.2 insertion member),?_⟩
    intro blobId seen
    simp only [Stage.listed] at seen
    rw [first.1] at seen
    exact absurd seen (listed_first _ _)

theorem opening_sound {checkpoint : ResolverCheckpoint} (at_ : tick.stage = .opening checkpoint) :
    Sound (w.resolve worker tick m contended) := by
  obtain ⟨valid,passed⟩ := placed
  rw [at_] at valid passed
  unfold World.resolve
  simp only [at_]
  refine persisted_sound sound ⟨valid,passed _ rfl⟩ ?_
  intro after equal
  cases equal
  refine ⟨valid,fun fence same => ?_⟩
  exact passed fence same

theorem listing_sound {checkpoint : ResolverCheckpoint} (at_ : tick.stage = .listing checkpoint) :
    Sound (w.resolve worker tick m contended) := by
  obtain ⟨valid,passed⟩ := placed
  rw [at_] at valid passed
  unfold World.resolve
  simp only [at_]
  refine moved_sound sound ?_
  intro after equal
  cases equal
  exact ⟨⟨valid,rfl⟩,passed⟩

theorem filling_sound {checkpoint : ResolverCheckpoint} {page : OwnedPage}
    (at_ : tick.stage = .filling checkpoint page) : Sound (w.resolve worker tick m contended) := by
  obtain ⟨valid,passed⟩ := placed
  rw [at_] at valid passed
  obtain ⟨_,_,_,sequence,checkpoints⟩ := setObjectIds_parts m w.db tick.owner page.blobs
  have quiet : Quiet w {w with db := (w.db.setObjectIds m tick.owner page.blobs).1} :=
    ⟨rfl,Nat.le_of_eq sequence.symm,fun _ member => .inl member,fun _ _ open_ => exposed_of_objectIds open_⟩
  unfold World.resolve
  simp only [at_]
  refine resolver_step sound quiet rfl ?_ ?_
  · intro owner saved found
    rw [checkpoints] at found
    exact .inl found
  · intro after equal
    cases equal
    refine ⟨valid,?_⟩
    intro fence same
    cases same
    have kept := (passed _ rfl).quiet quiet
    refine ⟨kept.drawn,kept.later,?_⟩
    intro blobId seen held trackedSeq low
    rcases seen with before | here
    · exact kept.settled blobId before held trackedSeq low
    · exact objectIds_settle here

theorem advancing_sound {checkpoint : ResolverCheckpoint} {page : OwnedPage}
    (at_ : tick.stage = .advancing checkpoint page) : Sound (w.resolve worker tick m contended) := by
  obtain ⟨valid,passed⟩ := placed
  rw [at_] at valid passed
  obtain ⟨⟨seen,walk⟩,rfl⟩ := valid
  have filled := passed _ rfl
  unfold World.resolve
  simp only [at_]
  split
  · exact moved_sound sound (fun _ none_ => by cases none_)
  · cases next_ : ((w.chain tick.owner).page checkpoint.cursor).next with
    | none =>
      refine persisted_sound sound ⟨⟨[],.first⟩,filled.fewer ?_⟩ ?_
      · intro blobId seen
        exact absurd seen (listed_first _ _)
      · intro after equal
        cases equal
        refine ⟨rfl,?_⟩
        intro fence same
        cases same
        exact filled.fewer (fun _ _ held => listed_last next_ held)
    | some cursor =>
      have reachable : Reachable (w.chain tick.owner) (some cursor) := ⟨_,.next walk next_⟩
      have moved := filled.fewer (fun _ seen _ => listed_next next_ seen)
      refine persisted_sound sound ⟨reachable,moved⟩ ?_
      intro after equal
      cases equal
      refine ⟨reachable,?_⟩
      intro fence same
      cases same
      exact moved

theorem completing_sound {checkpoint : ResolverCheckpoint} (at_ : tick.stage = .completing checkpoint) :
    Sound (w.resolve worker tick m contended) := by
  obtain ⟨valid,passed⟩ := placed
  rw [at_] at valid passed
  have quiet : Quiet w {w with db := (w.db.completeResolverScan m tick.owner checkpoint.scanFence).1} := by
    refine ⟨rfl,Nat.le_refl _,fun _ member => .inl member,?_⟩
    intro key trackedSeq open_
    exact exposed_of_update open_ (fun _ _ => by simp)
  unfold World.resolve
  simp only [at_]
  refine resolver_step sound quiet rfl (fun _ _ found => .inl found) ?_
  intro after equal
  cases equal
  refine ⟨valid,?_⟩
  intro fence same
  cases same
  have kept := (passed _ rfl).quiet quiet
  exact ⟨kept.drawn,kept.later,fun _ none_ => none_.elim⟩

theorem closing_sound {checkpoint : ResolverCheckpoint} (at_ : tick.stage = .closing checkpoint) :
    Sound (w.resolve worker tick m contended) := by
  obtain ⟨valid,passed⟩ := placed
  rw [at_] at valid passed
  have first : checkpoint.cursor = none := valid
  unfold World.resolve
  simp only [at_]
  refine persisted_sound sound ⟨⟨[],by rw [first]; exact .first⟩,(passed _ rfl).fewer ?_⟩
    (fun _ opened => opened_placed opened)
  intro blobId seen
  rw [first] at seen
  exact absurd seen (listed_first _ _)

theorem resolve_sound : Sound (w.resolve worker tick m contended) := by
  cases at_ : tick.stage with
  | load => exact load_sound sound at_
  | reserve => exact reserve_sound sound placed at_
  | opening => exact opening_sound sound placed at_
  | listing => exact listing_sound sound placed at_
  | filling => exact filling_sound sound placed at_
  | advancing => exact advancing_sound sound placed at_
  | completing => exact completing_sound sound placed at_
  | closing => exact closing_sound sound placed at_

end Stages
theorem client_sound {t : Transaction} {db : Db} (sound : Sound w) (foreign : Transaction.foreign t = true)
    (safe : ¬Undermines w (.client m t)) (change : Change m w.db t db) : Sound {w with db := db} := by
  have checkpoints := change_checkpoint change foreign
  refine Sound.step sound rfl ?_ ?_ (fun _ _ found => .inl found)
  · intro owner fence listed scan passed
    refine passed.step rfl (change_sequence change) (fun _ member => .inl member) ?_
    intro blobId trackedSeq seen held low open_
    rcases change_exposes change open_ with old | ⟨batchId,release,batch,rfl,found,state,parked⟩ | ⟨_,_,_,rfl⟩
    · exact old
    · exact absurd ⟨batch,owner,fence,listed,blobId,trackedSeq,found,state,parked,held,scan,seen,low⟩ safe
    · cases foreign
  · intro owner checkpoint found
    rw [show (({w with db := db} : World).db).resolverCheckpoint = w.db.resolverCheckpoint from checkpoints] at found
    exact .inl found

theorem beginInsert_sound {insertion : Insertion} (sound : Sound w)
    (drawn : insertion.trackedSeq = w.db.sequence + 1) : Sound {w with
      db := {w.db with sequence := w.db.sequence + 1}
      inserting := insertion :: w.inserting} := by
  refine Sound.step sound rfl ?_ (fun _ _ found => .inl found) (fun _ _ found => .inl found)
  intro owner fence listed _ passed
  refine passed.step rfl (Nat.le_succ _) ?_ (fun _ _ _ _ _ open_ => open_)
  intro other member
  rcases List.mem_cons.mp member with rfl | old
  · right
    omega
  · exact .inl old

theorem commitInsert_sound {insertion : Insertion} (sound : Sound w) (member : insertion ∈ w.inserting) :
    Sound {w with
      db := w.db.insertTracked m insertion.owner insertion.blobId insertion.createdAt insertion.trackedSeq
      inserting := w.inserting.erase insertion} := by
  refine Sound.step sound rfl ?_ (fun _ _ found => .inl found) (fun _ _ found => .inl found)
  intro owner fence listed _ passed
  refine passed.step rfl (Nat.le_refl _) (fun _ left_ => .inl (List.mem_of_mem_erase left_)) ?_
  intro blobId trackedSeq _ _ low ⟨row,found,state,unset,seq⟩
  simp only [Db.insertTracked] at found
  cases known : w.db.tracking.get? (insertion.owner,insertion.blobId) with
  | some old =>
    rw [Store.insert_present _ known] at found
    exact ⟨row,found,state,unset,seq⟩
  | none =>
    rw [Store.get?_insert _ known] at found
    split at found
    · rename_i same
      cases found
      have above := passed.later insertion member (Prod.mk.inj same).1.symm
      have equal : insertion.trackedSeq = trackedSeq := seq
      omega
    · exact ⟨row,found,state,unset,seq⟩

theorem abortInsert_sound (insertion : Insertion) (sound : Sound w) :
    Sound {w with inserting := w.inserting.erase insertion} := by
  refine Sound.step sound rfl ?_ (fun _ _ found => .inl found) (fun _ _ found => .inl found)
  intro owner fence listed _ passed
  exact passed.step rfl (Nat.le_refl _) (fun _ left_ => .inl (List.mem_of_mem_erase left_))
    (fun _ _ _ _ _ open_ => open_)

theorem relist_sound {owner : Owner} {listing : Listing} (sound : Sound w) (unscanned : w.unscanned owner = true) :
    Sound {w with chain := Function.update w.chain owner listing} := by
  simp only [World.unscanned,Bool.and_eq_true,Option.all_eq_true,Option.isNone_iff_eq_none,List.all_eq_true,
    Bool.or_eq_true,decide_eq_true_eq,Bool.not_eq_true'] at unscanned
  obtain ⟨first,idle⟩ := unscanned
  have other : ∀ {j fence listed}, j ≠ owner → Passed w j fence listed →
      Passed {w with chain := Function.update w.chain owner listing} j fence listed := by
    intro j fence listed differs passed
    refine ⟨passed.drawn,passed.later,?_⟩
    simp only [Function.update_of_ne differs]
    exact passed.settled
  constructor
  · intro j checkpoint found
    have resumable := sound.saved j checkpoint found
    by_cases same : j = owner
    · subst same
      have start : checkpoint.cursor = none := first checkpoint found
      refine ⟨⟨[],by rw [start]; exact .first⟩,resumable.passed.drawn,resumable.passed.later,?_⟩
      intro blobId seen
      rw [start] at seen
      exact absurd seen (listed_first _ _)
    · refine ⟨?_,?_⟩
      · simp only [Function.update_of_ne same]
        exact resumable.reachable
      · simp only [Function.update_of_ne same]
        exact other same resumable.passed
  · intro worker tick found
    have placed := sound.placed worker tick found
    by_cases same : tick.owner = owner
    · have still : tick.stage.scanning = false := by
        rcases idle (worker,tick) (Store.get?_eq_some.mp found) with differs | still
        · exact absurd same differs
        · exact still
      cases at_ : tick.stage with
      | load => exact ⟨by rw [at_]; trivial,fun _ some_ => by rw [at_] at some_; cases some_⟩
      | reserve previous =>
        have valid := placed.valid
        rw [at_] at valid
        exact ⟨by rw [at_]; exact valid,fun _ some_ => by rw [at_] at some_; cases some_⟩
      | _ => simp [at_,Stage.scanning] at still
    · refine ⟨?_,fun fence at_ => ?_⟩
      · simp only [Function.update_of_ne same]
        exact placed.valid
      · simp only [Function.update_of_ne same]
        exact other same (placed.passed fence at_)

theorem exec_sound {call : Call} (sound : Sound w) (safe : ¬Undermines w call) (ran : exec w call = .ok next) :
    Sound next := by
  cases call with
  | start worker ownersPerTick =>
    simp only [exec,bind_ok,ensure_ok,exists_const,pure_ok] at ran
    obtain ⟨_,_,rfl⟩ := ran
    exact moved_sound sound (fun _ opened => opened_placed opened)
  | resolve worker m contended =>
    simp only [exec,bind_ok,require_ok,pure_ok] at ran
    obtain ⟨tick,found,rfl⟩ := ran
    exact resolve_sound sound (sound.placed worker tick found)
  | crash worker =>
    cases ran
    exact moved_sound sound (fun _ none_ => by cases none_)
  | client m t =>
    simp only [exec,bind_ok,ensure_ok,exists_const] at ran
    obtain ⟨foreign,ran⟩ := ran
    split at ran
    · rename_i db result committed
      cases ran
      exact client_sound sound foreign safe (run_change committed)
    · cases ran
  | beginInsert rawOwner blobId createdAt =>
    simp only [exec,bind_ok,require_ok,pure_ok] at ran
    obtain ⟨owner,_,rfl⟩ := ran
    exact beginInsert_sound sound rfl
  | commitInsert m insertion =>
    simp only [exec,bind_ok,ensure_ok,exists_const,pure_ok] at ran
    obtain ⟨member,rfl⟩ := ran
    exact commitInsert_sound sound member
  | abortInsert insertion =>
    cases ran
    exact abortInsert_sound insertion sound
  | relist owner listing =>
    simp only [exec,bind_ok,ensure_ok,exists_const,pure_ok] at ran
    obtain ⟨unscanned,rfl⟩ := ran
    exact relist_sound sound unscanned

end Steps

def World.blobState (w : World) (key : Owner × BlobId) : Option BlobState :=
  (w.db.tracking.get? key).map TrackingRow.state

def Disowned (w next : World) (key : Owner × BlobId) : Prop :=
  w.blobState key ≠ some .notOwner ∧ next.blobState key = some .notOwner

instance (w next : World) (key : Owner × BlobId) : Decidable (Disowned w next key) :=
  inferInstanceAs (Decidable (_ ∧ _))

-- Of all the resolver's calls only the end of a scan writes the state of a row.
theorem disowned_exposed {w : World} {worker : Nat} {tick : Tick} {m : Moment} {contended : Bool}
    {key : Owner × BlobId} (disowned : Disowned w (w.resolve worker tick m contended) key) :
    ∃ checkpoint trackedSeq, tick.stage = .completing checkpoint ∧ key.1 = tick.owner ∧
      trackedSeq < checkpoint.scanFence ∧ Exposed w.db.tracking key trackedSeq := by
  obtain ⟨differs,gone⟩ := disowned
  have unmoved : ∀ next : World, next.db.tracking = w.db.tracking → next.blobState key ≠ some .notOwner := by
    intro next same
    unfold World.blobState
    rw [same]
    exact differs
  unfold World.resolve at gone
  cases at_ : tick.stage with
  | load =>
    simp only [at_] at gone
    split at gone
    · exact absurd gone (unmoved _ rfl)
    · split at gone <;> exact absurd gone (unmoved _ rfl)
  | reserve previous =>
    simp only [at_,Db.tryReserveResolverScanFence] at gone
    cases free : w.lockFree tick.owner contended <;> simp only [free] at gone <;> exact absurd gone (unmoved _ rfl)
  | advancing checkpoint page =>
    simp only [at_] at gone
    split at gone <;> exact absurd gone (unmoved _ rfl)
  | filling checkpoint page =>
    simp only [at_,World.blobState,World.setTick,(setObjectIds_parts _ _ tick.owner page.blobs).1,Option.map_map] at gone
    refine absurd ?_ differs
    rw [← gone]
    unfold World.blobState
    refine congrArg (fun f => Option.map f _) (funext fun row => ?_)
    exact (fillObjectId_keeps tick.owner key page.blobs row).1.symm
  | completing checkpoint =>
    simp only [at_,World.blobState,World.setTick,Db.completeResolverScan,Store.get?_update,Option.map_map,
      Option.map_eq_some_iff] at gone
    obtain ⟨row,found,state⟩ := gone
    simp only [Function.comp_apply,decide_eq_true_eq] at state
    split at state
    · rename_i hit
      exact ⟨checkpoint,row.trackedSeq,rfl,hit.1,hit.2.2.2,row,found,hit.2.1,hit.2.2.1,rfl⟩
    · refine absurd ?_ differs
      simp only [World.blobState,found,Option.map_some,state]
  | opening | listing | closing =>
    simp only [at_] at gone
    exact absurd gone (unmoved _ rfl)

theorem initial_sound (chain : Owner → Listing) : Sound (World.initial chain) := by
  constructor
  · intro owner checkpoint found
    cases found
  · intro worker tick found
    cases found

section Run
variable {chain : Owner → Listing} {calls : List Call}

theorem before_sound (safe : ∀ i call, calls[i]? = some call →
      ¬Undermines (before exec (World.initial chain) calls i) call) (i : Nat) :
    Sound (before exec (World.initial chain) calls i) := by
  refine kept_between (Nat.zero_le i) (initial_sound chain) ?_
  intro k call next _ _ at_ sound ran
  exact exec_sound sound (safe k call at_) ran

-- In a run without such a rollback, a blob the resolver disowns is not held.
theorem owned_blobs_stay_owned (safe : ∀ i call, calls[i]? = some call →
      ¬Undermines (before exec (World.initial chain) calls i) call)
    {i worker : Nat} {m : Moment} {contended : Bool} (called : calls[i]? = some (.resolve worker m contended))
    {owner : Owner} {blobId : BlobId}
    (disowned : Disowned (before exec (World.initial chain) calls i) (before exec (World.initial chain) calls (i+1))
      (owner,blobId)) :
    ((before exec (World.initial chain) calls i).chain owner).held blobId = false := by
  have sound := before_sound safe i
  rw [before_succ called] at disowned
  rcases settle_cases exec (before exec (World.initial chain) calls i) (.resolve worker m contended) with
    ⟨next,ran,equal⟩ | equal
  · rw [equal] at disowned
    simp only [exec,bind_ok,require_ok,pure_ok] at ran
    obtain ⟨tick,found,rfl⟩ := ran
    obtain ⟨checkpoint,trackedSeq,at_,same,low,open_⟩ := disowned_exposed disowned
    have here : owner = tick.owner := same
    subst here
    have passed := (sound.placed worker tick found).passed
    rw [at_] at passed
    by_contra held
    rw [Bool.not_eq_false] at held
    exact (passed _ rfl).settled blobId held held trackedSeq low open_
  · rw [equal] at disowned
    exact absurd disowned.2 disowned.1

end Run

def singlePage (blobs : List (BlobId × ObjectId)) : Listing where
  held blobId := blobId ∈ blobs.map Prod.fst
  page _ := ⟨blobs,none⟩
  complete _ _ _ _ _ held := List.mem_append_right _ (of_decide_eq_true held)

def holder : Owner := "0x0000000000000000000000000000000000000000000000000000000000000001"

def trackedThenScanned : List Call :=
  [.beginInsert "0x1" "b" 0,.commitInsert ⟨1,[]⟩ ⟨holder,"b",0,1⟩,.start 0 25,.resolve 0 ⟨2,[]⟩ false,
    .resolve 0 ⟨3,[]⟩ false,.resolve 0 ⟨4,[]⟩ false,.resolve 0 ⟨5,[]⟩ false,.resolve 0 ⟨6,[]⟩ false,
    .resolve 0 ⟨7,[]⟩ false,.resolve 0 ⟨8,[]⟩ false]

theorem unlisted_blob_disowned :
    Disowned (before exec (World.initial (fun _ => singlePage [("a","1")])) trackedThenScanned 9)
      (before exec (World.initial (fun _ => singlePage [("a","1")])) trackedThenScanned 10) (holder,"b") ∧
    ((before exec (World.initial (fun _ => singlePage [("a","1")])) trackedThenScanned 9).chain holder).held "b" =
      false := by
  have disowned : Disowned (before exec (World.initial (fun _ => singlePage [("a","1")])) trackedThenScanned 9)
      (before exec (World.initial (fun _ => singlePage [("a","1")])) trackedThenScanned 10) (holder,"b") := by
    decide +kernel
  have called : trackedThenScanned[9]? = some (.resolve 0 ⟨8,[]⟩ false) := rfl
  refine ⟨disowned,owned_blobs_stay_owned ?_ called disowned⟩
  intro i call at_
  have member := List.mem_of_getElem? at_
  simp only [trackedThenScanned,List.mem_cons,List.not_mem_nil,or_false] at member
  rcases member with rfl | rfl | rfl | rfl | rfl | rfl | rfl | rfl | rfl | rfl <;> exact id

-- The row is claimed when its page arrives, so the page leaves its object id
-- unset; the cancel hands it back before the scan ends.
def scannedAcrossCancel : List Call :=
  [.beginInsert "0x1" "b" 0,.commitInsert ⟨1,[]⟩ ⟨holder,"b",0,1⟩,.start 0 25,.resolve 0 ⟨2,[]⟩ false,
    .resolve 0 ⟨3,[]⟩ false,.resolve 0 ⟨4,[]⟩ false,.resolve 0 ⟨5,[]⟩ false,
    .client ⟨6,[]⟩ (.createAll holder 1 512 3),.resolve 0 ⟨7,[]⟩ false,
    .client ⟨8,[]⟩ (.rollback 1 .cancelAwaiting),.resolve 0 ⟨9,[]⟩ false,.resolve 0 ⟨10,[]⟩ false]

theorem held_blob_disowned_after_cancel :
    scannedAcrossCancel[11]? = some (.resolve 0 ⟨10,[]⟩ false) ∧
    Disowned (before exec (World.initial (fun _ => singlePage [("b","1")])) scannedAcrossCancel 11)
      (before exec (World.initial (fun _ => singlePage [("b","1")])) scannedAcrossCancel 12) (holder,"b") ∧
    ((before exec (World.initial (fun _ => singlePage [("b","1")])) scannedAcrossCancel 11).chain holder).held "b" =
      true := by
  refine ⟨rfl,?_,?_⟩ <;> decide +kernel

end MemWal.SecurityDelete.Resolver
