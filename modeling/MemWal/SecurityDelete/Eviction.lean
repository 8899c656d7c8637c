import MemWal.SecurityDelete.Completion
import MemWal.SecurityDelete.Evidence

namespace MemWal.SecurityDelete
open Library Library.Fallible

-- The paths

section Paths
variable {margin : Nat} {told : Owner → Prop} {at_ : List Call × System} {ε : Type} {owner : Owner} {batchId : Uuid}

-- The owner's scan shows that it did not hold the blob all the time.
def Unheld (past : List Call) (owner : Owner) (blobId : BlobId) : Prop :=
  ∃ call ∈ past, ∃ cursor, call.op = .listOwnedBlobs owner cursor ∧ ¬ call.state.chain.Holds owner blobId

theorem Unheld.longer {past more : List Call} {blobId : BlobId} (unheld : Unheld past owner blobId)
    (sub : past.Sublist more) : Unheld more owner blobId := by
  obtain ⟨call,member,rest⟩ := unheld
  exact ⟨call,sub.subset member,rest⟩

theorem Paged.listed {scan : List Call} {cursor : Option Cursor} (paged : Paged owner scan cursor) :
    ∀ call ∈ scan, ∃ cursor, call.op = .listOwnedBlobs owner cursor := by
  induction paged with
  | first => simp
  | next _ asked _ _ ih =>
    intro call member
    rcases List.mem_append.mp member with earlier | here
    · exact ih call earlier
    · rw [List.mem_singleton.mp here]
      exact ⟨_,asked⟩

theorem unheld_of_unlisted {past scan : List Call} {cursor : Option Cursor} {last : Call}
    {owned : List (BlobId × ObjectId)} {blobId : BlobId} (complete : Complete past)
    (sub : (scan ++ [last]).Sublist past) (paged : Paged owner scan cursor)
    (asked : last.op = .listOwnedBlobs owner cursor) (answered : last.choice.base.error = none)
    (final : last.choice.base.page.2 = none)
    (covered : ∀ call ∈ scan ++ [last], ∀ pair ∈ call.choice.base.page.1, pair ∈ owned)
    (unlisted : owned.lookup blobId = none) : Unheld past owner blobId := by
  by_contra held
  have throughout : ∀ call ∈ scan ++ [last], call.state.chain.Holds owner blobId := by
    intro call member
    by_contra gone
    refine held ⟨call,sub.subset member,?_⟩
    rcases List.mem_append.mp member with earlier | here
    · obtain ⟨at_,listed⟩ := paged.listed call earlier
      exact ⟨at_,listed,gone⟩
    · rw [List.mem_singleton.mp here] at gone ⊢
      exact ⟨cursor,asked,gone⟩
  obtain ⟨call,member,id,listed⟩ := complete owner scan cursor last sub paged asked answered final blobId throughout
  rw [List.lookup_eq_none_iff] at unlisted
  exact absurd (unlisted (blobId,id) (covered call member _ listed)) (by simp)

theorem ownedBlobs_keeps {scan : List Call} (fuel : Nat) (cursor : Option Cursor) (owned : List (BlobId × ObjectId))
    (sub : scan.Sublist at_.1) (paged : Paged owner scan cursor)
    (covered : ∀ call ∈ scan, ∀ pair ∈ call.choice.base.page.1, pair ∈ owned) :
    Keeps (account margin told).terms 0
      (fun result now => ∀ listed, result = .ok listed → ∀ blobId, listed.lookup blobId = none →
        Unheld now.1 owner blobId) (ownedBlobs owner fuel cursor owned) at_ := by
  induction fuel generalizing scan cursor owned at_ with
  | zero => rintro listed ⟨⟩
  | succ fuel ih =>
    refine asked_keeps (Q:=fun page now => ∃ past c s, now.1 = past ++ [⟨s,.listOwnedBlobs owner cursor,c⟩] ∧
      scan.Sublist past ∧ c.base.error = none ∧ page = c.base.page ∧ Complete now.1)
      (call_keeps (fun _ => trivial) (Grown.refl at_) (fun _ _ => trivial) ?_) ?_ ?_
    · intro now c here given page answered
      simp only [serveReading,serve,Choice.rpc] at answered
      split at answered
      · cases answered
      · rename_i clean
        exact ⟨now.1,c,now.2,rfl,sub.trans here.1,clean,(Except.ok.inj answered).symm,given.complete⟩
    · intro page now _ found
      obtain ⟨past,c,s,grown,earlier,clean,rfl,complete⟩ := found
      have longer : (scan ++ [(⟨s,.listOwnedBlobs owner cursor,c⟩ : Call)]).Sublist now.1 := by
        rw [grown]
        exact earlier.append_right _
      have more : ∀ call ∈ scan ++ [(⟨s,.listOwnedBlobs owner cursor,c⟩ : Call)],
          ∀ pair ∈ call.choice.base.page.1, pair ∈ c.base.page.1.reverse ++ owned := by
        intro call member pair listed
        rcases List.mem_append.mp member with before | here
        · exact List.mem_append_right _ (covered call before pair listed)
        · rw [List.mem_singleton.mp here] at listed
          exact List.mem_append_left _ (List.mem_reverse.mpr listed)
      cases final : c.base.page.2 with
      | none =>
        rintro listed ⟨⟩ blobId unlisted
        exact unheld_of_unlisted complete longer paged rfl clean final more unlisted
      | some next =>
        dsimp only
        split
        · intro listed found
          obtain ⟨⟩ := found
        · exact ih (some next) _ longer (.next paged rfl clean final) more
    · intro error now _ listed found
      obtain ⟨⟩ := found

theorem batchBlobs_keeps :
    Keeps (account margin told).terms 0
      (fun result now => ∀ rows, result = .ok rows → ∀ row ∈ rows, ∀ id, row.2.objectId = some id →
        Own now.2 (owner,row.1) id) (batchBlobs batchId owner) at_ := by
  refine Keeps.weaken (passed_keeps (Q:=fun rows now => ∀ row ∈ rows, ∀ id, row.2.objectId = some id →
    Own now.2 (owner,row.1) id) (call_keeps (fun _ => trivial) (Grown.refl at_) (fun _ _ => trivial) ?_))
    (fun _ _ known rows same => known.2 rows same)
  intro now c _ _ rows answered row member id known
  simp only [serveReading,serve,Choice.read] at answered
  split at answered
  · cases answered
  · rw [← Except.ok.inj answered] at member
    exact ⟨row.2,id,(mem_blobsWhere.mp member).1,known,.inl rfl⟩

theorem evictUnowned_keeps {base : List Call × System} {rows : List (BlobId × TrackingRow)} (grown : Grown base at_)
    (unheld : ∀ row ∈ rows, Unheld base.1 owner row.1) :
    Keeps (account margin told).terms 0 (fun _ now => Grown base now) (evictUnowned owner batchId rows) at_ := by
  refine each_keeps _ grown ?_
  intro row member excluded now here
  refine then_keeps (transact_keeps (evict_free _ _ _ _) here ?_) (fun _ _ after => after)
  intro then_ since
  exact .inr ((unheld row member).longer since.1)

theorem resolveClaimedObjectIds_keeps (pages : Nat) :
    Keeps (account margin told).terms 0 (fun _ _ => True) (resolveClaimedObjectIds pages owner batchId) at_ := by
  refine .bind trivial (ownedBlobs_keeps pages none [] (List.nil_sublist _) .first (by simp)) ?_ (fun _ _ _ _ => trivial)
  intro owned listed _ unlisted
  -- The rows are read with the scan behind it.
  refine .bind trivial (plain_grows ?_ (Grown.refl listed)) ?_ (fun _ _ _ _ => trivial)
  · exact .bind (.perform ⟨fun _ _ _ => trivial,fun _ => trivial⟩) (fun result => .orFail result)
  intro rows now _ since
  have evicts : ∀ at_, Grown listed at_ → Keeps (account margin told).terms 0 (fun _ _ => True)
      (evictUnowned owner batchId ((rows.filter (fun row => row.2.objectId.isNone)).filter
        (fun row => (owned.lookup row.1).isNone))) at_ := by
    intro at_ here
    refine (evictUnowned_keeps here ?_).weaken (fun _ _ _ => trivial)
    intro row member
    have missing := (List.mem_filter.mp member).2
    exact unlisted owned rfl row.1 (Option.isNone_iff_eq_none.mp missing)
  dsimp only
  split
  · refine .bind trivial (@transact_keeps _ _ _ _ _ _ SdError.internal (fun _ => trivial) since (fun _ _ => trivial)) ?_
      (fun _ _ _ _ => trivial)
    intro _ after _ here
    exact evicts after here
  · exact evicts now since

theorem matched_of_read {base now : List Call × System} {known : List (BlobId × ObjectId)}
    {objects : List (Option ObjectInfo)} (owned : ∀ row ∈ known, Own base.2 (owner,row.1) row.2) (grown : Grown base now)
    (read : List.Forall₂ (fun id object => ∀ key, Own base.2 key id → Saw told now.1 key id object)
      (known.map Prod.snd) objects) :
    ∀ pair ∈ (known.map Prod.fst).zip objects, Matched told now owner pair.1 pair.2 := by
  intro pair member
  obtain ⟨row,among,same,saw⟩ := mem_zip_of_forall₂ read member
  have own := owned row among
  rw [same] at own
  exact ⟨row.2,own.later grown.2,saw _ own⟩

theorem known_rows {base : List Call × System} {rows : List (BlobId × TrackingRow)}
    (own : ∀ row ∈ rows, ∀ id, row.2.objectId = some id → Own base.2 (owner,row.1) id) :
    ∀ row ∈ rows.filterMap (fun row => row.2.objectId.map (fun id => (row.1,id))), Own base.2 (owner,row.1) row.2 := by
  intro pair member
  obtain ⟨row,among,same⟩ := List.mem_filterMap.mp member
  obtain ⟨id,known,rfl⟩ := Option.map_eq_some_iff.mp same
  exact own row among id known

theorem prepareHealthy_plain (cfg : Config) (suiEpoch : Nat) (healthy : List ObjectInfo) (excluded : List Excluded) :
    (prepareHealthy cfg owner batchId suiEpoch healthy excluded).Only Plain := by
  have rollback : (rollbackAfterPrepareFailure batchId).Only Plain :=
    .bind (.perform (fun _ _ _ => trivial)) (fun _ => trivial)
  have rpc : ∀ {α : Type} (result : Except SuiErr α), (prepareRpc batchId result).Only Plain := by
    intro α result
    cases result with
    | ok value => trivial
    | error error => exact .bind rollback (fun _ => trivial)
  have stored : ∀ sponsor package system gasPrice chain offsets, (storePrepared owner sponsor batchId healthy package system
      suiEpoch gasPrice chain offsets).Only Plain := by
    intro sponsor package system gasPrice chain offsets
    induction offsets with
    | nil => exact .bind rollback (fun _ => trivial)
    | cons offset rest ih =>
      simp only [storePrepared]
      split
      · exact .bind rollback (fun _ => trivial)
      · refine .bind (.perform (fun _ _ _ => trivial)) (fun answer => ?_)
        split
        · trivial
        · trivial
        · exact ih
        · exact .bind rollback (fun _ => trivial)
  unfold prepareHealthy
  refine .bind (.perform (fun _ _ _ => trivial)) (fun _ => .bind (rpc _) (fun system => ?_))
  refine .bind (.perform (fun _ _ _ => trivial)) (fun _ => .bind (rpc _) (fun gasPrice => ?_))
  refine .bind (.perform (fun _ _ _ => trivial)) (fun _ => .bind (rpc _) (fun chain => ?_))
  refine .bind (.orFail _) (fun key => ?_)
  split
  · exact .bind rollback (fun _ => trivial)
  · exact .bind (stored _ _ _ _ _ _) (fun _ => trivial)

-- A chain call of the prepare route: its failure gives the batch up.
theorem prepareRpc_keeps {α β : Type} {Q : α → List Call × System → Prop} {result : Except SuiErr α}
    {next : α → Route β} (known : ∀ value, result = .ok value → Q value at_)
    (rest : ∀ value, Q value at_ → Keeps (account margin told).terms 0 (fun _ _ => True) (next value) at_) :
    Keeps (account margin told).terms 0 (fun _ _ => True) (prepareRpc batchId result >>= next) at_ := by
  cases result with
  | ok value => exact rest value (known value rfl)
  | error error =>
    intro now _ _
    exact ⟨⟨rfl,trivial⟩,fun _ _ => trivial⟩

theorem prepareClaimed_keeps (cfg : Config) (pages : Nat) (rows : List (BlobId × TrackingRow)) (mine : told owner)
    (same : cfg.expiryMarginEpochs = margin) :
    Keeps (account margin told).terms 0 (fun _ _ => True) (prepareClaimed cfg pages owner batchId rows) at_ := by
  unfold prepareClaimed
  split
  · trivial
  refine .bind (Q:=fun _ _ => True) trivial ?_ ?_ (fun _ _ _ _ => trivial)
  · unfold resolveClaimed
    split
    · refine .bind trivial (resolveClaimedObjectIds_keeps pages).attempt ?_ (fun _ _ _ _ => trivial)
      intro result now _ _
      split
      · trivial
      · intro after _ _
        exact ⟨⟨rfl,trivial⟩,fun _ _ => trivial⟩
    · trivial
  intro excluded first _ _
  refine .bind trivial batchBlobs_keeps ?_ (fun _ _ _ _ => trivial)
  intro claimed base _ own
  have owned := known_rows (own claimed rfl)
  -- Both clocks are read, then the objects of the rows.
  refine .bind trivial (call_keeps (Q:=fun (answer : Except SuiErr Nat) now => ∀ epoch, answer = .ok epoch →
    Clocked now.1 epoch) (fun _ => trivial) (Grown.refl base) (fun _ _ => trivial) ?_) ?_ (fun _ _ _ _ => trivial)
  · intro now c _ _ epoch answered
    exact clock_read answered
  intro answer now _ known
  refine prepareRpc_keeps (Q:=fun epoch now => Clocked now.1 epoch) (fun epoch same => known.2 answer rfl epoch same) ?_
  intro epoch clocked
  refine .bind trivial (plain_grows (.perform ⟨fun _ _ _ => trivial,fun _ => trivial⟩) (Grown.refl now)) ?_
    (fun _ _ _ _ => trivial)
  intro answer after _ further
  refine prepareRpc_keeps (Q:=fun _ _ => True) (fun _ _ => trivial) ?_
  intro suiEpoch _
  have still : ∀ row ∈ claimed.filterMap (fun row => row.2.objectId.map (fun id => (row.1,id))),
      Own after.2 (owner,row.1) row.2 := fun row member => (owned row member).later (known.1.trans further).2
  refine .bind trivial (batchGetAll_keeps (Grown.refl after)).attempt ?_ (fun _ _ _ _ => trivial)
  intro result read _ given
  obtain ⟨inner,⟨⟩,grown,objects_⟩ := given
  refine prepareRpc_keeps (Q:=fun objects now => List.Forall₂ (fun id object => ∀ key, Own after.2 key id →
    Saw told now.1 key id object) _ objects) objects_ ?_
  intro objects found
  have late := clocked.longer (further.1.trans grown.1)
  subst same
  refine .bind trivial (sortClaimed_keeps mine late (Grown.refl read) (matched_of_read still grown found)) ?_
    (fun _ _ _ _ => trivial)
  intro sorted last _ _
  split
  · intro then_ _ _
    exact ⟨⟨rfl,trivial⟩,fun _ _ => trivial⟩
  · exact plain_keeps (prepareHealthy_plain cfg suiEpoch _ _) last

theorem prepareDeletion_keeps (cfg : Config) (pages : Nat) (request : PrepareRequest) (mine : told owner)
    (same : cfg.expiryMarginEpochs = margin) :
    Keeps (account margin told).terms 0 (fun _ _ => True) (prepareDeletion cfg pages owner request) at_ := by
  have plain : ∀ {α : Type} {p : Route α} at_, p.Only Plain →
      Keeps (account margin told).terms 0 (fun _ _ => True) p at_ := fun at_ only => plain_keeps only at_
  unfold prepareDeletion
  refine .bind trivial (plain _ (.orFail _)) ?_ (fun _ _ _ _ => trivial)
  intro selection _ _ _
  refine .bind trivial (plain _ (.perform (fun _ _ _ => trivial))) ?_ (fun _ _ _ _ => trivial)
  intro answer _ _ _
  refine .bind trivial (plain _ (.orFail _)) ?_ (fun _ _ _ _ => trivial)
  intro deletable _ _ _
  split
  · trivial
  refine .bind trivial (plain _ (.perform (fun _ _ _ => trivial))) ?_ (fun _ _ _ _ => trivial)
  intro allowed _ _ _
  refine .bind trivial (plain _ (.orFail _)) ?_ (fun _ _ _ _ => trivial)
  intro _ _ _ _
  refine .bind trivial (plain _ (.perform (fun _ _ _ => trivial))) ?_ (fun _ _ _ _ => trivial)
  intro batchId _ _ _
  refine .bind (Q:=fun _ _ => True) trivial ?_ ?_ (fun _ _ _ _ => trivial)
  · cases selection with
    | some ids => exact plain _ (.bind (.perform (fun _ _ _ => trivial)) (fun result => .orFail result))
    | none => exact plain _ (.bind (.perform (fun _ _ _ => trivial)) (fun result => .orFail result))
  intro rows _ _ _
  split
  · trivial
  refine .bind (Q:=fun _ _ => True) trivial ?_ ?_ (fun _ _ _ _ => trivial)
  · refine Keeps.cutOff account_steady ?_ ?_ (prepareClaimed_keeps cfg pages rows mine same)
    · intro past s
      trivial
    · intro past s c given
      exact serveReading_later (fun _ => trivial) given.inv
  intro response last _ _
  split
  · trivial
  · intro now _ _
    exact ⟨⟨rfl,trivial⟩,fun _ _ => trivial⟩

theorem transact_plain {t : Transaction} (plain : Plain (.transact t)) : (transact t).Only Plain :=
  .bind (.perform plain) (fun result => .orFail result)

theorem job_transact_plain {t : Transaction} (plain : Plain (.transact t)) : (Job.transact t).Only Plain :=
  .bind (.perform plain) (fun result => .orFail result)

-- The batch as its caller has read it, seen from a later state.
def KnownBatch (s : System) (batchId : Uuid) (batch : BatchRow) (txBytes : DeleteTx) : Prop :=
  batch.txBytes = some txBytes ∧ ∃ stored, s.db.batches.get? batchId = some stored ∧ batch.Extends stored

-- The object an input of the stored transaction names is that of the blob's row.
theorem input_own {s : System} {batch : BatchRow} {txBytes : DeleteTx} {ids : List BlobId} {expected : List ExpectedInput}
    (inv : Inv s) (known : KnownBatch s batchId batch txBytes) (inputs : batch.inputBlobIds = some ids)
    (expects : expectedInputs txBytes ids = .ok expected) :
    ∀ input ∈ expected, Own s (batch.owner,input.blobId) input.reference.objectId := by
  obtain ⟨tx,stored,found,extends_⟩ := known
  obtain ⟨kept,same⟩ := extends_.tx txBytes tx
  obtain ⟨others,listed,names,_⟩ := (inv.recorded batchId stored txBytes found kept).inputs
  rw [same,inputs] at listed
  cases listed
  rw [extends_.owner] at names
  simp only [expectedInputs,bind_ok,ensure_ok,exists_const,pure_ok] at expects
  obtain ⟨_,rfl⟩ := expects
  intro input member
  obtain ⟨pair,among,rfl⟩ := List.mem_map.mp member
  obtain ⟨row,recorded,present,objectId,address⟩ := (List.forall₂_iff_zip.mp names).2 among
  exact ⟨row,recorded,present,objectId,.inr address⟩

theorem stale_shown {base now : List Call × System} {expected : List ExpectedInput} {objects : List (Option ObjectInfo)}
    {stale : List StaleInput} (own : ∀ input ∈ expected, Own base.2 (owner,input.blobId) input.reference.objectId)
    (grown : Grown base now)
    (read : List.Forall₂ (fun id object => ∀ key, Own base.2 key id → Saw told now.1 key id object)
      (objectIds expected) objects) (found : staleInputs owner expected objects = .ok stale) :
    ∀ input ∈ stale, input.Shown told now owner := by
  simp only [staleInputs,bind_ok,ensure_ok,exists_const,pure_ok] at found
  obtain ⟨_,rfl⟩ := found
  intro input member
  obtain ⟨pair,among,shown⟩ := List.mem_filterMap.mp member
  obtain ⟨reason,stale,rfl⟩ := Option.map_eq_some_iff.mp shown
  rw [← List.map_id expected] at among
  obtain ⟨item,present,same,saw⟩ := mem_zip_of_forall₂ read among
  have same : item = pair.1 := same
  rw [same] at present saw
  have mine := own pair.1 present
  exact ⟨pair.1,pair.2,rfl,stale,pair.1.reference.objectId,mine.later grown.2,saw _ mine⟩

theorem revalidateBeforeExecute_keeps {batch : BatchRow} {txBytes : DeleteTx} (mine : told batch.owner) (inv : Inv at_.2)
    (known : KnownBatch at_.2 batchId batch txBytes) :
    Keeps (account margin told).terms 0 (fun _ _ => True)
      (revalidateBeforeExecute batchId batch.owner batch txBytes) at_ := by
  unfold revalidateBeforeExecute
  refine .bind trivial (plain_grows (.perform ⟨fun _ _ _ => trivial,fun _ => trivial⟩) (Grown.refl at_)) ?_
    (fun _ _ _ _ => trivial)
  intro system now _ since
  split
  · trivial
  refine .bind (Q:=fun result now => Grown at_ now ∧ ∀ ids, result = .ok ids → batch.inputBlobIds = some ids) trivial
    (.orFail (fun ids same => ⟨since,?_⟩) (fun error _ => ⟨since,by rintro ids ⟨⟩⟩)) ?_ (fun _ _ _ _ => trivial)
  · intro other given
    obtain ⟨⟩ := given
    exact require_ok.mp same
  intro ids now _ given
  obtain ⟨since,inputs⟩ := given
  refine .bind (Q:=fun result now => Grown at_ now ∧ ∀ expected, result = .ok expected →
    expectedInputs txBytes ids = .ok expected) trivial
    (.orFail (fun expected same => ⟨since,by rintro other ⟨⟩; exact same⟩) (fun error _ => ⟨since,by rintro ids ⟨⟩⟩)) ?_
    (fun _ _ _ _ => trivial)
  intro expected now _ given
  obtain ⟨since,expects⟩ := given
  have own := input_own inv known (inputs ids rfl) (expects expected rfl)
  refine .bind trivial (batchGetAll_keeps since) ?_ (fun _ _ _ _ => trivial)
  intro objects read _ given
  obtain ⟨grown,answers⟩ := given
  refine .bind (Q:=fun result now => Grown read now ∧ ∀ stale, result = .ok stale →
    staleInputs batch.owner expected objects = .ok stale) trivial
    (.orFail (fun stale same => ⟨Grown.refl read,by rintro other ⟨⟩; exact same⟩)
      (fun error _ => ⟨Grown.refl read,by rintro ids ⟨⟩⟩)) ?_ (fun _ _ _ _ => trivial)
  intro stale now _ given
  obtain ⟨here,found⟩ := given
  split
  · trivial
  refine .bind trivial (evictStale_keeps mine here (stale_shown own grown (answers objects rfl) (found stale rfl))) ?_
    (fun _ _ _ _ => trivial)
  intro evicted last _ _
  refine plain_keeps (.bind (transact_plain ?_) ?_) last
  · exact fun _ _ _ => trivial
  · exact fun _ => trivial

theorem resolveStaleRetryInputs_keeps {batch : BatchRow} {txBytes : DeleteTx} (mine : told batch.owner) (inv : Inv at_.2)
    (known : KnownBatch at_.2 batchId batch txBytes) :
    Keeps (account margin told).terms 0 (fun _ _ => True) (resolveStaleRetryInputs batchId batch txBytes) at_ := by
  have rollback : ∀ {α : Type} (value : α) now, Keeps (account margin told).terms 0 (fun _ _ => True)
      (Job.transact (.rollback batchId .failExecuting) >>= fun _ => (pure value : Job α)) now := by
    intro α value now
    refine plain_keeps (.bind (job_transact_plain ?_) ?_) now
    · exact fun _ _ _ => trivial
    · exact fun _ => trivial
  unfold resolveStaleRetryInputs
  refine .bind trivial (plain_grows (.perform ⟨fun _ _ _ => trivial,fun _ => trivial⟩) (Grown.refl at_)) ?_
    (fun _ _ _ _ => trivial)
  intro system now _ since
  split
  · exact rollback true now
  cases inputs : batch.inputBlobIds with
  | none => trivial
  | some ids =>
    dsimp only
    refine .bind (Q:=fun result now => Grown at_ now ∧ ∀ expected, result = .ok expected →
      expectedInputs txBytes ids = .ok expected) trivial
      (.orFail (fun expected same => ⟨since,by rintro other ⟨⟩; exact same⟩) (fun error _ => ⟨since,by rintro ids ⟨⟩⟩)) ?_
      (fun _ _ _ _ => trivial)
    intro expected now _ given
    obtain ⟨since,expects⟩ := given
    have own := input_own inv known inputs (expects expected rfl)
    refine .bind trivial (batchGetAll_keeps since) ?_ (fun _ _ _ _ => trivial)
    intro objects read _ given
    obtain ⟨grown,answers⟩ := given
    refine .bind (Q:=fun result now => Grown read now ∧ ∀ stale, result = .ok stale →
      staleInputs batch.owner expected objects = .ok stale) trivial
      (.orFail (fun stale same => ⟨Grown.refl read,by rintro other ⟨⟩; exact same⟩)
        (fun error _ => ⟨Grown.refl read,by rintro ids ⟨⟩⟩)) ?_ (fun _ _ _ _ => trivial)
    intro stale now _ given
    obtain ⟨here,found⟩ := given
    split
    · trivial
    refine .bind trivial (evictStaleInputs_keeps mine here (stale_shown own grown (answers objects rfl) (found stale rfl)))
      ?_ (fun _ _ _ _ => trivial)
    intro _ last _ _
    exact rollback true last

theorem resolveCommittedFailure_keeps (batch : BatchRow) (status : ExecutionStatus) :
    Keeps (account margin told).terms 0 (fun _ _ => True) (resolveCommittedFailure batchId owner batch status) at_ := by
  unfold resolveCommittedFailure
  refine .bind trivial batchBlobs_keeps ?_ (fun _ _ _ _ => trivial)
  intro rows base _ own
  have owned := known_rows (fun row member => own rows rfl row (List.mem_of_mem_filter
    (p:=fun row => row.1 ∈ failureTargets batch rows (classifyExecutionFailure status)) member))
  refine .bind (Q:=fun _ _ => True) trivial ?_ ?_ (fun _ _ _ _ => trivial)
  · unfold evictCommitted
    refine .bind trivial (batchGetAll_keeps (Grown.refl base)).attempt ?_ (fun _ _ _ _ => trivial)
    intro result read _ found
    obtain ⟨inner,⟨⟩,grown,answers⟩ := found
    cases result with
    | ok objects =>
      exact (evictGone_keeps (Grown.refl read) (matched_of_read owned grown (answers objects rfl))).weaken
        (fun _ _ _ => trivial)
    | error error => trivial
  intro evicted last _ _
  refine plain_keeps (.bind (transact_plain ?_) ?_) last
  · exact fun _ _ _ => trivial
  · exact fun _ => trivial

theorem resolveAmbiguousRows_keeps {cfg : ReconcilerCfg} {rows : List (BlobId × TrackingRow)}
    (same : cfg.expiryMarginEpochs = margin)
    (own : ∀ row ∈ rows, ∀ id, row.2.objectId = some id → Own at_.2 (owner,row.1) id) :
    Keeps (account margin told).terms 0 (fun _ _ => True) (resolveAmbiguousRows batchId owner rows cfg) at_ := by
  have owned := known_rows own
  unfold resolveAmbiguousRows
  dsimp only
  split
  · trivial
  refine asked_keeps (Q:=fun objects now => List.Forall₂ (fun id object => ∀ key, Own at_.2 key id →
    Saw told now.1 key id object) ((rows.filterMap (fun row => row.2.objectId.map (fun id => (row.1,id)))).map Prod.snd)
    objects) (call_keeps (fun _ => trivial) (Grown.refl at_) (fun _ _ => trivial) ?_) ?_ (fun _ _ _ => trivial)
  · intro now c here given objects answered
    exact read_saw here given answered
  intro objects read grown found
  refine asked_keeps (Q:=fun epoch now => Grown read now ∧ Clocked now.1 epoch)
    (call_keeps (fun _ => trivial) (Grown.refl read) (fun _ _ => trivial) ?_) ?_ (fun _ _ _ => trivial)
  · intro now c here _ epoch answered
    exact ⟨⟨here.1.trans (List.sublist_append_left _ _),here.2⟩,clock_read answered⟩
  intro epoch now _ fact
  obtain ⟨since,clocked⟩ := fact
  subst same
  refine (evictAmbiguous_keeps clocked (Grown.refl now) ?_).weaken (fun _ _ _ => trivial)
  intro pair member
  obtain ⟨id,own,saw⟩ := matched_of_read owned grown found pair member
  exact ⟨id,own.later since.2,saw.longer since.1⟩

theorem resolveFailedBatch_keeps {cfg : ReconcilerCfg} (batch : BatchRow) (status : ExecutionStatus)
    (same : cfg.expiryMarginEpochs = margin) :
    Keeps (account margin told).terms 0 (fun _ _ => True) (resolveFailedBatch batchId batch status cfg) at_ := by
  unfold resolveFailedBatch
  refine asked_keeps (Q:=fun rows now => ∀ row ∈ rows, ∀ id, row.2.objectId = some id → Own now.2 (batch.owner,row.1) id)
    (call_keeps (fun _ => trivial) (Grown.refl at_) (fun _ _ => trivial) ?_) ?_ (fun _ _ _ => trivial)
  · intro now c _ _ rows answered row member id known
    simp only [serveReading,serve,Choice.read] at answered
    split at answered
    · cases answered
    · rw [← Except.ok.inj answered] at member
      exact ⟨row.2,id,(mem_blobsWhere.mp member).1,known,.inl rfl⟩
  intro rows now _ own
  refine resolveAmbiguousRows_keeps same ?_
  intro row member
  refine own row ?_
  unfold failureCandidates at member
  split at member
  · split at member
    · exact member
    · exact List.mem_of_mem_filter member
  · cases member
  · cases member
  · exact member
  · exact member

theorem candidate_own {s : System} {cursor : Option SweepCursor} {limit : Nat} {row : (Owner × BlobId) × TrackingRow}
    (member : row ∈ s.db.sweepCandidates cursor limit) : ∃ id, row.2.objectId = some id ∧ Own s row.1 id := by
  have listed := List.mem_of_mem_take member
  rw [List.mem_insertionSort,List.mem_filter] at listed
  simp only [Bool.and_eq_true] at listed
  obtain ⟨id,known⟩ := Option.isSome_iff_exists.mp listed.2.1.2
  exact ⟨id,known,row.2,id,Store.get?_eq_some.mpr listed.1,known,.inl rfl⟩

theorem runSweepPage_keeps {cfg : ReconcilerCfg} (same : cfg.expiryMarginEpochs = margin) :
    Keeps (account margin told).terms 0 (fun _ _ => True) (runSweepPage cfg) at_ := by
  unfold runSweepPage
  refine asked_keeps (Q:=fun _ _ => True) (call_keeps (fun _ => trivial) (Grown.refl at_) (fun _ _ => trivial)
    (fun _ _ _ _ _ _ => trivial)) ?_ (fun _ _ _ => trivial)
  intro cursor first _ _
  refine asked_keeps (Q:=fun rows now => ∀ row ∈ rows, ∃ id, row.2.objectId = some id ∧ Own now.2 row.1 id)
    (call_keeps (fun _ => trivial) (Grown.refl first) (fun _ _ => trivial) ?_) ?_ (fun _ _ _ => trivial)
  · intro now c _ _ rows answered row member
    simp only [serveReading,serve,Choice.read] at answered
    split at answered
    · cases answered
    · rw [← Except.ok.inj answered] at member
      exact candidate_own member
  intro candidates base _ own
  split
  · refine plain_keeps (.bind (job_transact_plain ?_) ?_) base
    · exact fun _ _ _ => trivial
    · exact fun _ => trivial
  -- No candidate lacks an object id, so that the answers stand in the order of the rows.
  have aligned : candidates.filterMap (fun row => row.2.objectId) = candidates.map (fun row => row.2.objectId.getD "") := by
    refine List.filterMap_eq_map_iff_forall_eq_some.mpr ?_
    intro row member
    obtain ⟨id,known,_⟩ := own row member
    rw [known]
    rfl
  refine asked_keeps (Q:=fun objects now => List.Forall₂ (fun id object => ∀ key, Own base.2 key id →
    Saw told now.1 key id object) (candidates.filterMap (fun row => row.2.objectId)) objects)
    (call_keeps (fun _ => trivial) (Grown.refl base) (fun _ _ => trivial) ?_) ?_ (fun _ _ _ => trivial)
  · intro now c here given objects answered
    exact read_saw here given answered
  intro objects read grown found
  rw [aligned] at found
  refine asked_keeps (Q:=fun epoch now => Grown read now ∧ Clocked now.1 epoch)
    (call_keeps (fun _ => trivial) (Grown.refl read) (fun _ _ => trivial) ?_) ?_ (fun _ _ _ => trivial)
  · intro now c here _ epoch answered
    exact ⟨⟨here.1.trans (List.sublist_append_left _ _),here.2⟩,clock_read answered⟩
  intro epoch now _ fact
  obtain ⟨since,clocked⟩ := fact
  subst same
  refine .bind trivial (sweepRows_keeps clocked (Grown.refl now) ?_) ?_ (fun _ _ _ _ => trivial)
  · intro pair member
    rw [← List.map_id candidates] at member
    obtain ⟨row,among,same,saw⟩ := mem_zip_of_forall₂ found member
    have same : row = pair.1 := same
    rw [same] at among saw
    obtain ⟨id,known,own⟩ := own pair.1 among
    rw [known] at saw
    exact ⟨id,own.later (grown.trans since).2,(saw pair.1.1 own).longer since.1⟩
  intro swept last _ _
  refine plain_keeps (.bind (job_transact_plain ?_) ?_) last
  · exact fun _ _ _ => trivial
  · exact fun _ => trivial

end Paths

-- The code that gives a row up, with what its callers hand it.
inductive Path where
  | prepareDeletion (cfg : Config) (pages : Nat) (owner : Owner) (request : PrepareRequest)
  | revalidateBeforeExecute (batchId : Uuid) (batch : BatchRow) (txBytes : DeleteTx)
  | resolveCommittedFailure (batchId : Uuid) (owner : Owner) (batch : BatchRow) (status : ExecutionStatus)
  | resolveFailedBatch (batchId : Uuid) (batch : BatchRow) (status : ExecutionStatus) (cfg : ReconcilerCfg)
  | resolveStaleRetryInputs (batchId : Uuid) (batch : BatchRow) (txBytes : DeleteTx)
  | runSweepPage (cfg : ReconcilerCfg)

-- The margin the path's expiry check uses; two of them make none.
def Path.margin : Path → Nat
  | .prepareDeletion cfg _ _ _ => cfg.expiryMarginEpochs
  | .resolveFailedBatch _ _ _ cfg | .runSweepPage cfg => cfg.expiryMarginEpochs
  | .revalidateBeforeExecute .. | .resolveCommittedFailure .. | .resolveStaleRetryInputs .. => 0

def Path.Ready (s : System) : Path → Prop
  | .revalidateBeforeExecute batchId batch txBytes | .resolveStaleRetryInputs batchId batch txBytes =>
    KnownBatch s batchId batch txBytes
  | _ => True

-- The three paths that take an object without a blob id for another one.
def Path.Asks (owner : Owner) : Path → Prop
  | .prepareDeletion _ _ caller _ => owner = caller
  | .revalidateBeforeExecute _ batch _ | .resolveStaleRetryInputs _ batch _ => owner = batch.owner
  | .resolveCommittedFailure .. | .resolveFailedBatch .. | .runSweepPage _ => False

def Path.Runs (s : System) (calls : List Call) : Path → Prop
  | .prepareDeletion cfg pages owner request =>
    Execution serveReading Later (SecurityDelete.prepareDeletion cfg pages owner request) s calls
  | .revalidateBeforeExecute batchId batch txBytes =>
    Execution serveReading Later (SecurityDelete.revalidateBeforeExecute batchId batch.owner batch txBytes) s calls
  | .resolveCommittedFailure batchId owner batch status =>
    Execution serveReading Later (SecurityDelete.resolveCommittedFailure batchId owner batch status) s calls
  | .resolveFailedBatch batchId batch status cfg =>
    Execution serveReading Later (SecurityDelete.resolveFailedBatch batchId batch status cfg) s calls
  | .resolveStaleRetryInputs batchId batch txBytes =>
    Execution serveReading Later (SecurityDelete.resolveStaleRetryInputs batchId batch txBytes) s calls
  | .runSweepPage cfg => Execution serveReading Later (SecurityDelete.runSweepPage cfg) s calls

-- Every state met is one the service can be in, and the chain answers as it does.
structure Honest (calls : List Call) : Prop where
  inv : ∀ call ∈ calls, Inv call.state
  tracked : ∀ call ∈ calls, Tracked call.state
  complete : Complete calls

theorem claimed_exact {owner : Owner} {info : ObjectInfo} {missing : Missing} {epoch margin : Nat} {blobId : BlobId}
    (named : info.blobId = some blobId) :
    (∀ reason, claimedVerdict owner epoch margin blobId (some (info.render missing)) = some (.notOwner,reason) →
      sameOwner info.owner owner = false) ↔ (sameOwner info.owner owner = true → missing.blobId = false) := by
  have owned : (info.render missing).owner = info.owner := rfl
  have rendered : (info.render missing).blobId = if missing.blobId then none else some blobId := by
    simp [ObjectInfo.render,named]
  simp only [claimedVerdict,owned,rendered]
  cases missing.blobId <;> cases sameOwner info.owner owner <;> simp

theorem stale_exact {owner : Owner} {info : ObjectInfo} {missing : Missing} {expected : ExpectedInput}
    (named : info.blobId = some expected.blobId) :
    (staleReason owner expected (some (info.render missing)) = some .notOwner → sameOwner info.owner owner = false) ↔
      (sameOwner info.owner owner = true → missing.blobId = false) := by
  have owned : (info.render missing).owner = info.owner := rfl
  have rendered : (info.render missing).blobId = if missing.blobId then none else some expected.blobId := by
    simp [ObjectInfo.render,named]
  simp only [staleReason,owned,rendered]
  cases missing.blobId <;> cases sameOwner info.owner owner <;> simp

-- Whatever the others do between two calls, a row is only given up for a reason the
-- chain has shown; three of the paths need the blob ids of the owner's objects in
-- the answers for it, and on one object their verdict is right exactly then.
theorem evictions_justified (path : Path) (s : System) (calls : List Call) :
    (Inv s → path.Ready s → path.Runs s calls → Honest calls →
      (∀ call ∈ calls, ∀ owner, path.Asks owner → Told owner call) →
      ∀ i call, calls[i]? = some call → Sanctioned path.margin (calls.take i) call.state call.op) ∧
    (∀ (owner : Owner) (info : ObjectInfo) (missing : Missing) (epoch margin : Nat) (blobId : BlobId),
      info.blobId = some blobId →
      ((∀ reason, claimedVerdict owner epoch margin blobId (some (info.render missing)) = some (.notOwner,reason) →
          sameOwner info.owner owner = false) ↔
        (sameOwner info.owner owner = true → missing.blobId = false)) ∧
      ∀ expected : ExpectedInput, expected.blobId = blobId →
        ((staleReason owner expected (some (info.render missing)) = some .notOwner → sameOwner info.owner owner = false) ↔
          (sameOwner info.owner owner = true → missing.blobId = false))) := by
  refine ⟨?_,?_⟩
  · intro inv ready ran honest told i call found
    have given : ∀ i call, calls[i]? = some call →
        Fair (fun owner => path.Asks owner) ([] ++ calls.take i) call.state call.op call.choice := by
      intro i call found
      have member := List.mem_of_getElem? found
      refine ⟨honest.inv call member,honest.tracked call member,?_,fun owner => told call member owner⟩
      intro owner scan cursor last sub
      refine honest.complete owner scan cursor last (sub.trans ?_)
      have part : calls.take (i+1) = calls.take i ++ [call] := by simp [List.take_add_one,found]
      rw [List.nil_append,← part]
      exact List.take_sublist _ _
    have keeps : ∀ {ε α : Type} {p : Program Op Op.Answer ε α},
        Keeps (account path.margin (fun owner => path.Asks owner)).terms 0 (fun _ _ => True) p ([],s) →
        Execution serveReading Later p s calls → Sanctioned path.margin (calls.take i) call.state call.op :=
      fun keeps ran => Execution.allowed keeps ran given i call found
    cases path with
    | prepareDeletion cfg pages owner request => exact keeps (prepareDeletion_keeps cfg pages request rfl rfl) ran
    | revalidateBeforeExecute batchId batch txBytes => exact keeps (revalidateBeforeExecute_keeps rfl inv ready) ran
    | resolveCommittedFailure batchId owner batch status => exact keeps (resolveCommittedFailure_keeps batch status) ran
    | resolveFailedBatch batchId batch status cfg => exact keeps (resolveFailedBatch_keeps batch status rfl) ran
    | resolveStaleRetryInputs batchId batch txBytes => exact keeps (resolveStaleRetryInputs_keeps rfl inv ready) ran
    | runSweepPage cfg => exact keeps (runSweepPage_keeps rfl) ran
  · intro owner info missing epoch margin blobId named
    refine ⟨claimed_exact named,?_⟩
    intro expected same
    obtain rfl := same
    exact stale_exact named

-- One tracked blob, and the prepare route up to its first eviction

def trackedRun (owner : String) : List Act :=
  [.outside (.trackDeletable ⟨1,[]⟩ "0x1" "b" 0),
    .outside (.chain (.revise exposedObject ⟨1,some ⟨exposedObject,1,"d",some owner,some "b",none⟩⟩)),
    .outside (.setObjectIds ⟨2,[]⟩ exposedOwner [("b",exposedObject)])]

def preparation (owner : String) (missing : Missing) : List Call :=
  play serveReading (prepareDeletion exampleConfig 1 exposedOwner ⟨"all",none⟩) (state walrusSystem (trackedRun owner) 3)
    (List.replicate 13 ⟨{},fun _ => missing⟩)

def evictsUnowned : Op → Bool
  | .transact (.evict owner blobId _ .notOwner) => owner = exposedOwner && blobId = "b"
  | _ => false

-- The calls the route makes here, and what holds where it makes them.
def ordinary : Op → Bool
  | .transact (.finalize _) | .transact (.setPrepared ..) | .send .. | .listOwnedBlobs .. => false
  | _ => true

def named (s : System) : Bool :=
  s.db.tracking.entries.all (fun e => e.1.2 = "b") &&
  s.chain.objects.entries.all (fun e => e.2.live.all (fun info => info.blobId = some "b"))

def held (s : System) : Bool :=
  s.chain.objects.entries.all (fun e => e.2.live.all (fun info => sameOwner info.owner exposedOwner))

theorem live_of_all {s : System} {check : ObjectInfo → Bool} {id : ObjectId} {info : ObjectInfo}
    (checked : s.chain.objects.entries.all (fun e => e.2.live.all check) = true)
    (present : s.chain.object id = some info) : check info = true := by
  obtain ⟨revision,stored,live⟩ := Option.bind_eq_some_iff.mp present
  have here := List.all_eq_true.mp checked _ (Store.get?_eq_some.mp stored)
  rw [live] at here
  exact here

theorem ordinary_harmless {op : Op} (plain : ordinary op = true) : Harmless op := by
  intro s
  unfold Allowed
  split
  · cases plain
  · cases plain
  · cases plain
  · trivial

theorem preparation_honest {owner : String} {missing : Missing}
    (plain : (preparation owner missing).all (fun call => ordinary call.op) = true)
    (checked : (preparation owner missing).all (fun call => named call.state) = true) :
    Honest (preparation owner missing) := by
  refine ⟨?_,?_,?_⟩
  · refine play_invariant (I:=Inv) ?_ plain (state_inv walrusSystem (trackedRun owner) 3)
    intro s op c free inv
    cases op with
    | batchGetObjects ids => exact inv
    | _ => exact (serve_step _ c.base inv (ordinary_harmless free _)).1
  · intro call member key id info own present
    have here := List.all_eq_true.mp checked call member
    simp only [named,Bool.and_eq_true] at here
    have blobId := live_of_all here.2 present
    obtain ⟨row,_,found,_⟩ := own
    have same := List.all_eq_true.mp here.1 _ (Store.get?_eq_some.mp found)
    simp only [decide_eq_true_eq] at blobId same
    rw [blobId,same]
  · intro owner scan cursor last sub _ asked
    have free := List.all_eq_true.mp plain last (sub.subset (List.mem_append_right _ (List.mem_singleton_self _)))
    rw [asked] at free
    cases free

-- The answer about the owner's only blob lacks its blob id: the row is given up as
-- not owned, although all the chain has shown is the owner's object.
theorem held_blob_given_up :
    ¬ ∀ (path : Path) (s : System) (calls : List Call), Inv s → path.Ready s → path.Runs s calls → Honest calls →
      ∀ i call, calls[i]? = some call → Sanctioned path.margin (calls.take i) call.state call.op := by
  intro all
  have plain : (preparation "0x1" ⟨true,false⟩).all (fun call => ordinary call.op) = true := by decide +kernel
  have mine : (preparation "0x1" ⟨true,false⟩).all (fun call => held call.state) = true := by decide +kernel
  have honest := preparation_honest plain (by decide +kernel)
  have sanctioned := all (.prepareDeletion exampleConfig 1 exposedOwner ⟨"all",none⟩) _ (preparation "0x1" ⟨true,false⟩)
    (state_inv walrusSystem (trackedRun "0x1") 3) trivial (play_execution Later.refl _ _ _) honest 12
  have evicts : ((preparation "0x1" ⟨true,false⟩)[12]?).any (fun call => evictsUnowned call.op) = true := by
    decide +kernel
  obtain ⟨call,found,evicts⟩ := (Option.any_eq_true _ _).mp evicts
  have just := sanctioned call found
  unfold evictsUnowned at evicts
  split at evicts
  · rename_i owner blobId _ asked
    rw [asked] at just
    simp only [Bool.and_eq_true,decide_eq_true_eq] at evicts
    rcases just with ⟨read,member,id,info,_,present,foreign⟩ | ⟨page,member,cursor,listed,_⟩
    · have shown := List.all_eq_true.mp mine read (List.mem_of_mem_take member)
      have same := live_of_all shown present
      rw [evicts.1,same] at foreign
      cases foreign
    · have free := List.all_eq_true.mp plain page (List.mem_of_mem_take member)
      rw [listed] at free
      cases free
  · cases evicts

-- Here the object is another owner's, and the answer says so.
theorem foreign_blob_given_up :
    ((preparation "0x9" ⟨false,true⟩)[12]?).any (fun call => evictsUnowned call.op) = true ∧
    ∀ call, (preparation "0x9" ⟨false,true⟩)[12]? = some call →
      Sanctioned 0 ((preparation "0x9" ⟨false,true⟩).take 12) call.state call.op := by
  refine ⟨by decide +kernel,?_⟩
  intro call found
  refine (evictions_justified (.prepareDeletion exampleConfig 1 exposedOwner ⟨"all",none⟩) _ _).1
    (state_inv walrusSystem (trackedRun "0x9") 3) trivial (play_execution Later.refl _ _ _)
    (preparation_honest (by decide +kernel) (by decide +kernel)) ?_ 12 call found
  intro read member owner _ ids id info _ _ _ _
  rw [List.eq_of_mem_replicate (play_choice member)]

end MemWal.SecurityDelete
