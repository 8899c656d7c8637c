import MemWal.SecurityDelete.Conformance

namespace MemWal.SecurityDelete
open Library Library.Fallible Library.Batches

-- What the prepare route knows about the batch it has claimed.

def Claimed (s : System) (id : Uuid) (owner : Owner) : Prop :=
  ∃ batch, s.db.batches.get? id = some batch ∧ batch.owner = owner

def Points (s : System) (id : Uuid) (key : Owner × BlobId) : Prop :=
  ∃ row, s.db.tracking.get? key = some row ∧ row.batchId = some id

def Resolved (s : System) (id : Uuid) : Prop :=
  ∀ key row, s.db.tracking.get? key = some row → row.batchId = some id → row.objectId.isSome

section Memory
variable {s now : System} {id : Uuid} {owner : Owner}

theorem Claimed.later (claimed : Claimed s id owner) (since : Later s now) : Claimed now id owner := by
  obtain ⟨old,found,same⟩ := claimed
  obtain ⟨new,stored,extends_⟩ := since.batches id old found
  exact ⟨new,stored,extends_.owner.trans same⟩

-- No row enters a batch that exists.
theorem Claimed.back {key : Owner × BlobId} (claimed : Claimed s id owner) (since : Later s now)
    (points : Points now id key) : Points s id key := by
  obtain ⟨batch,found,_⟩ := claimed
  obtain ⟨row,present,pointer⟩ := points
  exact since.claims id batch found key row present pointer

theorem Claimed.owner_of {key : Owner × BlobId} (inv : Inv s) (claimed : Claimed s id owner)
    (points : Points s id key) : key.1 = owner := by
  obtain ⟨batch,found,same⟩ := claimed
  obtain ⟨row,present,pointer⟩ := points
  obtain ⟨other,stored,here,_⟩ := inv.consistent.owned key row id present pointer
  rw [found] at stored
  cases stored
  exact here.symm.trans same

theorem Resolved.later (resolved : Resolved s id) (claimed : Claimed s id owner) (since : Later s now) :
    Resolved now id := by
  intro key row present pointer
  obtain ⟨old,found,points⟩ := claimed.back since ⟨row,present,pointer⟩
  obtain ⟨objectId,known⟩ := Option.isSome_iff_exists.mp (resolved key old found points)
  obtain ⟨new,stored,kept⟩ := since.rows key old objectId found known
  rw [present] at stored
  cases stored
  rw [kept]
  rfl

theorem points_listed {key : Owner × BlobId} (inv : Inv s) (claimed : Claimed s id owner) (points : Points s id key) :
    ∃ row, key = (owner,key.2) ∧ (key.2,row) ∈ s.db.batchBlobs id owner ∧ s.db.tracking.get? key = some row := by
  have same := claimed.owner_of inv points
  obtain ⟨row,present,pointer⟩ := points
  have equal : key = (owner,key.2) := Prod.ext same rfl
  refine ⟨row,equal,mem_blobsWhere.mpr ⟨?_,by simpa using pointer⟩,present⟩
  rw [← equal]
  exact present

end Memory

-- Single calls

section Calls
variable {s : System} {id : Uuid} {owner : Owner}

theorem batchBlobs_safe (inv : Inv s) :
    Safe discipline (fun rows now => rows = now.db.batchBlobs id owner) (batchBlobs id owner) s := by
  refine .bind (Q:=fun (answer : Except StoreError (List (BlobId × TrackingRow))) now => ∀ rows, answer = .ok rows →
    rows = now.db.batchBlobs id owner) inv ?_ ?_
  · intro now _ _
    refine ⟨trivial,fun c rows answered => ?_⟩
    simp only [serve,Choice.read] at answered
    split at answered
    · cases answered
    · exact (Except.ok.inj answered).symm
  · intro answer now _ _ read
    exact .orFail (fun rows same => read rows same)

theorem read_safe {ε : Type} (op : Op) (free : Harmless op) (s : System) :
    Safe discipline (fun _ _ => True) (.perform op : Program Op Op.Answer ε op.Answer) s :=
  harmless_safe (.perform free) s

-- The batch is given up before the program goes on.
theorem rolledBack_safe {α : Type} {Q : α → System → Prop} {next : Unit → Route α} (inv : Inv s)
    (rest : ∀ now, Safe discipline Q (next ()) now) :
    Safe discipline Q (rollbackAfterPrepareFailure id >>= next) s := by
  refine .bind inv (harmless_safe (rollbackAfterPrepareFailure_harmless id) s) ?_
  intro _ now _ _ _
  exact rest now

-- What a transaction establishes when it answers, whatever it answers.
theorem performed_safe {ε : Type} {t : Transaction} {Q : t.Result → System → Prop} (free : Harmless (.transact t))
    (ran : ∀ now m db result, Inv now → t.run m now.db = .ok (db,result) → Q result {now with db := db}) :
    Safe discipline (fun (answer : Except StoreError t.Result) now => ∀ result, answer = .ok result → Q result now)
      (.perform (Op.transact t) : Program Op Op.Answer ε (Except StoreError t.Result)) s := by
  intro now _ inv
  refine ⟨free now,fun c result answered => ?_⟩
  simp only [serve,System.transact] at answered ⊢
  cases run : t.run c.m now.db with
  | error failure =>
    rw [run] at answered
    cases answered
  | ok pair =>
    rw [run] at answered
    cases lost : c.lost with
    | none =>
      rw [lost] at answered
      cases answered
      exact ran now c.m pair.1 pair.2 inv run
    | some committed =>
      rw [lost] at answered
      cases answered

theorem transact_safe {t : Transaction} {Q : t.Result → System → Prop} (free : Harmless (.transact t)) (inv : Inv s)
    (ran : ∀ now m db result, Inv now → t.run m now.db = .ok (db,result) → Q result {now with db := db}) :
    Safe discipline Q (transact t) s := by
  refine .bind inv (performed_safe free ran) ?_
  intro answer now _ _ known
  exact .orFail (fun result same => known result same)

theorem evict_releases {m : Moment} {db next : Db} {blobId : BlobId} {toState : BlobState} {evicted : Bool}
    (valid : Consistent db) (ran : db.evictClaimedBlob m owner blobId id toState = .ok (next,evicted))
    {row : TrackingRow} (present : next.tracking.get? (owner,blobId) = some row) : row.batchId ≠ some id := by
  intro pointer
  simp only [Db.evictClaimedBlob,bind_ok,require_ok] at ran
  obtain ⟨terminal,_,ran⟩ := ran
  split at ran
  · rename_i none_
    cases ran
    refine none_ (Store.count_eq_one present ?_ ?_)
    · simp [claimed_by_state valid present pointer,pointer]
    · intro key other matched
      simp only [decide_eq_true_eq] at matched
      exact matched.1
  · cases ran
    rw [Store.get?_update,Option.map_eq_some_iff] at present
    obtain ⟨old,found,equal⟩ := present
    split at equal
    · subst equal
      cases pointer
    · rename_i unmatched
      subst equal
      simp [claimed_by_state valid found pointer,pointer] at unmatched

theorem evict_safe (inv : Inv s) (blobId : BlobId) (toState : BlobState) :
    Safe discipline (fun _ now => ¬Points now id (owner,blobId)) (transact (.evict owner blobId id toState)) s := by
  refine transact_safe (evict_free _ _ _ _) inv ?_
  intro now m db result inv ran ⟨row,present,pointer⟩
  exact evict_releases inv.consistent ran present pointer

theorem setClaimed_safe (inv : Inv s) (pairs : List (BlobId × ObjectId)) :
    Safe discipline (fun _ now => ∀ blobId row, now.db.tracking.get? (owner,blobId) = some row →
      row.batchId = some id → (pairs.lookup blobId).isSome → row.objectId.isSome)
      (transact (.setClaimedObjectIds owner id pairs)) s := by
  refine transact_safe (fun _ => trivial) inv ?_
  intro now m db result inv ran blobId row present pointer listed
  cases ran
  simp only [Store.get?_update,Option.map_eq_some_iff,decide_eq_true_eq] at present
  obtain ⟨old,found,equal⟩ := present
  split at equal
  · subst equal
    exact listed
  · rename_i unmatched
    subst equal
    have state := claimed_by_state inv.consistent found pointer
    cases known : old.objectId with
    | none => exact absurd ⟨trivial,listed,pointer,state,known⟩ unmatched
    | some objectId => rfl

end Calls

-- Object ids of the claimed rows

section Resolving
variable {s : System} {id : Uuid} {owner : Owner}

theorem ownedBlobs_harmless (fuel : Nat) (cursor : Option Cursor) (owned : List (BlobId × ObjectId)) :
    (ownedBlobs owner fuel cursor owned).Only Harmless := by
  induction fuel generalizing cursor owned with
  | zero => trivial
  | succ fuel ih =>
    refine .bind (.perform (fun _ => trivial)) (fun result => .bind (.orFail result) (fun page => ?_))
    cases page.2 with
    | none => trivial
    | some next =>
      dsimp only
      split
      · trivial
      · exact ih _ _

theorem evictUnowned_safe (rows : List (BlobId × TrackingRow)) (inv : Inv s) (claimed : Claimed s id owner) :
    Safe discipline (fun _ now => ∀ row ∈ rows, ¬Points now id (owner,row.1)) (evictUnowned owner id rows) s := by
  refine Safe.weaken (Safe.foldlM (I:=fun (seen : List (BlobId × TrackingRow)) (_ : List Excluded) now =>
    Claimed now id owner ∧ ∀ row ∈ seen, ¬Points now id (owner,row.1)) ?_ [] _ inv ⟨claimed,by simp⟩)
    (fun _ _ both => both.2)
  intro seen row excluded now _ inv both
  obtain ⟨claimed,gone⟩ := both
  refine .bind inv (evict_safe inv row.1 .notOwner) ?_
  intro evicted after since _ free
  refine ⟨claimed.later since,?_⟩
  intro other member
  rcases List.mem_append.mp member with earlier | here
  · exact fun points => gone other earlier (claimed.back since points)
  · rw [List.mem_singleton.mp here]
    exact free

theorem lookup_pairs {owned : List (BlobId × ObjectId)} {rows : List (BlobId × TrackingRow)} {blobId : BlobId}
    {row : TrackingRow} (member : (blobId,row) ∈ rows) (known : (owned.lookup blobId).isSome) :
    ((rows.filterMap (fun row => (owned.lookup row.1).map (fun id => (row.1,id)))).lookup blobId).isSome := by
  obtain ⟨objectId,found⟩ := Option.isSome_iff_exists.mp known
  rw [Option.isSome_iff_ne_none]
  intro none_
  rw [List.lookup_eq_none_iff] at none_
  have listed : (blobId,objectId) ∈ rows.filterMap (fun row => (owned.lookup row.1).map (fun id => (row.1,id))) :=
    List.mem_filterMap.mpr ⟨(blobId,row),member,by simp [found]⟩
  simpa using none_ (blobId,objectId) listed

-- Of the rows without an id, those the listing has get one before those it does
-- not have are evicted.
theorem evictUnowned_resolves {now : System} {owned : List (BlobId × ObjectId)}
    {unset : List (BlobId × TrackingRow)}
    (listed : unset = (s.db.batchBlobs id owner).filter (fun row => row.2.objectId.isNone))
    (start : Inv s) (claimed : Claimed s id owner) (since : Later s now) (inv : Inv now)
    (filled : ∀ blobId row, now.db.tracking.get? (owner,blobId) = some row → row.batchId = some id →
      ((unset.filterMap (fun row => (owned.lookup row.1).map (fun id => (row.1,id)))).lookup blobId).isSome →
      row.objectId.isSome) :
    Safe discipline (fun _ now => Resolved now id)
      (evictUnowned owner id (unset.filter (fun row => (owned.lookup row.1).isNone))) now := by
  have here := claimed.later since
  refine Safe.weaken (Safe.remember (evictUnowned_safe _ inv here)) ?_
  intro excluded after both key row present pointer
  obtain ⟨gone,more⟩ := both
  obtain ⟨mid,stored,between⟩ := here.back more ⟨row,present,pointer⟩
  obtain ⟨first,equal,member,found⟩ := points_listed start claimed (claimed.back since ⟨mid,stored,between⟩)
  have carried : ∀ {s : System} {old : TrackingRow} {objectId : ObjectId}, Later s after →
      s.db.tracking.get? key = some old → old.objectId = some objectId → row.objectId.isSome := by
    intro s old objectId later was known
    obtain ⟨new,there,kept⟩ := later.rows key old objectId was known
    rw [present] at there
    cases there
    rw [kept]
    rfl
  cases known : first.objectId with
  | some objectId => exact carried (Later.trans _ _ _ since more) found known
  | none =>
    have without : (key.2,first) ∈ unset := by
      rw [listed,List.mem_filter]
      exact ⟨member,by simp [known]⟩
    cases owns : owned.lookup key.2 with
    | none =>
      have evicted := gone (key.2,first) (List.mem_filter.mpr ⟨without,by simp [owns]⟩)
      rw [← equal] at evicted
      exact absurd ⟨row,present,pointer⟩ evicted
    | some objectId =>
      rw [equal] at stored
      have set := filled key.2 mid stored between (lookup_pairs without (by rw [owns]; rfl))
      rw [← equal] at stored
      obtain ⟨objectId,known⟩ := Option.isSome_iff_exists.mp set
      exact carried more stored known

-- Every row still claimed at the end had an id, got one from the listing, or
-- was not in the listing and is gone.
theorem resolveClaimedObjectIds_safe (pages : Nat) (inv : Inv s) (claimed : Claimed s id owner) :
    Safe discipline (fun _ now => Resolved now id) (resolveClaimedObjectIds pages owner id) s := by
  refine .bind inv (harmless_safe (ownedBlobs_harmless pages none []) s) ?_
  intro owned at₁ since₁ inv _
  refine .bind inv (batchBlobs_safe inv) ?_
  intro rows at₂ since₂ inv read
  have held := (claimed.later since₁).later since₂
  have start := inv
  subst read
  dsimp only
  split
  · refine .bind inv (setClaimed_safe inv _) ?_
    intro _ at₃ since₃ inv filled
    exact evictUnowned_resolves rfl start held since₃ inv filled
  · rename_i none_
    refine evictUnowned_resolves rfl start held (Later.refl at₂) inv ?_
    intro blobId row _ _ named
    rw [not_not.mp none_] at named
    cases named

theorem resolveClaimed_safe (pages : Nat) (inv : Inv s) (claimed : Claimed s id owner) :
    Safe discipline (fun _ now => Resolved now id) (resolveClaimed pages owner id (s.db.batchBlobs id owner)) s := by
  unfold resolveClaimed
  split
  · refine .bind inv (Safe.attempt (resolveClaimedObjectIds_safe pages inv claimed)) ?_
    intro result now _ inv known
    cases result with
    | ok excluded => exact known excluded rfl
    | error error => exact rolledBack_safe inv (fun _ => trivial)
  · rename_i all
    intro key row present pointer
    obtain ⟨first,equal,listed,found⟩ := points_listed inv claimed ⟨row,present,pointer⟩
    rw [found] at present
    cases present
    simp only [List.any_eq_true,not_exists,not_and,Option.isNone_iff_eq_none] at all
    exact Option.isSome_iff_ne_none.mpr (all (key.2,row) listed)

end Resolving

-- The objects behind the claimed rows

section Sorting
variable {s : System} {id : Uuid} {owner : Owner}

-- One answer for each id, and it is the object of that id.
def Fetched (ids : List ObjectId) (objects : List (Option ObjectInfo)) : Prop :=
  List.Forall₂ (fun id object => ∀ info, object = some info → info.objectId = id) ids objects

theorem objects_fetched {chain : Chain} (named : chain.Named) (ids : List ObjectId) :
    Fetched ids (ids.map chain.object) := by
  unfold Fetched
  rw [List.forall₂_map_right_iff,List.forall₂_same]
  intro id _ info found
  simp only [Chain.object,Option.bind_eq_some_iff] at found
  obtain ⟨revision,stored,live⟩ := found
  exact named id revision info stored live

theorem batchGetAll_safe {ε : Type} {convert : SuiErr → ε} (inv : Inv s) (ids : List ObjectId) :
    Safe discipline (fun objects _ => Fetched ids objects) (batchGetAll convert ids) s := by
  have whole : (chunks 100 ids).flatten = ids := chunks_flatten (by decide) ids
  refine Safe.weaken (Safe.foldlM (I:=fun (seen : List (List ObjectId)) objects _ => Fetched seen.flatten objects)
    ?_ [] [] inv .nil) ?_
  · intro seen part objects now _ inv fetched
    refine .bind (Q:=fun (answer : Except SuiErr (List (Option ObjectInfo))) _ => ∀ more, answer = .ok more →
      Fetched part more) inv ?_ ?_
    · intro now _ inv
      refine ⟨trivial,fun c more answered => ?_⟩
      simp only [serve,Choice.rpc] at answered
      split at answered
      · cases answered
      · rw [← Except.ok.inj answered]
        exact objects_fetched inv.named part
    · intro answer now _ inv known
      refine .bind (Q:=fun more _ => Fetched part more) inv (.orFail (fun more same => known more same)) ?_
      intro more now _ _ here
      change Fetched (seen ++ [part]).flatten (objects ++ more)
      rw [List.flatten_append,List.flatten_singleton]
      exact List.rel_append fetched here
  · intro objects _ fetched
    rw [List.nil_append,whole] at fetched
    exact fetched

theorem prepareRpc_safe {α : Type} {result : Except SuiErr α} {Q : α → System → Prop} (inv : Inv s)
    (ok : ∀ value, result = .ok value → Q value s) : Safe discipline Q (prepareRpc id result) s := by
  cases result with
  | ok value => exact ok value rfl
  | error error => exact rolledBack_safe inv (fun _ => trivial)

-- Objects that go into the transaction, and rows that are still claimed: each
-- row has its object among them, and each object is the one of its row.
structure Ready (s : System) (id : Uuid) (owner : Owner) (healthy : List ObjectInfo) : Prop where
  claimed : Claimed s id owner
  covers : ∀ key, Points s id key → ∃ info ∈ healthy, info.blobId = some key.2
  backed : ∀ info ∈ healthy, ∃ blobId row, info.blobId = some blobId ∧
    s.db.tracking.get? (owner,blobId) = some row ∧ row.objectId = some info.objectId

theorem Ready.later {now : System} {healthy : List ObjectInfo} (ready : Ready s id owner healthy)
    (since : Later s now) : Ready now id owner healthy := by
  refine ⟨ready.claimed.later since,fun key points => ready.covers key (ready.claimed.back since points),?_⟩
  intro info member
  obtain ⟨blobId,row,same,found,known⟩ := ready.backed info member
  obtain ⟨new,stored,kept⟩ := since.rows _ row _ found known
  exact ⟨blobId,new,same,stored,kept⟩

theorem verdict_none {walrusEpoch margin : Nat} {blobId : BlobId} {object : Option ObjectInfo}
    (healthy : claimedVerdict owner walrusEpoch margin blobId object = none) :
    ∃ info, object = some info ∧ info.blobId = some blobId := by
  cases object with
  | none => cases healthy
  | some info =>
    refine ⟨info,rfl,?_⟩
    unfold claimedVerdict at healthy
    dsimp only at healthy
    split at healthy
    · cases healthy
    · rename_i same
      rw [not_or,not_not] at same
      exact same.1

theorem sortClaimed_safe (walrusEpoch margin : Nat) (excluded : List Excluded)
    (pairs : List (BlobId × Option ObjectInfo)) (inv : Inv s) (claimed : Claimed s id owner) :
    Safe discipline (fun sorted now => (∀ pair ∈ pairs, Points now id (owner,pair.1) →
        ∃ info ∈ sorted.1, info.blobId = some pair.1) ∧
      ∀ info ∈ sorted.1, ∃ blobId, info.blobId = some blobId ∧ (blobId,some info) ∈ pairs)
      (sortClaimed owner id walrusEpoch margin excluded pairs) s := by
  refine Safe.weaken (Safe.foldlM (I:=fun (seen : List (BlobId × Option ObjectInfo))
    (sorted : List ObjectInfo × List Excluded) now => Claimed now id owner ∧
      (∀ pair ∈ seen, Points now id (owner,pair.1) → ∃ info ∈ sorted.1, info.blobId = some pair.1) ∧
      ∀ info ∈ sorted.1, ∃ blobId, info.blobId = some blobId ∧ (blobId,some info) ∈ seen)
    ?_ [] ([],excluded) inv ⟨claimed,by simp,by simp⟩) (fun _ _ all => all.2)
  intro seen pair sorted now _ inv held
  obtain ⟨claimed,left_,right_⟩ := held
  have kept : ∀ info ∈ sorted.1, ∃ blobId, info.blobId = some blobId ∧ (blobId,some info) ∈ seen ++ [pair] := by
    intro info member
    obtain ⟨blobId,same,listed⟩ := right_ info member
    exact ⟨blobId,same,List.mem_append_left _ listed⟩
  cases verdict : claimedVerdict owner walrusEpoch margin pair.1 pair.2 with
  | some terminal =>
    refine .bind inv (evict_safe inv pair.1 terminal.1) ?_
    intro evicted after since _ gone
    have still : ∀ other ∈ seen ++ [pair], Points after id (owner,other.1) →
        ∃ info ∈ sorted.1, info.blobId = some other.1 := by
      intro other member points
      rcases List.mem_append.mp member with earlier | here
      · exact left_ other earlier (claimed.back since points)
      · rw [List.mem_singleton.mp here] at points
        exact absurd points gone
    cases evicted with
    | true => exact ⟨claimed.later since,still,kept⟩
    | false => exact ⟨claimed.later since,still,kept⟩
  | none =>
    obtain ⟨info,object,same⟩ := verdict_none verdict
    have listed : info ∈ sorted.1 ++ pair.2.toList := by
      rw [object]
      simp
    refine ⟨claimed,?_,?_⟩
    · intro other member points
      rcases List.mem_append.mp member with earlier | here
      · obtain ⟨found,among,named⟩ := left_ other earlier points
        exact ⟨found,List.mem_append_left _ among,named⟩
      · rw [List.mem_singleton.mp here]
        exact ⟨info,listed,same⟩
    · intro found member
      rcases List.mem_append.mp member with earlier | here
      · exact kept found earlier
      · rw [object] at here
        simp only [Option.toList_some,List.mem_singleton] at here
        subst here
        exact ⟨pair.1,same,List.mem_append_right _ (by rw [← object]; exact List.mem_singleton_self _)⟩

end Sorting

-- Storing the transaction

section Storing
variable {s : System} {id : Uuid} {owner : Owner} {healthy : List ObjectInfo}

-- Two lists read off one list are related where their origins are.
theorem forall₂_common {α β γ : Type} {R : α → β → Prop} {S : α → γ → Prop} {T : β → γ → Prop} {xs : List α}
    {ys : List β} {zs : List γ} (one : List.Forall₂ R xs ys) (two : List.Forall₂ S xs zs)
    (both : ∀ x ∈ xs, ∀ y z, R x y → S x z → T y z) : List.Forall₂ T ys zs := by
  induction one generalizing zs with
  | nil =>
    cases two
    exact .nil
  | cons here _ ih =>
    cases two with
    | cons there rest =>
      exact .cons (both _ List.mem_cons_self _ _ here there)
        (ih rest (fun x member => both x (List.mem_cons_of_mem _ member)))

theorem prepared_allowed {epoch nonce : Nat} {built : BuiltTx} (ready : Ready s id owner healthy)
    (made : built.Matches healthy epoch nonce) : Allowed s (.transact (.setPrepared id built.digest built.txBytes
      built.inputBlobIds healthy.length built.nonce built.expireEpoch)) := by
  obtain ⟨ordered,perm,blobIds,objects⟩ := made.inputs
  refine ⟨made.digest,made.epoch.2.trans made.epoch.1.symm,made.nonce.2.trans made.nonce.1.symm,?_,?_⟩
  · exact perm.length_eq.symm.trans blobIds.length_eq
  intro batch found
  obtain ⟨other,same,rfl⟩ := ready.claimed
  rw [found] at same
  cases same
  refine ⟨forall₂_common blobIds objects ?_,?_⟩
  · intro info member blobId input named address
    obtain ⟨_,row,same,present,known⟩ := ready.backed info (perm.mem_iff.mp member)
    rw [named] at same
    cases same
    exact ⟨row,info.objectId,present,known,address⟩
  · intro key row present pointer
    obtain ⟨info,member,named⟩ := ready.covers key ⟨row,present,pointer⟩
    have columns : ordered.map ObjectInfo.blobId = built.inputBlobIds.map some := by
      rw [← List.forall₂_eq_eq_eq,List.forall₂_map_left_iff,List.forall₂_map_right_iff]
      exact blobIds
    have listed : some key.2 ∈ built.inputBlobIds.map some := by
      rw [← columns,← named]
      exact List.mem_map_of_mem (perm.mem_iff.mpr member)
    simpa using listed

theorem storePrepared_safe (sponsor : Owner) (package : String) (system : SharedObjectInfo) (epoch gasPrice : Nat)
    (chain : Bytes) (offsets : List Nat) (inv : Inv s) (ready : Ready s id owner healthy) :
    Safe discipline (fun _ _ => True)
      (storePrepared owner sponsor id healthy package system epoch gasPrice chain offsets) s := by
  induction offsets generalizing s with
  | nil => exact rolledBack_safe inv (fun _ => trivial)
  | cons offset rest ih =>
    unfold storePrepared
    split
    · exact rolledBack_safe inv (fun _ => trivial)
    · rename_i built made
      refine .bind (Q:=fun _ _ => True) inv ?_ ?_
      · intro now since _
        exact ⟨prepared_allowed (ready.later since) (buildDeleteTx_ok made),fun _ => trivial⟩
      · intro stored now since inv _
        split
        · trivial
        · trivial
        · exact ih inv (ready.later since)
        · exact rolledBack_safe inv (fun _ => trivial)

theorem asked_safe {α : Type} (result : Except SuiErr α) (inv : Inv s) :
    Safe discipline (fun _ _ => True) (prepareRpc id result) s := prepareRpc_safe inv (fun _ _ => trivial)

theorem prepareHealthy_safe (cfg : Config) (suiEpoch : Nat) (excluded : List Excluded) (inv : Inv s)
    (ready : Ready s id owner healthy) :
    Safe discipline (fun _ _ => True) (prepareHealthy cfg owner id suiEpoch healthy excluded) s := by
  refine .bind inv (read_safe .walrusSystemObject (fun _ => trivial) _) ?_
  intro system _ since₁ inv _
  refine .bind inv (asked_safe system inv) ?_
  intro system _ since₂ inv _
  refine .bind inv (read_safe .referenceGasPrice (fun _ => trivial) _) ?_
  intro gasPrice _ since₃ inv _
  refine .bind inv (asked_safe gasPrice inv) ?_
  intro gasPrice _ since₄ inv _
  refine .bind inv (read_safe .chainId (fun _ => trivial) _) ?_
  intro chain _ since₅ inv _
  refine .bind inv (asked_safe chain inv) ?_
  intro chain _ since₆ inv _
  refine .bind (Q:=fun _ _ => True) inv (.orFail (fun _ _ => trivial)) ?_
  intro key now since₇ inv _
  cases key.address with
  | none => exact rolledBack_safe inv (fun _ => trivial)
  | some sponsor =>
    have still := ((((((ready.later since₁).later since₂).later since₃).later since₄).later since₅).later since₆).later
      since₇
    refine .bind inv (storePrepared_safe sponsor _ system suiEpoch gasPrice chain _ inv still) ?_
    intro _ _ _ _ _
    trivial

end Storing

-- The route

section Claiming
variable {s : System} {id : Uuid} {owner : Owner}

theorem createSelection_claims {m : Moment} {db next : Db} {blobIds : List BlobId} {cap : Int}
    {rows : List (BlobId × TrackingRow)}
    (ran : db.createBatchAndClaimSelection m owner id blobIds cap = .ok (next,rows)) :
    (∃ batch, next.batches.get? id = some batch ∧ batch.owner = owner) ∧ rows = next.batchBlobs id owner := by
  simp only [Db.createBatchAndClaimSelection,bind_ok,ensure_ok,exists_const,pure_ok] at ran
  obtain ⟨_,_,fresh,inserted,_,made,recorded,equal⟩ := ran
  cases equal
  exact ⟨⟨_,(claimed_batches inserted recorded id).trans (if_pos rfl),rfl⟩,rfl⟩

theorem createAll_claims {m : Moment} {db next : Db} {max : Nat} {cap : Int} {rows : List (BlobId × TrackingRow)}
    (ran : db.createBatchAndClaimAll m owner id max cap = .ok (next,rows)) (some_ : rows ≠ []) :
    (∃ batch, next.batches.get? id = some batch ∧ batch.owner = owner) ∧ rows = next.batchBlobs id owner := by
  simp only [Db.createBatchAndClaimAll,bind_ok] at ran
  obtain ⟨_,_,fresh,inserted,ran⟩ := ran
  split at ran
  · cases ran
    exact absurd rfl some_
  · simp only [bind_ok,pure_ok] at ran
    obtain ⟨made,recorded,equal⟩ := ran
    cases equal
    exact ⟨⟨_,(claimed_batches inserted recorded id).trans (if_pos rfl),rfl⟩,rfl⟩

theorem claim_safe (cfg : Config) (selection : Option (List BlobId)) (inv : Inv s) :
    Safe discipline (fun rows now => rows ≠ [] → Claimed now id owner ∧ rows = now.db.batchBlobs id owner)
      (claim cfg owner id selection) s := by
  cases selection with
  | some ids =>
    refine .bind inv (performed_safe (fun _ => trivial) ?_) (fun answer now _ _ known => .orFail (known · ·))
    intro now m db rows _ ran _
    exact createSelection_claims ran
  | none =>
    refine .bind inv (performed_safe (fun _ => trivial) ?_) (fun answer now _ _ known => .orFail (known · ·))
    intro now m db rows _ ran some_
    exact createAll_claims ran some_

theorem ready_of_sorted {now : System} {objects : List (Option ObjectInfo)} {healthy : List ObjectInfo}
    {known : List (BlobId × ObjectId)}
    (listed : known = (s.db.batchBlobs id owner).filterMap (fun row => row.2.objectId.map (fun id => (row.1,id))))
    (inv : Inv s) (claimed : Claimed s id owner) (resolved : Resolved s id) (since : Later s now)
    (fetched : Fetched (known.map Prod.snd) objects)
    (covers : ∀ pair ∈ (known.map Prod.fst).zip objects, Points now id (owner,pair.1) →
      ∃ info ∈ healthy, info.blobId = some pair.1)
    (backed : ∀ info ∈ healthy, ∃ blobId, info.blobId = some blobId ∧
      (blobId,some info) ∈ (known.map Prod.fst).zip objects) : Ready now id owner healthy := by
  refine ⟨claimed.later since,?_,?_⟩
  · intro key points
    obtain ⟨row,equal,member,found⟩ := points_listed inv claimed (claimed.back since points)
    obtain ⟨other,present,pointer⟩ := claimed.back since points
    rw [found] at present
    cases present
    obtain ⟨objectId,set⟩ := Option.isSome_iff_exists.mp (resolved key row found pointer)
    have here : key.2 ∈ known.map Prod.fst := by
      rw [listed]
      exact List.mem_map.mpr ⟨(key.2,objectId),List.mem_filterMap.mpr ⟨(key.2,row),member,by simp [set]⟩,rfl⟩
    have lengths : (known.map Prod.fst).length ≤ objects.length := by
      have equal := fetched.length_eq
      rw [List.length_map] at equal ⊢
      exact Nat.le_of_eq equal
    rw [← List.map_fst_zip lengths] at here
    obtain ⟨pair,among,same⟩ := List.mem_map.mp here
    rw [← same]
    refine covers pair among ?_
    rw [same,← equal]
    exact points
  · intro info member
    obtain ⟨blobId,same,among⟩ := backed info member
    rw [List.zip_map_left,List.mem_map] at among
    obtain ⟨⟨pair,object⟩,zipped,equal⟩ := among
    cases equal
    rw [Fetched,List.forall₂_map_left_iff] at fetched
    have objectId := List.forall₂_zip fetched zipped info rfl
    have origin := (List.of_mem_zip zipped).1
    rw [listed,List.mem_filterMap] at origin
    obtain ⟨⟨other,row⟩,stored,made⟩ := origin
    obtain ⟨_,known,rfl⟩ := Option.map_eq_some_iff.mp made
    obtain ⟨new,after,kept⟩ := since.rows _ row _ (mem_blobsWhere.mp stored).1 known
    exact ⟨other,new,same,after,by rw [kept,objectId]⟩

theorem prepareClaimed_safe (cfg : Config) (pages : Nat) (inv : Inv s) (claimed : Claimed s id owner) :
    Safe discipline (fun _ _ => True) (prepareClaimed cfg pages owner id (s.db.batchBlobs id owner)) s := by
  unfold prepareClaimed
  split
  · trivial
  refine .bind inv (resolveClaimed_safe pages inv claimed) ?_
  intro excluded at₁ since₁ inv resolved
  refine .bind inv (batchBlobs_safe inv) ?_
  intro rows at₂ since₂ inv read
  have held := (claimed.later since₁).later since₂
  have resolved := resolved.later (claimed.later since₁) since₂
  have start := inv
  subst read
  refine .bind inv (read_safe .walrusEpoch (fun _ => trivial) _) ?_
  intro walrusEpoch _ since₃ inv _
  refine .bind inv (asked_safe walrusEpoch inv) ?_
  intro walrusEpoch _ since₄ inv _
  refine .bind inv (read_safe .currentEpoch (fun _ => trivial) _) ?_
  intro suiEpoch _ since₅ inv _
  refine .bind inv (asked_safe suiEpoch inv) ?_
  intro suiEpoch _ since₆ inv _
  refine .bind inv (Safe.attempt (batchGetAll_safe inv _)) ?_
  intro result _ since₇ inv answered
  refine .bind inv (prepareRpc_safe (Q:=fun objects _ => Fetched _ objects) inv answered) ?_
  intro objects at₈ since₈ inv fetched
  have moved : Later at₂ at₈ := Later.trans _ _ _ since₃ (Later.trans _ _ _ since₄ (Later.trans _ _ _ since₅
    (Later.trans _ _ _ since₆ (Later.trans _ _ _ since₇ since₈))))
  refine .bind inv (sortClaimed_safe walrusEpoch cfg.expiryMarginEpochs excluded _ inv (held.later moved)) ?_
  intro sorted now since₉ inv both
  have ready := ready_of_sorted rfl start held resolved (Later.trans _ _ _ moved since₉) fetched both.1 both.2
  split
  · exact rolledBack_safe inv (fun _ => trivial)
  · exact prepareHealthy_safe cfg suiEpoch sorted.2 inv ready

theorem prepareDeletion_safe (cfg : Config) (pages : Nat) (request : PrepareRequest) (inv : Inv s) :
    Safe discipline (fun _ _ => True) (prepareDeletion cfg pages owner request) s := by
  refine .bind (Q:=fun _ _ => True) inv (.orFail (fun _ _ => trivial)) ?_
  intro selection _ _ inv _
  refine .bind inv (read_safe (.countDeletable owner) (fun _ => trivial) _) ?_
  intro counted _ _ inv _
  refine .bind (Q:=fun _ _ => True) inv (.orFail (fun _ _ => trivial)) ?_
  intro deletable _ _ inv _
  split
  · trivial
  · refine .bind inv (read_safe (.rateLimit owner) (fun _ => trivial) _) ?_
    intro allowed _ _ inv _
    refine .bind (Q:=fun _ _ => True) inv (.orFail (fun _ _ => trivial)) ?_
    intro _ _ _ inv _
    refine .bind inv (read_safe .newUuid (fun _ => trivial) _) ?_
    intro id _ _ inv _
    refine .bind inv (claim_safe cfg selection inv) ?_
    intro rows now _ inv claimed
    split
    · trivial
    · rename_i some_
      obtain ⟨held,read⟩ := claimed some_
      subst read
      refine .bind inv (Safe.cutOff (read_safe .budgetSpent (fun _ => trivial)) (prepareClaimed_safe cfg pages inv held)) ?_
      intro response _ _ inv _
      cases response with
      | some response => trivial
      | none => exact rolledBack_safe inv (fun _ => trivial)

end Claiming
end MemWal.SecurityDelete
