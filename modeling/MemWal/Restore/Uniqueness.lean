import Mathlib.Data.List.Dedup
import MemWal.Restore.Conduct

namespace MemWal.Restore
open Library
open Blobs (Text OnChainBlob)

-- No blob id has two rows of the owner in the namespace.
def Distinct (owner ns : Text) (s : World) : Prop := ∀ i j row row', s.rows.get? i = some row → s.rows.get? j = some row' →
  World.belongs owner ns row = true → World.belongs owner ns row' = true → row.blobId = row'.blobId → i = j

def Indexed (owner ns blobId : Text) (s : World) : Prop :=
  ∃ i row, s.rows.get? i = some row ∧ World.belongs owner ns row = true ∧ row.blobId = blobId

def Choice.lands (c : Choice) : Bool :=
  match c.fault with
  | some (.before _) => false
  | _ => true

section Statements
variable {owner ns blobId : Text} {s : World}

theorem mem_blobIds : blobId ∈ s.blobIds owner ns ↔ Indexed owner ns blobId s := by
  simp only [World.blobIds,List.mem_dedup,List.mem_map,List.mem_filter]
  constructor
  · intro given
    obtain ⟨⟨i,row⟩,⟨member,own⟩,rfl⟩ := given
    exact ⟨i,row,Store.get?_eq_some.mpr member,own,rfl⟩
  · intro given
    obtain ⟨i,row,found,own,rfl⟩ := given
    exact ⟨(i,row),⟨Store.get?_eq_some.mp found,own⟩,rfl⟩

theorem newId_fresh (s : World) : s.rows.get? s.newId = none := by
  have bound : ∀ keys : List Nat, ∀ k ∈ keys, k ≤ keys.foldr max 0 := by
    intro keys
    induction keys with
    | nil => exact fun _ member => nomatch member
    | cons first rest ih =>
      intro k member
      rcases List.mem_cons.mp member with rfl | later
      · exact Nat.le_max_left _ _
      · exact Nat.le_trans (ih k later) (Nat.le_max_right _ _)
  apply Store.get?_eq_none.mpr
  intro member
  have := bound s.rows.keys s.newId member
  unfold World.newId at this
  omega

theorem get?_insertVector (s : World) (row : VectorRow) (i : Nat) :
    (s.insertVector row).rows.get? i = if i = s.newId then some row else s.rows.get? i := by
  simp [World.insertVector,Store.get?_upsert]

theorem get?_deleteByBlobId (s : World) (blobId owner ns : Text) (i : Nat) (row : VectorRow) :
    (s.deleteByBlobId blobId owner ns).rows.get? i = some row ↔
      s.rows.get? i = some row ∧ ¬ (row.blobId = blobId ∧ World.belongs owner ns row = true) := by
  rw [World.deleteByBlobId,Store.get?_keep]
  simp only [Bool.not_eq_true',Bool.and_eq_false_iff,decide_eq_false_iff_not,not_and,Bool.not_eq_true,
    imp_iff_not_or]

theorem fallible_state {α : Type} (s next : World) (answer : α) (c : Choice) :
    (fallible s next answer c.fault).1 = if c.lands = true then next else s := by
  unfold Choice.lands
  cases c.fault with
  | none => rfl
  | some fault => cases fault <;> rfl

-- The statements that change rows.
theorem serve_rows (s : World) (op : Op) (c : Choice) : (serve s op c).1.rows = s.rows ∨
    (∃ row, op = .insertVector row ∧ c.lands = true ∧ (serve s op c).1.rows = (s.insertVector row).rows) ∨
    ∃ blobId owner ns, op = .deleteByBlobId blobId owner ns ∧ c.lands = true ∧
      (serve s op c).1.rows = (s.deleteByBlobId blobId owner ns).rows := by
  cases op with
  | insertVector row =>
    rw [serve,fallible_state]
    split
    · rename_i lands
      exact .inr (.inl ⟨row,rfl,lands,rfl⟩)
    · exact .inl rfl
  | deleteByBlobId blobId owner ns =>
    rw [serve,fallible_state]
    split
    · rename_i lands
      exact .inr (.inr ⟨blobId,owner,ns,rfl,lands,rfl⟩)
    · exact .inl rfl
  | recordRestoreFailure owner ns blobId reason =>
    rw [serve,fallible_state]
    split <;> exact .inl rfl
  | getBlobsByNamespace owner ns =>
    rw [serve,fallible_state]
    split <;> exact .inl rfl
  | getFailedBlobIds owner ns =>
    rw [serve,fallible_state]
    split <;> exact .inl rfl
  | checkRestoreCallRateLimit owner => exact .inl rfl
  | queryBlobsByOwner owner ns packageId limit => exact .inl rfl
  | completions count => exact .inl rfl
  | downloadBlob blobId => exact .inl rfl
  | sealDecrypt data credential packageId policyPackageId registryId accountId => exact .inl rfl
  | embed text => exact .inl rfl

theorem Distinct.insert {row : VectorRow} (distinct : Distinct owner ns s)
    (new : World.belongs owner ns row = true → ¬ Indexed owner ns row.blobId s) :
    Distinct owner ns (s.insertVector row) := by
  intro i j first second found found' own own' same
  rw [get?_insertVector] at found found'
  split at found
  · rename_i here
    cases found
    split at found'
    · rename_i there
      exact here.trans there.symm
    · exact absurd ⟨j,second,found',own',same.symm⟩ (new own)
  · split at found'
    · cases found'
      exact absurd ⟨i,first,found,own,same⟩ (new own')
    · exact distinct i j first second found found' own own' same

theorem Distinct.delete {blobId' owner' ns' : Text} (distinct : Distinct owner ns s) :
    Distinct owner ns (s.deleteByBlobId blobId' owner' ns') := by
  intro i j first second found found'
  rw [get?_deleteByBlobId] at found found'
  exact distinct i j first second found.1 found'.1

theorem not_distinct {row : VectorRow} (there : Indexed owner ns row.blobId s) (own : World.belongs owner ns row = true) :
    ¬ Distinct owner ns (s.insertVector row) := by
  intro distinct
  obtain ⟨i,old,found,own',same⟩ := there
  have other : i ≠ s.newId := by
    intro equal
    obtain rfl := equal
    rw [newId_fresh] at found
    cases found
  refine other (distinct i s.newId old row ?_ ?_ own' own same)
  · rw [get?_insertVector,if_neg other,found]
  · rw [get?_insertVector,if_pos rfl]

theorem belongs_place {row : VectorRow} {owner' ns' : Text} (own : World.belongs owner ns row = true)
    (own' : World.belongs owner' ns' row = true) : owner' = owner ∧ ns' = ns := by
  simp only [World.belongs,Bool.and_eq_true,decide_eq_true_eq] at own own'
  exact ⟨own'.1.symm.trans own.1,own'.2.symm.trans own.2⟩

end Statements

-- Restore calls, any number of them, over one database.
def crew (config : Config) : Crew Op Answer World Choice AppError RestoreResponse (AuthInfo × RestoreRequest) Empty where
  service := ⟨fun s _ op c => serve s op c,fun s _ => s⟩
  program request := restore config request.1 request.2
  happen s _ := s

section Runs
variable (config : Config) (w : Pool World (Handler RestoreResponse))
variable (moves : List (Move (AuthInfo × RestoreRequest) Choice Empty))

def at_ (p : Nat) : World := (Runs.before (crew config).exec w moves p).shared

-- The call that is served at a position of the run.
def callAt (p : Nat) : Option (Nat × Op × Choice) :=
  moves[p]?.bind (Crew.served (Runs.before (crew config).exec w moves p))

def Inserts (owner ns blobId : Text) (p : Nat) : Prop :=
  ∃ worker row c, callAt config w moves p = some (worker,.insertVector row,c) ∧ c.lands = true ∧
    World.belongs owner ns row = true ∧ row.blobId = blobId

def Deletes (owner ns blobId : Text) (p : Nat) : Prop :=
  ∃ worker c, callAt config w moves p = some (worker,.deleteByBlobId blobId owner ns,c) ∧ c.lands = true

-- The insertion at `p` comes after another one of the same blob id that its own
-- call, which had read the existing ids before, cannot know of.
structure Overtaken (owner ns : Text) (p : Nat) : Prop where
  overtakes : ∃ worker i request q row c c', Crew.MadeAt (crew config) w moves worker i request p (.insertVector row) c ∧
    c.lands = true ∧ World.belongs owner ns row = true ∧
    Crew.MadeAt (crew config) w moves worker i request q (.getBlobsByNamespace owner ns) c' ∧
    ∃ r, q < r ∧ r < p ∧ Inserts config w moves owner ns row.blobId r ∧
      ∀ t, r < t → t < p → ¬ Deletes config w moves owner ns row.blobId t

variable {config w moves} {owner ns blobId : Text}

theorem callAt_made {worker i p : Nat} {request : AuthInfo × RestoreRequest} {op : Op} {c : Choice}
    (made : Crew.MadeAt (crew config) w moves worker i request p op c) : callAt config w moves p = some (worker,op,c) := by
  obtain ⟨move,found,call⟩ := made.serves
  rw [callAt,found]
  exact call

theorem step_rows (p : Nat) : (at_ config w moves (p+1)).rows = (at_ config w moves p).rows ∨
    (∃ worker row c, callAt config w moves p = some (worker,.insertVector row,c) ∧ c.lands = true ∧
      (at_ config w moves (p+1)).rows = ((at_ config w moves p).insertVector row).rows) ∨
    ∃ worker blobId owner ns c, callAt config w moves p = some (worker,.deleteByBlobId blobId owner ns,c) ∧ c.lands = true ∧
      (at_ config w moves (p+1)).rows = ((at_ config w moves p).deleteByBlobId blobId owner ns).rows := by
  rcases @Crew.shared_step _ _ _ _ _ _ _ _ (crew config) w moves p with ⟨worker,op,c,call,next⟩ | ⟨_,⟨_,next⟩ | ⟨event,_⟩ | next⟩
  · have rows := serve_rows (at_ config w moves p) op c
    rw [show (serve (at_ config w moves p) op c).1 = at_ config w moves (p+1) from next.symm] at rows
    rcases rows with same | ⟨row,rfl,lands,inserted⟩ | ⟨blobId,owner,ns,rfl,lands,deleted⟩
    · exact .inl same
    · exact .inr (.inl ⟨worker,row,c,call,lands,inserted⟩)
    · exact .inr (.inr ⟨worker,blobId,owner,ns,c,call,lands,deleted⟩)
  · exact .inl (congrArg World.rows next)
  · exact nomatch event
  · exact .inl (congrArg World.rows next)

-- Uniqueness and presence only look at the rows.
theorem distinct_congr {s s' : World} (same : s'.rows = s.rows) : Distinct owner ns s' ↔ Distinct owner ns s := by
  unfold Distinct
  rw [same]

theorem indexed_congr {s s' : World} (same : s'.rows = s.rows) : Indexed owner ns blobId s' ↔ Indexed owner ns blobId s := by
  unfold Indexed
  rw [same]

theorem indexed_stays {p : Nat} (there : Indexed owner ns blobId (at_ config w moves p))
    (kept : ¬ Deletes config w moves owner ns blobId p) : Indexed owner ns blobId (at_ config w moves (p+1)) := by
  rcases @step_rows config w moves p with same | ⟨_,row,_,_,_,inserted⟩ |
    ⟨worker,blobId',owner',ns',c,call,lands,deleted⟩
  · exact (indexed_congr same).mpr there
  · obtain ⟨i,old,found,own,rfl⟩ := there
    refine (indexed_congr inserted).mpr ⟨i,old,?_,own,rfl⟩
    rw [get?_insertVector,if_neg,found]
    intro equal
    obtain rfl := equal
    rw [newId_fresh] at found
    cases found
  · obtain ⟨i,old,found,own,rfl⟩ := there
    refine (indexed_congr deleted).mpr ⟨i,old,?_,own,rfl⟩
    rw [get?_deleteByBlobId]
    refine ⟨found,?_⟩
    intro given
    obtain ⟨rfl,own'⟩ := given
    obtain ⟨rfl,rfl⟩ := belongs_place own own'
    exact kept ⟨worker,c,call,lands⟩

theorem indexed_kept {q p : Nat} (order : q ≤ p) (there : Indexed owner ns blobId (at_ config w moves q))
    (kept : ∀ t, q ≤ t → t < p → ¬ Deletes config w moves owner ns blobId t) :
    Indexed owner ns blobId (at_ config w moves p) := by
  induction order with
  | refl => exact there
  | @step p order ih =>
    have here := ih (fun t low high => kept t low (Nat.lt_succ_of_lt high))
    exact indexed_stays here (kept p order (Nat.lt_succ_self p))

theorem at_next {p worker : Nat} {op : Op} {c : Choice} (call : callAt config w moves p = some (worker,op,c)) :
    at_ config w moves (p+1) = (serve (at_ config w moves p) op c).1 := by
  rcases @Crew.shared_step _ _ _ _ _ _ _ _ (crew config) w moves p with ⟨worker',op',c',call',next⟩ | ⟨none_,_⟩
  · cases call.symm.trans call'
    exact next
  · cases call.symm.trans none_

theorem not_indexed_after {p : Nat} (deletes : Deletes config w moves owner ns blobId p) :
    ¬ Indexed owner ns blobId (at_ config w moves (p+1)) := by
  obtain ⟨worker,c,call,lands⟩ := deletes
  intro given
  obtain ⟨i,row,found,own,same⟩ := given
  rw [at_next call,serve,fallible_state,if_pos lands,get?_deleteByBlobId] at found
  exact found.2 ⟨same,own⟩

theorem inserts_of_new {p : Nat} (absent : ¬ Indexed owner ns blobId (at_ config w moves p))
    (there : Indexed owner ns blobId (at_ config w moves (p+1))) : Inserts config w moves owner ns blobId p := by
  rcases @step_rows config w moves p with same | ⟨worker,row,c,call,lands,inserted⟩ |
    ⟨worker,blobId',owner',ns',c,call,lands,deleted⟩
  · exact absurd ((indexed_congr same).mp there) absent
  · obtain ⟨i,found_,found,own,same⟩ := (indexed_congr inserted).mp there
    rw [get?_insertVector] at found
    split at found
    · cases found
      exact ⟨worker,row,c,call,lands,own,same⟩
    · exact absurd ⟨i,found_,found,own,same⟩ absent
  · obtain ⟨i,row,found,own,same⟩ := (indexed_congr deleted).mp there
    rw [get?_deleteByBlobId] at found
    exact absurd ⟨i,row,found.1,own,same⟩ absent

-- A blob id that has come into the index was inserted, and not deleted since.
theorem indexed_since {q p : Nat} (order : q ≤ p) (absent : ¬ Indexed owner ns blobId (at_ config w moves q))
    (there : Indexed owner ns blobId (at_ config w moves p)) :
    ∃ r, q ≤ r ∧ r < p ∧ Inserts config w moves owner ns blobId r ∧
      ∀ t, r < t → t < p → ¬ Deletes config w moves owner ns blobId t := by
  induction order with
  | refl => exact absurd there absent
  | @step p order ih =>
    by_cases before : Indexed owner ns blobId (at_ config w moves p)
    · obtain ⟨r,low,high,inserts,kept⟩ := ih before
      refine ⟨r,low,Nat.lt_succ_of_lt high,inserts,?_⟩
      intro t after less deletes
      rcases Nat.lt_or_eq_of_le (Nat.le_of_lt_succ less) with earlier | rfl
      · exact kept t after earlier deletes
      · exact not_indexed_after deletes there
    · refine ⟨p,order,Nat.lt_succ_self p,inserts_of_new before there,?_⟩
      intro t after less
      omega

-- An insertion with the reads it rests on.
theorem made_grounds {worker i p : Nat} {request : AuthInfo × RestoreRequest} {row : VectorRow} {c : Choice}
    (made : Crew.MadeAt (crew config) w moves worker i request p (.insertVector row) c) :
    row.owner = request.1.owner ∧ row.ns = request.2.ns ∧
    ∃ query q₁ read q₂ cached q₃ blobs sourceCapped,
      Crew.MadeAt (crew config) w moves worker i request query
        (.queryBlobsByOwner row.owner row.ns config.packageId (clampRestoreLimit request.2.limit)) q₁ ∧
      q₁.query row.owner row.ns config.packageId (clampRestoreLimit request.2.limit) = .answered blobs sourceCapped ∧
      Crew.MadeAt (crew config) w moves worker i request read (.getBlobsByNamespace row.owner row.ns) q₂ ∧ read < p ∧
      Crew.MadeAt (crew config) w moves worker i request cached (.getFailedBlobIds row.owner row.ns) q₃ ∧ cached < p ∧
      row.blobId ∈ blobs.map OnChainBlob.blobId ∧ ¬ Indexed row.owner row.ns row.blobId (at_ config w moves read) ∧
      row.blobId ∉ (at_ config w moves cached).failedIds row.owner row.ns ∧
      ((∃ r row' c', r < p ∧ Crew.MadeAt (crew config) w moves worker i request r (.insertVector row') c' ∧
        row'.blobId = row.blobId) → ¬ (blobs.map OnChainBlob.blobId).Nodup) := by
  obtain ⟨calls,ran,located,complete,_⟩ := made.calls
  obtain ⟨⟨own,named⟩,query,inQuery,read,inRead,cached,inCached,blobs,sourceCapped,asked,answered,reads,caches,listed,
    absent,uncached,once⟩ := grounds ran rfl
  rw [← own,← named] at asked answered reads caches absent uncached
  obtain ⟨x,_,_,madeQuery⟩ := located query inQuery
  obtain ⟨y,lessRead,stateRead,madeRead⟩ := located read inRead
  obtain ⟨z,lessCached,stateCached,madeCached⟩ := located cached inCached
  rw [asked] at madeQuery
  rw [reads] at madeRead
  rw [caches] at madeCached
  refine ⟨own,named,x,_,y,_,z,_,blobs,sourceCapped,madeQuery,answered,madeRead,lessRead,madeCached,lessCached,listed,
    ?_,?_,?_⟩
  · rw [← mem_blobIds]
    rw [stateRead] at absent
    exact absent
  · rw [stateCached] at uncached
    exact uncached
  · intro found
    obtain ⟨r,row',c',less,made',same⟩ := found
    exact once ⟨_,complete r _ c' less made',row',rfl,same⟩

theorem not_distinct_after {p : Nat} (overtaken : Overtaken config w moves owner ns p) :
    ¬ Distinct owner ns (at_ config w moves (p+1)) := by
  obtain ⟨worker,i,request,q,row,c,c',made,lands,own,_,r,_,less,inserts,kept⟩ := overtaken.overtakes
  have arrived : Indexed owner ns row.blobId (at_ config w moves (r+1)) := by
    obtain ⟨worker',row',c'',call,lands',own',same⟩ := inserts
    refine ⟨(at_ config w moves r).newId,row',?_,own',same⟩
    rw [at_next call,serve,fallible_state,if_pos lands',get?_insertVector,if_pos rfl]
  have there := indexed_kept less arrived (fun t low high => kept t low high)
  rw [at_next (callAt_made made),serve,fallible_state,if_pos lands]
  exact not_distinct there own

theorem overtaken_of_indexed {p worker i : Nat} {request : AuthInfo × RestoreRequest} {row : VectorRow} {c : Choice}
    (made : Crew.MadeAt (crew config) w moves worker i request p (.insertVector row) c) (lands : c.lands = true)
    (own : World.belongs owner ns row = true) (there : Indexed owner ns row.blobId (at_ config w moves p)) :
    Overtaken config w moves owner ns p := by
  obtain ⟨_,_,_,_,q,q₂,_,_,_,_,_,_,madeRead,less,_,_,_,absent,_⟩ := made_grounds made
  obtain ⟨rfl,rfl⟩ : row.owner = owner ∧ row.ns = ns := by simpa [World.belongs] using own
  obtain ⟨r,low,high,inserts,kept⟩ := indexed_since (Nat.le_of_lt less) absent there
  have later : q < r := by
    refine Nat.lt_of_le_of_ne low ?_
    intro same
    obtain rfl := same
    obtain ⟨_,_,_,call,_⟩ := inserts
    cases call.symm.trans (callAt_made madeRead)
  exact ⟨worker,i,request,q,row,c,q₂,made,lands,own,madeRead,r,later,high,inserts,kept⟩

theorem distinct_next (idle : ∀ k, w.workers.get? k = none) {p : Nat} (distinct : Distinct owner ns (at_ config w moves p))
    (free : ¬ Overtaken config w moves owner ns p) : Distinct owner ns (at_ config w moves (p+1)) := by
  rcases @step_rows config w moves p with same | ⟨worker,row,c,call,lands,inserted⟩ |
    ⟨worker,blobId',owner',ns',c,call,lands,deleted⟩
  · exact (distinct_congr same).mpr distinct
  · apply (distinct_congr inserted).mpr
    apply distinct.insert
    intro own there
    cases found : moves[p]? with
    | none => simp [callAt,found] at call
    | some move =>
      have served : Crew.served (Runs.before (crew config).exec w moves p) move = some (worker,.insertVector row,c) := by
        simpa [callAt,found] using call
      obtain ⟨i,request,made⟩ := @Crew.made_at _ _ _ _ _ _ _ _ (crew config) _ _ _ _ _ _ _ (idle worker) found served
      exact free (overtaken_of_indexed made lands own there)
  · exact (distinct_congr deleted).mpr distinct.delete

-- No listing carries a blob id twice.
variable (config w moves) in
def ListedOnce : Prop := ∀ p worker owner ns packageId limit c blobs sourceCapped,
  callAt config w moves p = some (worker,.queryBlobsByOwner owner ns packageId limit,c) →
  c.query owner ns packageId limit = .answered blobs sourceCapped → (blobs.map OnChainBlob.blobId).Nodup

-- Between the read of a call and an insertion of it no other call inserts.
variable (config w moves owner ns) in
def Apart : Prop := ∀ worker i request p q row c c',
  Crew.MadeAt (crew config) w moves worker i request p (.insertVector row) c →
  Crew.MadeAt (crew config) w moves worker i request q (.getBlobsByNamespace owner ns) c' →
  ∀ r worker' row' c'', q < r → r < p → callAt config w moves r = some (worker',.insertVector row',c'') → worker' = worker

-- Every id that the call is told of is in the index when it reads it.
variable (config w moves) in
def Complete (worker i : Nat) (request : AuthInfo × RestoreRequest) : Prop :=
  ∀ q c q' c' owner ns packageId limit blobs sourceCapped,
  Crew.MadeAt (crew config) w moves worker i request q (.queryBlobsByOwner owner ns packageId limit) c →
  c.query owner ns packageId limit = .answered blobs sourceCapped →
  Crew.MadeAt (crew config) w moves worker i request q' (.getBlobsByNamespace owner ns) c' →
  ∀ blob ∈ blobs, Indexed owner ns blob.blobId (at_ config w moves q')

theorem apart_free (once : ListedOnce config w moves) (apart : Apart config w moves owner ns) (p : Nat) :
    ¬ Overtaken config w moves owner ns p := by
  intro overtaken
  obtain ⟨worker,i,request,q,row,c,c',made,_,own,madeRead,r,low,high,inserts,_⟩ := overtaken.overtakes
  obtain ⟨worker',row',c'',call,_,_,same⟩ := inserts
  have equal := apart worker i request p q row c c' made madeRead r worker' row' c'' low high call
  subst equal
  -- the other insertion is one of the same call
  have earlier : Crew.MadeAt (crew config) w moves worker' i request r (.insertVector row') c'' := by
    refine ⟨made.spawned,made.idle,Nat.lt_trans madeRead.after low,?_,?_⟩
    · intro t after before
      exact made.alive t after (Nat.lt_trans before high)
    · cases found : moves[r]? with
      | none => simp [callAt,found] at call
      | some move => exact ⟨move,rfl,by simpa [callAt,found] using call⟩
  obtain ⟨_,_,_,_,_,_,_,_,blobs,sourceCapped,asked,answered,_,_,_,_,_,_,_,repeated⟩ := made_grounds made
  exact repeated ⟨r,row',c'',high,earlier,same⟩ (once _ _ _ _ _ _ _ _ _ (callAt_made asked) answered)

-- The rows of an owner in a namespace keep distinct blob ids exactly as long as
-- no insertion is overtaken; listings without repetitions and calls that do not
-- overlap are enough for that, and a call that finds everything in the index
-- inserts nothing.
theorem restore_unique_iff (config : Config) (w : Pool World (Handler RestoreResponse))
    (moves : List (Move (AuthInfo × RestoreRequest) Choice Empty)) (owner ns : Text)
    (idle : ∀ k, w.workers.get? k = none) (start : Distinct owner ns w.shared) :
    ((∀ p, Distinct owner ns (at_ config w moves p)) ↔ ∀ p, ¬ Overtaken config w moves owner ns p) ∧
    (ListedOnce config w moves → Apart config w moves owner ns → ∀ p, ¬ Overtaken config w moves owner ns p) ∧
    ∀ worker i request, Complete config w moves worker i request →
      ∀ p row c, ¬ Crew.MadeAt (crew config) w moves worker i request p (.insertVector row) c := by
  refine ⟨⟨?_,?_⟩,apart_free,?_⟩
  · intro distinct p overtaken
    exact not_distinct_after overtaken (distinct (p+1))
  · intro free p
    induction p with
    | zero => exact start
    | succ p ih => exact distinct_next idle ih (free p)
  · intro worker i request complete p row c made
    obtain ⟨_,_,_,_,_,_,_,_,blobs,sourceCapped,asked,answered,madeRead,_,_,_,listed,absent,_⟩ := made_grounds made
    obtain ⟨blob,member,same⟩ := List.mem_map.mp listed
    apply absent
    rw [← same]
    exact complete _ _ _ _ _ _ _ _ blobs sourceCapped asked answered madeRead blob member

end Runs

-- One call, told of two Blob objects with one blob id.
def sampleBlob (objectId : Char) : OnChainBlob := ⟨['b'],[objectId],['n'],['p'],[]⟩

def sampleChoice : Choice where
  admitted := .ok ()
  query _ _ _ _ := .answered [sampleBlob 'x',sampleBlob 'y'] false
  order count := List.range count
  download _ := .data [1]
  decrypt _ := .ok []
  embed _ := some []
  fault := none

def sampleMoves : List (Move (AuthInfo × RestoreRequest) Choice Empty) :=
  .spawn 0 (sampleAuth,⟨['n'],10⟩) :: List.replicate 14 (.step 0 sampleChoice)

def emptyPool : Pool World (Handler RestoreResponse) := ⟨{},.empty⟩

theorem sample_unique_iff : (∀ p, Distinct ['o'] ['n'] (at_ sampleConfig emptyPool sampleMoves p)) ↔
    ∀ p, ¬ Overtaken sampleConfig emptyPool sampleMoves ['o'] ['n'] p :=
  (restore_unique_iff sampleConfig emptyPool sampleMoves ['o'] ['n'] (fun _ => rfl) (fun _ _ _ _ found => nomatch found)).1

theorem twice_listed : ¬ ∀ (config : Config) (w : Pool World (Handler RestoreResponse))
    (moves : List (Move (AuthInfo × RestoreRequest) Choice Empty)) (owner ns : Text),
    (∀ k, w.workers.get? k = none) → Distinct owner ns w.shared → ∀ p, Distinct owner ns (at_ config w moves p) := by
  intro always
  have distinct := always sampleConfig emptyPool sampleMoves ['o'] ['n'] (fun _ => rfl) (fun _ _ _ _ found => nomatch found) 15
  have rows : (at_ sampleConfig emptyPool sampleMoves 15).rows.get? 1 = some ⟨['o'],['n'],['b'],[],1,50⟩ ∧
      (at_ sampleConfig emptyPool sampleMoves 15).rows.get? 2 = some ⟨['o'],['n'],['b'],[],1,50⟩ := by decide +kernel
  have same := distinct 1 2 _ _ rows.1 rows.2 (by decide) (by decide) rfl
  cases same

end MemWal.Restore
