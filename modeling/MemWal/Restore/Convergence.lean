import MemWal.Library.Alone
import MemWal.Restore.Completeness
import MemWal.Restore.Uniqueness

namespace MemWal.Restore
open Library
open Blobs (Text OnChainBlob Blob Reads Paging Canonical Found)

-- Every read, download, decryption and embedding succeeds; the objects are listed
-- in their one order, in whatever pages.
def Smooth (kit : Blobs.Kit) (owner : Text) (objs : List Blob) (c : Choice) : Prop :=
  c.admitted = .ok () ∧ c.fault = none ∧
  (∃ reads : Reads, c.query = sidecar kit reads ∧ Paging (objs.map (fun b => b.object owner)) reads.pages ∧
    ∀ b ∈ objs, reads.metadata b.objectId = some b.entries ∧ reads.creationSender b.objectId = some (some b.uploader)) ∧
  (∀ id, ∃ data, c.download id = .data data) ∧
  (∀ data, ∃ plaintext text, c.decrypt data = .ok plaintext ∧ fromUtf8 plaintext = some text) ∧
  ∀ text, ∃ vector, c.embed text = some vector

section Recovery
variable {kit : Blobs.Kit} {objs : List Blob} {owner ns : Text} {s : World}

theorem downloads_alone {owner' : Text} (items : List Text) : Alone serve (Smooth kit owner objs)
    (fun result now => ∃ downloaded, result = .ok downloaded ∧ now = s ∧ downloaded.map Prod.fst = items)
    (items.foldlM (downloadOne owner' ns) []) s := by
  refine Alone.foldlM (I:=fun seen (downloaded : List (Text × Bytes)) now => now = s ∧ downloaded.map Prod.fst = seen) ?_ ⟨rfl,rfl⟩
  rintro seen item acc _ ⟨rfl,held⟩ c smooth
  obtain ⟨data,found⟩ := smooth.2.2.2.1 item
  simp only [serve,found]
  exact ⟨_,rfl,rfl,by rw [List.map_append,held]; rfl⟩

theorem decrypts_alone {config : Config} {auth : AuthInfo} {credential : SealCredential} (items : List (Text × Bytes)) :
    Alone serve (Smooth kit owner objs)
      (fun result now => ∃ decrypted, result = .ok decrypted ∧ now = s ∧ decrypted.map Prod.fst = items.map Prod.fst)
      (items.foldlM (decryptOne config auth credential ns) []) s := by
  refine Alone.foldlM (I:=fun (seen : List (Text × Bytes)) (decrypted : List (Text × Text)) now =>
    now = s ∧ decrypted.map Prod.fst = seen.map Prod.fst) ?_ ⟨rfl,rfl⟩
  rintro seen item acc _ ⟨rfl,held⟩ c smooth
  obtain ⟨plaintext,text,decrypted,valid⟩ := smooth.2.2.2.2.1 item.2
  simp only [serve,decrypted,Program.bind,valid]
  exact ⟨_,rfl,rfl,by rw [List.map_append,List.map_append,held]; rfl⟩

theorem embeds_alone (items : List (Text × Text)) : Alone serve (Smooth kit owner objs)
    (fun result now => ∃ results, result = .ok results ∧ now = s ∧ results.map Prod.fst = items.map Prod.fst)
    (items.foldlM embedOne []) s := by
  refine Alone.foldlM (I:=fun (seen : List (Text × Text)) (results : List (Text × List Int)) now =>
    now = s ∧ results.map Prod.fst = seen.map Prod.fst) ?_ ⟨rfl,rfl⟩
  rintro seen item acc _ ⟨rfl,held⟩ c smooth
  obtain ⟨vector,embedded⟩ := smooth.2.2.2.2.2 item.2
  simp only [serve,embedded]
  exact ⟨_,rfl,rfl,by rw [List.map_append,List.map_append,held]; rfl⟩

-- The ids that are added to the index, and nothing else.
def Added (owner ns : Text) (ids : List Text) (s now : World) : Prop :=
  now.failures = s.failures ∧ ∀ id, Indexed owner ns id now ↔ Indexed owner ns id s ∨ id ∈ ids

theorem indexed_insert {row : VectorRow} (own : World.belongs owner ns row = true) (id : Text) :
    Indexed owner ns id (s.insertVector row) ↔ Indexed owner ns id s ∨ id = row.blobId := by
  constructor
  · intro given
    obtain ⟨i,found_,found,mine,same⟩ := given
    rw [get?_insertVector] at found
    split at found
    · cases found
      exact .inr same.symm
    · exact .inl ⟨i,found_,found,mine,same⟩
  · intro given
    rcases given with ⟨i,found_,found,mine,same⟩ | rfl
    · refine ⟨i,found_,?_,mine,same⟩
      rw [get?_insertVector,if_neg,found]
      intro equal
      obtain rfl := equal
      rw [newId_fresh] at found
      cases found
    · exact ⟨s.newId,row,by rw [get?_insertVector,if_pos rfl],own,rfl⟩

theorem inserts_alone {downloaded : List (Text × Bytes)} (items : List (Text × List Int)) :
    Alone serve (Smooth kit owner objs)
      (fun result now => ∃ done, result = .ok done ∧ Added owner ns (items.map Prod.fst) s now)
      (items.foldlM (insertOne owner ns downloaded) ()) s := by
  refine Alone.foldlM (I:=fun (seen : List (Text × List Int)) _ now => Added owner ns (seen.map Prod.fst) s now) ?_ ⟨rfl,by simp⟩
  rintro seen item _ now ⟨failures,indexed⟩ c smooth
  simp only [serve,smooth.2.1,fallible]
  refine ⟨(),rfl,failures,?_⟩
  intro id
  rw [indexed_insert (by simp [World.belongs]),indexed,List.map_append,List.mem_append]
  simp [or_assoc]

theorem recover_alone {config : Config} {auth : AuthInfo} {credential : SealCredential} (page : List Text) :
    Alone serve (Smooth kit auth.owner objs)
      (fun result now => ∃ restored, result = .ok restored ∧ Added auth.owner ns page s now)
      (recover config auth credential ns page) s := by
  unfold recover
  apply Alone.perform_bind.mpr
  intro c _
  refine Alone.bind_iff.mpr (Alone.weaken (downloads_alone (arranged (c.order page.length) page)) ?_)
  intro _ now found
  obtain ⟨downloaded,rfl,rfl,named⟩ := found
  apply Alone.perform_bind.mpr
  intro c' _
  refine Alone.bind_iff.mpr (Alone.weaken (decrypts_alone (arranged (c'.order downloaded.length) downloaded)) ?_)
  intro _ now' found
  obtain ⟨decrypted,rfl,rfl,kept⟩ := found
  refine Alone.bind_iff.mpr (Alone.weaken (embeds_alone decrypted) ?_)
  intro _ now'' found
  obtain ⟨results,rfl,rfl,same⟩ := found
  refine Alone.bind_iff.mpr (Alone.weaken (inserts_alone results) ?_)
  intro _ last found
  obtain ⟨_,rfl,failures,indexed⟩ := found
  refine ⟨_,rfl,failures,?_⟩
  intro id
  rw [indexed id,same,kept]
  have first : id ∈ (arranged (c'.order downloaded.length) downloaded).map Prod.fst ↔ id ∈ downloaded.map Prod.fst :=
    ((arranged_perm (c'.order downloaded.length) downloaded).map Prod.fst).mem_iff
  rw [first,named,(arranged_perm (c.order page.length) page).mem_iff]

-- A wanted object among the first hundred of the listing.
def Reachable (kit : Blobs.Kit) (owner ns packageId : Text) (objs : List Blob) (id : Text) : Prop :=
  ∃ b ∈ objs.take 100, Wanted kit owner ns packageId b ∧ b.listedId = id

theorem found_iff_wanted {reads : Reads} {packageId : Text} {b : Blob} (filled : owner ≠ [])
    (read : reads.metadata b.objectId = some b.entries ∧ reads.creationSender b.objectId = some (some b.uploader)) :
    Found kit reads ns packageId owner b ↔ Wanted kit owner ns packageId b := by
  unfold Found Wanted Blob.names
  rw [trusted_iff filled,read.1,read.2]
  constructor
  · intro found
    obtain ⟨name,package,_,same,sender,server⟩ := found
    cases same
    exact ⟨⟨name,package⟩,sender,server⟩
  · intro found
    obtain ⟨⟨name,package⟩,sender,server⟩ := found
    exact ⟨name,package,b.uploader,rfl,sender,server⟩

-- The answer of the sidecar when all is well.
theorem smooth_listing {packageId : Text} {c : Choice} (canonical : Canonical kit owner) (named : ns ≠ [])
    (packaged : packageId ≠ []) (smooth : Smooth kit owner objs c) :
    ∃ blobs, c.query owner ns packageId 100 = .answered blobs (decide (100 < objs.length)) ∧ blobs.length ≤ 100 ∧
      ∀ id, id ∈ blobs.map OnChainBlob.blobId ↔ Reachable kit owner ns packageId objs id := by
  obtain ⟨reads,told,paged,read⟩ := smooth.2.2.1
  have looked : ∀ b ∈ objs, Blobs.trustedBlobCandidate kit reads owner (b.raw owner) ≠ none := by
    intro b member
    unfold Blobs.trustedBlobCandidate
    split
    · exact nofun
    · change Option.map _ (reads.creationSender b.objectId) ≠ none
      rw [(read b member).2]
      exact nofun
  obtain ⟨answer,answered⟩ := @Blobs.queryBlobs_total _ _ _ _ ns packageId 100 canonical paged
    (by decide) looked
  obtain ⟨found,_,capped,_⟩ := Blobs.queryBlobs_eq canonical paged named packaged (by decide) answered
  refine ⟨answer.blobs,?_,?_,?_⟩
  · rw [told,sidecar,answered]
    change QueryResult.answered answer.blobs answer.sourceCapped = _
    rw [capped]
    rfl
  · rw [found,List.length_map]
    exact Nat.le_trans (List.length_filter_le _ _) (List.length_take_le _ _)
  · intro id
    rw [found,List.map_map]
    simp only [List.mem_map,List.mem_filter,decide_eq_true_eq,Function.comp_apply]
    constructor
    · intro given
      obtain ⟨b,⟨member,found⟩,rfl⟩ := given
      exact ⟨b,member,(found_iff_wanted canonical.1 (read b (List.mem_of_mem_take member))).mp found,rfl⟩
    · intro given
      obtain ⟨b,member,wanted,rfl⟩ := given
      exact ⟨b,⟨member,(found_iff_wanted canonical.1 (read b (List.mem_of_mem_take member))).mpr wanted⟩,rfl⟩

-- What one restore call on its own comes to.
structure Restored (kit : Blobs.Kit) (owner ns packageId : Text) (objs : List Blob) (s : World)
    (response : RestoreResponse) (now : World) : Prop where
  truncated : response.truncated = decide (100 < objs.length)
  failures : now.failures = s.failures
  indexed : ∀ id, Indexed owner ns id now ↔ Indexed owner ns id s ∨
    Reachable kit owner ns packageId objs id ∧ id ∉ s.failedIds owner ns
  still : (∀ id, Reachable kit owner ns packageId objs id → Indexed owner ns id s ∨ id ∈ s.failedIds owner ns) →
    now = s

theorem restore_alone {config : Config} {auth : AuthInfo} {credential : SealCredential}
    (canonical : Canonical kit auth.owner) (packaged : config.packageId ≠ []) (valid : validateNamespace ns = .ok ())
    (held : fromAuthOrFallback auth config.suiPrivateKey = some credential) :
    Alone serve (Smooth kit auth.owner objs)
      (fun result now => ∃ response, result = .ok response ∧
        Restored kit auth.owner ns config.packageId objs s response now)
      (restore config auth ⟨ns,100⟩) s := by
  have named : ns ≠ [] := by
    intro same
    obtain rfl := same
    cases valid
  unfold restore
  apply (Alone.orFail_bind_ok valid).mpr
  apply Alone.perform_bind.mpr
  intro c smooth
  apply (Alone.orFail_bind_ok smooth.1).mpr
  apply (@Alone.orFail_bind_ok _ _ _ _ _ _ _ _ _ _ _ _ _ _ credential _ (by rw [held]; rfl)).mpr
  apply Alone.bind_iff.mpr
  apply Alone.perform_bind.mpr
  intro c smooth
  obtain ⟨blobs,told,few,listed⟩ := smooth_listing canonical named packaged smooth
  have told' : c.query auth.owner ns config.packageId (clampRestoreLimit 100) =
      .answered blobs (decide (100 < objs.length)) := told
  simp only [serve,told']
  apply Alone.ite
  · intro none_
    have empty : blobs.map OnChainBlob.blobId = [] := List.eq_nil_of_length_eq_zero none_
    have nothing : ∀ id, ¬ Reachable kit auth.owner ns config.packageId objs id := by
      intro id reachable
      have member := (listed id).mpr reachable
      rw [empty] at member
      cases member
    refine ⟨_,rfl,rfl,rfl,?_,fun _ => rfl⟩
    intro id
    simp [nothing id]
  intro _
  apply Alone.perform_bind.mpr
  intro c₁ smooth₁
  simp only [serve,smooth₁.2.1,fallible]
  apply (Alone.orFail_bind_ok rfl).mpr
  apply Alone.perform_bind.mpr
  intro c₂ smooth₂
  simp only [serve,smooth₂.2.1,fallible]
  apply (Alone.orFail_bind_ok rfl).mpr
  -- the whole of what is missing fits into one page
  have page : ∀ ids : List Text, ids.length ≤ 100 → paginateMissingBlobs ids (clampRestoreLimit 100) = (ids,false) := by
    intro ids small
    have clamp : clampRestoreLimit 100 = 100 := rfl
    rw [paginateMissingBlobs,clamp,List.take_of_length_le small]
    simp [small]
  have small : ((blobs.map OnChainBlob.blobId).filter
      (fun id => !(s.blobIds auth.owner ns ++ s.failedIds auth.owner ns).contains id)).length ≤ 100 := by
    refine Nat.le_trans (List.length_filter_le _ _) ?_
    rw [List.length_map]
    exact few
  have missing : ∀ id, id ∈ (blobs.map OnChainBlob.blobId).filter
      (fun id => !(s.blobIds auth.owner ns ++ s.failedIds auth.owner ns).contains id) ↔
      Reachable kit auth.owner ns config.packageId objs id ∧ ¬ Indexed auth.owner ns id s ∧ id ∉ s.failedIds auth.owner ns := by
    intro id
    rw [List.mem_filter,listed,← mem_blobIds]
    simp
  simp only [page _ small,Bool.false_or]
  apply Alone.ite
  · intro none_
    refine ⟨_,rfl,rfl,rfl,?_,fun _ => rfl⟩
    intro id
    have absent := (missing id).not.mp (by rw [none_]; exact List.not_mem_nil)
    constructor
    · exact .inl
    · intro found
      rcases found with there | ⟨reachable,uncached⟩
      · exact there
      · by_contra unindexed
        exact absent ⟨reachable,unindexed,uncached⟩
  · intro some_
    refine Alone.bind_iff.mpr (Alone.weaken (recover_alone _) ?_)
    intro _ now found
    obtain ⟨restored,rfl,failures,indexed⟩ := found
    refine ⟨_,rfl,rfl,failures,?_,?_⟩
    · intro id
      rw [indexed,missing]
      constructor
      · intro found
        rcases found with there | ⟨reachable,_,uncached⟩
        · exact .inl there
        · exact .inr ⟨reachable,uncached⟩
      · intro found
        rcases found with there | ⟨reachable,uncached⟩
        · exact .inl there
        · by_cases there : Indexed auth.owner ns id s
          · exact .inl there
          · exact .inr ⟨reachable,there,uncached⟩
    · intro known
      obtain ⟨id,member⟩ := List.exists_mem_of_ne_nil _ some_
      obtain ⟨reachable,unindexed,uncached⟩ := (missing id).mp member
      rcases known id reachable with there | cached
      · exact absurd there unindexed
      · exact absurd cached uncached

end Recovery
-- Everything that a restore call can reach is in the index or in the negative cache.
def Caught (kit : Blobs.Kit) (owner ns packageId : Text) (objs : List Blob) (s : World) : Prop :=
  ∀ id, Reachable kit owner ns packageId objs id → Indexed owner ns id s ∨ id ∈ s.failedIds owner ns

-- Restore calls one after another: the first one indexes all that lies among the
-- first hundred objects of the owner, and from then on nothing changes.
theorem restore_converges (kit : Blobs.Kit) (objs : List Blob) (config : Config) (auth : AuthInfo) (ns : Text)
    (credential : SealCredential) (canonical : Canonical kit auth.owner) (packaged : config.packageId ≠ [])
    (valid : validateNamespace ns = .ok ()) (held : fromAuthOrFallback auth config.suiPrivateKey = some credential)
    (w : Nat → World) (r : Nat → Except AppError RestoreResponse)
    (calls : ∀ k, Ends serve (Smooth kit auth.owner objs) (restore config auth ⟨ns,100⟩) (w k) (r k) (w (k+1))) :
    (∀ k, ∃ response, r k = .ok response ∧ response.truncated = decide (100 < objs.length)) ∧
    (∀ k, 0 < k → ∀ id, Indexed auth.owner ns id (w k) ↔ Indexed auth.owner ns id (w 0) ∨
      Reachable kit auth.owner ns config.packageId objs id ∧ id ∉ (w 0).failedIds auth.owner ns) ∧
    (∀ k, ¬ Caught kit auth.owner ns config.packageId objs (w k) →
      ∃ id, ¬ Indexed auth.owner ns id (w k) ∧ Indexed auth.owner ns id (w (k+1))) ∧
    (∀ k, 0 < k → w (k+1) = w k) ∧
    (objs.length ≤ 100 → ∀ k, 0 < k → ∀ b ∈ objs, Wanted kit auth.owner ns config.packageId b →
      Indexed auth.owner ns b.listedId (w k) ∨ b.listedId ∈ (w 0).failedIds auth.owner ns) := by
  have one : ∀ k, ∃ response, r k = .ok response ∧
      Restored kit auth.owner ns config.packageId objs (w k) response (w (k+1)) :=
    fun k => (restore_alone canonical packaged valid held).of_ends (calls k)
  have cached : ∀ k, (w k).failedIds auth.owner ns = (w 0).failedIds auth.owner ns := by
    intro k
    induction k with
    | zero => rfl
    | succ k ih =>
      obtain ⟨_,_,restored⟩ := one k
      rw [← ih,World.failedIds,restored.failures]
      rfl
  have indexed : ∀ k, 0 < k → ∀ id, Indexed auth.owner ns id (w k) ↔ Indexed auth.owner ns id (w 0) ∨
      Reachable kit auth.owner ns config.packageId objs id ∧ id ∉ (w 0).failedIds auth.owner ns := by
    intro k positive
    induction k with
    | zero => exact absurd positive (Nat.lt_irrefl 0)
    | succ k ih =>
      intro id
      obtain ⟨_,_,restored⟩ := one k
      rw [restored.indexed,cached k]
      rcases Nat.eq_zero_or_pos k with rfl | earlier
      · exact Iff.rfl
      · rw [ih earlier id]
        constructor
        · intro found
          rcases found with known | again
          · exact known
          · exact .inr again
        · exact .inl
  refine ⟨?_,indexed,?_,?_,?_⟩
  · intro k
    obtain ⟨response,ok,restored⟩ := one k
    exact ⟨response,ok,restored.truncated⟩
  · intro k early
    obtain ⟨_,_,restored⟩ := one k
    unfold Caught at early
    push Not at early
    obtain ⟨id,reachable,unindexed,uncached⟩ := early
    exact ⟨id,unindexed,(restored.indexed id).mpr (.inr ⟨reachable,uncached⟩)⟩
  · intro k positive
    obtain ⟨_,_,restored⟩ := one k
    apply restored.still
    intro id reachable
    by_cases failed : id ∈ (w k).failedIds auth.owner ns
    · exact .inr failed
    · rw [cached k] at failed
      exact .inl ((indexed k positive id).mpr (.inr ⟨reachable,failed⟩))
  · intro few k positive b member wanted
    by_cases failed : b.listedId ∈ (w 0).failedIds auth.owner ns
    · exact .inr failed
    · refine .inl ((indexed k positive _).mpr (.inr ⟨⟨b,?_,wanted,rfl⟩,failed⟩))
      rw [List.take_of_length_le few]
      exact member

-- A hundred objects of another namespace before the one that is asked for.
def farEntries (ns : Char) : List (Text × Text) := [(Blobs.key "memwal_namespace",[ns]),(Blobs.key "memwal_package_id",['p'])]

def farBlob (i : Nat) : Blob := ⟨Nat.toDigits 10 i,i,farEntries (if i = 100 then 'n' else 'm'),['s']⟩

def farBlobs (count : Nat) : List Blob := (List.range count).map farBlob

def farReads (count : Nat) : Reads :=
  ⟨[some ⟨(farBlobs count).map (fun b => b.object ['o']),false,none⟩],
    fun objectId => some (farEntries (if objectId = Nat.toDigits 10 100 then 'n' else 'm')),fun _ => some (some ['s'])⟩

def farChoice (count : Nat) : Choice where
  admitted := .ok ()
  query := sidecar soleKit (farReads count)
  order n := List.range n
  download _ := .data []
  decrypt _ := .ok []
  embed _ := some []
  fault := none

theorem far_smooth (count : Nat) : Smooth soleKit ['o'] (farBlobs count) (farChoice count) := by
  refine ⟨rfl,rfl,⟨farReads count,rfl,.last _ _,?_⟩,fun _ => ⟨[],rfl⟩,fun _ => ⟨[],[],rfl,by decide +kernel⟩,
    fun _ => ⟨[],rfl⟩⟩
  intro b member
  obtain ⟨i,_,rfl⟩ := List.mem_map.mp member
  refine ⟨?_,rfl⟩
  have same : (farBlob i).objectId = Nat.toDigits 10 100 ↔ i = 100 := by
    constructor
    · intro equal
      have values := congrArg (Numerals.read 10) equal
      change Numerals.read 10 (Nat.toDigits 10 i) = _ at values
      rwa [Numerals.read_toDigits (by decide) (by decide),Numerals.read_toDigits (by decide) (by decide)] at values
    · intro found
      obtain rfl := found
      rfl
  simp only [farReads,same]
  rfl

-- Calls of this kind can always be made.
theorem far_calls (count : Nat) (ns : Text) (start : World) :
    ∃ (w : Nat → World) (r : Nat → Except AppError RestoreResponse), w 0 = start ∧
      ∀ k, Ends serve (Smooth soleKit ['o'] (farBlobs count)) (restore sampleConfig sampleAuth ⟨ns,100⟩)
        (w k) (r k) (w (k+1)) := by
  have one := fun s => @Ends.exists _ _ _ _ _ _ serve _ ⟨_,far_smooth count⟩ (restore sampleConfig sampleAuth ⟨ns,100⟩) s
  choose result next ends using one
  exact ⟨fun k => k.rec start (fun _ s => next s),fun k => result (k.rec start (fun _ s => next s)),rfl,fun k => ends _⟩

theorem far_wanted {i : Nat} (near : i < 100) : Wanted soleKit ['o'] ['m'] ['p'] (farBlob i) := by
  have same : i ≠ 100 := Nat.ne_of_lt near
  rw [farBlob,if_neg same]
  exact ⟨⟨rfl,rfl⟩,List.cons_ne_nil _ _,List.mem_cons_self⟩

-- The first call on the other namespace indexes its hundred objects.
theorem hundred_reached : ∃ (w : Nat → World) (r : Nat → Except AppError RestoreResponse), w 0 = {} ∧
    (∀ k, Ends serve (Smooth soleKit ['o'] (farBlobs 100)) (restore sampleConfig sampleAuth ⟨['m'],100⟩)
      (w k) (r k) (w (k+1))) ∧
    (∀ b ∈ farBlobs 100, ¬ Indexed ['o'] ['m'] b.listedId (w 0) ∧ ∀ k, 0 < k → Indexed ['o'] ['m'] b.listedId (w k)) ∧
    (∀ k, ∃ response, r k = .ok response ∧ response.truncated = false) ∧ ∀ k, 0 < k → w (k+1) = w k := by
  obtain ⟨w,r,start,calls⟩ := far_calls 100 ['m'] {}
  obtain ⟨answered,_,_,still,complete⟩ := restore_converges soleKit (farBlobs 100) sampleConfig sampleAuth ['m']
    (.session "session") sole_canonical (by decide) rfl rfl w r calls
  refine ⟨w,r,start,calls,?_,answered,still⟩
  intro b member
  obtain ⟨i,inside,rfl⟩ := List.mem_map.mp member
  refine ⟨?_,?_⟩
  · intro given
    obtain ⟨_,_,found,_⟩ := given
    rw [start] at found
    cases found
  · intro k positive
    rcases complete (by simp [farBlobs]) k positive _ member (far_wanted (List.mem_range.mp inside)) with there | failed
    · exact there
    · rw [start] at failed
      cases failed

theorem hundred_first_not_reached : ¬ ∀ (kit : Blobs.Kit) (objs : List Blob) (config : Config) (auth : AuthInfo) (ns : Text)
    (credential : SealCredential), Canonical kit auth.owner → config.packageId ≠ [] → validateNamespace ns = .ok () →
    fromAuthOrFallback auth config.suiPrivateKey = some credential →
    ∀ (w : Nat → World) (r : Nat → Except AppError RestoreResponse), (w 0).failures = .empty →
    (∀ k, Ends serve (Smooth kit auth.owner objs) (restore config auth ⟨ns,100⟩) (w k) (r k) (w (k+1))) →
    ∃ n, ∀ b ∈ objs, Wanted kit auth.owner ns config.packageId b → Indexed auth.owner ns b.listedId (w n) := by
  intro always
  obtain ⟨w,r,start,calls⟩ := far_calls 101 ['n'] {}
  obtain ⟨n,complete⟩ := always soleKit (farBlobs 101) sampleConfig sampleAuth ['n'] (.session "session") sole_canonical
    (by decide) rfl rfl w r (by rw [start]) calls
  have nothing : ∀ id, ¬ Reachable soleKit ['o'] ['n'] ['p'] (farBlobs 101) id := by
    intro id given
    obtain ⟨b,member,wanted,_⟩ := given
    rw [farBlobs,← List.map_take,List.take_range] at member
    obtain ⟨i,inside,rfl⟩ := List.mem_map.mp member
    have small : i ≠ 100 := by
      have := List.mem_range.mp inside
      omega
    have name := wanted.1.1
    rw [farBlob,if_neg small] at name
    cases name
  have empty : ∀ k id, ¬ Indexed ['o'] ['n'] id (w k) := by
    intro k
    induction k with
    | zero =>
      intro id given
      obtain ⟨i,row,found,_⟩ := given
      rw [start] at found
      cases found
    | succ k ih =>
      intro id there
      obtain ⟨_,_,restored⟩ := (@restore_alone _ _ ['n'] _ sampleConfig sampleAuth (.session "session") sole_canonical
        (by decide) rfl rfl).of_ends (calls k)
      rcases (restored.indexed id).mp there with earlier | ⟨reachable,_⟩
      · exact ih id earlier
      · exact nothing id reachable
  have last : farBlob 100 ∈ farBlobs 101 := List.mem_map_of_mem (List.mem_range.mpr (by decide))
  exact empty n _ (complete _ last ⟨by decide +kernel,by decide,by decide⟩)

end MemWal.Restore
