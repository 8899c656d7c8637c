import MemWal.Restore.Conduct

namespace MemWal.Restore
open Library
open Blobs (Text OnChainBlob Blob Reads Paging Truthful Canonical Found)

-- The listing of a restore call is what the sidecar makes of its chain reads.
def sidecar (kit : Blobs.Kit) (reads : Reads) (owner ns packageId : Text) (limit : Nat) : QueryResult :=
  match Blobs.queryBlobs kit reads ⟨owner,some ns,some packageId,some limit,none⟩ with
  | some answer => .answered answer.blobs answer.sourceCapped
  | none => .status ""

theorem download_calls {owner ns : Text} (acc : List (Text × Bytes)) (item : Text) (calls : List (Made World Op Choice))
    (out : List (Text × Bytes)) (completes : Completes serve (downloadOne owner ns acc item) calls (.ok out)) :
    ∃ made ∈ calls, made.op = .downloadBlob item := by
  obtain ⟨first,rest,answer,rfl,asked,_⟩ := Completes.bind_ok completes
  obtain ⟨state,choice,rfl,_⟩ := Completes.perform asked
  exact ⟨_,List.mem_append_left _ (List.mem_singleton.mpr rfl),rfl⟩

theorem recover_downloads {config : Config} {auth : AuthInfo} {credential : SealCredential} {ns : Text} {page : List Text}
    {calls : List (Made World Op Choice)} {restored : Nat}
    (completes : Completes serve (recover config auth credential ns page) calls (.ok restored)) :
    ∀ id ∈ page, ∃ made ∈ calls, made.op = .downloadBlob id := by
  unfold recover at completes
  obtain ⟨_,rest,order,rfl,_,tail⟩ := Completes.bind_ok completes
  obtain ⟨downs,later,downloaded,rfl,downloads,_⟩ := Completes.bind_ok tail
  intro id member
  obtain ⟨made,inside,op⟩ := Completes.foldlM_each (P:=fun item made => made.op = .downloadBlob item) download_calls
    downloads id ((arranged_perm order page).mem_iff.mpr member)
  exact ⟨made,List.mem_append_right _ (List.mem_append_left _ inside),op⟩

-- What is known of each listed id once a call has answered that it was not truncated.
def Handled (auth : AuthInfo) (body : RestoreRequest) (calls : List (Made World Op Choice)) (id : Text) : Prop :=
  (∃ read ∈ calls, read.op = .getBlobsByNamespace auth.owner body.ns ∧ id ∈ read.state.blobIds auth.owner body.ns) ∨
  (∃ cached ∈ calls, cached.op = .getFailedBlobIds auth.owner body.ns ∧ id ∈ cached.state.failedIds auth.owner body.ns) ∨
  ∃ tried ∈ calls, tried.op = .downloadBlob id

structure Answered (config : Config) (auth : AuthInfo) (body : RestoreRequest) (calls : List (Made World Op Choice))
    (response : RestoreResponse) (blobs : List OnChainBlob) (sourceCapped : Bool) : Prop where
  named : validateNamespace body.ns = .ok ()
  query : ∃ query ∈ calls,
    query.op = .queryBlobsByOwner auth.owner body.ns config.packageId (clampRestoreLimit body.limit) ∧
    query.choice.query auth.owner body.ns config.packageId (clampRestoreLimit body.limit) = .answered blobs sourceCapped
  total : response.total = blobs.length
  capped : response.truncated = false → sourceCapped = false
  handled : response.truncated = false → ∀ blob ∈ blobs, Handled auth body calls blob.blobId

theorem restore_answered {config : Config} {auth : AuthInfo} {body : RestoreRequest} {calls : List (Made World Op Choice)}
    {response : RestoreResponse} (completes : Completes serve (restore config auth body) calls (.ok response)) :
    ∃ blobs sourceCapped, Answered config auth body calls response blobs sourceCapped := by
  unfold restore at completes
  obtain ⟨start₀,rest₀,_,split₀,named,tail₀⟩ := Completes.bind_ok completes
  obtain ⟨start₁,rest₁,_,split₁,_,tail₁⟩ := Completes.bind_ok tail₀
  obtain ⟨start₂,rest₂,_,split₂,_,tail₂⟩ := Completes.bind_ok tail₁
  obtain ⟨start₃,rest₃,credential,split₃,_,tail₃⟩ := Completes.bind_ok tail₂
  obtain ⟨queries,rest₄,⟨blobs,sourceCapped⟩,split₄,queried,tail₄⟩ := Completes.bind_ok tail₃
  obtain ⟨query,rfl,asked,answered⟩ := query_ok queried
  have valid := (Completes.orFail_ok named).2
  have listing : ∃ query ∈ calls,
      query.op = .queryBlobsByOwner auth.owner body.ns config.packageId (clampRestoreLimit body.limit) ∧
      query.choice.query auth.owner body.ns config.packageId (clampRestoreLimit body.limit) =
        .answered blobs sourceCapped := by
    refine ⟨query,?_,asked,answered⟩
    rw [split₀,split₁,split₂,split₃,split₄]
    simp
  refine ⟨blobs,sourceCapped,?_⟩
  obtain ⟨empty,early⟩ | ⟨_,tail₅⟩ := Completes.ite tail₄
  · obtain ⟨_,rfl⟩ := Completes.pure_ok early
    have none_ : blobs = [] := by simpa using empty
    refine ⟨valid,listing,by rw [none_]; rfl,id,?_⟩
    intro _ blob member
    rw [none_] at member
    cases member
  obtain ⟨reads,rest₅,existing,split₅,read,tail₆⟩ := Completes.bind_ok tail₅
  obtain ⟨start₆,rest₆,existingBlobIds,split₆,found,tail₇⟩ := Completes.bind_ok tail₆
  obtain ⟨caches,rest₇,failed,split₇,failures,tail₈⟩ := Completes.bind_ok tail₇
  obtain ⟨start₈,rest₈,failedBlobIds,split₈,missed,tail₉⟩ := Completes.bind_ok tail₈
  obtain ⟨_,known⟩ := Completes.orFail_ok found
  obtain ⟨_,gone⟩ := Completes.orFail_ok missed
  subst known gone
  obtain ⟨before,choice,rfl,reading⟩ := Completes.perform read
  obtain ⟨before',choice',rfl,caching⟩ := Completes.perform failures
  obtain ⟨rfl,_⟩ := fallible_ok (Except.ok.inj reading).symm
  obtain ⟨rfl,_⟩ := fallible_ok (Except.ok.inj caching).symm
  have readHere : ⟨before,.getBlobsByNamespace auth.owner body.ns,choice⟩ ∈ calls := by
    rw [split₀,split₁,split₂,split₃,split₄,split₅]
    simp
  have cacheHere : ⟨before',.getFailedBlobIds auth.owner body.ns,choice'⟩ ∈ calls := by
    rw [split₀,split₁,split₂,split₃,split₄,split₅,split₆,split₇]
    simp
  have inside : ∀ made ∈ rest₈, made ∈ calls := by
    intro made member
    rw [split₀,split₁,split₂,split₃,split₄,split₅,split₆,split₇,split₈]
    simp [member]
  -- an id that was neither indexed nor cached is missing
  have missing : ∀ blob ∈ blobs, Handled auth body calls blob.blobId ∨ blob.blobId ∈ (blobs.map OnChainBlob.blobId).filter
      (fun id => !(before.blobIds auth.owner body.ns ++ before'.failedIds auth.owner body.ns).contains id) := by
    intro blob member
    by_cases indexed : blob.blobId ∈ before.blobIds auth.owner body.ns
    · exact .inl (.inl ⟨_,readHere,rfl,indexed⟩)
    · by_cases cached : blob.blobId ∈ before'.failedIds auth.owner body.ns
      · exact .inl (.inr (.inl ⟨_,cacheHere,rfl,cached⟩))
      · right
        simp only [List.mem_filter,Bool.not_eq_true',List.contains_eq_mem,List.mem_append,decide_eq_false_iff_not,not_or]
        exact ⟨List.mem_map_of_mem member,indexed,cached⟩
  obtain ⟨none_,early⟩ | ⟨_,tail₁₀⟩ := Completes.ite tail₉
  · obtain ⟨_,rfl⟩ := Completes.pure_ok early
    refine ⟨valid,listing,by simp,?_,?_⟩
    · intro truncated
      exact (Bool.or_eq_false_iff.mp truncated).2
    · intro truncated blob member
      have few := (Bool.or_eq_false_iff.mp truncated).1
      rcases missing blob member with handled | there
      · exact handled
      · rw [← List.take_of_length_le (Nat.not_lt.mp (of_decide_eq_false few))] at there
        exact absurd there (by rw [none_]; exact List.not_mem_nil)
  · obtain ⟨recovery,_,restored,rfl,recovered,last⟩ := Completes.bind_ok tail₁₀
    obtain ⟨_,rfl⟩ := Completes.pure_ok last
    refine ⟨valid,listing,by simp,?_,?_⟩
    · intro truncated
      exact (Bool.or_eq_false_iff.mp truncated).2
    · intro truncated blob member
      have few := (Bool.or_eq_false_iff.mp truncated).1
      rcases missing blob member with handled | there
      · exact handled
      · rw [← List.take_of_length_le (Nat.not_lt.mp (of_decide_eq_false few))] at there
        obtain ⟨made,tried,op⟩ := recover_downloads recovered _ there
        exact .inr (.inr ⟨made,inside made (List.mem_append_left _ tried),op⟩)

-- A trusted Blob object of the namespace and the package, going by the chain.
def Wanted (kit : Blobs.Kit) (owner ns packageId : Text) (b : Blob) : Prop :=
  b.names ns packageId owner ∧ b.uploader ≠ [] ∧ b.uploader ∈ kit.serverSuiAddresses

-- Its metadata are read, and its creation is found.
def Legible (reads : Reads) (b : Blob) : Prop :=
  reads.metadata b.objectId ≠ none ∧ reads.creationSender b.objectId ≠ some none

def Listed (config : Config) (auth : AuthInfo) (body : RestoreRequest) (calls : List (Made World Op Choice))
    (response : RestoreResponse) (b : Blob) : Prop :=
  ∃ query ∈ calls, ∃ blobs sourceCapped,
    query.op = .queryBlobsByOwner auth.owner body.ns config.packageId (clampRestoreLimit body.limit) ∧
    query.choice.query auth.owner body.ns config.packageId (clampRestoreLimit body.limit) = .answered blobs sourceCapped ∧
    response.total = blobs.length ∧ ∃ blob ∈ blobs, blob.objectId = b.objectId

section Discovery
variable {kit : Blobs.Kit} {reads : Reads} {objs : List Blob} {owner ns packageId : Text} {b : Blob}

theorem trusted_iff (filled : owner ≠ []) : Blobs.trustedBlobCandidate kit reads owner (b.raw owner) = some true ↔
    ∃ sender, reads.creationSender b.objectId = some (some sender) ∧ sender ≠ [] ∧ sender ∈ kit.serverSuiAddresses := by
  have matches_ : Blobs.ownerMatchesRecipient kit (b.raw owner).owner owner = true := by
    simp [Blobs.ownerMatchesRecipient,Blob.raw,filled]
  rw [Blobs.trustedBlobCandidate,if_neg (by rw [matches_]; decide),Option.map_eq_some_iff]
  change (∃ uploader, reads.creationSender b.objectId = some uploader ∧ _) ↔ _
  constructor
  · intro given
    obtain ⟨uploader,found,trusted⟩ := given
    cases uploader with
    | none => cases trusted
    | some sender => exact ⟨sender,found,by simpa using trusted⟩
  · intro given
    obtain ⟨sender,found,filled,server⟩ := given
    exact ⟨some sender,found,by simp [filled,server]⟩

theorem found_legible (filled : owner ≠ []) (packaged : packageId ≠ []) (found : Found kit reads ns packageId owner b) :
    Legible reads b := by
  obtain ⟨_,package,trusted⟩ := found
  refine ⟨?_,?_⟩
  · intro unread
    rw [unread] at package
    exact packaged package.symm
  · intro unseen
    obtain ⟨sender,seen,_⟩ := (trusted_iff filled).mp trusted
    rw [unseen] at seen
    cases seen

theorem found_of_legible (truthful : Truthful objs reads) (filled : owner ≠ []) (member : b ∈ objs)
    (wanted : Wanted kit owner ns packageId b) (legible : Legible reads b)
    (looked : (Blobs.blobMeta (reads.metadata b.objectId) (b.raw owner)).blobNamespace = ns →
      (Blobs.blobMeta (reads.metadata b.objectId) (b.raw owner)).blobPackageId = packageId →
      Blobs.trustedBlobCandidate kit reads owner (b.raw owner) ≠ none) : Found kit reads ns packageId owner b := by
  obtain ⟨⟨name,package⟩,sender,server⟩ := wanted
  have read : reads.metadata b.objectId = some b.entries := (truthful.metadata b member).resolve_left legible.1
  rw [← read] at name package
  refine ⟨name,package,?_⟩
  rw [trusted_iff filled]
  rcases truthful.creation b member with throws | unseen | seen
  · refine absurd ?_ (looked name package)
    have matches_ : Blobs.ownerMatchesRecipient kit (b.raw owner).owner owner = true := by
      simp [Blobs.ownerMatchesRecipient,Blob.raw,filled]
    rw [Blobs.trustedBlobCandidate,if_neg (by rw [matches_]; decide)]
    exact congrArg (Option.map _) throws
  · exact absurd unseen legible.2
  · exact ⟨b.uploader,seen,sender,server⟩

end Discovery

-- In a call that answers that nothing was left out, the listing is complete exactly
-- when every wanted object could be read; the read ones are all taken care of.
theorem restore_complete_iff (kit : Blobs.Kit) (reads : Reads) (objs : List Blob) (config : Config) (auth : AuthInfo)
    (body : RestoreRequest) (calls : List (Made World Op Choice)) (response : RestoreResponse)
    (canonical : Canonical kit auth.owner) (packaged : config.packageId ≠ [])
    (paged : Paging (objs.map (fun b => b.object auth.owner)) reads.pages) (truthful : Truthful objs reads)
    (completes : Completes serve (restore config auth body) calls (.ok response))
    (told : ∀ call ∈ calls, call.choice.query = sidecar kit reads) (complete : response.truncated = false) :
    ((∀ b ∈ objs, Wanted kit auth.owner body.ns config.packageId b → Listed config auth body calls response b) ↔
      ∀ b ∈ objs, Wanted kit auth.owner body.ns config.packageId b → Legible reads b) ∧
    ∀ b ∈ objs, Wanted kit auth.owner body.ns config.packageId b → Legible reads b → Handled auth body calls b.listedId := by
  obtain ⟨blobs,sourceCapped,answered⟩ := restore_answered completes
  obtain ⟨query,inside,asked,listing⟩ := answered.query
  have uncapped := answered.capped complete
  have named : body.ns ≠ [] := by
    intro none_
    have valid := answered.named
    rw [none_] at valid
    cases valid
  have positive : 0 < clampRestoreLimit body.limit := by
    unfold clampRestoreLimit
    omega
  have source := told query inside ▸ listing
  unfold sidecar at source
  split at source
  · rename_i answer made
    cases source
    obtain ⟨found,_,capped,looked⟩ := Blobs.queryBlobs_eq canonical paged named packaged positive made
    rw [uncapped] at capped
    rw [List.take_of_length_le (Nat.not_lt.mp (of_decide_eq_false capped.symm))] at found looked
    have filled := canonical.1
    have entry_ : ∀ b ∈ objs, Wanted kit auth.owner body.ns config.packageId b → Legible reads b →
        Blobs.entry reads auth.owner b ∈ answer.blobs := by
      intro b member wanted legible
      rw [found]
      apply List.mem_map_of_mem
      exact List.mem_filter.mpr ⟨member,decide_eq_true (found_of_legible truthful filled member wanted legible
        (looked b member))⟩
    refine ⟨⟨?_,?_⟩,?_⟩
    · intro all b member wanted
      obtain ⟨query',inside',blobs',sourceCapped',asked',listing',_,blob,there,same⟩ := all b member wanted
      have again := told query' inside' ▸ listing'
      rw [← told query inside,listing] at again
      cases again
      rw [found] at there
      obtain ⟨b',there',rfl⟩ := List.mem_map.mp there
      obtain ⟨_,found'⟩ := List.mem_filter.mp there'
      have legible := found_legible filled packaged (of_decide_eq_true found')
      unfold Legible at legible ⊢
      rw [← show b'.objectId = b.objectId from same]
      exact legible
    · intro all b member wanted
      exact ⟨query,inside,_,_,asked,listing,answered.total,_,entry_ b member wanted (all b member wanted),rfl⟩
    · intro b member wanted legible
      exact answered.handled complete _ (entry_ b member wanted legible)
  · cases source

-- One Blob object of the namespace; its metadata are read or not.
def soleKit : Blobs.Kit := ⟨Blobs.sampleIds,id,[['s']]⟩
def soleBlob : Blob := ⟨['x'],7,[(Blobs.key "memwal_namespace",['n']),(Blobs.key "memwal_package_id",['p'])],['s']⟩

def soleReads (metadata : Option (List (Text × Text))) : Reads :=
  ⟨[some ⟨[soleBlob.object ['o']],false,none⟩],fun _ => metadata,fun _ => some (some ['s'])⟩

def soleChoice (metadata : Option (List (Text × Text))) : Choice where
  admitted := .ok ()
  query := sidecar soleKit (soleReads metadata)
  order count := List.range count
  download _ := .failed
  decrypt _ := .error ""
  embed _ := none
  fault := none

def soleQuery : Op := .queryBlobsByOwner ['o'] ['n'] ['p'] 10

def unreadCalls : List (Made World Op Choice) :=
  [⟨{},.checkRestoreCallRateLimit ['o'],soleChoice none⟩,⟨{},soleQuery,soleChoice none⟩]

theorem sole_canonical : Canonical soleKit sampleAuth.owner := ⟨by decide,by decide⟩

theorem sole_truthful {metadata : Option (List (Text × Text))} (read : metadata = none ∨ metadata = some soleBlob.entries) :
    Truthful [soleBlob] (soleReads metadata) := by
  constructor
  · intro b member
    rw [List.mem_singleton.mp member]
    exact read
  · intro b member
    rw [List.mem_singleton.mp member]
    exact .inr (.inr rfl)

theorem sole_wanted : Wanted soleKit ['o'] ['n'] ['p'] soleBlob := ⟨by decide,by decide,by decide⟩

-- It is in the index already. Another object of the namespace is not.
def soleWorld : World := {rows := Store.empty.upsert 1 ⟨['o'],['n'],['7'],[],1,50⟩}

def freshBlob : Blob := ⟨['y'],8,soleBlob.entries,['s']⟩

def pairReads : Reads :=
  ⟨[some ⟨[soleBlob.object ['o'],freshBlob.object ['o']],false,none⟩],fun _ => some soleBlob.entries,
    fun _ => some (some ['s'])⟩

def pairChoice : Choice where
  admitted := .ok ()
  query := sidecar soleKit pairReads
  order count := List.range count
  download _ := .data [1,2]
  decrypt _ := .ok [116]
  embed _ := some [3]
  fault := none

def freshRow : VectorRow := ⟨['o'],['n'],['8'],[3],2,50⟩

def pairOps : List Op :=
  [.checkRestoreCallRateLimit ['o'],soleQuery,.getBlobsByNamespace ['o'] ['n'],.getFailedBlobIds ['o'] ['n'],
    .completions 1,.downloadBlob ['8'],.completions 1,
    .sealDecrypt [1,2] (.session "session") ['p'] ['p'] ['r'] ['a'],.embed ['t'],.insertVector freshRow]

def pairCalls : List (Made World Op Choice) := pairOps.map (fun op => ⟨soleWorld,op,pairChoice⟩)

theorem pair_truthful : Truthful [soleBlob,freshBlob] pairReads := by
  constructor
  · intro b member
    rcases List.mem_cons.mp member with rfl | last
    · exact .inr rfl
    · rw [List.mem_singleton.mp last]
      exact .inr rfl
  · intro b member
    rcases List.mem_cons.mp member with rfl | last
    · exact .inr (.inr rfl)
    · rw [List.mem_singleton.mp last]
      exact .inr (.inr rfl)

-- The one is found in the index, the other is downloaded and inserted.
theorem pair_handled : Handled sampleAuth ⟨['n'],10⟩ pairCalls soleBlob.listedId ∧
    Handled sampleAuth ⟨['n'],10⟩ pairCalls freshBlob.listedId ∧
    freshBlob.listedId ∉ soleWorld.blobIds ['o'] ['n'] ∧
    freshBlob.listedId ∈ (serve soleWorld (.insertVector freshRow) pairChoice).1.blobIds ['o'] ['n'] := by
  have handled := (restore_complete_iff soleKit pairReads [soleBlob,freshBlob] sampleConfig sampleAuth ⟨['n'],10⟩
    pairCalls ⟨1,1,2,['n'],['o'],false⟩ sole_canonical (by decide) (.last _ _) pair_truthful
    (by decide +kernel) (by simp [pairCalls,pairChoice]) rfl).2
  refine ⟨?_,?_,by decide +kernel,by decide +kernel⟩
  · exact handled soleBlob (by simp) sole_wanted ⟨Option.some_ne_none _,by simp [pairReads]⟩
  · exact handled freshBlob (by simp) ⟨by decide,by decide,by decide⟩ ⟨Option.some_ne_none _,by simp [pairReads]⟩

theorem unread_is_left_out : ¬ ∀ (kit : Blobs.Kit) (reads : Reads) (objs : List Blob) (config : Config) (auth : AuthInfo)
    (body : RestoreRequest) (calls : List (Made World Op Choice)) (response : RestoreResponse),
    Canonical kit auth.owner → config.packageId ≠ [] → Paging (objs.map (fun b => b.object auth.owner)) reads.pages →
    Truthful objs reads → Completes serve (restore config auth body) calls (.ok response) →
    (∀ call ∈ calls, call.choice.query = sidecar kit reads) → response.truncated = false →
    ∀ b ∈ objs, Wanted kit auth.owner body.ns config.packageId b → Listed config auth body calls response b := by
  intro always
  obtain ⟨query,_,blobs,_,_,_,total,blob,member,_⟩ := always soleKit (soleReads none) [soleBlob] sampleConfig sampleAuth
    ⟨['n'],10⟩ unreadCalls ⟨0,0,0,['n'],['o'],false⟩ sole_canonical (by decide) (.last _ _) (sole_truthful (.inl rfl))
    (by decide +kernel) (by simp [unreadCalls,soleChoice]) rfl soleBlob List.mem_cons_self sole_wanted
  rw [List.eq_nil_of_length_eq_zero total.symm] at member
  cases member

end MemWal.Restore
