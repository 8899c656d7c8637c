import MemWal.Blobs.Listing

namespace MemWal.Blobs
open Library Library.Numerals

-- A Blob object on the chain. Its metadata entries are empty where it has no
-- metadata field; `uploader` sent the transaction that created it.
structure Blob where
  objectId : Text
  blobId : Nat
  entries : List (Text × Text)
  uploader : Text
  deriving DecidableEq

namespace Blob

def raw (b : Blob) (owner : Text) : RawBlobObj := ⟨b.objectId,[owner],some (Nat.toDigits 10 b.blobId)⟩

def object (b : Blob) (owner : Text) : OwnedObject := ⟨some b.objectId,[owner],some (Nat.toDigits 10 b.blobId)⟩

-- The id under which the listing carries it.
def listedId (b : Blob) : Text := (blobIdFromRaw (some (Nat.toDigits 10 b.blobId))).getD []

def names (b : Blob) (ns packageId : Text) (owner : Text) : Prop :=
  (blobMeta (some b.entries) (b.raw owner)).blobNamespace = ns ∧
    (blobMeta (some b.entries) (b.raw owner)).blobPackageId = packageId

instance (b : Blob) (ns packageId owner : Text) : Decidable (b.names ns packageId owner) :=
  inferInstanceAs (Decidable (_ ∧ _))

end Blob

-- The objects in the order of the listing, cut into pages in any way.
inductive Paging : List OwnedObject → List (Option Page) → Prop
  | last (objects : List OwnedObject) (cursor : Option Text) : Paging objects [some ⟨objects,false,cursor⟩]
  | more (objects : List OwnedObject) (c : Char) (cursor : Text) {rest : List OwnedObject} {pages : List (Option Page)}
    (paged : Paging rest pages) : Paging (objects ++ rest) (some ⟨objects,true,some (c :: cursor)⟩ :: pages)

-- What is read of these objects is true; a metadata read may fail, a look at the
-- archive may fail or not find the object yet.
structure Truthful (objs : List Blob) (reads : Reads) : Prop where
  metadata : ∀ b ∈ objs, reads.metadata b.objectId = none ∨ reads.metadata b.objectId = some b.entries
  creation : ∀ b ∈ objs, reads.creationSender b.objectId = none ∨ reads.creationSender b.objectId = some none ∨
    reads.creationSender b.objectId = some (some b.uploader)

variable {kit : Kit}

theorem slice_short {α : Type} {cap : Option Nat} {items : List α} (short : reached cap items.length = false) :
    slice cap items = items := by
  cases cap with
  | none => rfl
  | some cap =>
    have less : items.length < cap := by simpa [reached] using short
    exact List.take_of_length_le (Nat.le_of_lt less)

theorem slice_full {α : Type} {cap : Option Nat} {items more : List α} (full : reached cap items.length = true) :
    slice cap (items ++ more) = slice cap items := by
  cases cap with
  | none => cases full
  | some cap =>
    have enough : cap ≤ items.length := by simpa [reached] using full
    exact List.take_append_of_le_length enough

theorem reached_slice {α : Type} {cap : Option Nat} {items : List α} (full : reached cap items.length = true) :
    reached cap (slice cap items).length = true := by
  cases cap with
  | none => cases full
  | some cap =>
    have enough : cap ≤ items.length := by simpa [reached] using full
    simp [reached,slice,enough]

theorem takeObjects_eq {cap : Option Nat} {requested : Option (List Text)} (objects : List OwnedObject)
    {out : List RawBlobObj} (room : reached cap out.length = false) :
    takeObjects kit cap requested objects out = slice cap (out ++ objects.filterMap (candidate kit requested)) := by
  induction objects generalizing out with
  | nil => rw [takeObjects,List.filterMap_nil,List.append_nil,slice_short room]
  | cons obj rest ih =>
    cases found : candidate kit requested obj with
    | none => rw [takeObjects,found,List.filterMap_cons_none found,ih room]
    | some raw =>
      rw [takeObjects,found,List.filterMap_cons_some found]
      by_cases full : reached cap (out ++ [raw]).length = true
      · have most : slice cap (out ++ [raw]) = out ++ [raw] := by
          cases cap with
          | none => rfl
          | some cap =>
            have less : out.length < cap := by simpa [reached] using room
            exact List.take_of_length_le (by simp; omega)
        simp only [if_pos full]
        rw [show out ++ raw :: rest.filterMap (candidate kit requested) =
          (out ++ [raw]) ++ rest.filterMap (candidate kit requested) by simp,slice_full full,most]
      · simp only [if_neg full]
        rw [ih (by simpa using full)]
        simp

-- The loop over the pages finds the first candidates of the listing, up to the cap.
theorem listBlobObjectsGrpc_eq {cap : Option Nat} {requested : Option (List Text)} {objects : List OwnedObject}
    {pages : List (Option Page)} (paged : Paging objects pages) {out : List RawBlobObj}
    (room : reached cap out.length = false) :
    listBlobObjectsGrpc kit cap requested pages out =
      some (slice cap (out ++ objects.filterMap (candidate kit requested))) := by
  induction paged generalizing out with
  | last objects cursor => simp [listBlobObjectsGrpc,room,takeObjects_eq objects room]
  | more objects c cursor paged ih =>
    rename_i others pages
    have page : takeObjects kit cap requested objects out =
        slice cap (out ++ objects.filterMap (candidate kit requested)) := takeObjects_eq objects room
    simp only [listBlobObjectsGrpc,room,Bool.false_eq_true,if_false,reduceCtorEq,false_or,Option.some.injEq,
      List.filterMap_append,page]
    by_cases full : reached cap (out ++ objects.filterMap (candidate kit requested)).length = true
    · have stop : listBlobObjectsGrpc kit cap requested pages
          (slice cap (out ++ objects.filterMap (candidate kit requested))) =
          some (slice cap (out ++ objects.filterMap (candidate kit requested))) := by
        rw [listBlobObjectsGrpc.eq_def]
        simp only [reached_slice full,if_true]
      rw [stop,← List.append_assoc,slice_full full]
    · have short : reached cap (out ++ objects.filterMap (candidate kit requested)).length = false := by simpa using full
      rw [slice_short short,ih short,List.append_assoc]

theorem filterTrusted_some {reads : Reads} {candidates trusted : List BlobMeta} {recipient : Text}
    (done : filterTrustedBlobCandidates kit reads candidates recipient = some trusted) :
    trusted = candidates.filter (fun blob => trustedBlobCandidate kit reads recipient blob.toRawBlobObj = some true) ∧
    ∀ blob ∈ candidates, trustedBlobCandidate kit reads recipient blob.toRawBlobObj ≠ none := by
  simp only [filterTrustedBlobCandidates,Option.bind_eq_bind,Option.bind_eq_some_iff,Option.pure_def,
    Option.some.injEq] at done
  obtain ⟨provenance,checked,rfl⟩ := done
  induction candidates generalizing provenance with
  | nil =>
    cases checked
    exact ⟨rfl,fun _ member => nomatch member⟩
  | cons blob rest ih =>
    simp only [List.mapM_cons,Option.bind_eq_bind,Option.bind_eq_some_iff,Option.pure_def,Option.some.injEq,
      Option.map_eq_some_iff] at checked
    obtain ⟨first,⟨trust,one,rfl⟩,others,tail,rfl⟩ := checked
    obtain ⟨same,answered⟩ := ih others tail
    refine ⟨?_,?_⟩
    · cases trust with
      | true => simp [one,same]
      | false => simp [one,same]
    · intro other member
      rcases List.mem_cons.mp member with rfl | later
      · rw [one]
        exact Option.some_ne_none trust
      · exact answered other later

-- What a query tells of the objects of an owner: the first of them up to the cap,
-- and of those the ones it reads as matching and trusted.
def Found (kit : Kit) (reads : Reads) (ns packageId owner : Text) (b : Blob) : Prop :=
  (blobMeta (reads.metadata b.objectId) (b.raw owner)).blobNamespace = ns ∧
    (blobMeta (reads.metadata b.objectId) (b.raw owner)).blobPackageId = packageId ∧
    trustedBlobCandidate kit reads owner (b.raw owner) = some true

instance (reads : Reads) (ns packageId owner : Text) (b : Blob) : Decidable (Found kit reads ns packageId owner b) :=
  inferInstanceAs (Decidable (_ ∧ _ ∧ _))

def entry (reads : Reads) (owner : Text) (b : Blob) : OnChainBlob :=
  let found := blobMeta (reads.metadata b.objectId) (b.raw owner)
  ⟨b.listedId,b.objectId,found.blobNamespace,found.blobPackageId,found.blobAgentId⟩

theorem blobIdFromRaw_numeral (n : Nat) :
    blobIdFromRaw (some (Nat.toDigits 10 n)) = some ((blobIdFromRaw (some (Nat.toDigits 10 n))).getD []) := by
  cases text : Nat.toDigits 10 n with
  | nil => exact absurd text Nat.toDigits_ne_nil
  | cons c rest =>
    rw [blobIdFromRaw_filled]
    split <;> rfl

theorem listed_meta (reads : Reads) (owner : Text) (b : Blob) :
    listed (blobMeta (reads.metadata b.objectId) (b.raw owner)) = some (entry reads owner b) := by
  rw [listed]
  change (blobIdFromRaw (some (Nat.toDigits 10 b.blobId))).map _ = _
  rw [blobIdFromRaw_numeral]
  rfl

theorem passes_filled {wanted value : Text} (filled : wanted ≠ []) : passes (some wanted) value = true ↔ value = wanted := by
  cases wanted with
  | nil => exact absurd rfl filled
  | cons c rest => simp [passes]

-- An owner in the form that the query uses: not to be rewritten any more.
def Canonical (kit : Kit) (owner : Text) : Prop :=
  owner ≠ [] ∧ (isHexAddress owner = true → kit.normalizeSuiAddress owner = owner)

def candidateCap (limit : Nat) : Nat := max 1 (min (max 1 (min limit 500) * 5) 100)

theorem queryBlobs_filter {reads : Reads} {objs : List Blob} {owner ns packageId : Text} {limit : Nat}
    (canonical : Canonical kit owner) (paged : Paging (objs.map (fun b => b.object owner)) reads.pages)
    (positive : 0 < limit) :
    queryBlobs kit reads ⟨owner,some ns,some packageId,some limit,none⟩ =
      (filterTrustedBlobCandidates kit reads
        ((((objs.take (candidateCap limit)).map (fun b => b.raw owner)).map
          (fun obj => blobMeta (reads.metadata obj.objectId) obj)).filter
          (fun found => passes (some ns) found.blobNamespace && passes (some packageId) found.blobPackageId)) owner).map
        (fun trusted => ⟨trusted.filterMap listed,(trusted.filterMap listed).length,
          decide (candidateCap limit < objs.length)⟩) := by
  obtain ⟨filled,fixed⟩ := canonical
  have same : (if isHexAddress owner = true then kit.normalizeSuiAddress owner else owner) = owner := by
    split
    · rename_i hex
      exact fixed hex
    · rfl
  have cap : queryCap (some limit) none = some (candidateCap limit) := by simp [queryCap,candidateCap,positive]
  generalize candidateCap limit = most at cap ⊢
  have raws : (objs.map (fun b => b.object owner)).filterMap (candidate kit none) = objs.map (fun b => b.raw owner) := by
    rw [List.filterMap_map]
    exact List.filterMap_eq_map (f:=fun b : Blob => b.raw owner) ▸ rfl
  have probed : listBlobObjectsGrpc kit (some (most+1)) none reads.pages [] =
      some ((objs.map (fun b => b.raw owner)).take (most+1)) := by
    rw [listBlobObjectsGrpc_eq paged (by simp [reached]),raws]
    rfl
  have first : slice (some most) ((objs.map (fun b => b.raw owner)).take (most+1)) = (objs.take most).map (fun b => b.raw owner) := by
    simp [slice,List.take_take,List.map_take]
  have capped : isSourceCapped ((objs.map (fun b => b.raw owner)).take (most+1)).length (some most) =
      decide (most < objs.length) := by
    simp only [isSourceCapped,List.length_take,List.length_map,decide_eq_decide]
    omega
  simp only [queryBlobs,if_neg filled,same,cap,Option.map_none,Option.map_some,probed,first,capped,Option.bind_eq_bind,
    Option.bind_some,Option.pure_def]
  exact Option.map_eq_bind.symm

theorem queryBlobs_eq {reads : Reads} {objs : List Blob} {owner ns packageId : Text} {limit : Nat} {answer : QueryAnswer}
    (canonical : Canonical kit owner) (paged : Paging (objs.map (fun b => b.object owner)) reads.pages)
    (named : ns ≠ []) (packaged : packageId ≠ []) (positive : 0 < limit)
    (answered : queryBlobs kit reads ⟨owner,some ns,some packageId,some limit,none⟩ = some answer) :
    answer.blobs = ((objs.take (candidateCap limit)).filter
      (fun b => Found kit reads ns packageId owner b)).map (entry reads owner) ∧
    answer.total = answer.blobs.length ∧ answer.sourceCapped = decide (candidateCap limit < objs.length) ∧
    ∀ b ∈ objs.take (candidateCap limit),
      (blobMeta (reads.metadata b.objectId) (b.raw owner)).blobNamespace = ns →
      (blobMeta (reads.metadata b.objectId) (b.raw owner)).blobPackageId = packageId →
      trustedBlobCandidate kit reads owner (b.raw owner) ≠ none := by
  rw [queryBlobs_filter canonical paged positive,Option.map_eq_some_iff] at answered
  obtain ⟨trusted,filtered,rfl⟩ := answered
  obtain ⟨chosen,looked⟩ := filterTrusted_some filtered
  refine ⟨?_,rfl,rfl,?_⟩
  · change trusted.filterMap listed = _
    rw [chosen]
    have listing : ∀ found : List Blob,
        (found.map (fun b => blobMeta (reads.metadata b.objectId) (b.raw owner))).filterMap listed =
          found.map (entry reads owner) := by
      intro found
      rw [List.filterMap_map,show listed ∘ (fun b : Blob => blobMeta (reads.metadata b.objectId) (b.raw owner)) =
        some ∘ entry reads owner from funext (listed_meta reads owner)]
      exact congrFun (List.filterMap_eq_map (f:=entry reads owner)) found
    rw [List.map_map,List.filter_map,List.filter_map,List.filter_filter]
    change ((List.filter _ (objs.take (candidateCap limit))).map
      (fun b => blobMeta (reads.metadata b.objectId) (b.raw owner))).filterMap listed = _
    rw [listing]
    congr 1
    apply List.filter_congr
    intro b _
    rw [Bool.eq_iff_iff,decide_eq_true_eq]
    simp only [Function.comp_apply,Bool.and_eq_true,decide_eq_true_eq,passes_filled named,passes_filled packaged]
    constructor
    · intro given
      obtain ⟨trust,name,package⟩ := given
      exact ⟨name,package,trust⟩
    · intro given
      obtain ⟨name,package,trust⟩ := given
      exact ⟨trust,name,package⟩
  · intro b member name package
    apply looked (blobMeta (reads.metadata b.objectId) (b.raw owner))
    apply List.mem_filter.mpr
    refine ⟨List.mem_map.mpr ⟨b.raw owner,List.mem_map_of_mem member,rfl⟩,?_⟩
    rw [Bool.and_eq_true,passes_filled named,passes_filled packaged]
    exact ⟨name,package⟩

theorem filterTrusted_total {reads : Reads} {candidates : List BlobMeta} {recipient : Text}
    (looked : ∀ blob ∈ candidates, trustedBlobCandidate kit reads recipient blob.toRawBlobObj ≠ none) :
    ∃ trusted, filterTrustedBlobCandidates kit reads candidates recipient = some trusted := by
  have checked : ∃ provenance, candidates.mapM (fun blob =>
      (trustedBlobCandidate kit reads recipient blob.toRawBlobObj).map (fun trusted => (blob,trusted))) = some provenance := by
    induction candidates with
    | nil => exact ⟨[],rfl⟩
    | cons blob rest ih =>
      obtain ⟨others,tail⟩ := ih (fun other member => looked other (List.mem_cons_of_mem _ member))
      obtain ⟨trust,one⟩ := Option.ne_none_iff_exists'.mp (looked blob List.mem_cons_self)
      exact ⟨(blob,trust) :: others,by rw [List.mapM_cons,one,tail]; rfl⟩
  obtain ⟨provenance,checked⟩ := checked
  exact ⟨_,by rw [filterTrustedBlobCandidates,checked]; rfl⟩

-- A query fails only by a read that throws.
theorem queryBlobs_total {reads : Reads} {objs : List Blob} {owner ns packageId : Text} {limit : Nat}
    (canonical : Canonical kit owner) (paged : Paging (objs.map (fun b => b.object owner)) reads.pages)
    (positive : 0 < limit) (looked : ∀ b ∈ objs, trustedBlobCandidate kit reads owner (b.raw owner) ≠ none) :
    ∃ answer, queryBlobs kit reads ⟨owner,some ns,some packageId,some limit,none⟩ = some answer := by
  obtain ⟨trusted,filtered⟩ := @filterTrusted_total kit reads
    ((((objs.take (candidateCap limit)).map (fun b => b.raw owner)).map
      (fun obj => blobMeta (reads.metadata obj.objectId) obj)).filter
        (fun found => passes (some ns) found.blobNamespace && passes (some packageId) found.blobPackageId)) owner (by
    intro blob member
    obtain ⟨raw,inside,rfl⟩ := List.mem_map.mp (List.mem_filter.mp member).1
    obtain ⟨b,there,rfl⟩ := List.mem_map.mp inside
    exact looked b (List.mem_of_mem_take there))
  rw [queryBlobs_filter canonical paged positive,filtered]
  exact ⟨_,rfl⟩

end MemWal.Blobs
