import MemWal.Library.Bytes
import MemWal.SecurityDelete.Transactions
import Mathlib.Data.Prod.Lex
import Mathlib.Data.String.Basic
import Mathlib.Logic.Equiv.List
import Mathlib.Tactic.DeriveEncodable

namespace MemWal.SecurityDelete.Transactions
open Library Library.Fallible Library.Batches

section Order

-- Blobs are ordered by their blob id and, for one blob id, by their object id.
def rank (blob : ObjectInfo) : String ×ₗ String := toLex (blob.blobId.getD "",blob.objectId)

theorem blobBefore_iff (a b : ObjectInfo) : blobBefore a b = true ↔ rank a ≤ rank b := by
  simp [blobBefore,rank,Prod.Lex.le_iff]

theorem sorted_blobs (blobs : List ObjectInfo) :
    (blobs.insertionSort (fun a b => blobBefore a b = true)).Pairwise (fun a b => rank a ≤ rank b) := by
  have total : Std.Total (fun a b : ObjectInfo => blobBefore a b = true) :=
    ⟨fun a b => by simpa only [blobBefore_iff] using le_total (rank a) (rank b)⟩
  have trans : IsTrans ObjectInfo (fun a b => blobBefore a b = true) :=
    ⟨fun a b c => by simpa only [blobBefore_iff] using le_trans⟩
  exact (List.pairwise_insertionSort _ blobs).imp (fun before => (blobBefore_iff _ _).mp before)

-- Where equal object ids have equal blob ids, an object that is listed twice
-- stands beside itself.
theorem repeatsObject_iff {ordered : List ObjectInfo} (sorted : ordered.Pairwise (fun a b => rank a ≤ rank b))
    (same : ∀ a ∈ ordered, ∀ b ∈ ordered, a.objectId = b.objectId → a.blobId = b.blobId) :
    repeatsObject ordered = true ↔ ¬ (ordered.map ObjectInfo.objectId).Nodup := by
  induction ordered with
  | nil => simp [repeatsObject]
  | cons a rest ih =>
    cases rest with
    | nil => simp [repeatsObject]
    | cons b rest =>
      obtain ⟨first,tail⟩ := List.pairwise_cons.mp sorted
      have below := ih tail (fun x here y there => same x (List.mem_cons_of_mem _ here) y (List.mem_cons_of_mem _ there))
      have next : a.objectId ∈ (b :: rest).map ObjectInfo.objectId → a.objectId = b.objectId := by
        intro member
        obtain ⟨c,there,twin⟩ := List.mem_map.mp member
        have equal : rank c = rank a := by
          simp [rank,twin,same c (List.mem_cons_of_mem _ there) a List.mem_cons_self twin]
        have between : rank b ≤ rank c := by
          rcases List.mem_cons.mp there with rfl | later
          · exact le_refl _
          · exact (List.pairwise_cons.mp tail).1 c later
        have pinned : rank a = rank b := le_antisymm (first b List.mem_cons_self) (equal ▸ between)
        exact congrArg (fun r => (ofLex r).2) pinned
      have parts : ((a :: b :: rest).map ObjectInfo.objectId).Nodup ↔
          a.objectId ∉ (b :: rest).map ObjectInfo.objectId ∧ ((b :: rest).map ObjectInfo.objectId).Nodup :=
        List.nodup_cons
      rw [repeatsObject,Bool.or_eq_true,decide_eq_true_eq,below,parts]
      constructor
      · rintro (twin | twice) ⟨absent,distinct⟩
        · exact absent (twin ▸ List.mem_map_of_mem List.mem_cons_self)
        · exact twice distinct
      · intro twice
        by_cases member : a.objectId ∈ (b :: rest).map ObjectInfo.objectId
        · exact .inl (next member)
        · exact .inr (fun distinct => twice ⟨member,distinct⟩)

end Order

-- The reference under which a transaction names an object.
structure Refers (sdk : Sdk) (blob : ObjectInfo) (reference : ObjectReference) : Prop where
  objectId : canonicalSuiAddress blob.objectId = some reference.objectId
  version : blob.version = reference.version
  digest : sdk.parseDigest blob.digest = some reference.digest

structure Reads (sdk : Sdk) (blob : ObjectInfo) (entry : ExpectedInput) : Prop where
  blobId : blob.blobId = some entry.blobId
  reference : Refers sdk blob entry.reference

theorem Refers.unique {sdk : Sdk} {blob : ObjectInfo} {one other : ObjectReference} (first : Refers sdk blob one)
    (second : Refers sdk blob other) : one = other := by
  obtain ⟨objectId,version,digest⟩ := one
  obtain ⟨objectId',version',digest'⟩ := other
  cases first.objectId.symm.trans second.objectId
  cases first.version.symm.trans second.version
  cases first.digest.symm.trans second.digest
  rfl

def calls (package : String) (n : Nat) : List Command :=
  (List.range n).map (fun i => .moveCall package "system" "delete_blob" [.input 0,.input (i+1)])

def results (n : Nat) : List Argument := (List.range n).map .result

-- The draft after the blobs of `entries`.
structure After (package : String) (system : Input) (entries : List ExpectedInput) (draft : Draft) : Prop where
  inputs : draft.builder.inputs = system :: entries.map (fun entry => .immutableOrOwned entry.reference)
  commands : draft.builder.commands = calls package entries.length
  reclaimed : draft.reclaimed = results entries.length
  inputBlobIds : draft.inputBlobIds = entries.map ExpectedInput.blobId

section Building
variable {sdk : Sdk} {package : String} {system : Input} {entries : List ExpectedInput} {draft : Draft}

theorem deleteBlob_after {blob : ObjectInfo} {entry : ExpectedInput} (reads : Reads sdk blob entry)
    (after : After package system entries draft) :
    ∃ next, deleteBlob sdk package (.input 0) draft blob = .ok next ∧ After package system (entries ++ [entry]) next := by
  let added := draft.builder.addInput (.immutableOrOwned entry.reference)
  let called := added.1.moveCall package "system" "delete_blob" [.input 0,added.2]
  have made : deleteBlob sdk package (.input 0) draft blob =
      .ok ⟨called.1,draft.reclaimed ++ [called.2],draft.inputBlobIds ++ [entry.blobId]⟩ := by
    simp only [deleteBlob,parseAddress,reads.reference.objectId,reads.reference.digest,reads.blobId,require,
      reads.reference.version]
    rfl
  refine ⟨_,made,?_,?_,?_,?_⟩
  · simp [called,added,TransactionBuilder.addInput,TransactionBuilder.moveCall,after.inputs]
  · simp [called,added,TransactionBuilder.addInput,TransactionBuilder.moveCall,after.inputs,after.commands,calls,
      List.range_succ]
  · simp [called,added,TransactionBuilder.addInput,TransactionBuilder.moveCall,after.commands,after.reclaimed,calls,
      results,List.range_succ]
  · simp [after.inputBlobIds]

theorem deleteBlobs_after (blobs : List ObjectInfo) (reads : ∀ blob ∈ blobs, ∃ entry, Reads sdk blob entry)
    (after : After package system entries draft) :
    ∃ next more, blobs.foldlM (deleteBlob sdk package (.input 0)) draft = .ok next ∧
      List.Forall₂ (Reads sdk) blobs more ∧ After package system (entries ++ more) next := by
  induction blobs generalizing draft entries with
  | nil => exact ⟨draft,[],rfl,.nil,by simpa using after⟩
  | cons blob rest ih =>
    obtain ⟨entry,here⟩ := reads blob List.mem_cons_self
    obtain ⟨middle,made,between⟩ := deleteBlob_after here after
    obtain ⟨next,more,folded,others,done⟩ :=
      ih (fun other member => reads other (List.mem_cons_of_mem _ member)) between
    refine ⟨next,entry :: more,?_,.cons here others,?_⟩
    · rw [List.foldlM_cons,made]
      exact folded
    · simpa using done

theorem transfers_built (parts : List (List Argument)) (recipient : Argument) (builder : TransactionBuilder) :
    parts.foldl (fun builder chunk => builder.transferObjects chunk recipient) builder =
      {builder with commands := builder.commands ++ parts.map (.transferObjects · recipient)} := by
  induction parts generalizing builder with
  | nil => simp
  | cons part rest ih =>
    rw [List.foldl_cons,ih]
    simp [TransactionBuilder.transferObjects]

end Building

-- How the inputs and the commands of a built transaction are laid out.
structure Laid (package : String) (system : Input) (sender : Owner) (entries : List ExpectedInput) (tx : Transaction) :
    Prop where
  inputs : tx.inputs = system :: entries.map (fun entry => .immutableOrOwned entry.reference) ++ [.pure sender]
  commands : tx.commands = calls package entries.length ++
    (chunks transferObjectsChunk (results entries.length)).map
      (.transferObjects · (.input (entries.length+1)))

-- Everything that has to parse, and no object is there twice.
structure Prepared (sdk : Sdk) (sender sponsor : String) (blobs : List ObjectInfo) (walrusPkg : String)
    (systemObj : SharedObjectInfo) (from_ : Owner) : Prop where
  some_ : blobs ≠ []
  few : blobs.length ≤ maxDeleteBlobsPerTx
  reads : ∀ blob ∈ blobs, ∃ entry, Reads sdk blob entry
  same : ∀ a ∈ blobs, ∀ b ∈ blobs, a.objectId = b.objectId → a.blobId = b.blobId
  sender : canonicalSuiAddress sender = some from_
  sponsor : ∃ address, canonicalSuiAddress sponsor = some address
  package : ∃ address, canonicalSuiAddress walrusPkg = some address
  system : ∃ address, canonicalSuiAddress systemObj.objectId = some address

section Built
variable {sdk : Sdk} {sender sponsor walrusPkg : String} {blobs : List ObjectInfo} {systemObj : SharedObjectInfo}
  {from_ : Owner} {epoch gasPrice gasBudget nonce : Nat} {chainDigest : Bytes}

theorem Prepared.ordered (prepared : Prepared sdk sender sponsor blobs walrusPkg systemObj from_) :
    repeatsObject (blobs.insertionSort (fun a b => blobBefore a b = true)) = true ↔
      ¬ (blobs.map ObjectInfo.objectId).Nodup := by
  have perm := List.perm_insertionSort (fun a b => blobBefore a b = true) blobs
  rw [repeatsObject_iff (sorted_blobs blobs) (fun a here b there =>
    prepared.same a (perm.mem_iff.mp here) b (perm.mem_iff.mp there)),(perm.map _).nodup_iff]

theorem buildDeleteTx_duplicate (prepared : Prepared sdk sender sponsor blobs walrusPkg systemObj from_)
    (twice : ¬ (blobs.map ObjectInfo.objectId).Nodup) :
    ∃ error, buildDeleteTx sdk sender sponsor blobs walrusPkg systemObj epoch gasPrice gasBudget chainDigest nonce =
      .error error := by
  cases built : buildDeleteTx sdk sender sponsor blobs walrusPkg systemObj epoch gasPrice gasBudget chainDigest nonce with
  | error error => exact ⟨error,rfl⟩
  | ok result =>
    simp only [buildDeleteTx,bind_ok,ensure_ok,exists_const] at built
    obtain ⟨_,_,_,_,_,_,_,_,_,_,distinct,_⟩ := built
    rw [prepared.ordered.mpr twice] at distinct
    cases distinct

theorem objectIds_laid (system : ObjectId) (version : Nat) (mutable_ : Bool) (entries : List ExpectedInput)
    (builder : TransactionBuilder)
    (inputs : builder.inputs = .shared system version mutable_ ::
      entries.map (fun entry => .immutableOrOwned entry.reference) ++ [.pure from_]) :
    builder.objectIds = system :: entries.map (fun entry => entry.reference.objectId) := by
  simp [TransactionBuilder.objectIds,inputs,List.filterMap_append,List.filterMap_map]

theorem reads_addresses {ordered : List ObjectInfo} {entries : List ExpectedInput}
    (reads : List.Forall₂ (Reads sdk) ordered entries) :
    entries.map (some ∘ fun entry => entry.reference.objectId) =
      ordered.map (fun blob => canonicalSuiAddress blob.objectId) := by
  induction reads with
  | nil => rfl
  | cons here _ ih => rw [List.map_cons,List.map_cons,ih,here.reference.objectId]; rfl

-- The builder as `try_build` gets it.
def completed (builder : TransactionBuilder) (from_ gasOwner : Owner) (epoch gasPrice gasBudget nonce : Nat)
    (chainDigest : Bytes) : TransactionBuilder :=
  {builder with
    sender := some from_
    sponsor := some gasOwner
    gasPrice := some gasPrice
    gasBudget := some gasBudget
    expiration := some ⟨some epoch,some epoch,chainDigest,nonce⟩
    gasObjects := [placeholderGas]}

theorem buildDeleteTx_laid (documented : sdk.Documented)
    (prepared : Prepared sdk sender sponsor blobs walrusPkg systemObj from_)
    (apart : (canonicalSuiAddress systemObj.objectId :: blobs.map (fun blob => canonicalSuiAddress blob.objectId)).Nodup) :
    ∃ built tx package system entries ordered,
      buildDeleteTx sdk sender sponsor blobs walrusPkg systemObj epoch gasPrice gasBudget chainDigest nonce = .ok built ∧
      sdk.fromBytes built.txBytes = some tx ∧ canonicalSuiAddress walrusPkg = some package ∧
      ordered = blobs.insertionSort (fun a b => blobBefore a b = true) ∧ List.Forall₂ (Reads sdk) ordered entries ∧
      built.inputBlobIds = entries.map ExpectedInput.blobId ∧ owned system = none ∧
      Laid package system from_ entries tx := by
  obtain ⟨gasOwner,sponsored⟩ := prepared.sponsor
  obtain ⟨package,packaged⟩ := prepared.package
  obtain ⟨systemId,located⟩ := prepared.system
  let ordered := blobs.insertionSort (fun a b => blobBefore a b = true)
  have perm : List.Perm ordered blobs := List.perm_insertionSort (fun a b => blobBefore a b = true) blobs
  have distinct : repeatsObject ordered = false := by
    rw [← Bool.not_eq_true,prepared.ordered,not_not]
    refine List.Nodup.of_map canonicalSuiAddress ?_
    rw [List.map_map]
    exact (List.nodup_cons.mp apart).2
  let system := Input.shared systemId systemObj.initialSharedVersion systemObj.mutable_
  let first := ({} : TransactionBuilder).addInput system
  have start : After package system [] ⟨first.1,[],[]⟩ := ⟨rfl,rfl,rfl,rfl⟩
  obtain ⟨draft,entries,folded,reads,after⟩ := deleteBlobs_after ordered
    (fun blob member => prepared.reads blob (perm.mem_iff.mp member)) start
  rw [List.nil_append] at after
  let parts := chunks transferObjectsChunk (results entries.length)
  let last := draft.builder.addInput (.pure from_)
  let filled : TransactionBuilder := {last.1 with
    commands := last.1.commands ++ parts.map (.transferObjects · last.2)}
  let tx : Transaction := ⟨filled.inputs,filled.commands,from_,gasOwner,[placeholderGas],gasPrice,gasBudget,
    ⟨some epoch,some epoch,chainDigest,nonce⟩⟩
  have inputs : filled.inputs = system :: entries.map (fun entry => .immutableOrOwned entry.reference) ++
      [.pure from_] := by
    simp [filled,last,TransactionBuilder.addInput,after.inputs]
  have commands : filled.commands = calls package entries.length ++
      parts.map (.transferObjects · (.input (entries.length+1))) := by
    simp [filled,last,TransactionBuilder.addInput,after.inputs,after.commands]
  have addresses := reads_addresses reads
  have few : entries.length ≤ 900 := by
    rw [← reads.length_eq,perm.length_eq]
    exact prepared.few
  have distinctIds : filled.objectIds.Nodup := by
    rw [objectIds_laid _ _ _ entries filled inputs]
    refine List.Nodup.of_map some ?_
    rw [List.map_cons,List.map_map,← located]
    refine ((List.Perm.cons _ ?_).nodup_iff).mpr apart
    exact (List.Perm.of_eq addresses).trans (perm.map _)
  have accepted : sdk.tryBuild (completed filled from_ gasOwner epoch gasPrice gasBudget nonce chainDigest) = some tx :=
    documented.builds _ tx ⟨rfl,rfl,rfl,rfl,rfl,rfl,rfl,rfl⟩ (List.cons_ne_nil _ _) distinctIds
  obtain ⟨bytes,encoded⟩ := documented.encodes {tx with gasObjects := []}
    (by simp only [tx,inputs,List.length_append,List.length_cons,List.length_map,List.length_nil]; omega)
    (by
      have short := chunks_length transferObjectsChunk (results entries.length)
      have counted : (results entries.length).length = entries.length := by simp [Transactions.results]
      simp only [tx,commands,calls,List.length_append,List.length_map,List.length_range,parts]
      omega)
  refine ⟨⟨bytes,sdk.transactionDigest {tx with gasObjects := []},nonce,epoch,draft.inputBlobIds⟩,
    {tx with gasObjects := []},package,system,entries,ordered,?_,documented.decodes _ _ encoded,packaged,rfl,reads,
    after.inputBlobIds,rfl,inputs,commands⟩
  simp only [buildDeleteTx,parseAddress,bind_ok,ensure_ok,exists_const,require_ok,pure_ok]
  refine ⟨prepared.some_,prepared.few,from_,prepared.sender,gasOwner,sponsored,package,packaged,systemId,located,distinct,
    draft,folded,tx,?_,bytes,encoded,rfl⟩
  rw [transfers_built,after.reclaimed]
  exact accepted

end Built

-- The owned inputs that a command consumes.
def consumed (tx : Transaction) : Command → List ObjectReference
  | .moveCall _ _ _ arguments => arguments.filterMap (fun argument => (tx.argument argument).bind owned)
  | .transferObjects _ _ => []

def transferred : Command → List Argument
  | .moveCall _ _ _ _ => []
  | .transferObjects objects _ => objects

def ConsumedBy (tx : Transaction) (i : Nat) (reference : ObjectReference) : Prop :=
  ∃ command, tx.commands[i]? = some command ∧ reference ∈ consumed tx command

-- The first commands delete the blobs of `ids`, in this order, and every blob
-- in one command only.
structure Consumption (sdk : Sdk) (package : String) (blobs : List ObjectInfo) (ids : List BlobId) (tx : Transaction) :
    Prop where
  length : ids.length = blobs.length
  deletes : ∀ i < ids.length, ∃ arguments, tx.commands[i]? = some (.moveCall package "system" "delete_blob" arguments)
  exact_ : ∀ (i : Nat) id, ids[i]? = some id → ∃ blob ∈ blobs, blob.blobId = some id ∧
    ∀ reference, ConsumedBy tx i reference ↔ Refers sdk blob reference
  once : ∀ blob ∈ blobs, ∃! i, ∃ reference, ConsumedBy tx i reference ∧ Refers sdk blob reference

structure Handover (count : Nat) (sender : Owner) (tx : Transaction) : Prop where
  results : tx.commands.flatMap transferred = results count
  transfers : ∀ i command, count ≤ i → tx.commands[i]? = some command →
    ∃ objects address, command = .transferObjects objects address ∧ objects.length ≤ 500 ∧
      tx.argument address = some (.pure sender)

-- The object that Sui reports is still the listed one.
structure Unchanged (sdk : Sdk) (owner : Owner) (blob object : ObjectInfo) : Prop where
  blobId : object.blobId = blob.blobId
  owner : sameOwner object.owner owner = true
  objectId : canonicalSuiAddress object.objectId = canonicalSuiAddress blob.objectId
  version : object.version = blob.version
  digest : sdk.parseDigest object.digest = sdk.parseDigest blob.digest

structure Freshness (sdk : Sdk) (owner : Owner) (blobs : List ObjectInfo) (built : BuiltTx) : Prop where
  expected : ∃ expected, expectedInputs sdk built.txBytes built.inputBlobIds = .ok expected ∧
    expected.map ExpectedInput.blobId = built.inputBlobIds ∧
    (∃ ordered, List.Perm ordered blobs ∧ List.Forall₂ (Reads sdk) ordered expected) ∧
    ∀ objects : ObjectId → Option ObjectInfo, ∃ current stale,
      fetchCurrent (fun ids => .ok (ids.map objects)) expected = .ok current ∧
      staleInputs sdk owner expected current = .ok stale ∧
      (stale = [] ↔ ∀ blob ∈ blobs, ∃ address object, canonicalSuiAddress blob.objectId = some address ∧
        objects address = some object ∧ Unchanged sdk owner blob object)

-- A failed command is blamed on the blobs whose inputs it consumes.
def Attribution (sdk : Sdk) (blobs : List ObjectInfo) (built : BuiltTx) (tx : Transaction) : Prop :=
  ∀ error position index batch rows, batch.inputBlobIds = some built.inputBlobIds →
    classifyExecutionFailure (.failure error (some position)) = .culpritInput index →
    ∀ id, id ∈ failureTargets batch rows (.culpritInput index) ↔
      ∃ blob ∈ blobs, blob.blobId = some id ∧ ∃ reference, Refers sdk blob reference ∧ ConsumedBy tx position reference

section Agreement
variable {sdk : Sdk} {package : String} {system : Input} {sender : Owner} {blobs ordered : List ObjectInfo}
  {entries : List ExpectedInput} {tx : Transaction}

theorem Laid.call (laid : Laid package system sender entries tx) {i : Nat} (below : i < entries.length) :
    tx.commands[i]? = some (.moveCall package "system" "delete_blob" [.input 0,.input (i+1)]) := by
  rw [laid.commands,List.getElem?_append_left (by simpa [calls] using below)]
  simp [calls,List.getElem?_range below]

theorem Laid.transfer (laid : Laid package system sender entries tx) {i : Nat} {command : Command}
    (beyond : entries.length ≤ i) (at_ : tx.commands[i]? = some command) :
    ∃ part ∈ chunks transferObjectsChunk (results entries.length),
      command = .transferObjects part (.input (entries.length+1)) := by
  rw [laid.commands,List.getElem?_append_right (by simpa [calls] using beyond)] at at_
  obtain ⟨part,member,rfl⟩ := List.mem_map.mp (List.mem_of_getElem? at_)
  exact ⟨part,member,rfl⟩

theorem Laid.consumes (laid : Laid package system sender entries tx) (shared : owned system = none) {i : Nat}
    {reference : ObjectReference} :
    ConsumedBy tx i reference ↔ ∃ entry, entries[i]? = some entry ∧ entry.reference = reference := by
  have head : (tx.argument (.input 0)).bind owned = none := by simpa [Transaction.argument,laid.inputs] using shared
  rcases Nat.lt_or_ge i entries.length with below | beyond
  · have input : (tx.argument (.input (i+1))).bind owned = some entries[i].reference := by
      rw [Transaction.argument,laid.inputs,List.cons_append,List.getElem?_cons_succ,
        List.getElem?_append_left (by simpa using below)]
      simp [List.getElem?_eq_getElem below,owned]
    have exactly : consumed tx (.moveCall package "system" "delete_blob" [.input 0,.input (i+1)]) =
        [entries[i].reference] := by
      simp [consumed,head,input]
    rw [ConsumedBy,laid.call below,List.getElem?_eq_getElem below]
    simp [exactly,eq_comm]
  · rw [ConsumedBy,List.getElem?_eq_none beyond]
    constructor
    · intro found
      obtain ⟨command,at_,member⟩ := found
      obtain ⟨part,_,rfl⟩ := laid.transfer beyond at_
      cases member
    · intro found
      obtain ⟨entry,⟨⟩,_⟩ := found

theorem Laid.handover (laid : Laid package system sender entries tx) : Handover entries.length sender tx where
  results := by
    have whole : (chunks transferObjectsChunk (results entries.length)).flatten = results entries.length :=
      chunks_flatten (by decide) _
    have silent : (calls package entries.length).flatMap transferred = [] := by
      simp [calls,List.flatMap_map,transferred]
    rw [laid.commands,List.flatMap_append,silent,List.nil_append,List.flatMap_map]
    simpa [transferred,List.flatMap_id'] using whole
  transfers := by
    intro i command beyond at_
    obtain ⟨part,member,rfl⟩ := laid.transfer beyond at_
    refine ⟨part,_,rfl,chunksFrom_short part member,?_⟩
    simp [Transaction.argument,laid.inputs]

theorem reads_at (reads : List.Forall₂ (Reads sdk) ordered entries) {i : Nat} {entry : ExpectedInput}
    (at_ : entries[i]? = some entry) : ∃ blob, ordered[i]? = some blob ∧ Reads sdk blob entry := by
  obtain ⟨below,rfl⟩ := List.getElem?_eq_some_iff.mp at_
  have here : i < ordered.length := reads.length_eq ▸ below
  exact ⟨ordered[i],List.getElem?_eq_getElem here,reads.get here below⟩

-- Objects at different addresses have different references.
theorem positions_unique (perm : List.Perm ordered blobs) (reads : List.Forall₂ (Reads sdk) ordered entries)
    (apart : (blobs.map (fun blob => canonicalSuiAddress blob.objectId)).Nodup) {blob : ObjectInfo}
    (listed : blob ∈ blobs) :
    ∃ i, ∃ entry, ordered[i]? = some blob ∧ entries[i]? = some entry ∧ Reads sdk blob entry ∧
      ∀ (j : Nat) other, entries[j]? = some other → Refers sdk blob other.reference → j = i := by
  have distinct : (ordered.map (fun blob => canonicalSuiAddress blob.objectId)).Nodup :=
    (perm.map _).nodup_iff.mpr apart
  obtain ⟨i,below,rfl⟩ := List.mem_iff_getElem.mp (perm.mem_iff.mpr listed)
  have here : i < entries.length := reads.length_eq ▸ below
  refine ⟨i,entries[i],List.getElem?_eq_getElem below,List.getElem?_eq_getElem here,reads.get below here,?_⟩
  intro j other at_ refers
  obtain ⟨twin,placed,read⟩ := reads_at reads at_
  obtain ⟨short,rfl⟩ := List.getElem?_eq_some_iff.mp placed
  have equal : canonicalSuiAddress ordered[j].objectId = canonicalSuiAddress ordered[i].objectId :=
    read.reference.objectId.trans refers.objectId.symm
  exact (@List.Nodup.getElem_inj_iff _ _ distinct _ (by simpa using short) _ (by simpa using below)).mp (by simpa using equal)

theorem Laid.consumption (laid : Laid package system sender entries tx) (shared : owned system = none)
    (perm : List.Perm ordered blobs) (reads : List.Forall₂ (Reads sdk) ordered entries)
    (apart : (blobs.map (fun blob => canonicalSuiAddress blob.objectId)).Nodup) :
    Consumption sdk package blobs (entries.map ExpectedInput.blobId) tx where
  length := by rw [List.length_map,← reads.length_eq,perm.length_eq]
  deletes := by
    intro i below
    exact ⟨_,laid.call (by simpa using below)⟩
  exact_ := by
    intro i id at_
    obtain ⟨entry,there,rfl⟩ := List.getElem?_map ▸ at_ |> Option.map_eq_some_iff.mp
    obtain ⟨blob,placed,read⟩ := reads_at reads there
    refine ⟨blob,perm.mem_iff.mp (List.mem_of_getElem? placed),read.blobId,fun reference => ?_⟩
    rw [laid.consumes shared]
    constructor
    · intro found
      obtain ⟨other,again,rfl⟩ := found
      cases there.symm.trans again
      exact read.reference
    · intro refers
      exact ⟨entry,there,read.reference.unique refers⟩
  once := by
    intro blob listed
    obtain ⟨i,entry,_,there,read,unique⟩ := positions_unique perm reads apart listed
    refine ⟨i,⟨entry.reference,(laid.consumes shared).mpr ⟨entry,there,rfl⟩,read.reference⟩,?_⟩
    intro j found
    obtain ⟨reference,consumes,refers⟩ := found
    obtain ⟨other,at_,rfl⟩ := (laid.consumes shared).mp consumes
    exact unique j other at_ refers

theorem Laid.attribution (laid : Laid package system sender entries tx) (shared : owned system = none)
    (perm : List.Perm ordered blobs) (reads : List.Forall₂ (Reads sdk) ordered entries) (built : BuiltTx)
    (ids : built.inputBlobIds = entries.map ExpectedInput.blobId)
    (apart : (blobs.map (fun blob => canonicalSuiAddress blob.objectId)).Nodup) :
    Attribution sdk blobs built tx := by
  intro error position index batch rows mapping classified id
  have offset : index = position + 1 := by
    cases error with
    | moveAbort module_ functionName code =>
      simp only [classifyExecutionFailure,culprit] at classified
      split at classified
      · cases classified
      · exact (FailureClass.culpritInput.inj classified).symm
    | inputObjectDeleted => exact (FailureClass.culpritInput.inj classified).symm
    | commandArgumentError => exact (FailureClass.culpritInput.inj classified).symm
    | consensusObjectCongestion => cases classified
    | other => cases classified
  have blamed : id ∈ failureTargets batch rows (.culpritInput index) ↔
      ∃ entry, entries[position]? = some entry ∧ entry.blobId = id := by
    simp [offset,failureTargets,mapping,ids]
  rw [blamed]
  constructor
  · intro found
    obtain ⟨entry,there,rfl⟩ := found
    obtain ⟨blob,placed,read⟩ := reads_at reads there
    exact ⟨blob,perm.mem_iff.mp (List.mem_of_getElem? placed),read.blobId,entry.reference,read.reference,
      (laid.consumes shared).mpr ⟨entry,there,rfl⟩⟩
  · intro found
    obtain ⟨blob,listed,named,reference,refers,consumes⟩ := found
    obtain ⟨entry,there,rfl⟩ := (laid.consumes shared).mp consumes
    obtain ⟨i,_,_,at_,read,unique⟩ := positions_unique perm reads apart listed
    cases unique position entry there refers
    cases at_.symm.trans there
    exact ⟨entry,there,Option.some.inj (read.blobId.symm.trans named)⟩

theorem owned_laid (laid : Laid package system sender entries tx) (shared : owned system = none) :
    tx.inputs.filterMap owned = entries.map ExpectedInput.reference := by
  have each : (owned ∘ fun entry : ExpectedInput => .immutableOrOwned entry.reference) =
      some ∘ ExpectedInput.reference := rfl
  rw [laid.inputs,List.filterMap_append,List.filterMap_cons_none shared,List.filterMap_map,each]
  simp [owned]

theorem expectedInputs_laid (laid : Laid package system sender entries tx) (shared : owned system = none)
    {built : BuiltTx} (decoded : sdk.fromBytes built.txBytes = some tx)
    (ids : built.inputBlobIds = entries.map ExpectedInput.blobId) :
    expectedInputs sdk built.txBytes built.inputBlobIds = .ok entries := by
  have paired : ((entries.map ExpectedInput.blobId).zip (entries.map ExpectedInput.reference)).map
      (fun pair => (⟨pair.1,pair.2⟩ : ExpectedInput)) = entries := by
    rw [List.zip_map',List.map_map]
    exact List.map_id _
  simp only [expectedInputs,decoded,ids,bind_ok,require_ok,ensure_ok,pure_ok,exists_const]
  refine ⟨tx,rfl,?_,?_⟩
  · rw [owned_laid laid shared,List.length_map,List.length_map]
  · rw [owned_laid laid shared,paired]

theorem fetchCurrent_all (objects : ObjectId → Option ObjectInfo) (expected : List ExpectedInput) :
    fetchCurrent (fun ids => .ok (ids.map objects)) expected =
      .ok (expected.map (fun input => objects input.reference.objectId)) := by
  have gathered : ∀ (parts : List (List ObjectId)) (found : List (Option ObjectInfo)),
      parts.foldlM (fun objects' chunk => do
        let more ← (.ok (chunk.map objects) : Except SuiErr _)
        return objects' ++ more) found = .ok (found ++ parts.flatten.map objects) := by
    intro parts
    induction parts with
    | nil => simp [pure,Except.pure]
    | cons part rest ih =>
      intro found
      rw [List.foldlM_cons,List.flatten_cons,List.map_append,← List.append_assoc]
      exact ih _
  have whole := @chunks_flatten _ 100 (by decide) (expected.map (fun input => input.reference.objectId))
  rw [fetchCurrent,gathered,whole]
  simp

theorem staleReason_none {owner : Owner} {blob : ObjectInfo} {entry : ExpectedInput} (read : Reads sdk blob entry)
    (found : Option ObjectInfo) :
    staleReason sdk owner entry found = none ↔ ∃ object, found = some object ∧ Unchanged sdk owner blob object := by
  cases found with
  | none => simp [staleReason]
  | some object =>
    constructor
    · intro fresh
      simp only [staleReason] at fresh
      split at fresh
      · cases fresh
      · next kept =>
        split at fresh
        · cases fresh
        · next same =>
          simp only [not_or,not_not,ne_eq,Bool.not_eq_false] at kept same
          exact ⟨object,rfl,kept.1.trans read.blobId.symm,kept.2,same.1.trans read.reference.objectId.symm,
            same.2.1.trans read.reference.version.symm,same.2.2.trans read.reference.digest.symm⟩
    · intro given
      obtain ⟨_,⟨⟩,same⟩ := given
      have kept : object.blobId = some entry.blobId := same.blobId.trans read.blobId
      have id := same.objectId.trans read.reference.objectId
      have version := same.version.trans read.reference.version
      have digest := same.digest.trans read.reference.digest
      simp [staleReason,kept,same.owner,id,version,digest]

theorem stale_none {owner : Owner} (objects : ObjectId → Option ObjectInfo)
    (reads : List.Forall₂ (Reads sdk) ordered entries) :
    (∀ entry ∈ entries, staleReason sdk owner entry (objects entry.reference.objectId) = none) ↔
      ∀ blob ∈ ordered, ∃ address object, canonicalSuiAddress blob.objectId = some address ∧
        objects address = some object ∧ Unchanged sdk owner blob object := by
  induction reads with
  | nil => simp
  | @cons blob entry _ _ read _ ih =>
    have here : (∃ object, objects entry.reference.objectId = some object ∧ Unchanged sdk owner blob object) ↔
        ∃ address object, canonicalSuiAddress blob.objectId = some address ∧ objects address = some object ∧
          Unchanged sdk owner blob object := by
      simp [read.reference.objectId]
    rw [List.forall_mem_cons,List.forall_mem_cons,ih,staleReason_none read,here]

theorem staleInputs_map (owner : Owner) (look : ExpectedInput → Option ObjectInfo) (expected : List ExpectedInput) :
    staleInputs sdk owner expected (expected.map look) = .ok (expected.filterMap (fun entry =>
      (staleReason sdk owner entry (look entry)).map (fun reason => ⟨entry.blobId,reason⟩))) := by
  have paired : expected.zip (expected.map look) = expected.map (fun entry => (entry,look entry)) := by
    simpa using (List.zip_map' : (expected.map id).zip (expected.map look) = _)
  simp only [staleInputs,bind_ok,ensure_ok,pure_ok,exists_const,List.length_map,true_and,paired,List.filterMap_map]
  rfl

theorem Laid.freshness (laid : Laid package system sender entries tx) (shared : owned system = none)
    (perm : List.Perm ordered blobs) (reads : List.Forall₂ (Reads sdk) ordered entries) {built : BuiltTx}
    (decoded : sdk.fromBytes built.txBytes = some tx) (ids : built.inputBlobIds = entries.map ExpectedInput.blobId)
    (owner : Owner) : Freshness sdk owner blobs built where
  expected := by
    refine ⟨entries,expectedInputs_laid laid shared decoded ids,ids.symm,⟨ordered,perm,reads⟩,fun objects => ?_⟩
    refine ⟨_,_,fetchCurrent_all objects entries,staleInputs_map owner _ entries,?_⟩
    have listed := @stale_none _ _ _ owner objects reads
    simp only [perm.mem_iff] at listed
    rw [← listed,List.filterMap_eq_nil_iff]
    simp

end Agreement

-- The routes' own view of a transaction, where an input is a row of the batch,
-- is this transaction's.
structure Shows (sdk : Sdk) (input : ObjectRef) (entry : ExpectedInput) : Prop where
  objectId : input.objectId = entry.reference.objectId
  version : input.version = entry.reference.version
  digest : sdk.parseDigest input.digest = some entry.reference.digest

theorem ownedInputs_show {sdk : Sdk} {ordered : List ObjectInfo} {entries : List ExpectedInput}
    (reads : List.Forall₂ (Reads sdk) ordered entries) :
    ∃ inputs, ordered.mapM ownedInput = .ok inputs ∧ inputs.map Prod.snd = entries.map ExpectedInput.blobId ∧
      List.Forall₂ (Shows sdk) (inputs.map Prod.fst) entries := by
  induction reads with
  | nil => exact ⟨[],rfl,rfl,.nil⟩
  | @cons blob entry _ _ read _ ih =>
    obtain ⟨inputs,mapped,ids,shown⟩ := ih
    refine ⟨(⟨entry.reference.objectId,blob.version,blob.digest⟩,entry.blobId) :: inputs,?_,?_,?_⟩
    · simp only [List.mapM_cons,ownedInput,SecurityDelete.parseAddress,read.reference.objectId,read.blobId,mapped,
        require]
      rfl
    · simp [ids]
    · exact .cons ⟨rfl,read.reference.version,read.reference.digest⟩ shown

theorem buildDeleteTx_refines {sdk : Sdk} (documented : sdk.Documented) {sender sponsor walrusPkg : String}
    {blobs : List ObjectInfo} {systemObj : SharedObjectInfo} {from_ : Owner}
    (prepared : Prepared sdk sender sponsor blobs walrusPkg systemObj from_)
    (apart : (canonicalSuiAddress systemObj.objectId :: blobs.map (fun blob => canonicalSuiAddress blob.objectId)).Nodup)
    (epoch gasPrice gasBudget nonce : Nat) (chainDigest : Bytes) :
    ∃ whole built expected,
      SecurityDelete.buildDeleteTx sender sponsor blobs walrusPkg systemObj epoch gasPrice gasBudget chainDigest nonce =
        .ok whole ∧
      buildDeleteTx sdk sender sponsor blobs walrusPkg systemObj epoch gasPrice gasBudget chainDigest nonce = .ok built ∧
      expectedInputs sdk built.txBytes built.inputBlobIds = .ok expected ∧ whole.inputBlobIds = built.inputBlobIds ∧
      List.Forall₂ (Shows sdk) whole.txBytes.inputs expected := by
  obtain ⟨built,tx,package,system,entries,ordered,made,decoded,packaged,rfl,reads,ids,shared,laid⟩ :=
    @buildDeleteTx_laid _ _ _ _ _ _ _ epoch _ _ _ _ documented prepared apart
  obtain ⟨inputs,mapped,named,shown⟩ := ownedInputs_show reads
  obtain ⟨gasOwner,sponsored⟩ := prepared.sponsor
  obtain ⟨systemId,located⟩ := prepared.system
  have distinct : repeatsObject (blobs.insertionSort (fun a b => blobBefore a b = true)) = false := by
    rw [← Bool.not_eq_true,prepared.ordered,not_not]
    refine List.Nodup.of_map canonicalSuiAddress ?_
    rw [List.map_map]
    exact (List.nodup_cons.mp apart).2
  obtain ⟨whole,assembled,listed,carried⟩ : ∃ whole,
      SecurityDelete.buildDeleteTx sender sponsor blobs walrusPkg systemObj epoch gasPrice gasBudget chainDigest nonce =
        .ok whole ∧ whole.inputBlobIds = inputs.map Prod.snd ∧ whole.txBytes.inputs = inputs.map Prod.fst := by
    simp only [SecurityDelete.buildDeleteTx,SecurityDelete.parseAddress,bind_ok,ensure_ok,exists_const,require_ok,pure_ok]
    exact ⟨_,⟨prepared.some_,prepared.few,_,prepared.sender,_,sponsored,_,packaged,_,located,distinct,_,mapped,rfl⟩,
      rfl,rfl⟩
  exact ⟨whole,built,entries,assembled,made,expectedInputs_laid laid shared decoded ids,
    listed.trans (named.trans ids.symm),carried ▸ shown⟩

-- With ids that parse, only an object that is listed twice is refused. Otherwise
-- the commands, the freshness check and the attribution of a failure all mean
-- the same object by one position.
theorem positions_agree {sdk : Sdk} (documented : sdk.Documented) {sender sponsor walrusPkg : String}
    {blobs : List ObjectInfo} {systemObj : SharedObjectInfo} {from_ : Owner}
    (prepared : Prepared sdk sender sponsor blobs walrusPkg systemObj from_) (epoch gasPrice gasBudget nonce : Nat)
    (chainDigest : Bytes) :
    let result := buildDeleteTx sdk sender sponsor blobs walrusPkg systemObj epoch gasPrice gasBudget chainDigest nonce
    (¬ (blobs.map ObjectInfo.objectId).Nodup → ∃ error, result = .error error) ∧
    ((canonicalSuiAddress systemObj.objectId :: blobs.map (fun blob => canonicalSuiAddress blob.objectId)).Nodup →
      ∃ built tx package, result = .ok built ∧ sdk.fromBytes built.txBytes = some tx ∧
        canonicalSuiAddress walrusPkg = some package ∧ Consumption sdk package blobs built.inputBlobIds tx ∧
        Handover blobs.length from_ tx ∧ (∀ owner, Freshness sdk owner blobs built) ∧
        Attribution sdk blobs built tx) := by
  refine ⟨buildDeleteTx_duplicate prepared,fun apart => ?_⟩
  obtain ⟨built,tx,package,system,entries,ordered,made,decoded,packaged,sorted,reads,ids,shared,laid⟩ :=
    buildDeleteTx_laid documented prepared apart
  have perm : List.Perm ordered blobs := sorted ▸ List.perm_insertionSort _ blobs
  have distinct := (List.nodup_cons.mp apart).2
  have count : entries.length = blobs.length := reads.length_eq ▸ perm.length_eq
  refine ⟨built,tx,package,made,decoded,packaged,?_,count ▸ laid.handover,
    laid.freshness shared perm reads decoded ids,laid.attribution shared perm reads built ids distinct⟩
  rw [ids]
  exact laid.consumption shared perm reads distinct

section Sample

instance encodableByte : Encodable UInt8 := Encodable.ofLeftInverse UInt8.toNat UInt8.ofNat (fun n => by simp)

instance encodableChar : Encodable Char := Encodable.ofLeftInverse Char.toNat Char.ofNat Char.ofNat_toNat

instance encodableString : Encodable String := Encodable.ofLeftInverse String.toList String.ofList (fun text => by simp)

instance : Encodable Owner := inferInstanceAs (Encodable String)

deriving instance Encodable for ObjectReference
deriving instance Encodable for Input
deriving instance Encodable for Argument
deriving instance Encodable for Command
deriving instance Encodable for ValidDuring
deriving instance Encodable for Transaction

def base58Alphabet : String := "123456789ABCDEFGHJKLMNPQRSTUVWXYZabcdefghijkmnopqrstuvwxyz"

-- A digest is 32 bytes in base 58, each zero byte in front of them a '1'.
def digestBytes (text : List Char) : Option Bytes := do
  let digits ← text.mapM (fun c => base58Alphabet.toList.idxOf? c)
  let value : Nat := digits.foldl (fun n d => 58 * n + d) 0
  let zeros : Nat := (digits.takeWhile (fun d => d == 0)).length
  guard (zeros ≤ 32 ∧ value < 256 ^ (32 - zeros) ∧ (zeros = 32 ∨ 256 ^ (31 - zeros) ≤ value))
  return (Bytes.writeLe 32 value).reverse

-- A kit whose bytes are the number of the transaction.
def sampleSdk : Sdk where
  parseDigest text := digestBytes text.toList
  tryBuild builder := do
    guard (builder.gasObjects ≠ [] ∧ builder.objectIds.Nodup)
    return ⟨builder.inputs,builder.commands,← builder.sender,← builder.sponsor,builder.gasObjects,← builder.gasPrice,
      ← builder.gasBudget,← builder.expiration⟩
  transactionDigest tx := toString (Encodable.encode tx)
  toBytes tx := some (Bytes.writeUleb (Encodable.encode tx))
  fromBytes bytes := (Bytes.readUleb bytes).bind (fun read => Encodable.decode read.1)

theorem sampleSdk_documented : sampleSdk.Documented where
  builds := by
    rintro builder ⟨_,_,_,_,_,_,_,_⟩ ⟨rfl,rfl,sender,sponsor,gasPrice,gasBudget,expiration,rfl⟩ gas distinct
    simp only [sampleSdk,sender,sponsor,gasPrice,gasBudget,expiration]
    simp [gas,distinct]
  encodes := fun tx _ _ => ⟨_,rfl⟩
  decodes := by
    intro tx bytes encoded
    have read := Bytes.readUleb_write (Encodable.encode tx) []
    rw [List.append_nil] at read
    rw [← Option.some.inj encoded]
    simp only [sampleSdk,read,Option.bind_some,Encodable.encodek]

-- The digest of 32 bytes 1.
def sampleDigest : String := "4vJ9JU1bJJE96FWSJKvHsmmFADCg4gpZQff4P3bkLKi"

theorem sampleDigest_parsed : sampleSdk.parseDigest sampleDigest = some (List.replicate 32 1) := by
  decide +kernel

def sampleBlob (objectId : ObjectId) (blobId : BlobId) : ObjectInfo :=
  ⟨objectId,7,sampleDigest,some "0x5",some blobId,none⟩

theorem sample_prepared (blobs : List ObjectInfo)
    (listed : blobs = [sampleBlob "0xb" "x",sampleBlob "0xa" "y"] ∨ blobs = [sampleBlob "0xb" "x",sampleBlob "0xb" "x"]) :
    Prepared sampleSdk "0x5" "0x6" blobs "0x2" ⟨"0x3",1,true,none⟩
      "0x0000000000000000000000000000000000000000000000000000000000000005" where
  some_ := by rcases listed with rfl | rfl <;> simp
  few := by rcases listed with rfl | rfl <;> decide
  reads := by
    have read : ∀ objectId blobId address, canonicalSuiAddress objectId = some address →
        ∃ entry, Reads sampleSdk (sampleBlob objectId blobId) entry := fun objectId blobId address parsed =>
      ⟨⟨blobId,address,7,List.replicate 32 1⟩,rfl,parsed,rfl,sampleDigest_parsed⟩
    rcases listed with rfl | rfl <;> intro blob member <;> simp at member <;>
      rcases member with rfl | rfl <;> exact read _ _ _ rfl
  same := by rcases listed with rfl | rfl <;> simp [sampleBlob]
  sender := rfl
  sponsor := ⟨_,rfl⟩
  package := ⟨_,rfl⟩
  system := ⟨_,rfl⟩

end Sample

-- Two blobs are deleted in the order of their blob ids, and one blob twice is
-- refused.
theorem positions_agree_two :
    (∃ error, buildDeleteTx sampleSdk "0x5" "0x6" [sampleBlob "0xb" "x",sampleBlob "0xb" "x"] "0x2"
      ⟨"0x3",1,true,none⟩ 9 1000 5000 [] 1 = .error error) ∧
    ∃ built tx package, buildDeleteTx sampleSdk "0x5" "0x6" [sampleBlob "0xb" "x",sampleBlob "0xa" "y"] "0x2"
        ⟨"0x3",1,true,none⟩ 9 1000 5000 [] 1 = .ok built ∧ sampleSdk.fromBytes built.txBytes = some tx ∧
      Consumption sampleSdk package [sampleBlob "0xb" "x",sampleBlob "0xa" "y"] built.inputBlobIds tx ∧
      Handover 2 "0x0000000000000000000000000000000000000000000000000000000000000005" tx ∧
      Attribution sampleSdk [sampleBlob "0xb" "x",sampleBlob "0xa" "y"] built tx := by
  constructor
  · exact (positions_agree sampleSdk_documented (sample_prepared _ (.inr rfl)) 9 1000 5000 1 []).1 (by simp)
  · obtain ⟨built,tx,package,made,decoded,_,consumption,handover,_,attribution⟩ :=
      (positions_agree sampleSdk_documented (sample_prepared _ (.inl rfl)) 9 1000 5000 1 []).2 (by decide)
    exact ⟨built,tx,package,made,decoded,consumption,handover,attribution⟩

end MemWal.SecurityDelete.Transactions
