import MemWal.Library.Batches
import MemWal.Library.Requests
import MemWal.Recall.Ranking
import MemWal.Restore.Routes

namespace MemWal.Recall.WalrusSeal
open Library Library.Batches
open Restore (AppError SealCredential AuthInfo Download fromAuthOrFallback permanentFromError fromUtf8)

-- The standard alphabet with padding, of the `base64` crate.
structure Base64 where
  encode : Bytes → String
  decode : String → Except String Bytes

structure Engine where
  config : Restore.Config
  blobCacheTtlSecs : Nat
  blobCacheMaxBytes : Nat
  base64 : Base64

-- storage/seal.rs

inductive DecryptOutcome where
  | ok (plaintext : Bytes)
  | failed (error : String) (permanent : Bool)
  | missing
  deriving DecidableEq

structure BatchDecryptItem where
  index : Nat
  decryptedData : String
  deriving DecidableEq, Repr

structure BatchDecryptError where
  index : Nat
  error : String
  deriving DecidableEq, Repr

structure SealDecryptBatchResponse where
  results : List BatchDecryptItem
  errors : List BatchDecryptError
  deriving DecidableEq, Repr

inductive SealAbi where
  | v1 | v1New
  deriving DecidableEq, Repr

structure SealDecryptBatchRequest where
  items : List String
  packageId : Text
  policyPackageId : Text
  registryId : Text
  accountId : Text
  sealAbi : SealAbi
  deriving DecidableEq, Repr

-- What comes back from the sidecar: `status` has the error of its body, where the
-- body is JSON that has one.
inductive BatchReply where
  | transport (error : String)
  | status (sidecarError : Option String) (body : String)
  | unparsed (error : String)
  | answered (response : SealDecryptBatchResponse)
  deriving DecidableEq, Repr

inductive Op where
  | cacheGet (blobId : Text)
  | download (blobId : Text)
  | cachePut (blobId : Text) (ciphertext : Bytes) (ttlSecs : Nat)
  | deleteByBlobId (blobId owner ns : Text)
  | sealDecryptBatch (request : SealDecryptBatchRequest) (credential : SealCredential)
  deriving DecidableEq

@[reducible] def Answer : Op → Type
  | .cacheGet _ => Except String (Option Bytes)
  | .download _ => Download
  | .cachePut _ _ _ | .deleteByBlobId _ _ _ => Except String Unit
  | .sealDecryptBatch _ _ => BatchReply

abbrev Handler := Program Op Answer AppError

def call (op : Op) : Handler (Answer op) := .perform op

-- Nothing is known of the cache, the aggregators, the database and the sidecar:
-- each call has the answer it has.
def answers (s : Unit) (op : Op) (c : (op : Op) → Answer op) : Unit × Answer op := (s,c op)

def placeResult (base64 : Base64) (item : BatchDecryptItem) : DecryptOutcome :=
  match base64.decode item.decryptedData with
  | .ok bytes => .ok bytes
  | .error e => .failed s!"base64 decode failed: {e}" false

def placeError (err : BatchDecryptError) : DecryptOutcome := .failed err.error (permanentFromError err.error)

-- The results are written first, the errors over them.
def batchOutcomes (base64 : Base64) (count : Nat) (response : SealDecryptBatchResponse) : List DecryptOutcome :=
  let out := List.replicate count DecryptOutcome.missing
  let out := response.results.foldl (fun out item =>
    if item.index < out.length then out.set item.index (placeResult base64 item) else out) out
  response.errors.foldl (fun out err => if err.index < out.length then out.set err.index (placeError err) else out) out

def batchRequest (engine : Engine) (auth : AuthInfo) (encryptedBlobs : List (Text × Bytes)) : SealDecryptBatchRequest where
  items := encryptedBlobs.map (fun blob => engine.base64.encode blob.2)
  packageId := engine.config.packageId
  policyPackageId := engine.config.sealPolicyPackageId
  registryId := engine.config.registryId
  accountId := auth.accountId
  sealAbi := .v1New

def sealDecryptBatch (engine : Engine) (auth : AuthInfo) (credential : SealCredential)
    (encryptedBlobs : List (Text × Bytes)) : Handler (List DecryptOutcome) :=
  if encryptedBlobs = [] then return []
  else do
    match ← call (.sealDecryptBatch (batchRequest engine auth encryptedBlobs) credential) with
    | .transport e => .fail (.internal s!"Sidecar seal/decrypt-batch request failed: {e}. Is the sidecar running?")
    | .status (some error) _ => .fail (.internal s!"seal decrypt-batch failed: {error}")
    | .status none body => .fail (.internal s!"seal decrypt-batch failed: {body}")
    | .unparsed e => .fail (.internal s!"Failed to parse seal/decrypt-batch response: {e}")
    | .answered response => return batchOutcomes engine.base64 encryptedBlobs.length response

-- engine/walrus_seal.rs

def sealDecryptBatchSize : Nat := 25

def credential (engine : Engine) (auth : AuthInfo) : Except AppError SealCredential :=
  match fromAuthOrFallback auth engine.config.suiPrivateKey with
  | some credential => .ok credential
  | none => .error (.internal "SEAL credential required (x-seal-session, x-delegate-key, or SERVER_SUI_PRIVATE_KEY)")

inductive CacheReadDecision where
  | serve | ignoreOversize
  deriving DecidableEq, Repr

def readDecision (ciphertextLen maxBytes : Nat) : CacheReadDecision :=
  if ciphertextLen ≤ maxBytes then .serve else .ignoreOversize

inductive CacheWriteDecision where
  | skip | skipOversize | write
  deriving DecidableEq, Repr

def writeDecision (ciphertextLen maxBytes ttlSecs : Nat) : CacheWriteDecision :=
  if ttlSecs = 0 ∨ maxBytes = 0 then .skip
  else if ciphertextLen > maxBytes then .skipOversize
  else .write

def cacheGet (engine : Engine) (blobId : Text) : Handler (Option Bytes) :=
  if engine.blobCacheMaxBytes = 0 then return none
  else do
    match ← call (.cacheGet blobId) with
    | .ok (some ciphertext) =>
      match readDecision ciphertext.length engine.blobCacheMaxBytes with
      | .serve => return some ciphertext
      | .ignoreOversize => return none
    | .ok none => return none
    | .error _ => return none

def cachePut (engine : Engine) (blobId : Text) (ciphertext : Bytes) : Handler Unit :=
  match writeDecision ciphertext.length engine.blobCacheMaxBytes engine.blobCacheTtlSecs with
  | .skip | .skipOversize => return ()
  | .write => do
    let _ ← call (.cachePut blobId ciphertext engine.blobCacheTtlSecs)
    return ()

def fetchCiphertext (engine : Engine) (blobId owner ns : Text) : Handler (Option (Bytes × Bool)) := do
  match ← cacheGet engine blobId with
  | some ciphertext => return some (ciphertext,true)
  | none =>
    match ← call (.download blobId) with
    | .data ciphertext => do
      cachePut engine blobId ciphertext
      return some (ciphertext,false)
    | .blobNotFound => do
      let _ ← call (.deleteByBlobId blobId owner ns)
      return none
    | .failed => return none

section Batch
variable {δ : Type} (τ ι : Type)

-- `join_all`: whatever order the calls of the tasks come in, the results are in
-- the order of the tasks, and no task hears of another.
def fetchAll (engine : Engine) (owner ns : Text) (hits : List (Text × δ)) : Handler (List (Option (Bytes × Bool))) :=
  hits.foldlM (fun downloads hit => do
    let fetched ← fetchCiphertext engine hit.1 owner ns
    return downloads ++ [fetched]) []

structure Fetched (δ : Type) where
  blobId : Text
  distance : δ
  ciphertext : Bytes
  wasCached : Bool

def fetchedOf (hits : List (Text × δ)) (downloads : List (Option (Bytes × Bool))) : List (Fetched δ) :=
  (hits.zip downloads).filterMap (fun entry => entry.2.map (fun found => ⟨entry.1.1,entry.1.2,found.1,found.2⟩))

def decryptChunk (engine : Engine) (auth : AuthInfo) (credential : SealCredential) (decrypted : List DecryptOutcome)
    (chunk : List (Text × Bytes)) : Handler (List DecryptOutcome) := do
  match ← (sealDecryptBatch engine auth credential chunk).attempt with
  | .ok outcomes => return decrypted ++ outcomes
  | .error _ => return decrypted ++ List.replicate chunk.length .missing

variable {τ ι}

def hydrate (entry : (Text × δ) × DecryptOutcome) : Option (HydratedMemory δ τ ι) :=
  match entry.2 with
  | .ok plaintext => (fromUtf8 plaintext).map (fun text => ⟨entry.1.1,text,entry.1.2,none,none⟩)
  | .failed _ _ => none
  | .missing => none

def assembleDecrypted (fetched : List (Text × δ)) (outcomes : List DecryptOutcome) : List (HydratedMemory δ τ ι) × Nat :=
  (fetched.zip outcomes).foldl (fun acc entry =>
    match hydrate entry with
    | some memory => (acc.1 ++ [memory],acc.2)
    | none => (acc.1,acc.2 + 1)) ([],0)

def fetchBatch (engine : Engine) (owner ns : Text) (hits : List (Text × δ)) (auth : AuthInfo) :
    Handler (List (HydratedMemory δ τ ι) × Nat) :=
  if hits.isEmpty then return ([],0)
  else do
    let credential ← .orFail id (credential engine auth)
    let downloads ← fetchAll engine owner ns hits
    let fetched := fetchedOf hits downloads
    let downloadDrops := hits.length - fetched.length
    let batchInput := fetched.map (fun f => (f.blobId,f.ciphertext))
    let decrypted ← (chunks sealDecryptBatchSize batchInput).foldlM (decryptChunk engine auth credential) []
    let (results,decryptDrops) := assembleDecrypted (fetched.map (fun f => (f.blobId,f.distance))) decrypted
    return (results,downloadDrops + decryptDrops)

end Batch

abbrev Call := Made Unit Op ((op : Op) → Answer op)

section Assembly
variable {δ τ ι : Type}

theorem assemble_from (entries : List ((Text × δ) × DecryptOutcome)) (results : List (HydratedMemory δ τ ι)) (drops : Nat) :
    let assembled := entries.foldl (fun acc entry =>
      match hydrate entry with
      | some memory => (acc.1 ++ [memory],acc.2)
      | none => (acc.1,acc.2 + 1)) (results,drops)
    assembled.1 = results ++ entries.filterMap hydrate ∧
      assembled.1.length + assembled.2 = results.length + drops + entries.length := by
  induction entries generalizing results drops with
  | nil => exact ⟨(List.append_nil _).symm,rfl⟩
  | cons entry rest ih =>
    rw [List.foldl_cons]
    cases hydrated : (hydrate entry : Option (HydratedMemory δ τ ι)) with
    | some memory =>
      obtain ⟨listed,count⟩ := ih (results ++ [memory]) drops
      rw [List.filterMap_cons_some hydrated]
      refine ⟨by rw [listed,List.append_assoc,List.singleton_append],?_⟩
      rw [count,List.length_append,List.length_singleton,List.length_cons]
      omega
    | none =>
      obtain ⟨listed,count⟩ := ih results (drops + 1)
      rw [List.filterMap_cons_none hydrated]
      refine ⟨listed,?_⟩
      rw [count,List.length_cons]
      omega

theorem assembleDecrypted_spec (fetched : List (Text × δ)) (outcomes : List DecryptOutcome) :
    (assembleDecrypted fetched outcomes : List (HydratedMemory δ τ ι) × Nat).1 = (fetched.zip outcomes).filterMap hydrate ∧
      (assembleDecrypted fetched outcomes : List (HydratedMemory δ τ ι) × Nat).1.length +
        (assembleDecrypted fetched outcomes : List (HydratedMemory δ τ ι) × Nat).2 = (fetched.zip outcomes).length := by
  obtain ⟨listed,count⟩ := assemble_from (τ:=τ) (ι:=ι) (fetched.zip outcomes) [] 0
  refine ⟨listed,?_⟩
  rw [List.length_nil,Nat.zero_add] at count
  exact count

theorem hydrate_some {entry : (Text × δ) × DecryptOutcome} {memory : HydratedMemory δ τ ι}
    (hydrated : hydrate entry = some memory) : memory.blobId = entry.1.1 ∧ memory.distance = entry.1.2 ∧
      memory.createdAt = none ∧ memory.importance = none ∧ ∃ plaintext, entry.2 = .ok plaintext ∧ fromUtf8 plaintext = some memory.text := by
  unfold hydrate at hydrated
  split at hydrated
  · rename_i plaintext ok
    obtain ⟨text,read,same⟩ := Option.map_eq_some_iff.mp hydrated
    cases same
    exact ⟨rfl,rfl,rfl,rfl,plaintext,ok,read⟩
  · cases hydrated
  · cases hydrated

end Assembly

section Outcomes
variable {base64 : Base64} {count i : Nat} {response : SealDecryptBatchResponse}

theorem batchOutcomes_length : (batchOutcomes base64 count response).length = count := by
  unfold batchOutcomes
  simp only
  rw [foldl_set_length,foldl_set_length,List.length_replicate]

-- A plaintext at an index is the last result for it, and no error is.
theorem batchOutcomes_ok {plaintext : Bytes} (found : (batchOutcomes base64 count response)[i]? = some (.ok plaintext)) :
    (∃ item, response.results.reverse.find? (fun item => item.index = i) = some item ∧
      base64.decode item.decryptedData = .ok plaintext) ∧
    ∀ err ∈ response.errors, err.index ≠ i := by
  unfold batchOutcomes at found
  simp only at found
  rw [foldl_set,foldl_set_length,foldl_set,List.length_replicate] at found
  split at found
  · rename_i inside
    cases wrong : response.errors.reverse.find? (fun err => err.index = i) with
    | some err =>
      rw [wrong] at found
      cases found
    | none =>
      rw [wrong] at found
      simp only at found
      constructor
      · cases last : response.results.reverse.find? (fun item => item.index = i) with
        | some item =>
          rw [last] at found
          refine ⟨item,rfl,?_⟩
          have placed := Option.some.inj found
          unfold placeResult at placed
          split at placed
          · rename_i bytes decoded
            cases placed
            exact decoded
          · cases placed
        | none =>
          rw [last,List.getElem?_replicate,if_pos inside] at found
          cases found
      · intro err member same
        have absent := List.find?_eq_none.mp wrong err (List.mem_reverse.mpr member)
        exact absent (decide_eq_true same)
  · cases found

end Outcomes

section Decryption
variable {engine : Engine} {auth : AuthInfo} {credential : SealCredential}

def batchOp (engine : Engine) (auth : AuthInfo) (credential : SealCredential) (chunk : List (Text × Bytes)) : Op :=
  .sealDecryptBatch (batchRequest engine auth chunk) credential

-- What a chunk comes to, by the answer for it.
def chunkOutcomes (engine : Engine) (chunk : List (Text × Bytes)) : BatchReply → List DecryptOutcome
  | .answered response => batchOutcomes engine.base64 chunk.length response
  | _ => List.replicate chunk.length .missing

theorem chunkOutcomes_length (engine : Engine) (chunk : List (Text × Bytes)) (reply : BatchReply) :
    (chunkOutcomes engine chunk reply).length = chunk.length := by
  cases reply with
  | answered response => exact batchOutcomes_length
  | transport error => exact List.length_replicate
  | status sidecarError body => exact List.length_replicate
  | unparsed error => exact List.length_replicate

theorem sealDecryptBatch_completes {chunk : List (Text × Bytes)} {calls : List Call} {result : Except AppError (List DecryptOutcome)}
    (some_ : chunk ≠ []) (completes : Completes answers (sealDecryptBatch engine auth credential chunk) calls result) :
    ∃ made, calls = [made] ∧ made.op = batchOp engine auth credential chunk ∧
      result.toOption.getD (List.replicate chunk.length .missing) =
        chunkOutcomes engine chunk (made.choice (batchOp engine auth credential chunk)) := by
  unfold sealDecryptBatch at completes
  rw [if_neg some_] at completes
  cases calls with
  | nil => cases completes
  | cons made rest =>
    obtain ⟨same,completes⟩ := completes
    change Completes answers (match made.choice (batchOp engine auth credential chunk) with
      | .transport e => _ | .status (some error) _ => _ | .status none body => _ | .unparsed e => _
      | .answered response => _) rest result at completes
    refine ⟨made,?_,same,?_⟩
    · cases rest with
      | nil => rfl
      | cons next more =>
        split at completes <;> cases completes
    · cases rest with
      | nil =>
        split at completes <;> rename_i reply <;> cases completes <;> rw [reply] <;> rfl
      | cons next more =>
        split at completes <;> cases completes

theorem decryptChunk_ok {decrypted out : List DecryptOutcome} {chunk : List (Text × Bytes)} {calls : List Call}
    (some_ : chunk ≠ []) (completes : Completes answers (decryptChunk engine auth credential decrypted chunk) calls (.ok out)) :
    ∃ made, calls = [made] ∧ made.op = batchOp engine auth credential chunk ∧
      out = decrypted ++ chunkOutcomes engine chunk (made.choice (batchOp engine auth credential chunk)) := by
  unfold decryptChunk at completes
  obtain ⟨first,rest,result,rfl,attempted,completes⟩ := completes.bind_ok
  obtain ⟨inner,same,attempted⟩ := attempted.attempt
  obtain ⟨made,rfl,op,outcomes⟩ := sealDecryptBatch_completes some_ attempted
  cases same
  cases result with
  | ok value =>
    obtain ⟨rfl,rfl⟩ := Completes.pure_ok completes
    exact ⟨made,rfl,op,by rw [← outcomes]; rfl⟩
  | error e =>
    obtain ⟨rfl,rfl⟩ := Completes.pure_ok completes
    exact ⟨made,rfl,op,by rw [← outcomes]; rfl⟩

-- One call for each chunk, and the outcomes of the chunks in their order.
theorem decryptChunks_ok {decrypted out : List DecryptOutcome} {parts : List (List (Text × Bytes))} {calls : List Call}
    (nonempty : ∀ chunk ∈ parts, chunk ≠ [])
    (completes : Completes answers (parts.foldlM (decryptChunk engine auth credential) decrypted) calls (.ok out)) :
    List.Forall₂ (fun chunk (made : Call) => made.op = batchOp engine auth credential chunk) parts calls ∧
      out = decrypted ++ (parts.zip calls).flatMap (fun part =>
        chunkOutcomes engine part.1 (part.2.choice (batchOp engine auth credential part.1))) := by
  induction parts generalizing decrypted calls with
  | nil =>
    obtain ⟨rfl,rfl⟩ := Completes.pure_ok completes
    exact ⟨.nil,(List.append_nil _).symm⟩
  | cons chunk rest ih =>
    rw [List.foldlM_cons] at completes
    obtain ⟨first,later,between,rfl,head,tail⟩ := completes.bind_ok
    obtain ⟨made,rfl,op,rfl⟩ := decryptChunk_ok (nonempty chunk List.mem_cons_self) head
    obtain ⟨paired,rfl⟩ := ih (fun part member => nonempty part (List.mem_cons_of_mem _ member)) tail
    refine ⟨.cons op paired,?_⟩
    rw [List.append_assoc]
    rfl

end Decryption

section Fetches
variable {δ : Type} {engine : Engine} {owner ns : Text}

-- The calls for one hit, and what came of them.
abbrev Fetch := List Call × Option (Bytes × Bool)

theorem fetchAll_ok {hits : List (Text × δ)} {calls : List Call} {out : List (Option (Bytes × Bool))}
    (completes : Completes answers (fetchAll engine owner ns hits) calls (.ok out)) :
    ∃ fetches : List Fetch, calls = (fetches.map Prod.fst).flatten ∧ out = fetches.map Prod.snd ∧
      List.Forall₂ (fun hit fetch => Completes answers (fetchCiphertext engine hit.1 owner ns) fetch.1 (.ok fetch.2)) hits fetches := by
  suffices from_ : ∀ hits acc calls, Completes answers (hits.foldlM (fun downloads (hit : Text × δ) => do
        let fetched ← fetchCiphertext engine hit.1 owner ns
        return downloads ++ [fetched]) acc) calls (.ok out) →
      ∃ fetches : List Fetch, calls = (fetches.map Prod.fst).flatten ∧ out = acc ++ fetches.map Prod.snd ∧
        List.Forall₂ (fun hit fetch => Completes answers (fetchCiphertext engine hit.1 owner ns) fetch.1 (.ok fetch.2)) hits fetches from
    from_ hits [] calls completes
  intro hits
  induction hits with
  | nil =>
    intro acc calls completes
    obtain ⟨rfl,rfl⟩ := Completes.pure_ok completes
    exact ⟨[],rfl,(List.append_nil _).symm,.nil⟩
  | cons hit rest ih =>
    intro acc calls completes
    rw [List.foldlM_cons] at completes
    obtain ⟨first,later,between,rfl,head,tail⟩ := completes.bind_ok
    obtain ⟨front,back,fetched,rfl,fetching,ending⟩ := head.bind_ok
    obtain ⟨rfl,rfl⟩ := Completes.pure_ok ending
    obtain ⟨fetches,rfl,rfl,paired⟩ := ih _ _ tail
    refine ⟨(front,fetched) :: fetches,?_,?_,.cons fetching paired⟩
    · rw [List.append_nil]
      rfl
    · rw [List.append_assoc]
      rfl

theorem fetchedOf_length {hits : List (Text × δ)} {downloads : List (Option (Bytes × Bool))}
    (same : hits.length = downloads.length) : (fetchedOf hits downloads).length = (downloads.filterMap id).length := by
  induction hits generalizing downloads with
  | nil => rw [List.length_eq_zero_iff.mp same.symm]; rfl
  | cons hit rest ih =>
    cases downloads with
    | nil => cases same
    | cons download downloads =>
      have tail := ih (Nat.succ.inj same)
      cases download with
      | none => exact tail
      | some found => exact congrArg Nat.succ tail

-- A ciphertext in the input of the batches, the hit it was downloaded for, and
-- how many hits before that one have a ciphertext too.
theorem fetchedOf_place {hits : List (Text × δ)} {downloads : List (Option (Bytes × Bool))} {q : Nat} {f : Fetched δ}
    (same : hits.length = downloads.length) (found : (fetchedOf hits downloads)[q]? = some f) :
    ∃ p, hits[p]? = some (f.blobId,f.distance) ∧ downloads[p]? = some (some (f.ciphertext,f.wasCached)) ∧
      ((downloads.take p).filterMap id).length = q := by
  obtain ⟨p,entry,there,maps,count⟩ := filterMap_place found
  obtain ⟨hit,download⟩ := entry
  obtain ⟨present,loaded⟩ := List.getElem?_zip_eq_some.mp there
  obtain ⟨pair,rfl,rfl⟩ := Option.map_eq_some_iff.mp maps
  refine ⟨p,present,loaded,?_⟩
  have shorter : (hits.take p).length = (downloads.take p).length := by rw [List.length_take,List.length_take,same]
  rw [← count,← fetchedOf_length shorter]
  unfold fetchedOf
  exact congrArg (fun entries => (List.filterMap _ entries).length) List.take_zipWith.symm

end Fetches

-- What a response has for an index: the data of the last of its results there,
-- and no error.
structure Reported (base64 : Base64) (response : SealDecryptBatchResponse) (i : Nat) (plaintext : Bytes) : Prop where
  result : ∃ item, response.results.reverse.find? (fun item => item.index = i) = some item ∧
    base64.decode item.decryptedData = .ok plaintext
  sound : ∀ err ∈ response.errors, err.index ≠ i

section Recalls
variable {δ τ ι : Type}

-- A memory that was recalled for the hit at a position. Its ciphertext is the one
-- fetched there, and was sent at the place that the ciphertexts in front of it
-- leave for it: `i` in batch `b`.
structure Belongs (engine : Engine) (auth : AuthInfo) (hits : List (Text × δ)) (downloads : List (Option (Bytes × Bool)))
    (batches : List Call) (position : Nat) (memory : HydratedMemory δ τ ι) : Prop where
  hit : hits[position]? = some (memory.blobId,memory.distance)
  answered : ∃ ciphertext wasCached b i made credential chunk response plaintext,
    downloads[position]? = some (some (ciphertext,wasCached)) ∧
    b * sealDecryptBatchSize + i = ((downloads.take position).filterMap id).length ∧ i < sealDecryptBatchSize ∧
    batches[b]? = some made ∧ made.op = .sealDecryptBatch (batchRequest engine auth chunk) credential ∧
    (batchRequest engine auth chunk).items[i]? = some (engine.base64.encode ciphertext) ∧
    made.choice (.sealDecryptBatch (batchRequest engine auth chunk) credential) = .answered response ∧
    Reported engine.base64 response i plaintext ∧ fromUtf8 plaintext = some memory.text

theorem chunkOutcomes_ok {engine : Engine} {chunk : List (Text × Bytes)} {reply : BatchReply} {i : Nat} {plaintext : Bytes}
    (found : (chunkOutcomes engine chunk reply)[i]? = some (.ok plaintext)) :
    ∃ response, reply = .answered response ∧ Reported engine.base64 response i plaintext := by
  have missed : ∀ n : Nat, (List.replicate n DecryptOutcome.missing)[i]? ≠ some (.ok plaintext) := by
    intro n found
    rw [List.getElem?_replicate] at found
    split at found <;> cases found
  cases reply with
  | answered response =>
    obtain ⟨result,sound⟩ := batchOutcomes_ok found
    exact ⟨response,rfl,result,sound⟩
  | transport error => exact absurd found (missed _)
  | status sidecarError body => exact absurd found (missed _)
  | unparsed error => exact absurd found (missed _)

variable {engine : Engine} {auth : AuthInfo} {credential : SealCredential} {hits : List (Text × δ)}
  {downloads : List (Option (Bytes × Bool))} {batches : List Call}

-- The outcomes that the calls for the chunks come to.
def outcomesOf (engine : Engine) (auth : AuthInfo) (credential : SealCredential) (input : List (Text × Bytes))
    (batches : List Call) : List DecryptOutcome :=
  ((chunks sealDecryptBatchSize input).zip batches).flatMap (fun part =>
    chunkOutcomes engine part.1 (part.2.choice (batchOp engine auth credential part.1)))

theorem belongs_at {q : Nat} {f : Fetched δ} {memory : HydratedMemory δ τ ι}
    (same : hits.length = downloads.length) (there : (fetchedOf hits downloads)[q]? = some f)
    (sent : List.Forall₂ (fun chunk (made : Call) => made.op = batchOp engine auth credential chunk)
      (chunks sealDecryptBatchSize ((fetchedOf hits downloads).map (fun f => (f.blobId,f.ciphertext)))) batches)
    {outcome : DecryptOutcome}
    (outcomes : (outcomesOf engine auth credential ((fetchedOf hits downloads).map (fun f => (f.blobId,f.ciphertext))) batches)[q]? =
      some outcome)
    (hydrated : hydrate ((f.blobId,f.distance),outcome) = some memory) :
    ∃ p, ((downloads.take p).filterMap id).length = q ∧ Belongs engine auth hits downloads batches p memory := by
  obtain ⟨blobId,distance,_,_,plaintext,rfl,read⟩ := hydrate_some hydrated
  obtain ⟨p,hit,loaded,count⟩ := fetchedOf_place same there
  obtain ⟨b,i,chunk,made,place,small,cut,answer,input,outcome⟩ :=
    located (fun part _ => chunkOutcomes_length engine part.1 _) outcomes
  obtain ⟨response,reply,reported⟩ := chunkOutcomes_ok outcome
  have op : made.op = batchOp engine auth credential chunk := by
    obtain ⟨below,rfl⟩ := List.getElem?_eq_some_iff.mp cut
    obtain ⟨below',rfl⟩ := List.getElem?_eq_some_iff.mp answer
    exact sent.get below below'
  have item : (batchRequest engine auth chunk).items[i]? = some (engine.base64.encode f.ciphertext) := by
    have input' : chunk[i]? = some (f.blobId,f.ciphertext) := by rw [input,List.getElem?_map,there]; rfl
    change (chunk.map _)[i]? = _
    rw [List.getElem?_map,input']
    rfl
  refine ⟨p,count,?_,f.ciphertext,f.wasCached,b,i,made,credential,chunk,response,plaintext,loaded,?_,small,answer,op,item,
    reply,reported,read⟩
  · rw [hit,blobId,distance]
  · rw [count,place]

-- The parts that a recall with a result is made of.
theorem fetchBatch_parts {owner ns : Text} {calls : List Call} {results : List (HydratedMemory δ τ ι)} {dropped : Nat}
    (some_ : hits ≠ []) (completes : Completes answers (fetchBatch engine owner ns hits auth) calls (.ok (results,dropped))) :
    ∃ credential fetches batches, WalrusSeal.credential engine auth = .ok credential ∧
      calls = ((fetches : List Fetch).map Prod.fst).flatten ++ batches ∧
      List.Forall₂ (fun hit fetch => Completes answers (fetchCiphertext engine hit.1 owner ns) fetch.1 (.ok fetch.2)) hits fetches ∧
      List.Forall₂ (fun chunk (made : Call) => made.op = batchOp engine auth credential chunk)
        (chunks sealDecryptBatchSize ((fetchedOf hits (fetches.map Prod.snd)).map (fun f => (f.blobId,f.ciphertext)))) batches ∧
      let fetched := fetchedOf hits (fetches.map Prod.snd)
      let assembled := assembleDecrypted (fetched.map (fun f => (f.blobId,f.distance)))
        (outcomesOf engine auth credential (fetched.map (fun f => (f.blobId,f.ciphertext))) batches)
      results = assembled.1 ∧ dropped = hits.length - fetched.length + assembled.2 := by
  unfold fetchBatch at completes
  rw [if_neg (by simpa using some_)] at completes
  obtain ⟨none_,calls,credential,rfl,credentials,body⟩ := completes.bind_ok
  obtain ⟨rfl,given⟩ := credentials.orFail_ok
  obtain ⟨early,late,downloads,rfl,fetching,decrypts⟩ := body.bind_ok
  obtain ⟨fetches,rfl,rfl,paired⟩ := fetchAll_ok fetching
  obtain ⟨batches,rest,decrypted,rfl,decrypting,ends⟩ := decrypts.bind_ok
  obtain ⟨sent,rfl⟩ := decryptChunks_ok (chunks_nonempty (by decide)) decrypting
  obtain ⟨rfl,same⟩ := Completes.pure_ok ends
  obtain ⟨rfl,rfl⟩ := Prod.mk.inj same
  exact ⟨credential,fetches,batches,given,by rw [List.append_nil]; rfl,paired,sent,rfl,rfl⟩

theorem outcomesOf_length {input : List (Text × Bytes)}
    (sent : List.Forall₂ (fun chunk (made : Call) => made.op = batchOp engine auth credential chunk)
      (chunks sealDecryptBatchSize input) batches) :
    (outcomesOf engine auth credential input batches).length = input.length := by
  have count := answers_length sent.length_eq (fun part _ => chunkOutcomes_length engine part.1
    (part.2.choice (batchOp engine auth credential part.1)))
  rw [chunks_flatten (by decide)] at count
  exact count

theorem fetchCiphertext_unfailing (owner ns blobId : Text) : (fetchCiphertext engine blobId owner ns).Unfailing := by
  have reads : (cacheGet engine blobId).Unfailing := by
    unfold cacheGet
    split
    · trivial
    · intro answer
      cases answer with
      | error e => trivial
      | ok found =>
        cases found with
        | none => trivial
        | some ciphertext =>
          change Program.Unfailing (match readDecision ciphertext.length engine.blobCacheMaxBytes with
            | .serve => _ | .ignoreOversize => _)
          split <;> trivial
  have writes : ∀ ciphertext, (cachePut engine blobId ciphertext).Unfailing := by
    intro ciphertext
    unfold cachePut
    split
    · trivial
    · trivial
    · exact fun _ => trivial
  apply reads.bind
  intro cached
  cases cached with
  | some ciphertext => trivial
  | none =>
    intro download
    cases download with
    | data ciphertext => exact (writes ciphertext).bind (fun _ => trivial)
    | blobNotFound => exact fun _ => trivial
    | failed => trivial

-- No failing call ends a recall: only a missing credential does.
theorem fetchBatch_error {owner ns : Text} {calls : List Call} {error : AppError}
    (completes : Completes answers (fetchBatch engine owner ns hits auth : Handler (List (HydratedMemory δ τ ι) × Nat)) calls
      (.error error)) : WalrusSeal.credential engine auth = .error error ∧ calls = [] := by
  unfold fetchBatch at completes
  split at completes
  · cases calls <;> cases completes
  · rcases completes.bind with ⟨e,same,failed⟩ | ⟨none_,rest,credential,rfl,given,body⟩
    · cases same
      obtain ⟨none_,equal⟩ := failed.orFail
      cases given : WalrusSeal.credential engine auth with
      | ok credential =>
        rw [given] at equal
        cases equal
      | error e =>
        rw [given] at equal
        cases equal
        exact ⟨rfl,none_⟩
    · refine absurd body (Completes.unfailing ?_)
      apply Program.Unfailing.bind
      · apply Program.Unfailing.foldlM
        intro downloads hit
        exact (fetchCiphertext_unfailing owner ns hit.1).bind (fun _ => trivial)
      · intro downloads
        apply Program.Unfailing.bind
        · apply Program.Unfailing.foldlM
          intro decrypted chunk
          apply (Program.Unfailing.attempt _).bind
          intro result
          cases result <;> trivial
        · exact fun _ => trivial

-- Where every ciphertext and every text of a recall comes from.
structure Faithful (engine : Engine) (owner ns : Text) (auth : AuthInfo) (hits : List (Text × δ)) (calls : List Call)
    (results : List (HydratedMemory δ τ ι)) (dropped : Nat) : Prop where
  counted : results.length + dropped = hits.length
  unranked : ∀ memory ∈ results, memory.createdAt = none ∧ memory.importance = none
  ordered : (results.map (fun memory => (memory.blobId,memory.distance))).Sublist hits
  traced : ∃ (fetches : List Fetch) (batches : List Call) (place : Fin results.length → Nat),
    calls = (fetches.map Prod.fst).flatten ++ batches ∧
    List.Forall₂ (fun hit fetch => Completes answers (fetchCiphertext engine hit.1 owner ns) fetch.1 (.ok fetch.2)) hits fetches ∧
    StrictMono place ∧ ∀ k, Belongs engine auth hits (fetches.map Prod.snd) batches (place k) (results.get k)

theorem fetchBatch_faithful {owner ns : Text} {calls : List Call} {results : List (HydratedMemory δ τ ι)} {dropped : Nat}
    (completes : Completes answers (fetchBatch engine owner ns hits auth) calls (.ok (results,dropped))) :
    Faithful engine owner ns auth hits calls results dropped := by
  by_cases some_ : hits = []
  · subst some_
    change Completes answers (pure ([],0) : Handler _) calls (.ok (results,dropped)) at completes
    obtain ⟨rfl,same⟩ := Completes.pure_ok completes
    obtain ⟨rfl,rfl⟩ := Prod.mk.inj same
    exact ⟨rfl,(fun _ member => nomatch member),.slnil,[],[],fun _ => 0,rfl,.nil,fun k => k.elim0,fun k => k.elim0⟩
  obtain ⟨credential,fetches,batches,given,split,paired,sent,assembled,drops⟩ := fetchBatch_parts some_ completes
  have same : hits.length = (fetches.map Prod.snd).length := by rw [List.length_map,paired.length_eq]
  generalize isFetched : fetchedOf hits (fetches.map Prod.snd) = fetched at sent assembled drops
  generalize isInput : fetched.map (fun f => (f.blobId,f.ciphertext)) = input at sent assembled drops
  generalize isPairs : fetched.map (fun f => (f.blobId,f.distance)) = pairs at assembled drops
  generalize isOutcomes : outcomesOf engine auth credential input batches = outcomes at assembled drops
  obtain ⟨listed,count⟩ := assembleDecrypted_spec (τ:=τ) (ι:=ι) pairs outcomes
  rw [← assembled] at listed count
  have pairsLength : pairs.length = fetched.length := by rw [← isPairs,List.length_map]
  have outcomesLength : outcomes.length = fetched.length := by
    rw [← isOutcomes,outcomesOf_length sent,← isInput,List.length_map]
  have kept : pairs.Sublist hits := by
    have sub := filterMap_keys (fun entry : (Text × δ) × Option (Bytes × Bool) =>
      entry.2.map (fun found => (⟨entry.1.1,entry.1.2,found.1,found.2⟩ : Fetched δ))) Prod.fst
      (fun f => (f.blobId,f.distance)) (by
        intro entry f maps
        obtain ⟨found,_,rfl⟩ := Option.map_eq_some_iff.mp maps
        rfl) (hits.zip (fetches.map Prod.snd))
    rw [List.map_fst_zip (Nat.le_of_eq same)] at sub
    rw [← isPairs,← isFetched]
    exact sub
  have places : ∀ k : Fin results.length, ∃ q p, (((pairs.zip outcomes).take q).filterMap
      (hydrate : _ → Option (HydratedMemory δ τ ι))).length = k ∧
      (((fetches.map Prod.snd).take p).filterMap id).length = q ∧
      Belongs engine auth hits (fetches.map Prod.snd) batches p (results.get k) := by
    intro k
    have here : ((pairs.zip outcomes).filterMap hydrate)[k.val]? = some (results.get k) := by
      rw [← listed]
      exact List.getElem?_eq_getElem k.isLt
    obtain ⟨q,entry,there,hydrated,before⟩ := filterMap_place here
    obtain ⟨pair,outcome⟩ := List.getElem?_zip_eq_some.mp there
    rw [← isPairs,List.getElem?_map] at pair
    obtain ⟨f,present,own⟩ := Option.map_eq_some_iff.mp pair
    subst isOutcomes isInput isFetched
    have whole : hydrate ((f.blobId,f.distance),entry.2) = some (results.get k) := by
      rw [own]
      exact hydrated
    obtain ⟨p,earlier,belongs⟩ := belongs_at same present sent outcome whole
    exact ⟨q,p,before,earlier,belongs⟩
  constructor
  · rw [List.length_zip,pairsLength,outcomesLength,Nat.min_self] at count
    have fewer := kept.length_le
    rw [pairsLength] at fewer
    omega
  · intro memory member
    rw [listed] at member
    obtain ⟨entry,_,hydrated⟩ := List.mem_filterMap.mp member
    obtain ⟨_,_,created,importance,_⟩ := hydrate_some hydrated
    exact ⟨created,importance⟩
  · rw [listed]
    have sub := filterMap_keys (hydrate : _ → Option (HydratedMemory δ τ ι)) Prod.fst
      (fun memory => (memory.blobId,memory.distance)) (by
        intro entry memory hydrated
        obtain ⟨blobId,distance,_⟩ := hydrate_some hydrated
        rw [blobId,distance]) (pairs.zip outcomes)
    rw [List.map_fst_zip (by rw [pairsLength,outcomesLength])] at sub
    exact sub.trans kept
  · choose q p before earlier belongs using places
    refine ⟨fetches,batches,p,split,paired,?_,belongs⟩
    -- The counts in front of the places grow, and so do the places.
    intro j k less
    have later : q j < q k := filterMap_order _ _ (by rw [before,before]; exact less)
    exact filterMap_order _ _ (by rw [earlier,earlier]; exact later)

-- A recall that drops nothing is one that hydrates every hit.
theorem Faithful.full {owner ns : Text} {calls : List Call} {results : List (HydratedMemory δ τ ι)}
    (faithful : Faithful engine owner ns auth hits calls results 0) : ∃ text, results = Recall.fetchBatch text hits := by
  have same : results.map (fun memory => (memory.blobId,memory.distance)) = hits := by
    apply faithful.ordered.eq_of_length
    rw [List.length_map]
    exact faithful.counted
  refine ⟨fun n => (results.map HydratedMemory.text).getD n [],?_⟩
  apply List.ext_getElem
  · rw [Recall.fetchBatch,List.length_map,List.length_zipIdx]
    exact faithful.counted
  · intro n below _
    obtain ⟨created,importance⟩ := faithful.unranked results[n] (List.getElem_mem below)
    have hit : hits[n]? = some (results[n].blobId,results[n].distance) := by
      rw [← same,List.getElem?_map,List.getElem?_eq_getElem below]
      rfl
    obtain ⟨_,hit⟩ := List.getElem?_eq_some_iff.mp hit
    simp only [Recall.fetchBatch,List.getElem_map,List.getElem_zipIdx,hit,Nat.zero_add]
    rw [List.getD_eq_getElem?_getD,List.getElem?_map,List.getElem?_eq_getElem below,← created,← importance]
    rfl

-- A recall without a credential fails before its first call. Any other returns.
theorem fetchBatch_returns (engine : Engine) (owner ns : Text) (auth : AuthInfo) (hits : List (Text × δ)) (calls : List Call)
    (result : Except AppError (List (HydratedMemory δ τ ι) × Nat))
    (completes : Completes answers (fetchBatch engine owner ns hits auth) calls result) :
    (∃ error, WalrusSeal.credential engine auth = .error error ∧ result = .error error ∧ calls = []) ∨
    ∃ results dropped, result = .ok (results,dropped) ∧ Faithful engine owner ns auth hits calls results dropped := by
  cases result with
  | error error =>
    obtain ⟨missing,none_⟩ := fetchBatch_error completes
    exact .inl ⟨error,missing,rfl,none_⟩
  | ok value =>
    obtain ⟨results,dropped⟩ := value
    exact .inr ⟨results,dropped,rfl,fetchBatch_faithful completes⟩

end Recalls

section Sample

def replies (download : Download) (reply : BatchReply) : (op : Op) → Answer op
  | .cacheGet _ => .ok none
  | .download _ => download
  | .cachePut _ _ _ => .ok ()
  | .deleteByBlobId _ _ _ => .ok ()
  | .sealDecryptBatch _ _ => reply

def sampleEngine : Engine where
  config := ⟨"0xa".toList,"0xb".toList,"0xc".toList,some "key"⟩
  blobCacheTtlSecs := 60
  blobCacheMaxBytes := 0
  base64 := {
    encode := fun bytes => if bytes = [1,2,3] then "AQID" else "BAUG"
    decode := fun text => if text = "aGk=" then .ok [104,105] else .error "Invalid padding" }

def sampleAuth : AuthInfo := ⟨"0xd".toList,"0xe".toList,none,none⟩

def sampleRequest : SealDecryptBatchRequest := batchRequest sampleEngine sampleAuth [("b".toList,[1,2,3])]

-- One blob twice: the first download of it fails, and the sidecar answers for
-- an index of no ciphertext too.
def sampleReply : BatchReply :=
  .answered ⟨[⟨4,"aGk="⟩,⟨0,"?"⟩,⟨0,"aGk="⟩],[⟨1,"Not enough shares"⟩]⟩

def sampleCalls : List Call :=
  [⟨(),.download "b".toList,replies .failed sampleReply⟩,
    ⟨(),.download "b".toList,replies (.data [1,2,3]) sampleReply⟩,
    ⟨(),.sealDecryptBatch sampleRequest (.delegateKey "key"),replies .failed sampleReply⟩]

theorem second_hit_recalled :
    (∃ error, credential sampleEngine sampleAuth = .error error ∧
      (.ok ([⟨"b".toList,"hi".toList,2,none,none⟩],1) : Except AppError (List (HydratedMemory Nat Nat Nat) × Nat)) = .error error ∧
      sampleCalls = []) ∨
    ∃ results dropped,
      (.ok ([⟨"b".toList,"hi".toList,2,none,none⟩],1) : Except AppError (List (HydratedMemory Nat Nat Nat) × Nat)) =
        .ok (results,dropped) ∧
      Faithful sampleEngine "0xd".toList "ns".toList sampleAuth [("b".toList,1),("b".toList,2)] sampleCalls results dropped := by
  apply fetchBatch_returns
  decide +kernel

end Sample

end MemWal.Recall.WalrusSeal
