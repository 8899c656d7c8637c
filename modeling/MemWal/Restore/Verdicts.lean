import MemWal.Library.Markers
import MemWal.Restore.Routes

namespace MemWal.Restore
open Library Library.Markers
open Blobs (Text)

-- What `sendSealFailure` puts behind every message.
def traced (message traceId : String) (timeoutMs : Nat) : String :=
  message ++ " (traceId=" ++ traceId ++ ", timeoutMs=" ++ toString timeoutMs ++ ")"

-- The text of the error of `seal_decrypt`, as `restore` classifies it.
def decryptFailure (error : String) : String := "Internal Error: " ++ ("seal decrypt failed: " ++ error)

def transientMarkers : List String :=
  ["timeouterror","aborted due to timeout","fetch_keys failed","too many failed fetch","internal server",
    "temporarily unavailable","rate limit","429","503"]

def permanentMarkers : List String :=
  ["Not enough shares","InvalidCiphertext","InvalidPersonalMessageSignature","NoAccessError"]

def transient (text : String) : Bool :=
  transientMarkers.any (contains (String.ofList (text.toList.map Char.toLower)))

def permanent (text : String) : Bool := permanentMarkers.any (contains text)

theorem permanentFromError_eq (err : String) : permanentFromError err = (!transient err && permanent err) := by
  change (if transient err = true then false else permanent err) = _
  cases transient err <;> rfl

-- No marker starts or ends with a blank or has one of the characters that the
-- parts of a message are put together with, and none is in the fixed words.
structure Unmixed (marker : List Char) (spelled : Char → Char) : Prop where
  opening : '(' ∉ marker
  equals : '=' ∉ marker
  comma : ',' ∉ marker
  closing : ')' ∉ marker
  colon : ':' ∉ marker
  head : marker.head? ≠ some ' '
  last : marker.getLast? ≠ some ' '
  trace : ¬ marker <:+: "traceId".toList.map spelled
  timeout : ¬ marker <:+: " timeoutMs".toList.map spelled
  internal : ¬ marker <:+: "Internal Error".toList.map spelled
  operation : ¬ marker <:+: "seal decrypt failed".toList.map spelled
  nonempty : ¬ marker <:+: []

-- The way a text is spelled out before it is searched leaves the joints alone.
structure Plain (spelled : Char → Char) : Prop where
  blank : spelled ' ' = ' '
  opening : spelled '(' = '('
  equals : spelled '=' = '='
  comma : spelled ',' = ','
  closing : spelled ')' = ')'
  colon : spelled ':' = ':'

section Parts
variable {marker : List Char} {spelled : Char → Char}

theorem found_traced (apart : Unmixed marker spelled) (plain : Plain spelled) (message traceId : String) (timeoutMs : Nat) :
    marker <:+: (traced message traceId timeoutMs).toList.map spelled ↔
      marker <:+: message.toList.map spelled ∨ marker <:+: traceId.toList.map spelled ∨
        marker <:+: (toString timeoutMs).toList.map spelled := by
  have front : " (traceId=".toList = ' ' :: '(' :: ("traceId".toList ++ ['=']) := by decide
  have middle : ", timeoutMs=".toList = ',' :: (" timeoutMs".toList ++ ['=']) := by decide
  have last : ")".toList = [')'] := by decide
  have joined : ∀ name unit : List Char,
      (message.toList ++ (' ' :: '(' :: (name ++ ['='])) ++ traceId.toList ++ (',' :: (unit ++ ['='])) ++
        (toString timeoutMs).toList ++ [')']).map spelled =
      (message.toList.map spelled ++ [' ']) ++ '(' :: (name.map spelled ++ '=' ::
        (traceId.toList.map spelled ++ ',' :: (unit.map spelled ++ '=' ::
          ((toString timeoutMs).toList.map spelled ++ ')' :: [])))) := by
    intro name unit
    simp [plain.blank,plain.opening,plain.equals,plain.comma,plain.closing]
  have parts : (traced message traceId timeoutMs).toList.map spelled =
      (message.toList.map spelled ++ [' ']) ++ '(' :: ("traceId".toList.map spelled ++ '=' ::
        (traceId.toList.map spelled ++ ',' :: (" timeoutMs".toList.map spelled ++ '=' ::
          ((toString timeoutMs).toList.map spelled ++ ')' :: [])))) := by
    rw [traced,String.toList_append,String.toList_append,String.toList_append,String.toList_append,String.toList_append,
      front,middle,last,joined]
  rw [parts,infix_between apart.opening,infix_before apart.last,infix_between apart.equals,infix_between apart.comma,
    infix_between apart.equals,infix_between apart.closing]
  simp only [apart.trace,apart.timeout,apart.nonempty,false_or,or_false]

theorem found_failure (apart : Unmixed marker spelled) (plain : Plain spelled) (error : String) :
    marker <:+: (decryptFailure error).toList.map spelled ↔ marker <:+: error.toList.map spelled := by
  have kind : "Internal Error: ".toList = "Internal Error".toList ++ [':',' '] := by decide
  have operation : "seal decrypt failed: ".toList = "seal decrypt failed".toList ++ [':',' '] := by decide
  have joined : ∀ kind operation : List Char,
      (kind ++ [':',' '] ++ (operation ++ [':',' '] ++ error.toList)).map spelled = kind.map spelled ++ ':' ::
        (' ' :: (operation.map spelled ++ ':' :: (' ' :: error.toList.map spelled))) := by
    intro kind operation
    simp [plain.blank,plain.colon]
  have parts : (decryptFailure error).toList.map spelled = "Internal Error".toList.map spelled ++ ':' ::
      (' ' :: ("seal decrypt failed".toList.map spelled ++ ':' :: (' ' :: error.toList.map spelled))) := by
    delta decryptFailure
    rw [String.toList_append,String.toList_append,kind,operation,joined]
  rw [parts,infix_between apart.colon,infix_after apart.head,infix_between apart.colon,infix_after apart.head]
  simp only [apart.internal,apart.operation,false_or]

end Parts

theorem plain_lower : Plain Char.toLower := ⟨rfl,rfl,rfl,rfl,rfl,rfl⟩

theorem plain_id : Plain id := ⟨rfl,rfl,rfl,rfl,rfl,rfl⟩

def apart (marker : String) (spelled : Char → Char) : Bool :=
  ['(','=',',',')',':'].all (fun c => !marker.toList.contains c) &&
    marker.toList.head? != some ' ' && marker.toList.getLast? != some ' ' &&
    ["traceId"," timeoutMs","Internal Error","seal decrypt failed",""].all
      (fun text => !decide (marker.toList <:+: text.toList.map spelled))

theorem Unmixed.of_check {marker : String} {spelled : Char → Char} (checked : apart marker spelled = true) :
    Unmixed marker.toList spelled := by
  simp only [apart,Bool.and_eq_true,List.all_cons,List.all_nil,Bool.not_eq_true',List.contains_eq_mem,
    decide_eq_false_iff_not,bne_iff_ne,and_true] at checked
  obtain ⟨⟨⟨⟨a,b,c,d,e⟩,f⟩,g⟩,h,i,j,k,l⟩ := checked
  exact ⟨a,b,c,d,e,f,g,h,i,j,k,by simpa using l⟩

theorem transient_apart : ∀ marker ∈ transientMarkers, Unmixed marker.toList Char.toLower := by
  have checked : transientMarkers.all (fun marker => apart marker Char.toLower) = true := by decide +kernel
  intro marker member
  exact .of_check (List.all_eq_true.mp checked marker member)

theorem permanent_apart : ∀ marker ∈ permanentMarkers, Unmixed marker.toList id := by
  have checked : permanentMarkers.all (fun marker => apart marker id) = true := by decide +kernel
  intro marker member
  exact .of_check (List.all_eq_true.mp checked marker member)

theorem transient_iff {text : String} :
    transient text = true ↔ ∃ marker ∈ transientMarkers, marker.toList <:+: text.toList.map Char.toLower := by
  simp [transient,contains]

theorem permanent_iff {text : String} :
    permanent text = true ↔ ∃ marker ∈ permanentMarkers, marker.toList <:+: text.toList.map id := by
  simp [permanent,contains]

-- A number has no letter of the permanent markers.
theorem permanent_number (n : Nat) : permanent (toString n) = false := by
  have letters : permanentMarkers.all (fun marker => marker.toList.any (fun c => !c.isDigit)) = true := by decide
  rw [← Bool.not_eq_true,permanent_iff]
  intro found
  obtain ⟨marker,member,part⟩ := found
  obtain ⟨c,there,letter⟩ := List.any_eq_true.mp (List.all_eq_true.mp letters marker member)
  rw [List.map_id] at part
  have digits : c ∈ Nat.toDigits 10 n := by
    have inside := part.subset there
    rwa [show (toString n).toList = Nat.toDigits 10 n from by simp [toString]] at inside
  rw [Nat.isDigit_of_mem_toDigits (by decide) (by decide) digits] at letter
  cases letter

theorem transient_traced (message traceId : String) (timeoutMs : Nat) :
    transient (traced message traceId timeoutMs) = (transient message || transient traceId || transient (toString timeoutMs)) := by
  rw [Bool.eq_iff_iff]
  simp only [Bool.or_eq_true,transient_iff]
  constructor
  · intro found
    obtain ⟨marker,member,part⟩ := found
    rcases (found_traced (transient_apart marker member) plain_lower _ _ _).mp part with own | trace | timeout
    · exact .inl (.inl ⟨marker,member,own⟩)
    · exact .inl (.inr ⟨marker,member,trace⟩)
    · exact .inr ⟨marker,member,timeout⟩
  · intro found
    rcases found with (⟨marker,member,own⟩ | ⟨marker,member,trace⟩) | ⟨marker,member,timeout⟩
    · exact ⟨marker,member,(found_traced (transient_apart marker member) plain_lower _ _ _).mpr (.inl own)⟩
    · exact ⟨marker,member,(found_traced (transient_apart marker member) plain_lower _ _ _).mpr (.inr (.inl trace))⟩
    · exact ⟨marker,member,(found_traced (transient_apart marker member) plain_lower _ _ _).mpr (.inr (.inr timeout))⟩

theorem permanent_traced (message traceId : String) (timeoutMs : Nat) :
    permanent (traced message traceId timeoutMs) = (permanent message || permanent traceId) := by
  have number := permanent_number timeoutMs
  rw [← Bool.not_eq_true,permanent_iff] at number
  rw [Bool.eq_iff_iff]
  simp only [Bool.or_eq_true,permanent_iff]
  constructor
  · intro found
    obtain ⟨marker,member,part⟩ := found
    rcases (found_traced (permanent_apart marker member) plain_id _ _ _).mp part with own | trace | timeout
    · exact .inl ⟨marker,member,own⟩
    · exact .inr ⟨marker,member,trace⟩
    · exact absurd ⟨marker,member,timeout⟩ number
  · intro found
    rcases found with ⟨marker,member,own⟩ | ⟨marker,member,trace⟩
    · exact ⟨marker,member,(found_traced (permanent_apart marker member) plain_id _ _ _).mpr (.inl own)⟩
    · exact ⟨marker,member,(found_traced (permanent_apart marker member) plain_id _ _ _).mpr (.inr (.inl trace))⟩

-- What the caller of `seal_decrypt` puts in front does not matter.
theorem permanentFromError_failure (error : String) :
    permanentFromError (decryptFailure error) = permanentFromError error := by
  have transient_ : transient (decryptFailure error) = transient error := by
    rw [Bool.eq_iff_iff]
    simp only [transient_iff]
    apply exists_congr
    intro marker
    apply and_congr_right
    intro member
    exact found_failure (transient_apart marker member) plain_lower error
  have permanent_ : permanent (decryptFailure error) = permanent error := by
    rw [Bool.eq_iff_iff]
    simp only [permanent_iff]
    apply exists_congr
    intro marker
    apply and_congr_right
    intro member
    exact found_failure (permanent_apart marker member) plain_id error
  rw [permanentFromError_eq,permanentFromError_eq,transient_,permanent_]

-- A suffix hides a permanent error when its trace id or its timeout has a transient marker.
def hides (traceId : String) (timeoutMs : Nat) : Bool := transient traceId || transient (toString timeoutMs)

def Alike (message traceId traceId' : String) (timeoutMs timeoutMs' : Nat) : Prop :=
  transient message = true ∨
    if permanent message = true then hides traceId timeoutMs = hides traceId' timeoutMs'
    else (permanent traceId && !hides traceId timeoutMs) = (permanent traceId' && !hides traceId' timeoutMs')

theorem permanentFromError_traced (message traceId : String) (timeoutMs : Nat) :
    permanentFromError (traced message traceId timeoutMs) =
      (!transient message && !hides traceId timeoutMs && (permanent message || permanent traceId)) := by
  rw [permanentFromError_eq,transient_traced,permanent_traced,hides,Bool.or_assoc,Bool.not_or]

theorem same_verdict (message traceId traceId' : String) (timeoutMs timeoutMs' : Nat) :
    permanentFromError (traced message traceId timeoutMs) = permanentFromError (traced message traceId' timeoutMs') ↔
      Alike message traceId traceId' timeoutMs timeoutMs' := by
  rw [permanentFromError_traced,permanentFromError_traced,Alike]
  cases transient message with
  | true => simp only [Bool.not_true,Bool.false_and,true_or]
  | false =>
    cases permanent message with
    | true => simp
    | false => simp [Bool.and_comm]

-- What `restore` does with a blob whose decryption has failed.
theorem decryptOne_failed (config : Config) (auth : AuthInfo) (credential : SealCredential) (ns : Text)
    (decrypted : List (Text × Text)) (item : Text × Bytes) :
    ∃ resume, decryptOne config auth credential ns decrypted item =
        .call (.sealDecrypt item.2 credential config.packageId config.sealPolicyPackageId config.registryId auth.accountId)
          resume ∧
      ∀ error, resume (.error error) = if permanentFromError error = true
        then .call (.recordRestoreFailure auth.owner ns item.1 "decrypt_permanent") (fun _ => .done decrypted)
        else .done decrypted := by
  refine ⟨_,rfl,?_⟩
  intro error
  rfl

theorem verdict_independent_iff (message traceId traceId' : String) (timeoutMs timeoutMs' : Nat) :
    (permanentFromError (traced message traceId timeoutMs) = permanentFromError (traced message traceId' timeoutMs') ↔
      Alike message traceId traceId' timeoutMs timeoutMs') ∧
    ∀ config auth credential ns decrypted item, ∃ resume,
      decryptOne config auth credential ns decrypted item =
        .call (.sealDecrypt item.2 credential config.packageId config.sealPolicyPackageId config.registryId auth.accountId)
          resume ∧
      (resume (.error (decryptFailure (traced message traceId timeoutMs))) =
          resume (.error (decryptFailure (traced message traceId' timeoutMs'))) ↔
        Alike message traceId traceId' timeoutMs timeoutMs') := by
  have verdicts := same_verdict message traceId traceId' timeoutMs timeoutMs'
  constructor
  · exact verdicts
  · intro config auth credential ns decrypted item
    obtain ⟨resume,called,failed⟩ := decryptOne_failed config auth credential ns decrypted item
    refine ⟨resume,called,?_⟩
    rw [failed,failed,permanentFromError_failure,permanentFromError_failure,← verdicts]
    cases permanentFromError (traced message traceId timeoutMs) <;>
      cases permanentFromError (traced message traceId' timeoutMs') <;> simp

-- A permanent error is cached under one request id and retried under another.
theorem verdict_depends_on_trace :
    ¬ ∀ (message traceId traceId' : String) (timeoutMs timeoutMs' : Nat),
      permanentFromError (traced message traceId timeoutMs) = permanentFromError (traced message traceId' timeoutMs') := by
  intro independent
  have same := independent "seal/decrypt failed during decrypt: NoAccessError" "abc123" "req-429" 25000 25000
  rw [permanentFromError_traced,permanentFromError_traced] at same
  revert same
  decide +kernel

end MemWal.Restore
