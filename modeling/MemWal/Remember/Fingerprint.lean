import MemWal.Remember.Effects
import MemWal.Auth.Types
import MemWal.Library.Separated

namespace MemWal.Remember
open Library Library.Crew Library.Separated

def utf8 (text : String) : Bytes := text.toByteArray.data.toList

-- What the hasher of `request_fingerprint` is fed with.
def fingerprinted (text ns : String) : Bytes := utf8 text ++ 0 :: utf8 ns

def requestFingerprint (sha256 : Hash256) (text ns : String) : String :=
  Auth.hexEncode (sha256.digest (fingerprinted text ns))

def nul : String := String.singleton (Char.ofNat 0)

-- The text of one request goes on with a NUL where the other's ends, and what
-- follows it begins the other's namespace.
def Reaches (long short : RememberRequest) : Prop :=
  ∃ rest : String, long.text = short.text ++ nul ++ rest ∧ short.ns = rest ++ nul ++ long.ns

def Collide (first second : RememberRequest) : Prop := Reaches first second ∨ Reaches second first

section Fingerprints

theorem utf8_append (s t : String) : utf8 (s ++ t) = utf8 s ++ utf8 t := by
  rw [utf8,String.toByteArray_append,ByteArray.toList_data_append]
  rfl

theorem utf8_injective {s t : String} (same : utf8 s = utf8 t) : s = t := by
  apply String.toByteArray_inj.mp
  apply ByteArray.ext
  exact Array.toList_inj.mp same

theorem utf8_nul : utf8 nul = [0] := by decide

theorem fingerprinted_eq (text ns : String) : fingerprinted text ns = utf8 (text ++ nul ++ ns) := by
  rw [utf8_append,utf8_append,utf8_nul,fingerprinted,List.append_assoc,List.singleton_append]

theorem nul_letters : nul.toList = [Char.ofNat 0] := by decide

theorem joined_texts (text ns text' ns' : String) : text ++ nul ++ ns = text' ++ nul ++ ns' ↔
    text.toList ++ Char.ofNat 0 :: ns.toList = text'.toList ++ Char.ofNat 0 :: ns'.toList := by
  rw [← String.toList_inj]
  simp only [String.toList_append,nul_letters,List.append_assoc,List.singleton_append]

theorem reaches_iff {long short : RememberRequest} : Reaches long short ↔
    ∃ u, long.text.toList = short.text.toList ++ Char.ofNat 0 :: u ∧
      short.ns.toList = u ++ Char.ofNat 0 :: long.ns.toList := by
  constructor
  · intro reaches
    obtain ⟨rest,text,ns⟩ := reaches
    refine ⟨rest.toList,?_,?_⟩
    · rw [text]
      simp only [String.toList_append,nul_letters,List.append_assoc,List.singleton_append]
    · rw [ns]
      simp only [String.toList_append,nul_letters,List.append_assoc,List.singleton_append]
  · intro reaches
    obtain ⟨u,text,ns⟩ := reaches
    refine ⟨String.ofList u,?_,?_⟩
    · apply String.toList_inj.mp
      simp only [text,String.toList_append,nul_letters,String.toList_ofList,List.append_assoc,List.singleton_append]
    · apply String.toList_inj.mp
      simp only [ns,String.toList_append,nul_letters,String.toList_ofList,List.append_assoc,List.singleton_append]

theorem requestFingerprint_eq {sha256 : Hash256} {first second : RememberRequest}
    (free : sha256.CollisionFree [fingerprinted first.text first.ns,fingerprinted second.text second.ns]) :
    requestFingerprint sha256 first.text first.ns = requestFingerprint sha256 second.text second.ns ↔
      (first.text = second.text ∧ first.ns = second.ns) ∨ Collide first second := by
  have hashed : requestFingerprint sha256 first.text first.ns = requestFingerprint sha256 second.text second.ns ↔
      fingerprinted first.text first.ns = fingerprinted second.text second.ns := by
    constructor
    · intro same
      exact free _ List.mem_cons_self _ (List.mem_cons_of_mem _ List.mem_cons_self) (Auth.hexEncode_injective same)
    · intro same
      rw [requestFingerprint,requestFingerprint,same]
  have spelled : fingerprinted first.text first.ns = fingerprinted second.text second.ns ↔
      first.text ++ nul ++ first.ns = second.text ++ nul ++ second.ns := by
    rw [fingerprinted_eq,fingerprinted_eq]
    exact ⟨utf8_injective,congrArg utf8⟩
  rw [hashed,spelled,joined_texts,joined_eq,String.toList_inj,String.toList_inj,Collide,reaches_iff,reaches_iff]
  apply or_congr_right
  constructor
  · intro longer
    exact longer.symm
  · intro longer
    exact longer.symm

end Fingerprints

section Refusals
variable {config : Config} {auth : AuthInfo} {body : RememberRequest} {fingerprint : String} {job : JobId} {row : Row}

theorem collapse_refuses : collapse config auth body fingerprint job row = .fail keyReused ↔
    differs row.requestFingerprint fingerprint = true := by
  unfold collapse
  split
  · rename_i other
    simp [other]
  · rename_i same
    constructor
    · intro refused
      split at refused
      · cases refused
      · split at refused
        · cases refused
        · cases refused
    · intro other
      exact absurd other same

theorem collapseRace_refuses : collapseRace auth body fingerprint job row = .fail keyReused ↔
    differs row.requestFingerprint fingerprint = true := by
  unfold collapseRace
  split
  · rename_i other
    simp [other]
  · rename_i same
    constructor
    · intro refused
      split at refused
      · cases refused
      · cases refused
    · intro other
      exact absurd other same

end Refusals

-- Every row stays, with its fingerprint.
def KeepsFingerprints (s next : System) : Prop := ∀ job row, s.rows.get? job = some row →
  ∃ after, next.rows.get? job = some after ∧ after.requestFingerprint = row.requestFingerprint

theorem apply_requestFingerprint (statement : Statement) (now : Nat) (row : Row) :
    (statement.apply now row).requestFingerprint = row.requestFingerprint := by
  cases statement <;> rfl

theorem keepsFingerprints_served {config : Config} {s : System} {k : Nat} {op : Op} {c : Choice}
    (inv : Consistent config s) (allowed : Allowed config s k op) :
    KeepsFingerprints s (serve config s k op c).1 := by
  intro job row found
  obtain ⟨after,there,_⟩ := (grows_served inv allowed).rows job row found
  refine ⟨after,there,?_⟩
  cases served_row there with
  | same before =>
    rw [found] at before
    cases before
    rfl
  | written prior statement before _ _ _ written =>
    rw [found] at before
    cases before
    rw [written,apply_requestFingerprint]
  | inserted prior _ fresh _ =>
    rw [found] at fresh
    cases fresh

theorem keepsFingerprints_happened {config : Config} {s : System} (inv : Consistent config s) (event : Event) :
    KeepsFingerprints s (happen s event) := by
  intro job row found
  obtain ⟨after,there,_⟩ := (grows_happened inv event).rows job row found
  refine ⟨after,there,?_⟩
  rcases happened_row there with before | swept
  · rw [found] at before
    cases before
    rfl
  · obtain ⟨prior,before,_,written⟩ := swept
    rw [found] at before
    cases before
    rw [written,apply_requestFingerprint]

theorem keepsFingerprints_between (config : Config) (moves : Moves) {i j : Nat} (le : i ≤ j) :
    KeepsFingerprints (state config moves i) (state config moves j) := by
  have refl : ∀ s, KeepsFingerprints s s := fun s job row found => ⟨row,found,rfl⟩
  have trans : ∀ a b c, KeepsFingerprints a b → KeepsFingerprints b c → KeepsFingerprints a c := by
    intro a b c first second job row found
    obtain ⟨between,there,same⟩ := first job row found
    obtain ⟨after,later,still⟩ := second job between there
    exact ⟨after,later,still.trans same⟩
  apply relates (K:=fun _ _ _ _ => True) refl trans (fun _ _ _ _ _ => trivial) _ _ _ le
  · intro s k op c inv allowed _
    exact keepsFingerprints_served inv allowed
  · intro s k _
    exact refl s
  · intro s event inv
    exact keepsFingerprints_happened inv event

-- The row that a request has inserted under its key.
def KeyHeld (sha256 : Hash256) (owner key : String) (body : RememberRequest) (s : System) (job : JobId) : Prop :=
  ∃ row, s.rows.get? job = some row ∧ row.owner = owner ∧ row.idempotencyKey = some key ∧
    row.requestFingerprint = some (requestFingerprint sha256 body.text body.ns)

section KeyHeld
variable {config : Config} {sha256 : Hash256} {owner key : String} {body : RememberRequest} {moves : Moves} {i j : Nat}
  {job : JobId}

theorem KeyHeld.later (created : KeyHeld sha256 owner key body (state config moves i) job) (le : i ≤ j) :
    KeyHeld sha256 owner key body (state config moves j) job := by
  obtain ⟨row,found,mine,keyed,named⟩ := created
  obtain ⟨after,there,kept⟩ := (grows_between config moves le).rows job row found
  obtain ⟨after',there',same⟩ := keepsFingerprints_between config moves le job row found
  rw [there] at there'
  cases there'
  exact ⟨after,there,kept.owner.trans mine,kept.key.trans keyed,same.trans named⟩

-- A look-up under the key finds it.
theorem KeyHeld.found {s : System} (inv : Consistent config s) (created : KeyHeld sha256 owner key body s job) :
    ∃ row, s.findByKey owner key = some (job,row) ∧
      row.requestFingerprint = some (requestFingerprint sha256 body.text body.ns) := by
  obtain ⟨row,found,mine,keyed,named⟩ := created
  cases looked : s.findByKey owner key with
  | none =>
    have absent := List.find?_eq_none.mp looked (job,row) (Store.get?_eq_some.mp found)
    simp [mine,keyed] at absent
  | some entry =>
    obtain ⟨other,theirs⟩ := entry
    obtain ⟨there,same,key_⟩ := findByKey_some looked
    have unique := inv.keys other job theirs row key there found (same.trans mine.symm) key_ keyed
    subst unique
    rw [found] at there
    cases there
    exact ⟨row,rfl,named⟩

end KeyHeld

theorem served_found {config : Config} {s : System} {worker : Nat} {c : Choice} {owner key : String}
    (reached : c.fault = .none) :
    (serve config s worker (.findByKey owner key) c).2 = .ok (s.findByKey owner key) := by
  simp only [serve,reached,System.faulty]

theorem differs_some (stored fingerprint : String) : differs (some stored) fingerprint = true ↔ stored ≠ fingerprint := by
  simp [differs]

-- Once the row of the first request is there, the second one's look-up and, if it
-- comes too late for that, its insert lead to a conflict and nothing else, exactly
-- when the two do not collide.
theorem key_reuse_refused_iff (config : Config) (sha256 : Hash256) (auth : AuthInfo) (key : String)
    (first second : RememberRequest) (hashes : config.requestFingerprint = requestFingerprint sha256)
    (valid : validateRemember second = .ok ()) (keyed : second.idempotencyKey = some key)
    (differ : ¬ (first.text = second.text ∧ first.ns = second.ns))
    (free : sha256.CollisionFree [fingerprinted first.text first.ns,fingerprinted second.text second.ns]) :
    (requestFingerprint sha256 first.text first.ns ≠ requestFingerprint sha256 second.text second.ns ↔
      ¬ Collide first second) ∧
    ∃ looked raced : Except Unit (Option (JobId × Row)) → Route (JobId × String),
      remember config auth second = .call (.findByKey auth.owner key) looked ∧
      (∃ inserted : JobId → Except Unit Nat → Route (JobId × String),
        looked (.ok none) = .call .newUuid (fun job => .call (.insert job
          (newRow auth second (requestFingerprint sha256 second.text second.ns))) (inserted job)) ∧
        ∀ job, inserted job (.ok 0) = .call (.findByKey auth.owner key) raced) ∧
      ∀ moves i job, KeyHeld sha256 auth.owner key first (state config moves i) job → ∀ j, i ≤ j →
        ∀ worker c, c.fault = .none →
          (looked (serve config (state config moves j) worker (.findByKey auth.owner key) c).2 = .fail keyReused ↔
            ¬ Collide first second) ∧
          (∀ id rows, (serve config (state config moves j) worker (.insert id
            (newRow auth second (requestFingerprint sha256 second.text second.ns))) c).2 = .ok rows → rows = 0) ∧
          (raced (serve config (state config moves j) worker (.findByKey auth.owner key) c).2 = .fail keyReused ↔
            ¬ Collide first second) := by
  have names := requestFingerprint_eq free
  have different : requestFingerprint sha256 first.text first.ns ≠ requestFingerprint sha256 second.text second.ns ↔
      ¬ Collide first second := by
    rw [ne_eq,names]
    constructor
    · intro apart collide
      exact apart (.inr collide)
    · intro apart same
      rcases same with equal | collide
      · exact differ equal
      · exact apart collide
  refine ⟨different,?_⟩
  have program : ∃ looked, remember config auth second = .call (.findByKey auth.owner key) looked ∧
      (∀ job row, looked (.ok (some (job,row))) =
        collapse config auth second (config.requestFingerprint second.text second.ns) job row) ∧
      looked (.ok none) = createJob auth second (config.requestFingerprint second.text second.ns) := by
    rw [remember,valid,keyed]
    exact ⟨_,rfl,fun _ _ => rfl,rfl⟩
  have race : ∃ raced, (∀ job row, raced (.ok (some (job,row))) =
        collapseRace auth second (config.requestFingerprint second.text second.ns) job row) ∧
      collapseOnto auth second (config.requestFingerprint second.text second.ns) =
        .call (.findByKey auth.owner key) raced := by
    rw [collapseOnto,keyed]
    exact ⟨_,fun _ _ => rfl,rfl⟩
  rw [hashes] at program race
  obtain ⟨looked,called,collapses,creates⟩ := program
  obtain ⟨raced,races,onto⟩ := race
  refine ⟨looked,raced,called,⟨_,creates,?_⟩,?_⟩
  · intro job
    exact onto
  · intro moves i job held j le worker c reached
    obtain ⟨row,found,named⟩ := (held.later le).found (consistent_at config moves j)
    have answer := @served_found config (state config moves j) worker c auth.owner key reached
    rw [found] at answer
    rw [answer,collapses,races,collapse_refuses,collapseRace_refuses,named,differs_some]
    refine ⟨different,?_,different⟩
    intro id rows inserted
    have taken : (state config moves j).keyTaken
        (newRow auth second (requestFingerprint sha256 second.text second.ns)) = true := by
      simp [System.keyTaken,newRow,keyed,found]
    simp only [serve,taken,if_true,reached,System.faulty] at inserted
    split at inserted
    · cases inserted
    · exact (Except.ok.inj inserted).symm

section Reused

-- A digest that is injective on short messages.
def paddedHash : Hash256 := ⟨fun message => (message ++ List.replicate 32 0).take 32,by intro message; simp⟩

def hashingConfig : Config := {sampleConfig with requestFingerprint := requestFingerprint paddedHash}

def sampleAuth : AuthInfo := ⟨"0xa","0xacc","key"⟩

def noted (text ns : String) : RememberRequest := ⟨text,ns,some "retry"⟩

def reuse : Moves :=
  .spawn 0 (.remember sampleAuth (noted ("a" ++ nul ++ "b") "c")) :: turns 0 12 ++
  .spawn 1 (.remember sampleAuth (noted "a" ("b" ++ nul ++ "c"))) :: turns 1 12

-- The second note is another one, and is answered with the job of the first.
theorem colliding_notes_accepted :
    (¬ ∀ (sha256 : Hash256) (first second : RememberRequest), validateRemember first = .ok () → validateRemember second = .ok () →
      sha256.CollisionFree [fingerprinted first.text first.ns,fingerprinted second.text second.ns] →
      requestFingerprint sha256 first.text first.ns = requestFingerprint sha256 second.text second.ns →
      first.text = second.text ∧ first.ns = second.ns) ∧
    (state hashingConfig reuse 30).accepted = [("0xa",some "retry",0),("0xa",some "retry",0)] := by
  constructor
  · intro unique
    have same := unique paddedHash (noted ("a" ++ nul ++ "b") "c") (noted "a" ("b" ++ nul ++ "c")) (by decide +kernel)
      (by decide +kernel) (by decide +kernel) (by decide +kernel)
    exact absurd same.1 (by decide +kernel)
  · decide +kernel

end Reused

theorem short_plain {long short : RememberRequest} (plain : Char.ofNat 0 ∉ short.ns.toList) : ¬ Reaches long short := by
  intro reaches
  obtain ⟨u,_,ns⟩ := reaches_iff.mp reaches
  rw [ns] at plain
  exact plain (List.mem_append_right u List.mem_cons_self)

-- The pair that the separator is there for.
theorem plain_note_refused :
    ∃ looked, remember hashingConfig sampleAuth (noted "a" "bc") = .call (.findByKey "0xa" "retry") looked ∧
      looked (serve hashingConfig (state hashingConfig (.spawn 0 (.remember sampleAuth (noted "ab" "c")) :: turns 0 12) 12) 1
        (.findByKey "0xa" "retry") {}).2 = .fail keyReused := by
  have refused := key_reuse_refused_iff hashingConfig paddedHash sampleAuth "retry" (noted "ab" "c") (noted "a" "bc") rfl
    (by decide +kernel) rfl (by decide) (by decide +kernel)
  obtain ⟨looked,raced,called,_,conflicts⟩ := refused.2
  refine ⟨looked,called,?_⟩
  have row : KeyHeld paddedHash "0xa" "retry" (noted "ab" "c")
      (state hashingConfig (.spawn 0 (.remember sampleAuth (noted "ab" "c")) :: turns 0 12) 12) 0 := by
    have there : ((state hashingConfig (.spawn 0 (.remember sampleAuth (noted "ab" "c")) :: turns 0 12) 12).rows.get? 0).map
        (fun row => (row.owner,row.idempotencyKey,row.requestFingerprint)) =
      some ("0xa",some "retry",some (requestFingerprint paddedHash "ab" "c")) := by decide +kernel
    obtain ⟨row,found,fields⟩ := Option.map_eq_some_iff.mp there
    obtain ⟨mine,rest⟩ := Prod.mk.inj fields
    obtain ⟨keyed,named⟩ := Prod.mk.inj rest
    exact ⟨row,found,mine,keyed,named⟩
  apply (conflicts _ 12 0 row 12 le_rfl 1 {} rfl).1.mpr
  intro collide
  rcases collide with first | second
  · exact short_plain (by decide) first
  · exact short_plain (by decide) second

end MemWal.Remember
