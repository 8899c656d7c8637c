import MemWal.SecurityDelete.Challenges

namespace MemWal.SecurityDelete.Tokens
open Library

-- The log against the nonces that Redis keeps.
section Logs
variable {kit : Kit} {config : TokenConfig} {s now : Nonces}

def Issued (kit : Kit) (s : Nonces) (id raw : String) : Prop :=
  ∃ issue ∈ s.issued, issue.challengeId = id ∧ raw = kit.recordJson issue.record

-- The challenge says who it is for, and nobody else's signature answers it.
structure Issue.Sound (issue : Issue) : Prop where
  canonical : canonicalSuiAddress issue.record.canonicalAddress = some issue.record.canonicalAddress
  message : issue.record.message =
    challengeMessage issue.record.canonicalAddress issue.challengeId issue.record.expires

-- A token goes back to a challenge for the same address that a wallet has signed
-- in time.
def Backed (kit : Kit) (config : TokenConfig) (s : Nonces) (mint : Mint) : Prop :=
  ∃ issue ∈ s.issued, issue.challengeId = mint.challengeId ∧ issue.record.canonicalAddress = mint.address ∧
    ⟨mint.address,issue.record.message,mint.signature⟩ ∈ s.verified ∧ mint.checkedAt ≤ issue.record.expires ∧
    ∃ secret, config.deletionTokenSecret = some secret ∧
      mint.token = mintToken kit.toMac secret mint.address config.deletionTokenTtlSecs mint.mintedAt

def handedFor (s : Nonces) (id : String) : Nat := (s.handed.filter (fun mint => mint.challengeId = id)).length
def issuedFor (s : Nonces) (id : String) : Nat := (s.issued.filter (fun issue => issue.challengeId = id)).length
def heldFor (s : Nonces) (id : String) : Nat := s.holding.total (fun _ entry => if entry.1 = id then 1 else 0)
def storedFor (s : Nonces) (id : String) : Nat := if (s.nonces.get? id).isSome then 1 else 0

structure Recorded (kit : Kit) (config : TokenConfig) (s : Nonces) : Prop where
  stored : ∀ id entry, s.nonces.get? id = some entry → Issued kit s id entry.1
  held : ∀ worker entry, s.holding.get? worker = some entry → Issued kit s entry.1 entry.2
  issued : ∀ issue ∈ s.issued, issue.Sound
  handed : ∀ mint ∈ s.handed, Backed kit config s mint
  once : ∀ id, handedFor s id + heldFor s id + storedFor s id ≤ issuedFor s id
  admitted : ∀ admission ∈ s.admitted, ∃ secret, config.deletionTokenSecret = some secret ∧
    verifyToken kit.toMac secret admission.token admission.admittedAt = .ok admission.owner

structure Grown (s now : Nonces) : Prop where
  issued : ∀ issue ∈ s.issued, issue ∈ now.issued
  verified : ∀ signature ∈ s.verified, signature ∈ now.verified
  handed : ∀ mint ∈ s.handed, mint ∈ now.handed

structure Undisturbed (worker : Nat) (s now : Nonces) : Prop extends Grown s now where
  held : now.holding.get? worker = s.holding.get? worker

def MayRequest (kit : Kit) (config : TokenConfig) (s : Nonces) (worker : Nat) : ChallengeOp → Prop
  | .issue id record _ => Issue.Sound ⟨id,record⟩
  | .hand mint => ∃ raw record, s.holding.get? worker = some (mint.challengeId,raw) ∧ kit.readRecord raw = some record ∧
      record.canonicalAddress = mint.address ∧ ⟨mint.address,record.message,mint.signature⟩ ∈ s.verified ∧
      mint.checkedAt ≤ record.expires ∧ ∃ secret, config.deletionTokenSecret = some secret ∧
        mint.token = mintToken kit.toMac secret mint.address config.deletionTokenTtlSecs mint.mintedAt
  | .enter admission => ∃ secret, config.deletionTokenSecret = some secret ∧
      verifyToken kit.toMac secret admission.token admission.admittedAt = .ok admission.owner
  | _ => True

theorem Grown.refl (s : Nonces) : Grown s s := ⟨fun _ member => member,fun _ member => member,fun _ member => member⟩

theorem Grown.trans {a b c : Nonces} (first : Grown a b) (second : Grown b c) : Grown a c where
  issued issue member := second.issued issue (first.issued issue member)
  verified signature member := second.verified signature (first.verified signature member)
  handed mint member := second.handed mint (first.handed mint member)

theorem Grown.backed (grown : Grown s now) {mint : Mint} : Backed kit config s mint → Backed kit config now mint := by
  rintro ⟨issue,member,same,address,signed,rest⟩
  exact ⟨issue,grown.issued issue member,same,address,grown.verified _ signed,rest⟩

theorem Grown.issuedBy (grown : Grown s now) {id raw : String} : Issued kit s id raw → Issued kit now id raw := by
  rintro ⟨issue,member,same⟩
  exact ⟨issue,grown.issued issue member,same⟩

theorem live_stored {id raw : String} (found : s.live id = some raw) : ∃ deadline, s.nonces.get? id = some (raw,deadline) := by
  obtain ⟨entry,there,value⟩ := Option.bind_eq_some_iff.mp found
  split at value
  · cases value
    exact ⟨entry.2,there⟩
  · cases value

theorem issue_grown (kit : Kit) (id : String) (record : ChallengeRecord) (ttlSecs : Nat) :
    Grown s (s.issue kit id record ttlSecs).1 := by
  unfold Nonces.issue
  split
  · exact .refl s
  · exact ⟨fun _ => List.mem_append_left _,fun _ member => member,fun _ member => member⟩

theorem issue_recorded (recorded : Recorded kit config s) {id : String} {record : ChallengeRecord}
    (sound : Issue.Sound ⟨id,record⟩) (ttlSecs : Nat) : Recorded kit config (s.issue kit id record ttlSecs).1 := by
  have grown := issue_grown kit (s:=s) id record ttlSecs
  revert grown
  unfold Nonces.issue
  split
  · exact fun _ => recorded
  · intro grown
    refine ⟨?_,?_,?_,?_,?_,recorded.admitted⟩
    · intro other entry found
      rw [Store.get?_upsert] at found
      split at found
      · rename_i same
        cases found
        exact ⟨⟨id,record⟩,List.mem_append_right _ List.mem_cons_self,same.symm,rfl⟩
      · exact grown.issuedBy (recorded.stored other entry found)
    · intro worker entry found
      exact grown.issuedBy (recorded.held worker entry found)
    · intro issue member
      rcases List.mem_append.mp member with old | new
      · exact recorded.issued issue old
      · rw [List.mem_singleton.mp new]
        exact sound
    · intro mint member
      exact grown.backed (recorded.handed mint member)
    · intro other
      have before := recorded.once other
      simp only [handedFor,heldFor,storedFor,issuedFor,Store.get?_upsert,List.filter_append,List.length_append] at before ⊢
      by_cases same : other = id
      · simp only [same,if_true,Option.isSome_some,List.filter_cons_of_pos,decide_true,List.length_cons,List.length_nil,
          List.filter_nil] at before ⊢
        split at before <;> omega
      · rw [if_neg same]
        omega

theorem take_grown (worker : Nat) (id : String) : Grown s ((s.take id).1.hold worker id (s.take id).2) := by
  unfold Nonces.take Nonces.hold
  split <;> exact ⟨fun _ member => member,fun _ member => member,fun _ member => member⟩

theorem erase_stored (id other : String) :
    storedFor {s with nonces := s.nonces.erase id} other = if other = id then 0 else storedFor s other := by
  simp only [storedFor,Store.get?_erase]
  by_cases same : other = id
  · simp [same]
  · simp [same]

theorem erase_recorded (recorded : Recorded kit config s) (id : String) :
    Recorded kit config {s with nonces := s.nonces.erase id} := by
  refine ⟨?_,recorded.held,recorded.issued,recorded.handed,?_,recorded.admitted⟩
  · intro other entry found
    simp only [Store.get?_erase] at found
    split at found
    · cases found
    · exact recorded.stored other entry found
  · intro other
    have before := recorded.once other
    rw [erase_stored]
    split
    · exact Nat.le_trans (Nat.le_add_right _ _) before
    · exact before

theorem take_recorded (recorded : Recorded kit config s) (worker : Nat) (id : String) :
    Recorded kit config ((s.take id).1.hold worker id (s.take id).2) := by
  have erased := erase_recorded recorded id
  unfold Nonces.take
  cases found : s.live id with
  | none => exact erased
  | some raw =>
    obtain ⟨deadline,there⟩ := live_stored found
    refine ⟨erased.stored,?_,erased.issued,erased.handed,?_,erased.admitted⟩
    · intro other entry held
      simp only [Nonces.hold,Store.get?_upsert] at held
      split at held
      · cases held
        exact recorded.stored id _ there
      · exact recorded.held other entry held
    · intro other
      have before := recorded.once other
      have more := Store.total_upsert_le s.holding worker (id,raw) (fun _ entry => if entry.1 = other then 1 else 0)
      have stored := erase_stored (s:=s) id other
      change handedFor s other + (s.holding.upsert worker (id,raw)).total (fun _ entry => if entry.1 = other then 1 else 0) +
        storedFor {s with nonces := s.nonces.erase id} other ≤ issuedFor s other
      rw [stored]
      simp only [heldFor] at before more
      by_cases same : other = id
      · have one : storedFor s other = 1 := by simp [storedFor,same,there]
        rw [if_pos same]
        simp only [same,if_true] at before more one ⊢
        omega
      · rw [if_neg same]
        rw [if_neg (fun equal => same equal.symm)] at more
        omega

theorem hand_recorded (documented : kit.Documented) (recorded : Recorded kit config s) {worker : Nat} {mint : Mint}
    (allowed : MayRequest kit config s worker (.hand mint)) :
    Recorded kit config {s with handed := s.handed ++ [mint],holding := s.holding.erase worker} := by
  obtain ⟨raw,record,held,read,address,signed,inTime,token⟩ := allowed
  have backed : Backed kit config s mint := by
    obtain ⟨issue,member,same,rfl⟩ := recorded.held worker _ held
    cases (documented.records issue.record).symm.trans read
    exact ⟨issue,member,same,address,signed,inTime,token⟩
  refine ⟨recorded.stored,?_,recorded.issued,?_,?_,recorded.admitted⟩
  · intro other entry found
    rw [Store.get?_erase] at found
    split at found
    · cases found
    · exact recorded.held other entry found
  · intro other member
    rcases List.mem_append.mp member with old | new
    · exact recorded.handed other old
    · rw [List.mem_singleton.mp new]
      exact backed
  · intro id
    have before := recorded.once id
    have fewer := Store.total_erase held (fun _ entry => if entry.1 = id then 1 else 0)
    simp only [handedFor,heldFor,storedFor,issuedFor,List.filter_append,List.length_append] at before fewer ⊢
    by_cases same : mint.challengeId = id
    · simp only [same,if_true,List.filter_cons_of_pos,decide_true,List.length_cons,List.length_nil,List.filter_nil]
        at before fewer ⊢
      omega
    · simp only [same,if_false,List.filter_cons_of_neg,decide_false,List.length_nil,List.filter_nil,Bool.false_eq_true,
        not_false_eq_true] at before fewer ⊢
      omega

end Logs
section Effects
variable {kit : Kit} {config : TokenConfig} {s : Nonces}

theorem faulty_cases {α : Type} (done : Nonces × α) (fault : Option Fault) :
    (faulty s done fault).1 = done.1 ∨ (faulty s done fault).1 = s := by
  cases fault with
  | none => exact .inl rfl
  | some fault =>
    cases fault with
    | before => exact .inr rfl
    | after => exact .inl rfl

theorem serve_grown (kit : Kit) (worker : Nat) (op : ChallengeOp) (c : ChallengeChoice) :
    Grown s (serveChallenge kit s worker op c).1 := by
  cases op with
  | issue id record ttlSecs =>
    rcases faulty_cases (s:=s) (s.issue kit id record ttlSecs) c.fault with done | same
    · rw [serveChallenge,done]
      exact issue_grown kit id record ttlSecs
    · rw [serveChallenge,same]
      exact .refl s
  | take id =>
    rcases faulty_cases (s:=s) ((s.take id).1.hold worker id (s.take id).2,(s.take id).2) c.fault with done | same
    · rw [serveChallenge,done]
      exact take_grown worker id
    · rw [serveChallenge,same]
      exact .refl s
  | verifySignature address message signature =>
    simp only [serveChallenge]
    split
    · exact ⟨fun _ member => member,fun _ => List.mem_append_left _,fun _ member => member⟩
    · exact .refl s
  | hand mint => exact ⟨fun _ member => member,fun _ member => member,fun _ => List.mem_append_left _⟩
  | enter admission => exact ⟨fun _ member => member,fun _ member => member,fun _ member => member⟩
  | _ => exact .refl s

theorem serve_recorded (documented : kit.Documented) (recorded : Recorded kit config s) {worker : Nat} {op : ChallengeOp}
    (allowed : MayRequest kit config s worker op) (c : ChallengeChoice) :
    Recorded kit config (serveChallenge kit s worker op c).1 := by
  cases op with
  | issue id record ttlSecs =>
    rcases faulty_cases (s:=s) (s.issue kit id record ttlSecs) c.fault with done | same
    · rw [serveChallenge,done]
      exact issue_recorded recorded allowed ttlSecs
    · rw [serveChallenge,same]
      exact recorded
  | take id =>
    rcases faulty_cases (s:=s) ((s.take id).1.hold worker id (s.take id).2,(s.take id).2) c.fault with done | same
    · rw [serveChallenge,done]
      exact take_recorded recorded worker id
    · rw [serveChallenge,same]
      exact recorded
  | verifySignature address message signature =>
    have grown := serve_grown kit (s:=s) worker (.verifySignature address message signature) c
    revert grown
    simp only [serveChallenge]
    split
    · intro grown
      exact ⟨recorded.stored,recorded.held,recorded.issued,
        fun mint member => grown.backed (recorded.handed mint member),recorded.once,recorded.admitted⟩
    · exact fun _ => recorded
  | hand mint => exact hand_recorded documented recorded allowed
  | enter admission =>
    refine ⟨recorded.stored,recorded.held,recorded.issued,recorded.handed,recorded.once,?_⟩
    intro other member
    rcases List.mem_append.mp member with old | new
    · exact recorded.admitted other old
    · rw [List.mem_singleton.mp new]
      exact allowed
  | _ => exact recorded

theorem serve_holding (worker : Nat) (op : ChallengeOp) (c : ChallengeChoice) {other : Nat} (different : other ≠ worker) :
    (serveChallenge kit s worker op c).1.holding.get? other = s.holding.get? other := by
  cases op with
  | issue id record ttlSecs =>
    rcases faulty_cases (s:=s) (s.issue kit id record ttlSecs) c.fault with done | same
    · rw [serveChallenge,done,Nonces.issue]
      split <;> rfl
    · rw [serveChallenge,same]
  | take id =>
    rcases faulty_cases (s:=s) ((s.take id).1.hold worker id (s.take id).2,(s.take id).2) c.fault with done | same
    · rw [serveChallenge,done]
      unfold Nonces.take Nonces.hold
      split
      · simp only [Store.get?_upsert,if_neg different]
      · rfl
    · rw [serveChallenge,same]
  | verifySignature address message signature =>
    simp only [serveChallenge]
    split <;> rfl
  | hand mint => simp only [serveChallenge,Store.get?_erase,if_neg different]
  | _ => rfl

theorem happen_recorded (recorded : Recorded kit config s) (event : TokenEvent) :
    Recorded kit config (happenChallenge s event) := by
  cases event with
  | wait milliseconds =>
    exact ⟨recorded.stored,recorded.held,recorded.issued,recorded.handed,recorded.once,recorded.admitted⟩
  | evict id => exact erase_recorded recorded id

end Effects

-- The routes keep to their terms.
section Programs
variable {kit : Kit} (config : TokenConfig) (documented : kit.Documented)

def tokenTerms : Terms (gatekeepers kit config).service where
  Inv := Recorded kit config
  Rely := Undisturbed
  Allowed := MayRequest kit config
  Given _ _ _ _ := True
  refl _ s := ⟨.refl s,rfl⟩
  trans _ _ _ _ first second := ⟨first.toGrown.trans second.toGrown,second.held.trans first.held⟩
  serves _ k op c recorded allowed _ := ⟨serve_recorded documented recorded allowed c,
    fun _ different => ⟨serve_grown kit k op c,serve_holding k op c different⟩⟩
  abandons s k recorded := by
    refine ⟨⟨recorded.stored,?_,recorded.issued,recorded.handed,?_,recorded.admitted⟩,
      fun j different => ⟨⟨fun _ member => member,fun _ member => member,fun _ member => member⟩,?_⟩⟩
    · intro worker entry found
      simp only [gatekeepers,Store.get?_erase] at found
      split at found
      · cases found
      · exact recorded.held worker entry found
    · intro id
      have before := recorded.once id
      have fewer := Store.total_erase_le s.holding k (fun _ entry => if entry.1 = id then 1 else 0)
      change handedFor s id + (s.holding.erase k).total (fun _ entry => if entry.1 = id then 1 else 0) + storedFor s id ≤
        issuedFor s id
      simp only [heldFor] at before
      omega
    · change (s.holding.erase k).get? j = s.holding.get? j
      rw [Store.get?_erase,if_neg different]

variable {config documented} {α β : Type} {k : Nat} {s : Nonces}

abbrev Kept (documented : kit.Documented) (config : TokenConfig) (k : Nat) (post : Except SdError α → Nonces → Prop)
    (p : TokenRoute α) (s : Nonces) : Prop := Keeps (tokenTerms config documented) k post p s

theorem settle_bind {post : Except SdError β → Nonces → Prop} {result : Except SdError α} {next : α → TokenRoute β}
    (ok : ∀ value, result = .ok value → Kept documented config k post (next value) s)
    (failed : ∀ error, post (.error error) s) : Kept documented config k post (settle result >>= next) s :=
  Keeps.orFail_bind ok (fun error _ => failed error)

theorem ask_bind {post : Except SdError α → Nonces → Prop} (op : ChallengeOp) {next : ChallengeAnswer op → TokenRoute α}
    (rest : ∀ c now, Undisturbed k s now → MayRequest kit config now k op ∧ (Recorded kit config (serveChallenge kit now k op c).1 →
      Kept documented config k post (next (serveChallenge kit now k op c).2) (serveChallenge kit now k op c).1)) :
    Kept documented config k post (request op >>= next) s := by
  intro now since recorded
  have allowed : MayRequest kit config now k op := (rest {} now since).1
  exact ⟨allowed,fun c _ => (rest c now since).2 (serve_recorded documented recorded allowed c)⟩

theorem challenge_keeps (rawAddress : String) :
    Kept documented config k (fun _ _ => True) (challenge rawAddress) s := by
  refine settle_bind ?_ (fun _ => trivial)
  intro address read
  have canonical := canonical_fixed (Fallible.require_ok.mp read)
  refine ask_bind .newUuid (fun c now _ => ⟨trivial,fun _ => ?_⟩)
  refine ask_bind .now (fun d later _ => ⟨trivial,fun _ => ?_⟩)
  refine ask_bind (.issue _ _ _) (fun d after _ => ⟨⟨canonical,rfl⟩,fun _ => ?_⟩)
  split <;> trivial

theorem verifyPersonal_keeps {address : Owner} (canonical : canonicalSuiAddress address = some address)
    (message signature : String) :
    Kept documented config k (fun result now => (∀ done, result = .ok done → ⟨address,message,signature⟩ ∈ now.verified) ∧
      Undisturbed k s now) (verifyPersonal kit address message signature) s := by
  have refl := (tokenTerms config documented).refl k s
  refine settle_bind ?_ (fun _ => ⟨fun _ bad => (by cases bad),refl⟩)
  intro owner read
  cases canonical.symm.trans (Fallible.require_ok.mp read)
  refine settle_bind ?_ (fun _ => ⟨fun _ bad => (by cases bad),refl⟩)
  intro _ _
  refine ask_bind (.verifySignature _ _ _) (fun c now since => ⟨trivial,fun _ => ?_⟩)
  have grown := since.toGrown.trans (serve_grown kit k (.verifySignature address message signature) c)
  have held : (serveChallenge kit now k (.verifySignature address message signature) c).1.holding.get? k =
      s.holding.get? k := by
    refine Eq.trans ?_ since.held
    simp only [serveChallenge]
    split <;> rfl
  have after : Undisturbed k s (serveChallenge kit now k (.verifySignature address message signature) c).1 := ⟨grown,held⟩
  cases verdict : c.verdict with
  | error failure =>
    simp only [serveChallenge,verdict] at after ⊢
    exact ⟨fun _ bad => (by cases bad),after⟩
  | ok valid =>
    cases valid with
    | none =>
      simp only [serveChallenge,verdict] at after ⊢
      exact ⟨fun _ bad => (by cases bad),after⟩
    | some valid =>
      cases valid with
      | false =>
        simp only [serveChallenge,verdict] at after ⊢
        exact ⟨fun _ bad => (by cases bad),after⟩
      | true =>
        simp only [serveChallenge,verdict] at after ⊢
        exact ⟨fun _ _ => List.mem_append_right _ List.mem_cons_self,after⟩

theorem takeRecord_keeps (challengeId : String) :
    Kept documented config k (fun result now => ∀ record, result = .ok record →
      ∃ raw, now.holding.get? k = some (challengeId,raw) ∧ kit.readRecord raw = some record)
      (takeRecord kit challengeId) s := by
  refine ask_bind (.take challengeId) (fun c now _ => ⟨trivial,fun _ => ?_⟩)
  cases failed : c.fault with
  | some fault =>
    cases fault <;> (simp only [serveChallenge,faulty,failed]; exact fun _ bad => (by cases bad))
  | none =>
    simp only [serveChallenge,faulty,failed,Nonces.take]
    cases found : now.live challengeId with
    | none => exact fun _ bad => (by cases bad)
    | some raw =>
      refine Keeps.orFail ?_ (fun _ _ _ bad => by cases bad)
      intro record read other same
      cases same
      refine ⟨raw,?_,Fallible.require_ok.mp read⟩
      simp only [Nonces.hold,Store.get?_upsert,if_true]

theorem verify_keeps (recorded : Recorded kit config s) (challengeId rawAddress signature : String) :
    Kept documented config k (fun _ _ => True) (verify kit config challengeId rawAddress signature) s := by
  refine settle_bind ?_ (fun _ => trivial)
  intro _ _
  refine settle_bind ?_ (fun _ => trivial)
  intro address read
  have canonical := canonical_fixed (Fallible.require_ok.mp read)
  refine Keeps.bind recorded (takeRecord_keeps challengeId) ?_ (fun _ _ _ _ => trivial)
  intro record now recorded known
  obtain ⟨raw,held,reads⟩ := known record rfl
  refine ask_bind .now (fun c after since => ⟨trivial,fun recorded => ?_⟩)
  replace held := since.held.trans held
  refine settle_bind ?_ (fun _ => trivial)
  intro _ checked
  have inTime := Fallible.ensure_ok.mp checked
  obtain ⟨time,same⟩ := not_or.mp inTime
  refine Keeps.bind recorded (verifyPersonal_keeps canonical record.message signature) ?_ (fun _ _ _ _ => trivial)
  intro _ later recorded known
  have signed := known.1 _ rfl
  replace held := known.2.held.trans held
  refine settle_bind ?_ (fun _ => trivial)
  intro secret given
  refine ask_bind .now (fun d final since => ⟨trivial,fun recorded => ?_⟩)
  replace held := since.held.trans held
  replace signed := since.verified _ signed
  refine ask_bind (.hand _) (fun e last more => ⟨?_,fun _ => trivial⟩)
  exact ⟨raw,record,more.held.trans held,reads,not_not.mp same,more.verified _ signed,not_lt.mp time,secret,
    Fallible.require_ok.mp given,rfl⟩

theorem fromRequestParts_keeps (authorization : Option String) :
    Kept documented config k (fun _ _ => True) (fromRequestParts kit config authorization) s := by
  refine settle_bind ?_ (fun _ => trivial)
  intro token _
  refine settle_bind ?_ (fun _ => trivial)
  intro secret given
  refine ask_bind .now (fun c now _ => ⟨trivial,fun _ => ?_⟩)
  refine settle_bind ?_ (fun _ => trivial)
  intro owner verified
  exact ask_bind (.enter _) (fun d later _ => ⟨⟨secret,Fallible.require_ok.mp given,verified⟩,fun _ => trivial⟩)

theorem route_keeps (recorded : Recorded kit config s) (asked : TokenRequest) :
    Kept documented config k (fun _ _ => True) (route kit config asked) s := by
  cases asked with
  | challenge address => exact challenge_keeps address
  | verify challengeId address signature => exact verify_keeps recorded challengeId address signature
  | owned authorization => exact fromRequestParts_keeps authorization

end Programs
section Runs
variable {kit : Kit} {config : TokenConfig} {s : Nonces}

def tokenContract (config : TokenConfig) (documented : kit.Documented) :
    Crew.Contract (gatekeepers kit config) (tokenTerms config documented) where
  Idle _ _ := True
  stays _ _ _ _ _ := trivial
  leaves _ _ _ := trivial
  happens s event recorded := by
    refine ⟨happen_recorded recorded event,fun j => ?_⟩
    cases event <;> exact ⟨⟨fun _ member => member,fun _ member => member,fun _ member => member⟩,rfl⟩
  programs asked _ _ recorded _ := route_keeps recorded asked

-- A new deployment.
structure Nonces.Unused (s : Nonces) : Prop where
  nonces : s.nonces = .empty
  holding : s.holding = .empty
  issued : s.issued = []
  handed : s.handed = []
  admitted : s.admitted = []

theorem unused_recorded (unused : s.Unused) : Recorded kit config s := by
  refine ⟨?_,?_,?_,?_,?_,?_⟩
  · intro id entry found
    rw [unused.nonces] at found
    cases found
  · intro worker entry found
    rw [unused.holding] at found
    cases found
  · intro issue member
    rw [unused.issued] at member
    cases member
  · intro mint member
    rw [unused.handed] at member
    cases member
  · intro id
    rw [handedFor,heldFor,storedFor,unused.handed,unused.holding,unused.nonces]
    exact Nat.zero_le _
  · intro admission member
    rw [unused.admitted] at member
    cases member

theorem unused_sound (config : TokenConfig) (documented : kit.Documented) (unused : s.Unused) :
    Crew.Sound (tokenContract config documented) ⟨s,.empty⟩ :=
  ⟨unused_recorded unused,fun _ _ found => (by cases found),fun _ _ => trivial⟩

-- A bearer with a right MAC has it for a payload that was handed out.
def Unforged (kit : Kit) (config : TokenConfig) (s : Nonces) (_ : Nat) : ChallengeOp → ChallengeChoice → Prop
  | .enter admission,_ => ∀ secret claimed, config.deletionTokenSecret = some secret →
      admission.token = signPayload kit.toMac secret (Numerals.base64url claimed) → ∃ mint ∈ s.handed,
        Numerals.base64url claimed = tokenPayload kit.toMac mint.address config.deletionTokenTtlSecs mint.mintedAt
  | _,_ => True

-- The token of a request that was let in is one that was handed out to its owner,
-- and has not run out.
def Traced (config : TokenConfig) (s : Nonces) (admission : Admission) : Prop :=
  ∃ mint ∈ s.handed, admission.token = mint.token ∧ admission.owner = mint.address ∧
    admission.admittedAt < saturatingAdd mint.mintedAt (asI64 config.deletionTokenTtlSecs)

theorem Grown.traced {now : Nonces} (grown : Grown s now) {admission : Admission} :
    Traced config s admission → Traced config now admission := by
  rintro ⟨mint,member,rest⟩
  exact ⟨mint,grown.handed mint member,rest⟩

theorem enter_traced (documented : kit.Documented) (recorded : Recorded kit config s) {k : Nat} {admission : Admission}
    {c : ChallengeChoice} (allowed : MayRequest kit config s k (.enter admission))
    (unforged : Unforged kit config s k (.enter admission) c) : Traced config s admission := by
  obtain ⟨secret,given,verified⟩ := allowed
  obtain ⟨claimed,claims,text,reads,ahead,canonical⟩ := verifyToken_ok.mp verified
  obtain ⟨mint,member,payload⟩ := unforged secret claimed given text
  obtain ⟨issue,there,_,address,_,_,other,same,token⟩ := recorded.handed mint member
  cases given.symm.trans same
  have equal := Numerals.base64url_injective payload
  rw [equal,documented.claims] at reads
  cases reads
  have owner := (recorded.issued issue there).canonical
  rw [address] at owner
  have named := Option.some.inj (owner.symm.trans canonical)
  refine ⟨mint,member,?_,named.symm,ahead⟩
  rw [text,token,mintToken,payload]

theorem serve_traced (documented : kit.Documented) {k : Nat} {op : ChallengeOp} {c : ChallengeChoice}
    (recorded : Recorded kit config s) (allowed : MayRequest kit config s k op) (unforged : Unforged kit config s k op c)
    (traced : ∀ admission ∈ s.admitted, Traced config s admission) :
    ∀ admission ∈ (serveChallenge kit s k op c).1.admitted, Traced config (serveChallenge kit s k op c).1 admission := by
  have grown := serve_grown kit (s:=s) k op c
  intro admission member
  have older : admission ∈ s.admitted → Traced config (serveChallenge kit s k op c).1 admission :=
    fun old => grown.traced (traced admission old)
  cases op with
  | enter other =>
    rcases List.mem_append.mp member with old | new
    · exact older old
    · rw [List.mem_singleton.mp new]
      exact grown.traced (enter_traced documented recorded allowed unforged)
  | issue id record ttlSecs =>
    refine older ?_
    rcases faulty_cases (s:=s) (s.issue kit id record ttlSecs) c.fault with done | same
    · rw [serveChallenge,done,Nonces.issue] at member
      split at member <;> exact member
    · rw [serveChallenge,same] at member
      exact member
  | take id =>
    refine older ?_
    rcases faulty_cases (s:=s) ((s.take id).1.hold k id (s.take id).2,(s.take id).2) c.fault with done | same
    · rw [serveChallenge,done] at member
      unfold Nonces.take Nonces.hold at member
      split at member <;> exact member
    · rw [serveChallenge,same] at member
      exact member
  | verifySignature address message signature =>
    refine older ?_
    simp only [serveChallenge] at member
    split at member <;> exact member
  | _ => exact older member

-- Requests of all kinds, interleaved and cut off anywhere, with a Redis that fails
-- and forgets. Whoever is let in has a token that goes back to a challenge which a
-- wallet of that address has signed in time, and no challenge gives two tokens.
theorem bearers_traced (kit : Kit) (documented : kit.Documented) (config : TokenConfig) (s : Nonces) (unused : s.Unused)
    (moves : List (Move TokenRequest ChallengeChoice TokenEvent)) (i : Nat) :
    let w := Runs.before (gatekeepers kit config).exec ⟨s,.empty⟩ moves i
    (∀ mint ∈ w.shared.handed, Backed kit config w.shared mint) ∧
    (∀ id, handedFor w.shared id ≤ issuedFor w.shared id) ∧
    (∀ issue ∈ w.shared.issued, issue.Sound) ∧
    (Crew.Assumed (gatekeepers kit config) (Unforged kit config) ⟨s,.empty⟩ moves →
      ∀ admission ∈ w.shared.admitted, Traced config w.shared admission) := by
  intro w
  have sound := unused_sound config documented unused
  have recorded : Recorded kit config w.shared := (Crew.sound_before (fun _ _ _ _ => trivial) sound i).inv
  refine ⟨recorded.handed,?_,recorded.issued,?_⟩
  · intro id
    have once := recorded.once id
    omega
  · intro unforged
    refine Crew.invariant (J:=fun s => ∀ admission ∈ s.admitted, Traced config s admission) (fun _ _ _ _ => trivial) sound
      unforged ?_ ?_ ?_ ?_ i
    · intro admission member
      change admission ∈ s.admitted at member
      rw [unused.admitted] at member
      cases member
    · intro now k op c inv allowed given traced
      exact serve_traced documented inv allowed given traced
    · intro now k _ traced
      exact traced
    · intro now event _ traced
      cases event <;> exact traced

-- The wallet asks for a challenge, answers it and lists its blobs.

def sampleNonce : String := "6f9619ff-8b86-4d01-b42d-00cf4fc964ff"

def sampleRecord : ChallengeRecord := ⟨sampleWallet,challengeMessage sampleWallet sampleNonce 300,300⟩

def sampleRecordJson : String :=
  "\x7b\"canonicalAddress\":\"" ++ sampleWallet ++ "\",\"message\":\"MemWal security deletion auth\\naddress: " ++
    sampleWallet ++ "\\nnonce: " ++ sampleNonce ++ "\\nexpires: 300\",\"expires\":300\x7d"

def recordNumber (record : ChallengeRecord) : Nat :=
  Encodable.encode (record.canonicalAddress.toList.map Char.toNat,record.message.toList.map Char.toNat,record.expires)

def otherRecordJson (record : ChallengeRecord) : String :=
  sampleRecordJson ++ String.ofList (List.replicate (recordNumber record + 1) 'x')

def otherRecord (json : String) : Option ChallengeRecord := do
  let parts ← (Encodable.decode (json.toList.length - sampleRecordJson.toList.length - 1) : Option (List Nat × List Nat × Int))
  return ⟨letters parts.1,letters parts.2.1,parts.2.2⟩

theorem otherRecordJson_length (record : ChallengeRecord) :
    (otherRecordJson record).toList.length = sampleRecordJson.toList.length + (recordNumber record + 1) := by
  rw [otherRecordJson,String.toList_append,List.length_append,String.toList_ofList,List.length_replicate]

theorem otherRecord_otherRecordJson (record : ChallengeRecord) : otherRecord (otherRecordJson record) = some record := by
  rw [otherRecord,otherRecordJson_length,Nat.add_sub_cancel_left,Nat.add_sub_cancel]
  simp only [recordNumber,Encodable.encodek,Option.bind_eq_bind,Option.bind_some,letters_back,Option.pure_def]

theorem otherRecordJson_apart (record : ChallengeRecord) : otherRecordJson record ≠ sampleRecordJson := by
  intro same
  have long := otherRecordJson_length record
  rw [same] at long
  omega

def sampleKit : Kit where
  toMac := sampleMac
  recordJson record := if record = sampleRecord then sampleRecordJson else otherRecordJson record
  readRecord json := if json = sampleRecordJson then some sampleRecord else otherRecord json
  isUuid text := text = sampleNonce
  isSignature text := text ≠ ""

theorem sampleKit_documented : sampleKit.Documented where
  claims := sampleMac_documented
  records record := by
    by_cases same : record = sampleRecord
    · simp only [sampleKit,same,if_true]
    · simp only [sampleKit,if_neg same,if_neg (otherRecordJson_apart record),otherRecord_otherRecordJson]

def sampleConfig : TokenConfig := ⟨some [1,2,3],2700⟩

def sampleChoice : ChallengeChoice where
  uuid := sampleNonce
  verdict := .ok (some true)

def sampleMoves : List (Move TokenRequest ChallengeChoice TokenEvent) :=
  [.spawn 0 (.challenge sampleWallet),.step 0 sampleChoice,.step 0 sampleChoice,.step 0 sampleChoice,
    .spawn 1 (.verify sampleNonce sampleWallet "AHNpZw=="),.step 1 sampleChoice,.step 1 sampleChoice,.step 1 sampleChoice,
    .step 1 sampleChoice,.step 1 sampleChoice,.spawn 2 (.owned (some ("Bearer " ++ sampleToken))),.step 2 sampleChoice,
    .step 2 sampleChoice,.outside (.wait 1000)]

-- Whoever is let in has the token that the wallet was handed.
def honest (s : Nonces) : Option (Nat × ChallengeOp × ChallengeChoice) → Bool
  | some (_,.enter admission,_) =>
    admission.token = sampleToken && s.handed.any (fun mint => mint.address = sampleWallet && mint.mintedAt = 0)
  | _ => true

-- By the time that the clock goes on the wallet has been let in.
def served (s : Nonces) : Move TokenRequest ChallengeChoice TokenEvent → Bool
  | .outside _ => s.admitted = [⟨sampleWallet,sampleToken,0⟩]
  | _ => true

theorem served_outside {s : Nonces} {event : TokenEvent} {before : Bool}
    (seen : (before && served s (.outside event)) = true) : s.admitted = [⟨sampleWallet,sampleToken,0⟩] := by
  rw [Bool.and_eq_true] at seen
  exact of_decide_eq_true seen.2

theorem sampleMoves_watched : Runs.always (gatekeepers sampleKit sampleConfig).exec
    (fun w move => honest w.shared (Crew.served w move) && served w.shared move) ⟨{},.empty⟩ sampleMoves = true := by
  decide +kernel

theorem sampleMoves_unforged : Crew.Assumed (gatekeepers sampleKit sampleConfig) (Unforged sampleKit sampleConfig)
    ⟨{},.empty⟩ sampleMoves := by
  intro i move worker op choice found call
  have checked := Runs.before_of_always sampleMoves_watched i move found
  rw [call] at checked
  cases op with
  | enter admission =>
    simp only [honest,Bool.and_eq_true,decide_eq_true_eq,List.any_eq_true] at checked
    obtain ⟨⟨token,mint,member,address,mintedAt⟩,_⟩ := checked
    intro secret claimed given signed
    cases given
    refine ⟨mint,member,?_⟩
    rw [token,← sampleToken_minted] at signed
    rw [address,mintedAt,← signPayload_injective signed]
    rfl
  | _ => trivial

theorem sampleMoves_traced : ∃ w, w = Runs.before (gatekeepers sampleKit sampleConfig).exec ⟨{},.empty⟩ sampleMoves 13 ∧
    w.shared.admitted = [⟨sampleWallet,sampleToken,0⟩] ∧ handedFor w.shared sampleNonce ≤ issuedFor w.shared sampleNonce ∧
    ∀ admission ∈ w.shared.admitted, Traced sampleConfig w.shared admission := by
  obtain ⟨_,once,_,traced⟩ := bearers_traced sampleKit sampleKit_documented sampleConfig {} ⟨rfl,rfl,rfl,rfl,rfl⟩ sampleMoves 13
  have admitted := served_outside (Runs.before_of_always sampleMoves_watched 13 (.outside (.wait 1000)) rfl)
  exact ⟨_,rfl,admitted,once sampleNonce,traced sampleMoves_unforged⟩

end Runs
end MemWal.SecurityDelete.Tokens
