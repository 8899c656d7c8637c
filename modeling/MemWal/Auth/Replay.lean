import MemWal.Auth.Middleware

namespace MemWal.Auth
open Library Library.Expiring

def nonceTtl : Nat := 600 * 1000

-- What the nonces, the log of those recorded, and the clock have to do with each
-- other.
structure Recorded (s : World) : Prop where
  granted : Granted nonceTtl s.nonces s.clock (s.grants.map (fun grant => (grant.credential.nonceKey,grant.at_)))
  inTime : ∀ grant ∈ s.grants, ∃ timestamp, grant.credential.timestamp = some timestamp ∧
    (timestamp - 300) * 1000 ≤ grant.at_

-- A nonce is recorded for a request whose time stamp is no more than 300 s ahead.
def MayCall (s : World) : Op → Prop
  | .setNonce key seconds credential => key = credential.nonceKey ∧ seconds = 600 ∧
    ∃ timestamp, credential.timestamp = some timestamp ∧ (timestamp - 300) * 1000 ≤ s.clock
  | _ => True

section Calls
variable {s : World}

theorem setNonce_held {key : String} {seconds : Nat} {credential : Credential} {passed : Bool}
    (taken : held s.nonces s.clock key = true) : s.setNonce key seconds credential passed = (s,false) := by
  simp [World.setNonce,setIfAbsent_held taken]

theorem setNonce_free {key : String} {seconds : Nat} {credential : Credential} {passed : Bool}
    (free : held s.nonces s.clock key = false) :
    s.setNonce key seconds credential passed = ({s with
      nonces := s.nonces.upsert key (s.clock + seconds * 1000)
      grants := s.grants ++ [⟨credential,s.clock,passed⟩]},true) := by
  simp [World.setNonce,setIfAbsent_free free]

-- Only a nonce that is recorded changes the log.
theorem serve_recorded (op : Op) (c : Choice) :
    (∃ credential key seconds, op = .setNonce key seconds credential ∧ c.fault ≠ some .before ∧
      held s.nonces s.clock key = false ∧
      (serve s op c).1 = {s with
        nonces := s.nonces.upsert key (s.clock + seconds * 1000)
        grants := s.grants ++ [⟨credential,s.clock,c.fault.isNone⟩]}) ∨
    ((serve s op c).1.nonces = s.nonces ∧ (serve s op c).1.grants = s.grants ∧ (serve s op c).1.clock = s.clock) := by
  cases op with
  | setNonce key seconds credential =>
    cases taken : held s.nonces s.clock key with
    | true =>
      right
      simp only [serve,setNonce_held taken]
      cases c.fault with
      | none => exact ⟨rfl,rfl,rfl⟩
      | some fault => cases fault <;> exact ⟨rfl,rfl,rfl⟩
    | false =>
      simp only [serve,setNonce_free taken]
      cases c.fault with
      | none => exact .inl ⟨credential,key,seconds,rfl,by simp,taken,rfl⟩
      | some fault =>
        cases fault with
        | before => exact .inr ⟨rfl,rfl,rfl⟩
        | after => exact .inl ⟨credential,key,seconds,rfl,by simp,taken,rfl⟩
  | deleteCachedKey publicKey =>
    right
    simp only [serve]
    cases c.fault with
    | none => exact ⟨rfl,rfl,rfl⟩
    | some fault => cases fault <;> exact ⟨rfl,rfl,rfl⟩
  | cacheDelegateKey publicKey accountId owner =>
    right
    simp only [serve]
    cases c.fault with
    | none => exact ⟨rfl,rfl,rfl⟩
    | some fault => cases fault <;> exact ⟨rfl,rfl,rfl⟩
  | getCachedAccount publicKey =>
    right
    simp only [serve]
    cases c.fault with
    | none => exact ⟨rfl,rfl,rfl⟩
    | some fault => cases fault <;> exact ⟨rfl,rfl,rfl⟩
  | _ => exact .inr ⟨rfl,rfl,rfl⟩

theorem serve_clock (op : Op) (c : Choice) : (serve s op c).1.clock = s.clock := by
  rcases serve_recorded (s:=s) op c with ⟨_,_,_,_,_,_,equal⟩ | ⟨_,_,equal⟩
  · rw [equal]
  · exact equal

theorem Recorded.wait (recorded : Recorded s) {now : World} (nonces : now.nonces = s.nonces)
    (grants : now.grants = s.grants) (clock : s.clock ≤ now.clock) : Recorded now := by
  refine ⟨?_,?_⟩
  · rw [nonces,grants]
    exact recorded.granted.wait clock
  · rw [grants]
    exact recorded.inTime

theorem serve_keeps (recorded : Recorded s) {op : Op} (allowed : MayCall s op) (c : Choice) :
    Recorded (serve s op c).1 := by
  rcases serve_recorded (s:=s) op c with ⟨credential,key,seconds,rfl,_,free,equal⟩ | ⟨nonces,grants,clock⟩
  · obtain ⟨rfl,rfl,timestamp,stamped,ahead⟩ := allowed
    rw [equal]
    refine ⟨?_,?_⟩
    · simp only [List.map_append,List.map_cons,List.map_nil]
      exact recorded.granted.grant free
    · intro grant member
      rcases List.mem_append.mp member with old | new
      · exact recorded.inTime grant old
      · rw [List.mem_singleton.mp new]
        exact ⟨timestamp,stamped,ahead⟩
  · exact recorded.wait nonces grants (Nat.le_of_eq clock.symm)

theorem happen_recorded (event : Event) : (happen s event).nonces = s.nonces ∧ (happen s event).grants = s.grants ∧
    s.clock ≤ (happen s event).clock := by
  cases event with
  | wait milliseconds => exact ⟨rfl,rfl,Nat.le_add_right _ _⟩
  | object accountId content => cases content <;> exact ⟨rfl,rfl,Nat.le_refl _⟩
  | registered accountId => exact ⟨rfl,rfl,Nat.le_refl _⟩
  | evictExpiredDelegateKeys => exact ⟨rfl,rfl,Nat.le_refl _⟩

end Calls

variable (kit : Kit) (config : Config)

def clockTerms : Terms (server kit config).service where
  Inv := Recorded
  Rely _ s now := s.clock ≤ now.clock
  Allowed s _ op := MayCall s op
  Given _ _ _ _ := True
  refl _ _ := Nat.le_refl _
  trans _ _ _ _ := Nat.le_trans
  serves _ _ op c recorded allowed _ := ⟨serve_keeps recorded allowed c,fun _ _ => Nat.le_of_eq (serve_clock op c).symm⟩
  abandons _ _ recorded := ⟨recorded,fun _ _ => Nat.le_refl _⟩

-- Only the nonce check records a nonce.
def Quiet : Op → Prop
  | .setNonce _ _ _ => False
  | _ => True

section Quiet
variable {config} {ε : Type}

theorem call_quiet {op : Op} (quiet : Quiet op) : (call op : Program Op Answer ε (Answer op)).Only Quiet :=
  .perform quiet

theorem resolveAccount_quiet (publicKeyHex : String) (publicKey : Bytes) (hint : Option AccountId) :
    (resolveAccount config publicKeyHex publicKey hint).Only Quiet := by
  refine (resolveAccount_only publicKeyHex publicKey hint).mono ?_
  intro op resolves
  cases op with
  | setNonce key seconds credential => cases resolves
  | _ => trivial

end Quiet

section Programs
variable {kit config} {k : Nat} {s : World}

theorem keeps_quiet {ε α : Type} {p : Program Op Answer ε α} (only : p.Only Quiet) (s : World) :
    Keeps (clockTerms kit config) k (fun _ _ => True) p s := by
  refine Keeps.of_only ?_ only s
  intro op quiet now
  cases op with
  | setNonce key seconds credential => cases quiet
  | _ => trivial

theorem inWindow_ahead {now timestamp : Int} (inside : inWindow now timestamp = true) : timestamp - 300 ≤ now := by
  have bounds := of_decide_eq_true inside
  simp only [checkedSub] at bounds
  split at bounds
  · simp only [Option.getD_some] at bounds
    omega
  · simp only [Option.getD_none,i64Max] at bounds
    omega

theorem seconds_le {clock : Nat} {timestamp : Int} (ahead : timestamp - 300 ≤ (clock / 1000 : Nat)) :
    (timestamp - 300) * 1000 ≤ clock := by
  omega

-- The time stamp of a decoded request was checked against the clock.
def Stamped (signed : Signed) (s : World) : Prop :=
  ∃ timestamp, parseI64 signed.message.timestamp = some timestamp ∧ (timestamp - 300) * 1000 ≤ s.clock

theorem Stamped.later {signed : Signed} {now : World} (stamped : Stamped signed s) (after : s.clock ≤ now.clock) :
    Stamped signed now := by
  obtain ⟨timestamp,parsed,ahead⟩ := stamped
  exact ⟨timestamp,parsed,ahead.trans (by exact_mod_cast after)⟩

theorem decodeRequest_stamped (request : SignedRequest) :
    Keeps (clockTerms kit config) k (fun result now => ∀ signed, result = .ok signed → Stamped signed now)
      (decodeRequest kit request) s := by
  have failed : ∀ (error : Rejection) (now : World) (signed : Signed), Except.error error = .ok signed →
      Stamped signed now := fun _ _ _ equal => nomatch equal
  refine Keeps.orFail_bind (fun publicKeyHex _ => ?_) (fun error _ => failed error _)
  refine Keeps.orFail_bind (fun signatureHex _ => ?_) (fun error _ => failed error _)
  refine Keeps.orFail_bind (fun timestampStr _ => ?_) (fun error _ => failed error _)
  refine Keeps.orFail_bind (fun nonce _ => ?_) (fun error _ => failed error _)
  refine Keeps.orFail_bind (fun _ _ => ?_) (fun error _ => failed error _)
  refine Keeps.orFail_bind (fun timestamp parsed => ?_) (fun error _ => failed error _)
  intro now _ _
  refine ⟨trivial,fun c _ => ?_⟩
  refine Keeps.orFail_bind (fun _ inside => ?_) (fun error _ => failed error _)
  refine Keeps.orFail_bind (fun publicKey _ => ?_) (fun error _ => failed error _)
  refine Keeps.orFail_bind (fun _ _ => ?_) (fun error _ => failed error _)
  refine Keeps.orFail_bind (fun _ _ => ?_) (fun error _ => failed error _)
  refine Keeps.orFail_bind (fun signature _ => ?_) (fun error _ => failed error _)
  refine Keeps.orFail_bind (fun _ _ => ?_) (fun error _ => failed error _)
  intro signed equal
  cases equal
  have window := inWindow_ahead (Fallible.ensure_ok.mp inside)
  exact ⟨timestamp,Fallible.require_ok.mp parsed,seconds_le window⟩

theorem recordNonce_keeps {signed : Signed} (stamped : Stamped signed s) :
    Keeps (clockTerms kit config) k (fun _ _ => True) (recordNonce (.signed signed.message signed.signature)) s := by
  intro now since _
  refine ⟨⟨rfl,rfl,stamped.later since⟩,fun c _ => ?_⟩
  exact Keeps.orFail (fun _ _ => trivial) (fun _ _ => trivial)

theorem verifySignature_keeps (request : SignedRequest) (recorded : Recorded s) :
    Keeps (clockTerms kit config) k (fun _ _ => True) (verifySignature kit config request) s := by
  refine Keeps.bind recorded (decodeRequest_stamped request) ?_ (fun _ _ _ _ => trivial)
  intro signed now inv stamped
  refine Keeps.bind (Q:=fun _ now => Stamped signed now) inv ?_ ?_ (fun _ _ _ _ => trivial)
  · intro after since _
    exact ⟨trivial,fun c _ => (stamped signed rfl).later (since.trans (Nat.le_of_eq (serve_clock .readBody c).symm))⟩
  intro read now inv stamped
  refine Keeps.orFail_bind (fun _ _ => ?_) (fun _ _ => trivial)
  refine Keeps.orFail_bind (fun _ _ => ?_) (fun _ _ => trivial)
  refine Keeps.bind inv (recordNonce_keeps stamped) ?_ (fun _ _ _ _ => trivial)
  intro _ now _ _
  refine keeps_quiet (.bind (resolveAccount_quiet _ _ _).attempt (fun resolved => ?_)) now
  split
  · trivial
  · exact call_quiet trivial

theorem authenticateSponsorRequest_keeps (request : SponsorRequest) :
    Keeps (clockTerms kit config) k (fun _ _ => True) (authenticateSponsorRequest kit request) s := by
  refine Keeps.orFail_bind (fun signature _ => ?_) (fun _ _ => trivial)
  refine Keeps.orFail_bind (fun timestamp _ => ?_) (fun _ _ => trivial)
  refine Keeps.orFail_bind (fun nonce _ => ?_) (fun _ _ => trivial)
  intro now _ recorded
  refine ⟨trivial,fun c _ => ?_⟩
  refine Keeps.orFail_bind (fun _ checked => ?_) (fun _ _ => trivial)
  have inside : inWindow ((now.clock / 1000 : Nat) : Int) timestamp = true :=
    decide_eq_true (Fallible.ensure_ok.mp checked).1
  refine Keeps.bind (Q:=fun _ _ => True) recorded ?_ ?_ (fun _ _ _ _ => trivial)
  · intro later since _
    have clock : now.clock ≤ later.clock := since
    have ahead : (timestamp - 300) * 1000 ≤ later.clock :=
      (seconds_le (inWindow_ahead inside)).trans (by exact_mod_cast clock)
    exact ⟨⟨rfl,rfl,timestamp,rfl,ahead⟩,fun _ _ => trivial⟩
  · intro reserved later _ _
    cases reserved with
    | error _ => trivial
    | ok reserved =>
      refine keeps_quiet (.bind (.orFail _) (fun _ => .bind ?_ (fun verified => ?_))) later
      · exact @call_quiet _ (.verifyPersonal _ _ _) trivial
      · split <;> trivial

end Programs

def clockContract : (server kit config).Contract (clockTerms kit config) where
  Idle _ _ := True
  stays _ _ _ _ _ := trivial
  leaves _ _ _ := trivial
  happens s event recorded := by
    obtain ⟨nonces,grants,clock⟩ := happen_recorded (s:=s) event
    exact ⟨recorded.wait nonces grants clock,fun _ => clock⟩
  programs request s k recorded _ := by
    cases request with
    | signed request => exact verifySignature_keeps request recorded
    | sponsor request => exact authenticateSponsorRequest_keeps request

-- Requests of both routes, from a server that has recorded nothing yet.
section Histories
variable {kit config} {start : World}

structure Fresh (start : World) : Prop where
  nonces : start.nonces = .empty
  grants : start.grants = []

-- How many requests with this signed message passed.
def passes (s : World) (credential : Credential) : Nat :=
  (s.grants.filter (fun grant => grant.passed && decide (grant.credential = credential))).length

-- Once a request has passed, its message comes to the nonce check again only
-- while the nonce was recorded less than 600 s ago.
def Timely (s : World) (credential : Credential) : Prop :=
  ∀ grant ∈ s.grants, grant.passed = true → grant.credential = credential →
    ∃ recent ∈ s.grants, recent.credential.nonceKey = credential.nonceKey ∧ s.clock < recent.at_ + nonceTtl

-- The nonce checks that a run serves.
def Checks (kit : Kit) (config : Config) (start : World) (acts : List Act) (i : Nat) (credential : Credential) : Prop :=
  ∃ act worker key seconds choice, acts[i]? = some act ∧
    Crew.served (at_ kit config start acts i) act = some (worker,.setNonce key seconds credential,choice) ∧
    choice.fault = none

theorem fresh_recorded (fresh : Fresh start) : Recorded start := by
  refine ⟨?_,?_⟩
  · rw [fresh.nonces,fresh.grants]
    exact .empty _
  · rw [fresh.grants]
    exact fun _ member => nomatch member

theorem start_sound (fresh : Fresh start) : Crew.Sound (clockContract kit config) (⟨start,.empty⟩ : Pooled) :=
  ⟨fresh_recorded fresh,(fun _ _ found => nomatch found),fun _ _ => trivial⟩

theorem recorded_at (fresh : Fresh start) (acts : List Act) (i : Nat) :
    Recorded (at_ kit config start acts i).shared :=
  (Crew.sound_before (fun _ _ _ _ => trivial) (start_sound fresh) i).inv

theorem passes_append (s : World) (nonces : Store String Nat) (grant : Grant) (credential : Credential) :
    passes {s with nonces := nonces, grants := s.grants ++ [grant]} credential =
      passes s credential + if grant.passed = true ∧ grant.credential = credential then 1 else 0 := by
  simp only [passes,List.filter_append,List.length_append,List.filter_cons,List.filter_nil,Bool.and_eq_true,
    decide_eq_true_eq]
  split <;> rfl

theorem passes_some {s : World} {credential : Credential} (some_ : passes s credential ≠ 0) :
    ∃ grant ∈ s.grants, grant.passed = true ∧ grant.credential = credential := by
  obtain ⟨grant,member⟩ := List.exists_mem_of_length_pos (Nat.pos_of_ne_zero some_)
  obtain ⟨there,holds⟩ := List.mem_filter.mp member
  simp only [Bool.and_eq_true,decide_eq_true_eq] at holds
  exact ⟨grant,there,holds⟩

theorem held_timely {s : World} (recorded : Recorded s) (credential : Credential) :
    held s.nonces s.clock credential.nonceKey = true ↔
      ∃ recent ∈ s.grants, recent.credential.nonceKey = credential.nonceKey ∧ s.clock < recent.at_ + nonceTtl := by
  rw [recorded.granted.held_recent]
  constructor
  · intro found
    obtain ⟨moment,member,ahead⟩ := found
    obtain ⟨recent,there,equal⟩ := List.mem_map.mp member
    obtain ⟨same,time⟩ := Prod.mk.inj equal
    exact ⟨recent,there,same,time ▸ ahead⟩
  · intro found
    obtain ⟨recent,there,same,ahead⟩ := found
    exact ⟨recent.at_,List.mem_map.mpr ⟨recent,there,by rw [same]⟩,ahead⟩

-- One position of a run: a nonce check that Redis serves, or nothing that the
-- log would show.
theorem position (fresh : Fresh start) (acts : List Act) (i : Nat) :
    (∃ credential key seconds act worker choice, acts[i]? = some act ∧
      Crew.served (at_ kit config start acts i) act = some (worker,.setNonce key seconds credential,choice) ∧
      key = credential.nonceKey ∧ choice.fault ≠ some .before ∧
      held (at_ kit config start acts i).shared.nonces (at_ kit config start acts i).shared.clock
        credential.nonceKey = false ∧
      ∀ other, passes (at_ kit config start acts (i+1)).shared other = passes (at_ kit config start acts i).shared other +
        if choice.fault = none ∧ credential = other then 1 else 0) ∨
    (at_ kit config start acts (i+1)).shared.grants = (at_ kit config start acts i).shared.grants := by
  have here := @Crew.sound_before _ _ _ _ _ _ _ _ _ _ (clockContract kit config) _ acts (fun _ _ _ _ => trivial)
    (start_sound fresh) i
  cases found : acts[i]? with
  | none => exact .inr (by rw [at_,Runs.before_past found]; rfl)
  | some act =>
    rcases Crew.effect_at (fun _ _ _ _ => trivial) (@start_sound kit config _ fresh) found with
      effect | equal
    · cases effect with
      | served worker op choice call allowed equal =>
        change (at_ kit config start acts (i+1)).shared = (serve (at_ kit config start acts i).shared op choice).1 at equal
        rcases serve_recorded (s:=(at_ kit config start acts i).shared) op choice with
          ⟨credential,key,seconds,rfl,reached,free,done⟩ | ⟨_,grants,_⟩
        · obtain ⟨rfl,_⟩ : key = credential.nonceKey ∧ _ := allowed
          refine .inl ⟨credential,_,seconds,_,worker,choice,rfl,call,rfl,reached,free,fun other => ?_⟩
          rw [equal,done,passes_append]
          simp
        · exact .inr (equal ▸ grants)
      | abandoned worker equal => exact .inr (congrArg World.grants equal)
      | happened event equal =>
        refine .inr ?_
        rw [at_,equal]
        exact (happen_recorded event).2.1
      | unmoved worker request equal => exact .inr (congrArg World.grants equal)
    · exact .inr (congrArg (fun w => w.shared.grants) equal)

theorem passes_zero (fresh : Fresh start) (acts : List Act) (credential : Credential) :
    passes (at_ kit config start acts 0).shared credential = 0 := by
  change passes start credential = 0
  simp [passes,fresh.grants]

-- A nonce check that comes in time lets no second request pass.
theorem passes_once (fresh : Fresh start) {acts : List Act}
    (timely : ∀ i credential, Checks kit config start acts i credential →
      Timely (at_ kit config start acts i).shared credential)
    (i : Nat) (credential : Credential) : passes (at_ kit config start acts i).shared credential ≤ 1 := by
  induction i with
  | zero =>
    rw [passes_zero fresh]
    exact Nat.zero_le 1
  | succ i ih =>
    rcases @position kit config _ fresh acts i with
      ⟨checked,key,seconds,act,worker,choice,found,call,_,_,free,counts⟩ | grants
    · rw [counts]
      split
      · rename_i passed
        obtain ⟨answered,rfl⟩ := passed
        have none_ : passes (at_ kit config start acts i).shared checked = 0 := by
          by_contra some_
          obtain ⟨grant,member,heard,same⟩ := passes_some some_
          have recent := timely i checked ⟨act,worker,key,seconds,choice,found,call,answered⟩ grant member heard same
          rw [← held_timely (recorded_at fresh acts i),free] at recent
          cases recent
        rw [none_]
      · exact ih
    · rw [passes,grants]
      exact ih

theorem passes_twice (fresh : Fresh start) {acts : List Act} {i : Nat} {credential : Credential}
    (checks : Checks kit config start acts i credential)
    (late : ¬ Timely (at_ kit config start acts i).shared credential) :
    2 ≤ passes (at_ kit config start acts (i+1)).shared credential := by
  obtain ⟨act,worker,key,seconds,choice,found,call,answered⟩ := checks
  simp only [Timely,not_forall] at late
  obtain ⟨grant,member,heard,same,old⟩ := late
  rw [← held_timely (recorded_at fresh acts i),Bool.not_eq_true] at old
  have one : 0 < passes (at_ kit config start acts i).shared credential := by
    refine List.length_pos_of_mem (a:=grant) (List.mem_filter.mpr ⟨member,?_⟩)
    simp [heard,same]
  obtain ⟨rfl,_⟩ := @Crew.allowed_at _ _ _ _ _ _ _ _ _ _ (clockContract kit config) _ _ (fun _ _ _ _ => trivial) (start_sound fresh) _ _ _ _ _ call
  obtain ⟨next,ran,equal⟩ := @Crew.exec_served _ _ _ _ _ _ _ _ (server kit config) _ _ _ _ _ call
  have after : (at_ kit config start acts (i+1)).shared =
      (serve (at_ kit config start acts i).shared (.setNonce credential.nonceKey seconds credential) choice).1 := by
    rw [at_,Runs.before_succ found]
    exact (congrArg Pool.shared (Runs.settle_ok ran)).trans equal
  rw [after]
  simp only [serve,setNonce_free old,answered,Option.isNone_none,fallible]
  rw [passes_append]
  simp only [and_self,if_true]
  omega

-- Requests that come to the nonce check less than 300 s after their time stamp
-- come in time.
theorem timely_of_punctual {s : World} (recorded : Recorded s) {credential : Credential}
    (punctual : ∀ timestamp, credential.timestamp = some timestamp → s.clock < (timestamp + 300) * 1000) :
    Timely s credential := by
  intro grant member _ same
  obtain ⟨timestamp,stamped,ahead⟩ := recorded.inTime grant member
  rw [same] at stamped
  have soon := punctual timestamp stamped
  refine ⟨grant,member,by rw [same],?_⟩
  simp only [nonceTtl]
  omega

-- At most one of the requests with one signed message passes, in every run in
-- which the nonce is checked in time and in no other; and it is checked in time
-- wherever the requests reach the check less than 300 s after their time stamp.
theorem no_replay_iff (kit : Kit) (config : Config) (clock : Nat) (cache : Store String CachedKey)
    (objects : Store AccountId ObjectContent) (registry : List AccountId) (acts : List Act) :
    let start : World := ⟨clock,.empty,cache,objects,registry,[]⟩
    ((∀ i credential, passes (at_ kit config start acts i).shared credential ≤ 1) ↔
      ∀ i credential, Checks kit config start acts i credential →
        Timely (at_ kit config start acts i).shared credential) ∧
    ((∀ i credential, Checks kit config start acts i credential → ∀ timestamp, credential.timestamp = some timestamp →
        (at_ kit config start acts i).shared.clock < (timestamp + 300) * 1000) →
      ∀ i credential, passes (at_ kit config start acts i).shared credential ≤ 1) := by
  intro start
  have fresh : Fresh start := ⟨rfl,rfl⟩
  refine ⟨⟨?_,?_⟩,?_⟩
  · intro once i credential checks
    by_contra late
    have two := passes_twice fresh checks late
    have one := once (i+1) credential
    omega
  · intro timely i credential
    exact passes_once fresh timely i credential
  · intro punctual i credential
    refine passes_once fresh (fun j other checks => ?_) i credential
    exact timely_of_punctual (recorded_at fresh acts j) (punctual j other checks)

def replayedSponsor : SponsorRequest := ⟨"0x5",[],some "sig",some 1000,some sampleNonce⟩

-- The first request comes 300 s before its time stamp, the second one with the
-- same headers 600 s later.
def replay : List Act := [
  .spawn 0 (.signed replayed),.step 0 {},.step 0 {},.step 0 {},
  .spawn 1 (.sponsor replayedSponsor),.step 1 {},.step 1 {},
  .outside (.wait 600000),
  .spawn 2 (.signed replayed),.step 2 {},.step 2 {},.step 2 {},
  .spawn 3 (.sponsor replayedSponsor),.step 3 {},.step 3 {}]

theorem replay_passes_twice :
    ∃ signed sponsor signature,
      passes (at_ sampleKit sampleConfig {clock := 700000} replay 15).shared (.signed signed signature) = 2 ∧
      passes (at_ sampleKit sampleConfig {clock := 700000} replay 15).shared (.sponsor sponsor "sig") = 2 := by
  refine ⟨⟨"1000","POST","/api/remember",[],sampleNonce,"0xa"⟩,⟨"0x5",[],1000,sampleNonce⟩,
    List.replicate 64 0,?_⟩
  decide +kernel

end Histories
end MemWal.Auth
