import MemWal.Sponsor.Binding

namespace MemWal.Sponsor
open Library
open Auth (SponsorMessage)

abbrev MadeFor (kit : Kit) (config : Config) (start : World) (acts : List Act) (worker i : Nat) (request : Request)
    (p : Nat) (op : Op) (c : Choice) : Prop :=
  Crew.MadeAt (server kit config) ⟨start,.empty⟩ acts worker i request p op c

def RecordsAt (kit : Kit) (config : Config) (start : World) (acts : List Act) (q : Nat) (key sender : String)
    (seconds : Nat) : Prop :=
  ∃ worker op c, callAt kit config start acts q = some (worker,op,c) ∧
    Records (at_ kit config start acts q).shared op c key sender seconds

def ConsumesAt (kit : Kit) (config : Config) (start : World) (acts : List Act) (q : Nat) (key : String) : Prop :=
  ∃ worker op c, callAt kit config start acts q = some (worker,op,c) ∧
    Consumes (at_ kit config start acts q).shared op c key

def clockAt (kit : Kit) (config : Config) (start : World) (acts : List Act) (p : Nat) : Nat :=
  (at_ kit config start acts p).shared.auth.clock

section Bindings
variable {kit : Kit} {config : Config} {start : World} {acts : List Act}

-- A binding that is there was recorded once, and not consumed since.
theorem bound_since (empty : start.pending = .empty) (p : Nat) {key : String} {binding : Binding}
    (found : (at_ kit config start acts p).shared.pending.get? key = some binding) :
    ∃ q seconds, q < p ∧ RecordsAt kit config start acts q key binding.sender seconds ∧
      binding.expiresAt = clockAt kit config start acts q + seconds * 1000 ∧
      ∀ r, q < r → r < p → ¬ ConsumesAt kit config start acts r key := by
  induction p with
  | zero =>
    change start.pending.get? key = some binding at found
    rw [empty] at found
    cases found
  | succ p ih =>
    -- what was there before and is left alone
    have older : (at_ kit config start acts p).shared.pending.get? key = some binding →
        ¬ ConsumesAt kit config start acts p key → ∃ q seconds, q < p + 1 ∧
          RecordsAt kit config start acts q key binding.sender seconds ∧
          binding.expiresAt = clockAt kit config start acts q + seconds * 1000 ∧
          ∀ r, q < r → r < p + 1 → ¬ ConsumesAt kit config start acts r key := by
      intro there unconsumed
      obtain ⟨q,seconds,small,records,expires,kept⟩ := ih there
      refine ⟨q,seconds,by omega,records,expires,?_⟩
      intro r low high
      rcases Nat.lt_or_eq_of_le (Nat.le_of_lt_succ high) with less | rfl
      · exact kept r low less
      · exact unconsumed
    rcases @Crew.shared_step _ _ _ _ _ _ _ _ (server kit config) ⟨start,.empty⟩ acts p with
      ⟨worker,op,c,call,equal⟩ | ⟨idle,quiet⟩
    · change (at_ kit config start acts (p+1)).shared = (serve (at_ kit config start acts p).shared op c).1 at equal
      rw [equal] at found
      rcases serve_pending (s:=(at_ kit config start acts p).shared) op c with
        ⟨key',sender,seconds,records,pending⟩ | ⟨key',consumes,pending⟩ | ⟨pending,quiet⟩
      · rw [pending,Store.get?_upsert] at found
        split at found
        · rename_i same
          cases found
          subst same
          exact ⟨p,seconds,by omega,⟨worker,op,c,call,records⟩,rfl,fun r low high => absurd low (by omega)⟩
        · refine older found ?_
          intro given
          obtain ⟨_,_,_,again,_,_,consuming,_⟩ := given
          cases again.symm.trans call
          cases consuming.symm.trans records.1
      · rw [pending,Store.get?_erase] at found
        split at found
        · cases found
        · rename_i different
          refine older found ?_
          intro given
          obtain ⟨_,_,_,again,_,_,consuming,_⟩ := given
          cases again.symm.trans call
          obtain ⟨_,_,consuming',_⟩ := consumes
          cases consuming.symm.trans consuming'
          exact different rfl
      · rw [pending] at found
        refine older found ?_
        intro given
        obtain ⟨_,_,_,again,consumes⟩ := given
        cases again.symm.trans call
        exact quiet key consumes
    · have unconsumed : ¬ ConsumesAt kit config start acts p key := by
        intro given
        obtain ⟨_,_,_,call,_⟩ := given
        cases call.symm.trans idle
      rcases quiet with ⟨worker,equal⟩ | ⟨event,equal⟩ | equal
      · rw [show (at_ kit config start acts (p+1)).shared = (at_ kit config start acts p).shared from equal] at found
        exact older found unconsumed
      · rw [show (at_ kit config start acts (p+1)).shared = happen (at_ kit config start acts p).shared event from equal]
          at found
        refine older ?_ unconsumed
        cases event with
        | auth event => exact found
        | evicted key' =>
          simp only [happen,Store.get?_erase] at found
          split at found
          · cases found
          · exact found
      · rw [show (at_ kit config start acts (p+1)).shared = (at_ kit config start acts p).shared from equal] at found
        exact older found unconsumed

end Bindings

-- A sponsor call up to the recording of its binding: the wallet of the sender
-- signed for the bytes that go to the sidecar, these are one permitted call, and
-- the sidecar answers them with the digest.
structure Endorsed (kit : Kit) (config : Config) (start : World) (acts : List Act) (worker i : Nat)
    (req : SponsorRequest) (digest : String) (answered recorded : Nat) : Prop where
  signed : ∃ (message : SponsorMessage) (signature : String) (verified : Nat) (c : Choice), verified < recorded ∧
    MadeFor kit config start acts worker i (.sponsor (some req)) verified
      (.auth (.verifyPersonal req.sender (message.text kit.auth) signature)) c ∧ c.auth.verified = .ok () ∧
    message.sender = req.sender ∧ kit.auth.base64 req.transactionBlockKindBytes = some message.transactionKindBytes ∧
    Permitted kit config message.transactionKindBytes
  answers : answered < recorded ∧ ∃ c upstream body, MadeFor kit config start acts worker i (.sponsor (some req)) answered
      (.sidecarSponsor req.sender req.transactionBlockKindBytes) c ∧ c.upstream = .ok upstream ∧
    isSuccess upstream.status = true ∧ upstream.body = some body ∧ kit.digest body = some (some digest)
  records : ∃ c, MadeFor kit config start acts worker i (.sponsor (some req)) recorded
      (.setPending (pendingKey digest) req.sender pendingSponsorTtlSeconds) c ∧
    c.fault ≠ some .before ∧ (at_ kit config start acts recorded).shared.bound (pendingKey digest) = none ∧
    -- unless the reply of Redis is lost, the call succeeds
    (c.fault = none → ∃ response, isSuccess response.status = true ∧
      (at_ kit config start acts (recorded+1)).workers.get? worker = some (.done response))

-- An execute call up to its forwarding: it has consumed the binding of its sender.
structure Redeemed (kit : Kit) (config : Config) (start : World) (acts : List Act) (worker i : Nat)
    (req : SponsorExecuteRequest) (sender : String) (consumed p : Nat) : Prop where
  named : req.sender = some sender
  consumes : ∃ c, MadeFor kit config start acts worker i (.execute (some req)) consumed
      (.consumePending (pendingKey req.digest) sender) c ∧ c.fault = none ∧
    ((at_ kit config start acts consumed).shared.consumePending (pendingKey req.digest) sender).2 = 1
  forwards : ∃ c, MadeFor kit config start acts worker i (.execute (some req)) p
    (.sidecarExecute req.digest req.signature false) c
  order : consumed < p

-- The forwarding at `p` spends what the sponsor call at `i` has recorded.
def SponsoredVia (kit : Kit) (config : Config) (start : World) (acts : List Act) (p : Nat) (digest : String)
    (i worker answered : Nat) : Prop :=
  ∃ req recorded executor e execution consumed,
    Endorsed kit config start acts worker i req digest answered recorded ∧
    Redeemed kit config start acts executor e execution req.sender consumed p ∧ execution.digest = digest ∧
    recorded < consumed ∧ clockAt kit config start acts consumed < clockAt kit config start acts recorded + 600 * 1000 ∧
    ∀ r, recorded < r → r < consumed → ¬ ConsumesAt kit config start acts r (pendingKey digest)

def SponsoredBy (kit : Kit) (config : Config) (start : World) (acts : List Act) (p : Nat) (digest : String) (i : Nat) : Prop :=
  ∃ worker answered, SponsoredVia kit config start acts p digest i worker answered

def Forwards (kit : Kit) (config : Config) (start : World) (acts : List Act) (p : Nat) (digest : String) : Prop :=
  ∃ worker signature verifyEffects c,
    callAt kit config start acts p = some (worker,.sidecarExecute digest signature verifyEffects,c)

section Sponsorship
variable {kit : Kit} {config : Config} {start : World} {acts : List Act}

theorem made_for {p worker : Nat} {op : Op} {c : Choice} (call : callAt kit config start acts p = some (worker,op,c)) :
    ∃ i request, MadeFor kit config start acts worker i request p op c := by
  obtain ⟨act,found,served⟩ := Option.bind_eq_some_iff.mp call
  exact Crew.made_at (w:=⟨start,.empty⟩) rfl found served

theorem call_at {p worker i : Nat} {request : Request} {op : Op} {c : Choice}
    (made : MadeFor kit config start acts worker i request p op c) :
    callAt kit config start acts p = some (worker,op,c) := by
  obtain ⟨act,found,served⟩ := made.serves
  exact Option.bind_eq_some_iff.mpr ⟨act,found,served⟩

theorem forwards_redeemed {p : Nat} {digest : String} (forwards : Forwards kit config start acts p digest) :
    ∃ executor e execution sender consumed, execution.digest = digest ∧
      Redeemed kit config start acts executor e execution sender consumed p := by
  obtain ⟨executor,signature,verifyEffects,c,call⟩ := forwards
  obtain ⟨e,request,made⟩ := made_for call
  obtain ⟨calls,ran,located,_,_⟩ := made.calls
  cases request with
  | sponsor body => exact absurd (ran.only (sponsor_only body) _ (List.mem_append_right _ List.mem_cons_self)) id
  | execute body =>
    obtain ⟨req,sender,rfl,rfl,rfl,forwarding⟩ := execute_forwards ran
    obtain ⟨consuming,member,op,smooth,one⟩ := forwarding.consumed
    obtain ⟨consumed,order,state,made'⟩ := located consuming member
    obtain rfl := forwarding.parsed
    rw [op] at made'
    rw [state] at one
    exact ⟨executor,e,req,sender,consumed,rfl,forwarding.named,⟨_,made',smooth,one⟩,⟨_,made⟩,order⟩

theorem records_endorsed {q : Nat} {digest sender : String} {seconds : Nat}
    (records : RecordsAt kit config start acts q (pendingKey digest) sender seconds) :
    ∃ worker i req answered, req.sender = sender ∧ seconds = pendingSponsorTtlSeconds ∧
      Endorsed kit config start acts worker i req digest answered q := by
  obtain ⟨worker,op,c,call,rfl,reached,free⟩ := records
  obtain ⟨i,request,made⟩ := made_for call
  obtain ⟨calls,ran,located,_,ended⟩ := made.calls
  cases request with
  | execute body => exact absurd (ran.only (execute_only body) _ (List.mem_append_right _ List.mem_cons_self)) id
  | sponsor body =>
    obtain ⟨req,digest',response,same,rfl,rfl,recording⟩ := sponsor_records ran
    obtain rfl := pendingKey_inj same
    obtain rfl := recording.parsed
    obtain ⟨message,signature,verifying,member,sender,decoded,allowed,verifies,accepted⟩ := recording.signed
    obtain ⟨answering,member',upstream,body,asks,answer,success,there,json,rfl⟩ := recording.answered
    obtain ⟨verified,before,_,made1⟩ := located verifying member
    obtain ⟨answered,before',_,made2⟩ := located answering member'
    rw [verifies] at made1
    rw [asks] at made2
    refine ⟨worker,i,req,answered,rfl,rfl,?_,?_,?_⟩
    · exact ⟨message,signature,verified,_,before,made1,accepted,sender,decoded,allowed⟩
    · exact ⟨before',_,upstream,body,made2,answer,success,there,json⟩
    · refine ⟨c,made,reached,free,?_⟩
      intro smooth
      refine ⟨⟨upstream.status,.upstream body⟩,success,?_⟩
      have completes := recording.ends (setPending_free free smooth)
      exact ended.trans (congrArg some completes.rest)

-- Every forwarding spends the recording of a sponsor call.
theorem forwards_sponsored (empty : start.pending = .empty) {p : Nat} {digest : String}
    (forwards : Forwards kit config start acts p digest) : ∃ i, SponsoredBy kit config start acts p digest i := by
  obtain ⟨executor,e,execution,sender,consumed,rfl,redeemed⟩ := forwards_redeemed forwards
  obtain ⟨c,made,smooth,one⟩ := redeemed.consumes
  obtain ⟨binding,bound,rfl⟩ := consumePending_one one
  obtain ⟨there,live⟩ := bound_iff.mp bound
  obtain ⟨recorded,seconds,order,records,expires,kept⟩ := bound_since empty consumed there
  obtain ⟨worker,i,req,answered,sent,rfl,endorsed⟩ := records_endorsed records
  rw [← sent] at redeemed
  rw [expires] at live
  exact ⟨i,worker,answered,req,recorded,executor,e,execution,consumed,endorsed,redeemed,rfl,order,live,kept⟩

-- A sponsor call records one binding.
theorem recorded_once {worker i q q' : Nat} {req : SponsorRequest} {key sender key' sender' : String}
    {seconds seconds' : Nat} {c c' : Choice}
    (made : MadeFor kit config start acts worker i (.sponsor (some req)) q (.setPending key sender seconds) c)
    (made' : MadeFor kit config start acts worker i (.sponsor (some req)) q' (.setPending key' sender' seconds') c') :
    ¬ q < q' := by
  intro less
  obtain ⟨calls,ran,_,members,_⟩ := made'.calls
  obtain ⟨_,_,_,_,_,_,recording⟩ := sponsor_records ran
  exact recording.first _ (members q _ c less made)

-- An execute call is forwarded once.
theorem forwarded_at_most_once {worker e p p' : Nat} {req : SponsorExecuteRequest} {digest signature digest' signature' : String}
    {verify verify' : Bool} {c c' : Choice}
    (made : MadeFor kit config start acts worker e (.execute (some req)) p (.sidecarExecute digest signature verify) c)
    (made' : MadeFor kit config start acts worker e (.execute (some req)) p' (.sidecarExecute digest' signature' verify') c') :
    ¬ p < p' := by
  intro less
  obtain ⟨calls,ran,_,members,_⟩ := made'.calls
  obtain ⟨_,_,_,_,_,forwarding⟩ := execute_forwards ran
  exact forwarding.first _ (members p _ c less made)

theorem redeemed_consumes {worker e consumed p : Nat} {req : SponsorExecuteRequest} {sender : String}
    (redeemed : Redeemed kit config start acts worker e req sender consumed p) :
    ConsumesAt kit config start acts consumed (pendingKey req.digest) := by
  obtain ⟨c,made,smooth,one⟩ := redeemed.consumes
  obtain ⟨binding,bound,sent⟩ := consumePending_one one
  exact ⟨worker,_,c,call_at made,sender,binding,rfl,by rw [smooth]; nofun,bound,sent⟩

-- One recording is spent by one forwarding.
theorem spent_once {p p' i : Nat} {digest digest' : String} (one : SponsoredBy kit config start acts p digest i)
    (two : SponsoredBy kit config start acts p' digest' i) : p = p' := by
  obtain ⟨worker,_,req,recorded,executor,e,execution,consumed,endorsed,redeemed,rfl,order,_,kept⟩ := one
  obtain ⟨worker',_,req',recorded',executor',e',execution',consumed',endorsed',redeemed',rfl,order',_,kept'⟩ := two
  obtain ⟨c,made,_⟩ := endorsed.records
  obtain ⟨c',made',_⟩ := endorsed'.records
  cases made.spawned.symm.trans made'.spawned
  have same : recorded = recorded' := by
    have first := recorded_once made made'
    have second := recorded_once made' made
    omega
  subst same
  have equal := (call_at made).symm.trans (call_at made')
  simp only [Option.some.injEq,Prod.mk.injEq,Op.setPending.injEq] at equal
  have digest_ := pendingKey_inj equal.2.1.1
  have once : consumed = consumed' := by
    by_contra different
    rcases Nat.lt_or_gt_of_ne different with less | less
    · exact kept' consumed order less (digest_ ▸ redeemed_consumes redeemed)
    · exact kept consumed' order' less (digest_ ▸ redeemed_consumes redeemed')
  subst once
  obtain ⟨_,spends,_⟩ := redeemed.consumes
  obtain ⟨_,spends',_⟩ := redeemed'.consumes
  have same := (call_at spends).symm.trans (call_at spends')
  simp only [Option.some.injEq,Prod.mk.injEq] at same
  obtain ⟨rfl,_⟩ := same
  obtain rfl := spends.unique spends'
  cases spends.same_request spends'
  obtain ⟨_,forwarded⟩ := redeemed.forwards
  obtain ⟨_,forwarded'⟩ := redeemed'.forwards
  have first := forwarded_at_most_once forwarded forwarded'
  have second := forwarded_at_most_once forwarded' forwarded
  omega

-- Every execute call that is forwarded spends the binding of its own sender for
-- its digest, recorded by a sponsor call of that sender less than 600 s before it
-- was consumed, and no two of them spend the same one.
theorem forwarded_once (kit : Kit) (config : Config) (auth : Auth.World) (acts : List Act) :
    let start : World := ⟨auth,.empty⟩
    ∃ sponsorOf : Nat → Nat,
      (∀ p p' digest digest', Forwards kit config start acts p digest → Forwards kit config start acts p' digest' →
        sponsorOf p = sponsorOf p' → p = p') ∧
      ∀ p digest, Forwards kit config start acts p digest →
        SponsoredBy kit config start acts p digest (sponsorOf p) := by
  intro start
  have each : ∀ p, ∃ i, ∀ digest, Forwards kit config start acts p digest →
      SponsoredBy kit config start acts p digest i := by
    intro p
    by_cases some_ : ∃ digest, Forwards kit config start acts p digest
    · obtain ⟨digest,forwards⟩ := some_
      obtain ⟨i,sponsored⟩ := @forwards_sponsored _ _ start _ rfl _ _ forwards
      refine ⟨i,?_⟩
      intro other forwards'
      obtain ⟨_,_,_,_,call⟩ := forwards
      obtain ⟨_,_,_,_,call'⟩ := forwards'
      cases call.symm.trans call'
      exact sponsored
    · exact ⟨0,fun digest forwards => absurd ⟨digest,forwards⟩ some_⟩
  choose sponsorOf sponsored using each
  refine ⟨sponsorOf,?_,fun p digest forwards => sponsored p digest forwards⟩
  intro p p' digest digest' forwards forwards' same
  apply spent_once (sponsored p digest forwards)
  rw [same]
  exact sponsored p' digest' forwards'

end Sponsorship

-- The same with the time counted from the answer of the sidecar to the
-- forwarding, and with sponsor calls that were answered with success.
def Punctual (kit : Kit) (config : Config) (start : World) (acts : List Act) (p : Nat) (digest : String) (i : Nat) : Prop :=
  ∃ worker answered, SponsoredVia kit config start acts p digest i worker answered ∧
    clockAt kit config start acts p ≤ clockAt kit config start acts answered + 600 * 1000 ∧
    ∃ t response, i < t ∧ t ≤ p ∧ (at_ kit config start acts t).workers.get? worker = some (.done response) ∧
      isSuccess response.status = true

def Claimed (kit : Kit) (config : Config) (start : World) (acts : List Act) : Prop :=
  ∃ sponsorOf : Nat → Nat,
    (∀ p p' digest digest', Forwards kit config start acts p digest → Forwards kit config start acts p' digest' →
      sponsorOf p = sponsorOf p' → p = p') ∧
    ∀ p digest, Forwards kit config start acts p digest → Punctual kit config start acts p digest (sponsorOf p)

def sampleDigest : String := String.ofList (List.replicate 32 '1')

def sampleSender : String := String.ofList ('0' :: 'x' :: List.replicate 64 '5')

def sampleKit : Kit where
  auth := Auth.sampleKit
  transactionKind _ := some (.programmableTransaction [.moveCall ⟨[1],"account","create_account",[]⟩])
  address _ := some [1]
  digest _ := some (some sampleDigest)

def sampleSponsor : Request := .sponsor (some ⟨sampleSender,"kind",some "sig",some 1000,some Auth.sampleNonce⟩)

def sampleExecute : Request := .execute (some ⟨sampleDigest,"signature",some sampleSender⟩)

def sampleAnswer : Choice := {upstream := .ok ⟨200,some []⟩}

def sampleStart : World := ⟨{clock := 1000000},.empty⟩

-- The binding is recorded one second after the sidecar has answered, and spent
-- shortly before it expires.
def slow : List Act := [
  .spawn 0 sampleSponsor,.step 0 {},.step 0 {},.step 0 {},.step 0 sampleAnswer,.outside (.auth (.wait 1000)),.step 0 {},
  .outside (.auth (.wait 599500)),.spawn 1 sampleExecute,.step 1 {},.step 1 {}]

-- The binding is recorded, but the reply of Redis is lost and the call fails.
def lost : List Act := [
  .spawn 0 sampleSponsor,.step 0 {},.step 0 {},.step 0 {},.step 0 sampleAnswer,.step 0 {fault := some .after},
  .spawn 1 sampleExecute,.step 1 {},.step 1 {}]

-- What holds of these two runs, position by position.
def lateAt (acts : List Act) (p q : Nat) : Bool :=
  match callAt sampleKit ⟨"0xp"⟩ sampleStart acts q with
  | some (_,.sidecarSponsor _ _,_) =>
    decide (clockAt sampleKit ⟨"0xp"⟩ sampleStart acts q + 600 * 1000 < clockAt sampleKit ⟨"0xp"⟩ sampleStart acts p)
  | _ => true

def succeededAt (acts : List Act) (worker t : Nat) : Bool :=
  match (at_ sampleKit ⟨"0xp"⟩ sampleStart acts t).workers.get? worker with
  | some (.done response) => isSuccess response.status
  | _ => false

def forwardedAt (acts : List Act) (p : Nat) : Bool :=
  match callAt sampleKit ⟨"0xp"⟩ sampleStart acts p with
  | some (_,.sidecarExecute digest _ _,_) => decide (digest = sampleDigest)
  | _ => false

theorem forwarded_of {acts : List Act} {p : Nat} (seen : forwardedAt acts p = true) :
    Forwards sampleKit ⟨"0xp"⟩ sampleStart acts p sampleDigest := by
  simp only [forwardedAt] at seen
  split at seen
  · rename_i worker digest signature verify c call
    obtain rfl := of_decide_eq_true seen
    exact ⟨worker,signature,verify,c,call⟩
  · cases seen

-- Neither the time nor the success holds in general.
theorem forwarded_late :
    ¬ Claimed sampleKit ⟨"0xp"⟩ sampleStart slow ∧ ¬ Claimed sampleKit ⟨"0xp"⟩ sampleStart lost := by
  constructor
  · intro given
    obtain ⟨sponsorOf,_,punctual⟩ := given
    have run : forwardedAt slow 10 = true ∧ ∀ q, q < 11 → lateAt slow 10 q = true := by decide +kernel
    obtain ⟨worker,answered,via,soon,_⟩ := punctual 10 sampleDigest (forwarded_of run.1)
    obtain ⟨_,_,_,_,_,_,endorsed,_⟩ := via
    obtain ⟨_,_,_,_,made,_⟩ := endorsed.answers
    have small : answered < 11 := by
      obtain ⟨_,found,_⟩ := made.serves
      exact (List.getElem?_eq_some_iff.mp found).1
    have late := run.2 answered small
    simp only [lateAt,call_at made,decide_eq_true_eq] at late
    omega
  · intro given
    obtain ⟨sponsorOf,_,punctual⟩ := given
    have run : forwardedAt lost 8 = true ∧ ∀ t, t ≤ 8 → ∀ worker, worker < 2 → succeededAt lost worker t = false := by
      decide +kernel
    obtain ⟨worker,answered,via,_,t,response,_,small,done,success⟩ := punctual 8 sampleDigest (forwarded_of run.1)
    obtain ⟨_,_,_,_,_,_,endorsed,_⟩ := via
    obtain ⟨_,_,_,_,made,_⟩ := endorsed.answers
    have one : worker < 2 := by
      have member := List.mem_of_getElem? made.spawned
      simp only [lost,sampleSponsor,sampleExecute,List.mem_cons,List.not_mem_nil,or_false,Move.spawn.injEq,reduceCtorEq,
        and_false] at member
      omega
    have failed := run.2 t small worker one
    simp only [succeededAt,done] at failed
    rw [success] at failed
    cases failed

end MemWal.Sponsor
