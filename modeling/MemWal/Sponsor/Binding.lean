import MemWal.Sponsor.Routes

namespace MemWal.Sponsor
open Library
open Auth (Rejection Fault SponsorMessage)

-- A kind that the routes let through: one call of the account module.
def Permitted (kit : Kit) (config : Config) (bytes : Bytes) : Prop :=
  ∃ package call, kit.address config.packageId = some package ∧
    kit.transactionKind bytes = some (.programmableTransaction [.moveCall call]) ∧ call.package = package ∧
    call.module = "account" ∧ call.function ∈ ["create_account","add_delegate_key","remove_delegate_key"] ∧
    call.typeArguments = []

-- The pending bindings are written by one route and read by the other.

def Silent : Op → Prop
  | .setPending _ _ _ | .consumePending _ _ | .sidecarExecute _ _ _ => False
  | _ => True

def Sponsoring : Op → Prop
  | .consumePending _ _ | .sidecarExecute _ _ _ => False
  | _ => True

def Executing : Op → Prop
  | .setPending _ _ _ => False
  | _ => True

def Unsent : Op → Prop
  | .sidecarExecute _ _ _ => False
  | _ => True

section Kinds
variable {kit : Kit} {config : Config} {kind : Op → Prop}

theorem get_only {α : Type} (value : Option α) (error : Rejection) : (get value error).Only kind := .orFail _

theorem check_only (condition : Prop) [Decidable condition] (error : Rejection) : (check condition error).Only kind :=
  .orFail _

theorem parse_only (body : Option SponsorRequest) : (parseSponsorRequest kit body).Only kind := by
  apply Program.Only.bind (get_only _ _)
  intro req
  apply Program.Only.bind (check_only _ _)
  intro _
  apply Program.Only.bind (get_only _ _)
  intro txBytes
  apply Program.Only.bind (check_only _ _)
  exact fun _ => trivial

theorem validate_only (bytes : Bytes) (packageId : String) :
    (validateSponsorTransactionKind kit bytes packageId).Only kind := by
  apply Program.Only.bind (get_only _ _)
  intro decoded
  cases decoded with
  | other => trivial
  | programmableTransaction commands => exact .bind (get_only _ _) (fun _ => check_only _ _)

theorem authenticate_only (authed : ∀ op, kind (.auth op)) (req : SponsorRequest) (bytes : Bytes) :
    (authenticateSponsorRequest kit req bytes).Only kind := by
  apply (Program.embed_only _).mono
  intro _ found
  obtain ⟨inner,rfl⟩ := found
  exact authed inner

theorem sponsor_only (body : Option SponsorRequest) : (sponsorProxy kit config body).Only Sponsoring := by
  apply Program.Only.bind (parse_only body)
  intro parsed
  apply Program.Only.bind (validate_only _ _)
  intro _
  apply Program.Only.bind (authenticate_only (fun _ => trivial) _ _)
  intro _
  apply Program.Only.bind (.perform trivial)
  intro answer
  cases answer with
  | error _ => trivial
  | ok upstream =>
    apply Program.Only.bind (get_only _ _)
    intro body
    split
    · apply Program.Only.bind (get_only _ _)
      intro sponsored
      apply Program.Only.bind (get_only _ _)
      intro digest
      apply Program.Only.bind
      · apply Program.Only.bind (.perform trivial)
        intro recorded
        cases recorded with
        | error _ => trivial
        | ok recorded => exact check_only _ _
      · exact fun _ => trivial
    · trivial

theorem execute_only (body : Option SponsorExecuteRequest) : (sponsorExecuteProxy kit body).Only Executing := by
  apply Program.Only.bind (get_only _ _)
  intro req
  apply Program.Only.bind (check_only _ _)
  intro _
  apply Program.Only.bind (get_only _ _)
  intro sender
  apply Program.Only.bind (get_only _ _)
  intro sigBytes
  apply Program.Only.bind (check_only _ _)
  intro _
  apply Program.Only.bind
  · apply Program.Only.bind (.perform trivial)
    intro consumed
    cases consumed with
    | error _ => trivial
    | ok consumed => exact check_only _ _
  · intro _
    apply Program.Only.bind
    · apply Program.Only.bind (.perform trivial)
      intro answer
      cases answer with
      | error _ => trivial
      | ok upstream => exact .bind (get_only _ _) (fun _ => trivial)
    · intro answered
      split
      split <;> trivial

end Kinds

theorem get_ok {α : Type} {value : Option α} {error : Rejection} {found : α} {calls : List (Made World Op Choice)}
    (completes : Completes serve (get value error) calls (.ok found)) : calls = [] ∧ value = some found := by
  obtain ⟨none_,equal⟩ := Completes.orFail_ok completes
  exact ⟨none_,Fallible.require_ok.mp equal⟩

theorem check_ok {condition : Prop} [Decidable condition] {error : Rejection} {calls : List (Made World Op Choice)}
    (completes : Completes serve (check condition error) calls (.ok ())) : calls = [] ∧ condition := by
  obtain ⟨none_,equal⟩ := Completes.orFail_ok completes
  exact ⟨none_,Fallible.ensure_ok.mp equal⟩

-- What the parts of a sponsor request establish.
section Parts
variable {kit : Kit} {config : Config} {calls : List (Made World Op Choice)}

theorem parse_ok {body : Option SponsorRequest} {req : SponsorRequest} {bytes : Bytes}
    (completes : Completes serve (parseSponsorRequest kit body) calls (.ok (req,bytes))) :
    body = some req ∧ kit.auth.base64 req.transactionBlockKindBytes = some bytes := by
  obtain ⟨_,_,found,rfl,first,rest⟩ := Completes.bind_ok completes
  obtain ⟨_,_,_,rfl,_,rest⟩ := Completes.bind_ok rest
  obtain ⟨_,_,decoded,rfl,second,rest⟩ := Completes.bind_ok rest
  obtain ⟨_,_,_,rfl,_,rest⟩ := Completes.bind_ok rest
  obtain ⟨_,equal⟩ := Completes.pure_ok rest
  cases equal
  exact ⟨(get_ok first).2,(get_ok second).2⟩

theorem permitted_iff {package : Bytes} {command : Command} :
    permitted package command = true ↔ ∃ call, command = .moveCall call ∧ call.package = package ∧
      call.module = "account" ∧ call.function ∈ ["create_account","add_delegate_key","remove_delegate_key"] ∧
      call.typeArguments = [] := by
  cases command with
  | moveCall call => simp [permitted]
  | other => simp [permitted]

theorem validate_ok {bytes : Bytes}
    (completes : Completes serve (validateSponsorTransactionKind kit bytes config.packageId) calls (.ok ())) :
    Permitted kit config bytes := by
  obtain ⟨_,_,kind,rfl,first,rest⟩ := Completes.bind_ok completes
  cases kind with
  | other => exact absurd rest Completes.not_fail
  | programmableTransaction commands =>
    obtain ⟨_,_,package,rfl,second,rest⟩ := Completes.bind_ok rest
    obtain ⟨single,all⟩ := (check_ok rest).2
    obtain ⟨command,rfl⟩ := List.length_eq_one_iff.mp single
    simp only [List.all_cons,List.all_nil,Bool.and_true] at all
    obtain ⟨call,rfl,allowed⟩ := permitted_iff.mp all
    exact ⟨package,call,(get_ok second).2,(get_ok first).2,allowed⟩

-- The wallet signed for the sender over the very bytes of the kind.
theorem wallet_verified {auth : Auth.Kit} {request : Auth.SponsorRequest}
    {inner : List (Made Auth.World Auth.Op Auth.Choice)}
    (completes : Completes Auth.serve (Auth.authenticateSponsorRequest auth request) inner (.ok ())) :
    ∃ (message : SponsorMessage) (signature : String), message.sender = request.sender ∧
      message.transactionKindBytes = request.transactionKindBytes ∧
      ∃ made ∈ inner, made.op = .verifyPersonal request.sender (message.text auth) signature ∧
        made.choice.verified = .ok () := by
  obtain ⟨_,_,signature,rfl,_,rest⟩ := Completes.bind_ok completes
  obtain ⟨_,_,timestamp,rfl,_,rest⟩ := Completes.bind_ok rest
  obtain ⟨_,_,nonce,rfl,_,rest⟩ := Completes.bind_ok rest
  obtain ⟨_,_,now,rfl,_,rest⟩ := Completes.bind_ok rest
  obtain ⟨_,_,_,rfl,_,rest⟩ := Completes.bind_ok rest
  obtain ⟨_,_,reserved,rfl,_,rest⟩ := Completes.bind_ok rest
  cases reserved with
  | error _ => exact absurd rest Completes.not_fail
  | ok reserved =>
    obtain ⟨_,_,_,rfl,_,rest⟩ := Completes.bind_ok rest
    obtain ⟨_,_,verified,rfl,asked,rest⟩ := Completes.bind_ok rest
    obtain ⟨state,choice,rfl,answer⟩ := Completes.perform asked
    have accepted : choice.verified = .ok () := by
      change _ = Except.ok choice.verified at answer
      cases answer
      cases equal : choice.verified with
      | ok _ => rfl
      | error code =>
        rw [equal] at rest
        cases code <;> exact absurd rest Completes.not_fail
    exact ⟨⟨request.sender,request.transactionKindBytes,timestamp,nonce⟩,signature,rfl,rfl,
      ⟨state,_,choice⟩,by simp,rfl,accepted⟩

end Parts

-- A request up to the call that records its binding.
structure Recording (kit : Kit) (config : Config) (body : Option SponsorRequest) (calls : List (Made World Op Choice))
    (s : World) (c : Choice) (req : SponsorRequest) (digest : String) (response : Response) : Prop where
  parsed : body = some req
  signed : ∃ (message : SponsorMessage) (signature : String), ∃ made ∈ calls, message.sender = req.sender ∧
    kit.auth.base64 req.transactionBlockKindBytes = some message.transactionKindBytes ∧
    Permitted kit config message.transactionKindBytes ∧
    made.op = .auth (.verifyPersonal req.sender (message.text kit.auth) signature) ∧ made.choice.auth.verified = .ok ()
  answered : ∃ made ∈ calls, ∃ upstream body, made.op = .sidecarSponsor req.sender req.transactionBlockKindBytes ∧
    made.choice.upstream = .ok upstream ∧ isSuccess upstream.status = true ∧ upstream.body = some body ∧
    kit.digest body = some (some digest) ∧ response = ⟨upstream.status,.upstream body⟩
  first : ∀ made ∈ calls, Silent made.op
  ends : (serve s (.setPending (pendingKey digest) req.sender pendingSponsorTtlSeconds) c).2 = .ok true →
    Completes serve (sponsorProxy kit config body)
      (calls ++ [⟨s,.setPending (pendingKey digest) req.sender pendingSponsorTtlSeconds,c⟩]) (.ok response)

section Recordings
variable {kit : Kit} {config : Config} {Others : World → World → Prop} {since s : World} {c : Choice}
  {calls : List (Made World Op Choice)}

theorem none_left {α : Type} {p : Handler α} {made : Made World Op Choice}
    (ran : Execution serve Others p since (calls ++ [made])) (silent : p.Only (fun _ => False)) : False :=
  ran.only silent made (by simp)

-- What a request does once Redis has answered.
def recorded_ : Except Unit Bool → Handler Unit
  | .error _ => .fail (upstreamUnavailable "Sponsor binding Redis unavailable")
  | .ok recorded => check (recorded = true) (upstreamUnavailable "Sponsor digest binding collision")

theorem record_eq (digest sender : String) : recordPendingSponsor digest sender =
    .call (.setPending (pendingKey digest) sender pendingSponsorTtlSeconds) (fun answer => recorded_ answer) := by
  change Program.call _ _ = Program.call _ _
  congr 1
  funext answer
  cases answer <;> rfl

theorem recorded_only {kind : Op → Prop} (answer : Except Unit Bool) : (recorded_ answer).Only kind := by
  cases answer with
  | error _ => trivial
  | ok recorded => exact check_only _ _

-- The recording is the last call of the request.
theorem record_last {digest sender key sender' : String} {seconds : Nat} {response : Response}
    (ran : Execution serve Others (recordPendingSponsor digest sender >>= fun _ => return response) since
      (calls ++ [⟨s,.setPending key sender' seconds,c⟩])) :
    calls = [] ∧ key = pendingKey digest ∧ sender' = sender ∧ seconds = pendingSponsorTtlSeconds := by
  rw [record_eq] at ran
  cases calls with
  | nil =>
    obtain ⟨same,_,_⟩ := ran
    cases same
    exact ⟨rfl,rfl,rfl,rfl⟩
  | cons made rest =>
    obtain ⟨_,_,tail⟩ := ran
    exact (none_left tail (.bind (recorded_only _) (fun _ => trivial))).elim

theorem record_ends {digest sender : String} {response : Response}
    (answered : (serve s (.setPending (pendingKey digest) sender pendingSponsorTtlSeconds) c).2 = .ok true) :
    Completes serve (recordPendingSponsor digest sender >>= fun _ => return response)
      [⟨s,.setPending (pendingKey digest) sender pendingSponsorTtlSeconds,c⟩] (.ok response) := by
  rw [record_eq]
  refine ⟨rfl,?_⟩
  rw [answered]
  rfl

theorem forward_records {req : SponsorRequest} {key sender : String} {seconds : Nat}
    (ran : Execution serve Others (forwardSponsor kit req) since (calls ++ [⟨s,.setPending key sender seconds,c⟩])) :
    ∃ digest response, key = pendingKey digest ∧ sender = req.sender ∧ seconds = pendingSponsorTtlSeconds ∧
      (∃ made ∈ calls, ∃ upstream body, made.op = .sidecarSponsor req.sender req.transactionBlockKindBytes ∧
        made.choice.upstream = .ok upstream ∧ isSuccess upstream.status = true ∧ upstream.body = some body ∧
        kit.digest body = some (some digest) ∧ response = ⟨upstream.status,.upstream body⟩) ∧
      (∀ made ∈ calls, Silent made.op) ∧
      ((serve s (.setPending (pendingKey digest) req.sender pendingSponsorTtlSeconds) c).2 = .ok true →
        Completes serve (forwardSponsor kit req)
          (calls ++ [⟨s,.setPending (pendingKey digest) req.sender pendingSponsorTtlSeconds,c⟩]) (.ok response)) := by
  obtain ⟨asks,rest,answer,_,rfl,asked,ran⟩ := ran.beyond_last Silent (.perform trivial) id
  obtain ⟨state,choice,rfl,equal⟩ := Completes.perform asked
  change _ = Except.ok choice.upstream at equal
  cases equal
  cases upstream_ : choice.upstream with
  | error _ =>
    rw [upstream_] at ran
    exact (none_left ran trivial).elim
  | ok upstream =>
    rw [upstream_] at ran
    change Execution serve Others (get upstream.body _ >>= _) _ _ at ran
    obtain ⟨_,rest,body,_,rfl,read,ran1⟩ := ran.beyond_last Silent (get_only _ _) id
    obtain ⟨rfl,there⟩ := get_ok read
    split at ran1
    · rename_i success
      obtain ⟨_,rest,sponsored,_,rfl,parsed,ran2⟩ := ran1.beyond_last Silent (get_only _ _) id
      obtain ⟨_,rest,digest,_,rfl,found,ran3⟩ := ran2.beyond_last Silent (get_only _ _) id
      obtain ⟨rfl,json⟩ := get_ok parsed
      obtain ⟨rfl,named⟩ := get_ok found
      obtain ⟨rfl,rfl,rfl,rfl⟩ := record_last ran3
      have digest_ : sponsored = some digest := (Option.filter_eq_some_iff.mp named).1
      refine ⟨digest,⟨upstream.status,.upstream body⟩,rfl,rfl,rfl,?_,?_,?_⟩
      · exact ⟨⟨state,.sidecarSponsor req.sender req.transactionBlockKindBytes,choice⟩,by simp,upstream,body,rfl,upstream_,
          success,there,by rw [json,digest_],rfl⟩
      · simp [Silent]
      · intro answered
        have tail := @record_ends _ _ _ _ ⟨upstream.status,.upstream body⟩ answered
        refine @Completes.join _ _ _ _ _ _ _ _ _ _ _ _ choice.upstream _ asked ?_
        rw [upstream_]
        refine Completes.join read ?_
        rw [if_pos success]
        exact Completes.join parsed (Completes.join found tail)
    · exact (none_left ran1 trivial).elim

theorem sponsor_records {body : Option SponsorRequest} {key sender : String} {seconds : Nat}
    (ran : Execution serve Others (sponsorProxy kit config body) since (calls ++ [⟨s,.setPending key sender seconds,c⟩])) :
    ∃ req digest response, key = pendingKey digest ∧ sender = req.sender ∧ seconds = pendingSponsorTtlSeconds ∧
      Recording kit config body calls s c req digest response := by
  obtain ⟨parses,_,⟨req,bytes⟩,_,rfl,parsed,ran⟩ := ran.beyond_last Silent (parse_only body) id
  obtain ⟨validates,_,_,_,rfl,validated,ran⟩ := ran.beyond_last Silent (validate_only _ _) id
  obtain ⟨signs,rest,_,_,rfl,signed,ran⟩ :=
    ran.beyond_last Silent (authenticate_only (fun _ => trivial) _ _) id
  obtain ⟨digest,response,rfl,rfl,rfl,answered,silent,ends⟩ := forward_records ran
  obtain ⟨rfl,decoded⟩ := parse_ok parsed
  obtain ⟨inner,verified,from_⟩ := @Completes.embed _ _ _ _ _ _ _ _ _ _ _ _ _ Auth.serve _ World.auth Choice.auth
    (fun _ _ _ => rfl) _ _ signed
  obtain ⟨message,signature,sender,kind,made,member,verifies,accepted⟩ := wallet_verified verified
  obtain ⟨outer,there,op,choice⟩ := from_ made member
  refine ⟨req,digest,response,rfl,rfl,rfl,rfl,?_,?_,?_,?_⟩
  · refine ⟨message,signature,outer,by simp [there],sender,kind ▸ decoded,kind ▸ validate_ok validated,?_,?_⟩
    · rw [op,verifies]
    · rw [← choice,accepted]
  · obtain ⟨call_,member,facts⟩ := answered
    exact ⟨call_,by simp [member],facts⟩
  · intro call_ member
    simp only [List.mem_append] at member
    rcases member with early | early | early | late
    · exact parsed.only (parse_only _) _ early
    · exact validated.only (validate_only _ _) _ early
    · exact signed.only (authenticate_only (fun _ => trivial) _ _) _ early
    · exact silent _ late
  · intro stored
    simp only [List.append_assoc]
    exact Completes.join parsed (Completes.join validated (Completes.join signed (ends stored)))

-- An execute request up to the call that forwards it.
structure Forwarding (kit : Kit) (body : Option SponsorExecuteRequest) (calls : List (Made World Op Choice))
    (req : SponsorExecuteRequest) (sender : String) : Prop where
  parsed : body = some req
  named : req.sender = some sender
  consumed : ∃ made ∈ calls, made.op = .consumePending (pendingKey req.digest) sender ∧ made.choice.fault = none ∧
    (made.state.consumePending (pendingKey req.digest) sender).2 = 1
  first : ∀ made ∈ calls, Unsent made.op

theorem consume_ok {digest sender : String}
    (completes : Completes serve (consumePendingSponsor digest sender) calls (.ok ())) :
    ∃ state choice, calls = [⟨state,.consumePending (pendingKey digest) sender,choice⟩] ∧ choice.fault = none ∧
      (state.consumePending (pendingKey digest) sender).2 = 1 := by
  obtain ⟨_,_,answer,rfl,asked,rest⟩ := Completes.bind_ok completes
  obtain ⟨state,choice,rfl,equal⟩ := Completes.perform asked
  cases answer with
  | error _ => exact absurd rest Completes.not_fail
  | ok consumed =>
    obtain ⟨rfl,one⟩ := check_ok rest
    refine ⟨state,choice,rfl,?_⟩
    simp only [serve,Except.ok.injEq] at equal
    cases fault : choice.fault with
    | none =>
      rw [fault] at equal
      exact ⟨rfl,(Except.ok.inj equal).symm.trans one⟩
    | some fault_ =>
      rw [fault] at equal
      cases fault_ <;> cases equal

theorem execute_forwards {body : Option SponsorExecuteRequest} {digest signature : String} {verifyEffects : Bool}
    (ran : Execution serve Others (sponsorExecuteProxy kit body) since
      (calls ++ [⟨s,.sidecarExecute digest signature verifyEffects,c⟩])) :
    ∃ req sender, digest = req.digest ∧ signature = req.signature ∧ verifyEffects = false ∧
      Forwarding kit body calls req sender := by
  obtain ⟨_,_,req,_,rfl,parsed,ran1⟩ := ran.beyond_last Unsent (get_only _ _) id
  obtain ⟨_,_,_,_,rfl,checked,ran2⟩ := ran1.beyond_last Unsent (check_only _ _) id
  obtain ⟨_,_,sender,_,rfl,named,ran3⟩ := ran2.beyond_last Unsent (get_only _ _) id
  obtain ⟨_,_,_,_,rfl,decoded,ran4⟩ := ran3.beyond_last Unsent (get_only _ _) id
  obtain ⟨_,_,_,_,rfl,sized,ran5⟩ := ran4.beyond_last Unsent (check_only _ _) id
  obtain ⟨_,rest,_,_,rfl,consumed,ran6⟩ := ran5.beyond_last Unsent (by
    apply Program.Only.bind (.perform trivial)
    intro consumed
    cases consumed with
    | error _ => trivial
    | ok consumed => exact check_only _ _) id
  obtain ⟨rfl,there⟩ := get_ok parsed
  obtain ⟨rfl,_⟩ := check_ok checked
  obtain ⟨rfl,known⟩ := get_ok named
  obtain ⟨rfl,_⟩ := get_ok decoded
  obtain ⟨rfl,_⟩ := check_ok sized
  obtain ⟨state,choice,rfl,smooth,one⟩ := consume_ok consumed
  cases rest with
  | nil =>
    obtain ⟨same,_,_⟩ := ran6
    cases same
    refine ⟨req,sender,rfl,rfl,rfl,there,(Option.filter_eq_some_iff.mp known).1,?_,?_⟩
    · exact ⟨⟨state,.consumePending (pendingKey req.digest) sender,choice⟩,by simp,rfl,smooth,one⟩
    · simp [Unsent]
  | cons made rest =>
    obtain ⟨_,_,tail⟩ := ran6
    refine (none_left tail ?_).elim
    apply Program.Only.bind
    · apply Program.Only.bind
      · exact trivial
      intro answer
      cases answer with
      | error _ => trivial
      | ok upstream => exact .bind (get_only _ _) (fun _ => trivial)
    · intro answered
      split
      split <;> trivial

end Recordings

-- The bindings in the store.

def Records (s : World) (op : Op) (c : Choice) (key sender : String) (seconds : Nat) : Prop :=
  op = .setPending key sender seconds ∧ c.fault ≠ some .before ∧ s.bound key = none

def Consumes (s : World) (op : Op) (c : Choice) (key : String) : Prop :=
  ∃ sender binding, op = .consumePending key sender ∧ c.fault ≠ some .before ∧ s.bound key = some binding ∧
    binding.sender = sender

section States
variable {s : World}

theorem bound_iff {key : String} {binding : Binding} :
    s.bound key = some binding ↔ s.pending.get? key = some binding ∧ s.auth.clock < binding.expiresAt := by
  simp [World.bound,Option.filter_eq_some_iff]

theorem fallible_state {α : Type} (next : World) (answer : α) (fault : Option Fault) :
    (fault = some .before ∧ (fallible s next answer fault).1 = s) ∨
      (fault ≠ some .before ∧ (fallible s next answer fault).1 = next) := by
  cases fault with
  | none => exact .inr ⟨nofun,rfl⟩
  | some fault =>
    cases fault with
    | before => exact .inl ⟨rfl,rfl⟩
    | after => exact .inr ⟨nofun,rfl⟩

-- Only a recording adds a binding, and a consumption takes its binding away.
theorem serve_pending (op : Op) (c : Choice) :
    (∃ key sender seconds, Records s op c key sender seconds ∧
      (serve s op c).1.pending = s.pending.upsert key ⟨sender,s.auth.clock + seconds * 1000⟩) ∨
    (∃ key, Consumes s op c key ∧ (serve s op c).1.pending = s.pending.erase key) ∨
    ((serve s op c).1.pending = s.pending ∧ ∀ key, ¬ Consumes s op c key) := by
  cases op with
  | setPending key sender seconds =>
    have quiet : ∀ key', ¬ Consumes s (.setPending key sender seconds) c key' := by
      intro key' given
      obtain ⟨_,_,equal,_⟩ := given
      cases equal
    cases bound : s.bound key with
    | some binding =>
      refine .inr (.inr ⟨?_,quiet⟩)
      simp only [serve,World.setPending,bound]
      rcases fallible_state (s:=s) s false c.fault with ⟨_,equal⟩ | ⟨_,equal⟩ <;> rw [equal]
    | none =>
      simp only [serve,World.setPending,bound]
      rcases fallible_state (s:=s) {s with pending := s.pending.upsert key ⟨sender,s.auth.clock + seconds * 1000⟩} true
        c.fault with ⟨_,equal⟩ | ⟨reached,equal⟩
      · exact .inr (.inr ⟨by rw [equal],quiet⟩)
      · exact .inl ⟨key,sender,seconds,⟨rfl,reached,bound⟩,by rw [equal]⟩
  | consumePending key sender =>
    cases bound : s.bound key with
    | none =>
      refine .inr (.inr ⟨?_,?_⟩)
      · simp only [serve,World.consumePending,bound]
        rcases fallible_state (s:=s) s (0 : Int) c.fault with ⟨_,equal⟩ | ⟨_,equal⟩ <;> rw [equal]
      · intro _ given
        obtain ⟨_,_,equal,_,found,_⟩ := given
        cases equal
        rw [bound] at found
        cases found
    | some binding =>
      by_cases same : binding.sender = sender
      · simp only [serve,World.consumePending,bound,same,ne_eq,not_true,if_false]
        rcases fallible_state (s:=s) {s with pending := s.pending.erase key} (1 : Int) c.fault with
          ⟨lost,equal⟩ | ⟨reached,equal⟩
        · refine .inr (.inr ⟨by rw [equal],?_⟩)
          intro _ given
          obtain ⟨_,_,_,reached,_⟩ := given
          exact reached lost
        · exact .inr (.inl ⟨key,⟨sender,binding,rfl,reached,bound,same⟩,by rw [equal]⟩)
      · refine .inr (.inr ⟨?_,?_⟩)
        · simp only [serve,World.consumePending,bound,same,ne_eq,not_false_eq_true,if_true]
          rcases fallible_state (s:=s) s (-1 : Int) c.fault with ⟨_,equal⟩ | ⟨_,equal⟩ <;> rw [equal]
        · intro _ given
          obtain ⟨_,_,equal,_,found,sent⟩ := given
          cases equal
          rw [bound] at found
          cases found
          exact same sent
  | _ =>
    refine .inr (.inr ⟨rfl,?_⟩)
    intro _ given
    obtain ⟨_,_,equal,_⟩ := given
    cases equal

theorem consumePending_one {key sender : String} (one : (s.consumePending key sender).2 = 1) :
    ∃ binding, s.bound key = some binding ∧ binding.sender = sender := by
  simp only [World.consumePending] at one
  cases bound : s.bound key with
  | none =>
    rw [bound] at one
    cases one
  | some binding =>
    rw [bound] at one
    by_cases same : binding.sender = sender
    · exact ⟨binding,rfl,same⟩
    · simp [same] at one

theorem setPending_free {key sender : String} {seconds : Nat} {c : Choice} (free : s.bound key = none)
    (smooth : c.fault = none) : (serve s (.setPending key sender seconds) c).2 = .ok true := by
  simp [serve,World.setPending,free,smooth,fallible]

theorem pendingKey_inj {a b : String} (same : pendingKey a = pendingKey b) : a = b := by
  have lists : ("sponsor:pending:" ++ a).toList = ("sponsor:pending:" ++ b).toList := congrArg String.toList same
  rw [String.toList_append,String.toList_append] at lists
  exact String.toList_inj.mp (List.append_cancel_left lists)

end States
end MemWal.Sponsor
