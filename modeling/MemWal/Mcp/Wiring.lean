import MemWal.Mcp.Sse

namespace MemWal.Mcp.Sse
open Library Limiter

section Wiring
open Routes
variable {sessionId : Nat → String} {s next : Routes} {id : Nat} {h k : Handler}

structure Wired (sessionId : Nat → String) (s : Routes) : Prop where
  counted : Counted s.limiter
  sane : ∀ id h, s.handlers.get? id = some h → h.Sane
  slot : ∀ id h closure, s.handlers.get? id = some h → h.slot = some closure →
    ∃ grant, s.limiter.grants[closure]? = some grant ∧ grant.released = !h.owes
  apart : ∀ id other h k closure, s.handlers.get? id = some h → s.handlers.get? other = some k →
    h.slot = some closure → k.slot = some closure → id = other
  sessions : ∀ key id, s.sessionsById.get? key = some id → key = sessionId id ∧
    ∃ h, s.handlers.get? id = some h ∧ h.listening = true ∧ h.cleanedUp = false

theorem start_wired (sessionId : Nat → String) (config : RateLimitConfig) : Wired sessionId (start config) := by
  have none_ : ∀ id, (start config).handlers.get? id = none := fun _ => rfl
  refine ⟨⟨rfl,rfl,fun _ => rfl⟩,?_,?_,?_,?_⟩
  · intro id h found
    rw [none_] at found
    cases found
  · intro id h closure found
    rw [none_] at found
    cases found
  · intro id other h k closure found
    rw [none_] at found
    cases found
  · intro key id found
    have missing : (start config).sessionsById.get? key = none := rfl
    rw [missing] at found
    cases found

-- A step of one call, which gives its slot back exactly if it stops owing it.
structure Turned (sessionId : Nat → String) (s next : Routes) (id : Nat) (h k : Handler) : Prop where
  handlers : next.handlers = s.handlers.put id k
  limiter : next.limiter = if h.owes && !k.owes then (releaseSlot s h).limiter else s.limiter
  sessions : ∀ key other, next.sessionsById.get? key = some other →
    (s.sessionsById.get? key = some other ∨ key = sessionId id ∧ other = id) ∧
      (other = id → k.listening = true ∧ k.cleanedUp = false)

theorem releaseSlot_grants (s : Routes) (h : Handler) (n : Nat) : (releaseSlot s h).limiter.grants[n]? =
    if h.slot = some n then (s.limiter.grants[n]?).map (fun grant => {grant with released := true})
    else s.limiter.grants[n]? := by
  rw [releaseSlot]
  cases slot : h.slot with
  | none => rfl
  | some closure =>
    simp only [release_grants,Option.some.injEq,eq_comm (a := n)]

theorem releaseSlot_counted (counted : Counted s.limiter) (h : Handler) : Counted (releaseSlot s h).limiter := by
  rw [releaseSlot]
  cases h.slot with
  | none => exact counted
  | some closure => exact release_counted counted closure

theorem turned_wired (wired : Wired sessionId s) (found : s.handlers.get? id = some h)
    (turned : Turned sessionId s next id h k) (slot : k.slot = h.slot) (sane : k.Sane)
    (owes : k.owes = true → h.owes = true) : Wired sessionId next := by
  have lookup : ∀ other, next.handlers.get? other = if other = id then some k else s.handlers.get? other := by
    intro other
    rw [turned.handlers]
    exact Store.get?_put found k other
  -- The slots are those that the calls had before.
  have before : ∀ other its closure, next.handlers.get? other = some its → its.slot = some closure →
      ∃ old, s.handlers.get? other = some old ∧ old.slot = some closure := by
    intro other its closure present taken
    rw [lookup] at present
    split at present
    · rename_i same
      cases Option.some.inj present
      exact ⟨h,same ▸ found,slot ▸ taken⟩
    · exact ⟨its,present,taken⟩
  refine ⟨?_,?_,?_,?_,?_⟩
  · rw [turned.limiter]
    split
    · exact releaseSlot_counted wired.counted h
    · exact wired.counted
  · intro other its present
    rw [lookup] at present
    split at present
    · cases Option.some.inj present
      exact sane
    · exact wired.sane other its present
  · intro other its closure present taken
    rw [lookup] at present
    split at present
    · rename_i same
      cases Option.some.inj present
      have own := slot ▸ taken
      obtain ⟨grant,granted,flag⟩ := wired.slot id h closure found own
      rw [turned.limiter]
      split
      · rename_i given
        rw [releaseSlot_grants,if_pos own,granted]
        refine ⟨_,rfl,?_⟩
        simpa using (Bool.and_eq_true_iff.mp given).2
      · rename_i kept
        refine ⟨grant,granted,?_⟩
        have same : h.owes = k.owes := by
          cases one : h.owes <;> cases two : k.owes
          · rfl
          · rw [owes two] at one
            cases one
          · simp [one,two] at kept
          · rfl
        rw [flag,same]
    · rename_i differs
      obtain ⟨grant,granted,flag⟩ := wired.slot other its closure present taken
      have apart : h.slot ≠ some closure := fun own => differs (wired.apart other id its h closure present found taken own)
      refine ⟨grant,?_,flag⟩
      rw [turned.limiter]
      split
      · rw [releaseSlot_grants,if_neg apart]
        exact granted
      · exact granted
  · intro one other h1 h2 closure first second taken too
    obtain ⟨old1,found1,slot1⟩ := before one h1 closure first taken
    obtain ⟨old2,found2,slot2⟩ := before other h2 closure second too
    exact wired.apart one other old1 old2 closure found1 found2 slot1 slot2
  · intro key other present
    obtain ⟨origin,alive⟩ := turned.sessions key other present
    have named : key = sessionId other := by
      rcases origin with old | ⟨own,rfl⟩
      · exact (wired.sessions key other old).1
      · exact own
    refine ⟨named,?_⟩
    rw [lookup]
    by_cases same : other = id
    · exact ⟨k,if_pos same,alive same⟩
    · rcases origin with old | ⟨_,equal⟩
      · rw [if_neg same]
        exact (wired.sessions key other old).2
      · exact absurd equal same

-- A call's own session stands under its transport's id.
theorem own_session (wired : Wired sessionId s) (found : s.handlers.get? id = some h) {key : String}
    (present : s.sessionsById.get? key = some id) : key = sessionId id ∧ h.listening = true ∧ h.cleanedUp = false := by
  obtain ⟨named,its,known,alive⟩ := wired.sessions key id present
  cases found.symm.trans known
  exact ⟨named,alive⟩

theorem turned_kept (wired : Wired sessionId s) (found : s.handlers.get? id = some h) (owes : k.owes = h.owes)
    (listening : k.listening = h.listening) (cleanedUp : k.cleanedUp = h.cleanedUp) :
    Turned sessionId s {s with handlers := s.handlers.put id k} id h k := by
  refine ⟨rfl,?_,?_⟩
  · simp [owes]
  · intro key other present
    refine ⟨.inl present,?_⟩
    intro same
    obtain rfl := same
    rw [listening,cleanedUp]
    exact (own_session wired found present).2

theorem turned_same (wired : Wired sessionId s) (found : s.handlers.get? id = some h) : Turned sessionId s s id h h := by
  have turned := turned_kept wired found (k := h) rfl rfl rfl
  rwa [Store.put_same found] at turned

theorem cleanup_done (found : s.handlers.get? id = some h) (cleanedUp : h.cleanedUp = true) :
    cleanup sessionId s id = s := by
  rw [cleanup,found]
  exact if_pos cleanedUp

theorem cleanup_turned (wired : Wired sessionId s) (found : s.handlers.get? id = some h) (listening : h.listening = true)
    (closed : Bool) : Turned sessionId s (cleanup sessionId {s with handlers := s.handlers.put id {h with closed}} id) id h
      {h with closed, cleanedUp := true} := by
  have marked := (Store.get?_put found {h with closed} id).trans (if_pos rfl)
  have past : h.stage ≠ .awaitingAuth := by
    intro awaiting
    rw [((wired.sane id h found).early awaiting).1] at listening
    cases listening
  by_cases cleaned : h.cleanedUp = true
  · have same : ({h with closed, cleanedUp := true} : Handler) = {h with closed} := by rw [← cleaned]
    have skipped : cleanup sessionId {s with handlers := s.handlers.put id {h with closed}} id =
        {s with handlers := s.handlers.put id {h with closed}} := by
      rw [cleanup]
      simp only [marked,if_pos cleaned]
    rw [skipped,same]
    exact turned_kept wired found rfl rfl rfl
  · have open_ : h.cleanedUp = false := by simpa using cleaned
    have released : cleanup sessionId {s with handlers := s.handlers.put id {h with closed}} id = releaseSlot {s with
        sessionsById := s.sessionsById.erase (sessionId id)
        handlers := s.handlers.put id {h with closed, cleanedUp := true}} h := by
      rw [cleanup]
      simp only [marked,if_neg cleaned,Store.put_put]
      rfl
    have owed : h.owes = true := by simp [Handler.owes,listening,open_]
    have settled : Handler.owes {h with closed, cleanedUp := true} = false := by simp [Handler.owes,past]
    rw [released]
    refine ⟨?_,?_,?_⟩
    · rw [releaseSlot]
      split <;> rfl
    · rw [owed,settled]
      simp only [releaseSlot,Bool.not_false,Bool.and_true,if_true]
      split <;> rfl
    · intro key other present
      have kept : (s.sessionsById.erase (sessionId id)).get? key = some other := by
        rw [releaseSlot] at present
        split at present <;> exact present
      rw [Store.get?_erase] at kept
      split at kept
      · cases kept
      · rename_i differs
        refine ⟨.inl kept,?_⟩
        intro equal
        obtain rfl := equal
        exact absurd (own_session wired found kept).1 differs

theorem advance_turned (wired : Wired sessionId s) (found : s.handlers.get? id = some h) (m : Moment) :
    Turned sessionId s (s.advance sessionId id h m) id h (h.after m) := by
  have sane := wired.sane id h found
  cases m with
  | authResolved =>
    simp only [advance,Handler.after]
    split
    · rename_i awaiting
      obtain ⟨_,open_⟩ := sane.early awaiting
      refine ⟨rfl,?_,?_⟩
      · simp [Handler.owes,awaiting,open_]
      · intro key other present
        rw [Store.get?_upsert] at present
        split at present
        · rename_i same
          cases Option.some.inj present
          exact ⟨.inr ⟨same,rfl⟩,fun _ => ⟨rfl,open_⟩⟩
        · exact ⟨.inl present,fun _ => ⟨rfl,open_⟩⟩
    · exact turned_same wired found
  | authThrown =>
    simp only [advance,Handler.after]
    split
    · rename_i awaiting
      obtain ⟨silent,_⟩ := sane.early awaiting
      refine ⟨?_,?_,?_⟩
      · rw [releaseSlot]
        split <;> rfl
      · simp only [Handler.owes,awaiting,silent,releaseSlot]
        split <;> simp
      · intro key other present
        have kept : s.sessionsById.get? key = some other := by
          rw [releaseSlot] at present
          split at present <;> exact present
        refine ⟨.inl kept,?_⟩
        intro equal
        obtain rfl := equal
        exact (own_session wired found kept).2
    · exact turned_same wired found
  | sdkListens =>
    simp only [advance,Handler.after]
    split
    · exact turned_kept wired found rfl rfl rfl
    · exact turned_same wired found
  | connected =>
    simp only [advance,Handler.after]
    split
    · rename_i connecting
      exact turned_kept wired found (by simp [Handler.owes,connecting]) rfl rfl
    · exact turned_same wired found
  | connectThrown =>
    simp only [advance,Handler.after]
    split
    · rename_i connecting
      exact turned_kept wired found (by simp [Handler.owes,connecting]) rfl rfl
    · exact turned_same wired found
  | responseClosed =>
    simp only [advance,Handler.after]
    split
    · exact turned_same wired found
    · by_cases listening : h.listening = true
      · have turned := cleanup_turned wired found listening true
        have done := (Store.get?_put found {h with closed := true, cleanedUp := true} id).trans (if_pos rfl)
        rw [← turned.handlers] at done
        have both : (h.cleanedUp || h.listening) = true := by rw [listening,Bool.or_true]
        rw [if_pos listening,cleanup_done done rfl,ite_self,both]
        exact turned
      · have silent : ¬ h.sdkListening = true := fun sdk => listening (sane.sdk sdk)
        have both : (h.cleanedUp || h.listening) = h.cleanedUp := by simp [listening]
        rw [if_neg listening,if_neg silent,both]
        exact turned_kept wired found rfl rfl rfl
  | transportClosed =>
    simp only [advance,Handler.after]
    by_cases listening : h.listening = true
    · have turned := cleanup_turned wired found listening h.closed
      have both : (h.cleanedUp || h.listening) = true := by rw [listening,Bool.or_true]
      rw [Store.put_same found] at turned
      rw [if_pos listening,both]
      exact turned
    · have both : (h.cleanedUp || h.listening) = h.cleanedUp := by simp [listening]
      rw [if_neg listening,both]
      exact turned_same wired found

theorem mem_slots {closure : Nat} :
    closure ∈ s.slots ↔ ∃ id h, s.handlers.get? id = some h ∧ h.slot = some closure := by
  simp only [slots,List.mem_filterMap,Prod.exists,Store.get?_eq_some]

theorem acquire_grants {grant : Grant} {n : Nat} (limiter : Session) (now : Time) (ip : String)
    (granted : limiter.grants[n]? = some grant) : (limiter.acquire now ip).grants[n]? = some grant := by
  rw [Session.acquire]
  split
  · rw [List.getElem?_append_left (List.getElem?_eq_some_iff.mp granted).1]
    exact granted
  · exact granted

-- The others leave the slots of the calls alone.
theorem limiter_wired (wired : Wired sessionId s) (limiter : Session) (counted : Counted limiter)
    (kept : ∀ closure ∈ s.slots, ∀ grant, s.limiter.grants[closure]? = some grant → limiter.grants[closure]? = some grant) :
    Wired sessionId {s with limiter} := by
  refine ⟨counted,wired.sane,?_,wired.apart,wired.sessions⟩
  intro id h closure found taken
  obtain ⟨grant,granted,flag⟩ := wired.slot id h closure found taken
  exact ⟨grant,kept closure (mem_slots.mpr ⟨id,h,found,taken⟩) grant granted,flag⟩

theorem inserted_wired (wired : Wired sessionId s) (fresh : s.handlers.get? id = none) (sane : h.Sane)
    (own : ∀ closure, h.slot = some closure → closure ∉ s.slots ∧
      ∃ grant, s.limiter.grants[closure]? = some grant ∧ grant.released = !h.owes) :
    Wired sessionId {s with handlers := s.handlers.insert id h} := by
  have lookup := Store.get?_insert h fresh
  have its : ∀ other its, (s.handlers.insert id h).get? other = some its →
      other = id ∧ its = h ∨ s.handlers.get? other = some its := by
    intro other its present
    rw [lookup] at present
    split at present
    · rename_i same
      exact .inl ⟨same,(Option.some.inj present).symm⟩
    · exact .inr present
  refine ⟨wired.counted,?_,?_,?_,?_⟩
  · intro other k present
    rcases its other k present with ⟨_,rfl⟩ | old
    · exact sane
    · exact wired.sane other k old
  · intro other k closure present taken
    rcases its other k present with ⟨_,rfl⟩ | old
    · exact (own closure taken).2
    · exact wired.slot other k closure old taken
  · intro one other h1 h2 closure first second taken too
    rcases its one h1 first with ⟨rfl,rfl⟩ | old1
    · rcases its other h2 second with ⟨rfl,_⟩ | old2
      · rfl
      · exact absurd (mem_slots.mpr ⟨other,h2,old2,too⟩) (own closure taken).1
    · rcases its other h2 second with ⟨rfl,rfl⟩ | old2
      · exact absurd (mem_slots.mpr ⟨one,h1,old1,taken⟩) (own closure too).1
      · exact wired.apart one other h1 h2 closure old1 old2 taken too
  · intro key other present
    obtain ⟨named,k,found,alive⟩ := wired.sessions key other present
    refine ⟨named,k,?_,alive⟩
    rw [lookup,if_neg]
    · exact found
    · intro equal
      obtain rfl := equal
      rw [fresh] at found
      cases found

theorem acquired_wired (wired : Wired sessionId s) (now : Time) (ip : String) :
    Wired sessionId {s with limiter := s.limiter.acquire now ip} :=
  limiter_wired wired _ (acquire_counted wired.counted now ip) (fun _ _ _ granted => acquire_grants _ now ip granted)

theorem request_wired (wired : Wired sessionId s) (id : Nat) (now : Time) (ip : String) :
    Wired sessionId (s.handleSse id now ip) := by
  rw [handleSse]
  cases found : s.handlers.get? id with
  | some h => exact wired
  | none =>
    have acquired := acquired_wired wired now ip
    cases asked : (s.limiter.limiter.acquire now ip).2 with
    | error refusal => exact inserted_wired acquired found ⟨by simp,by simp,by simp,by simp⟩ (by simp)
    | ok _ =>
      have grants : (s.limiter.acquire now ip).grants = s.limiter.grants ++ [⟨ip,now,false⟩] := by
        rw [Session.acquire]
        simp only [asked]
      refine inserted_wired acquired found ⟨fun _ => ⟨rfl,rfl⟩,by simp,by simp,by simp⟩ ?_
      intro closure taken
      cases Option.some.inj taken
      constructor
      · -- The slots so far are those of grants so far.
        intro taken
        obtain ⟨other,h,known,slot⟩ := mem_slots.mp taken
        obtain ⟨grant,granted,_⟩ := wired.slot other h _ known slot
        exact absurd (List.getElem?_eq_some_iff.mp granted).1 (Nat.lt_irrefl _)
      · refine ⟨⟨ip,now,false⟩,?_,rfl⟩
        change (s.limiter.acquire now ip).grants[_]? = _
        rw [grants,List.getElem?_append_right le_rfl,Nat.sub_self]
        rfl

theorem released_wired (wired : Wired sessionId s) {closure : Nat} (other : closure ∉ s.slots) :
    Wired sessionId {s with limiter := s.limiter.release closure} := by
  apply limiter_wired wired _ (release_counted wired.counted closure)
  intro own taken grant granted
  have differs : own ≠ closure := fun same => other (same ▸ taken)
  rw [release_grants,if_neg differs]
  exact granted

theorem step_wired (wired : Wired sessionId s) (event : Event) : Wired sessionId (s.step sessionId event) := by
  cases event with
  | request id now ip => exact request_wired wired id now ip
  | moment id m =>
    simp only [step]
    cases found : s.handlers.get? id with
    | none => exact wired
    | some h =>
      exact turned_wired wired found (advance_turned wired found m) (h.after_slot m)
        ((wired.sane id h found).after_sane m) (h.after_owes m)
  | otherAcquire now ip => exact acquired_wired wired now ip
  | otherRelease closure =>
    simp only [step]
    split
    · exact wired
    · rename_i other
      exact released_wired wired other

def Leaks (s : Routes) (id : Nat) : Prop := ∃ h, s.handlers.get? id = some h ∧ h.leaks = true

theorem request_handlers (s : Routes) (id : Nat) (now : Time) (ip : String) :
    (s.handleSse id now ip).handlers = s.handlers ∨ s.handlers.get? id = none ∧
      ∃ h, h.leaks = false ∧ (s.handleSse id now ip).handlers = s.handlers.insert id h := by
  rw [handleSse]
  cases found : s.handlers.get? id with
  | some h => exact .inl rfl
  | none =>
    right
    cases (s.limiter.limiter.acquire now ip).2 with
    | error refusal => exact ⟨rfl,_,rfl,rfl⟩
    | ok _ => exact ⟨rfl,_,rfl,rfl⟩

theorem leaks_same (same : next.handlers.get? id = s.handlers.get? id) : Leaks next id ↔ Leaks s id := by
  rw [Leaks,Leaks,same]

theorem leaks_found (found : s.handlers.get? id = some h) : Leaks s id ↔ h.leaks = true := by
  rw [Leaks,found]
  simp

theorem leaks_missing (missing : s.handlers.get? id = none) : ¬ Leaks s id := by
  intro leaking
  obtain ⟨h,known,_⟩ := leaking
  rw [missing] at known
  cases known

theorem request_leaks (s : Routes) (other : Nat) (now : Time) (ip : String) :
    Leaks (s.handleSse other now ip) id ↔ Leaks s id := by
  rcases request_handlers s other now ip with same | ⟨fresh,h,silent,inserted⟩
  · exact leaks_same (by rw [same])
  · have lookup := Store.get?_insert h fresh id
    rw [← inserted] at lookup
    by_cases equal : id = other
    · rw [if_pos equal] at lookup
      rw [leaks_found lookup,silent]
      constructor
      · intro never
        cases never
      · intro leaking
        exact absurd leaking (leaks_missing (equal ▸ fresh))
    · rw [if_neg equal] at lookup
      exact leaks_same lookup

theorem late_found (found : s.handlers.get? id = some h) (m : Moment) :
    (Event.moment id m = .moment id .authResolved ∧ Late s (.moment id m)) ↔
      m = .authResolved ∧ h.stage = .awaitingAuth ∧ h.closed = true := by
  constructor
  · intro both
    obtain ⟨same,late⟩ := both
    cases same
    obtain ⟨k,its,facts⟩ := late
    cases found.symm.trans its
    exact ⟨rfl,facts⟩
  · intro both
    obtain ⟨rfl,facts⟩ := both
    exact ⟨rfl,h,found,facts⟩

-- What happens to a call decides about it and about no other.
theorem moment_leaks (wired : Wired sessionId s) (found : s.handlers.get? id = some h) (m : Moment) :
    Leaks (s.step sessionId (.moment id m)) id ↔ Leaks s id ∧ ¬ Event.moment id m = .moment id .transportClosed ∨
      Event.moment id m = .moment id .authResolved ∧ Late s (.moment id m) := by
  have turned := advance_turned wired found m
  have known : (s.step sessionId (.moment id m)).handlers.get? id = some (h.after m) := by
    simp only [step,found,turned.handlers]
    exact (Store.get?_put found _ id).trans (if_pos rfl)
  rw [leaks_found known,leaks_found found,late_found found,(wired.sane id h found).after_leaks m]
  simp

theorem moment_others (wired : Wired sessionId s) {other : Nat} (differs : other ≠ id) (m : Moment) :
    (s.step sessionId (.moment other m)).handlers.get? id = s.handlers.get? id := by
  simp only [step]
  cases found : s.handlers.get? other with
  | none => rfl
  | some h =>
    simp only [(advance_turned wired found m).handlers]
    exact (Store.get?_put found _ id).trans (if_neg differs.symm)

theorem step_leaks (wired : Wired sessionId s) (event : Event) : Leaks (s.step sessionId event) id ↔
    Leaks s id ∧ ¬ event = .moment id .transportClosed ∨ event = .moment id .authResolved ∧ Late s event := by
  cases event with
  | request other now ip =>
    have same : Leaks (s.step sessionId (.request other now ip)) id ↔ Leaks s id := request_leaks s other now ip
    simpa using same
  | moment other m =>
    by_cases equal : other = id
    · subst equal
      cases found : s.handlers.get? other with
      | some h => exact moment_leaks wired found m
      | none =>
        have still : s.step sessionId (.moment other m) = s := by simp only [step,found]
        have early : ¬ Late s (.moment other .authResolved) := by
          intro late
          obtain ⟨h,known,_⟩ := late
          rw [found] at known
          cases known
        rw [still]
        constructor
        · intro leaking
          exact absurd leaking (leaks_missing found)
        · intro either
          rcases either with ⟨leaking,_⟩ | ⟨same,late⟩
          · exact leaking
          · exact absurd (same ▸ late) early
    · simpa [equal] using leaks_same (moment_others wired equal m)
  | otherAcquire now ip =>
    have same : Leaks (s.step sessionId (.otherAcquire now ip)) id ↔ Leaks s id := Iff.rfl
    simpa using same
  | otherRelease closure =>
    have kept : (s.step sessionId (.otherRelease closure)).handlers.get? id = s.handlers.get? id := by
      simp only [step]
      split <;> rfl
    simpa using leaks_same kept

theorem run_wired (sessionId : Nat → String) (config : RateLimitConfig) (events : List Event) :
    Wired sessionId (run sessionId config events) :=
  List.foldlRecOn events (step sessionId) (start_wired sessionId config) (fun _ wired event _ => step_wired wired event)

theorem rescued_iff (sessionId : Nat → String) (config : RateLimitConfig) (events : List Event) :
    Rescued sessionId config events ↔ ∀ id, ¬ Leaks (run sessionId config events) id := by
  have none_ : ∀ id, ¬ Leaks (start config) id := fun _ => leaks_missing rfl
  have history : ∀ id, Leaks (run sessionId config events) id ↔ ∃ earlier event later, events = earlier ++ event :: later ∧
      (event = .moment id .authResolved ∧ Late (run sessionId config earlier) event) ∧
      ∀ other ∈ later, ¬ other = .moment id .transportClosed := by
    intro id
    exact Runs.since (I := Wired sessionId) (P := fun s => Leaks s id) (start_wired sessionId config)
      (fun s event wired => step_wired wired event) (none_ id) (fun s event wired => step_leaks wired event) events
  constructor
  · intro rescued id leaks
    obtain ⟨earlier,event,later,split,⟨rfl,late⟩,never⟩ := (history id).mp leaks
    exact never _ (rescued earlier id later split late) rfl
  · intro silent earlier id later split late
    by_contra missed
    apply silent id
    refine (history id).mpr ⟨earlier,_,later,split,⟨rfl,late⟩,?_⟩
    intro other member same
    obtain rfl := same
    exact missed member

-- The counter leaves the slots of the calls out exactly if all are released.
theorem slots_released (counted : Counted s.limiter) :
    s.limiter.limiter.totalActive =
        (s.limiter.grants.zipIdx.filter (fun e => !e.1.released && e.2 ∉ s.slots)).length ↔
      ∀ closure ∈ s.slots, ∀ grant, s.limiter.grants[closure]? = some grant → grant.released = true := by
  have whole : s.limiter.unreleased.length = (s.limiter.grants.zipIdx.filter (fun e => !e.1.released)).length := by
    rw [Session.unreleased]
    conv_lhs => rw [← List.zipIdx_map_fst 0 s.limiter.grants]
    rw [List.filter_map,List.length_map]
    rfl
  have both : s.limiter.grants.zipIdx.filter (fun e => !e.1.released && e.2 ∉ s.slots) =
      (s.limiter.grants.zipIdx.filter (fun e => !e.1.released)).filter (fun e => e.2 ∉ s.slots) := by
    rw [List.filter_filter]
    apply List.filter_congr
    intro e _
    exact Bool.and_comm _ _
  rw [counted.total,whole,both,eq_comm,List.length_filter_eq_length_iff]
  constructor
  · intro apart closure taken grant granted
    by_contra open_
    have member : (grant,closure) ∈ s.limiter.grants.zipIdx := List.mem_zipIdx_iff_getElem?.mpr granted
    have other := apart (grant,closure) (List.mem_filter.mpr ⟨member,by simpa using open_⟩)
    exact of_decide_eq_true other taken
  · intro released e member
    obtain ⟨listed,open_⟩ := List.mem_filter.mp member
    apply decide_eq_true
    intro taken
    rw [released e.2 taken e.1 (List.mem_zipIdx_iff_getElem?.mp listed)] at open_
    cases open_

theorem given_back_iff (wired : Wired sessionId s) (quiet : Quiet s) : GivenBack s ↔ ∀ id, ¬ Leaks s id := by
  constructor
  · intro back id leaking
    obtain ⟨h,found,leaks⟩ := leaking
    simp only [Handler.leaks,Bool.and_eq_true,Bool.not_eq_true'] at leaks
    obtain ⟨⟨listening,_⟩,open_⟩ := leaks
    cases slot : h.slot with
    | none =>
      rw [((wired.sane id h found).slotless slot).2] at listening
      cases listening
    | some closure =>
      obtain ⟨grant,granted,flag⟩ := wired.slot id h closure found slot
      have released := (slots_released wired.counted).mp back.slots closure (mem_slots.mpr ⟨id,h,found,slot⟩) grant granted
      rw [released] at flag
      simp [Handler.owes,listening,open_] at flag
  · intro silent
    have settled : ∀ id h, s.handlers.get? id = some h → h.listening = true → h.cleanedUp = true := by
      intro id h found listening
      by_contra open_
      exact silent id ⟨h,found,by simp [Handler.leaks,listening,(quiet id h found).2,open_]⟩
    constructor
    · rw [slots_released wired.counted]
      intro closure taken grant granted
      obtain ⟨id,h,found,slot⟩ := mem_slots.mp taken
      obtain ⟨its,known,flag⟩ := wired.slot id h closure found slot
      cases granted.symm.trans known
      have past : h.stage ≠ .awaitingAuth := by
        rcases (quiet id h found).1 with returned | threw
        · rw [returned]
          decide
        · rw [threw]
          decide
      have paid : h.owes = false := by
        cases listening : h.listening with
        | false => simp [Handler.owes,past,listening]
        | true => simp [Handler.owes,past,settled id h found listening]
      rw [flag,paid]
      rfl
    · intro key id present
      obtain ⟨_,h,found,listening,open_⟩ := wired.sessions key id present
      rw [settled id h found listening] at open_
      cases open_

end Wiring

theorem slots_given_back_iff (sessionId : Nat → String) (config : RateLimitConfig) {events : List Event}
    (quiet : Quiet (Routes.run sessionId config events)) :
    GivenBack (Routes.run sessionId config events) ↔ Rescued sessionId config events := by
  rw [given_back_iff (run_wired sessionId config events) quiet,rescued_iff]

def sampleId (id : Nat) : String := if id = 0 then "first" else "other"

def usualRun : List Event := [.request 0 0 "192.0.2.7",.moment 0 .authResolved,.moment 0 .sdkListens,
  .moment 0 .connected,.moment 0 .responseClosed]

theorem usual_run_given_back :
    GivenBack (Routes.run sampleId sampleConfig usualRun) ∧ Rescued sampleId sampleConfig usualRun := by
  have handlers : (Routes.run sampleId sampleConfig usualRun).handlers.entries =
      [(0,⟨some 0,.returned,true,true,true,true⟩)] := by decide
  have sessions : (Routes.run sampleId sampleConfig usualRun).sessionsById.entries = [] := by decide
  have quiet : Quiet (Routes.run sampleId sampleConfig usualRun) := by
    intro id h found
    have member := Store.get?_eq_some.mp found
    rw [handlers] at member
    cases List.mem_singleton.mp member
    exact ⟨.inl rfl,rfl⟩
  have back : GivenBack (Routes.run sampleId sampleConfig usualRun) := by
    refine ⟨by decide,?_⟩
    intro key id present
    have member := Store.get?_eq_some.mp present
    rw [sessions] at member
    cases member
  exact ⟨back,(slots_given_back_iff sampleId sampleConfig quiet).mp back⟩

def earlyClose : List Event := [.request 0 0 "192.0.2.7",.moment 0 .responseClosed,.moment 0 .authResolved,
  .moment 0 .sdkListens,.moment 0 .connected]

theorem early_close_keeps_slot : Quiet (Routes.run sampleId sampleConfig earlyClose) ∧
    (Routes.run sampleId sampleConfig earlyClose).limiter.limiter.totalActive = 1 ∧
    (Routes.run sampleId sampleConfig earlyClose).sessionsById.get? "first" = some 0 ∧
    ¬ GivenBack (Routes.run sampleId sampleConfig earlyClose) := by
  have handlers : (Routes.run sampleId sampleConfig earlyClose).handlers.entries =
      [(0,⟨some 0,.returned,true,true,true,false⟩)] := by decide
  have session : (Routes.run sampleId sampleConfig earlyClose).sessionsById.get? "first" = some 0 := by decide
  refine ⟨?_,by decide,session,?_⟩
  · intro id h found
    have member := Store.get?_eq_some.mp found
    rw [handlers] at member
    cases List.mem_singleton.mp member
    exact ⟨.inl rfl,rfl⟩
  · intro back
    have gone := back.sessions "first" 0 session
    revert gone
    decide

end MemWal.Mcp.Sse
