import MemWal.Funding.Script

namespace MemWal.Funding.Payout
open Library

-- The intent of a run is in normal form.
section Intents
variable {kit : ScriptKit}

theorem entry_named {entry : String × Option Json} {result : String × List String}
    (made : normalizeEntry kit entry = .ok result) : Filled result.1 ∧ result.2 ≠ [] := by
  simp only [normalizeEntry,normalizeWriter,Fallible.bind_ok,Fallible.ensure_ok,Fallible.pure_ok,exists_const] at made
  obtain ⟨named,items,_,_,some_,addresses,each,rfl⟩ := made
  refine ⟨named,?_⟩
  intro (empty : addresses = [])
  have long := (Fallible.mapM_ok each).length_eq
  rw [empty,List.length_zipIdx,List.length_nil] at long
  exact some_ (List.eq_nil_of_length_eq_zero long)

theorem writers_payable (documented : kit.Documented) {manifest : List (String × Option Json)} {writers : WriterAddresses}
    (made : normalizeManifest kit manifest = .ok writers) : PayableWriters kit writers := by
  obtain ⟨entries,each,checked⟩ := Fallible.bind_ok.mp made
  obtain ⟨rfl,some_,distinct,few⟩ := checkRecipients_ok.mp checked
  have one : ∀ entry ∈ writers, ∃ given, normalizeEntry kit given = .ok entry := by
    have all := Fallible.mapM_ok each
    clear made each checked some_ distinct few
    induction all with
    | nil =>
      intro entry member
      cases member
    | cons head tail ih =>
      intro entry member
      rcases List.mem_cons.mp member with rfl | later
      · exact ⟨_,head⟩
      · exact ih entry later
  refine ⟨?_,?_,?_,some_,distinct,few⟩
  · intro entry member
    obtain ⟨given,read⟩ := one entry member
    exact entry_named read
  · intro entry member
    obtain ⟨given,read⟩ := one entry member
    exact (entry_normal documented read).2.1
  · intro entry member
    obtain ⟨given,read⟩ := one entry member
    exact (entry_normal documented read).2.2

theorem parsed_payable (documented : kit.Documented) {raw what : String} {writers : WriterAddresses}
    (parsed : parseWriters kit raw what = .ok writers) : PayableWriters kit writers := by
  obtain ⟨value,_,made⟩ := Fallible.bind_ok.mp parsed
  cases value with
  | object members => exact writers_payable documented made
  | _ => cases made

theorem parseAmount_some {v what : String} {n : Nat} (parsed : parseAmount kit v what = .ok n) : n ≠ 0 := by
  simp only [parseAmount,Fallible.bind_ok,Fallible.ensure_ok,Fallible.pure_ok,exists_const] at parsed
  obtain ⟨m,_,some_,rfl⟩ := parsed
  exact some_

structure Settings.Sound (settings : Settings) : Prop where
  network : settings.network = "mainnet" ∨ settings.network = "testnet"
  amounts : settings.mistPer ≠ 0 ∧ settings.frostPer ≠ 0 ∧ settings.gasBudget ≠ 0

theorem readSettings_sound {environment : Environment} {raw : Option String} {settings : Settings}
    (read : readSettings kit environment raw = .ok settings) : settings.Sound ∧ settings.resumeJournalRaw = raw := by
  simp only [readSettings,Fallible.bind_ok,Fallible.ensure_ok,Fallible.pure_ok,exists_const] at read
  obtain ⟨_,_,_,_,_,_,_,_,mist,mistRead,frost,frostRead,network,gas,gasRead,_,_,_,rfl⟩ := read
  exact ⟨⟨network,parseAmount_some mistRead,parseAmount_some frostRead,parseAmount_some gasRead⟩,rfl⟩

theorem recipientsFile_filled {network : String} (known : network = "mainnet" ∨ network = "testnet") :
    Filled (recipientsFile network) := by
  rcases known with rfl | rfl <;> decide +kernel

theorem makeIntent_normal (documented : kit.Documented) {settings : Settings} (sound : settings.Sound) {sender : String}
    {writers : WriterAddresses} (payable : PayableWriters kit writers) {walType : WalType kit} {run : RunIntent kit}
    (made : makeIntent kit settings sender writers walType = .ok run) :
    run.intent.Normal kit ∧ run.intent.writers = writers := by
  unfold makeIntent at made
  split at made
  · cases made
  · rename_i intent built
    cases made
    rw [fundingIntent,writers_back payable] at built
    simp only [Fallible.bind_ok,Fallible.pure_ok,assertAddress_ok,Except.ok.injEq] at built
    obtain ⟨_,⟨valid,rfl⟩,_,rfl,rfl⟩ := built
    refine ⟨⟨sound.network,⟨documented.valid _ valid,documented.normal _ valid⟩,?_,?_,recipientsFile_filled sound.network,
      payable,sound.amounts⟩,rfl⟩
    · change trim (kit.normalizeSuiAddress sender) ≠ ""
      rw [documented.trimmed _ valid]
      exact documented.some_ _ valid
    · change Filled (kit.normalizeStructTag walType.text) ∧
        kit.normalizeStructTag (kit.normalizeStructTag walType.text) = kit.normalizeStructTag walType.text
      rw [walType.normal,walType.normal]
      exact ⟨walType.filled,rfl⟩

end Intents

-- The log against the chain, in every state that the runs can reach.
section Logs
variable {kit : ScriptKit}

-- The transaction comes from a journal that a run was given.
def Resumed (s : World kit) (bytes : Bytes) : Prop :=
  ∃ raw ∈ s.supplied, ∃ run nowMs journal, parseFundingJournal kit raw run nowMs = .ok journal ∧
    journal.signed.bytes = bytes

def Written (s : World kit) (bytes : Bytes) : Prop := ∃ note ∈ s.written, note.journal.signed.bytes = bytes

-- The transaction was made by a run that resumed none.
def Fresh (s : World kit) (bytes : Bytes) : Prop :=
  ∃ note ∈ s.written, note.fresh = true ∧ note.journal.signed.bytes = bytes

def World.fresh (s : World kit) : List (Note kit) := s.written.filter Note.fresh

def tickets (store : Store Nat Unit) : Nat := store.total (fun _ _ => 1)

structure Journaled (initial : Store String Bool) (s : World kit) : Prop where
  carries : ∀ note ∈ s.written, note.journal.Carries note.run ∧ note.run.intent.Normal kit
  origin : ∀ note ∈ s.written, Fresh s note.journal.signed.bytes ∨ Resumed s note.journal.signed.bytes
  sent : ∀ signed ∈ s.submitted, ∃ note ∈ s.written, note.journal.signed = signed
  landed : ∀ digest success, s.chain.get? digest = some success →
    initial.get? digest = some success ∨ ∃ signed ∈ s.submitted, kit.digestOf signed.bytes = digest
  counted : s.fresh.length + tickets s.tickets ≤ s.begun

-- Nothing that was written, supplied or executed is ever undone.
structure Kept (s now : World kit) : Prop where
  written : ∀ note ∈ s.written, note ∈ now.written
  supplied : ∀ raw ∈ s.supplied, raw ∈ now.supplied
  landed : ∀ digest success, s.chain.get? digest = some success → now.chain.get? digest = some success

structure Later (worker : Nat) (s now : World kit) : Prop extends Kept s now where
  ticket : now.tickets.get? worker = s.tickets.get? worker

def MayCall (s : World kit) (worker : Nat) : Op kit → Prop
  | .writeJournal _ members (some note) => members = note.journal.members ∧ note.journal.Carries note.run ∧
      note.run.intent.Normal kit ∧ (note.fresh = true → s.tickets.get? worker = some ()) ∧
      (note.fresh = false → Written s note.journal.signed.bytes ∨ Resumed s note.journal.signed.bytes)
  | .executeTransaction signed =>
      ∃ note ∈ s.written, note.journal.signed = signed ∧ isText note.journal.status "prepared" = true
  | .print digest true => ∃ note ∈ s.written, note.journal.signed.digest = digest
  | .print digest false => s.chain.get? digest = some true
  | _ => True

theorem Kept.refl (s : World kit) : Kept s s := ⟨fun _ => id,fun _ => id,fun _ _ => id⟩

theorem Kept.trans {a b c : World kit} (first : Kept a b) (second : Kept b c) : Kept a c where
  written note member := second.written note (first.written note member)
  supplied raw member := second.supplied raw (first.supplied raw member)
  landed digest success found := second.landed digest success (first.landed digest success found)

theorem Kept.made {s now : World kit} (kept : Kept s now) {bytes : Bytes} : Fresh s bytes → Fresh now bytes := by
  rintro ⟨note,member,fresh,same⟩
  exact ⟨note,kept.written note member,fresh,same⟩

theorem Kept.resumed {s now : World kit} (kept : Kept s now) {bytes : Bytes} : Resumed s bytes → Resumed now bytes := by
  rintro ⟨raw,member,accepted⟩
  exact ⟨raw,kept.supplied raw member,accepted⟩

theorem Kept.wrote {s now : World kit} (kept : Kept s now) {bytes : Bytes} : Written s bytes → Written now bytes := by
  rintro ⟨note,member,same⟩
  exact ⟨note,kept.written note member,same⟩

theorem tickets_upsert (store : Store Nat Unit) (worker : Nat) :
    tickets (store.upsert worker ()) ≤ tickets store + 1 := Store.total_upsert_le store worker () _

theorem tickets_erase {store : Store Nat Unit} {worker : Nat} (held : store.get? worker = some ()) :
    tickets (store.erase worker) + 1 = tickets store := Store.total_erase held _

theorem tickets_fewer (store : Store Nat Unit) (worker : Nat) : tickets (store.erase worker) ≤ tickets store :=
  Store.total_erase_le store worker _

section Effects
variable {s : World kit} {initial : Store String Bool}

theorem land_kept (digest : String) (success : Bool) : Kept s (s.land digest success) := by
  unfold World.land
  cases found : s.chain.get? digest with
  | some _ => exact .refl s
  | none =>
    refine ⟨fun _ => id,fun _ => id,fun other value there => ?_⟩
    have different : other ≠ digest := by
      intro same
      rw [same,found] at there
      cases there
    simp only [Store.get?_upsert,if_neg different]
    exact there

theorem land_new {digest other : String} {success value : Bool}
    (found : (s.land digest success).chain.get? other = some value) : s.chain.get? other = some value ∨ other = digest := by
  unfold World.land at found
  split at found
  · exact .inl found
  · rw [Store.get?_upsert] at found
    split at found
    · rename_i same
      exact .inr same
    · exact .inl found

theorem land_rest (digest : String) (success : Bool) :
    (s.land digest success).written = s.written ∧ (s.land digest success).submitted = s.submitted ∧
      (s.land digest success).supplied = s.supplied ∧ (s.land digest success).begun = s.begun ∧
      (s.land digest success).tickets = s.tickets := by
  unfold World.land
  split <;> exact ⟨rfl,rfl,rfl,rfl,rfl⟩

theorem land_journaled (inv : Journaled initial s) {digest : String} (success : Bool)
    (known : ∃ signed ∈ s.submitted, kit.digestOf signed.bytes = digest) : Journaled initial (s.land digest success) := by
  obtain ⟨written,submitted,supplied,begun,held⟩ := land_rest (s:=s) digest success
  have kept := land_kept (s:=s) digest success
  refine ⟨?_,?_,?_,?_,?_⟩
  · rw [written]
    exact inv.carries
  · rw [written]
    intro note member
    exact (inv.origin note member).imp kept.made kept.resumed
  · rw [written,submitted]
    exact inv.sent
  · intro other value found
    rw [submitted]
    rcases land_new found with old | rfl
    · exact inv.landed other value old
    · exact .inr known
  · rw [World.fresh,written,held,begun]
    exact inv.counted

theorem submit_kept (signed : SignedTransaction) (lands : Option Bool) : Kept s (s.submit signed lands) := by
  have sent : Kept s {s with submitted := s.submitted ++ [signed]} := ⟨fun _ => id,fun _ => id,fun _ _ => id⟩
  cases lands with
  | none => exact sent
  | some success => exact sent.trans (land_kept _ _)

theorem submit_journaled (inv : Journaled initial s) {signed : SignedTransaction} (lands : Option Bool)
    (journal : ∃ note ∈ s.written, note.journal.signed = signed) : Journaled initial (s.submit signed lands) := by
  have sent : Journaled initial {s with submitted := s.submitted ++ [signed]} := by
    refine ⟨inv.carries,inv.origin,?_,?_,inv.counted⟩
    · intro other member
      rcases List.mem_append.mp member with old | new
      · exact inv.sent other old
      · rw [List.mem_singleton.mp new]
        exact journal
    · intro digest success found
      rcases inv.landed digest success found with old | ⟨other,member,same⟩
      · exact .inl old
      · exact .inr ⟨other,List.mem_append_left _ member,same⟩
  cases lands with
  | none => exact sent
  | some success => exact land_journaled sent success ⟨signed,List.mem_append_right _ List.mem_cons_self,rfl⟩

theorem begin_kept (worker : Nat) (journal : Option String) : Kept s (s.begin_ worker journal) := by
  cases journal with
  | none => exact ⟨fun _ => id,fun _ => id,fun _ _ => id⟩
  | some raw => exact ⟨fun _ => id,fun _ => List.mem_append_left _,fun _ _ => id⟩

theorem begin_journaled (inv : Journaled initial s) (worker : Nat) (journal : Option String) :
    Journaled initial (s.begin_ worker journal) := by
  have kept := begin_kept (s:=s) worker journal
  cases journal with
  | some raw =>
    exact ⟨inv.carries,fun note member => (inv.origin note member).imp kept.made kept.resumed,inv.sent,inv.landed,
      inv.counted⟩
  | none =>
    refine ⟨inv.carries,inv.origin,inv.sent,inv.landed,?_⟩
    have one := tickets_upsert s.tickets worker
    have counted := inv.counted
    change s.fresh.length + tickets (s.tickets.upsert worker ()) ≤ s.begun + 1
    omega

theorem write_kept (worker : Nat) (path : String) (members : Json.Members) (note : Option (Note kit)) :
    Kept s (s.write worker path members note) := by
  cases note with
  | none => exact ⟨fun _ => id,fun _ => id,fun _ _ => id⟩
  | some note => exact ⟨fun _ => List.mem_append_left _,fun _ => id,fun _ _ => id⟩

theorem write_fresh (worker : Nat) (path : String) (members : Json.Members) (note : Note kit) :
    (s.write worker path members (some note)).fresh = s.fresh ++ if note.fresh then [note] else [] := by
  rw [World.fresh,World.write,List.filter_append,List.filter_singleton]
  cases note.fresh <;> rfl

theorem write_journaled (inv : Journaled initial s) {worker : Nat} {path : String} {members : Json.Members}
    {note : Option (Note kit)} (allowed : MayCall s worker (.writeJournal path members note)) :
    Journaled initial (s.write worker path members note) := by
  have kept := write_kept (s:=s) worker path members note
  cases note with
  | none => exact ⟨inv.carries,inv.origin,inv.sent,inv.landed,inv.counted⟩
  | some note =>
    obtain ⟨_,carries,normal,ticket,other⟩ := allowed
    have there : note ∈ (s.write worker path members (some note)).written :=
      List.mem_append_right _ List.mem_cons_self
    refine ⟨?_,?_,?_,inv.landed,?_⟩
    · intro one member
      rcases List.mem_append.mp member with old | new
      · exact inv.carries one old
      · rw [List.mem_singleton.mp new]
        exact ⟨carries,normal⟩
    · intro one member
      rcases List.mem_append.mp member with old | new
      · exact (inv.origin one old).imp kept.made kept.resumed
      · rw [List.mem_singleton.mp new]
        cases first : note.fresh with
        | true => exact .inl ⟨note,there,first,rfl⟩
        | false =>
          rcases other first with ⟨earlier,before,same⟩ | resumed
          · rw [← same]
            exact (inv.origin earlier before).imp kept.made kept.resumed
          · exact .inr (kept.resumed resumed)
    · intro signed member
      obtain ⟨one,before,same⟩ := inv.sent signed member
      exact ⟨one,kept.written one before,same⟩
    · have counted := inv.counted
      rw [write_fresh,List.length_append]
      cases first : note.fresh with
      | false =>
        simp only [World.write,first,if_neg Bool.false_ne_true,List.length_nil,Nat.add_zero]
        exact counted
      | true =>
        have one := tickets_erase (ticket first)
        simp only [World.write,first,if_true,List.length_cons,List.length_nil]
        omega

theorem serve_kept (worker : Nat) (op : Op kit) (c : Choice kit) : Kept s (serve s worker op c).1 := by
  cases op with
  | journalJson => exact begin_kept worker c.journal
  | writeJournal path members note =>
    simp only [serve]
    split
    · exact write_kept worker path members note
    · exact .refl s
  | executeTransaction signed =>
    simp only [serve]
    split
    · exact submit_kept signed c.lands
    · exact .refl s
  | _ => exact .refl s

theorem serve_journaled (inv : Journaled initial s) {worker : Nat} {op : Op kit} (allowed : MayCall s worker op)
    (c : Choice kit) : Journaled initial (serve s worker op c).1 := by
  cases op with
  | journalJson => exact begin_journaled inv worker c.journal
  | writeJournal path members note =>
    simp only [serve]
    split
    · exact write_journaled inv allowed
    · exact inv
  | executeTransaction signed =>
    obtain ⟨note,member,same,_⟩ := allowed
    simp only [serve]
    split
    · exact submit_journaled inv c.lands ⟨note,member,same⟩
    · exact inv
  | _ => exact inv

theorem write_tickets (worker : Nat) (path : String) (members : Json.Members) (note : Option (Note kit)) {other : Nat}
    (different : other ≠ worker) : (s.write worker path members note).tickets.get? other = s.tickets.get? other := by
  cases note with
  | none => rfl
  | some note =>
    simp only [World.write]
    split
    · rw [Store.get?_erase,if_neg different]
    · rfl

theorem submit_tickets (signed : SignedTransaction) (lands : Option Bool) :
    (s.submit signed lands).tickets = s.tickets := by
  cases lands with
  | none => rfl
  | some success => exact (land_rest _ _).2.2.2.2

theorem serve_tickets (worker : Nat) (op : Op kit) (c : Choice kit) {other : Nat} (different : other ≠ worker) :
    (serve s worker op c).1.tickets.get? other = s.tickets.get? other := by
  cases op with
  | journalJson =>
    cases given : c.journal with
    | none => simp only [serve,World.begin_,given,Store.get?_upsert,if_neg different]
    | some raw => simp only [serve,World.begin_,given]
  | writeJournal path members note =>
    simp only [serve]
    split
    · exact write_tickets worker path members note different
    · rfl
  | executeTransaction signed =>
    simp only [serve]
    split
    · rw [submit_tickets]
    · rfl
  | _ => rfl

theorem happen_kept (event : Event) : Kept s (happen s event) ∧ (happen s event).tickets = s.tickets := by
  cases event with
  | lands digest success =>
    simp only [happen]
    split
    · exact ⟨land_kept digest success,(land_rest digest success).2.2.2.2⟩
    · exact ⟨.refl s,rfl⟩
  | _ => exact ⟨⟨fun _ => id,fun _ => id,fun _ _ => id⟩,rfl⟩

theorem happen_journaled (inv : Journaled initial s) (event : Event) : Journaled initial (happen s event) := by
  cases event with
  | lands digest success =>
    simp only [happen]
    split
    · rename_i sent
      exact land_journaled inv success (List.mem_map.mp sent)
    · exact inv
  | _ => exact ⟨inv.carries,inv.origin,inv.sent,inv.landed,inv.counted⟩

end Effects
end Logs

-- The programs keep to their terms.
section Programs
variable (kit : ScriptKit) (initial : Store String Bool)

def payoutTerms : Terms (operators kit).service where
  Inv := Journaled initial
  Rely := Later
  Allowed := MayCall
  Given _ _ _ _ := True
  refl _ s := ⟨.refl s,rfl⟩
  trans _ _ _ _ first second := ⟨first.toKept.trans second.toKept,second.ticket.trans first.ticket⟩
  serves s k op c inv allowed _ :=
    ⟨serve_journaled inv allowed c,fun _ different => ⟨serve_kept k op c,serve_tickets k op c different⟩⟩
  abandons s k inv := by
    refine ⟨⟨inv.carries,inv.origin,inv.sent,inv.landed,?_⟩,fun j different => ⟨⟨fun _ => id,fun _ => id,fun _ _ => id⟩,?_⟩⟩
    · have fewer := tickets_fewer s.tickets k
      have counted := inv.counted
      change s.fresh.length + tickets (s.tickets.erase k) ≤ s.begun
      omega
    · change (s.tickets.erase k).get? j = s.tickets.get? j
      rw [Store.get?_erase,if_neg different]

variable {kit initial} {α β : Type} {k : Nat} {s : World kit}

def Still : Op kit → Prop
  | .journalJson => False
  | .writeJournal _ _ _ => False
  | .executeTransaction _ => False
  | .print _ _ => False
  | _ => True

theorem serve_still {op : Op kit} (still : Still op) (c : Choice kit) :
    (serve s k op c).1 = s ∧ MayCall s k op := by
  cases op with
  | journalJson => cases still
  | writeJournal path members note => cases still
  | executeTransaction signed => cases still
  | print digest deferred => cases still
  | _ => exact ⟨rfl,trivial⟩

theorem still_bind {post : Except String α → World kit → Prop} (op : Op kit) (still : Still op)
    {next : Answer kit op → Script kit α}
    (rest : ∀ c now, Later k s now → Journaled initial now →
      Keeps (payoutTerms kit initial) k post (next (serve now k op c).2) now) :
    Keeps (payoutTerms kit initial) k post (call op >>= next) s := by
  intro now since inv
  refine ⟨(serve_still still {}).2,fun c _ => ?_⟩
  have same := (serve_still (s:=now) (k:=k) still c).1
  have tail := rest c now since inv
  change Keeps _ _ _ (next (serve now k op c).2) (serve now k op c).1
  rw [same]
  exact tail

theorem check_bind {post : Except String β → World kit → Prop} {result : Except String α} {next : α → Script kit β}
    (ok : ∀ value, result = .ok value → Keeps (payoutTerms kit initial) k post (next value) s)
    (failed : ∀ message, post (.error message) s) :
    Keeps (payoutTerms kit initial) k post (check kit result >>= next) s :=
  Keeps.orFail_bind ok (fun message _ => failed message)

-- What entitles a run to write a journal: the one it was given, or that it was
-- given none.
def Entitled (s : World kit) (worker : Nat) : Option String → Prop
  | some raw => raw ∈ s.supplied
  | none => s.tickets.get? worker = some ()

theorem Entitled.later {now : World kit} (since : Later k s now) {raw : Option String} (entitled : Entitled s k raw) :
    Entitled now k raw := by
  cases raw with
  | some raw => exact since.supplied raw entitled
  | none => exact since.ticket.trans entitled

theorem begin_entitled (s : World kit) (k : Nat) (journal : Option String) : Entitled (s.begin_ k journal) k journal := by
  cases journal with
  | some raw => exact List.mem_append_right _ List.mem_cons_self
  | none => simp only [Entitled,World.begin_,Store.get?_upsert,if_true]

structure Ready.Sound (ready : Ready kit) : Prop where
  normal : ready.run.intent.Normal kit
  writers : ready.run.intent.writers = ready.writers

variable (kit) in
def Reconciled (writers : WriterAddresses) (snapshot : LiveWriterSnapshot) : Prop :=
  snapshot.WellFormed kit ∧ assertSnapshotMatchesWriters writers snapshot = .ok ()

theorem reconcile_keeps (documented : kit.Documented) (writers : WriterAddresses) (liveWriters : String) :
    Keeps (payoutTerms kit initial) k
      (fun result now => (∀ snapshot, result = .ok snapshot → Reconciled kit writers snapshot) ∧ Later k s now)
      (reconcile kit writers liveWriters) s := by
  apply still_bind .now trivial
  intro c now since inv
  refine Keeps.orFail ?_ (fun message _ => ⟨?_,since⟩)
  · intro snapshot read
    refine ⟨?_,since⟩
    intro other same
    cases same
    simp only [reconcileLiveWriters,Fallible.bind_ok,Fallible.pure_ok] at read
    obtain ⟨_,parsed,_,matched,rfl⟩ := read
    exact ⟨parsed_wellFormed documented parsed,matched⟩
  · intro snapshot bad
    cases bad

theorem initialSnapshot_keeps (documented : kit.Documented) (inv : Journaled initial s) (settings : Settings)
    (writers : WriterAddresses) :
    Keeps (payoutTerms kit initial) k (fun _ now => Later k s now) (initialSnapshot kit settings writers) s := by
  have refl := (payoutTerms kit initial).refl k s
  unfold initialSnapshot
  split
  · rename_i liveWriters given
    apply Keeps.bind inv (reconcile_keeps documented writers liveWriters)
    · intro snapshot now _ known
      exact known.2
    · intro message now _ known
      exact known.2
  · exact check_bind (fun _ _ => refl) (fun _ => refl)

theorem start_keeps (documented : kit.Documented) (environment : Environment) :
    Keeps (payoutTerms kit initial) k (fun result now => ∀ ready, result = .ok ready →
      ready.Sound ∧ Entitled now k ready.settings.resumeJournalRaw) (start kit environment) s := by
  intro now since inv
  refine ⟨trivial,fun c _ => ?_⟩
  have entitled := begin_entitled now k c.journal
  have begun := begin_journaled inv k c.journal
  change Keeps _ _ _ _ (now.begin_ k c.journal)
  generalize now.begin_ k c.journal = s at entitled begun
  refine check_bind ?_ (fun _ _ bad => by cases bad)
  intro settings read
  obtain ⟨sound,raw⟩ := readSettings_sound read
  change settings.resumeJournalRaw = c.journal at raw
  rw [← raw] at entitled
  refine still_bind (.readManifest settings.network) trivial (fun c now since inv => ?_)
  replace entitled := entitled.later since
  refine check_bind ?_ (fun _ _ bad => by cases bad)
  intro text _
  refine check_bind ?_ (fun _ _ bad => by cases bad)
  intro writers parsed
  have payable := parsed_payable documented parsed
  refine check_bind ?_ (fun _ _ bad => by cases bad)
  intro recipients _
  refine Keeps.bind inv (initialSnapshot_keeps documented inv settings writers) ?_ (fun _ _ _ _ _ bad => by cases bad)
  intro snapshot now inv since
  replace entitled := entitled.later since
  refine check_bind ?_ (fun _ _ bad => by cases bad)
  intro address _
  refine still_bind (.walType settings.network) trivial (fun c now since inv => ?_)
  replace entitled := entitled.later since
  refine check_bind ?_ (fun _ _ bad => by cases bad)
  intro walType _
  refine check_bind ?_ (fun _ _ bad => by cases bad)
  intro run made ready same
  cases same
  obtain ⟨normal,same⟩ := makeIntent_normal documented sound payable made
  exact ⟨⟨normal,same⟩,entitled⟩

end Programs

-- The journals that the script derives from one that carries its run carry it too.
section Derived
variable {kit : ScriptKit} {run : RunIntent kit} {journal : FundingJournal kit}

-- A member can be set unless it is one of those that stay, and a new status or a
-- new snapshot has to be a good one.
theorem FundingJournal.Carries.assign (carries : journal.Carries run) (key : String) (value : Json)
    (other : "transaction" ≠ key) (free : key ∉ ["schemaVersion","kind","intent"])
    (status : key = "status" → value.text ∈ resumable)
    (live : key = "liveSnapshot" → ∃ snapshot : LiveWriterSnapshot, value = snapshot.json ∧
      Reconciled kit run.intent.writers snapshot) : (journal.assign key value other).Carries run := by
  simp only [List.mem_cons,List.not_mem_nil,or_false,not_or] at free
  obtain ⟨version,kind,intent⟩ := free
  refine ⟨?_,?_,?_,?_,?_,carries.accepted⟩
  · rw [FundingJournal.assign,Json.field_assign_other (Ne.symm version)]
    exact carries.version
  · rw [FundingJournal.assign,Json.field_assign_other (Ne.symm kind)]
    exact carries.kind
  · change (Json.field "status" (Json.assign key value journal.members)).elim "undefined" Json.text ∈ resumable
    by_cases same : key = "status"
    · rw [same,Json.field_assign]
      exact status same
    · rw [Json.field_assign_other (Ne.symm same)]
      exact carries.status
  · rw [FundingJournal.assign,Json.field_assign_other (Ne.symm intent)]
    exact carries.intent
  · change ∃ snapshot, Json.field "liveSnapshot" (Json.assign key value journal.members) = _ ∧ _
    by_cases same : key = "liveSnapshot"
    · obtain ⟨snapshot,equal,wellFormed,matched⟩ := live same
      rw [same,Json.field_assign,equal]
      exact ⟨snapshot,rfl,wellFormed,matched⟩
    · rw [Json.field_assign_other (Ne.symm same)]
      exact carries.snapshot

theorem observed_carries (carries : journal.Carries run) (source updatedAt observedAt : String) (success : Bool)
    (error : Option Json) : (observedJournal kit journal source updatedAt observedAt success error).Carries run := by
  have known : (Json.string (if success then "succeeded" else "failed")).text ∈ resumable := by
    cases success <;> decide
  have marked := carries.assign "status" _ (by decide) (by decide) (fun _ => known) (fun bad => absurd bad (by decide))
  have timed := marked.assign "updatedAt" (.string updatedAt) (by decide) (by decide)
    (fun bad => absurd bad (by decide)) (fun bad => absurd bad (by decide))
  exact timed.assign "execution" _ (by decide) (by decide) (fun bad => absurd bad (by decide))
    (fun bad => absurd bad (by decide))

theorem resumed_carries (carries : journal.Carries run) (now : String) {snapshot : LiveWriterSnapshot}
    (reconciled : Reconciled kit run.intent.writers snapshot) :
    ((journal.assign "updatedAt" (.string now) (by decide)).assign "liveSnapshot" snapshot.json (by decide)).Carries run := by
  have timed := carries.assign "updatedAt" (.string now) (by decide) (by decide)
    (fun bad => absurd bad (by decide)) (fun bad => absurd bad (by decide))
  exact timed.assign "liveSnapshot" _ (by decide) (by decide) (fun bad => absurd bad (by decide))
    (fun _ => ⟨snapshot,rfl,reconciled⟩)

theorem prepared_carries (now : String) {snapshot : LiveWriterSnapshot}
    (reconciled : Reconciled kit run.intent.writers snapshot) {signed : SignedTransaction}
    (accepted : signed.Accepted kit run) : (preparedJournal kit now run.intent snapshot signed).Carries run := by
  refine ⟨?_,?_,?_,?_,⟨snapshot,?_,reconciled.1,reconciled.2⟩,accepted⟩
  · simp only [preparedJournal,Json.field,if_true]
    exact isInteger_nat (by decide)
  all_goals simp [preparedJournal,FundingJournal.status,Json.field,isText,Json.text,resumable]

theorem sign_accepted {ready : Ready kit} {bytes : Bytes} {signed : SignedTransaction}
    (made : sign kit ready bytes = .ok signed) : signed.Accepted kit ready.run := by
  simp only [sign,Fallible.bind_ok,Fallible.pure_ok,Fallible.ensure_ok,exists_const] at made
  obtain ⟨data,pays,verified,rfl⟩ := made
  exact ⟨rfl,⟨data,pays⟩,verified⟩

-- What a node says of a digest is so.
def Reported (digest : String) (result : Option Observed) (s : World kit) : Prop :=
  ∀ tx, result = some tx → tx.digest = some digest → tx.success = some true → s.chain.get? digest = some true

theorem known_reported (s : World kit) (digest : String) (error : Option Json) :
    Reported digest (s.known digest error) s := by
  intro tx answered _ success
  obtain ⟨value,found,rfl⟩ := Option.map_eq_some_iff.mp answered
  cases success
  exact found

theorem lookUp_reported {s : World kit} {digest : String} {error : Option Json} {lookup : Lookup}
    {result : Option Observed} (answered : s.lookUp digest error lookup = .ok (some result)) :
    Reported digest result s := by
  cases lookup with
  | answered =>
    simp only [World.lookUp] at answered
    split at answered
    · rename_i observed known
      cases answered
      rw [← known]
      exact known_reported s digest error
    · cases answered
  | behind => cases answered
  | nothing => cases answered
  | failed error => cases answered
  | other foreign =>
    cases answered
    split
    · exact known_reported s digest error
    · rename_i different
      intro tx equal same
      rw [equal] at different
      exact absurd same different

theorem executed_reported {s : World kit} {signed : SignedTransaction} {c : Choice kit} {result : Option Observed}
    (answered : s.executed signed c = .ok result) : Reported (kit.digestOf signed.bytes) result s := by
  unfold World.executed at answered
  split at answered
  · cases answered
  · split at answered
    · rename_i observed known
      cases answered
      split
      · intro tx bad
        cases bad
      · rw [← known]
        exact known_reported s _ c.error
    · cases answered

end Derived

section Calls
variable {kit : ScriptKit} {initial : Store String Bool} {k : Nat} {s : World kit} {run : RunIntent kit}
  {journal : FundingJournal kit}

theorem writeJournal_keeps (path : String) (fresh : Bool) (carries : journal.Carries run)
    (normal : run.intent.Normal kit) (ticket : fresh = true → s.tickets.get? k = some ())
    (other : fresh = false → Written s journal.signed.bytes ∨ Resumed s journal.signed.bytes) :
    Keeps (payoutTerms kit initial) k
      (fun result now => (∀ done, result = .ok done → ⟨fresh,run,journal⟩ ∈ now.written) ∧ Kept s now)
      (writeJournal kit path journal run fresh) s := by
  intro now since inv
  have later : fresh = false → Written now journal.signed.bytes ∨ Resumed now journal.signed.bytes :=
    fun first => (other first).imp since.wrote since.resumed
  refine ⟨⟨rfl,carries,normal,fun first => since.ticket.trans (ticket first),later⟩,fun c _ => ?_⟩
  have kept := since.toKept.trans (serve_kept k (.writeJournal path journal.members (some ⟨fresh,run,journal⟩)) c)
  refine Keeps.orFail ?_ (fun _ _ => ⟨fun _ bad => (by cases bad),kept⟩)
  intro done answered
  refine ⟨fun _ _ => ?_,kept⟩
  change answer c.failure () = _ at answered
  change _ ∈ (serve now k (.writeJournal path journal.members (some ⟨fresh,run,journal⟩)) c).1.written
  cases failed : c.failure with
  | some message =>
    rw [failed] at answered
    cases answered
  | none =>
    simp only [serve,failed,Option.isNone_none,Bool.true_or,if_true]
    exact List.mem_append_right _ List.mem_cons_self

theorem definitive_same {result : Option Observed} {found : Bool × Option Json}
    (checked : definitive kit journal result = .ok found) :
    ∃ tx, result = some tx ∧ tx.digest = some journal.signed.digest := by
  simp only [definitive,Fallible.bind_ok,Fallible.require_ok,Fallible.ensure_ok,exists_const] at checked
  obtain ⟨tx,there,same,_⟩ := checked
  exact ⟨tx,there,same⟩

theorem requireSuccess_success {result : Option Observed} {context : String} {tx : Observed}
    (checked : requireSuccess kit result context = .ok tx) : result = some tx ∧ tx.success = some true := by
  simp only [requireSuccess,Fallible.bind_ok,Fallible.require_ok,Fallible.ensure_ok,Fallible.pure_ok,exists_const] at checked
  obtain ⟨other,there,success,rfl⟩ := checked
  exact ⟨there,success⟩

theorem recordObserved_keeps (path source : String) (result : Option Observed) (carries : journal.Carries run)
    (normal : run.intent.Normal kit) (written : Written s journal.signed.bytes) :
    Keeps (payoutTerms kit initial) k (fun outcome now => (∀ observed, outcome = .ok observed →
        observed.signed = journal.signed ∧ ∃ tx, result = some tx ∧ tx.digest = some journal.signed.digest) ∧ Kept s now)
      (recordObservedTransaction kit path run journal result source) s := by
  refine check_bind ?_ (fun _ => ⟨fun _ bad => (by cases bad),.refl s⟩)
  intro found checked
  apply still_bind .now trivial
  intro c now since inv
  apply still_bind .now trivial
  intro c later more inv
  have kept := since.toKept.trans more.toKept
  refine Keeps.bind inv (writeJournal_keeps path false (observed_carries carries source _ _ found.1 found.2) normal
    (fun bad => by cases bad) (fun _ => .inl (kept.wrote written))) ?_ ?_
  · intro _ after _ known
    refine ⟨?_,kept.trans known.2⟩
    intro observed same
    cases same
    exact ⟨rfl,definitive_same checked⟩
  · intro message after _ known
    exact ⟨fun _ bad => (by cases bad),kept.trans known.2⟩

theorem submit_bind {α : Type} {post : Except String α → World kit → Prop} {signed : SignedTransaction}
    {next : Except String (Option Observed) → Script kit α}
    (journaled : ∃ note ∈ s.written, note.journal.signed = signed ∧ isText note.journal.status "prepared" = true)
    (rest : ∀ outcome now, Journaled initial now → Kept s now →
      (∀ result, outcome = .ok result → Reported (kit.digestOf signed.bytes) result now) →
      Keeps (payoutTerms kit initial) k post (next outcome) now) :
    Keeps (payoutTerms kit initial) k post (call (.executeTransaction signed) >>= next) s := by
  intro now since inv
  obtain ⟨note,member,known⟩ := journaled
  have allowed : MayCall now k (.executeTransaction signed) := ⟨note,since.written note member,known⟩
  refine ⟨allowed,fun c _ => ?_⟩
  have kept := since.toKept.trans (serve_kept k (.executeTransaction signed) c)
  exact rest _ _ (serve_journaled inv allowed c) kept (fun result answered => executed_reported answered)

-- What a run ends with is on the chain.
theorem reconcileAndExecute_keeps (path : String) (carries : journal.Carries run)
    (normal : run.intent.Normal kit) {fresh : Bool} (written : ⟨fresh,run,journal⟩ ∈ s.written)
    {beforeSubmit : Script kit Unit}
    (quiet : ∀ now, Journaled initial now →
      Keeps (payoutTerms kit initial) k (fun _ after => Kept now after) beforeSubmit now) :
    Keeps (payoutTerms kit initial) k
      (fun result now => ∀ digest, result = .ok digest → now.chain.get? digest = some true)
      (reconcileAndExecuteFunding kit path run journal beforeSubmit) s := by
  have same := carries.accepted.digest
  unfold reconcileAndExecuteFunding
  apply still_bind (.getTransaction journal.signed.digest) trivial
  intro c now since inv
  replace written := since.written _ written
  split
  · rename_i existing answered
    have reported : Reported journal.signed.digest existing now := lookUp_reported answered
    refine Keeps.bind inv (recordObserved_keeps path "query" existing carries normal ⟨_,written,rfl⟩) ?_
      (fun _ _ _ _ _ bad => by cases bad)
    intro observed after inv known
    obtain ⟨equal,tx,there,named⟩ := known.1 observed rfl
    refine check_bind ?_ (fun _ _ bad => by cases bad)
    intro other checked
    obtain ⟨again,success⟩ := requireSuccess_success checked
    cases again.symm.trans there
    intro digest result
    cases result
    rw [equal]
    exact known.2.landed _ _ (reported tx there named success)
  · intro digest bad
    cases bad
  · split
    · refine check_bind ?_ (fun _ _ bad => by cases bad)
      intro _ prepared
      replace prepared := (Fallible.ensure_ok).mp prepared
      refine Keeps.bind inv (quiet now inv) ?_ (fun _ _ _ _ _ bad => by cases bad)
      intro _ after inv kept
      replace written := kept.written _ written
      refine submit_bind ⟨_,written,rfl,prepared⟩ (fun outcome later inv kept reported => ?_)
      replace written := kept.written _ written
      split
      · intro digest bad
        cases bad
      · rename_i result
        have said := reported result rfl
        rw [← same] at said
        refine Keeps.bind inv (Keeps.attempt (recordObserved_keeps path "submit" result carries normal ⟨_,written,rfl⟩))
          ?_ ?_
        · intro inner after inv known
          obtain ⟨_,equal,recorded,kept⟩ := known
          cases equal
          cases inner with
          | error cause =>
            intro digest bad
            cases bad
          | ok observed =>
            obtain ⟨equal,tx,there,named⟩ := recorded observed rfl
            refine check_bind ?_ (fun _ _ bad => by cases bad)
            intro other checked
            obtain ⟨again,success⟩ := requireSuccess_success checked
            cases again.symm.trans there
            intro digest result
            cases result
            rw [equal]
            exact kept.landed _ _ (said tx there named success)
        · intro message after _ _ digest bad
          cases bad
    · intro digest bad
      cases bad

theorem reconcileAgain_quiet (documented : kit.Documented) (ready : Ready kit) (now : World kit)
    (inv : Journaled initial now) : Keeps (payoutTerms kit initial) k (fun _ after => Kept now after) (do
      let _ ← reconcileAgain kit ready
      return ()) now := by
  refine Keeps.bind inv (reconcile_keeps documented _ _) ?_ (fun _ _ _ known => known.2.toKept)
  intro _ after _ known
  exact known.2.toKept

-- The tail of both ways through `main`.
theorem finish_keeps (documented : kit.Documented) {ready : Ready kit} (inv : Journaled initial s)
    (carries : journal.Carries ready.run) (normal : ready.run.intent.Normal kit) {fresh : Bool}
    (written : ⟨fresh,ready.run,journal⟩ ∈ s.written) :
    Keeps (payoutTerms kit initial) k (fun _ _ => True) (if ready.settings.prepareOnly = true then do
        call (.print journal.signed.digest true)
        return some journal.signed.digest
      else do
        let digest ← reconcileAndExecuteFunding kit ready.settings.journalPath ready.run journal (do
          let _ ← reconcileAgain kit ready
          return ())
        call (.print digest false)
        return some digest) s := by
  split
  · exact fun now since _ => ⟨⟨_,since.written _ written,rfl⟩,fun _ _ => trivial⟩
  · refine Keeps.bind inv (reconcileAndExecute_keeps ready.settings.journalPath carries normal written
      (reconcileAgain_quiet documented ready)) ?_ (fun _ _ _ _ => trivial)
    intro digest after _ paid
    exact fun now since _ => ⟨since.landed _ _ (paid digest rfl),fun _ _ => trivial⟩

theorem resume_keeps (documented : kit.Documented) {ready : Ready kit} (sound : ready.Sound) {raw : String}
    (entitled : raw ∈ s.supplied) : Keeps (payoutTerms kit initial) k (fun _ _ => True) (resume kit ready raw) s := by
  refine still_bind .now trivial (fun c now since inv => ?_)
  replace entitled := since.supplied raw entitled
  refine check_bind ?_ (fun _ => trivial)
  intro prepared parsed
  have carries : prepared.Carries ready.run := parsed_carries documented parsed
  refine Keeps.bind inv (reconcile_keeps documented _ _) ?_ (fun _ _ _ _ => trivial)
  intro snapshot after inv known
  have reconciled := known.1 snapshot rfl
  rw [← sound.writers] at reconciled
  replace entitled := known.2.supplied raw entitled
  refine still_bind .now trivial (fun c later since inv => ?_)
  replace entitled := since.supplied raw entitled
  have renewed := resumed_carries carries (kit.isoText (serve later k (.now : Op kit) c).2) reconciled
  refine Keeps.bind inv (writeJournal_keeps _ false renewed sound.normal (fun bad => by cases bad)
    (fun _ => .inr ⟨raw,entitled,_,_,_,parsed,rfl⟩)) ?_ (fun _ _ _ _ => trivial)
  intro done final inv wrote
  exact finish_keeps documented inv renewed sound.normal (wrote.1 done rfl)

theorem checkBalances_keeps (ready : Ready kit) :
    Keeps (payoutTerms kit initial) k (fun _ now => Later k s now) (checkBalances kit ready) s := by
  refine still_bind (.balance _ _) trivial (fun c now since inv => ?_)
  refine check_bind ?_ (fun _ => since)
  intro sui _
  refine still_bind (.balance _ _) trivial (fun c later more inv => ?_)
  have after := (payoutTerms kit initial).trans k s now later since more
  refine check_bind ?_ (fun _ => after)
  intro wal _
  refine check_bind ?_ (fun _ => after)
  intro _ _
  exact Keeps.orFail (fun _ _ => after) (fun _ _ => after)

theorem payOut_keeps (documented : kit.Documented) {ready : Ready kit} (inv : Journaled initial s) (sound : ready.Sound)
    (entitled : s.tickets.get? k = some ()) : Keeps (payoutTerms kit initial) k (fun _ _ => True) (payOut kit ready) s := by
  refine Keeps.bind inv (checkBalances_keeps ready) ?_ (fun _ _ _ _ => trivial)
  intro _ now inv since
  replace entitled := since.ticket.trans entitled
  refine still_bind (.build _) trivial (fun c now since inv => ?_)
  replace entitled := since.ticket.trans entitled
  refine check_bind ?_ (fun _ => trivial)
  intro bytes _
  refine still_bind (.simulate bytes) trivial (fun c now since inv => ?_)
  replace entitled := since.ticket.trans entitled
  refine check_bind ?_ (fun _ => trivial)
  intro sim _
  refine check_bind ?_ (fun _ => trivial)
  intro _ _
  split
  · refine still_bind .now trivial (fun c now since inv => ?_)
    exact fun later _ _ => ⟨trivial,fun c _ => Keeps.orFail_bind (fun _ _ => trivial) (fun _ _ => trivial)⟩
  · refine Keeps.bind inv (reconcile_keeps documented _ _) ?_ (fun _ _ _ _ => trivial)
    intro snapshot now inv known
    replace entitled := known.2.ticket.trans entitled
    have reconciled := known.1 snapshot rfl
    rw [← sound.writers] at reconciled
    refine check_bind ?_ (fun _ => trivial)
    intro signed made
    refine still_bind .now trivial (fun c now since inv => ?_)
    replace entitled := since.ticket.trans entitled
    have carries := prepared_carries (kit.isoText (serve now k (.now : Op kit) c).2) reconciled (sign_accepted made)
    refine Keeps.bind inv (writeJournal_keeps _ true carries sound.normal (fun _ => entitled) (fun bad => by cases bad))
      ?_ (fun _ _ _ _ => trivial)
    intro done later inv wrote
    exact finish_keeps documented inv carries sound.normal (wrote.1 done rfl)

theorem main_keeps (documented : kit.Documented) (environment : Environment) (inv : Journaled initial s) :
    Keeps (payoutTerms kit initial) k (fun _ _ => True) (main kit environment) s := by
  refine Keeps.bind inv (start_keeps documented environment) ?_ (fun _ _ _ _ => trivial)
  intro ready now inv known
  obtain ⟨sound,entitled⟩ := known ready rfl
  split
  · rename_i raw given
    rw [given] at entitled
    exact resume_keeps documented sound entitled
  · rename_i given
    rw [given] at entitled
    exact payOut_keeps documented inv sound entitled

end Calls

section Runs
variable {kit : ScriptKit}

def payoutContract (documented : kit.Documented) (initial : Store String Bool) :
    Crew.Contract (operators kit) (payoutTerms kit initial) where
  Idle _ _ := True
  stays _ _ _ _ _ := trivial
  leaves _ _ _ := trivial
  happens s event inv := by
    obtain ⟨kept,tickets⟩ := happen_kept (s:=s) event
    exact ⟨happen_journaled inv event,fun j => ⟨kept,by rw [operators,tickets]⟩⟩
  programs environment _ _ inv _ := main_keeps documented environment inv

-- Nobody has run the script yet.
structure World.Unused (s : World kit) : Prop where
  written : s.written = []
  submitted : s.submitted = []
  supplied : s.supplied = []
  begun : s.begun = 0
  tickets : s.tickets = .empty

theorem unused_journaled {s : World kit} (unused : s.Unused) : Journaled s.chain s := by
  have none_ : s.fresh = [] := by rw [World.fresh,unused.written,List.filter_nil]
  refine ⟨?_,?_,?_,fun _ _ found => .inl found,?_⟩
  · rw [unused.written]
    intro note member
    cases member
  · rw [unused.written]
    intro note member
    cases member
  · rw [unused.submitted]
    intro signed member
    cases member
  · rw [none_,unused.tickets]
    exact Nat.zero_le _

variable {s : World kit} {initial : Store String Bool}

theorem unused_sound (documented : kit.Documented) (unused : s.Unused) :
    Crew.Sound (payoutContract documented s.chain) ⟨s,.empty⟩ :=
  ⟨unused_journaled unused,fun _ _ found => (by cases found),fun _ _ => trivial⟩

-- A journal that a run is given was written by one.
def Handed (s : World kit) (_ : Nat) : Op kit → Choice kit → Prop
  | .journalJson,c => ∀ raw, c.journal = some raw → ∀ run nowMs journal,
      parseFundingJournal kit raw run nowMs = .ok journal → Written s journal.signed.bytes
  | _,_ => True

-- Then every transaction goes back to a run that was given none.
def Rooted (s : World kit) : Prop :=
  ∀ bytes, Resumed s bytes → Fresh s bytes

theorem rooted_written (inv : Journaled initial s) (rooted : Rooted s) {bytes : Bytes} (written : Written s bytes) :
    Fresh s bytes := by
  obtain ⟨note,member,rfl⟩ := written
  exact (inv.origin note member).elim id (rooted _)

theorem serve_rooted (inv : Journaled initial s) (rooted : Rooted s) {k : Nat} {op : Op kit} {c : Choice kit}
    (handed : Handed s k op c) : Rooted (serve s k op c).1 := by
  have kept := serve_kept (s:=s) k op c
  rintro bytes ⟨raw,member,run,nowMs,journal,parsed,same⟩
  have older : raw ∈ s.supplied → Fresh (serve s k op c).1 bytes :=
    fun old => kept.made (rooted bytes ⟨raw,old,run,nowMs,journal,parsed,same⟩)
  cases op with
  | journalJson =>
    cases given : c.journal with
    | none =>
      simp only [serve,World.begin_,given] at member
      exact older member
    | some text =>
      simp only [serve,World.begin_,given] at member
      rcases List.mem_append.mp member with old | new
      · exact older old
      · have written := handed text given run nowMs journal (by rw [← List.mem_singleton.mp new]; exact parsed)
        rw [same] at written
        exact kept.made (rooted_written inv rooted written)
  | writeJournal path members note =>
    refine older ?_
    simp only [serve] at member
    split at member
    · cases note <;> exact member
    · exact member
  | executeTransaction signed =>
    refine older ?_
    simp only [serve] at member
    split at member
    · cases lands : c.lands with
      | none =>
        rw [lands] at member
        exact member
      | some success =>
        rw [lands,World.submit,(land_rest _ _).2.2.1] at member
        exact member
    · exact member
  | _ => exact older member

theorem happen_rooted (rooted : Rooted s) (event : Event) : Rooted (happen s event) := by
  have kept := (happen_kept (s:=s) event).1
  rintro bytes ⟨raw,member,accepted⟩
  refine kept.made (rooted bytes ⟨raw,?_,accepted⟩)
  cases event with
  | lands digest success =>
    simp only [happen] at member
    split at member
    · rw [(land_rest _ _).2.2.1] at member
      exact member
    · exact member
  | _ => exact member

theorem unused_rooted (unused : s.Unused) : Rooted s := by
  rintro bytes ⟨raw,member,_⟩
  rw [unused.supplied] at member
  cases member

-- Any number of runs, resumed and interrupted anywhere. Nothing is sent that is not
-- in a journal on the disk, what is printed as paid is on the chain, and when runs
-- resume only what a run has written there are no more payouts than runs that
-- resumed nothing.
theorem payouts_journaled (kit : ScriptKit) (documented : kit.Documented) (s : World kit) (unused : s.Unused)
    (moves : List (Move Environment (Choice kit) Event)) (i : Nat) :
    let w := Runs.before (operators kit).exec ⟨s,.empty⟩ moves i
    (∀ note ∈ w.shared.written, note.journal.Carries note.run ∧ note.run.intent.Normal kit) ∧
    (∀ move worker signed choice,
      Crew.served w (move : Move Environment (Choice kit) Event) = some (worker,.executeTransaction signed,choice) →
      ∃ note ∈ w.shared.written, note.journal.signed = signed ∧ isText note.journal.status "prepared" = true) ∧
    (∀ move worker digest choice,
      Crew.served w (move : Move Environment (Choice kit) Event) = some (worker,.print digest false,choice) →
      w.shared.chain.get? digest = some true) ∧
    (Crew.Assumed (operators kit) Handed ⟨s,.empty⟩ moves → ∃ payouts : List String,
      payouts.length ≤ w.shared.begun ∧
      (∀ signed ∈ w.shared.submitted, kit.digestOf signed.bytes ∈ payouts) ∧
      ∀ digest success, w.shared.chain.get? digest = some success →
        s.chain.get? digest = some success ∨ digest ∈ payouts) := by
  intro w
  have sound := unused_sound documented unused
  have inv : Journaled s.chain w.shared := (Crew.sound_before (fun _ _ _ _ => trivial) sound i).inv
  refine ⟨inv.carries,?_,?_,?_⟩
  · intro move worker signed choice call
    exact Crew.allowed_at (fun _ _ _ _ => trivial) sound call
  · intro move worker digest choice call
    exact Crew.allowed_at (fun _ _ _ _ => trivial) sound call
  · intro handed
    have rooted : Rooted w.shared := Crew.invariant (fun _ _ _ _ => trivial) sound handed (unused_rooted unused)
      (fun _ _ _ _ inv _ given held => serve_rooted inv held given) (fun _ _ _ held => held)
      (fun _ event _ held => happen_rooted held event) i
    have sent : ∀ signed ∈ w.shared.submitted,
        kit.digestOf signed.bytes ∈ w.shared.fresh.map (fun note => kit.digestOf note.journal.signed.bytes) := by
      intro signed member
      obtain ⟨note,written,rfl⟩ := inv.sent signed member
      obtain ⟨first,there,fresh,same⟩ := rooted_written inv rooted ⟨note,written,rfl⟩
      rw [← same]
      exact List.mem_map_of_mem (List.mem_filter.mpr ⟨there,fresh⟩)
    refine ⟨_,?_,sent,?_⟩
    · rw [List.length_map]
      exact Nat.le_trans (Nat.le_add_right _ _) inv.counted
    · intro digest success found
      rcases inv.landed digest success found with old | ⟨signed,member,rfl⟩
      · exact .inl old
      · exact .inr (sent signed member)

end Runs

-- One run up to the submission, where its process dies.

def payoutTexts (text : String) : Option Json :=
  if text = layout "" (jsonOf sampleRunIntent.writers) then some (jsonOf sampleRunIntent.writers)
  else sampleTexts text

abbrev payoutKit : ScriptKit := sampleScript payoutTexts

def sampleEnvironment : Environment := fun name =>
  [("SUI_FUNDER_KEY","suiprivkey1"),("GRPC_URL","https://fullnode.mainnet.sui.io"),("MIST_PER_ADDRESS","10"),
    ("FROST_PER_ADDRESS","20"),("GAS_BUDGET","1000"),("DRY_RUN","false"),
    ("LIVE_WRITER_ADDRESSES_JSON",layout "" sampleSnapshot.json)].lookup name

def sampleChoice : Choice payoutKit where
  text := layout "" (jsonOf sampleRunIntent.writers)
  bytes := [0,0,0]
  amount := 1000000
  walType := some ⟨sampleWal,by decide +kernel,by decide +kernel,by decide +kernel⟩
  result := some ⟨none,some true,none⟩
  lands := some true

def sampleMoves : List (Move Environment (Choice payoutKit) Event) :=
  .spawn 0 sampleEnvironment :: List.replicate 14 (.step 0 sampleChoice) ++ [.crash 0]

def sampleStart : World payoutKit := {clock := 1767225660000}

theorem sampleMoves_handed : Crew.Assumed (operators payoutKit) Handed ⟨sampleStart,.empty⟩ sampleMoves := by
  intro i move worker op choice found call
  have unresumed : ∀ worker (choice : Choice payoutKit), Move.step worker choice ∈ sampleMoves → choice.journal = none := by
    intro worker choice member
    simp only [sampleMoves,List.cons_append,List.mem_cons,List.mem_append,List.mem_replicate,List.not_mem_nil] at member
    rcases member with bad | ⟨_,equal⟩ | bad | bad
    · cases bad
    · cases equal
      rfl
    · cases bad
    · cases bad
  cases move with
  | step k c =>
    have none_ := unresumed k c (List.mem_of_getElem? found)
    simp only [Crew.served] at call
    split at call
    · cases call
      cases op with
      | journalJson =>
        intro raw given
        rw [none_] at given
        cases given
      | _ => trivial
    · cases call
  | spawn k request => cases call
  | crash k => cases call
  | outside event => cases call

theorem sampleMoves_journaled : ∃ payouts : List String,
    payouts.length ≤ (Runs.before (operators payoutKit).exec ⟨sampleStart,.empty⟩ sampleMoves 16).shared.begun ∧
    ∀ signed ∈ (Runs.before (operators payoutKit).exec ⟨sampleStart,.empty⟩ sampleMoves 16).shared.submitted,
      payoutKit.digestOf signed.bytes ∈ payouts := by
  have unused : sampleStart.Unused := ⟨rfl,rfl,rfl,rfl,rfl⟩
  obtain ⟨_,_,_,bounded⟩ := payouts_journaled payoutKit (sampleScript_documented payoutTexts) sampleStart unused
    sampleMoves 16
  obtain ⟨payouts,few,sent,_⟩ := bounded sampleMoves_handed
  exact ⟨payouts,few,sent⟩

end MemWal.Funding.Payout
