import MemWal.Library.Crews
import MemWal.SecurityDelete.Preparation

namespace MemWal.SecurityDelete
open Library Library.Fallible Library.Batches

-- Two fields of an object are read from its JSON rendering, which can lack them.
structure Missing where
  blobId : Bool
  endEpoch : Bool
  deriving DecidableEq, Repr

structure Reading where
  base : Choice
  missing : ObjectId → Missing

def ObjectInfo.render (info : ObjectInfo) (missing : Missing) : ObjectInfo :=
  {info with
    blobId := if missing.blobId then none else info.blobId
    endEpoch := if missing.endEpoch then none else info.endEpoch}

def serveReading (s : System) (op : Op) (c : Reading) : System × op.Answer :=
  match op with
  | .batchGetObjects ids =>
    (s,c.base.rpc (ids.map (fun id => (s.chain.object id).map (fun info => info.render (c.missing id)))))
  | op => serve s op c.base

abbrev Call := Made System Op Reading

-- The object of a row, under the id the row has for it or its canonical form.
def Own (s : System) (key : Owner × BlobId) (id : ObjectId) : Prop :=
  ∃ row recorded, s.db.tracking.get? key = some row ∧ row.objectId = some recorded ∧
    (recorded = id ∨ canonicalSuiAddress recorded = some id)

-- A row that names an object names one with the row's blob id.
def Tracked (s : System) : Prop :=
  ∀ key id info, Own s key id → s.chain.object id = some info → info.blobId = some key.2

def Chain.Holds (c : Chain) (owner : Owner) (blobId : BlobId) : Prop :=
  ∃ id info, c.object id = some info ∧ info.blobId = some blobId ∧ sameOwner info.owner owner = true

-- The pages of one owner from the first on, up to a cursor.
inductive Paged (owner : Owner) : List Call → Option Cursor → Prop where
  | first : Paged owner [] none
  | next {scan : List Call} {cursor : Option Cursor} {call : Call} {after : Cursor} : Paged owner scan cursor →
      call.op = .listOwnedBlobs owner cursor → call.choice.base.error = none →
      call.choice.base.page.2 = some after → Paged owner (scan ++ [call]) (some after)

-- A blob that is held throughout a scan is on one of its pages.
def Complete (past : List Call) : Prop :=
  ∀ owner scan cursor (last : Call), (scan ++ [last]).Sublist past → Paged owner scan cursor →
    last.op = .listOwnedBlobs owner cursor → last.choice.base.error = none → last.choice.base.page.2 = none →
    ∀ blobId, (∀ call ∈ scan ++ [last], call.state.chain.Holds owner blobId) →
      ∃ call ∈ scan ++ [last], ∃ id, (blobId,id) ∈ call.choice.base.page.1

-- An object was read for a row when the call asked for the row's object.
def ReadFor (s : System) (key : Owner × BlobId) (id : ObjectId) (call : Call) : Prop :=
  (∃ ids, call.op = .batchGetObjects ids ∧ id ∈ ids) ∧ Own s key id

-- What the chain must have shown before a row is given up for good.
def Justified (margin : Nat) (past : List Call) (s : System) (key : Owner × BlobId) : BlobState → Prop
  | .deletedExternal => ∃ call ∈ past, ∃ id, ReadFor s key id call ∧ call.state.chain.object id = none
  | .notOwner =>
    (∃ call ∈ past, ∃ id info, ReadFor s key id call ∧ call.state.chain.object id = some info ∧
      sameOwner info.owner key.1 = false) ∨
    ∃ call ∈ past, ∃ cursor, call.op = .listOwnedBlobs key.1 cursor ∧ ¬ call.state.chain.Holds key.1 key.2
  | .expired => ∃ call ∈ past, ∃ clock ∈ past, ∃ id info end_, ReadFor s key id call ∧
      call.state.chain.object id = some info ∧ info.endEpoch = some end_ ∧ clock.op = .walrusEpoch ∧
      isAtOrBefore end_ clock.state.chain.walrusEpoch margin = true
  | .deletable | .deleting | .deleted => True

def Sanctioned (margin : Nat) (past : List Call) (s : System) : Op → Prop
  | .transact (.evict owner blobId _ toState) => Justified margin past s (owner,blobId) toState
  | .transact (.sweepMark owner blobId toState) => Justified margin past s (owner,blobId) toState
  | _ => True

-- The blob ids of the owner's objects are not left out of the answer.
def Told (owner : Owner) (call : Call) : Prop :=
  ∀ ids id info, call.op = .batchGetObjects ids → id ∈ ids → call.state.chain.object id = some info →
    sameOwner info.owner owner = true → (call.choice.missing id).blobId = false

structure Fair (told : Owner → Prop) (past : List Call) (s : System) (op : Op) (c : Reading) : Prop where
  inv : Inv s
  tracked : Tracked s
  complete : Complete (past ++ [⟨s,op,c⟩])
  told : ∀ owner, told owner → Told owner ⟨s,op,c⟩

def account (margin : Nat) (told : Owner → Prop) : Account serveReading where
  Later := Later
  Allowed := Sanctioned margin
  Given := Fair told
  refl := Later.refl
  trans := Later.trans

section Knowledge
variable {margin : Nat} {told : Owner → Prop} {past more : List Call} {s now : System} {key : Owner × BlobId}
  {id : ObjectId}

theorem Own.later (own : Own s key id) (since : Later s now) : Own now key id := by
  obtain ⟨row,recorded,found,known,same⟩ := own
  obtain ⟨new,stored,kept⟩ := since.rows key row recorded found known
  exact ⟨new,recorded,stored,kept,same⟩

theorem Justified.longer {toState : BlobState} (sub : past.Sublist more) (just : Justified margin past s key toState) :
    Justified margin more s key toState := by
  cases toState with
  | deletable => trivial
  | deleting => trivial
  | deleted => trivial
  | deletedExternal =>
    obtain ⟨call,member,rest⟩ := just
    exact ⟨call,sub.subset member,rest⟩
  | notOwner =>
    rcases just with ⟨call,member,rest⟩ | ⟨call,member,rest⟩
    · exact .inl ⟨call,sub.subset member,rest⟩
    · exact .inr ⟨call,sub.subset member,rest⟩
  | expired =>
    obtain ⟨call,member,clock,among,rest⟩ := just
    exact ⟨call,sub.subset member,clock,sub.subset among,rest⟩

theorem account_steady : (account margin told).Steady where
  allowed past more s op sub allowed := by
    change Sanctioned margin past s op at allowed
    change Sanctioned margin more s op
    unfold Sanctioned at allowed ⊢
    split
    · exact allowed.longer sub
    · exact allowed.longer sub
    · trivial
  given past more s op c sub given :=
    ⟨given.inv,given.tracked,
      fun owner scan cursor last within => given.complete owner scan cursor last (within.trans (sub.append_right _)),
      given.told⟩

end Knowledge

-- How far the worker has come: it has made more calls, and time has passed.
def Grown (base now : List Call × System) : Prop := base.1.Sublist now.1 ∧ Later base.2 now.2

-- What a read told about the object of a row.
def Saw (told : Owner → Prop) (past : List Call) (key : Owner × BlobId) (id : ObjectId) (object : Option ObjectInfo) :
    Prop :=
  ∃ call ∈ past, (∃ ids, call.op = .batchGetObjects ids ∧ id ∈ ids) ∧ Own call.state key id ∧ Tracked call.state ∧
    (∀ owner, told owner → Told owner call) ∧
    object = (call.state.chain.object id).map (fun info => info.render (call.choice.missing id))

-- Calls that give no row up.
def Plain (op : Op) : Prop := ∀ margin past s, Sanctioned margin past s op

section Calls
variable {margin : Nat} {told : Owner → Prop} {base at_ : List Call × System} {ε α : Type}

theorem Grown.refl (base : List Call × System) : Grown base base := ⟨List.Sublist.refl _,Later.refl _⟩

theorem Grown.trans {a b c : List Call × System} (one : Grown a b) (two : Grown b c) : Grown a c :=
  ⟨one.1.trans two.1,Later.trans _ _ _ one.2 two.2⟩

theorem Saw.longer {past more : List Call} {key : Owner × BlobId} {id : ObjectId} {object : Option ObjectInfo}
    (saw : Saw told past key id object) (sub : past.Sublist more) : Saw told more key id object := by
  obtain ⟨call,member,rest⟩ := saw
  exact ⟨call,sub.subset member,rest⟩

theorem serveReading_later {s : System} {op : Op} {c : Reading} (harmless : Harmless op) (inv : Inv s) :
    Later s (serveReading s op c).1 := by
  cases op with
  | batchGetObjects ids => exact Later.refl s
  | _ => exact (serve_step _ c.base inv (harmless s)).2

-- A harmless call, with what its answer tells.
theorem call_keeps {op : Op} {Q : op.Answer → List Call × System → Prop} (harmless : Harmless op)
    (grown : Grown base at_) (sanctioned : ∀ now, Grown base now → Sanctioned margin now.1 now.2 op)
    (tells : ∀ now c, Grown base now → Fair told now.1 now.2 op c →
      Q (serveReading now.2 op c).2 (now.1 ++ [⟨now.2,op,c⟩],(serveReading now.2 op c).1)) :
    Keeps (account margin told).terms 0
      (fun (result : Except ε op.Answer) now => Grown base now ∧ ∀ answer, result = .ok answer → Q answer now)
      (.perform op) at_ := by
  intro now rely _
  obtain ⟨same,since⟩ := rely rfl
  have here : Grown base now := ⟨same ▸ grown.1,Later.trans _ _ _ grown.2 since⟩
  refine ⟨⟨rfl,sanctioned now here⟩,fun c given => ⟨⟨?_,?_⟩,?_⟩⟩
  · exact here.1.trans (List.sublist_append_left _ _)
  · exact Later.trans _ _ _ here.2 (serveReading_later harmless given.inv)
  · intro answer found
    obtain ⟨⟩ := found
    exact tells now c here given

-- The same for a call whose error ends the program.
theorem passed_keeps {δ β : Type} {p : Program Op Op.Answer ε (Except δ β)} {convert : δ → ε}
    {Q : β → List Call × System → Prop}
    (first : Keeps (account margin told).terms 0 (fun result now => Grown base now ∧
      ∀ answer, result = .ok answer → ∀ value, answer = .ok value → Q value now) p at_) :
    Keeps (account margin told).terms 0
      (fun result now => Grown base now ∧ ∀ value, result = .ok value → Q value now)
      (p >>= fun result => .orFail convert result) at_ := by
  refine .bind trivial first ?_ ?_
  · intro answer now _ known
    refine .orFail ?_ ?_
    · intro value same
      refine ⟨known.1,?_⟩
      intro other found
      obtain ⟨⟩ := found
      exact known.2 answer rfl value same
    · intro error _
      exact ⟨known.1,by rintro value ⟨⟩⟩
  · intro error now _ known
    exact ⟨known.1,by rintro value ⟨⟩⟩

theorem asked_keeps {δ β : Type} {p : Program Op Op.Answer ε (Except δ β)} {convert : δ → ε}
    {Q : β → List Call × System → Prop} {post : Except ε α → List Call × System → Prop}
    {next : β → Program Op Op.Answer ε α}
    (first : Keeps (account margin told).terms 0 (fun result now => Grown base now ∧
      ∀ answer, result = .ok answer → ∀ value, answer = .ok value → Q value now) p at_)
    (rest : ∀ value now, Grown base now → Q value now → Keeps (account margin told).terms 0 post (next value) now)
    (failed : ∀ error now, Grown base now → post (.error error) now) :
    Keeps (account margin told).terms 0 post
      (p >>= fun result => Program.orFail convert result >>= next) at_ := by
  refine .bind trivial first ?_ (fun error now _ known => failed error now known.1)
  intro answer now _ known
  refine .bind (Q:=fun result now => Grown base now ∧ ∀ value, result = .ok value → Q value now) trivial (.orFail ?_ ?_)
    (fun value now _ here => rest value now here.1 (here.2 value rfl)) (fun error now _ here => failed error now here.1)
  · intro value same
    refine ⟨known.1,?_⟩
    intro other found
    obtain ⟨⟩ := found
    exact known.2 answer rfl value same
  · intro error _
    exact ⟨known.1,by rintro value ⟨⟩⟩

theorem plain_keeps {p : Program Op Op.Answer ε α} (plain : p.Only Plain) (at_ : List Call × System) :
    Keeps (account margin told).terms 0 (fun _ _ => True) p at_ := by
  refine Keeps.of_only ?_ plain at_
  intro op free now
  exact ⟨rfl,free _ _ _⟩

theorem plain_grows {p : Program Op Op.Answer ε α} (plain : p.Only (fun op => Plain op ∧ Harmless op))
    (grown : Grown base at_) : Keeps (account margin told).terms 0 (fun _ now => Grown base now) p at_ := by
  induction p generalizing at_ with
  | done value => exact grown
  | fail error => exact grown
  | call op resume ih =>
    intro now rely _
    obtain ⟨same,since⟩ := rely rfl
    refine ⟨⟨rfl,plain.1.1 _ _ _⟩,fun c given => ih _ (plain.2 _) ⟨?_,?_⟩⟩
    · exact (same ▸ grown.1).trans (List.sublist_append_left _ _)
    · exact Later.trans _ _ _ (Later.trans _ _ _ grown.2 since) (serveReading_later plain.1.2 given.inv)

end Calls

-- Reading the objects of rows

section Objects
variable {margin : Nat} {told : Owner → Prop} {base at_ : List Call × System} {ε : Type}

theorem read_saw {ids : List ObjectId} {objects : List (Option ObjectInfo)} {now : List Call × System} {c : Reading}
    (here : Grown base now) (given : Fair told now.1 now.2 (.batchGetObjects ids) c)
    (answered : (serveReading now.2 (.batchGetObjects ids) c).2 = .ok objects) :
    List.Forall₂ (fun id object => ∀ key, Own base.2 key id →
      Saw told (now.1 ++ [⟨now.2,.batchGetObjects ids,c⟩]) key id object) ids objects := by
  simp only [serveReading,Choice.rpc] at answered
  split at answered
  · cases answered
  · rw [← Except.ok.inj answered,List.forall₂_map_right_iff,List.forall₂_same]
    intro id member key own
    refine ⟨_,List.mem_append_right _ (List.mem_singleton_self _),⟨ids,rfl,member⟩,?_,given.tracked,given.told,rfl⟩
    exact own.later here.2

theorem batchGetAll_keeps {convert : SuiErr → ε} {ids : List ObjectId} (grown : Grown base at_) :
    Keeps (account margin told).terms 0
      (fun (result : Except ε (List (Option ObjectInfo))) now => Grown base now ∧ ∀ objects, result = .ok objects →
        List.Forall₂ (fun id object => ∀ key, Own base.2 key id → Saw told now.1 key id object) ids objects)
      (batchGetAll convert ids) at_ := by
  have whole : (chunks 100 ids).flatten = ids := chunks_flatten (by decide) ids
  refine Keeps.foldlM (I:=fun (seen : List (List ObjectId)) objects now => Grown base now ∧
    List.Forall₂ (fun id object => ∀ key, Own base.2 key id → Saw told now.1 key id object) seen.flatten objects)
    ?_ ?_ [] trivial ⟨grown,.nil⟩
  · intro seen part objects now _ _ held
    refine asked_keeps (Q:=fun more after => Grown now after ∧
      List.Forall₂ (fun id object => ∀ key, Own base.2 key id → Saw told after.1 key id object) part more)
      (call_keeps (fun _ => trivial) (Grown.refl now) (fun _ _ => trivial) ?_) ?_ ?_
    · intro after c since given more answered
      refine ⟨⟨since.1.trans (List.sublist_append_left _ _),since.2⟩,?_⟩
      exact read_saw (held.1.trans since) given answered
    · intro more after _ known
      refine ⟨?_,by rintro error ⟨⟩⟩
      intro value found
      obtain ⟨⟩ := found
      refine ⟨held.1.trans known.1,?_⟩
      rw [List.flatten_append,List.flatten_singleton]
      refine List.rel_append ?_ known.2
      exact held.2.imp (fun _ _ saw key own => (saw key own).longer known.1.1)
    · intro error after known
      refine ⟨by rintro value ⟨⟩,?_⟩
      intro other found
      obtain ⟨⟩ := found
      exact ⟨held.1.trans known,by rintro objects ⟨⟩⟩
  · intro objects now _ held
    refine ⟨held.1,?_⟩
    intro value found
    obtain ⟨⟩ := found
    rw [← whole]
    exact held.2

theorem mem_zip_of_forall₂ {α β γ δ : Type} {R : β → γ → Prop} {f : α → δ} {g : α → β} {items : List α}
    {values : List γ} (related : List.Forall₂ R (items.map g) values) {pair : δ × γ}
    (member : pair ∈ (items.map f).zip values) : ∃ item ∈ items, f item = pair.1 ∧ R (g item) pair.2 := by
  induction items generalizing values with
  | nil => cases member
  | cons item rest ih =>
    cases related with
    | cons first others =>
      simp only [List.map_cons,List.zip_cons_cons,List.mem_cons] at member
      rcases member with rfl | later
      · exact ⟨item,List.mem_cons_self,rfl,first⟩
      · obtain ⟨other,among,here⟩ := ih others later
        exact ⟨other,List.mem_cons_of_mem _ among,here⟩

end Objects

-- What the six paths conclude from an object

section Verdicts
variable {margin : Nat} {told : Owner → Prop} {past : List Call} {s : System} {owner : Owner} {blobId : BlobId}
  {id : ObjectId} {object : Option ObjectInfo}

theorem render_blobId {info : ObjectInfo} {missing : Missing} (given : missing.blobId = false) :
    (info.render missing).blobId = info.blobId := by
  simp [ObjectInfo.render,given]

theorem gone_justified (saw : Saw told past (owner,blobId) id none) (own : Own s (owner,blobId) id) :
    Justified margin past s (owner,blobId) .deletedExternal := by
  obtain ⟨call,member,read,_,_,_,answer⟩ := saw
  exact ⟨call,member,id,⟨read,own⟩,Option.map_eq_none_iff.mp answer.symm⟩

theorem foreign_justified {info : ObjectInfo} (saw : Saw told past (owner,blobId) id (some info))
    (own : Own s (owner,blobId) id) (foreign : sameOwner info.owner owner = false) :
    Justified margin past s (owner,blobId) .notOwner := by
  obtain ⟨call,member,read,_,_,_,answer⟩ := saw
  obtain ⟨truth,present,rfl⟩ := Option.map_eq_some_iff.mp answer.symm
  exact .inl ⟨call,member,id,truth,⟨read,own⟩,present,foreign⟩

theorem expired_justified {info : ObjectInfo} {epoch : Nat} {clock : Call}
    (saw : Saw told past (owner,blobId) id (some info)) (own : Own s (owner,blobId) id) (among : clock ∈ past)
    (asked : clock.op = .walrusEpoch) (behind : epoch ≤ clock.state.chain.walrusEpoch)
    (over_ : info.endEpoch.any (fun end_ => isAtOrBefore end_ epoch margin) = true) :
    Justified margin past s (owner,blobId) .expired := by
  obtain ⟨call,member,read,_,_,_,answer⟩ := saw
  obtain ⟨truth,present,rfl⟩ := Option.map_eq_some_iff.mp answer.symm
  rw [Option.any_eq_true] at over_
  obtain ⟨end_,known,past_⟩ := over_
  have given : truth.endEpoch = some end_ := by
    simp only [ObjectInfo.render] at known
    split at known
    · cases known
    · exact known
  refine ⟨call,member,clock,among,id,truth,end_,⟨read,own⟩,present,given,asked,?_⟩
  simp only [isAtOrBefore,decide_eq_true_eq] at past_ ⊢
  omega

-- An answer that is told of an object of the owner names the row's blob.
theorem unnamed_foreign {info : ObjectInfo} (mine : told owner) (saw : Saw told past (owner,blobId) id (some info))
    (other : info.blobId ≠ some blobId ∨ sameOwner info.owner owner = false) :
    sameOwner info.owner owner = false := by
  rcases other with differs | foreign
  · obtain ⟨call,member,⟨ids,asked,listed⟩,own,tracked,named,answer⟩ := saw
    obtain ⟨truth,present,rfl⟩ := Option.map_eq_some_iff.mp answer.symm
    by_contra same
    have same : sameOwner truth.owner owner = true := Bool.eq_true_of_not_eq_false same
    have given := named owner mine ids id truth asked listed present same
    rw [render_blobId given,tracked _ id truth own present] at differs
    exact differs rfl
  · exact foreign

theorem claimed_justified {epoch : Nat} {clock : Call} {state : BlobState} {reason : String} (mine : told owner)
    (saw : Saw told past (owner,blobId) id object) (own : Own s (owner,blobId) id) (among : clock ∈ past)
    (asked : clock.op = .walrusEpoch) (behind : epoch ≤ clock.state.chain.walrusEpoch)
    (verdict : claimedVerdict owner epoch margin blobId object = some (state,reason)) :
    Justified margin past s (owner,blobId) state := by
  cases object with
  | none =>
    cases verdict
    exact gone_justified saw own
  | some info =>
    simp only [claimedVerdict] at verdict
    split at verdict
    · rename_i other
      cases verdict
      exact foreign_justified saw own (unnamed_foreign mine saw other)
    · split at verdict
      · rename_i over_
        cases verdict
        exact expired_justified saw own among asked behind over_
      · cases verdict

theorem stale_justified {expected : ExpectedInput} {reason : StaleInputReason} {state : BlobState} (mine : told owner)
    (saw : Saw told past (owner,expected.blobId) id object) (own : Own s (owner,expected.blobId) id)
    (stale : staleReason owner expected object = some reason) (terminal : reason.terminal = some state) :
    Justified margin past s (owner,expected.blobId) state := by
  cases object with
  | none =>
    cases stale
    cases terminal
    exact gone_justified saw own
  | some info =>
    simp only [staleReason] at stale
    split at stale
    · rename_i other
      cases stale
      cases terminal
      exact foreign_justified saw own (unnamed_foreign mine saw other)
    · split at stale
      · cases stale
        cases terminal
      · cases stale

theorem committed_justified {state : BlobState} (saw : Saw told past (owner,blobId) id object)
    (own : Own s (owner,blobId) id) (verdict : committedVerdict owner blobId object = some state) :
    Justified margin past s (owner,blobId) state := by
  cases object with
  | none =>
    cases verdict
    exact gone_justified saw own
  | some info =>
    simp only [committedVerdict] at verdict
    split at verdict
    · cases verdict
    · split at verdict
      · rename_i foreign
        cases verdict
        exact foreign_justified saw own foreign
      · cases verdict

theorem terminal_justified {epoch : Nat} {clock : Call} {state : BlobState}
    (saw : Saw told past (owner,blobId) id object) (own : Own s (owner,blobId) id) (among : clock ∈ past)
    (asked : clock.op = .walrusEpoch) (behind : epoch ≤ clock.state.chain.walrusEpoch)
    (verdict : terminalState object blobId owner epoch margin = some state) :
    Justified margin past s (owner,blobId) state := by
  cases object with
  | none =>
    cases verdict
    exact gone_justified saw own
  | some info =>
    simp only [terminalState] at verdict
    split at verdict
    · cases verdict
    · split at verdict
      · rename_i foreign
        cases verdict
        exact foreign_justified saw own foreign
      · split at verdict
        · rename_i over_
          cases verdict
          exact expired_justified saw own among asked behind over_
        · cases verdict

end Verdicts

-- The loops that evict, one row after the other

section Loops
variable {margin : Nat} {told : Owner → Prop} {base at_ : List Call × System} {ε : Type} {owner : Owner}
  {batchId : Uuid}

theorem transact_keeps {t : Transaction} {convert : StoreError → ε} (harmless : Harmless (.transact t))
    (grown : Grown base at_) (sanctioned : ∀ now, Grown base now → Sanctioned margin now.1 now.2 (.transact t)) :
    Keeps (account margin told).terms 0 (fun (_ : Except ε t.Result) now => Grown base now)
      (Program.perform (Op.transact t) >>= fun result => .orFail convert result) at_ := by
  refine (passed_keeps (Q:=fun _ _ => True) (call_keeps harmless grown sanctioned ?_)).weaken (fun _ _ known => known.1)
  intro now c _ _ value _
  trivial

-- A loop that acts on one item after the other, where each action is in order.
theorem each_keeps {β γ : Type} {f : γ → β → Program Op Op.Answer ε γ} {items : List β} (acc : γ) (grown : Grown base at_)
    (body : ∀ item ∈ items, ∀ acc now, Grown base now →
      Keeps (account margin told).terms 0 (fun _ after => Grown base after) (f acc item) now) :
    Keeps (account margin told).terms 0 (fun (_ : Except ε γ) now => Grown base now) (items.foldlM f acc) at_ := by
  refine Keeps.foldlM (I:=fun _ _ now => Grown base now) ?_ (fun _ _ _ held => held) acc trivial grown
  intro seen item acc now member _ held
  refine (body item member acc now held).weaken ?_
  intro result after here
  exact ⟨fun _ _ => here,fun _ _ => here⟩

theorem then_keeps {α β : Type} {p : Program Op Op.Answer ε α} {next : α → Program Op Op.Answer ε β}
    (first : Keeps (account margin told).terms 0 (fun _ now => Grown base now) p at_)
    (rest : ∀ value now, Grown base now →
      Keeps (account margin told).terms 0 (fun _ now => Grown base now) (next value) now) :
    Keeps (account margin told).terms 0 (fun _ now => Grown base now) (p >>= next) at_ :=
  .bind trivial first (fun value now _ here => rest value now here) (fun _ _ _ here => here)

-- The pairs a path goes through: a row and the answer about its object.
def Matched (told : Owner → Prop) (base : List Call × System) (owner : Owner) (blobId : BlobId)
    (object : Option ObjectInfo) : Prop :=
  ∃ id, Own base.2 (owner,blobId) id ∧ Saw told base.1 (owner,blobId) id object

-- The Walrus epoch a path goes by is one it has asked for.
def Clocked (past : List Call) (epoch : Nat) : Prop :=
  ∃ clock ∈ past, clock.op = .walrusEpoch ∧ epoch ≤ clock.state.chain.walrusEpoch

theorem Clocked.longer {past more : List Call} {epoch : Nat} (clocked : Clocked past epoch) (sub : past.Sublist more) :
    Clocked more epoch := by
  obtain ⟨clock,among,rest⟩ := clocked
  exact ⟨clock,sub.subset among,rest⟩

theorem clock_read {s : System} {past : List Call} {c : Reading} {epoch : Nat}
    (answered : (serveReading s .walrusEpoch c).2 = .ok epoch) : Clocked (past ++ [⟨s,.walrusEpoch,c⟩]) epoch := by
  simp only [serveReading,serve,Choice.rpc] at answered
  split at answered
  · cases answered
  · refine ⟨_,List.mem_append_right _ (List.mem_singleton_self _),rfl,?_⟩
    rw [← Except.ok.inj answered]
    exact Nat.sub_le _ _

theorem sortClaimed_keeps {epoch : Nat} {excluded : List Excluded} {pairs : List (BlobId × Option ObjectInfo)}
    (mine : told owner) (clocked : Clocked base.1 epoch) (grown : Grown base at_)
    (matched : ∀ pair ∈ pairs, Matched told base owner pair.1 pair.2) :
    Keeps (account margin told).terms 0 (fun _ now => Grown base now)
      (sortClaimed owner batchId epoch margin excluded pairs) at_ := by
  obtain ⟨clock,among,asked,behind⟩ := clocked
  refine each_keeps _ grown ?_
  intro pair member sorted now here
  obtain ⟨id,own,saw⟩ := matched pair member
  cases verdict : claimedVerdict owner epoch margin pair.1 pair.2 with
  | none => exact here
  | some found =>
    refine then_keeps (transact_keeps (evict_free _ _ _ _) here ?_) (fun _ _ after => after)
    intro then_ since
    exact claimed_justified mine (saw.longer since.1) (own.later since.2) (since.1.subset among) asked behind verdict

theorem evictGone_keeps {pairs : List (BlobId × Option ObjectInfo)} (grown : Grown base at_)
    (matched : ∀ pair ∈ pairs, Matched told base owner pair.1 pair.2) :
    Keeps (account margin told).terms 0 (fun _ now => Grown base now) (evictGone owner batchId pairs) at_ := by
  refine each_keeps _ grown ?_
  intro pair member evicted now here
  obtain ⟨id,own,saw⟩ := matched pair member
  cases verdict : committedVerdict owner pair.1 pair.2 with
  | none => exact here
  | some terminal =>
    refine then_keeps (transact_keeps (evict_free _ _ _ _) here ?_) (fun _ _ after => after)
    intro then_ since
    exact committed_justified (saw.longer since.1) (own.later since.2) verdict

theorem evictAmbiguous_keeps {epoch : Nat} {pairs : List (BlobId × Option ObjectInfo)} (clocked : Clocked base.1 epoch)
    (grown : Grown base at_) (matched : ∀ pair ∈ pairs, Matched told base owner pair.1 pair.2) :
    Keeps (account margin told).terms 0 (fun _ now => Grown base now)
      (evictAmbiguous owner batchId epoch margin pairs) at_ := by
  obtain ⟨clock,among,asked,behind⟩ := clocked
  refine each_keeps _ grown ?_
  intro pair member _ now here
  obtain ⟨id,own,saw⟩ := matched pair member
  cases verdict : terminalState pair.2 pair.1 owner epoch margin with
  | none => exact here
  | some terminal =>
    refine then_keeps (transact_keeps (evict_free _ _ _ _) here ?_) (fun _ _ after => after)
    intro then_ since
    exact terminal_justified (saw.longer since.1) (own.later since.2) (since.1.subset among) asked behind verdict

theorem sweepRows_keeps {epoch : Nat} {pairs : List (((Owner × BlobId) × TrackingRow) × Option ObjectInfo)}
    (clocked : Clocked base.1 epoch) (grown : Grown base at_)
    (matched : ∀ pair ∈ pairs, Matched told base pair.1.1.1 pair.1.1.2 pair.2) :
    Keeps (account margin told).terms 0 (fun _ now => Grown base now) (sweepRows epoch margin pairs) at_ := by
  obtain ⟨clock,among,asked,behind⟩ := clocked
  refine each_keeps _ grown ?_
  intro pair member swept now here
  obtain ⟨id,own,saw⟩ := matched pair member
  cases verdict : terminalState pair.2 pair.1.1.2 pair.1.1.1 epoch margin with
  | none => exact here
  | some terminal =>
    refine then_keeps (transact_keeps (fun _ => trivial) here ?_) (fun _ _ after => after)
    intro then_ since
    exact terminal_justified (saw.longer since.1) (own.later since.2) (since.1.subset among) asked behind verdict

-- A stale input of a transaction, with the answer that showed it stale.
def StaleInput.Shown (told : Owner → Prop) (base : List Call × System) (owner : Owner) (input : StaleInput) : Prop :=
  ∃ expected object, expected.blobId = input.blobId ∧ staleReason owner expected object = some input.reason ∧
    Matched told base owner expected.blobId object

theorem staleInput_justified {input : StaleInput} {terminal : BlobState} (mine : told owner)
    (shown : input.Shown told base owner) (grown : Grown base at_) (reason : input.reason.terminal = some terminal) :
    Justified margin at_.1 at_.2 (owner,input.blobId) terminal := by
  obtain ⟨expected,object,same,stale,id,own,saw⟩ := shown
  rw [← same]
  exact stale_justified mine (saw.longer grown.1) (own.later grown.2) stale reason

theorem evictStale_keeps {stale : List StaleInput} (mine : told owner) (grown : Grown base at_)
    (shown : ∀ input ∈ stale, input.Shown told base owner) :
    Keeps (account margin told).terms 0 (fun _ now => Grown base now) (evictStale owner batchId stale) at_ := by
  refine each_keeps _ grown ?_
  intro input member evicted now here
  cases reason : input.reason.terminal with
  | none => exact here
  | some terminal =>
    refine then_keeps (transact_keeps (evict_free _ _ _ _) here ?_) (fun _ _ after => after)
    intro then_ since
    exact staleInput_justified mine (shown input member) since reason

theorem evictStaleInputs_keeps {stale : List StaleInput} (mine : told owner) (grown : Grown base at_)
    (shown : ∀ input ∈ stale, input.Shown told base owner) :
    Keeps (account margin told).terms 0 (fun _ now => Grown base now) (evictStaleInputs owner batchId stale) at_ := by
  refine each_keeps _ grown ?_
  intro input member evicted now here
  cases reason : input.reason.terminal with
  | none => exact here
  | some terminal =>
    refine then_keeps (transact_keeps (evict_free _ _ _ _) here ?_) (fun _ _ after => after)
    intro then_ since
    exact staleInput_justified mine (shown input member) since reason

end Loops

end MemWal.SecurityDelete
