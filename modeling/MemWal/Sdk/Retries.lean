import MemWal.Library.Separated
import MemWal.Remember.Idempotence
import MemWal.Sdk.Client

namespace MemWal.Sdk
open Library

def RememberBody.identity (body : RememberBody) : String := MemWalState.requestIdentity body.ns body.text

-- Namespaces without a NUL are told from the texts.
theorem identity_eq_iff {one other : RememberBody} (plain : Char.ofNat 0 ∉ one.ns.toList)
    (plain' : Char.ofNat 0 ∉ other.ns.toList) : other.identity = one.identity ↔ other.ns = one.ns ∧ other.text = one.text := by
  have letters : ∀ body : RememberBody, body.identity.toList = body.ns.toList ++ Char.ofNat 0 :: body.text.toList := by
    intro body
    simp [RememberBody.identity,MemWalState.requestIdentity]
  rw [← String.toList_inj,letters,letters,Separated.joined_plain plain' plain,String.toList_inj,String.toList_inj]

namespace MemWalState

-- The keys that were generated for one text in one namespace.
def keys (client : MemWalState) (identity : String) : List String :=
  (client.draws.filter (fun draw => draw.1 = identity)).map Prod.snd

-- A generated key that is pending for no text.
def Spent (client : MemWalState) (key : String) : Prop :=
  (∃ identity, (identity,key) ∈ client.draws) ∧ ∀ identity, client.pendingRememberKeys.get? identity ≠ some key

-- The key of the text has not been given up since.
def Keeps (client now : MemWalState) (identity : String) : Prop :=
  now.released.count identity = client.released.count identity ∧ now.destroyed = client.destroyed

-- What is never undone.
structure Grows (client now : MemWalState) : Prop where
  released : ∀ identity, client.released.count identity ≤ now.released.count identity
  destroyed : client.destroyed ≤ now.destroyed

theorem Grows.refl (client : MemWalState) : client.Grows client := ⟨fun _ => Nat.le_refl _,Nat.le_refl _⟩

theorem Grows.trans {client now later : MemWalState} (one : client.Grows now) (two : now.Grows later) :
    client.Grows later :=
  ⟨fun identity => (one.released identity).trans (two.released identity),one.destroyed.trans two.destroyed⟩

-- What is kept between two moments is kept at each in between.
theorem Keeps.within {client now later : MemWalState} {identity : String} (kept : client.Keeps later identity)
    (one : client.Grows now) (two : now.Grows later) : client.Keeps now identity := by
  have more := two.released identity
  have destroyed := two.destroyed
  rw [kept.1] at more
  rw [kept.2] at destroyed
  exact ⟨Nat.le_antisymm more (one.released identity),Nat.le_antisymm destroyed one.destroyed⟩

theorem Keeps.trans {client now later : MemWalState} {identity : String} (one : client.Keeps now identity)
    (two : now.Keeps later identity) : client.Keeps later identity :=
  ⟨two.1.trans one.1,two.2.trans one.2⟩

end MemWalState

structure Keyed (kit : Kit) (client : MemWalState) : Prop where
  drawn : ∀ i draw, client.draws[i]? = some draw → draw.2 = kit.randomUUID i
  pending : ∀ identity key, client.pendingRememberKeys.get? identity = some key → (identity,key) ∈ client.draws
  sent : ∀ body, (true,body) ∈ client.bodies → (body.identity,body.idempotencyKey) ∈ client.draws
  -- Each key but the pending one was given up.
  balance : ∀ identity, (client.keys identity).length ≤ client.released.count identity + client.destroyed +
    (if (client.pendingRememberKeys.get? identity).isSome then 1 else 0)

-- The keys that are drawn first all differ.
def Kit.Distinct (kit : Kit) (count : Nat) : Prop :=
  ∀ i < count, ∀ j < count, kit.randomUUID i = kit.randomUUID j → i = j

instance (kit : Kit) (count : Nat) : Decidable (kit.Distinct count) :=
  inferInstanceAs (Decidable (∀ i < count, ∀ j < count, kit.randomUUID i = kit.randomUUID j → i = j))

section Steps
variable {count : Nat} {kit : Kit} {config : MemWalConfig} {client next : MemWalState} {act : Act} {identity key : String}

-- What one act can do, but for the table of the calls.
theorem exec_cases (ran : exec kit config client act = .ok next) :
    (∃ n waits text ns given, act = .remember n waits text ns given ∧
      next = client.remember kit config n waits text ns given) ∨
    (∃ call calls, next = {client.release call with calls := calls}) ∨
    (∃ calls, next = {client with calls := calls}) ∨ next = client.destroy := by
  cases act with
  | remember n waits text ns given =>
    simp only [exec] at ran
    split at ran
    · cases ran
    · cases ran
      exact .inl ⟨n,waits,text,ns,given,rfl,rfl⟩
  | accepted n job =>
    simp only [exec] at ran
    split at ran
    · rename_i call found
      split at ran
      · cases ran
      · split at ran
        · cases ran
          exact .inr (.inr (.inl ⟨_,rfl⟩))
        · cases ran
          exact .inr (.inl ⟨call,_,rfl⟩)
    · cases ran
  | completed n =>
    simp only [exec] at ran
    split at ran
    · rename_i call found
      split at ran
      · cases ran
        exact .inr (.inl ⟨call,_,rfl⟩)
      · cases ran
    · cases ran
  | failed n =>
    simp only [exec] at ran
    split at ran
    · cases ran
      exact .inr (.inr (.inl ⟨_,rfl⟩))
    · cases ran
  | destroy =>
    cases ran
    exact .inr (.inr (.inr rfl))

theorem Keyed.fresh (keyed : Keyed kit client) (distinct : kit.Distinct count) (room : client.draws.length < count)
    {draw : String × String} (member : draw ∈ client.draws) : draw.2 ≠ kit.randomUUID client.draws.length := by
  obtain ⟨i,inside,rfl⟩ := List.getElem_of_mem member
  intro same
  have drawn := keyed.drawn i _ (List.getElem?_eq_getElem inside)
  have place := distinct i (inside.trans room) _ room (drawn.symm.trans same)
  exact Nat.lt_irrefl _ (place ▸ inside)

-- A key was generated for one text only.
theorem Keyed.single (keyed : Keyed kit client) (distinct : kit.Distinct count) (room : client.draws.length ≤ count)
    {other : String} (one : (identity,key) ∈ client.draws) (two : (other,key) ∈ client.draws) : identity = other := by
  obtain ⟨i,inside,first⟩ := List.getElem_of_mem one
  obtain ⟨j,within,second⟩ := List.getElem_of_mem two
  have here := keyed.drawn i _ (List.getElem?_eq_getElem inside)
  have there := keyed.drawn j _ (List.getElem?_eq_getElem within)
  rw [first] at here
  rw [second] at there
  cases distinct i (inside.trans_le room) j (within.trans_le room) (here.symm.trans there)
  exact congrArg Prod.fst (first.symm.trans second)

-- The key that a call without one of its own is sent with.
theorem idempotencyKey_cases (kit : Kit) (client : MemWalState) (identity : String) :
    (∃ key, client.pendingRememberKeys.get? identity = some key ∧
      client.idempotencyKey kit identity none = (client.setKey identity key,key)) ∨
    (client.pendingRememberKeys.get? identity = none ∧ client.idempotencyKey kit identity none =
      ({client with draws := client.draws ++ [(identity,kit.randomUUID client.draws.length)]}.setKey identity
        (kit.randomUUID client.draws.length),kit.randomUUID client.draws.length)) := by
  cases found : client.pendingRememberKeys.get? identity with
  | none => exact .inr ⟨rfl,by simp only [MemWalState.idempotencyKey,found]⟩
  | some key => exact .inl ⟨key,rfl,by simp only [MemWalState.idempotencyKey,found]⟩

theorem keys_append (client : MemWalState) (other key : String) :
    MemWalState.keys {client with draws := client.draws ++ [(other,key)]} identity =
      client.keys identity ++ if other = identity then [key] else [] := by
  unfold MemWalState.keys
  by_cases same : other = identity
  · simp [List.filter_append,same]
  · simp [List.filter_append,same]

theorem Keyed.reused (keyed : Keyed kit client) (found : client.pendingRememberKeys.get? identity = some key) :
    Keyed kit (client.setKey identity key) where
  drawn := keyed.drawn
  sent := keyed.sent
  pending := by
    intro other key' there
    simp only [MemWalState.setKey,Store.get?_upsert] at there
    split at there
    · rename_i same
      cases there
      exact same ▸ keyed.pending identity key found
    · exact keyed.pending other key' there
  balance := by
    intro other
    have bound := keyed.balance other
    simp only [MemWalState.setKey,Store.get?_upsert]
    split
    · rename_i same
      rw [same,found] at bound
      rw [same]
      exact bound
    · exact bound

theorem Keyed.generated (keyed : Keyed kit client) (absent : client.pendingRememberKeys.get? identity = none)
    (drawn : key = kit.randomUUID client.draws.length) :
    Keyed kit ({client with draws := client.draws ++ [(identity,key)]}.setKey identity key) where
  drawn := by
    intro i draw found
    change (client.draws ++ [(identity,key)])[i]? = some draw at found
    rcases Nat.lt_trichotomy i client.draws.length with inside | rfl | past
    · rw [List.getElem?_append_left inside] at found
      exact keyed.drawn i draw found
    · rw [List.getElem?_concat_length] at found
      cases found
      exact drawn
    · rw [List.getElem?_eq_none (by simp; omega)] at found
      cases found
  sent body member := List.mem_append_left _ (keyed.sent body member)
  pending := by
    intro other key' there
    simp only [MemWalState.setKey,Store.get?_upsert] at there
    split at there
    · rename_i same
      cases there
      exact same ▸ List.mem_append_right _ List.mem_cons_self
    · exact List.mem_append_left _ (keyed.pending other key' there)
  balance := by
    intro other
    have bound := keyed.balance other
    change (MemWalState.keys {client with draws := client.draws ++ [(identity,key)]} other).length ≤ _
    simp only [keys_append,MemWalState.setKey,Store.get?_upsert]
    by_cases same : other = identity
    · -- One more key, and one that is pending.
      rw [same,absent] at bound
      simp only [same,if_true,List.length_append,List.length_singleton,Option.isSome_some]
      simpa using bound
    · rw [if_neg (fun equal => same equal.symm),if_neg same,List.append_nil]
      exact bound

theorem Keyed.chosen (keyed : Keyed kit client) (identity : String) (given : Option String) :
    Keyed kit (client.idempotencyKey kit identity given).1 ∧
    (given = none → (identity,(client.idempotencyKey kit identity given).2) ∈
      (client.idempotencyKey kit identity given).1.draws) ∧
    (client.idempotencyKey kit identity given).1.bodies = client.bodies := by
  cases given with
  | some key => exact ⟨keyed,nofun,rfl⟩
  | none =>
    rcases idempotencyKey_cases kit client identity with ⟨key,found,chosen⟩ | ⟨absent,chosen⟩
    · rw [chosen]
      exact ⟨keyed.reused found,fun _ => keyed.pending identity key found,rfl⟩
    · rw [chosen]
      exact ⟨keyed.generated absent rfl,fun _ => List.mem_append_right _ List.mem_cons_self,rfl⟩

theorem Keyed.begun (keyed : Keyed kit client) (n : Nat) (waits : Bool) (text : String) (ns given : Option String) :
    Keyed kit (client.remember kit config n waits text ns given) := by
  obtain ⟨chosen,own,bodies⟩ := keyed.chosen (MemWalState.requestIdentity (ns.getD config.ns) text) given
  refine ⟨chosen.drawn,chosen.pending,?_,chosen.balance⟩
  intro body member
  rcases List.mem_append.mp member with old | new
  · exact chosen.sent body old
  · obtain ⟨generated,rfl⟩ := Prod.mk.inj (List.mem_singleton.mp new)
    exact own (Option.isNone_iff_eq_none.mp generated.symm)

theorem Keyed.released (keyed : Keyed kit client) (call : Remembering) : Keyed kit (client.release call) := by
  unfold MemWalState.release
  split
  · refine ⟨keyed.drawn,?_,keyed.sent,?_⟩
    · intro other key there
      rw [Store.get?_erase] at there
      split at there
      · cases there
      · exact keyed.pending other key there
    · intro other
      have bound := keyed.balance other
      simp only [Store.get?_erase,List.count_append]
      by_cases same : other = call.requestIdentity
      · simp only [same,if_true,List.count_singleton_self,Option.isSome_none,Bool.false_eq_true,if_false]
        rw [same] at bound
        split at bound
        · exact Nat.le_trans bound (by omega)
        · exact Nat.le_trans bound (by omega)
      · rw [if_neg same]
        exact Nat.le_trans bound (by omega)
  · exact keyed

theorem exec_keyed (kit : Kit) (config : MemWalConfig) (client : MemWalState) (act : Act) (next : MemWalState)
    (keyed : Keyed kit client) (ran : exec kit config client act = .ok next) : Keyed kit next := by
  rcases exec_cases ran with ⟨n,waits,text,ns,given,_,rfl⟩ | ⟨call,calls,rfl⟩ | ⟨calls,rfl⟩ | rfl
  · exact keyed.begun n waits text ns given
  · obtain ⟨drawn,pending,sent,balance⟩ := keyed.released call
    exact ⟨drawn,pending,sent,balance⟩
  · exact ⟨keyed.drawn,keyed.pending,keyed.sent,keyed.balance⟩
  · refine ⟨keyed.drawn,nofun,keyed.sent,?_⟩
    intro identity
    have bound := keyed.balance identity
    simp only [MemWalState.destroy,Store.get?_empty,Option.isSome_none,Bool.false_eq_true,if_false]
    change (client.keys identity).length ≤ _
    split at bound
    · exact Nat.le_trans bound (by omega)
    · exact Nat.le_trans bound (by omega)

theorem begun_kept (kit : Kit) (config : MemWalConfig) (client : MemWalState) (n : Nat) (waits : Bool) (text : String)
    (ns given : Option String) (identity : String) :
    client.Keeps (client.remember kit config n waits text ns given) identity := by
  have same : ∀ other, (client.idempotencyKey kit other given).1.released = client.released ∧
      (client.idempotencyKey kit other given).1.destroyed = client.destroyed := by
    intro other
    unfold MemWalState.idempotencyKey
    split
    all_goals exact ⟨rfl,rfl⟩
  obtain ⟨released,destroyed⟩ := same (MemWalState.requestIdentity (ns.getD config.ns) text)
  exact ⟨congrArg (List.count identity) released,destroyed⟩

theorem begun_pending (pending : client.pendingRememberKeys.get? identity = some key) (n : Nat) (waits : Bool)
    (text : String) (ns given : Option String) :
    (client.remember kit config n waits text ns given).pendingRememberKeys.get? identity = some key := by
  change (client.idempotencyKey kit (MemWalState.requestIdentity (ns.getD config.ns) text) given).1.pendingRememberKeys.get?
    identity = some key
  cases given with
  | some own => exact pending
  | none =>
    rcases idempotencyKey_cases kit client (MemWalState.requestIdentity (ns.getD config.ns) text) with
      ⟨found,there,chosen⟩ | ⟨absent,chosen⟩
    · rw [chosen]
      simp only [MemWalState.setKey,Store.get?_upsert]
      split
      · rename_i same
        exact (same ▸ there).symm.trans pending
      · exact pending
    · rw [chosen]
      simp only [MemWalState.setKey,Store.get?_upsert]
      split
      · rename_i same
        cases (same ▸ absent).symm.trans pending
      · exact pending

-- A key that is spent is never sent again.
theorem Keyed.renewed (keyed : Keyed kit client) (distinct : kit.Distinct count) (room : client.draws.length < count)
    (spent : client.Spent key) (identity : String) (given : Option String) :
    (client.idempotencyKey kit identity given).1.Spent key ∧
    (given = none → (client.idempotencyKey kit identity given).2 ≠ key) := by
  obtain ⟨⟨owner,drawn⟩,idle⟩ := spent
  cases given with
  | some own => exact ⟨⟨⟨owner,drawn⟩,idle⟩,nofun⟩
  | none =>
    rcases idempotencyKey_cases kit client identity with ⟨found,there,chosen⟩ | ⟨absent,chosen⟩
    · have other : found ≠ key := fun same => idle identity (same ▸ there)
      rw [chosen]
      refine ⟨⟨⟨owner,drawn⟩,?_⟩,fun _ => other⟩
      intro any
      simp only [MemWalState.setKey,Store.get?_upsert]
      split
      · exact fun same => other (Option.some.inj same)
      · exact idle any
    · have other : kit.randomUUID client.draws.length ≠ key := (keyed.fresh distinct room drawn).symm
      rw [chosen]
      refine ⟨⟨⟨owner,List.mem_append_left _ drawn⟩,?_⟩,fun _ => other⟩
      intro any
      simp only [MemWalState.setKey,Store.get?_upsert]
      split
      · exact fun same => other (Option.some.inj same)
      · exact idle any

theorem exec_grows (ran : exec kit config client act = .ok next) : client.Grows next := by
  rcases exec_cases ran with ⟨n,waits,text,ns,given,_,rfl⟩ | ⟨call,calls,rfl⟩ | ⟨calls,rfl⟩ | rfl
  · have kept := begun_kept kit config client n waits text ns given
    exact ⟨fun identity => Nat.le_of_eq (kept identity).1.symm,Nat.le_of_eq (kept "").2.symm⟩
  · unfold MemWalState.release
    split
    · exact ⟨fun identity => by rw [List.count_append]; exact Nat.le_add_right _ _,Nat.le_refl _⟩
    · exact ⟨fun _ => Nat.le_refl _,Nat.le_refl _⟩
  · exact ⟨fun _ => Nat.le_refl _,Nat.le_refl _⟩
  · exact ⟨fun _ => Nat.le_refl _,Nat.le_succ _⟩

theorem exec_draws (ran : exec kit config client act = .ok next) : next.draws.length ≤ client.draws.length + 1 := by
  rcases exec_cases ran with ⟨n,waits,text,ns,given,_,rfl⟩ | ⟨call,calls,rfl⟩ | ⟨calls,rfl⟩ | rfl
  · change (client.idempotencyKey kit (MemWalState.requestIdentity (ns.getD config.ns) text) given).1.draws.length ≤ _
    unfold MemWalState.idempotencyKey
    split
    · exact Nat.le_succ _
    · exact Nat.le_succ _
    · simp [MemWalState.setKey]
  · unfold MemWalState.release
    split
    all_goals exact Nat.le_succ _
  · exact Nat.le_succ _
  · exact Nat.le_succ _

theorem exec_spent (keyed : Keyed kit client) (distinct : kit.Distinct count) (room : client.draws.length < count)
    (ran : exec kit config client act = .ok next) (spent : client.Spent key) : next.Spent key := by
  rcases exec_cases ran with ⟨n,waits,text,ns,given,_,rfl⟩ | ⟨call,calls,rfl⟩ | ⟨calls,rfl⟩ | rfl
  · exact (keyed.renewed distinct room spent _ given).1
  · unfold MemWalState.release
    split
    · refine ⟨spent.1,?_⟩
      intro identity
      rw [Store.get?_erase]
      split
      · nofun
      · exact spent.2 identity
    · exact spent
  · exact spent
  · exact ⟨spent.1,nofun⟩

-- The pending key of a text stays so until it is given up, and then it is spent.
theorem exec_pending (keyed : Keyed kit client) (distinct : kit.Distinct count) (room : client.draws.length < count)
    (ran : exec kit config client act = .ok next) (pending : client.pendingRememberKeys.get? identity = some key) :
    next.pendingRememberKeys.get? identity = some key ∧ client.Keeps next identity ∨
      next.Spent key ∧ ¬ client.Keeps next identity := by
  have drawn := keyed.pending identity key pending
  rcases exec_cases ran with ⟨n,waits,text,ns,given,_,rfl⟩ | ⟨call,calls,rfl⟩ | ⟨calls,rfl⟩ | rfl
  · exact .inl ⟨begun_pending pending n waits text ns given,begun_kept kit config client n waits text ns given identity⟩
  · unfold MemWalState.release
    split
    · by_cases same : call.requestIdentity = identity
      · right
        refine ⟨⟨⟨identity,drawn⟩,?_⟩,?_⟩
        · intro other there
          rw [Store.get?_erase] at there
          split at there
          · cases there
          · rename_i apart
            exact apart ((keyed.single distinct (Nat.le_of_lt room) (keyed.pending other key there) drawn).trans same.symm)
        · intro kept
          have more := kept.1
          simp only [List.count_append,same,List.count_singleton_self] at more
          omega
      · left
        refine ⟨?_,?_,rfl⟩
        · rw [Store.get?_erase,if_neg (fun equal => same equal.symm)]
          exact pending
        · rw [List.count_append,List.count_singleton,if_neg (by simpa using same),Nat.add_zero]
    · exact .inl ⟨pending,rfl,rfl⟩
  · exact .inl ⟨pending,rfl,rfl⟩
  · right
    refine ⟨⟨⟨identity,drawn⟩,nofun⟩,?_⟩
    intro kept
    exact absurd kept.2 (Nat.succ_ne_self _)

end Steps

-- The request that the client sends first at position `i`, under a key of its own.
def Sent (kit : Kit) (config : MemWalConfig) (acts : List Act) (i : Nat) (body : RememberBody) : Prop :=
  (at_ kit config acts (i+1)).bodies = (at_ kit config acts i).bodies ++ [(true,body)]

instance (kit : Kit) (config : MemWalConfig) (acts : List Act) (i : Nat) (body : RememberBody) :
    Decidable (Sent kit config acts i body) := inferInstanceAs (Decidable (_ = _))

section Runs
variable {kit : Kit} {config : MemWalConfig} {acts : List Act} {i j : Nat} {body one other : RememberBody}

theorem start_keyed (kit : Kit) : Keyed kit {} where
  drawn _ _ found := by cases found
  pending _ _ found := by cases found
  sent _ member := by cases member
  balance _ := Nat.zero_le _

theorem keyed_at (kit : Kit) (config : MemWalConfig) (acts : List Act) (i : Nat) : Keyed kit (at_ kit config acts i) :=
  Runs.invariant_before (I:=Keyed kit) (start_keyed kit) (exec_keyed kit config) acts i

theorem drawn_at (kit : Kit) (config : MemWalConfig) (acts : List Act) (i : Nat) :
    (at_ kit config acts i).draws.length ≤ i := by
  induction i with
  | zero => exact Nat.le_refl 0
  | succ i ih =>
    have grown : (at_ kit config acts (i+1)).draws.length ≤ (at_ kit config acts i).draws.length + 1 := by
      unfold at_
      cases found : acts[i]? with
      | none =>
        rw [Runs.before_past found]
        exact Nat.le_succ _
      | some act =>
        rw [Runs.before_succ found]
        rcases Runs.settle_cases (exec kit config) (Runs.before (exec kit config) {} acts i) act with
          ⟨next,ran,equal⟩ | equal
        · exact equal ▸ exec_draws ran
        · rw [equal]
          exact Nat.le_succ _
    exact grown.trans (Nat.succ_le_succ ih)

-- The key is the one that is pending after it.
theorem Sent.begun (sent : Sent kit config acts i body) : i < acts.length ∧
    ((at_ kit config acts i).idempotencyKey kit body.identity none).2 = body.idempotencyKey ∧
    (at_ kit config acts (i+1)).pendingRememberKeys.get? body.identity = some body.idempotencyKey := by
  have longer : (at_ kit config acts (i+1)).bodies ≠ (at_ kit config acts i).bodies := by
    intro same
    have lengths := congrArg List.length (same.symm.trans sent)
    rw [List.length_append,List.length_singleton] at lengths
    omega
  cases found : acts[i]? with
  | none => exact absurd (congrArg MemWalState.bodies (Runs.before_past found)) longer
  | some act =>
    refine ⟨(List.getElem?_eq_some_iff.mp found).1,?_⟩
    have stepped : at_ kit config acts (i+1) = Runs.settle (exec kit config) (at_ kit config acts i) act :=
      Runs.before_succ found
    rcases Runs.settle_cases (exec kit config) (at_ kit config acts i) act with ⟨next,ran,equal⟩ | equal
    · rw [equal] at stepped
      rw [Sent,stepped] at sent
      rw [stepped] at longer ⊢
      rcases exec_cases ran with ⟨n,waits,text,ns,given,_,rfl⟩ | ⟨call,calls,rfl⟩ | ⟨calls,rfl⟩ | rfl
      · have bodies : ((at_ kit config acts i).idempotencyKey kit (MemWalState.requestIdentity (ns.getD config.ns) text)
            given).1.bodies = (at_ kit config acts i).bodies := ((keyed_at kit config acts i).chosen _ given).2.2
        change _ ++ _ = _ at sent
        rw [bodies] at sent
        obtain ⟨generated,rfl⟩ := Prod.mk.inj (List.singleton_inj.mp (List.append_cancel_left sent))
        cases Option.isNone_iff_eq_none.mp generated
        refine ⟨rfl,?_⟩
        change ((at_ kit config acts i).idempotencyKey kit (MemWalState.requestIdentity (ns.getD config.ns) text)
          none).1.pendingRememberKeys.get? (MemWalState.requestIdentity (ns.getD config.ns) text) = some _
        rcases idempotencyKey_cases kit (at_ kit config acts i) (MemWalState.requestIdentity (ns.getD config.ns) text)
          with ⟨key,_,chosen⟩ | ⟨_,chosen⟩
        · simp [chosen,MemWalState.setKey]
        · simp [chosen,MemWalState.setKey]
      · refine absurd ?_ longer
        unfold MemWalState.release
        split
        all_goals rfl
      · exact absurd rfl longer
      · exact absurd rfl longer
    · exact absurd (congrArg MemWalState.bodies (stepped.trans equal)) longer

-- From there on the key is pending until it is given up.
theorem Sent.followed (distinct : kit.Distinct acts.length) (sent : Sent kit config acts i body) (le : i + 1 ≤ j) :
    (at_ kit config acts j).pendingRememberKeys.get? body.identity = some body.idempotencyKey ∧
        (at_ kit config acts (i+1)).Keeps (at_ kit config acts j) body.identity ∨
      (at_ kit config acts j).Spent body.idempotencyKey ∧
        ¬ (at_ kit config acts (i+1)).Keeps (at_ kit config acts j) body.identity := by
  let client := at_ kit config acts (i+1)
  let Followed (s : MemWalState) : Prop := (client.Grows s ∧ Keyed kit s) ∧
    (s.pendingRememberKeys.get? body.identity = some body.idempotencyKey ∧ client.Keeps s body.identity ∨
      s.Spent body.idempotencyKey ∧ ¬ client.Keeps s body.identity)
  have followed : Followed (at_ kit config acts j) := by
    refine Runs.kept_between (P:=Followed) le
      ⟨⟨MemWalState.Grows.refl client,keyed_at kit config acts (i+1)⟩,.inl ⟨sent.begun.2.2,rfl,rfl⟩⟩ ?_
    intro k act next _ _ found before ran
    obtain ⟨⟨grown,keyed⟩,either⟩ := before
    have room := Nat.lt_of_le_of_lt (drawn_at kit config acts k) (List.getElem?_eq_some_iff.mp found).1
    have grows := exec_grows ran
    refine ⟨⟨grown.trans grows,exec_keyed kit config _ act next keyed ran⟩,?_⟩
    rcases either with ⟨pending,kept⟩ | ⟨spent,lost⟩
    · rcases exec_pending keyed distinct room ran pending with ⟨still,keeps⟩ | ⟨spent,lost⟩
      · exact .inl ⟨still,kept.trans keeps⟩
      · refine .inr ⟨spent,?_⟩
        intro keeps
        exact lost ⟨keeps.1.trans kept.1.symm,keeps.2.trans kept.2.symm⟩
    · exact .inr ⟨exec_spent keyed distinct room ran spent,fun keeps => lost (keeps.within grown grows)⟩
  exact followed.2

-- A call without a key of its own is sent under the key of an earlier one exactly if
-- they are for one text and namespace, and the key has not been given up in between.
theorem Sent.reuses (distinct : kit.Distinct acts.length) (order : i < j) (first : Sent kit config acts i one)
    (second : Sent kit config acts j other) : other.idempotencyKey = one.idempotencyKey ↔
      other.identity = one.identity ∧ (at_ kit config acts (i+1)).Keeps (at_ kit config acts j) one.identity := by
  have keyed := keyed_at kit config acts j
  obtain ⟨inside,key,_⟩ := second.begun
  have room := Nat.lt_of_le_of_lt (drawn_at kit config acts j) inside
  rcases first.followed distinct order with ⟨pending,kept⟩ | ⟨spent,lost⟩
  · rw [and_iff_left kept]
    have drawn := keyed.pending _ _ pending
    constructor
    · intro same
      rcases idempotencyKey_cases kit (at_ kit config acts j) other.identity with ⟨found,there,chosen⟩ | ⟨_,chosen⟩
      · rw [chosen] at key
        have equal : found = one.idempotencyKey := key.trans same
        exact keyed.single distinct (Nat.le_of_lt room) (keyed.pending _ _ there) (equal ▸ drawn)
      · rw [chosen] at key
        exact absurd (same.symm.trans key.symm) (keyed.fresh distinct room drawn)
    · intro same
      rcases idempotencyKey_cases kit (at_ kit config acts j) other.identity with ⟨found,there,chosen⟩ | ⟨absent,_⟩
      · rw [chosen] at key
        rw [same,pending] at there
        exact key.symm.trans (Option.some.inj there).symm
      · rw [same,pending] at absent
        cases absent
  · constructor
    · intro same
      exact absurd (key.trans same) ((keyed.renewed distinct room spent other.identity none).2 rfl)
    · intro same
      exact absurd same.2 lost

-- The jobs that a server has accepted under keys for one text have different keys.
theorem jobs_keyed {server : Remember.Config} {moves : Remember.Moves} {m : Nat} {owner : String} {jobs : List Remember.JobId}
    {key : Remember.JobId → String} (apart : jobs.Nodup)
    (accepted : ∀ job ∈ jobs, (owner,some (key job),job) ∈ (Remember.state server moves m).accepted) :
    (jobs.map key).Nodup := by
  have consistent := Remember.consistent_at server moves m
  refine apart.map_on ?_
  intro job member other among same
  obtain ⟨row,found,mine,keyed⟩ := consistent.accepted _ _ _ (accepted job member)
  obtain ⟨row',found',mine',keyed'⟩ := consistent.accepted _ _ _ (accepted other among)
  exact consistent.keys job other row row' (key job) found found' (mine.trans mine'.symm) keyed (same ▸ keyed')

end Runs

-- What a call without a key of its own sends is what an earlier one has sent exactly
-- if it is for the same text and namespace, and none for these was acknowledged (or
-- done, where it waits) in between and the client not destroyed. The jobs that the
-- server accepts for one text are at most one more than these.
theorem retries_collapse (kit : Kit) (config : MemWalConfig) (acts : List Act) (distinct : kit.Distinct acts.length) :
    (∀ i j one other, i < j → Sent kit config acts i one → Sent kit config acts j other →
      (other.idempotencyKey = one.idempotencyKey ↔ other.identity = one.identity ∧
        (at_ kit config acts (i+1)).Keeps (at_ kit config acts j) one.identity) ∧
      (Char.ofNat 0 ∉ one.ns.toList → Char.ofNat 0 ∉ other.ns.toList →
        (other = one ↔ other.ns = one.ns ∧ other.text = one.text ∧
          (at_ kit config acts (i+1)).Keeps (at_ kit config acts j) one.identity))) ∧
    ∀ (server : Remember.Config) (moves : Remember.Moves) (i m : Nat) (owner identity : String)
      (jobs : List Remember.JobId), jobs.Nodup →
      (∀ job ∈ jobs, ∃ body, (true,body) ∈ (at_ kit config acts i).bodies ∧ body.identity = identity ∧
        (owner,some body.idempotencyKey,job) ∈ (Remember.state server moves m).accepted) →
      jobs.length ≤ (at_ kit config acts i).released.count identity + (at_ kit config acts i).destroyed + 1 := by
  constructor
  · intro i j one other order first second
    have reuses := first.reuses distinct order second
    refine ⟨reuses,?_⟩
    intro plain plain'
    have fields := identity_eq_iff plain plain'
    constructor
    · rintro rfl
      exact ⟨rfl,rfl,(reuses.mp rfl).2⟩
    · intro same
      obtain ⟨ns,text,kept⟩ := same
      have key := reuses.mpr ⟨fields.mpr ⟨ns,text⟩,kept⟩
      cases one
      cases other
      simp only at ns text key
      rw [ns,text,key]
  · intro server moves i m owner identity jobs apart accepted
    have keyed := keyed_at kit config acts i
    have some_ : Nonempty RememberBody := ⟨⟨"","",""⟩⟩
    choose! body sent own taken using accepted
    have listed : jobs.map (fun job => (body job).idempotencyKey) ⊆ (at_ kit config acts i).keys identity := by
      intro key member
      obtain ⟨job,among,rfl⟩ := List.mem_map.mp member
      refine List.mem_map.mpr ⟨_,List.mem_filter.mpr ⟨keyed.sent _ (sent job among),?_⟩,rfl⟩
      exact decide_eq_true (own job among)
    have most := (List.subperm_of_subset (jobs_keyed apart taken) listed).length_le
    rw [List.length_map] at most
    have bound := keyed.balance identity
    split at bound
    · exact most.trans bound
    · exact most.trans (bound.trans (Nat.le_succ _))

-- The first call fails, its retry waits for the job, and the text is remembered once
-- more when this is done.
def sampleActs : List Act :=
  [.remember 0 false "note" none none,.failed 0,.remember 1 true "note" none none,.accepted 1 "0",.completed 1,
    .remember 2 false "note" (some "default") none]

def noted (n : Nat) : RememberBody := ⟨"note","default",sampleKit.randomUUID n⟩

-- The server hears all three.
def sampleMoves : Remember.Moves :=
  .spawn 0 (.remember ⟨"owner","account","key"⟩ ⟨"note","default",some (noted 0).idempotencyKey⟩) ::
    Remember.turns 0 6 ++
  .spawn 1 (.remember ⟨"owner","account","key"⟩ ⟨"note","default",some (noted 0).idempotencyKey⟩) ::
    Remember.turns 1 6 ++
  .spawn 2 (.remember ⟨"owner","account","key"⟩ ⟨"note","default",some (noted 1).idempotencyKey⟩) :: Remember.turns 2 6

theorem sampleActs_collapse :
    (at_ sampleKit sampleClient sampleActs 1).Keeps (at_ sampleKit sampleClient sampleActs 2) (noted 0).identity ∧
    ¬ (at_ sampleKit sampleClient sampleActs 3).Keeps (at_ sampleKit sampleClient sampleActs 5) (noted 0).identity ∧
    [0,4].length ≤ (at_ sampleKit sampleClient sampleActs 6).released.count (noted 0).identity +
      (at_ sampleKit sampleClient sampleActs 6).destroyed + 1 := by
  have distinct : sampleKit.Distinct sampleActs.length := by decide +kernel
  have first : Sent sampleKit sampleClient sampleActs 0 (noted 0) := by decide +kernel
  have second : Sent sampleKit sampleClient sampleActs 2 (noted 0) := by decide +kernel
  have third : Sent sampleKit sampleClient sampleActs 5 (noted 1) := by decide +kernel
  have collapse := retries_collapse sampleKit sampleClient sampleActs distinct
  refine ⟨?_,?_,?_⟩
  · exact ((collapse.1 0 2 _ _ (by decide) first second).1.mp rfl).2
  · intro kept
    have same := (collapse.1 2 5 _ _ (by decide) second third).1.mpr ⟨rfl,kept⟩
    exact absurd same (by decide +kernel)
  · refine collapse.2 Remember.sampleConfig sampleMoves 6 21 "owner" _ [0,4] (by decide) ?_
    have heard : ∀ job ∈ [0,4], ∃ n ∈ [0,1],(true,noted n) ∈ (at_ sampleKit sampleClient sampleActs 6).bodies ∧
        ("owner",some (noted n).idempotencyKey,job) ∈ (Remember.state Remember.sampleConfig sampleMoves 21).accepted := by
      decide +kernel
    intro job member
    obtain ⟨n,_,sent,taken⟩ := heard job member
    exact ⟨noted n,sent,rfl,taken⟩

end MemWal.Sdk
