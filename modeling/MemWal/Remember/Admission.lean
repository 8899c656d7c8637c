import MemWal.Remember.Parties

namespace MemWal.Remember
open Library Library.Fallible

variable {config : Config} {s : System} {k : Nat} {ε α β γ : Type}

def Idle (k : Nat) (s : System) : Prop := s.deliveries.get? k = none

-- What a route or a task can count on across its own calls, too.
structure Stays (config : Config) (k : Nat) (s now : System) : Prop where
  grows : Grows config s now
  idle : Idle k s → Idle k now

theorem Stays.refl (s : System) : Stays config k s s := ⟨.refl s,id⟩

theorem Stays.trans {a b c : System} (first : Stays config k a b) (second : Stays config k b c) : Stays config k a c :=
  ⟨first.grows.trans second.grows,fun idle => second.idle (first.idle idle)⟩

theorem Stays.of_later {now : System} (since : Later config k s now) : Stays config k s now :=
  ⟨since.toGrows,fun idle => since.deliveries.trans idle⟩

theorem Idle.same {next : System} (idle : Idle k s) (same : next.deliveries = s.deliveries) : Idle k next := by
  unfold Idle
  rw [same]
  exact idle

theorem served_idle {op : Op} {c : Choice} (route : ∀ task attempt, op ≠ .fetch task attempt) (idle : Idle k s) :
    Idle k (serve config s k op c).1 := by
  have faulty : ∀ {α : Type} (fault : Fault) (next : System) (answer : α), next.deliveries = s.deliveries →
      Idle k (s.faulty fault next answer).1 := by
    intro α fault next answer same
    cases fault with
    | none => exact idle.same same
    | before => exact idle
    | after => exact idle.same same
  have noted : ∀ (next : System) (f : Delivery → Delivery), Idle k next → Idle k (next.note k f) := by
    intro next f free
    change (next.deliveries.modify k f).get? k = none
    rw [Store.modify,Store.get?_map,free]
    rfl
  cases op with
  | fetch task attempt => exact absurd rfl (route task attempt)
  | update jobs statement => exact noted _ _ (faulty _ _ _ rfl)
  | findByKey => exact faulty _ _ _ rfl
  | claimPreparation => exact faulty _ _ _ rfl
  | claimPaidRecovery => exact faulty _ _ _ rfl
  | pushBulk => exact faulty _ _ _ rfl
  | sealEncrypt => exact faulty _ _ _ rfl
  | getTransaction => exact faulty _ _ _ rfl
  | probe => exact faulty _ _ _ rfl
  | fetchBulk => exact idle
  | acknowledgeBulk => exact idle
  | spawn => exact idle
  | takeTask => exact idle
  | accept => exact idle
  | respond => exact idle
  | nextIndex => exact idle
  | newUuid => exact idle
  | post => exact idle
  | select =>
    simp only [serve]
    split
    · exact noted _ _ idle
    · exact idle
  | insert =>
    simp only [serve]
    split
    · exact idle
    · split <;> exact faulty _ _ _ rfl
  | setMetadataBatch =>
    simp only [serve]
    split <;> exact idle
  | tryAcquire =>
    simp only [serve]
    split
    · split <;> exact idle
    · exact idle
  | release =>
    simp only [serve]
    split <;> exact idle
  | push =>
    simp only [serve]
    split
    · exact noted _ _ idle
    · exact idle
    · exact idle
  | acknowledge =>
    have gone : (s.deliveries.erase k).get? k = none := by simp [Store.get?_erase]
    simp only [serve]
    split <;> exact gone
  | insertVector =>
    simp only [serve]
    split
    · exact idle
    · split <;> exact idle
  | receive =>
    simp only [serve]
    split <;> exact idle
  | take =>
    simp only [serve]
    split <;> exact idle
  | executeTransaction =>
    simp only [serve]
    split <;> exact idle

theorem served_stays {op : Op} {c : Choice} (route : ∀ task attempt, op ≠ .fetch task attempt)
    (inv : Consistent config s) (allowed : Allowed config s k op) :
    Stays config k s (serve config s k op c).1 := by
  have steps := serves inv op c allowed
  exact ⟨(steps.others (k+1) (Nat.succ_ne_self k)).toGrows,served_idle route⟩

-- From a consistent state on, every call is allowed; `post` speaks of what is returned.
def Conducts (config : Config) (k : Nat) (post : α → System → Prop) (p : Program Op Op.Answer ε α) (s : System) : Prop :=
  Consistent config s → Keeps (order config) k (fun result now => Stays config k s now ∧
    ∀ value, result = .ok value → post value now) p s

namespace Conducts
variable {post : α → System → Prop} {p : Program Op Op.Answer ε α}

theorem done {value : α} (ended : post value s) : Conducts config k post (.done value : Program Op Op.Answer ε α) s := by
  intro _
  refine ⟨.refl s,?_⟩
  intro _ same
  cases same
  exact ended

theorem fail {error : ε} : Conducts config k post (.fail error : Program Op Op.Answer ε α) s :=
  fun _ => ⟨.refl s,fun _ impossible => nomatch impossible⟩

theorem orFail {convert : γ → ε} {result : Except γ α} (ok : ∀ value, result = .ok value → post value s) :
    Conducts config k post (Program.orFail convert result) s := by
  cases result with
  | ok value => exact done (ok value rfl)
  | error error => exact fail

theorem perform {op : Op} {post : op.Answer → System → Prop} (route : ∀ task attempt, op ≠ .fetch task attempt)
    (one : ∀ now, Stays config k s now → Consistent config now → Allowed config now k op ∧
      ∀ c, post (serve config now k op c).2 (serve config now k op c).1) :
    Conducts config k post (Program.perform op : Program Op Op.Answer ε op.Answer) s := by
  intro _ now since inv
  obtain ⟨allowed,ended⟩ := one now (.of_later since) inv
  refine ⟨allowed,fun c _ => ⟨(Stays.of_later since).trans (served_stays route inv allowed),?_⟩⟩
  intro _ same
  cases same
  exact ended c

theorem weaken {weaker : α → System → Prop} (conducts : Conducts config k post p s)
    (implies : ∀ value now, Stays config k s now → post value now → weaker value now) :
    Conducts config k weaker p s := by
  intro inv
  refine Keeps.weaken (conducts inv) ?_
  intro result now known
  exact ⟨known.1,fun value same => implies value now known.1 (known.2 value same)⟩

theorem bind {Q : α → System → Prop} {post : β → System → Prop} {next : α → Program Op Op.Answer ε β}
    (first : Conducts config k Q p s)
    (rest : ∀ value now, Stays config k s now → Q value now → Conducts config k post (next value) now) :
    Conducts config k post (p >>= next) s := by
  intro inv
  refine Keeps.bind inv (first inv) ?_ ?_
  · intro value now sound known
    refine Keeps.weaken (rest value now known.1 (known.2 value rfl) sound) ?_
    intro result after ended
    exact ⟨known.1.trans ended.1,ended.2⟩
  · intro error now _ known
    exact ⟨known.1,fun _ impossible => nomatch impossible⟩

theorem attempt {Q : Except ε α → System → Prop} (conducts : Conducts config k post p s)
    (ok : ∀ value now, Stays config k s now → post value now → Q (.ok value) now)
    (error : ∀ e now, Stays config k s now → Q (.error e) now) :
    Conducts config k Q (p.attempt : Program Op Op.Answer γ (Except ε α)) s := by
  intro inv
  refine Keeps.weaken (Keeps.attempt (conducts inv)) ?_
  intro result now known
  obtain ⟨inner,rfl,since,ended⟩ := known
  refine ⟨since,?_⟩
  intro value same
  cases same
  cases inner with
  | ok value => exact ok value now since (ended value rfl)
  | error e => exact error e now since

-- A loop whose invariant holds on.
theorem foldlM {I : γ → System → Prop} {f : γ → β → Program Op Op.Answer ε γ} {items : List β}
    (body : ∀ item acc now, item ∈ items → Stays config k s now → I acc now → Conducts config k I (f acc item) now)
    (acc : γ) (start : I acc s) : Conducts config k I (items.foldlM f acc) s := by
  suffices from_ : ∀ rest acc now, rest ⊆ items → Stays config k s now → I acc now →
      Conducts config k I (rest.foldlM f acc) now from from_ items acc s (List.Subset.refl _) (.refl s) start
  intro rest
  induction rest with
  | nil => exact fun acc now _ _ held => done held
  | cons item rest ih =>
    intro acc now within since held
    rw [List.foldlM_cons]
    refine bind (body item acc now (within List.mem_cons_self) since held) ?_
    intro value after more known
    exact ih value after (fun _ member => within (List.mem_cons_of_mem _ member)) (since.trans more) known

theorem keeps (conducts : Conducts config k post p s) (inv : Consistent config s) :
    Keeps (order config) k (fun _ _ => True) p s :=
  Keeps.weaken (conducts inv) (fun _ _ _ => trivial)

end Conducts

-- What calls answer

theorem keyTaken_false {row : Row} (none_ : row.idempotencyKey = none) : s.keyTaken row = false := by
  simp only [System.keyTaken,none_]

-- An insert that reports a row has written it.
theorem served_insert {job : JobId} {row : Row} {c : Choice} {rows : Nat}
    (ok : (serve config s k (.insert job row) c).2 = .ok rows) (some_ : rows ≠ 0) :
    (serve config s k (.insert job row) c).1.rows.get? job = some {row with updatedAt := s.clock} := by
  simp only [serve] at ok ⊢
  split at ok
  · cases ok
  · rename_i fresh
    rw [if_neg fresh]
    split at ok
    · exact absurd (faulty_ok ok).2.symm some_
    · rename_i free
      rw [if_neg free,(faulty_ok ok).1]
      change (s.rows.insert job {row with updatedAt := s.clock}).get? job = some {row with updatedAt := s.clock}
      rw [Store.get?_insert _ (not_not.mp fresh),if_pos rfl]

theorem served_insert_unkeyed {job : JobId} {row : Row} {c : Choice} {rows : Nat} (unkeyed : row.idempotencyKey = none)
    (ok : (serve config s k (.insert job row) c).2 = .ok rows) : rows ≠ 0 := by
  simp only [serve,keyTaken_false unkeyed] at ok
  split at ok
  · cases ok
  · rw [if_neg Bool.false_ne_true] at ok
    rw [← (faulty_ok ok).2]
    exact Nat.one_ne_zero

theorem findByKey_some {owner key : String} {job : JobId} {row : Row} (found : s.findByKey owner key = some (job,row)) :
    s.rows.get? job = some row ∧ row.owner = owner ∧ row.idempotencyKey = some key := by
  have holds := List.find?_some found
  simp only [decide_eq_true_eq] at holds
  exact ⟨Store.get?_eq_some.mpr (List.mem_of_find?_eq_some found),holds⟩

-- Shared steps of the routes

section Steps
variable {post : Nat → System → Prop}

theorem conducts_inquire {what : Probe} {failure : String} :
    Conducts config k (fun _ _ => True) (inquire what failure) s := by
  refine .bind (Q:=fun _ _ => True) (.perform (fun _ _ => nofun) (fun _ _ _ => ⟨trivial,fun _ => trivial⟩)) ?_
  exact fun _ _ _ _ => .orFail (fun _ _ => trivial)

theorem conducts_nextIndex : Conducts config k (fun _ _ => True) (nextIndex config) s := by
  unfold nextIndex
  split
  · exact .fail
  · refine .bind (Q:=fun _ _ => True) (.perform (fun _ _ => nofun) (fun _ _ _ => ⟨trivial,fun _ => trivial⟩)) ?_
    exact fun _ _ _ _ => .done trivial

theorem conducts_sealEncrypt {preparation : Nat} :
    Conducts config k (fun encrypted _ => encrypted = config.sealEncrypted preparation) (sealEncrypt preparation) s := by
  refine .bind (Q:=fun answer _ => ∀ encrypted, answer = .ok encrypted → encrypted = config.sealEncrypted preparation)
    (.perform (fun _ _ => nofun) (fun now _ _ => ⟨trivial,fun c => ?_⟩)) ?_
  · intro encrypted ok
    exact (faulty_ok ok).2.symm
  · exact fun _ _ _ known => .orFail known

theorem conducts_embedText {text : String} : Conducts config k (fun _ _ => True) (embedText config text) s := by
  unfold embedText
  split
  · refine .bind (Q:=fun _ _ => True) conducts_inquire (fun _ _ _ _ => ?_)
    exact .bind (Q:=fun _ _ => True) conducts_inquire (fun _ _ _ _ => .done trivial)
  · exact .bind (Q:=fun _ _ => True) conducts_inquire (fun _ _ _ _ => .done trivial)

theorem conducts_newUuid : Conducts config k (fun _ _ => True) (Program.perform Op.newUuid : Route Nat) s :=
  .perform (fun _ _ => nofun) (fun _ _ _ => ⟨trivial,fun _ => trivial⟩)

-- An upload is pushed by someone who delivers nothing.
theorem conducts_push {walletIndex : Nat} {preparation : Preparation} {owner ns : String} {job : JobId}
    {token : Option Token} (idle : Idle k s) (prepared : Prepared config s job token preparation) :
    Conducts config k (fun _ _ => True)
      (enqueueWalletJob walletIndex (.uploadAndTransfer preparation owner ns job token)) s := by
  refine .bind (Q:=fun _ _ => True) (.perform (fun _ _ => nofun) (fun now since _ => ⟨⟨?_,?_⟩,fun _ => trivial⟩)) ?_
  · exact Prepared.stays since.grows prepared
  · exact since.idle idle
  · exact fun _ _ _ _ => .orFail (fun _ _ => trivial)

end Steps

-- Preparation

theorem served_persist {job : JobId} {token : Token} {preparation : Preparation} {c : Choice} {rows : Nat}
    (sealed : preparation.encrypted = config.sealEncrypted token) (drawn : token < s.nextId) (single : Single s job)
    (ok : (serve config s k (.update [job] (.persistPreparation token preparation)) c).2 = .ok rows)
    (some_ : rows ≠ 0) :
    Sealed config (serve config s k (.update [job] (.persistPreparation token preparation)) c).1 job token := by
  obtain ⟨row,found,no⟩ := single
  have counted : s.affected [job] (.persistPreparation token preparation) ≠ 0 := by
    rw [(faulty_ok ok).2]
    exact some_
  obtain ⟨other,there,applies⟩ := affected_one counted
  cases found.symm.trans there
  have written := served_update_rows found ok
  rw [if_pos applies] at written
  have same : (serve config s k (.update [job] (.persistPreparation token preparation)) c).1.nextId = s.nextId := by
    simp only [serve,System.faulty,System.note]
    split <;> rfl
  have current : row.prepareClaimToken = some token := by simpa [Statement.applies] using applies
  exact ⟨same ▸ drawn,_,written,no,fun _ => ⟨preparation,rfl,sealed⟩,fun _ => ⟨token,current,Nat.le_refl _⟩⟩

theorem conducts_persist {job : JobId} {token : Token} {preparation : Preparation} {failure : String}
    (sealed : preparation.encrypted = config.sealEncrypted token) (drawn : token < s.nextId) (single : Single s job) :
    Conducts config k (fun rows now => rows ≠ 0 → Sealed config now job token)
      (statement job (.persistPreparation token preparation) failure) s := by
  refine .bind (Q:=fun answer now => ∀ rows, answer = .ok rows → rows ≠ 0 → Sealed config now job token)
    (.perform (fun _ _ => nofun) (fun now since _ => ⟨?_,fun c => ?_⟩)) ?_
  · intro other member
    cases List.mem_singleton.mp member
    exact sealed
  · intro rows ok some_
    exact served_persist sealed (Nat.lt_of_lt_of_le drawn since.grows.drawn) (single.stays since.grows) ok some_
  · exact fun _ _ _ known => .orFail known

theorem conducts_prepareRememberJob {job : JobId} {token : Token} {text owner accountId ns agentPublicKey : String}
    (idle : Idle k s) (drawn : token < s.nextId) (single : Single s job) :
    Conducts config k (fun _ _ => True) (prepareRememberJob config job token text owner accountId ns agentPublicKey)
      s := by
  refine .bind conducts_embedText (fun vector one s1 _ => ?_)
  refine .bind conducts_sealEncrypt (fun encrypted two s2 sealed => ?_)
  refine .bind conducts_inquire (fun _ three s3 _ => ?_)
  refine .bind conducts_nextIndex (fun walletIndex four s4 _ => ?_)
  have since : Stays config k s four := ((s1.trans s2).trans s3).trans s4
  refine .bind (conducts_persist sealed (Nat.lt_of_lt_of_le drawn since.grows.drawn) (single.stays since.grows)) ?_
  intro rows five s5 known
  by_cases one_ : rows = 1
  · rw [if_neg (not_not.mpr one_)]
    exact conducts_push ((since.trans s5).idle idle) ⟨sealed,known (one_ ▸ Nat.one_ne_zero)⟩
  · rw [if_pos one_]
    exact .done trivial

theorem conducts_prepareItem {prepared : List (PendingBulkRememberItem × List Nat × Ciphertext)}
    {item : PendingBulkRememberItem}
    (held : ∀ entry ∈ prepared, Batched s entry.1.jobId ∧ entry.2.2 = config.sealEncrypted entry.1.jobId)
    (batched : Batched s item.jobId) :
    Conducts config k (fun prepared now => ∀ entry ∈ prepared,
      Batched now entry.1.jobId ∧ entry.2.2 = config.sealEncrypted entry.1.jobId) (prepareItem config prepared item)
      s := by
  refine .bind conducts_embedText (fun vector one s1 _ => ?_)
  refine .bind conducts_sealEncrypt (fun encrypted two s2 sealed => .done ?_)
  intro entry member
  have since := s1.trans s2
  rcases List.mem_append.mp member with old | new
  · exact ⟨(held entry old).1.stays since.grows,(held entry old).2⟩
  · cases List.mem_singleton.mp new
    exact ⟨batched.stays since.grows,sealed⟩

theorem conducts_bulkItem {items : List BulkRememberItem}
    {prepared : PendingBulkRememberItem × List Nat × Ciphertext}
    (held : ∀ item ∈ items, Batched s item.jobId ∧ item.encrypted = config.sealEncrypted item.jobId)
    (here : Batched s prepared.1.jobId ∧ prepared.2.2 = config.sealEncrypted prepared.1.jobId) :
    Conducts config k (fun items now => ∀ item ∈ items,
      Batched now item.jobId ∧ item.encrypted = config.sealEncrypted item.jobId) (bulkItem config items prepared) s := by
  refine .bind conducts_nextIndex (fun walletIndex now since _ => .done ?_)
  intro item member
  rcases List.mem_append.mp member with old | new
  · exact ⟨(held item old).1.stays since.grows,(held item old).2⟩
  · cases List.mem_singleton.mp new
    exact ⟨here.1.stays since.grows,here.2⟩

theorem conducts_prepareBulk {owner accountId agentPublicKey : String} {pending : List PendingBulkRememberItem}
    (batched : ∀ item ∈ pending, Batched s item.jobId) :
    Conducts config k (fun _ _ => True) (prepareBulkRememberJob config owner accountId agentPublicKey pending) s := by
  refine .bind (Q:=fun prepared now => ∀ entry ∈ prepared,
    Batched now entry.1.jobId ∧ entry.2.2 = config.sealEncrypted entry.1.jobId)
    (.foldlM (fun item acc now member since held => ?_) [] (fun _ member => nomatch member))
    (fun prepared one s1 sealed => ?_)
  · exact conducts_prepareItem held ((batched item member).stays since.grows)
  refine .bind conducts_inquire (fun _ two s2 _ => ?_)
  refine .bind (Q:=fun items now => ∀ item ∈ items,
    Batched now item.jobId ∧ item.encrypted = config.sealEncrypted item.jobId)
    (.foldlM (fun entry acc now member since held => ?_) [] (fun _ member => nomatch member))
    (fun items three s3 sound => ?_)
  · have known := sealed entry member
    exact conducts_bulkItem held ⟨known.1.stays (s2.trans since).grows,known.2⟩
  refine .bind (Q:=fun _ _ => True) (.perform (fun _ _ => nofun) (fun now since _ => ⟨?_,fun _ => trivial⟩))
    (fun _ _ _ _ => .orFail (fun _ _ => trivial))
  intro item member
  exact ⟨(sound item member).1.stays since.grows,(sound item member).2⟩

theorem conducts_update {jobs : List JobId} {statement : Statement}
    (free : ∀ now job, AllowedStatement config now k job statement) :
    Conducts config k (fun _ _ => True) (Program.perform (Op.update jobs statement) : Route (Except Unit Nat)) s :=
  .perform (fun _ _ => nofun) (fun now _ _ => ⟨fun job _ => free now job,fun _ => trivial⟩)

theorem conducts_runTask {task : Task} (idle : Idle k s) (sound : TaskSound s task) :
    Conducts config k (fun _ _ => True) (runTask config task) s := by
  cases task with
  | prepareRemember job token text owner accountId ns agentPublicKey =>
    refine .bind (Q:=fun _ _ => True) (.attempt (conducts_prepareRememberJob idle sound.1 sound.2)
      (fun _ _ _ _ => trivial) (fun _ _ _ => trivial)) ?_
    intro result now _ _
    cases result with
    | ok value => exact .done trivial
    | error error => exact .bind (conducts_update (fun _ _ => trivial)) (fun _ _ _ _ => .done trivial)
  | prepareBulk owner accountId agentPublicKey pending =>
    refine .bind (Q:=fun _ _ => True) (.attempt (conducts_prepareBulk sound)
      (fun _ _ _ _ => trivial) (fun _ _ _ => trivial)) ?_
    intro result now _ _
    cases result with
    | ok value => exact .done trivial
    | error error =>
      change Conducts config k (fun _ _ => True) (markRememberJobsFailed (pending.map PendingBulkRememberItem.jobId)) now
      unfold markRememberJobsFailed
      split
      · exact .done trivial
      · exact .bind (conducts_update (fun _ _ => trivial)) (fun _ _ _ _ => .done trivial)

theorem conducts_taskWorker (id : Nat) (idle : Idle k s) : Conducts config k (fun _ _ => True) (taskWorker config id) s := by
  refine .bind (Q:=fun taken now => ∀ task, taken = some task → TaskSound now task)
    (.perform (fun _ _ => nofun) (fun now _ inv => ⟨trivial,fun c => ?_⟩)) ?_
  · intro task found
    exact (inv.tasks id task found)
  · intro taken now since known
    cases taken with
    | none => exact .done trivial
    | some task => exact conducts_runTask (since.idle idle) (known task rfl)

-- Fan-out

theorem conducts_fanOut {job : BulkRememberJob} (idle : Idle k s) (sound : BulkSound config s job) :
    Conducts config k (fun _ _ => True) (executeBulkRemember job) s := by
  refine .foldlM (I:=fun _ _ => True) (fun item _ now member since _ => ?_) () trivial
  obtain ⟨⟨row,found,batched⟩,sealed⟩ := sound item member
  have here : Batched now item.jobId := Batched.stays since.grows ⟨row,found,batched⟩
  obtain ⟨row,found,batched⟩ := here
  exact conducts_push (since.idle idle) ⟨row,found,.inr ⟨batched,sealed⟩⟩

theorem conducts_bulkWorker (task : Nat) (idle : Idle k s) :
    Conducts config k (fun _ _ => True) (bulkWorker task) s := by
  refine .bind (Q:=fun fetched now => ∀ job, fetched = some job → BulkSound config now job)
    (.perform (fun _ _ => nofun) (fun now _ inv => ⟨trivial,fun c => inv.bulk task⟩)) ?_
  intro fetched now since known
  cases fetched with
  | none => exact .done trivial
  | some job =>
    refine .bind (conducts_fanOut (since.idle idle) (known job rfl)) (fun _ _ _ _ => ?_)
    exact .perform (fun _ _ => nofun) (fun _ _ _ => ⟨trivial,fun _ => trivial⟩)

-- POST /api/remember

def Found (s : System) (owner : String) (key : Option String) (job : JobId) : Prop :=
  ∃ row, s.rows.get? job = some row ∧ row.owner = owner ∧ row.idempotencyKey = key

theorem Found.stays {now : System} {owner : String} {key : Option String} {job : JobId} (grows : Grows config s now)
    (found : Found s owner key job) : Found now owner key job := by
  obtain ⟨row,there,mine,keyed⟩ := found
  obtain ⟨after,later,kept⟩ := grows.rows job row there
  exact ⟨after,later,kept.owner.trans mine,kept.key.trans keyed⟩

theorem Found.single {owner key : String} {job : JobId} (inv : Consistent config s)
    (found : Found s owner (some key) job) : Single s job := by
  obtain ⟨row,there,_,keyed⟩ := found
  refine ⟨row,there,Bool.eq_false_iff.mpr ?_⟩
  intro batched
  rw [((inv.rows job row there).batched batched).2.2] at keyed
  cases keyed

theorem conducts_find {owner key : String} :
    Conducts config k (fun found now => ∀ job row, found = some (job,row) → Found now owner (some key) job ∧ Single now job)
      (findRememberJobByKey owner key) s := by
  refine .bind (Q:=fun answer now => ∀ found, answer = .ok found → ∀ job row, found = some (job,row) →
    Found now owner (some key) job ∧ Single now job)
    (.perform (fun _ _ => nofun) (fun now _ inv => ⟨trivial,fun c => ?_⟩)) (fun _ _ _ known => .orFail known)
  intro found ok job row some_
  have same : (serve config now k (.findByKey owner key) c).1 = now := served_faulty_same
  rw [same]
  have known : Found now owner (some key) job := ⟨row,findByKey_some ((faulty_ok ok).2.trans some_)⟩
  exact ⟨known,known.single inv⟩

theorem conducts_claim {job : JobId} (single : Single s job) :
    Conducts config k (fun claimed now => ∀ token, claimed = some token → token < now.nextId ∧ Single now job)
      (claimRememberPreparation job) s := by
  refine .bind (Q:=fun answer now => ∀ claimed, answer = .ok claimed → ∀ token, claimed = some token →
    token < now.nextId ∧ Single now job)
    (.perform (fun _ _ => nofun) (fun now since inv => ⟨single.stays since.grows,fun c => ?_⟩))
    (fun _ _ _ known => .orFail known)
  intro claimed ok token some_
  obtain ⟨next,answer⟩ := faulty_ok ok
  have allowed : Allowed config now k (.claimPreparation job) := single.stays since.grows
  have stays : Stays config k now (serve config now k (.claimPreparation job) c).1 :=
    served_stays (fun _ _ => nofun) inv allowed
  refine ⟨?_,Single.stays stays.grows allowed⟩
  simp only [serve]
  rw [next]
  rw [some_] at answer
  split at answer
  · cases answer
  · cases answer
    exact Nat.lt_succ_self _

theorem conducts_spawn {task : Task} (sound : TaskSound s task) :
    Conducts config k (fun _ _ => True) (Program.perform (Op.spawn task) : Route Unit) s :=
  .perform (fun _ _ => nofun) (fun _ since _ => ⟨sound.stays since.grows,fun _ => trivial⟩)

theorem conducts_claimAndSpawn {auth : AuthInfo} {body : RememberRequest} {job : JobId} (single : Single s job) :
    Conducts config k (fun _ _ => True) (claimAndSpawn auth body job) s := by
  refine .bind (conducts_claim single) (fun claimed now _ known => ?_)
  cases claimed with
  | none => exact .done trivial
  | some token => exact conducts_spawn (known token rfl)

theorem conducts_recovery {job : JobId} {owner ns : String} (idle : Idle k s) :
    Conducts config k (fun _ _ => True) (enqueuePersistedPaidRecovery config job owner ns) s := by
  refine .bind (Q:=fun answer now => ∀ row, answer = .ok (some row) → now.rows.get? job = some row)
    (.perform (fun _ _ => nofun) (fun now since _ => ⟨?_,fun c => ?_⟩)) (fun answer one s1 known => ?_)
  · intro d delivering
    cases (since.idle idle).symm.trans delivering
  · intro row ok
    rw [served_select_rows]
    simp only [serve] at ok
    split at ok
    · exact Except.ok.inj ok
    · cases ok
  refine .bind (Q:=fun read now => answer = .ok read ∧ Stays config k one now)
    (.orFail (fun read ok => ⟨ok,.refl one⟩)) (fun read two _ told => ?_)
  refine .bind (Q:=fun row now => read.filter (fun row => decide (row.blobId ≠ none)) = some row ∧ Stays config k two now)
    (.orFail (fun row ok => ⟨require_ok.mp ok,.refl two⟩)) (fun row three _ paid => ?_)
  refine .bind (Q:=fun _ now => Stays config k three now) (.orFail (fun _ _ => .refl three))
    (fun preparation four _ s4 => ?_)
  refine .bind conducts_nextIndex (fun walletIndex five s5 _ => ?_)
  obtain ⟨present,blob⟩ := Option.filter_eq_some_iff.mp paid.1
  have since : Stays config k one five := ((told.2.trans paid.2).trans s4).trans s5
  refine conducts_push ((s1.trans since).idle idle) (Prepared.stays since.grows ?_)
  exact ⟨row,known row (present ▸ told.1),.inl (of_decide_eq_true blob)⟩

theorem conducts_claimPaid {job : JobId} : Conducts config k (fun _ _ => True) (claimPaidRecovery job) s := by
  refine .bind (Q:=fun _ _ => True) ?_ (fun _ _ _ _ => .orFail (fun _ _ => trivial))
  exact .perform (fun _ _ => nofun) (fun _ _ _ => ⟨trivial,fun _ => trivial⟩)

theorem conducts_publish {job : JobId} {token : Token} {failure : String} (single : Single s job) :
    Conducts config k (fun _ _ => True) (statement job (.publishPaidRecovery token) failure) s := by
  refine .bind (Q:=fun _ _ => True) (.perform (fun _ _ => nofun) (fun now since _ => ⟨?_,fun _ => trivial⟩))
    (fun _ _ _ _ => .orFail (fun _ _ => trivial))
  intro other member
  cases List.mem_singleton.mp member
  exact single.stays since.grows

theorem conducts_recoverPaid {auth : AuthInfo} {body : RememberRequest} {job : JobId} (idle : Idle k s)
    (single : Single s job) : Conducts config k (fun _ _ => True) (recoverPaid config auth body job) s := by
  refine .bind conducts_claimPaid (fun claimed now since _ => ?_)
  cases claimed with
  | none => exact .done trivial
  | some token =>
    refine .bind (conducts_recovery (since.idle idle)) (fun _ after more _ => ?_)
    exact .bind (conducts_publish (single.stays (since.trans more).grows)) (fun _ _ _ _ => .done trivial)

section Remember
variable {auth : AuthInfo} {body : RememberRequest}

theorem conducts_collapse {fingerprint : String} {job : JobId} {row : Row} (idle : Idle k s) (single : Single s job) :
    Conducts config k (fun response _ => response.1 = job) (collapse config auth body fingerprint job row) s := by
  unfold collapse
  split
  · exact .fail
  · split
    · exact .bind (conducts_claimAndSpawn single) (fun _ _ _ _ => .done rfl)
    · split
      · exact .bind (conducts_recoverPaid idle single) (fun _ _ _ _ => .done rfl)
      · exact .done rfl

theorem conducts_collapseRace {fingerprint : String} {job : JobId} {row : Row} (single : Single s job) :
    Conducts config k (fun response _ => response.1 = job) (collapseRace auth body fingerprint job row) s := by
  unfold collapseRace
  split
  · exact .fail
  · split
    · exact .bind (conducts_claimAndSpawn single) (fun _ _ _ _ => .done rfl)
    · exact .done rfl

theorem conducts_collapseOnto {fingerprint : String} :
    Conducts config k (fun response now => Found now auth.owner body.idempotencyKey response.1)
      (collapseOnto auth body fingerprint) s := by
  unfold collapseOnto
  cases body.idempotencyKey with
  | none => exact .fail
  | some key =>
    refine .bind conducts_find (fun found now _ known => ?_)
    cases found with
    | none => exact .fail
    | some entry =>
      obtain ⟨there,single⟩ := known entry.1 entry.2 rfl
      refine .weaken (conducts_collapseRace single) ?_
      intro response after since same
      exact same ▸ there.stays since.grows

theorem conducts_insert {job : JobId} {row : Row} (new : NewRow row) :
    Conducts config k (fun answer now => ∀ rows, answer = .ok rows → (row.idempotencyKey = none ∨ rows ≠ 0) →
      ∃ after, now.rows.get? job = some after ∧ after.owner = row.owner ∧ after.idempotencyKey = row.idempotencyKey ∧
        after.batched = row.batched) (Program.perform (Op.insert job row) : Route (Except Unit Nat)) s := by
  refine .perform (fun _ _ => nofun) (fun now _ _ => ⟨new,fun c => ?_⟩)
  intro rows ok keyed
  have some_ : rows ≠ 0 := by
    rcases keyed with unkeyed | some_
    · exact served_insert_unkeyed unkeyed ok
    · exact some_
  exact ⟨_,served_insert ok some_,rfl,rfl,rfl⟩

theorem conducts_createJob {fingerprint : String} :
    Conducts config k (fun response now => Found now auth.owner body.idempotencyKey response.1)
      (createJob auth body fingerprint) s := by
  refine .bind conducts_newUuid (fun job one _ _ => ?_)
  refine .bind (conducts_insert ⟨rfl,rfl,rfl,rfl,nofun,rfl,rfl⟩) (fun inserted two _ known => ?_)
  refine .bind (Q:=fun rows now => Stays config k two now ∧ inserted = .ok rows) (.orFail (fun rows ok => ⟨.refl two,ok⟩))
    (fun rows three _ told => ?_)
  by_cases nothing : rows = 0
  · rw [if_pos nothing]
    exact conducts_collapseOnto
  · rw [if_neg nothing]
    obtain ⟨row,there,mine,keyed,single⟩ := known rows told.2 (.inr nothing)
    have found : Found three auth.owner body.idempotencyKey job := Found.stays told.1.grows ⟨row,there,mine,keyed⟩
    refine .bind (conducts_claim (Single.stays told.1.grows ⟨row,there,single⟩)) (fun claimed four s4 sound => ?_)
    refine .bind (Q:=fun token now => Stays config k four now ∧ claimed = some token)
      (.orFail (fun token ok => ⟨.refl four,require_ok.mp ok⟩)) (fun token five _ drawn => ?_)
    have task : TaskSound five
        (.prepareRemember job token body.text auth.owner auth.accountId body.ns auth.publicKey) :=
      TaskSound.stays drawn.1.grows (sound token drawn.2)
    refine .bind (conducts_spawn task) (fun _ six s6 _ => .done ?_)
    exact found.stays ((s4.trans drawn.1).trans s6).grows

theorem conducts_remember (idle : Idle k s) :
    Conducts config k (fun response now => Found now auth.owner body.idempotencyKey response.1)
      (remember config auth body) s := by
  refine .bind (Q:=fun _ _ => True) (.orFail (fun _ _ => trivial)) (fun _ one s1 _ => ?_)
  refine .bind (Q:=fun found now => ∀ job row, found = some (job,row) →
    Found now auth.owner body.idempotencyKey job ∧ Single now job) ?_ (fun found two s2 known => ?_)
  · cases body.idempotencyKey with
    | none => exact .done (fun _ _ some_ => nomatch some_)
    | some key => exact conducts_find
  · cases found with
    | none => exact conducts_createJob
    | some entry =>
      obtain ⟨there,single⟩ := known entry.1 entry.2 rfl
      refine .weaken (conducts_collapse ((s1.trans s2).idle idle) single) ?_
      intro response after since same
      exact same ▸ there.stays since.grows

theorem conducts_rememberRequest (idle : Idle k s) :
    Conducts config k (fun _ _ => True) (rememberRequest config auth body) s := by
  refine .bind (conducts_remember idle) (fun response now _ found => ?_)
  refine .perform (fun _ _ => nofun) (fun after since _ => ⟨?_,fun _ => trivial⟩)
  exact found.stays since.grows

end Remember

-- POST /api/remember/bulk and /api/analyze

theorem new_batchedRow (owner ns : String) : NewRow (batchedRow owner ns) :=
  ⟨rfl,rfl,rfl,rfl,fun _ => rfl,rfl,rfl⟩

theorem conducts_insertBatched {job : JobId} {owner ns failure : String} :
    Conducts config k (fun _ now => Batched now job) (insertBatched job owner ns failure) s := by
  refine .bind (conducts_insert (new_batchedRow owner ns)) (fun inserted one _ known => ?_)
  refine .bind (Q:=fun _ now => Batched now job) (.orFail (fun rows ok => ?_)) (fun _ _ _ batched => .done batched)
  obtain ⟨row,there,_,_,batched⟩ := known rows ok (.inl rfl)
  exact ⟨row,there,batched⟩

theorem conducts_insertPending {owner : String} {pending : List PendingBulkRememberItem} {item : String × String}
    (held : ∀ item ∈ pending, Batched s item.jobId) :
    Conducts config k (fun pending now => ∀ item ∈ pending, Batched now item.jobId)
      (insertPending owner pending item) s := by
  refine .bind conducts_newUuid (fun job one s1 _ => ?_)
  refine .bind conducts_insertBatched (fun _ two s2 batched => .done ?_)
  intro entry member
  rcases List.mem_append.mp member with old | new
  · exact (held entry old).stays (s1.trans s2).grows
  · cases List.mem_singleton.mp new
    exact batched

theorem conducts_rememberBulk {auth : AuthInfo} {items : List (String × String)} :
    Conducts config k (fun _ _ => True) (rememberBulk auth items) s := by
  refine .bind (Q:=fun _ _ => True) (.orFail (fun _ _ => trivial)) (fun _ one _ _ => ?_)
  refine .bind (Q:=fun pending now => ∀ item ∈ pending, Batched now item.jobId)
    (.foldlM (fun item acc now _ _ held => conducts_insertPending held) [] (fun _ member => nomatch member))
    (fun pending two _ batched => ?_)
  exact conducts_spawn batched

theorem conducts_prepareFact {prepared : List PreparedFact} {fact : String × Nat}
    (held : ∀ fact ∈ prepared, fact.encrypted = config.sealEncrypted fact.jobId) :
    Conducts config k (fun prepared _ => ∀ fact ∈ prepared, fact.encrypted = config.sealEncrypted fact.jobId)
      (prepareFact prepared fact) s := by
  refine .bind conducts_newUuid (fun job _ _ _ => ?_)
  refine .bind conducts_inquire (fun _ _ _ _ => ?_)
  refine .bind conducts_sealEncrypt (fun encrypted _ _ sealed => .done ?_)
  intro entry member
  rcases List.mem_append.mp member with old | new
  · exact held entry old
  · cases List.mem_singleton.mp new
    exact sealed

theorem conducts_enqueueFact {auth : AuthInfo} {ns : String} {fact : PreparedFact} (idle : Idle k s)
    (sealed : fact.encrypted = config.sealEncrypted fact.jobId) :
    Conducts config k (fun _ _ => True) (enqueueFact config auth ns fact) s := by
  refine .bind conducts_insertBatched (fun _ one s1 batched => ?_)
  refine .bind conducts_nextIndex (fun walletIndex two s2 _ => ?_)
  obtain ⟨row,there,yes⟩ := batched.stays s2.grows
  exact conducts_push ((s1.trans s2).idle idle) ⟨row,there,.inr ⟨yes,sealed⟩⟩

theorem conducts_analyze {auth : AuthInfo} {ns : String} {facts : List (String × Nat)} (idle : Idle k s) :
    Conducts config k (fun _ _ => True) (analyze config auth ns facts) s := by
  refine .bind (Q:=fun prepared _ => ∀ fact ∈ prepared, fact.encrypted = config.sealEncrypted fact.jobId)
    (.foldlM (fun fact acc now _ _ held => conducts_prepareFact held) [] (fun _ member => nomatch member))
    (fun prepared one s1 sealed => ?_)
  refine .bind conducts_inquire (fun _ two s2 _ => ?_)
  exact .foldlM (I:=fun _ _ => True) (fun fact _ now member since _ =>
    conducts_enqueueFact (((s1.trans s2).trans since).idle idle) (sealed fact member)) () trivial

end MemWal.Remember
