import MemWal.Account.Migration

namespace MemWal.Account
open Library Library.Fallible Library.Merkle Library.Runs

-- A manifest that fits the module's per-account limits. Keys have 32 bytes by
-- the leaf's type.
structure Importable (m : Manifest) : Prop where
  room : ∀ legacyAccountId, (m.delegatesOf legacyAccountId).length ≤ maxDelegateKeys
  labels : ∀ l ∈ m.delegates, l.label.length ≤ maxLabelLength

section Attempts
variable (H : Hash256) (t : Merkle.Tree Leaf)

-- The holder of a cap for the pinned root submits a leaf with its path: an
-- account under a new object id, a delegate to the account of its legacy id.
inductive Attempts (w : World) (tx : Tx) : Leaf → Prop where
  | account (l : AccountLeaf) (capId : ID) (cap : MigrationCap) (proof : List Bytes) (sides : List Bool) :
      tx.call = .legacyImportAccount capId l.legacyAccountId l.owner l.active l.createdAt proof sides →
      (Leaf.account l,proof,sides) ∈ authPaths H t →
      w.migrationCaps.get? capId = some cap → cap.holder = tx.sender →
      w.registry.pinnedAllowlistRoot = some cap.allowlistRoot → tx.fresh ∉ w.objectIds →
      Attempts w tx (.account l)
  | delegate (l : DelegateLeaf) (capId id : ID) (cap : MigrationCap) (a : MemWalAccount)
      (proof : List Bytes) (sides : List Bool) :
      tx.call = .legacyImportDelegateKey capId id l.publicKey.bytes l.label l.createdAt proof sides →
      (Leaf.delegate l,proof,sides) ∈ authPaths H t →
      w.migrationCaps.get? capId = some cap → cap.holder = tx.sender →
      w.registry.pinnedAllowlistRoot = some cap.allowlistRoot →
      w.accounts.get? id = some a → a.legacyAccountId = some l.legacyAccountId →
      Attempts w tx (.delegate l)

-- Quarantine calls may come from anybody, on any id, at any point.
def Scheduled (m : Manifest) (w : World) (tx : Tx) : Prop :=
  (∃ leaf ∈ m.leaves, Attempts H t w tx leaf) ∨
  (∃ id, tx.call = .adminDeactivateAccount id) ∨ ∃ id, tx.call = .adminClearQuarantine id

end Attempts

def Held (w : World) : Leaf → Prop
  | .account l => l.row ∈ accountRows w
  | .delegate l => (some l.legacyAccountId,l.row) ∈ delegateRows w

-- The state of an import that has not been finalized.
structure Underway (H : Hash256) (m : Manifest) (t : Merkle.Tree Leaf) (w : World) : Prop where
  valid : Represents H w
  open_ : w.registry.migrationFinalized = false
  snapshot : Snapshot H m t w.registry
  drawn : Drawn m w.accounts

section Rows
variable {H : Hash256} {m : Manifest} {t : Merkle.Tree Leaf} {w : World}

theorem mem_accountRows {row : Address × Option ID × UInt64} :
    row ∈ accountRows w ↔ ∃ id a, w.accounts.get? id = some a ∧ accountRow a = row := by
  simp only [accountRows,List.mem_map,Prod.exists,Store.get?_eq_some]

theorem mem_worldDelegateRows {legacyAccountId : Option ID} {row : Bytes × Bytes × UInt64} :
    (legacyAccountId,row) ∈ delegateRows w ↔ ∃ id a, w.accounts.get? id = some a ∧
      a.legacyAccountId = legacyAccountId ∧ ∃ key ∈ a.delegateKeys, keyRow key = row := by
  simp only [delegateRows,List.mem_flatMap,List.mem_map,Prod.exists,Store.get?_eq_some,Prod.mk.injEq]
  constructor
  · intro found
    obtain ⟨id,a,stored,key,member,legacy,same⟩ := found
    exact ⟨id,a,stored,legacy,key,member,same⟩
  · intro found
    obtain ⟨id,a,stored,legacy,key,member,same⟩ := found
    exact ⟨id,a,stored,key,member,legacy,same⟩

-- An owner of the manifest is registered exactly when its leaf is held.
theorem registered_iff_held (underway : Underway H m t w) {l : AccountLeaf} (listed : l ∈ m.accounts) :
    w.registry.accounts.get? l.owner = none ↔ ¬Held w (.account l) := by
  simp only [Held,mem_accountRows]
  constructor
  · intro absent given
    obtain ⟨id,a,stored,row⟩ := given
    have owner : a.owner = l.owner := congrArg Prod.fst row
    have known := underway.valid.owned id a stored
    rw [owner,absent] at known
    cases known
  · intro unheld
    cases found : w.registry.accounts.get? l.owner with
    | none => rfl
    | some id =>
      obtain ⟨a,stored,owner⟩ := underway.valid.registered _ _ found
      obtain ⟨r,known,row⟩ := List.mem_map.mp (underway.drawn.accounts id a stored)
      have same : r = l := List.inj_on_of_nodup_map m.owners known listed ((congrArg Prod.fst row).trans owner)
      exact absurd ⟨id,a,stored,same ▸ row.symm⟩ unheld

-- A key of the manifest is on its account exactly when its leaf is held.
theorem present_iff_held (underway : Underway H m t w) {l : DelegateLeaf} (listed : l ∈ m.delegates)
    {id : ID} {a : MemWalAccount} (stored : w.accounts.get? id = some a)
    (legacy : a.legacyAccountId = some l.legacyAccountId) :
    (∃ key ∈ a.delegateKeys, key.publicKey = l.publicKey.bytes) ↔ Held w (.delegate l) := by
  simp only [Held,mem_worldDelegateRows]
  constructor
  · intro given
    obtain ⟨key,member,same⟩ := given
    refine ⟨id,a,stored,legacy,key,member,?_⟩
    obtain ⟨r,known,row⟩ := List.mem_map.mp (underway.drawn.delegates id a stored key member)
    obtain ⟨known,of⟩ := List.mem_filter.mp known
    simp only [decide_eq_true_eq,legacy,Option.some.injEq] at of
    have keys : r.publicKey = l.publicKey := Bytes32.ext ((congrArg Prod.fst row).trans same)
    have equal : r = l := List.inj_on_of_nodup_map m.publicKeys known listed (Prod.ext of keys)
    rw [← row,equal]
  · intro given
    obtain ⟨j,b,found,same,key,member,row⟩ := given
    have equal : (j,b) = (id,a) := entry_of_legacy underway.valid underway.drawn
      (Store.get?_eq_some.mp found) (Store.get?_eq_some.mp stored) (same.trans legacy.symm)
    cases equal
    exact ⟨key,member,congrArg Prod.fst row⟩

theorem accounts_below (underway : Underway H m t w) {l : AccountLeaf} (listed : l ∈ m.accounts)
    (unheld : ¬Held w (.account l)) :
    w.registry.importedAccounts.toNat < w.registry.expectedAccountImports.toNat := by
  have fewer := length_lt_of_missing (accountRows_nodup underway.valid) (accountRows_drawn underway.drawn)
    (List.mem_map.mpr ⟨l,listed,rfl⟩) unheld
  rwa [accountRows_length underway.valid underway.open_,List.length_map,← underway.snapshot.accounts] at fewer

theorem delegates_below (underway : Underway H m t w) {l : DelegateLeaf} (listed : l ∈ m.delegates)
    (unheld : ¬Held w (.delegate l)) :
    w.registry.importedDelegates.toNat < w.registry.expectedDelegateImports.toNat := by
  have fewer := length_lt_of_missing (delegateRows_nodup underway.valid underway.drawn)
    (delegateRows_drawn underway.drawn) (List.mem_map.mpr ⟨l,listed,rfl⟩) unheld
  rwa [delegateRows_length underway.valid underway.open_,Manifest.delegateRows,List.length_map,
    ← underway.snapshot.delegates] at fewer

theorem room_left (underway : Underway H m t w) (importable : Importable m) {l : DelegateLeaf}
    (listed : l ∈ m.delegates) {id : ID} {a : MemWalAccount} (stored : w.accounts.get? id = some a)
    (legacy : a.legacyAccountId = some l.legacyAccountId) (unheld : ¬Held w (.delegate l)) :
    a.delegateKeys.length < maxDelegateKeys := by
  have known : l.row ∈ (m.delegatesOf a.legacyAccountId).map DelegateLeaf.row :=
    List.mem_map.mpr ⟨l,List.mem_filter.mpr ⟨listed,by simp [legacy]⟩,rfl⟩
  have missing : l.row ∉ a.delegateKeys.map keyRow := by
    intro present
    obtain ⟨key,member,row⟩ := List.mem_map.mp present
    exact unheld (mem_worldDelegateRows.mpr ⟨id,a,stored,legacy,key,member,row⟩)
  have fewer := length_lt_of_missing (keyRows_nodup (underway.valid.keys id a stored)) (fun row present => by
    obtain ⟨key,member,same⟩ := List.mem_map.mp present
    exact same ▸ underway.drawn.delegates id a stored key member) known missing
  have limit := importable.room a.legacyAccountId
  simp only [List.length_map] at fewer
  omega

end Rows

section Steps
variable {H : Hash256} {m : Manifest} {t : Merkle.Tree Leaf} {w : World} {tx : Tx}

theorem accepted (snapshot : Snapshot H m t w.registry) {root : Bytes}
    (pinned : w.registry.pinnedAllowlistRoot = some root) {leaf : Leaf} {proof : List Bytes} {sides : List Bool}
    (path : (leaf,proof,sides) ∈ authPaths H t) :
    assertMigrationProof H root (H.digest leaf.message) proof sides = .ok () := by
  obtain ⟨top,rooted,held⟩ := snapshot.pinned
  rw [treeRoot_eq] at rooted
  cases rooted
  rw [pinned] at held
  cases held
  exact proof_complete path

theorem account_attempt_lands (underway : Underway H m t w) {l : AccountLeaf} (listed : l ∈ m.accounts)
    (attempt : Attempts H t w tx (.account l)) (unheld : ¬Held w (.account l)) :
    ∃ next, execute H w tx = .ok next ∧ Held next (.account l) := by
  cases attempt with
  | account _ capId cap proof sides called path owned holder pinned fresh =>
    have below := accounts_below underway listed unheld
    have top := w.registry.expectedAccountImports.toNat_lt
    have added := checkedAdd_total (a:=w.registry.importedAccounts) (b:=1) (by simp; omega)
    simp only [execute,called,World.borrowMigrationCap,World.newObject,legacyImportAccount,bind_ok,
      require_ok,ensure_ok,exists_const,pure_ok]
    refine ⟨_,⟨cap,⟨cap,owned,holder,rfl⟩,fresh,_,⟨underway.valid.current,underway.open_,_,pinned,rfl,(),
      accepted underway.snapshot pinned path,(registered_iff_held underway listed).mpr unheld,
      UInt64.lt_iff_toNat_lt.mpr below,_,added,rfl⟩,rfl⟩,?_⟩
    exact mem_accountRows.mpr ⟨tx.fresh,_,
      (Store.get?_insert _ (unissued underway.valid fresh) _).trans (if_pos rfl),rfl⟩

theorem account_retry_fails (underway : Underway H m t w) {l : AccountLeaf} (listed : l ∈ m.accounts)
    (attempt : Attempts H t w tx (.account l)) (held : Held w (.account l)) : ¬Succeeds H w tx := by
  cases attempt with
  | account _ capId cap proof sides called =>
    intro ⟨next,ran⟩
    simp only [execute,called,legacyImportAccount,bind_ok,require_ok,ensure_ok,exists_const] at ran
    obtain ⟨_,_,_,_,_,⟨_,_,_,_,_,_,_,absent,_⟩,_⟩ := ran
    exact (registered_iff_held underway listed).mp absent held

theorem delegate_attempt_lands (underway : Underway H m t w) (importable : Importable m) {l : DelegateLeaf}
    (listed : l ∈ m.delegates) (attempt : Attempts H t w tx (.delegate l)) (unheld : ¬Held w (.delegate l)) :
    ∃ next, execute H w tx = .ok next ∧ Held next (.delegate l) := by
  cases attempt with
  | delegate _ capId id cap a proof sides called path owned holder pinned stored legacy =>
    have below := delegates_below underway listed unheld
    have top := w.registry.expectedDelegateImports.toNat_lt
    have added := checkedAdd_total (a:=w.registry.importedDelegates) (b:=1) (by simp; omega)
    have missing := mt (present_iff_held underway listed stored legacy).mp unheld
    have length : l.publicKey.bytes.length = ed25519PublicKeyLength := l.publicKey.length32
    let key : DelegateKey := ⟨l.publicKey.bytes,H.apply (0 :: l.publicKey.bytes),l.label,l.createdAt⟩
    have ran : legacyImportDelegateKey H cap w.registry a l.publicKey.bytes l.label l.createdAt proof sides =
        .ok ({w.registry with importedDelegates := w.registry.importedDelegates + 1},
          {a with delegateKeys := a.delegateKeys ++ [key]},
          [.delegateKeyAdded a.id key.publicKey key.suiAddress key.label]) := by
      simp only [legacyImportDelegateKey,migrationDelegateLeaf,bind_ok,require_ok,ensure_ok,exists_const,pure_ok]
      refine ⟨underway.valid.current,underway.open_,_,pinned,rfl,_,legacy,length,importable.labels l listed,
        _,⟨length,rfl⟩,(),accepted underway.snapshot pinned path,?_⟩
      rw [if_neg missing]
      simp only [bind_ok,ensure_ok,exists_const,pure_ok]
      exact ⟨room_left underway importable listed stored legacy unheld,UInt64.lt_iff_toNat_lt.mpr below,_,
        derived_address l.publicKey.length32 rfl,_,added,rfl⟩
    simp only [execute,called,World.borrowMigrationCap,World.fetchAccount,bind_ok,require_ok,ensure_ok,
      exists_const,pure_ok]
    refine ⟨_,⟨cap,⟨cap,owned,holder,rfl⟩,a,stored,_,ran,rfl⟩,?_⟩
    refine mem_worldDelegateRows.mpr ⟨id,_,(Store.get?_put stored _ _).trans (if_pos rfl),legacy,key,?_,rfl⟩
    exact List.mem_append_right _ List.mem_cons_self

-- The duplicate check stands before the capacity and count checks, so a retry
-- returns without a change whatever those would say.
theorem delegate_retry_inert (underway : Underway H m t w) (importable : Importable m) {l : DelegateLeaf}
    (listed : l ∈ m.delegates) (attempt : Attempts H t w tx (.delegate l))
    (held : Held w (.delegate l)) : execute H w tx = .ok w := by
  cases attempt with
  | delegate _ capId id cap a proof sides called path owned holder pinned stored legacy =>
    have present := (present_iff_held underway listed stored legacy).mpr held
    have length : l.publicKey.bytes.length = ed25519PublicKeyLength := l.publicKey.length32
    have unmoved : ((w.withRegistry w.registry).withAccount id a).emit [] = w := by
      rw [emit_nil]
      exact withAccount_same stored
    simp only [execute,called,World.borrowMigrationCap,World.fetchAccount,legacyImportDelegateKey,
      migrationDelegateLeaf,bind_ok,require_ok,ensure_ok,exists_const,pure_ok]
    refine ⟨cap,⟨cap,owned,holder,rfl⟩,a,stored,(w.registry,a,[]),⟨underway.valid.current,underway.open_,_,pinned,
      rfl,_,legacy,length,importable.labels l listed,_,⟨length,rfl⟩,(),accepted underway.snapshot pinned path,?_⟩,
      unmoved⟩
    exact if_pos present

theorem scheduled_admits (scheduled : Scheduled H t m w tx) (next : World) : Admits H m w tx next := by
  constructor
  · intro cap legacyAccountId owner active createdAt proof sides root called
    rcases scheduled with ⟨leaf,listed,attempt⟩ | ⟨id,other⟩ | ⟨id,other⟩
    · cases attempt with
      | account l capId held_ proof_ sides_ call_ =>
        rw [call_] at called
        cases called
        intro _ _ _
        simpa [Manifest.leaves] using listed
      | delegate l capId id held_ a proof_ sides_ call_ => rw [call_] at called; cases called
    · rw [other] at called; cases called
    · rw [other] at called; cases called
  · intro cap id a legacyAccountId publicKey label createdAt proof sides root called stored legacy
    rcases scheduled with ⟨leaf,listed,attempt⟩ | ⟨id,other⟩ | ⟨id,other⟩
    · cases attempt with
      | account l capId held_ proof_ sides_ call_ => rw [call_] at called; cases called
      | delegate l capId id_ held_ b proof_ sides_ call_ path owned holder pinned found same =>
        rw [call_] at called
        cases called
        rw [stored] at found
        cases found
        rw [legacy] at same
        cases same
        intro _ _ _ _
        refine List.mem_map.mpr ⟨l,List.mem_filter.mpr ⟨?_,by simp⟩,rfl⟩
        simpa [Manifest.leaves] using listed
    · rw [other] at called; cases called
    · rw [other] at called; cases called

-- A scheduled call neither pins nor finalizes.
theorem scheduled_registry (scheduled : Scheduled H t m w tx) {next : World} (ran : execute H w tx = .ok next) :
    next.registry.migrationFinalized = w.registry.migrationFinalized ∧
    next.registry.pinnedAllowlistRoot = w.registry.pinnedAllowlistRoot ∧
    next.registry.expectedAccountImports = w.registry.expectedAccountImports ∧
    next.registry.expectedDelegateImports = w.registry.expectedDelegateImports := by
  rcases scheduled with ⟨leaf,listed,attempt⟩ | ⟨id,called⟩ | ⟨id,called⟩
  · cases attempt with
    | account l capId cap proof sides called =>
      simp only [execute,called,legacyImportAccount,bind_ok,require_ok,ensure_ok,exists_const,pure_ok] at ran
      obtain ⟨_,_,_,_,_,⟨_,_,_,_,_,_,_,_,_,_,_,rfl⟩,rfl⟩ := ran
      exact ⟨rfl,rfl,rfl,rfl⟩
    | delegate l capId id cap a proof sides called =>
      simp only [execute,called,legacyImportDelegateKey,bind_ok,require_ok,ensure_ok,exists_const,pure_ok] at ran
      obtain ⟨_,_,_,_,_,⟨_,_,_,_,_,_,_,_,_,_,_,_,_,answer⟩,rfl⟩ := ran
      split at answer
      · cases answer
        exact ⟨rfl,rfl,rfl,rfl⟩
      · simp only [bind_ok,ensure_ok,exists_const,pure_ok] at answer
        obtain ⟨_,_,_,_,_,_,rfl⟩ := answer
        exact ⟨rfl,rfl,rfl,rfl⟩
  · simp only [execute,called,bind_ok,pure_ok] at ran
    obtain ⟨_,_,_,_,_,_,rfl⟩ := ran
    exact ⟨rfl,rfl,rfl,rfl⟩
  · simp only [execute,called,bind_ok,pure_ok] at ran
    obtain ⟨_,_,_,_,_,_,rfl⟩ := ran
    exact ⟨rfl,rfl,rfl,rfl⟩

theorem underway_step (underway : Underway H m t w) (scheduled : Scheduled H t m w tx) :
    Underway H m t (settle (execute H) w tx) := by
  rcases settle_cases (execute H) w tx with ⟨next,ran,equal⟩ | equal
  · rw [equal]
    obtain ⟨latch,root,accounts,delegates⟩ := scheduled_registry scheduled ran
    have drawn := effect_drawn underway.valid underway.open_ underway.drawn (scheduled_admits scheduled next)
      (execute_effect ran)
    refine ⟨execute_represents w tx next underway.valid ran,latch.trans underway.open_,?_,drawn⟩
    exact ⟨underway.snapshot.leaves,root ▸ underway.snapshot.pinned,accounts ▸ underway.snapshot.accounts,
      delegates ▸ underway.snapshot.delegates⟩
  · rw [equal]
    exact underway

-- No scheduled call takes a leaf out again.
theorem held_step (valid : Represents H w) (scheduled : Scheduled H t m w tx) {leaf : Leaf} (held : Held w leaf) :
    Held (settle (execute H) w tx) leaf := by
  have keeps : ∀ id publicKey, tx.call ≠ .removeDelegateKey id publicKey := by
    intro id publicKey called
    rcases scheduled with ⟨_,_,attempt⟩ | ⟨_,other⟩ | ⟨_,other⟩
    · cases attempt with
      | account l capId cap proof sides call_ => rw [call_] at called; cases called
      | delegate l capId id cap a proof sides call_ => rw [call_] at called; cases called
    · rw [other] at called; cases called
    · rw [other] at called; cases called
  have grows : ∀ {id a b}, AccountStep H tx id a b → accountRow b = accountRow a ∧
      a.delegateKeys ⊆ b.delegateKeys := by
    intro id a b step
    cases step with
    | removed publicKey counter called => exact absurd called (keeps id publicKey)
    | added key => exact ⟨rfl,List.subset_append_left _ _⟩
    | same | deactivated | quarantined | cleared | reactivated => exact ⟨rfl,List.Subset.refl _⟩
  cases leaf with
  | account l =>
    obtain ⟨id,a,stored,row⟩ := mem_accountRows.mp held
    obtain ⟨b,found,step⟩ := settle_account tx valid stored
    exact mem_accountRows.mpr ⟨id,b,found,(grows step).1.trans row⟩
  | delegate l =>
    obtain ⟨id,a,stored,legacy,key,member,row⟩ := mem_worldDelegateRows.mp held
    obtain ⟨b,found,step⟩ := settle_account tx valid stored
    obtain ⟨same,more⟩ := grows step
    exact mem_worldDelegateRows.mpr ⟨id,b,found,(congrArg (fun row => row.2.1) same).trans legacy,key,
      more member,row⟩

theorem attempt_held (underway : Underway H m t w) (importable : Importable m) {leaf : Leaf}
    (listed : leaf ∈ m.leaves) (attempt : Attempts H t w tx leaf) : Held (settle (execute H) w tx) leaf := by
  by_cases held : Held w leaf
  · exact held_step underway.valid (.inl ⟨leaf,listed,attempt⟩) held
  · cases leaf with
    | account l =>
      obtain ⟨next,ran,lands⟩ := account_attempt_lands underway (by simpa [Manifest.leaves] using listed)
        attempt held
      rwa [settle_ok ran]
    | delegate l =>
      obtain ⟨next,ran,lands⟩ := delegate_attempt_lands underway importable
        (by simpa [Manifest.leaves] using listed) attempt held
      rwa [settle_ok ran]

end Steps

-- A whole import of the manifest: any run of the module up to a pinned
-- registry with nothing imported, then scheduled calls that attempt each leaf
-- at least once.
structure Campaign (H : Hash256) (m : Manifest) (t : Merkle.Tree Leaf) where
  genesis : Genesis
  setup : List Tx
  calls : List Tx
  snapshot : Snapshot H m t (stateAt H genesis setup setup.length).registry
  open_ : (stateAt H genesis setup setup.length).registry.migrationFinalized = false
  untouched : (stateAt H genesis setup setup.length).registry.importedAccounts = 0
  scheduled : ∀ k tx, calls[k]? = some tx →
    Scheduled H t m (before (execute H) (stateAt H genesis setup setup.length) calls k) tx
  covers : ∀ leaf ∈ m.leaves, ∃ k tx, calls[k]? = some tx ∧
    Attempts H t (before (execute H) (stateAt H genesis setup setup.length) calls k) tx leaf

namespace Campaign
variable {H : Hash256} {m : Manifest} {t : Merkle.Tree Leaf} (c : Campaign H m t)

def stateAfter (k : Nat) : World := before (execute H) (stateAt H c.genesis c.setup c.setup.length) c.calls k

def final : World := c.stateAfter c.calls.length

theorem underway (k : Nat) : Underway H m t (c.stateAfter k) := by
  refine stays_between (P:=Underway H m t) (Nat.zero_le k) ?_ ?_
  · have valid : Represents H (stateAt H c.genesis c.setup c.setup.length) := stateAt_represents _
    have empty : ∀ id a, (stateAt H c.genesis c.setup c.setup.length).accounts.get? id ≠ some a := by
      intro id a stored
      have none := accountRows_length valid c.open_
      rw [c.untouched] at none
      have present := mem_accountRows.mpr ⟨id,a,stored,rfl⟩
      rw [List.length_eq_zero_iff.mp none] at present
      cases present
    exact ⟨valid,c.open_,c.snapshot,fun id a stored => absurd stored (empty id a),
      fun id a stored => absurd stored (empty id a)⟩
  · intro j tx _ _ called held
    exact underway_step held (c.scheduled j tx called)

theorem finished : Underway H m t c.final := c.underway c.calls.length

theorem all_held (importable : Importable m) {leaf : Leaf} (listed : leaf ∈ m.leaves) : Held c.final leaf := by
  obtain ⟨k,tx,called,attempt⟩ := c.covers leaf listed
  have inside : k < c.calls.length := (List.getElem?_eq_some_iff.mp called).1
  refine stays_between (P:=fun w => Held w leaf) (Nat.succ_le_of_lt inside) ?_ ?_
  · rw [before_succ called]
    exact attempt_held (c.underway k) importable listed attempt
  · intro j tx _ _ called held
    exact held_step (c.underway j).valid (c.scheduled j tx called) held

theorem accounts_exact (importable : Importable m) :
    (accountRows c.final).Perm (m.accounts.map AccountLeaf.row) := by
  have underway := c.finished
  refine perm_of_count (accountRows_nodup underway.valid) (accountRows_drawn underway.drawn) ?_
  refine List.Subperm.length_le (List.Nodup.subperm ?_ ?_)
  · exact List.Nodup.of_map Prod.fst (by rw [List.map_map]; exact m.owners)
  · intro row member
    obtain ⟨l,listed,rfl⟩ := List.mem_map.mp member
    have leaf : Leaf.account l ∈ m.leaves := by simpa [Manifest.leaves] using listed
    exact c.all_held importable leaf

theorem delegateRows_exact (importable : Importable m) : (delegateRows c.final).Perm m.delegateRows := by
  have underway := c.finished
  refine perm_of_count (delegateRows_nodup underway.valid underway.drawn) (delegateRows_drawn underway.drawn) ?_
  refine List.Subperm.length_le (List.Nodup.subperm ?_ ?_)
  · refine List.Nodup.map_on ?_ (List.Nodup.of_map _ m.publicKeys)
    intro l left r right same
    obtain ⟨legacy,rows⟩ := Prod.mk.inj same
    have keys : l.publicKey = r.publicKey := Bytes32.ext (congrArg Prod.fst rows)
    exact List.inj_on_of_nodup_map m.publicKeys left right (Prod.ext (Option.some.inj legacy) keys)
  · intro row member
    obtain ⟨l,listed,rfl⟩ := List.mem_map.mp member
    have leaf : Leaf.delegate l ∈ m.leaves := by simpa [Manifest.leaves] using listed
    exact c.all_held importable leaf

theorem counts (importable : Importable m) :
    c.final.registry.importedAccounts = c.final.registry.expectedAccountImports ∧
    c.final.registry.importedDelegates = c.final.registry.expectedDelegateImports := by
  have underway := c.finished
  constructor
  · refine UInt64.toNat_inj.mp ?_
    have rows := (c.accounts_exact importable).length_eq
    rw [accountRows_length underway.valid underway.open_,List.length_map] at rows
    exact rows.trans underway.snapshot.accounts.symm
  · refine UInt64.toNat_inj.mp ?_
    have rows := (c.delegateRows_exact importable).length_eq
    rw [delegateRows_length underway.valid underway.open_,Manifest.delegateRows,List.length_map] at rows
    exact rows.trans underway.snapshot.delegates.symm

theorem finalizes (importable : Importable m) {clock expires : UInt64} {evidence : Bytes}
    (length : evidence.length = merkleHashLength) (notPast : clock ≤ expires)
    (soon : expires.toNat ≤ clock.toNat + maxCompletionEvidenceTtlMs.toNat)
    (fits : clock.toNat + maxCompletionEvidenceTtlMs.toNat < 2 ^ 64) :
    ∃ result, finalizeMigration c.final.registry clock evidence expires = .ok result := by
  have underway := c.finished
  have added := checkedAdd_total fits
  obtain ⟨root,_,pinned⟩ := underway.snapshot.pinned
  have latest : expires ≤ clock + maxCompletionEvidenceTtlMs := by
    rw [UInt64.le_iff_toNat_le,checkedAdd_ok added]
    exact soon
  simp only [finalizeMigration,bind_ok,ensure_ok,exists_const,pure_ok]
  exact ⟨_,underway.valid.current,underway.open_,Option.isSome_of_eq_some pinned,length,notPast,_,added,latest,
    c.counts importable,rfl⟩

end Campaign

-- The address is derived from the key bytes, so equal rows are equal keys.
theorem delegates_agree {H : Hash256} {a b : MemWalAccount} (left : KeysValid H a.delegateKeys)
    (right : KeysValid H b.delegateKeys) (same : (a.delegateKeys.map keyRow).Perm (b.delegateKeys.map keyRow)) :
    a.delegateKeys.Perm b.delegateKeys := by
  have transfer : ∀ {xs ys : List DelegateKey}, KeysValid H xs → KeysValid H ys →
      (xs.map keyRow).Perm (ys.map keyRow) → xs ⊆ ys := by
    intro xs ys first second rows key member
    obtain ⟨other,present,equal⟩ := List.mem_map.mp (rows.mem_iff.mp (List.mem_map.mpr ⟨key,member,rfl⟩))
    simp only [keyRow,Prod.mk.injEq] at equal
    have address := (first.wellFormed key member).2.2
    rw [← equal.1,(second.wellFormed other present).2.2] at address
    cases key; cases other
    obtain ⟨rfl,rfl,rfl⟩ := equal
    cases address
    exact present
  refine (List.perm_ext_iff_of_nodup (List.Nodup.of_map _ left.distinct)
    (List.Nodup.of_map _ right.distinct)).mpr ?_
  intro key
  exact ⟨fun member => transfer left right same member,fun member => transfer right left same.symm member⟩

-- Every leaf lands on its first attempt and stays inert on the later ones, so
-- the order of the calls leaves no trace in the result.
theorem import_order_is_irrelevant (H : Hash256) (m : Manifest) (t : Merkle.Tree Leaf) (importable : Importable m)
    (left right : Campaign H m t) :
    (∀ c ∈ [left,right],
      (∀ k tx l, c.calls[k]? = some tx → l ∈ m.accounts → Attempts H t (c.stateAfter k) tx (.account l) →
        (Succeeds H (c.stateAfter k) tx ↔ ¬Held (c.stateAfter k) (.account l))) ∧
      (∀ k tx l, c.calls[k]? = some tx → l ∈ m.delegates → Attempts H t (c.stateAfter k) tx (.delegate l) →
        Succeeds H (c.stateAfter k) tx ∧
        (Held (c.stateAfter k) (.delegate l) → execute H (c.stateAfter k) tx = .ok (c.stateAfter k))) ∧
      c.final.registry.importedAccounts.toNat = m.accounts.length ∧
      c.final.registry.importedDelegates.toNat = m.delegates.length ∧
      c.final.registry.importedAccounts = c.final.registry.expectedAccountImports ∧
      c.final.registry.importedDelegates = c.final.registry.expectedDelegateImports ∧
      ∀ clock evidence expires, evidence.length = merkleHashLength → clock ≤ expires →
        expires.toNat ≤ clock.toNat + maxCompletionEvidenceTtlMs.toNat →
        clock.toNat + maxCompletionEvidenceTtlMs.toNat < 2 ^ 64 →
        ∃ result, finalizeMigration c.final.registry clock evidence expires = .ok result) ∧
    (accountRows left.final).Perm (accountRows right.final) ∧
    ∀ i j a b, left.final.accounts.get? i = some a → right.final.accounts.get? j = some b →
      a.owner = b.owner → a.delegateKeys.Perm b.delegateKeys := by
  refine ⟨?_,?_,?_⟩
  · intro c _
    obtain ⟨accounts,delegates⟩ := c.counts importable
    have sizes := c.finished.snapshot
    refine ⟨?_,?_,?_,?_,accounts,delegates,?_⟩
    · intro k tx l called listed attempt
      constructor
      · intro ran held
        exact account_retry_fails (c.underway k) listed attempt held ran
      · intro unheld
        obtain ⟨next,ran,_⟩ := account_attempt_lands (c.underway k) listed attempt unheld
        exact ⟨next,ran⟩
    · intro k tx l called listed attempt
      have inert := delegate_retry_inert (c.underway k) importable listed attempt
      refine ⟨?_,inert⟩
      by_cases held : Held (c.stateAfter k) (.delegate l)
      · exact ⟨_,inert held⟩
      · obtain ⟨next,ran,_⟩ := delegate_attempt_lands (c.underway k) importable listed attempt held
        exact ⟨next,ran⟩
    · rw [accounts,sizes.accounts]
    · rw [delegates,sizes.delegates]
    · intro clock evidence expires length notPast soon fits
      exact c.finalizes importable length notPast soon fits
  · exact (left.accounts_exact importable).trans (right.accounts_exact importable).symm
  · intro i j a b stored found owner
    have first := delegates_exact left.finished.valid left.finished.drawn (left.delegateRows_exact importable) stored
    have second := delegates_exact right.finished.valid right.finished.drawn
      (right.delegateRows_exact importable) found
    -- One owner has one leaf, hence one legacy id on both sides.
    have legacy : a.legacyAccountId = b.legacyAccountId := by
      obtain ⟨l,known,row⟩ := List.mem_map.mp (left.finished.drawn.accounts i a stored)
      obtain ⟨r,known',row'⟩ := List.mem_map.mp (right.finished.drawn.accounts j b found)
      simp only [AccountLeaf.row,accountRow,Prod.mk.injEq] at row row'
      have same : l = r := List.inj_on_of_nodup_map m.owners known known'
        (row.1.trans (owner.trans row'.1.symm))
      rw [← row.2.1,← row'.2.1,same]
    rw [legacy] at first
    exact delegates_agree (left.finished.valid.keys i a stored) (right.finished.valid.keys j b found)
      (first.trans second.symm)

section Samples
variable (H : Hash256) (t : Merkle.Tree Leaf)

def attempts (w : World) (tx : Tx) (leaf : Leaf) : Bool :=
  match tx.call,leaf with
  | .legacyImportAccount capId legacyAccountId owner active createdAt proof sides,.account l =>
    decide (AccountLeaf.mk legacyAccountId owner active createdAt = l ∧ (Leaf.account l,proof,sides) ∈ authPaths H t ∧
      tx.fresh ∉ w.objectIds) &&
    (w.migrationCaps.get? capId).any (fun cap => cap.holder = tx.sender &&
      w.registry.pinnedAllowlistRoot = some cap.allowlistRoot)
  | .legacyImportDelegateKey capId id publicKey label createdAt proof sides,.delegate l =>
    decide (publicKey = l.publicKey.bytes ∧ label = l.label ∧ createdAt = l.createdAt ∧
      (Leaf.delegate l,proof,sides) ∈ authPaths H t) &&
    (w.accounts.get? id).any (fun a => a.legacyAccountId = some l.legacyAccountId) &&
    (w.migrationCaps.get? capId).any (fun cap => cap.holder = tx.sender &&
      w.registry.pinnedAllowlistRoot = some cap.allowlistRoot)
  | _,_ => false

variable {H : Hash256} {t : Merkle.Tree Leaf}

theorem attempts_sound {w : World} {tx : Tx} {leaf : Leaf} (checked : attempts H t w tx leaf = true) :
    Attempts H t w tx leaf := by
  unfold attempts at checked
  split at checked
  · rename_i capId legacyAccountId owner active createdAt proof sides l called
    simp only [Bool.and_eq_true,decide_eq_true_eq,Option.any_eq_true] at checked
    obtain ⟨⟨rfl,path,fresh⟩,cap,found,holder,root⟩ := checked
    exact .account _ capId cap proof sides called path found holder root fresh
  · rename_i capId id publicKey label createdAt proof sides l called
    simp only [Bool.and_eq_true,decide_eq_true_eq,Option.any_eq_true] at checked
    obtain ⟨⟨⟨rfl,rfl,rfl,path⟩,a,stored,legacy⟩,cap,found,holder,root⟩ := checked
    exact .delegate l capId id cap a proof sides called path found holder root stored legacy
  · cases checked

end Samples

theorem pair_owners : ([⟨sample 1,sample 2,true,7⟩,⟨sample 4,sample 5,true,9⟩].map AccountLeaf.owner).Nodup := by
  decide

theorem pair_legacyIds :
    ([⟨sample 1,sample 2,true,7⟩,⟨sample 4,sample 5,true,9⟩].map AccountLeaf.legacyAccountId).Nodup := by
  decide

-- Two accounts, the first of which has a delegate.
def pairManifest : Manifest where
  accounts := [⟨sample 1,sample 2,true,7⟩,⟨sample 4,sample 5,true,9⟩]
  delegates := [⟨sample 1,sample 3,[104,105],8⟩]
  owners := pair_owners
  legacyIds := pair_legacyIds
  publicKeys := List.nodup_singleton _

def pairTree : Merkle.Tree Leaf :=
  .node (.node (.leaf (.account ⟨sample 1,sample 2,true,7⟩)) (.leaf (.account ⟨sample 4,sample 5,true,9⟩)))
    (.leaf (.delegate ⟨sample 1,sample 3,[104,105],8⟩))

def otherDigest : Bytes := Blake2b.digest (accountLeafMessage (sample 4) (sample 5) true 9)
def accountsDigest : Bytes := Blake2b.digest (merkleParentMessage accountDigest otherDigest)
def pairRoot : Bytes := Blake2b.digest (merkleParentMessage accountsDigest delegateDigest)

def pairSetup : List Tx :=
  [⟨⟨sample 10,sample 22⟩,.pinAllowlistRoot pairRoot 2 1⟩,⟨⟨sample 10,sample 22⟩,.mintMigrationCap pairRoot⟩]

def importFirst (fresh : ID) : Tx :=
  ⟨⟨sample 10,fresh⟩,.legacyImportAccount (sample 22) (sample 1) (sample 2) true 7 [otherDigest,delegateDigest]
    [false,false]⟩

def importOther (fresh : ID) : Tx :=
  ⟨⟨sample 10,fresh⟩,.legacyImportAccount (sample 22) (sample 4) (sample 5) true 9 [accountDigest,delegateDigest]
    [true,false]⟩

def importDelegate (account fresh : ID) : Tx :=
  ⟨⟨sample 10,fresh⟩,.legacyImportDelegateKey (sample 22) account (sample 3).bytes [104,105] 8 [accountsDigest] [true]⟩

def quarantine (account fresh : ID) : Tx := ⟨⟨sample 10,fresh⟩,.adminDeactivateAccount account⟩

def leftCalls : List Tx :=
  [importFirst (sample 23),importOther (sample 24),importDelegate (sample 23) (sample 25),
    quarantine (sample 23) (sample 26),importDelegate (sample 23) (sample 27)]

def rightCalls : List Tx :=
  [importOther (sample 31),quarantine (sample 31) (sample 32),importFirst (sample 33),
    importDelegate (sample 33) (sample 34),importDelegate (sample 33) (sample 35)]

-- The leaf that a call of these is for.
def pairLeaf (tx : Tx) : Option Leaf :=
  match tx.call with
  | .legacyImportAccount _ legacyAccountId owner active createdAt _ _ =>
    some (.account ⟨legacyAccountId,owner,active,createdAt⟩)
  | .legacyImportDelegateKey _ _ _ _ _ _ _ => some (.delegate ⟨sample 1,sample 3,[104,105],8⟩)
  | _ => none

def pairStart : World := stateAt Blake2b.hash256 sampleGenesis pairSetup pairSetup.length

def pairChecks (w : World) (tx : Tx) : Bool := (pairLeaf tx).all (attempts Blake2b.hash256 pairTree w tx)

theorem left_checked : always (execute Blake2b.hash256) pairChecks pairStart leftCalls = true := by decide +kernel

theorem right_checked : always (execute Blake2b.hash256) pairChecks pairStart rightCalls = true := by decide +kernel

theorem pairStart_registry : pairStart.registry.pinnedAllowlistRoot = some pairRoot ∧
    pairStart.registry.expectedAccountImports = 2 ∧ pairStart.registry.expectedDelegateImports = 1 := by
  decide +kernel

theorem pairStart_open :
    (stateAt Blake2b.hash256 sampleGenesis pairSetup pairSetup.length).registry.migrationFinalized = false := by
  decide +kernel

theorem pairStart_untouched :
    (stateAt Blake2b.hash256 sampleGenesis pairSetup pairSetup.length).registry.importedAccounts = 0 := by
  decide +kernel

theorem pairStart_snapshot : Snapshot Blake2b.hash256 pairManifest pairTree pairStart.registry := by
  obtain ⟨pinned,accounts,delegates⟩ := pairStart_registry
  refine ⟨?_,⟨pairRoot,by decide +kernel,pinned⟩,by simp [accounts,pairManifest],by simp [delegates,pairManifest]⟩
  intro leaf
  simp [pairTree,Merkle.Tree.leaves,Manifest.leaves,pairManifest]

theorem pair_attempt {calls : List Tx} (checked : always (execute Blake2b.hash256) pairChecks pairStart calls = true)
    {k : Nat} {tx : Tx} {leaf : Leaf} (called : calls[k]? = some tx) (its : pairLeaf tx = some leaf) :
    Attempts Blake2b.hash256 pairTree (before (execute Blake2b.hash256) pairStart calls k) tx leaf := by
  have met := before_of_always checked k tx called
  rw [pairChecks,its] at met
  exact attempts_sound met

theorem pair_covers {calls : List Tx} (checked : always (execute Blake2b.hash256) pairChecks pairStart calls = true)
    (first : ∃ (k : Nat) (tx : Tx), calls[k]? = some tx ∧ pairLeaf tx = some (.account ⟨sample 1,sample 2,true,7⟩))
    (other : ∃ (k : Nat) (tx : Tx), calls[k]? = some tx ∧ pairLeaf tx = some (.account ⟨sample 4,sample 5,true,9⟩))
    (delegate : ∃ (k : Nat) (tx : Tx), calls[k]? = some tx ∧ pairLeaf tx = some (.delegate ⟨sample 1,sample 3,[104,105],8⟩)) :
    ∀ leaf ∈ pairManifest.leaves, ∃ (k : Nat) (tx : Tx), calls[k]? = some tx ∧
      Attempts Blake2b.hash256 pairTree (before (execute Blake2b.hash256) pairStart calls k) tx leaf := by
  have tried : ∀ {leaf : Leaf}, (∃ (k : Nat) (tx : Tx), calls[k]? = some tx ∧ pairLeaf tx = some leaf) →
      ∃ (k : Nat) (tx : Tx), calls[k]? = some tx ∧
      Attempts Blake2b.hash256 pairTree (before (execute Blake2b.hash256) pairStart calls k) tx leaf := by
    intro leaf found
    obtain ⟨k,tx,called,its⟩ := found
    exact ⟨k,tx,called,pair_attempt checked called its⟩
  intro leaf listed
  simp only [Manifest.leaves,pairManifest,List.map_cons,List.map_nil,List.cons_append,List.nil_append,
    List.mem_cons,List.not_mem_nil,or_false] at listed
  rcases listed with rfl | rfl | rfl
  · exact tried first
  · exact tried other
  · exact tried delegate

theorem pair_scheduled {calls : List Tx} (checked : always (execute Blake2b.hash256) pairChecks pairStart calls = true)
    (kinds : ∀ tx ∈ calls, (∃ leaf ∈ pairManifest.leaves, pairLeaf tx = some leaf) ∨
      ∃ id, tx.call = .adminDeactivateAccount id) :
    ∀ k tx, calls[k]? = some tx →
      Scheduled Blake2b.hash256 pairTree pairManifest (before (execute Blake2b.hash256) pairStart calls k) tx := by
  intro k tx called
  rcases kinds tx (List.mem_of_getElem? called) with ⟨leaf,listed,its⟩ | quarantined
  · exact .inl ⟨leaf,listed,pair_attempt checked called its⟩
  · exact .inr (.inl quarantined)

def pairLeft : Campaign Blake2b.hash256 pairManifest pairTree where
  genesis := sampleGenesis
  setup := pairSetup
  calls := leftCalls
  snapshot := pairStart_snapshot
  open_ := pairStart_open
  untouched := pairStart_untouched
  scheduled := by
    apply pair_scheduled left_checked
    simp [leftCalls,pairLeaf,importFirst,importOther,importDelegate,quarantine,Manifest.leaves,pairManifest]
  covers := pair_covers left_checked ⟨0,_,rfl,rfl⟩ ⟨1,_,rfl,rfl⟩ ⟨2,_,rfl,rfl⟩

def pairRight : Campaign Blake2b.hash256 pairManifest pairTree where
  genesis := sampleGenesis
  setup := pairSetup
  calls := rightCalls
  snapshot := pairStart_snapshot
  open_ := pairStart_open
  untouched := pairStart_untouched
  scheduled := by
    apply pair_scheduled right_checked
    simp [rightCalls,pairLeaf,importFirst,importOther,importDelegate,quarantine,Manifest.leaves,pairManifest]
  covers := pair_covers right_checked ⟨2,_,rfl,rfl⟩ ⟨0,_,rfl,rfl⟩ ⟨3,_,rfl,rfl⟩

theorem pairManifest_importable : Importable pairManifest := by
  constructor
  · intro legacyAccountId
    exact Nat.le_trans (List.length_filter_le _ _) (by decide)
  · decide

-- In one order the delegate is tried again after its account was quarantined, in
-- the other the first account is quarantined before the second is imported.
theorem pair_import_agrees :
    (∀ c ∈ [pairLeft,pairRight], c.final.registry.importedAccounts.toNat = 2 ∧
      c.final.registry.importedDelegates.toNat = 1) ∧
    Succeeds Blake2b.hash256 (pairLeft.stateAfter 4) (importDelegate (sample 23) (sample 27)) ∧
    (accountRows pairLeft.final).Perm (accountRows pairRight.final) ∧
    ∀ i j a b, pairLeft.final.accounts.get? i = some a → pairRight.final.accounts.get? j = some b →
      a.owner = b.owner → a.delegateKeys.Perm b.delegateKeys := by
  obtain ⟨each,accounts,keys⟩ := import_order_is_irrelevant Blake2b.hash256 pairManifest pairTree pairManifest_importable
    pairLeft pairRight
  refine ⟨?_,?_,accounts,keys⟩
  · intro c member
    obtain ⟨_,_,importedAccounts,importedDelegates,_⟩ := each c member
    exact ⟨importedAccounts,importedDelegates⟩
  · obtain ⟨_,retried,_⟩ := each pairLeft List.mem_cons_self
    exact (retried 4 _ ⟨sample 1,sample 3,[104,105],8⟩ rfl List.mem_cons_self (pair_attempt left_checked rfl rfl)).1

end MemWal.Account
