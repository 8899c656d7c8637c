import Mathlib.Data.List.Perm.Subperm
import MemWal.Account.Allowlist
import MemWal.Account.Revocation

namespace MemWal.Account
open Library Library.Fallible Library.Merkle Library.Runs

-- The finite set of leaves a snapshot commits to. Its keys are unique in the
-- three ways the importer relies on.
structure Manifest where
  accounts : List AccountLeaf
  delegates : List DelegateLeaf
  owners : (accounts.map AccountLeaf.owner).Nodup
  legacyIds : (accounts.map AccountLeaf.legacyAccountId).Nodup
  publicKeys : (delegates.map (fun l => (l.legacyAccountId,l.publicKey))).Nodup

def Manifest.leaves (m : Manifest) : List Leaf := m.accounts.map .account ++ m.delegates.map .delegate

def Manifest.delegatesOf (m : Manifest) (legacyAccountId : Option ID) : List DelegateLeaf :=
  m.delegates.filter (fun l => some l.legacyAccountId = legacyAccountId)

def AccountLeaf.row (l : AccountLeaf) : Address × Option ID × UInt64 :=
  (l.owner,some l.legacyAccountId,l.createdAt)

def accountRow (a : MemWalAccount) : Address × Option ID × UInt64 := (a.owner,a.legacyAccountId,a.createdAt)

def DelegateLeaf.row (l : DelegateLeaf) : Bytes × Bytes × UInt64 := (l.publicKey.bytes,l.label,l.createdAt)

def keyRow (key : DelegateKey) : Bytes × Bytes × UInt64 := (key.publicKey,key.label,key.createdAt)

def accountRows (w : World) : List (Address × Option ID × UInt64) :=
  w.accounts.entries.map (fun e => accountRow e.2)

-- Every delegate key of the module, under the legacy id of its account.
def delegateRows (w : World) : List (Option ID × Bytes × Bytes × UInt64) :=
  w.accounts.entries.flatMap (fun e => e.2.delegateKeys.map (fun key => (e.2.legacyAccountId,keyRow key)))

def Manifest.delegateRows (m : Manifest) : List (Option ID × Bytes × Bytes × UInt64) :=
  m.delegates.map (fun l => (some l.legacyAccountId,l.row))

-- Nothing in the state comes from outside the manifest.
structure Drawn (m : Manifest) (stored : Store ID MemWalAccount) : Prop where
  accounts : ∀ id a, stored.get? id = some a → accountRow a ∈ m.accounts.map AccountLeaf.row
  delegates : ∀ id a, stored.get? id = some a → ∀ key ∈ a.delegateKeys,
    keyRow key ∈ (m.delegatesOf a.legacyAccountId).map DelegateLeaf.row

section Pigeonhole
variable {α : Type} {xs ys : List α}

theorem perm_of_count (distinct : xs.Nodup) (sub : xs ⊆ ys) (count : ys.length ≤ xs.length) : xs.Perm ys :=
  (distinct.subperm sub).perm_of_length_le count

theorem length_lt_of_missing {y : α} (distinct : xs.Nodup) (sub : xs ⊆ ys) (member : y ∈ ys)
    (missing : y ∉ xs) : xs.length < ys.length := by
  have grown : (y :: xs).Nodup := List.nodup_cons.mpr ⟨missing,distinct⟩
  exact (grown.subperm (List.cons_subset.mpr ⟨member,sub⟩)).length_le

end Pigeonhole

section Rows
variable {H : Hash256} {m : Manifest} {w : World}

theorem accountLeaf_unique {l r : AccountLeaf} (left : l ∈ m.accounts) (right : r ∈ m.accounts)
    (same : l.legacyAccountId = r.legacyAccountId) : l = r :=
  List.inj_on_of_nodup_map m.legacyIds left right same

theorem entries_nodup {κ ν : Type} (s : Store κ ν) : s.entries.Nodup := List.Nodup.of_map _ s.unique

-- Two accounts of one owner are one account: that is the registry's doing.
theorem entry_of_owner (valid : Represents H w) {x y : ID × MemWalAccount} (left : x ∈ w.accounts.entries)
    (right : y ∈ w.accounts.entries) (same : x.2.owner = y.2.owner) : x = y := by
  obtain ⟨i,a⟩ := x
  obtain ⟨j,b⟩ := y
  have first := valid.owned i a (Store.get?_eq_some.mpr left)
  have second := valid.owned j b (Store.get?_eq_some.mpr right)
  rw [show a.owner = b.owner from same,second] at first
  cases first
  have equal := (Store.get?_eq_some.mpr left).symm.trans (Store.get?_eq_some.mpr right)
  cases equal
  rfl

-- Two accounts of one legacy id are one account: that is the manifest's.
theorem entry_of_legacy (valid : Represents H w) (drawn : Drawn m w.accounts) {x y : ID × MemWalAccount}
    (left : x ∈ w.accounts.entries) (right : y ∈ w.accounts.entries)
    (same : x.2.legacyAccountId = y.2.legacyAccountId) : x = y := by
  obtain ⟨l,known,rowL⟩ := List.mem_map.mp (drawn.accounts _ _ (Store.get?_eq_some.mpr left))
  obtain ⟨r,known',rowR⟩ := List.mem_map.mp (drawn.accounts _ _ (Store.get?_eq_some.mpr right))
  simp only [AccountLeaf.row,accountRow,Prod.mk.injEq] at rowL rowR
  have ids : some l.legacyAccountId = some r.legacyAccountId := rowL.2.1.trans (same.trans rowR.2.1.symm)
  cases accountLeaf_unique known known' (Option.some.inj ids)
  exact entry_of_owner valid left right (rowL.1.symm.trans rowR.1)

theorem accountRows_nodup (valid : Represents H w) : (accountRows w).Nodup := by
  refine List.Nodup.map_on ?_ (entries_nodup w.accounts)
  intro x left y right same
  exact entry_of_owner valid left right (congrArg Prod.fst same)

theorem keyRows_nodup {keys : List DelegateKey} (valid : KeysValid H keys) : (keys.map keyRow).Nodup := by
  have distinct := valid.distinct
  rw [show keys.map DelegateKey.publicKey = (keys.map keyRow).map Prod.fst by simp [keyRow]] at distinct
  exact List.Nodup.of_map _ distinct

theorem delegateRows_nodup (valid : Represents H w) (drawn : Drawn m w.accounts) : (delegateRows w).Nodup := by
  refine List.nodup_flatMap.mpr ⟨?_,?_⟩
  · intro e member
    have keys := keyRows_nodup (valid.keys e.1 e.2 (Store.get?_eq_some.mpr member))
    have paired := keys.map (f:=fun row => (e.2.legacyAccountId,row)) (fun _ _ same => (Prod.mk.inj same).2)
    rwa [List.map_map] at paired
  · refine (entries_nodup w.accounts).pairwise_of_forall_ne ?_
    intro x left y right differs row first second
    obtain ⟨_,_,rfl⟩ := List.mem_map.mp first
    obtain ⟨_,_,same⟩ := List.mem_map.mp second
    exact differs (entry_of_legacy valid drawn left right (Prod.mk.inj same).1.symm)

theorem accountRows_drawn (drawn : Drawn m w.accounts) : accountRows w ⊆ m.accounts.map AccountLeaf.row := by
  intro row member
  obtain ⟨e,stored,rfl⟩ := List.mem_map.mp member
  exact drawn.accounts e.1 e.2 (Store.get?_eq_some.mpr stored)

theorem mem_delegateRows {legacyAccountId : Option ID} {row : Bytes × Bytes × UInt64} :
    (legacyAccountId,row) ∈ m.delegateRows ↔ row ∈ (m.delegatesOf legacyAccountId).map DelegateLeaf.row := by
  simp only [Manifest.delegateRows,Manifest.delegatesOf,List.mem_map,List.mem_filter,decide_eq_true_eq,
    Prod.mk.injEq]
  constructor
  · intro ⟨l,known,legacy,same⟩
    exact ⟨l,⟨known,legacy⟩,same⟩
  · intro ⟨l,⟨known,legacy⟩,same⟩
    exact ⟨l,known,legacy,same⟩

theorem delegateRows_drawn (drawn : Drawn m w.accounts) : delegateRows w ⊆ m.delegateRows := by
  intro row member
  obtain ⟨e,stored,inside⟩ := List.mem_flatMap.mp member
  obtain ⟨key,present,rfl⟩ := List.mem_map.mp inside
  exact mem_delegateRows.mpr (drawn.delegates e.1 e.2 (Store.get?_eq_some.mpr stored) key present)

theorem delegatesOf_nodup (m : Manifest) (legacyAccountId : Option ID) :
    ((m.delegatesOf legacyAccountId).map DelegateLeaf.row).Nodup := by
  refine List.Nodup.map_on ?_ ((List.Nodup.of_map _ m.publicKeys).filter _)
  intro l left r right same
  obtain ⟨known,legacy⟩ := List.mem_filter.mp left
  obtain ⟨known',legacy'⟩ := List.mem_filter.mp right
  simp only [decide_eq_true_eq] at legacy legacy'
  have ids : l.legacyAccountId = r.legacyAccountId := Option.some.inj (legacy.trans legacy'.symm)
  have keys : l.publicKey = r.publicKey := Bytes32.ext (congrArg Prod.fst same)
  exact List.inj_on_of_nodup_map m.publicKeys known known' (Prod.ext ids keys)

theorem accountRows_length (valid : Represents H w) (open_ : w.registry.migrationFinalized = false) :
    (accountRows w).length = w.registry.importedAccounts.toNat := by
  rw [valid.importedAccounts]
  simp only [accountRows,List.length_map,Store.count,Store.keysWhere]
  refine congrArg List.length (List.filter_eq_self.mpr ?_).symm
  intro e stored
  exact valid.legacyOnly open_ e.1 e.2 (Store.get?_eq_some.mpr stored)

theorem delegateRows_length (valid : Represents H w) (open_ : w.registry.migrationFinalized = false) :
    (delegateRows w).length = w.registry.importedDelegates.toNat := by
  rw [valid.importedDelegates open_]
  simp [delegateRows,Store.total,List.length_flatMap]

-- Once the keys of all accounts together are the manifest's, those of each
-- account are: no other account can hold a leaf of its legacy id.
theorem delegates_exact (valid : Represents H w) (drawn : Drawn m w.accounts) (exact_ : (delegateRows w).Perm m.delegateRows)
    {id : ID} {a : MemWalAccount} (stored : w.accounts.get? id = some a) :
    (a.delegateKeys.map keyRow).Perm ((m.delegatesOf a.legacyAccountId).map DelegateLeaf.row) := by
  refine (List.perm_ext_iff_of_nodup (keyRows_nodup (valid.keys id a stored)) (delegatesOf_nodup m _)).mpr ?_
  intro row
  constructor
  · intro present
    obtain ⟨key,member,rfl⟩ := List.mem_map.mp present
    exact drawn.delegates id a stored key member
  · intro listed
    have present := exact_.mem_iff.mpr (mem_delegateRows.mpr listed)
    obtain ⟨e,member,inside⟩ := List.mem_flatMap.mp present
    obtain ⟨key,held,same⟩ := List.mem_map.mp inside
    obtain ⟨legacy,rfl⟩ := Prod.mk.inj same
    have equal : e = (id,a) := entry_of_legacy valid drawn member (Store.get?_eq_some.mp stored) legacy
    subst equal
    exact List.mem_map.mpr ⟨key,held,rfl⟩

end Rows

section Admission
variable {H : Hash256} {m : Manifest} {w next : World} {tx : Tx}

def Imported (w : World) : Prop := w.registry.importedAccounts ≠ 0 ∨ w.registry.importedDelegates ≠ 0

-- Whatever this transaction imports under the root in force is a leaf of the
-- manifest.
structure Admits (H : Hash256) (m : Manifest) (w : World) (tx : Tx) (next : World) : Prop where
  account : ∀ cap legacyAccountId owner active createdAt proof sides root,
    tx.call = .legacyImportAccount cap legacyAccountId owner active createdAt proof sides →
    next.registry.pinnedAllowlistRoot = some root → Imported next →
    assertMigrationProof H root (migrationAccountLeaf H legacyAccountId owner active createdAt)
      proof sides = .ok () →
    ⟨legacyAccountId,owner,active,createdAt⟩ ∈ m.accounts
  delegate : ∀ cap id a legacyAccountId publicKey label createdAt proof sides root,
    tx.call = .legacyImportDelegateKey cap id publicKey label createdAt proof sides →
    w.accounts.get? id = some a → a.legacyAccountId = some legacyAccountId → publicKey.length = 32 →
    next.registry.pinnedAllowlistRoot = some root → Imported next →
    assertMigrationProof H root (H.digest (delegateLeafMessage legacyAccountId publicKey label createdAt))
      proof sides = .ok () →
    (publicKey,label,createdAt) ∈ (m.delegatesOf (some legacyAccountId)).map DelegateLeaf.row

theorem Drawn.put {id : ID} {a b : MemWalAccount} (drawn : Drawn m w.accounts)
    (found : w.accounts.get? id = some a) (row : accountRow b = accountRow a)
    (keys : ∀ key ∈ b.delegateKeys, keyRow key ∈ (m.delegatesOf a.legacyAccountId).map DelegateLeaf.row) :
    Drawn m (w.accounts.put id b) := by
  have legacy : b.legacyAccountId = a.legacyAccountId := congrArg (fun row => row.2.1) row
  constructor
  · intro j c stored
    rw [Store.get?_put found] at stored
    split at stored
    · cases stored; rw [row]; exact drawn.accounts id a found
    · exact drawn.accounts j c stored
  · intro j c stored
    rw [Store.get?_put found] at stored
    split at stored
    · cases stored; rw [legacy]; exact keys
    · exact drawn.delegates j c stored

theorem Drawn.insert {a : MemWalAccount} (drawn : Drawn m w.accounts) (missing : w.accounts.get? a.id = none)
    (row : accountRow a ∈ m.accounts.map AccountLeaf.row) (empty : a.delegateKeys = []) :
    Drawn m (w.accounts.insert a.id a) := by
  constructor
  · intro j c stored
    rw [Store.get?_insert a missing] at stored
    split at stored
    · cases stored; exact row
    · exact drawn.accounts j c stored
  · intro j c stored
    rw [Store.get?_insert a missing] at stored
    split at stored
    · cases stored
      rw [empty]
      intro key member
      cases member
    · exact drawn.delegates j c stored

theorem unissued {id : ID} (valid : Represents H w) (fresh : id ∉ w.objectIds) : w.accounts.get? id = none := by
  cases stored : w.accounts.get? id with
  | none => rfl
  | some a => exact absurd (valid.issued id a stored) fresh

-- Before the latch no owner call gets through, so an admitted import is the
-- only way anything enters an account.
theorem effect_drawn (valid : Represents H w) (open_ : w.registry.migrationFinalized = false)
    (drawn : Drawn m w.accounts) (admits : Admits H m w tx next) (effect : Effect H w tx next) : Drawn m next.accounts := by
  cases effect with
  | native _ _ _ _ _ final => rw [open_] at final; cases final
  | added _ _ _ _ _ _ _ final => rw [open_] at final; cases final
  | removed _ _ _ _ _ _ _ _ _ final => rw [open_] at final; cases final
  | deactivated _ _ _ _ _ _ _ final => rw [open_] at final; cases final
  | reactivated _ _ _ _ _ _ _ final => rw [open_] at final; cases final
  | quarantined id a counter events called found calm bumped =>
    exact drawn.put found rfl (drawn.delegates id a found)
  | cleared id a events called found held =>
    exact drawn.put found rfl (drawn.delegates id a found)
  | custody | pinned | migrated | finalized | unchanged => exact ⟨drawn.accounts,drawn.delegates⟩
  | importedAccount capId legacyAccountId owner active createdAt proof sides root imported events called
      fresh _ pinned proven absent below counted =>
    have listed := admits.account _ _ _ _ _ _ _ _ called pinned (.inl (nonzero_of_succ counted)) proven
    exact drawn.insert (a:=⟨tx.fresh,owner,[],createdAt,active,false,some legacyAccountId,0⟩)
      (unissued valid fresh) (List.mem_map.mpr ⟨_,listed,rfl⟩) rfl
  | importedDelegate capId id a legacyAccountId key proof sides root imported events called found _
      pinned legacy length short proven absent room below address counted =>
    have listed := admits.delegate _ _ _ _ _ _ _ _ _ _ called found legacy length pinned
      (.inr (nonzero_of_succ counted)) proven
    refine drawn.put found rfl ?_
    intro other member
    rcases List.mem_append.mp member with old | new
    · exact drawn.delegates id a found other old
    · rw [List.mem_singleton.mp new,legacy]
      exact listed

end Admission

-- The registry is pinned to a Merkle tree over the manifest, with its sizes.
structure Snapshot (H : Hash256) (m : Manifest) (t : Merkle.Tree Leaf) (registry : AccountRegistry) : Prop where
  leaves : ∀ leaf, leaf ∈ t.leaves ↔ leaf ∈ m.leaves
  pinned : ∃ root, treeRoot H t = .ok root ∧ registry.pinnedAllowlistRoot = some root
  accounts : registry.expectedAccountImports.toNat = m.accounts.length
  delegates : registry.expectedDelegateImports.toNat = m.delegates.length

def Finalizes (H : Hash256) (w : World) (tx : Tx) : Prop :=
  Succeeds H w tx ∧ ∃ clock evidence expires, tx.call = .finalizeMigration clock evidence expires

-- What the proof check of one call hashes.
def hashedMessages (H : Hash256) (w : World) (tx : Tx) : List Bytes :=
  match tx.call with
  | .legacyImportAccount _ legacyAccountId owner active createdAt proof sides =>
    accountLeafMessage legacyAccountId owner active createdAt ::
      proofMessages H (migrationAccountLeaf H legacyAccountId owner active createdAt) proof sides
  | .legacyImportDelegateKey _ id publicKey label createdAt proof sides =>
    match (w.accounts.get? id).bind MemWalAccount.legacyAccountId with
    | some legacyAccountId =>
      let message := delegateLeafMessage legacyAccountId publicKey label createdAt
      message :: proofMessages H (H.digest message) proof sides
    | none => []
  | _ => []

def runMessages (H : Hash256) (g : Genesis) (txs : List Tx) (i : Nat) : List Bytes :=
  (List.range i).flatMap (fun k => txs[k]?.elim [] (hashedMessages H (stateAt H g txs k)))

section Finalized
variable {H : Hash256} {g : Genesis} {txs : List Tx} {m : Manifest} {t : Merkle.Tree Leaf} {i : Nat} {tx : Tx}

theorem finalizes_parts {w : World} (finalized : Finalizes H w tx) :
    w.registry.migrationFinalized = false ∧
    w.registry.importedAccounts = w.registry.expectedAccountImports ∧
    w.registry.importedDelegates = w.registry.expectedDelegateImports ∧
    (settle (execute H) w tx).accounts = w.accounts ∧
    (settle (execute H) w tx).registry.migrationFinalized = true := by
  obtain ⟨⟨next,ran⟩,clock,evidence,expires,called⟩ := finalized
  rw [settle_ok ran]
  simp only [execute,called,World.borrowAdminCap,finalizeMigration,bind_ok,ensure_ok,exists_const,pure_ok] at ran
  obtain ⟨_,result,⟨_,open_,_,_,_,_,_,_,counts,rfl⟩,rfl⟩ := ran
  exact ⟨open_,counts.1,counts.2,rfl,rfl⟩

theorem hashed_subset {k : Nat} {call : Tx} (before_ : k < i) (called : txs[k]? = some call) :
    hashedMessages H (stateAt H g txs k) call ⊆ runMessages H g txs i := by
  intro message member
  refine List.mem_flatMap.mpr ⟨k,List.mem_range.mpr before_,?_⟩
  simpa [called] using member

theorem account_listed (covers : ∀ leaf, leaf ∈ t.leaves ↔ leaf ∈ m.leaves) {l : AccountLeaf}
    (present : Leaf.account l ∈ t.leaves) : l ∈ m.accounts := by
  simpa [Manifest.leaves] using (covers _).mp present

theorem delegate_listed (covers : ∀ leaf, leaf ∈ t.leaves ↔ leaf ∈ m.leaves) {l : DelegateLeaf}
    (present : Leaf.delegate l ∈ t.leaves) : l ∈ m.delegates := by
  simpa [Manifest.leaves] using (covers _).mp present

-- A root that took part in an import is the root pinned at the end, so an
-- accepted proof is one about the manifest's own tree.
theorem admitted {k : Nat} {call : Tx} {next : World} (before_ : k < i) (called : txs[k]? = some call)
    (ran : execute H (stateAt H g txs k) call = .ok next)
    (snapshot : Snapshot H m t (stateAt H g txs i).registry)
    (free : H.CollisionFree (treeMessages H t ++ runMessages H g txs i)) :
    Admits H m (stateAt H g txs k) call next := by
  have reached : stateAt H g txs (k+1) = next := (stateAt_succ called).trans (settle_ok ran)
  have settles : Settles next (stateAt H g txs i) :=
    reached ▸ reached_settles H g.registryId g.adminCapId g.publisher txs before_
  have final : ∀ root, next.registry.pinnedAllowlistRoot = some root → Imported next →
      root = ((allowlist H).root t).bytes := by
    intro root pinned imported
    obtain ⟨top,rooted,held⟩ := snapshot.pinned
    rw [treeRoot_eq] at rooted
    cases rooted
    rw [(settles.2 imported).1,pinned] at held
    exact Option.some.inj held
  have hashed := hashed_subset (H:=H) (g:=g) before_ called
  constructor
  · intro cap legacyAccountId owner active createdAt proof sides root call_ pinned imported proven
    cases final root pinned imported
    refine account_listed snapshot.leaves (proof_sound (.account _) (free.subset ?_) proven)
    refine List.append_subset.mpr ⟨List.subset_append_left _ _,fun message member => ?_⟩
    refine List.mem_append_right _ (hashed ?_)
    simp only [hashedMessages,call_]
    exact member
  · intro cap id a legacyAccountId publicKey label createdAt proof sides root call_ stored legacy length
      pinned imported proven
    cases final root pinned imported
    have leaf := proof_sound (.delegate ⟨legacyAccountId,⟨publicKey,length⟩,label,createdAt⟩)
      (free.subset ?_) proven
    · refine List.mem_map.mpr ⟨_,List.mem_filter.mpr ⟨delegate_listed snapshot.leaves leaf,?_⟩,rfl⟩
      simp
    · refine List.append_subset.mpr ⟨List.subset_append_left _ _,fun message member => ?_⟩
      refine List.mem_append_right _ (hashed ?_)
      simp only [hashedMessages,call_,stored,Option.bind_some,legacy]
      exact member

theorem stateAt_drawn (open_ : (stateAt H g txs i).registry.migrationFinalized = false)
    (snapshot : Snapshot H m t (stateAt H g txs i).registry)
    (free : H.CollisionFree (treeMessages H t ++ runMessages H g txs i)) :
    Drawn m (stateAt H g txs i).accounts := by
  refine kept_between (P:=fun w : World => Drawn m w.accounts) (Nat.zero_le i) ?_ ?_
  · constructor
    · intro id a stored
      cases stored
    · intro id a stored
      cases stored
  · intro k call next _ before_ called drawn ran
    have unlatched : (stateAt H g txs k).registry.migrationFinalized = false := by
      have oneWay := (reached_settles H g.registryId g.adminCapId g.publisher txs (Nat.le_of_lt before_)).1
      cases latch : (stateAt H g txs k).registry.migrationFinalized with
      | false => rfl
      | true => exact absurd ((oneWay latch).symm.trans open_) (by decide)
    exact effect_drawn (stateAt_represents k) unlatched drawn (admitted before_ called ran snapshot free)
      (execute_effect ran)

-- The counters match, the rows are distinct and all come from the manifest:
-- by counting, they are the manifest.
theorem finalized_is_manifest (H : Hash256) (g : Genesis) (txs : List Tx) (m : Manifest) (t : Merkle.Tree Leaf)
    (i : Nat) (tx : Tx) (called : txs[i]? = some tx) (finalized : Finalizes H (stateAt H g txs i) tx)
    (snapshot : Snapshot H m t (stateAt H g txs i).registry)
    (free : H.CollisionFree (treeMessages H t ++ runMessages H g txs i)) :
    (stateAt H g txs (i+1)).registry.migrationFinalized = true ∧
    (accountRows (stateAt H g txs (i+1))).Perm (m.accounts.map AccountLeaf.row) ∧
    (delegateRows (stateAt H g txs (i+1))).Perm m.delegateRows ∧
    ∀ id a, (stateAt H g txs (i+1)).accounts.get? id = some a →
      (a.delegateKeys.map keyRow).Perm ((m.delegatesOf a.legacyAccountId).map DelegateLeaf.row) := by
  obtain ⟨open_,accounts,delegates,same,latched⟩ := finalizes_parts finalized
  have valid : Represents H (stateAt H g txs i) := stateAt_represents i
  have drawn := stateAt_drawn open_ snapshot free
  have accountsExact : (accountRows (stateAt H g txs i)).Perm (m.accounts.map AccountLeaf.row) := by
    refine perm_of_count (accountRows_nodup valid) (accountRows_drawn drawn) ?_
    rw [accountRows_length valid open_,accounts,snapshot.accounts]
    simp
  have delegatesExact : (delegateRows (stateAt H g txs i)).Perm m.delegateRows := by
    refine perm_of_count (delegateRows_nodup valid drawn) (delegateRows_drawn drawn) ?_
    rw [delegateRows_length valid open_,delegates,snapshot.delegates]
    simp [Manifest.delegateRows]
  rw [stateAt_succ called]
  refine ⟨latched,?_,?_,?_⟩
  · simpa only [accountRows,same] using accountsExact
  · simpa only [delegateRows,same] using delegatesExact
  · intro id a stored
    rw [same] at stored
    exact delegates_exact valid drawn delegatesExact stored

end Finalized

-- One account and its one delegate, pinned, imported and finalized.
def sampleManifest : Manifest where
  accounts := [⟨sample 1,sample 2,true,7⟩]
  delegates := [⟨sample 1,sample 3,[104,105],8⟩]
  owners := by decide
  legacyIds := by decide
  publicKeys := by decide

def accountDigest : Bytes := Blake2b.digest (accountLeafMessage (sample 1) (sample 2) true 7)
def delegateDigest : Bytes := Blake2b.digest (delegateLeafMessage (sample 1) (sample 3).bytes [104,105] 8)
def sampleRoot : Bytes := Blake2b.digest (merkleParentMessage accountDigest delegateDigest)

def pinnedRun : List Tx :=
  [⟨⟨sample 10,sample 22⟩,.pinAllowlistRoot sampleRoot 1 1⟩,
   ⟨⟨sample 10,sample 22⟩,.mintMigrationCap sampleRoot⟩]

def importCalls : List Tx :=
  [⟨⟨sample 10,sample 23⟩,.legacyImportAccount (sample 22) (sample 1) (sample 2) true 7 [delegateDigest] [false]⟩,
   ⟨⟨sample 10,sample 24⟩,.legacyImportDelegateKey (sample 22) (sample 23) (sample 3).bytes [104,105] 8
     [accountDigest] [true]⟩]

def finalizeCall : Tx := ⟨⟨sample 10,sample 25⟩,.finalizeMigration 1000 (sample 9).bytes 2000⟩

def sampleGenesis : Genesis := ⟨sample 20,sample 21,sample 10⟩

theorem succeeds_of_isOk {H : Hash256} {w : World} {tx : Tx} (ran : (execute H w tx).isOk = true) :
    Succeeds H w tx := by
  unfold Succeeds
  cases answer : execute H w tx with
  | ok next => exact ⟨next,rfl⟩
  | error _ => rw [answer] at ran; cases ran

theorem sampleTree_snapshot {registry : AccountRegistry}
    (pinned : registry.pinnedAllowlistRoot = some sampleRoot) (accounts : registry.expectedAccountImports = 1)
    (delegates : registry.expectedDelegateImports = 1) :
    Snapshot Blake2b.hash256 sampleManifest sampleTree registry := by
  refine ⟨?_,⟨sampleRoot,?_,pinned⟩,by simp [accounts,sampleManifest],by simp [delegates,sampleManifest]⟩
  · intro leaf
    simp [sampleTree,Merkle.Tree.leaves,Manifest.leaves,sampleManifest]
  · decide +kernel

theorem sampleTree_distinct : ((treeMessages Blake2b.hash256 sampleTree).map Blake2b.digest).Nodup := by
  decide +kernel

theorem sample_migration_finalized :
    let w := stateAt Blake2b.hash256 sampleGenesis (pinnedRun ++ importCalls ++ [finalizeCall]) (4+1)
    (accountRows w).Perm (sampleManifest.accounts.map AccountLeaf.row) ∧
      (delegateRows w).Perm sampleManifest.delegateRows := by
  have exact_ := finalized_is_manifest Blake2b.hash256 sampleGenesis
    (pinnedRun ++ importCalls ++ [finalizeCall]) sampleManifest sampleTree 4 finalizeCall rfl
    ⟨succeeds_of_isOk (by decide +kernel),_,_,_,rfl⟩
    (sampleTree_snapshot (by decide +kernel) (by decide +kernel) (by decide +kernel)) ?_
  · exact ⟨exact_.2.1,exact_.2.2.1⟩
  · refine (Hash256.collisionFree_of_nodup sampleTree_distinct).subset ?_
    refine List.append_subset.mpr ⟨List.Subset.refl _,?_⟩
    decide +kernel

end MemWal.Account
