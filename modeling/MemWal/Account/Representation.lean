import MemWal.Account.World

namespace MemWal.Account
open Library Library.Runs

structure KeysValid (H : Hash256) (keys : List DelegateKey) : Prop where
  bounded : keys.length ≤ maxDelegateKeys
  distinct : (keys.map DelegateKey.publicKey).Nodup
  wellFormed : ∀ key ∈ keys, key.publicKey.length = ed25519PublicKeyLength ∧
    key.label.length ≤ maxLabelLength ∧ deriveSuiAddress H key.publicKey = .ok key.suiAddress

def isImported (a : MemWalAccount) : Bool := a.legacyAccountId.isSome

-- The counters are only inductive together with the registration facts, so
-- the whole representation is one invariant.
structure Represents (H : Hash256) (w : World) : Prop where
  registered : ∀ owner id, w.registry.accounts.get? owner = some id →
    ∃ a, w.accounts.get? id = some a ∧ a.owner = owner
  owned : ∀ id a, w.accounts.get? id = some a → w.registry.accounts.get? a.owner = some id
  keys : ∀ id a, w.accounts.get? id = some a → KeysValid H a.delegateKeys
  importedAccounts : w.registry.importedAccounts.toNat = w.accounts.count (fun _ a => isImported a)
  expectedAccounts : w.registry.importedAccounts.toNat ≤ w.registry.expectedAccountImports.toNat
  legacyOnly : w.registry.migrationFinalized = false → ∀ id a, w.accounts.get? id = some a →
    isImported a = true
  importedDelegates : w.registry.migrationFinalized = false →
    w.registry.importedDelegates.toNat = w.accounts.total (fun _ a => a.delegateKeys.length)
  unpinned : w.registry.pinnedAllowlistRoot = none → w.registry.migrationFinalized = false ∧
    w.registry.importedAccounts = 0 ∧ w.registry.importedDelegates = 0
  current : w.registry.version = version
  issued : ∀ id a, w.accounts.get? id = some a → id ∈ w.objectIds

theorem KeysValid.nil {H : Hash256} : KeysValid H [] := by
  refine ⟨by decide,by simp,?_⟩
  intro key member
  cases member

theorem KeysValid.append {H : Hash256} {keys : List DelegateKey} {key : DelegateKey}
    (valid : KeysValid H keys) (room : keys.length < 20) (length : key.publicKey.length = 32)
    (short : key.label.length ≤ 64) (absent : ∀ other ∈ keys, other.publicKey ≠ key.publicKey)
    (address : key.suiAddress = H.apply (0 :: key.publicKey)) : KeysValid H (keys ++ [key]) := by
  refine ⟨by simp [maxDelegateKeys]; omega,?_,?_⟩
  · rw [List.map_append,List.nodup_append]
    refine ⟨valid.distinct,by simp,?_⟩
    intro x old y new equal
    obtain ⟨other,member,rfl⟩ := List.mem_map.mp old
    simp only [List.map_cons,List.map_nil,List.mem_singleton] at new
    exact absent other member (equal.trans new)
  · intro other member
    rcases List.mem_append.mp member with old | new
    · exact valid.wellFormed other old
    · rw [List.mem_singleton.mp new]
      exact ⟨length,short,derived_address length address⟩

theorem KeysValid.eraseP {H : Hash256} {keys : List DelegateKey} (valid : KeysValid H keys)
    (p : DelegateKey → Bool) : KeysValid H (keys.eraseP p) := by
  have sub : (keys.eraseP p).Sublist keys := List.eraseP_sublist
  refine ⟨Nat.le_trans sub.length_le valid.bounded,valid.distinct.sublist (sub.map _),?_⟩
  intro key member
  exact valid.wellFormed key (sub.subset member)

theorem init_represents (H : Hash256) (registryId adminCapId : ID) (publisher : Address) :
    Represents H (init registryId adminCapId publisher) := by
  refine ⟨?_,?_,?_,rfl,Nat.le_refl _,?_,fun _ => rfl,fun _ => ⟨rfl,rfl,rfl⟩,rfl,?_⟩
  all_goals intros
  all_goals simp_all [init]

theorem Represents.emit {H : Hash256} {w : World} (valid : Represents H w) (events : List Event) :
    Represents H (w.emit events) :=
  ⟨valid.registered,valid.owned,valid.keys,valid.importedAccounts,valid.expectedAccounts,
    valid.legacyOnly,valid.importedDelegates,valid.unpinned,valid.current,valid.issued⟩

-- A change inside one account that keeps its owner and provenance. Before the
-- latch it must keep the number of its keys too; that is where an owner call
-- slipping past the latch would break the count.
theorem Represents.withAccount {H : Hash256} {w : World} {id : ID} {a b : MemWalAccount}
    (valid : Represents H w) (found : w.accounts.get? id = some a) (owner : b.owner = a.owner)
    (legacy : b.legacyAccountId = a.legacyAccountId) (keys : KeysValid H b.delegateKeys)
    (settled : w.registry.migrationFinalized = false → b.delegateKeys.length = a.delegateKeys.length) :
    Represents H (w.withAccount id b) := by
  have lookup := fun j => Store.get?_put found b j
  refine ⟨?_,?_,?_,?_,valid.expectedAccounts,?_,?_,valid.unpinned,valid.current,?_⟩
  · intro address j present
    obtain ⟨c,stored,same⟩ := valid.registered address j present
    by_cases equal : j = id
    · subst j
      rw [found] at stored
      cases stored
      exact ⟨b,by simp [World.withAccount,lookup],owner.trans same⟩
    · exact ⟨c,by simpa [World.withAccount,lookup,equal] using stored,same⟩
  · intro j c stored
    simp only [World.withAccount,lookup] at stored
    split at stored
    · rename_i equal
      cases stored
      subst equal
      rw [owner]
      exact valid.owned j a found
    · exact valid.owned j c stored
  · intro j c stored
    simp only [World.withAccount,lookup] at stored
    split at stored
    · cases stored; exact keys
    · exact valid.keys j c stored
  · have sum := Store.total_put found b (fun _ a => if isImported a = true then 1 else 0)
    have counted := valid.importedAccounts
    rw [Store.count_eq_total] at counted ⊢
    have same : isImported b = isImported a := congrArg Option.isSome legacy
    simp only [same] at sum
    exact counted.trans (by simp only [World.withAccount]; omega)
  · intro open_ j c stored
    simp only [World.withAccount,lookup] at stored
    split at stored
    · cases stored
      have old := valid.legacyOnly open_ id a found
      simpa [isImported,legacy] using old
    · exact valid.legacyOnly open_ j c stored
  · intro open_
    have sum := Store.total_put found b (fun _ a => a.delegateKeys.length)
    have counted := valid.importedDelegates open_
    have same := settled open_
    simp only [World.withAccount]
    change w.registry.importedDelegates.toNat = _
    omega
  · intro j c stored
    simp only [World.withAccount,lookup] at stored
    split at stored
    · rename_i equal
      subst equal
      exact valid.issued j a found
    · exact valid.issued j c stored

-- A new account under a new id for an owner that had none.
theorem Represents.shareAccount {H : Hash256} {w : World} {a : MemWalAccount} {imported : UInt64}
    (valid : Represents H w) (fresh : a.id ∉ w.objectIds)
    (absent : w.registry.accounts.get? a.owner = none) (empty : a.delegateKeys = [])
    (counted : imported.toNat = w.registry.importedAccounts.toNat + if isImported a then 1 else 0)
    (room : imported.toNat ≤ w.registry.expectedAccountImports.toNat)
    (legacy : w.registry.migrationFinalized = false → isImported a = true)
    (pinned : w.registry.pinnedAllowlistRoot ≠ none) :
    Represents H ((w.withRegistry {w.registry with
      accounts := w.registry.accounts.insert a.owner a.id
      importedAccounts := imported}).shareAccount a) := by
  have missing : w.accounts.get? a.id = none := by
    cases stored : w.accounts.get? a.id with
    | none => rfl
    | some old => exact absurd (valid.issued _ _ stored) fresh
  have lookup := fun j => Store.get?_insert a missing j
  have table := fun owner => Store.get?_insert a.id absent owner
  refine ⟨?_,?_,?_,?_,room,?_,?_,?_,valid.current,?_⟩
  · intro owner j present
    simp only [World.shareAccount,World.withRegistry,table] at present
    split at present
    · rename_i same
      cases present
      exact ⟨a,by simp [World.shareAccount,World.withRegistry,lookup],same.symm⟩
    · obtain ⟨old,stored,same⟩ := valid.registered owner j present
      have differs : j ≠ a.id := by
        intro found
        obtain rfl := found
        rw [missing] at stored
        cases stored
      exact ⟨old,by simpa [World.shareAccount,World.withRegistry,lookup,differs] using stored,same⟩
  · intro j c stored
    simp only [World.shareAccount,World.withRegistry,lookup] at stored
    split at stored
    · rename_i equal
      cases stored
      simp [World.shareAccount,World.withRegistry,table,equal]
    · have known := valid.owned j c stored
      have differs : c.owner ≠ a.owner := by
        intro same
        rw [same,absent] at known
        cases known
      simpa [World.shareAccount,World.withRegistry,table,differs] using known
  · intro j c stored
    simp only [World.shareAccount,World.withRegistry,lookup] at stored
    split at stored
    · cases stored; rw [empty]; exact KeysValid.nil
    · exact valid.keys j c stored
  · have before := valid.importedAccounts
    rw [Store.count_eq_total] at before ⊢
    simp only [World.shareAccount,World.withRegistry,Store.total_insert a missing,counted,before]
  · intro open_ j c stored
    simp only [World.shareAccount,World.withRegistry,lookup] at stored
    split at stored
    · cases stored; exact legacy open_
    · exact valid.legacyOnly open_ j c stored
  · intro open_
    have before := valid.importedDelegates open_
    simp only [World.shareAccount,World.withRegistry,Store.total_insert a missing,empty,
      List.length_nil,before,Nat.add_zero]
  · intro none
    exact absurd none pinned
  · intro j c stored
    simp only [World.shareAccount,World.withRegistry,lookup] at stored
    split at stored
    · rename_i equal; rw [equal]; exact List.mem_cons_self
    · exact List.mem_cons_of_mem _ (valid.issued j c stored)

theorem effect_represents {H : Hash256} {w next : World} {tx : Tx} (valid : Represents H w)
    (effect : Effect H w tx next) : Represents H next := by
  cases effect with
  | custody adminCap caps ids events grown =>
    exact ⟨valid.registered,valid.owned,valid.keys,valid.importedAccounts,valid.expectedAccounts,
      valid.legacyOnly,valid.importedDelegates,valid.unpinned,valid.current,
      fun id a stored => grown (valid.issued id a stored)⟩
  | native clock events called fresh current final absent =>
    refine Represents.emit ?_ events
    refine valid.shareAccount (a:=⟨tx.fresh,tx.sender,[],clock,true,false,none,0⟩) fresh absent rfl rfl
      valid.expectedAccounts ?_ ?_
    · intro open_
      rw [final] at open_
      cases open_
    · intro none
      rw [(valid.unpinned none).1] at final
      cases final
  | added id a key events called found owner final length short room absent address =>
    refine Represents.emit ?_ events
    refine valid.withAccount found rfl rfl ?_ ?_
    · exact (valid.keys id a found).append room length short absent address
    · intro open_
      rw [final] at open_
      cases open_
  | removed id a publicKey key counter events called found owner final present bumped =>
    refine Represents.emit ?_ events
    refine valid.withAccount found rfl rfl ?_ ?_
    · exact (valid.keys id a found).eraseP _
    · intro open_
      rw [final] at open_
      cases open_
  | deactivated id a counter events called found owner final active bumped =>
    refine Represents.emit ?_ events
    exact valid.withAccount found rfl rfl (valid.keys id a found) (fun _ => rfl)
  | quarantined id a counter events called found calm bumped =>
    refine Represents.emit ?_ events
    exact valid.withAccount found rfl rfl (valid.keys id a found) (fun _ => rfl)
  | cleared id a events called found held =>
    refine Represents.emit ?_ events
    exact valid.withAccount found rfl rfl (valid.keys id a found) (fun _ => rfl)
  | reactivated id a counter events called found owner final calm idle grown =>
    refine Represents.emit ?_ events
    exact valid.withAccount found rfl rfl (valid.keys id a found) (fun _ => rfl)
  | pinned root accounts delegates events allowed =>
    have zero : w.registry.importedAccounts = 0 := by
      rcases allowed with none | ⟨_,zero,_⟩
      · exact (valid.unpinned none).2.1
      · exact zero
    exact ⟨valid.registered,valid.owned,valid.keys,valid.importedAccounts,
      by simp [World.withRegistry,World.emit,zero],valid.legacyOnly,valid.importedDelegates,
      fun none => (Option.some_ne_none _ none).elim,valid.current,valid.issued⟩
  | migrated events older =>
    exact ⟨valid.registered,valid.owned,valid.keys,valid.importedAccounts,valid.expectedAccounts,
      valid.legacyOnly,valid.importedDelegates,valid.unpinned,rfl,valid.issued⟩
  | finalized clock evidence expires events called open_ pinned accounts delegates =>
    refine ⟨valid.registered,valid.owned,valid.keys,valid.importedAccounts,valid.expectedAccounts,
      ?_,?_,?_,valid.current,valid.issued⟩
    · intro false_; cases false_
    · intro false_; cases false_
    · intro none
      simp only [World.withRegistry,World.emit] at none
      simp [none] at pinned
  | importedAccount capId legacyAccountId owner active createdAt proof sides root imported events called
      fresh open_ pinned proven absent below counted =>
    refine Represents.emit ?_ events
    exact valid.shareAccount
      (a:=⟨tx.fresh,owner,[],createdAt,active,false,some legacyAccountId,0⟩) fresh absent rfl counted
      (by omega) (fun _ => rfl) (by simp [pinned])
  | importedDelegate capId id a legacyAccountId key proof sides root imported events called found open_
      pinned legacy length short proven absent room below address counted =>
    refine Represents.emit ?_ events
    have grown := (valid.keys id a found).append room length short absent address
    -- The registry counter and the account's list move together, so the step
    -- is the account change under a latch read as set, plus the new total.
    have sum := Store.total_put found {a with delegateKeys := a.delegateKeys ++ [key]}
      (fun _ a => a.delegateKeys.length)
    have moved := Represents.withAccount (w:=w.withRegistry {w.registry with
      migrationFinalized := true, pinnedAllowlistRoot := some root})
      (b:={a with delegateKeys := a.delegateKeys ++ [key]})
      ⟨valid.registered,valid.owned,valid.keys,valid.importedAccounts,valid.expectedAccounts,
        (fun false_ => by cases false_),(fun false_ => by cases false_),
        (fun none => (Option.some_ne_none _ none).elim),valid.current,valid.issued⟩
      found rfl rfl grown (fun false_ => by cases false_)
    refine ⟨moved.registered,moved.owned,moved.keys,moved.importedAccounts,moved.expectedAccounts,
      ?_,?_,?_,moved.current,moved.issued⟩
    · intro _ j c stored
      simp only [World.withAccount,World.withRegistry,Store.get?_put found] at stored
      split at stored
      · cases stored; simp [isImported,legacy]
      · exact valid.legacyOnly open_ j c stored
    · intro _
      have before := valid.importedDelegates open_
      simp only [List.length_append,List.length_cons,List.length_nil] at sum
      simp only [World.withAccount,World.withRegistry]
      omega
    · intro none
      simp only [World.withAccount,World.withRegistry,pinned] at none
      cases none
  | unchanged events => exact valid.emit events

theorem execute_represents {H : Hash256} (w : World) (tx : Tx) (next : World) (valid : Represents H w)
    (ran : execute H w tx = .ok next) : Represents H next :=
  effect_represents valid (execute_effect ran)

-- The snapshot is fixed from the first import on, and the latch is one-way.
def Settles (w next : World) : Prop :=
  (w.registry.migrationFinalized = true → next.registry.migrationFinalized = true) ∧
  (w.registry.importedAccounts ≠ 0 ∨ w.registry.importedDelegates ≠ 0 →
    next.registry.pinnedAllowlistRoot = w.registry.pinnedAllowlistRoot ∧
    next.registry.expectedAccountImports = w.registry.expectedAccountImports ∧
    next.registry.expectedDelegateImports = w.registry.expectedDelegateImports ∧
    (next.registry.importedAccounts ≠ 0 ∨ next.registry.importedDelegates ≠ 0))

theorem nonzero_of_succ {a b : UInt64} (bumped : b.toNat = a.toNat + 1) : b ≠ 0 := by
  intro same
  obtain rfl := same
  simp at bumped

theorem effect_settles {H : Hash256} {w next : World} {tx : Tx} (valid : Represents H w)
    (effect : Effect H w tx next) : Settles w next := by
  cases effect with
  | pinned root accounts delegates events allowed =>
    refine ⟨id,?_⟩
    intro imported
    rcases allowed with none | ⟨_,accountsZero,delegatesZero⟩
    · obtain ⟨_,accountsZero,delegatesZero⟩ := valid.unpinned none
      rcases imported with some | some
      · exact absurd accountsZero some
      · exact absurd delegatesZero some
    · rcases imported with some | some
      · exact absurd accountsZero some
      · exact absurd delegatesZero some
  | finalized => exact ⟨fun _ => rfl,fun imported => ⟨rfl,rfl,rfl,imported⟩⟩
  | importedAccount capId legacyAccountId owner active createdAt proof sides root imported events called
      fresh open_ pinned proven absent below counted =>
    exact ⟨id,fun _ => ⟨rfl,rfl,rfl,.inl (nonzero_of_succ counted)⟩⟩
  | importedDelegate capId j a legacyAccountId key proof sides root imported events called found open_
      pinned legacy length short proven absent room below address counted =>
    exact ⟨id,fun _ => ⟨rfl,rfl,rfl,.inr (nonzero_of_succ counted)⟩⟩
  | custody | native | added | removed | deactivated | quarantined | cleared | reactivated | migrated
  | unchanged => exact ⟨id,fun imported => ⟨rfl,rfl,rfl,imported⟩⟩

theorem Settles.refl (w : World) : Settles w w := ⟨id,fun imported => ⟨rfl,rfl,rfl,imported⟩⟩

theorem Settles.trans {u v w : World} (left : Settles u v) (right : Settles v w) : Settles u w := by
  refine ⟨fun final => right.1 (left.1 final),?_⟩
  intro imported
  obtain ⟨root,accounts,delegates,still⟩ := left.2 imported
  obtain ⟨root',accounts',delegates',still'⟩ := right.2 still
  exact ⟨root'.trans root,accounts'.trans accounts,delegates'.trans delegates,still'⟩

section Reached
variable (H : Hash256) (registryId adminCapId : ID) (publisher : Address) (txs : List Tx)

theorem reached_represents (i : Nat) :
    Represents H (before (execute H) (init registryId adminCapId publisher) txs i) :=
  invariant_before (init_represents H registryId adminCapId publisher) execute_represents txs i

theorem reached_settles {i j : Nat} (order : i ≤ j) :
    Settles (before (execute H) (init registryId adminCapId publisher) txs i)
      (before (execute H) (init registryId adminCapId publisher) txs j) :=
  relation_between Settles.refl (fun _ _ _ => Settles.trans)
    (init_represents H registryId adminCapId publisher) execute_represents
    (fun _ _ _ valid ran => effect_settles valid (execute_effect ran)) order

-- Any calls by any senders, failing ones included: position `i` of the run is
-- represented, and position `i + later` has not undone what was settled at `i`.
theorem every_run_represented (i later : Nat) :
    Represents H (before (execute H) (init registryId adminCapId publisher) txs i) ∧
    Settles (before (execute H) (init registryId adminCapId publisher) txs i)
      (before (execute H) (init registryId adminCapId publisher) txs (i + later)) :=
  ⟨reached_represents H registryId adminCapId publisher txs i,
    reached_settles H registryId adminCapId publisher txs (Nat.le_add_right i later)⟩

end Reached
end MemWal.Account
