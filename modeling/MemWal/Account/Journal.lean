import MemWal.Account.Representation

namespace MemWal.Account
open Library Library.Fallible Library.Runs

def created : Event → Option (Address × ID)
  | .accountCreated accountId owner => some (owner,accountId)
  | _ => none

-- What a transaction adds to the log: an entry of the registry for each
-- AccountCreated and no other, in the order of the log.
def Journals (w next : World) (events : List Event) : Prop :=
  next.events = w.events ++ events ∧
  next.registry.accounts.entries = w.registry.accounts.entries ++ events.filterMap created

theorem Journals.quiet {w next : World} {events : List Event} (emitted : next.events = w.events ++ events)
    (same : next.registry.accounts = w.registry.accounts) (silent : events.filterMap created = []) :
    Journals w next events := by
  refine ⟨emitted,?_⟩
  rw [same,silent,List.append_nil]

theorem insert_entries {owner : Address} {id : ID} {table : Store Address ID} (absent : table.get? owner = none) :
    (table.insert owner id).entries = table.entries ++ [(owner,id)] := by
  rw [Store.insert,dif_pos (Store.get?_eq_none.mp absent)]

section Calls
variable {H : Hash256} {w next : World} {tx : Tx}

theorem createAccount_journals (called : tx.call = .createAccount clock) (ran : execute H w tx = .ok next) :
    ∃ events, Journals w next events := by
  simp only [execute,called,World.newObject,createAccount,bind_ok,ensure_ok,exists_const,pure_ok] at ran
  obtain ⟨_,result,⟨_,_,absent,rfl⟩,rfl⟩ := ran
  exact ⟨_,rfl,insert_entries absent⟩

theorem legacyImportAccount_journals
    (called : tx.call = .legacyImportAccount capId legacyAccountId owner active createdAt proof sides)
    (ran : execute H w tx = .ok next) : ∃ events, Journals w next events := by
  simp only [execute,called,World.newObject,legacyImportAccount,bind_ok,require_ok,ensure_ok,exists_const,
    pure_ok] at ran
  obtain ⟨cap,_,_,result,⟨_,_,root,_,_,_,_,absent,_,imported,_,rfl⟩,rfl⟩ := ran
  exact ⟨_,rfl,insert_entries absent⟩

theorem legacyImportDelegateKey_journals {id : ID}
    (called : tx.call = .legacyImportDelegateKey capId id publicKey label createdAt proof sides)
    (ran : execute H w tx = .ok next) : ∃ events, Journals w next events := by
  simp only [execute,called,World.fetchAccount,legacyImportDelegateKey,migrationDelegateLeaf,bind_ok,
    require_ok,ensure_ok,exists_const,pure_ok] at ran
  obtain ⟨cap,_,a,_,result,⟨_,_,root,_,_,legacyAccountId,_,_,_,leaf,_,_,_,answer⟩,rfl⟩ := ran
  split at answer
  · cases answer
    exact ⟨[],.quiet rfl rfl rfl⟩
  · simp only [bind_ok,ensure_ok,exists_const,pure_ok] at answer
    obtain ⟨_,_,address,_,imported,_,rfl⟩ := answer
    exact ⟨_,.quiet rfl rfl rfl⟩

theorem adminDeactivateAccount_quiet {a b : MemWalAccount} {events : List Event}
    (ran : adminDeactivateAccount a = .ok (b,events)) : events.filterMap created = [] := by
  unfold adminDeactivateAccount at ran
  split at ran
  · cases ran
    rfl
  · simp only [bind_ok] at ran
    obtain ⟨account,_,answer⟩ := ran
    split at answer
    all_goals
      cases answer
      rfl

theorem adminClearQuarantine_quiet {registry : AccountRegistry} {a b : MemWalAccount} {events : List Event}
    (ran : adminClearQuarantine registry a = .ok (b,events)) : events.filterMap created = [] := by
  simp only [adminClearQuarantine,bind_ok,ensure_ok,exists_const] at ran
  obtain ⟨_,answer⟩ := ran
  split at answer
  all_goals
    cases answer
    rfl

theorem execute_journals (ran : execute H w tx = .ok next) : ∃ events, Journals w next events := by
  cases called : tx.call with
  | createAccount => exact createAccount_journals called ran
  | legacyImportAccount => exact legacyImportAccount_journals called ran
  | legacyImportDelegateKey => exact legacyImportDelegateKey_journals called ran
  | transferAdminCap target =>
    simp only [execute,called,World.borrowAdminCap,bind_ok,ensure_ok,exists_const,pure_ok] at ran
    obtain ⟨_,rfl⟩ := ran
    exact ⟨[],.quiet (List.append_nil _).symm rfl rfl⟩
  | transferMigrationCap id target =>
    simp only [execute,called,bind_ok,pure_ok] at ran
    obtain ⟨cap,_,rfl⟩ := ran
    exact ⟨[],.quiet (List.append_nil _).symm rfl rfl⟩
  | addDelegateKey id publicKey label clock =>
    simp only [execute,called,World.fetchAccount,addDelegateKey,bind_ok,require_ok,ensure_ok,exists_const,
      pure_ok] at ran
    obtain ⟨a,_,result,⟨_,_,_,_,_,_,_,_,address,_,rfl⟩,rfl⟩ := ran
    exact ⟨_,.quiet rfl rfl rfl⟩
  | removeDelegateKey id publicKey =>
    simp only [execute,called,World.fetchAccount,removeDelegateKey,bind_ok,require_ok,ensure_ok,exists_const,
      pure_ok] at ran
    obtain ⟨a,_,result,⟨_,_,_,key,_,account,_,rfl⟩,rfl⟩ := ran
    exact ⟨_,.quiet rfl rfl rfl⟩
  | deactivateAccount id =>
    simp only [execute,called,World.fetchAccount,deactivateAccount,bind_ok,require_ok,ensure_ok,exists_const,
      pure_ok] at ran
    obtain ⟨a,_,result,⟨_,_,_,_,account,_,rfl⟩,rfl⟩ := ran
    exact ⟨_,.quiet rfl rfl rfl⟩
  | adminDeactivateAccount id =>
    simp only [execute,called,bind_ok,pure_ok] at ran
    obtain ⟨_,_,a,_,⟨b,events⟩,frozen,rfl⟩ := ran
    exact ⟨events,.quiet rfl rfl (adminDeactivateAccount_quiet frozen)⟩
  | adminClearQuarantine id =>
    simp only [execute,called,bind_ok,pure_ok] at ran
    obtain ⟨_,_,a,_,⟨b,events⟩,lifted,rfl⟩ := ran
    exact ⟨events,.quiet rfl rfl (adminClearQuarantine_quiet lifted)⟩
  | reactivateAccount id =>
    simp only [execute,called,World.fetchAccount,reactivateAccount,bind_ok,require_ok,ensure_ok,exists_const,
      pure_ok] at ran
    obtain ⟨a,_,result,⟨_,_,_,_,_,turned⟩,rfl⟩ := ran
    split at turned
    · simp only [bind_ok,pure_ok] at turned
      obtain ⟨account,_,rfl⟩ := turned
      exact ⟨_,.quiet rfl rfl rfl⟩
    · cases turned
      exact ⟨_,.quiet rfl rfl rfl⟩
  | migrateRegistry =>
    simp only [execute,called,World.borrowAdminCap,migrateRegistry,bind_ok,ensure_ok,exists_const,pure_ok] at ran
    obtain ⟨_,result,⟨_,rfl⟩,rfl⟩ := ran
    exact ⟨_,.quiet rfl rfl rfl⟩
  | pinAllowlistRoot root accounts delegates =>
    simp only [execute,called,World.borrowAdminCap,pinAllowlistRoot,bind_ok,ensure_ok,exists_const,pure_ok] at ran
    obtain ⟨_,result,⟨_,_,_,rfl⟩,rfl⟩ := ran
    exact ⟨_,.quiet rfl rfl rfl⟩
  | repinAllowlistRoot root accounts delegates =>
    simp only [execute,called,World.borrowAdminCap,repinAllowlistRoot,bind_ok,require_ok,ensure_ok,exists_const,
      pure_ok] at ran
    obtain ⟨_,result,⟨_,_,_,_,_,_,rfl⟩,rfl⟩ := ran
    exact ⟨_,.quiet rfl rfl rfl⟩
  | mintMigrationCap root =>
    simp only [execute,called,World.borrowAdminCap,World.newObject,mintMigrationCap,bind_ok,require_ok,
      ensure_ok,exists_const,pure_ok] at ran
    obtain ⟨_,_,result,⟨_,_,_,_,_,_,rfl⟩,rfl⟩ := ran
    exact ⟨_,.quiet rfl rfl rfl⟩
  | burnMigrationCap id =>
    simp only [execute,called,bind_ok,pure_ok] at ran
    obtain ⟨cap,_,rfl⟩ := ran
    exact ⟨_,.quiet rfl rfl rfl⟩
  | finalizeMigration clock evidence expires =>
    simp only [execute,called,World.borrowAdminCap,finalizeMigration,bind_ok,ensure_ok,exists_const,pure_ok] at ran
    obtain ⟨_,result,⟨_,_,_,_,_,_,_,_,_,rfl⟩,rfl⟩ := ran
    exact ⟨_,.quiet rfl rfl rfl⟩
  | sealApprove id accountId =>
    simp only [execute,called,bind_ok,pure_ok] at ran
    obtain ⟨_,_,_,_,rfl⟩ := ran
    exact ⟨[],.quiet (List.append_nil _).symm rfl rfl⟩
  | sealEncryptFence id accountId =>
    simp only [execute,called,bind_ok,pure_ok] at ran
    obtain ⟨_,_,_,_,rfl⟩ := ran
    exact ⟨[],.quiet (List.append_nil _).symm rfl rfl⟩

end Calls

-- An account id is registered for one owner only.
theorem Represents.distinct_ids {H : Hash256} {w : World} (valid : Represents H w) :
    (w.registry.accounts.entries.map Prod.snd).Nodup := by
  refine List.Nodup.map_on ?_ (w.registry.accounts.unique.of_map _)
  intro e here f there same
  obtain ⟨a,stored,owner⟩ := valid.registered e.1 e.2 (Store.get?_eq_some.mpr here)
  obtain ⟨b,stored',owner'⟩ := valid.registered f.1 f.2 (Store.get?_eq_some.mpr there)
  rw [same,stored'] at stored
  cases stored
  exact Prod.ext (owner.symm.trans owner') same

end MemWal.Account
