import MemWal.Account.History

namespace MemWal.Account
open Library Library.Fallible Library.Runs
variable (H : Hash256)

def Succeeds (w : World) (tx : Tx) : Prop := ∃ next, execute H w tx = .ok next

def Approves (w : World) (tx : Tx) (account : ID) (caller : Address) (id : Bytes) : Prop :=
  tx.sender = caller ∧ tx.call = .sealApprove id account ∧ Succeeds H w tx

def Fences (w : World) (tx : Tx) (account : ID) (id : Bytes) : Prop :=
  tx.call = .sealEncryptFence id account ∧ Succeeds H w tx

-- `d` had one delegate key, and it is the one that goes.
def RemovesOnly (w : World) (tx : Tx) (account : ID) (d : Address) : Prop :=
  ∃ a key, w.accounts.get? account = some a ∧ d ≠ a.owner ∧
    a.delegateKeys.filter (fun key => key.suiAddress = d) = [key] ∧
    tx.call = .removeDelegateKey account key.publicKey ∧ Succeeds H w tx

def Freezes (w : World) (tx : Tx) (account : ID) : Prop :=
  Succeeds H w tx ∧ (tx.call = .deactivateAccount account ∨
    tx.call = .adminDeactivateAccount account ∧
      ∃ a, w.accounts.get? account = some a ∧ a.adminQuarantined = false)

def Withdraws (w : World) (tx : Tx) (account : ID) : Prop :=
  (∃ d, RemovesOnly H w tx account d) ∨ Freezes H w tx account

def AddsDelegate (w : World) (tx : Tx) (account : ID) (d : Address) : Prop :=
  Succeeds H w tx ∧ ∃ publicKey, deriveSuiAddress H publicKey = .ok d ∧
    ((∃ label clock, tx.call = .addDelegateKey account publicKey label clock) ∨
      ∃ cap label createdAt proof sides,
        tx.call = .legacyImportDelegateKey cap account publicKey label createdAt proof sides)

def Reactivates (w : World) (tx : Tx) (account : ID) : Prop :=
  tx.call = .reactivateAccount account ∧ Succeeds H w tx

def counterOf (w : World) (account : ID) : Option UInt64 :=
  (w.accounts.get? account).map MemWalAccount.accessCounterVersion

variable {H}

theorem assertSealIdOwner_ok {id : Bytes} {a : MemWalAccount} {counter : UInt64}
    (accepted : assertSealIdOwner id a = .ok counter) : sealIdCounter id = .ok counter := by
  simp only [assertSealIdOwner,bind_ok,ensure_ok,exists_const,pure_ok] at accepted
  obtain ⟨_,found,decoded,_,rfl⟩ := accepted
  exact decoded

theorem approves_parts {w : World} {tx : Tx} {account : ID} {caller : Address} {id : Bytes}
    (approved : Approves H w tx account caller id) :
    ∃ a counter, w.accounts.get? account = some a ∧ a.active = true ∧
      sealIdCounter id = .ok counter ∧ counter ≤ a.accessCounterVersion ∧
      (caller = a.owner ∨ ∃ key ∈ a.delegateKeys, key.suiAddress = caller) := by
  obtain ⟨rfl,called,next,ran⟩ := approved
  simp only [execute,called,World.fetchAccount,sealApprove,bind_ok,require_ok,ensure_ok,exists_const,
    pure_ok] at ran
  obtain ⟨a,stored,_,⟨_,active,counter,owned,reached,answer⟩,_⟩ := ran
  refine ⟨a,counter,stored,active,assertSealIdOwner_ok owned,reached,?_⟩
  split at answer
  · rename_i owner
    exact .inl owner
  · simp only [ensure_ok,isDelegateAddress,List.any_eq_true,decide_eq_true_eq] at answer
    exact .inr answer

theorem fences_parts {w : World} {tx : Tx} {account : ID} {id : Bytes} (fenced : Fences H w tx account id) :
    ∃ a, w.accounts.get? account = some a ∧ sealIdCounter id = .ok a.accessCounterVersion := by
  obtain ⟨called,next,ran⟩ := fenced
  simp only [execute,called,World.fetchAccount,sealEncryptFence,bind_ok,require_ok,ensure_ok,
    exists_const,pure_ok] at ran
  obtain ⟨a,stored,⟨_,counter,owned,rfl⟩,_⟩ := ran
  exact ⟨a,stored,assertSealIdOwner_ok owned⟩

theorem settle_succeeds {w : World} {tx : Tx} (ran : Succeeds H w tx) :
    execute H w tx = .ok (settle (execute H) w tx) := by
  obtain ⟨next,ran⟩ := ran
  rw [settle_ok ran,ran]

theorem updated {w next : World} {account : ID} {a b : MemWalAccount} {events : List Event}
    (stored : w.accounts.get? account = some a) (equal : (w.withAccount account b).emit events = next) :
    next.accounts.get? account = some b := by
  rw [← equal]
  simp [World.withAccount,World.emit,Store.get?_put stored]

-- A removal, an owner freeze and a first quarantine all leave the counter one
-- above what it was; nothing could have been approved at the new value.
theorem withdraws_bumps {w : World} {tx : Tx} {account : ID} (withdrawn : Withdraws H w tx account) :
    ∃ a b, w.accounts.get? account = some a ∧
      (settle (execute H) w tx).accounts.get? account = some b ∧
      a.accessCounterVersion < b.accessCounterVersion := by
  have above : ∀ {a b : UInt64}, b.toNat = a.toNat + 1 → a < b := by
    intro a b equal
    rw [UInt64.lt_iff_toNat_lt]
    omega
  rcases withdrawn with ⟨d,a,key,stored,_,_,called,ran⟩ | ⟨ran,called | ⟨called,a,stored,calm⟩⟩
  · have ran := settle_succeeds ran
    simp only [execute,called,World.fetchAccount,bind_ok,require_ok,pure_ok] at ran
    obtain ⟨c,found,⟨b,events⟩,ran,equal⟩ := ran
    obtain ⟨_,_,_,counter,bumped,rfl⟩ := removeDelegateKey_ok ran
    exact ⟨c,_,found,updated found equal,above bumped⟩
  · have ran := settle_succeeds ran
    simp only [execute,called,World.fetchAccount,bind_ok,require_ok,pure_ok] at ran
    obtain ⟨c,found,⟨b,events⟩,ran,equal⟩ := ran
    obtain ⟨_,_,_,counter,bumped,rfl⟩ := deactivateAccount_ok ran
    exact ⟨c,_,found,updated found equal,above bumped⟩
  · have ran := settle_succeeds ran
    simp only [execute,called,World.borrowAdminCap,World.fetchAccount,bind_ok,require_ok,ensure_ok,
      exists_const,pure_ok] at ran
    obtain ⟨_,c,found,⟨b,events⟩,ran,equal⟩ := ran
    cases Option.some.inj (found.symm.trans stored)
    rcases adminDeactivateAccount_ok ran with ⟨held,_⟩ | ⟨_,counter,bumped,rfl⟩
    · rw [calm] at held
      cases held
    · exact ⟨a,_,found,updated found equal,above bumped⟩

theorem erased_absent {keys : List DelegateKey} {publicKey : Bytes}
    (distinct : (keys.map DelegateKey.publicKey).Nodup) :
    ∀ key ∈ keys.eraseP (fun key => key.publicKey = publicKey), key.publicKey ≠ publicKey := by
  induction keys with
  | nil => intro key member; cases member
  | cons head tail ih =>
    obtain ⟨apart,rest⟩ := List.nodup_cons.mp distinct
    intro key member
    by_cases same : head.publicKey = publicKey
    · rw [List.eraseP_cons_of_pos (by simpa using same)] at member
      intro equal
      exact apart (List.mem_map.mpr ⟨key,member,equal.trans same.symm⟩)
    · rw [List.eraseP_cons_of_neg (by simpa using same)] at member
      rcases List.mem_cons.mp member with rfl | later
      · exact same
      · exact ih rest key later

def NoDelegate (d : Address) (a : MemWalAccount) : Prop :=
  d ≠ a.owner ∧ ∀ key ∈ a.delegateKeys, key.suiAddress ≠ d

theorem removesOnly_leaves {w : World} {tx : Tx} {account : ID} {d : Address} (valid : Represents H w)
    (removed : RemovesOnly H w tx account d) :
    ∃ b, (settle (execute H) w tx).accounts.get? account = some b ∧ NoDelegate d b := by
  obtain ⟨a,key,stored,other,only,called,ran⟩ := removed
  have ran := settle_succeeds ran
  simp only [execute,called,World.fetchAccount,bind_ok,require_ok,pure_ok] at ran
  obtain ⟨c,found,⟨b,events⟩,ran,equal⟩ := ran
  cases Option.some.inj (found.symm.trans stored)
  obtain ⟨_,_,_,counter,_,rfl⟩ := removeDelegateKey_ok ran
  refine ⟨_,updated found equal,other,?_⟩
  intro rest member address
  have before : rest ∈ a.delegateKeys.filter (fun key => key.suiAddress = d) := by
    refine List.mem_filter.mpr ⟨List.mem_of_mem_eraseP member,?_⟩
    simpa using address
  rw [only] at before
  exact erased_absent (valid.keys account a stored).distinct rest member
    (congrArg DelegateKey.publicKey (List.mem_singleton.mp before))

-- While nobody adds `d` again it stays no delegate, whatever else is called.
theorem noDelegate_step {w : World} {tx : Tx} {account : ID} {d : Address} {a b : MemWalAccount}
    (absent : NoDelegate d a) (step : AccountStep H tx account a b)
    (moved : a = b ∨ Succeeds H w tx) (quiet : ¬ AddsDelegate H w tx account d) : NoDelegate d b := by
  obtain ⟨other,none⟩ := absent
  cases step with
  | same => exact ⟨other,none⟩
  | added key called derived =>
    refine ⟨other,?_⟩
    intro delegate member
    rcases List.mem_append.mp member with old | new
    · exact none delegate old
    · rw [List.mem_singleton.mp new]
      intro equal
      rcases moved with unmoved | ran
      · have lengths := congrArg (fun a => a.delegateKeys.length) unmoved
        simp at lengths
      · refine quiet ⟨ran,key.publicKey,equal ▸ derived,?_⟩
        rcases called with ⟨label,clock,called⟩ | ⟨cap,label,createdAt,proof,sides,called⟩
        · exact .inl ⟨label,clock,called⟩
        · exact .inr ⟨cap,label,createdAt,proof,sides,called⟩
  | removed publicKey counter called bumped =>
    exact ⟨other,fun delegate member => none delegate (List.mem_of_mem_eraseP member)⟩
  | deactivated | quarantined | cleared | reactivated => exact ⟨other,none⟩

section Runs
variable {g : Genesis} {txs : List Tx} {account : ID} {d : Address} {i j : Nat} {tx : Tx}

theorem moved_or_succeeds {a b : MemWalAccount}
    (stored : (stateAt H g txs i).accounts.get? account = some a) (called : txs[i]? = some tx)
    (next : (stateAt H g txs (i+1)).accounts.get? account = some b) :
    a = b ∨ Succeeds H (stateAt H g txs i) tx := by
  rw [stateAt_succ called] at next
  rcases settle_cases (execute H) (stateAt H g txs i) tx with ⟨after,ran,_⟩ | equal
  · exact .inr ⟨after,ran⟩
  · rw [equal,stored] at next
    exact .inl (Option.some.inj next)

theorem approved_before_withdrawal {caller : Address} {id : Bytes} {counter : UInt64} {before : Tx}
    {b : MemWalAccount} (order : i < j)
    (called : txs[j]? = some tx) (approved : Approves H (stateAt H g txs i) before account caller id)
    (withdrawn : Withdraws H (stateAt H g txs j) tx account)
    (left : (stateAt H g txs (j+1)).accounts.get? account = some b)
    (decoded : sealIdCounter id = .ok counter) : counter < b.accessCounterVersion := by
  obtain ⟨a,found,stored,_,reads,reached,_⟩ := approves_parts approved
  cases Except.ok.inj (decoded.symm.trans reads)
  obtain ⟨c,now,grown,_⟩ := counter_grows (Nat.le_of_lt order) stored
  obtain ⟨c',b',now',next,bumped⟩ := withdraws_bumps withdrawn
  rw [← stateAt_succ called] at next
  cases Option.some.inj (now'.symm.trans now)
  cases Option.some.inj (next.symm.trans left)
  exact UInt64.lt_of_le_of_lt (UInt64.le_trans reached grown) bumped

theorem removed_stays_out (order : j < i) (called : txs[j]? = some tx)
    (removed : RemovesOnly H (stateAt H g txs j) tx account d)
    (quiet : ∀ m call, j < m → m < i → txs[m]? = some call →
      ¬ AddsDelegate H (stateAt H g txs m) call account d) :
    ∃ b, (stateAt H g txs i).accounts.get? account = some b ∧ NoDelegate d b := by
  have start := removesOnly_leaves (stateAt_represents (H:=H) (g:=g) j) removed
  rw [← stateAt_succ called] at start
  refine account_between order start ?_
  intro m call a b low high attempted stored absent step next
  exact noDelegate_step absent step (moved_or_succeeds stored attempted next)
    (quiet m call low high attempted)

theorem removed_never_approves {later : Tx} {id : Bytes} (order : j < i) (called : txs[j]? = some tx)
    (removed : RemovesOnly H (stateAt H g txs j) tx account d)
    (quiet : ∀ m call, j < m → m < i → txs[m]? = some call →
      ¬ AddsDelegate H (stateAt H g txs m) call account d) :
    ¬ Approves H (stateAt H g txs i) later account d id := by
  intro approved
  obtain ⟨b,stored,other,none⟩ := removed_stays_out order called removed quiet
  obtain ⟨a,_,found,_,_,_,owner | ⟨key,member,address⟩⟩ := approves_parts approved
  · cases Option.some.inj (found.symm.trans stored)
    exact other owner
  · cases Option.some.inj (found.symm.trans stored)
    exact none key member address

theorem fenced_above {fence : Tx} {id : Bytes} {b : MemWalAccount} (order : j < i)
    (left : (stateAt H g txs (j+1)).accounts.get? account = some b)
    (fenced : Fences H (stateAt H g txs i) fence account id) :
    ∃ counter, sealIdCounter id = .ok counter ∧ b.accessCounterVersion ≤ counter := by
  obtain ⟨a,stored,decoded⟩ := fences_parts fenced
  obtain ⟨c,now,grown,_⟩ := counter_grows (Nat.succ_le_of_lt order) left
  cases Option.some.inj (now.symm.trans stored)
  exact ⟨_,decoded,grown⟩

theorem freezes_idles (called : txs[j]? = some tx) (frozen : Freezes H (stateAt H g txs j) tx account) :
    ∃ b, (stateAt H g txs (j+1)).accounts.get? account = some b ∧ b.active = false := by
  rw [stateAt_succ called]
  obtain ⟨ran,kind⟩ := frozen
  have ran := settle_succeeds ran
  rcases kind with called | ⟨called,a,stored,calm⟩
  · simp only [execute,called,World.fetchAccount,bind_ok,require_ok,pure_ok] at ran
    obtain ⟨c,found,⟨b,events⟩,ran,equal⟩ := ran
    obtain ⟨_,_,_,counter,_,rfl⟩ := deactivateAccount_ok ran
    exact ⟨_,updated found equal,rfl⟩
  · simp only [execute,called,World.borrowAdminCap,World.fetchAccount,bind_ok,require_ok,ensure_ok,
      exists_const,pure_ok] at ran
    obtain ⟨_,c,found,⟨b,events⟩,ran,equal⟩ := ran
    cases Option.some.inj (found.symm.trans stored)
    rcases adminDeactivateAccount_ok ran with ⟨held,_⟩ | ⟨_,counter,_,rfl⟩
    · rw [calm] at held
      cases held
    · exact ⟨_,updated found equal,rfl⟩

-- Only a successful `reactivate_account` turns an idle account on again.
theorem idle_until_reactivated (order : j ≤ i)
    (start : ∃ a, (stateAt H g txs j).accounts.get? account = some a ∧ a.active = false)
    (quiet : ∀ m call, j ≤ m → m < i → txs[m]? = some call →
      ¬ Reactivates H (stateAt H g txs m) call account) :
    ∃ b, (stateAt H g txs i).accounts.get? account = some b ∧ b.active = false := by
  refine account_between order start ?_
  intro m call a b low high attempted stored idle step next
  cases step with
  | reactivated counter turned =>
    rcases moved_or_succeeds stored attempted next with unmoved | ran
    · rw [unmoved] at idle
      cases idle
    · exact absurd ⟨turned,ran⟩ (quiet m call low high attempted)
  | deactivated | quarantined => rfl
  | same | added | removed | cleared => exact idle

theorem idle_never_approves {later : Tx} {caller : Address} {id : Bytes}
    (idle : ∃ a, (stateAt H g txs i).accounts.get? account = some a ∧ a.active = false) :
    ¬ Approves H (stateAt H g txs i) later account caller id := by
  intro approved
  obtain ⟨a,stored,idle⟩ := idle
  obtain ⟨b,_,found,active,_⟩ := approves_parts approved
  cases Option.some.inj (found.symm.trans stored)
  rw [idle] at active
  cases active

theorem unapproved_before {caller : Address} {id : Bytes} {before fence : Tx} {f : Nat} (order : i < j)
    (called : txs[j]? = some tx) (withdrawn : Withdraws H (stateAt H g txs j) tx account)
    (later : j < f) (fenced : Fences H (stateAt H g txs f) fence account id) :
    ¬ Approves H (stateAt H g txs i) before account caller id := by
  intro approved
  obtain ⟨_,b,_,next,_⟩ := withdraws_bumps withdrawn
  rw [← stateAt_succ called] at next
  obtain ⟨counter,decoded,above⟩ := fenced_above later next fenced
  have below := approved_before_withdrawal order called approved withdrawn next decoded
  rw [UInt64.lt_iff_toNat_lt] at below
  rw [UInt64.le_iff_toNat_le] at above
  omega

end Runs

-- Every run, every account. The fourth part is what the counter is for: what
-- the write fence lets through after a removal was never readable by the
-- removed delegate; the fifth says the same of a freeze, for everybody.
theorem revocation_is_forward_secret (H : Hash256) (g : Genesis) (txs : List Tx) (account : ID) :
    (∀ i j a, i ≤ j → (stateAt H g txs i).accounts.get? account = some a →
      ∃ b, (stateAt H g txs j).accounts.get? account = some b ∧
        a.accessCounterVersion ≤ b.accessCounterVersion) ∧
    (∀ i j before tx caller id counter k, i < j → txs[i]? = some before → txs[j]? = some tx →
      Approves H (stateAt H g txs i) before account caller id →
      Withdraws H (stateAt H g txs j) tx account →
      counterOf (stateAt H g txs (j+1)) account = some k →
      sealIdCounter id = .ok counter → counter < k) ∧
    (∀ j i tx later d id, j < i → txs[j]? = some tx → txs[i]? = some later →
      RemovesOnly H (stateAt H g txs j) tx account d →
      (∀ m call, j < m → m < i → txs[m]? = some call →
        ¬ AddsDelegate H (stateAt H g txs m) call account d) →
      ¬ Approves H (stateAt H g txs i) later account d id) ∧
    (∀ j f i tx fence other d id, j < f → txs[j]? = some tx → txs[f]? = some fence →
      txs[i]? = some other → RemovesOnly H (stateAt H g txs j) tx account d →
      Fences H (stateAt H g txs f) fence account id →
      (∀ m call, j < m → m < i → txs[m]? = some call →
        ¬ AddsDelegate H (stateAt H g txs m) call account d) →
      ¬ Approves H (stateAt H g txs i) other account d id) ∧
    (∀ j f i tx fence other caller id, j < f → txs[j]? = some tx → txs[f]? = some fence →
      txs[i]? = some other → Freezes H (stateAt H g txs j) tx account →
      Fences H (stateAt H g txs f) fence account id →
      (∀ m call, j < m → m < i → txs[m]? = some call →
        ¬ Reactivates H (stateAt H g txs m) call account) →
      ¬ Approves H (stateAt H g txs i) other account caller id) := by
  refine ⟨?_,?_,?_,?_,?_⟩
  · intro i j a order stored
    obtain ⟨b,next,grown,_⟩ := counter_grows order stored
    exact ⟨b,next,grown⟩
  · intro i j before tx caller id counter k order _ called approved withdrawn left decoded
    obtain ⟨b,next,equal⟩ := Option.map_eq_some_iff.mp left
    rw [← equal]
    exact approved_before_withdrawal order called approved withdrawn next decoded
  · intro j i tx later d id order called _ removed quiet
    exact removed_never_approves order called removed quiet
  · intro j f i tx fence other d id after called _ attempted removed fenced quiet
    rcases Nat.lt_trichotomy i j with order | equal | order
    · exact unapproved_before order called (.inl ⟨d,removed⟩) after fenced
    · subst equal
      intro found
      obtain ⟨_,approving,_⟩ := found
      obtain ⟨_,_,_,_,_,removing,_⟩ := removed
      cases Option.some.inj (called.symm.trans attempted)
      rw [approving] at removing
      cases removing
    · exact removed_never_approves order called removed quiet
  · intro j f i tx fence other caller id after called _ attempted frozen fenced quiet
    rcases Nat.lt_trichotomy i j with order | equal | order
    · exact unapproved_before order called (.inr frozen) after fenced
    · subst equal
      intro found
      obtain ⟨_,approving,_⟩ := found
      cases Option.some.inj (called.symm.trans attempted)
      rcases frozen.2 with freezing | ⟨freezing,_⟩
      · rw [approving] at freezing
        cases freezing
      · rw [approving] at freezing
        cases freezing
    · exact idle_never_approves (idle_until_reactivated order (freezes_idles called frozen) quiet)

end MemWal.Account
