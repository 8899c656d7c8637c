import MemWal.Library.Checked
import MemWal.Seal.Identity

namespace MemWal.Seal
open Library Library.Fallible Library.Checked Account

-- A Move vector: its length is a u64.
structure MoveVector where
  bytes : Bytes
  fits : bytes.length < 2 ^ 64

-- A call stops at one of the module's assertions or at a fault of the VM.
inductive Stop where
  | assertion (abort : Abort)
  | fault (fault : Fault)
  deriving DecidableEq

def vm {α : Type} (outcome : Except Fault α) : Except Stop α := outcome.mapError .fault

def assert_ (condition : Prop) [Decidable condition] (abort : Abort) : Except Stop Unit :=
  ensure condition (.assertion abort)

namespace Loops

-- The loop of `seal_id_counter` from `i` on, with `rounds` rounds to go.
def counterFrom (id : Bytes) (offset : Nat) : Nat → Nat → Nat → Except Fault Nat
  | 0,_,counter => .ok counter
  | rounds+1,i,counter => do
    let place ← add 64 offset i
    let byte ← index id place
    let bits ← mul 64 8 i
    let amount ← narrow 8 bits
    let part ← shiftLeft 64 byte.toNat amount
    let counter ← add 64 counter part
    let i ← add 64 i 1
    counterFrom id offset rounds i counter

def sealIdCounter (id : Bytes) : Except Fault Nat := do
  let offset ← sub id.length sealIdCounterLength
  counterFrom id offset sealIdCounterLength 0 0

def suffixFrom (data suffix : Bytes) (offset : Nat) : Nat → Nat → Except Fault Bool
  | 0,_ => .ok true
  | rounds+1,i => do
    let place ← add 64 offset i
    let left ← index data place
    let right ← index suffix i
    if left ≠ right then return false
    let i ← add 64 i 1
    suffixFrom data suffix offset rounds i

def hasSuffix (data suffix : Bytes) : Except Fault Bool := do
  let dataLen := data.length
  let suffixLen := suffix.length
  if suffixLen > dataLen then return false
  let offset ← sub dataLen suffixLen
  suffixFrom data suffix offset suffixLen 0

def assertSealIdOwner (id : MoveVector) (account : MemWalAccount) : Except Stop Nat := do
  let ownerBytes := account.owner.bytes
  let least ← vm (add 64 ownerBytes.length sealIdCounterLength)
  assert_ (least ≤ id.bytes.length) .ENoAccess
  let counter ← vm (sealIdCounter id.bytes)
  let expected := ownerBytes ++ Bytes.writeLe 8 counter
  let ends ← vm (hasSuffix id.bytes expected)
  assert_ (ends = true) .ENoAccess
  return counter

end Loops

-- No fault in the loops

theorem counterFrom_total {id : Bytes} {offset rounds i counter : Nat} (eight : i + rounds = 8)
    (whole : offset + i + rounds = id.length) (fits : id.length < 2 ^ 64) (below : counter < 256 ^ i) :
    Loops.counterFrom id offset rounds i counter = .ok (counter + 256 ^ i * Bytes.readLe (id.drop (offset + i))) := by
  induction rounds generalizing i counter with
  | zero =>
    have none_ : id.drop (offset + i) = [] := by
      apply List.drop_eq_nil_of_le
      omega
    simp [Loops.counterFrom,none_,Bytes.readLe]
  | succ rounds ih =>
    have inside : offset + i < id.length := by omega
    have byte := id[offset + i].toNat_lt
    have power : 2 ^ (8 * i) = 256 ^ i := by rw [Nat.pow_mul]
    have part : id[offset + i].toNat * 2 ^ (8 * i) ≤ 255 * 256 ^ i := by
      rw [power]
      apply Nat.mul_le_mul_right
      omega
    have room : 256 ^ (i+1) ≤ 2 ^ 64 := by
      have most : 256 ^ (i+1) ≤ 256 ^ 8 := Nat.pow_le_pow_right (by decide) (by omega)
      exact most
    have next : 256 ^ (i+1) = 256 * 256 ^ i := by rw [Nat.pow_succ,Nat.mul_comm]
    have placed : add 64 offset i = .ok (offset + i) := add_total (by omega)
    have bits : mul 64 8 i = .ok (8 * i) := mul_total (by omega)
    have amount : narrow 8 (8 * i) = .ok (8 * i) := narrow_total (by omega)
    have shifted : shiftLeft 64 id[offset + i].toNat (8 * i) = .ok (id[offset + i].toNat * 2 ^ (8 * i)) :=
      shiftLeft_total (by omega) (by omega)
    have added : add 64 counter (id[offset + i].toNat * 2 ^ (8 * i)) =
        .ok (counter + id[offset + i].toNat * 2 ^ (8 * i)) := add_total (by omega)
    have stepped : add 64 i 1 = .ok (i + 1) := add_total (by omega)
    have rest := @ih (i+1) (counter + id[offset + i].toNat * 2 ^ (8 * i)) (by omega) (by omega) (by omega)
    have head : id.drop (offset + i) = id[offset + i] :: id.drop (offset + (i+1)) := List.drop_eq_getElem_cons inside
    simp only [Loops.counterFrom,placed,index_total inside,bits,amount,shifted,added,stepped,bind,Except.bind]
    rw [rest,head,Bytes.readLe,power,next]
    congr 1
    ring

theorem sealIdCounter_total {id : Bytes} (long : 8 ≤ id.length) (fits : id.length < 2 ^ 64) :
    Loops.sealIdCounter id = .ok (Bytes.readLe (id.drop (id.length - 8))) := by
  have offset : sub id.length sealIdCounterLength = .ok (id.length - 8) := sub_total long
  have loop := @counterFrom_total id (id.length - 8) 8 0 0 rfl (by omega) fits (by decide)
  simp only [Loops.sealIdCounter,offset,bind,Except.bind]
  rw [show sealIdCounterLength = 8 from rfl,loop]
  simp

theorem suffixFrom_total {data suffix : Bytes} {offset rounds i : Nat} (short : i + rounds = suffix.length)
    (whole : offset + i + rounds = data.length) (fits : data.length < 2 ^ 64) :
    Loops.suffixFrom data suffix offset rounds i = .ok (decide (data.drop (offset + i) = suffix.drop i)) := by
  induction rounds generalizing i with
  | zero =>
    have left : data.drop (offset + i) = [] := by
      apply List.drop_eq_nil_of_le
      omega
    have right : suffix.drop i = [] := by
      apply List.drop_eq_nil_of_le
      omega
    simp [Loops.suffixFrom,left,right]
  | succ rounds ih =>
    have inside : offset + i < data.length := by omega
    have within : i < suffix.length := by omega
    have placed : add 64 offset i = .ok (offset + i) := add_total (by omega)
    have stepped : add 64 i 1 = .ok (i + 1) := add_total (by omega)
    have left : data.drop (offset + i) = data[offset + i] :: data.drop (offset + (i+1)) := List.drop_eq_getElem_cons inside
    have right : suffix.drop i = suffix[i] :: suffix.drop (i+1) := List.drop_eq_getElem_cons within
    simp only [Loops.suffixFrom,placed,index_total inside,index_total within,stepped,bind,Except.bind]
    rw [left,right]
    by_cases same : data[offset + i] = suffix[i]
    · have rest := @ih (i+1) (by omega) (by omega)
      simpa only [same,ne_eq,not_true_eq_false,if_false,List.cons.injEq,true_and] using rest
    · simp only [same,ne_eq,not_false_eq_true,if_true,List.cons.injEq,false_and,decide_false]
      rfl

theorem hasSuffix_total {data suffix : Bytes} (fits : data.length < 2 ^ 64) :
    Loops.hasSuffix data suffix = .ok (hasSuffix data suffix) := by
  unfold Loops.hasSuffix hasSuffix
  by_cases long : suffix.length > data.length
  · simp [long,pure,Except.pure]
  · have offset : sub data.length suffix.length = .ok (data.length - suffix.length) := sub_total (by omega)
    have loop := @suffixFrom_total data suffix (data.length - suffix.length) suffix.length 0 (by omega) (by omega) fits
    simpa [long,offset,bind,Except.bind] using loop

-- The decoder reads the last eight bytes, whatever they are.
theorem sealIdCounter_last {id : Bytes} (long : 8 ≤ id.length) :
    sealIdCounter id = .ok (UInt64.ofNat (Bytes.readLe (id.drop (id.length - 8)))) := by
  have length : (id.drop (id.length - 8)).length = 8 := by
    rw [List.length_drop]
    omega
  have bound := Bytes.readLe_lt (id.drop (id.length - 8))
  rw [length] at bound
  have loop := @foldSealCounter_eq (id.drop (id.length - 8)) 0 0 (by omega) (by simpa using bound)
  simp only [sealIdCounter,ensure,if_pos (show sealIdCounterLength ≤ id.length from long)]
  change foldSealCounter (id.drop (id.length - 8)) 0 0 = _
  rw [loop]
  simp

-- The functions of the account module compute what the loops compute.
theorem assertSealIdOwner_loops (id : MoveVector) (account : MemWalAccount) :
    Loops.assertSealIdOwner id account =
      ((assertSealIdOwner id.bytes account).map UInt64.toNat).mapError .assertion := by
  have owner : account.owner.bytes.length = 32 := account.owner.length32
  have least : add 64 32 8 = .ok 40 := rfl
  unfold Loops.assertSealIdOwner assertSealIdOwner
  simp only [owner,show sealIdCounterLength = 8 from rfl,least]
  by_cases long : 40 ≤ id.bytes.length
  · have decoded := sealIdCounter_total (show 8 ≤ id.bytes.length by omega) id.fits
    have functional := sealIdCounter_last (show 8 ≤ id.bytes.length by omega)
    have bound := Bytes.readLe_lt (id.bytes.drop (id.bytes.length - 8))
    rw [List.length_drop,show id.bytes.length - (id.bytes.length - 8) = 8 by omega] at bound
    have value : (UInt64.ofNat (Bytes.readLe (id.bytes.drop (id.bytes.length - 8)))).toNat =
        Bytes.readLe (id.bytes.drop (id.bytes.length - 8)) := by
      simpa using bound
    have ends := @hasSuffix_total id.bytes
      (account.owner.bytes ++ Bytes.writeLe 8 (Bytes.readLe (id.bytes.drop (id.bytes.length - 8)))) id.fits
    simp only [assert_,ensure,vm,Except.mapError,bind,Except.bind,decoded,functional,
      ends,bcsU64,value,if_pos long]
    by_cases matches_ : hasSuffix id.bytes
        (account.owner.bytes ++ Bytes.writeLe 8 (Bytes.readLe (id.bytes.drop (id.bytes.length - 8)))) = true
    · simp [matches_,pure,Except.pure,Except.map,value]
    · simp [matches_,Except.map]
  · simp [assert_,ensure,vm,Except.mapError,bind,Except.bind,Except.map,long]

theorem assertSealIdOwner_iff {id : Bytes} {account : MemWalAccount} {counter : UInt64} :
    assertSealIdOwner id account = .ok counter ↔ ∃ front, id = front ++ sealKeyId account.owner counter := by
  constructor
  · intro accepted
    simp only [assertSealIdOwner,bind_ok,ensure_ok,exists_const,pure_ok] at accepted
    obtain ⟨_,found,_,ends,rfl⟩ := accepted
    unfold hasSuffix at ends
    split at ends
    · cases ends
    · have suffix := of_decide_eq_true ends
      refine ⟨id.take (id.length - (account.owner.bytes ++ bcsU64 found).length),?_⟩
      calc id = id.take (id.length - (account.owner.bytes ++ bcsU64 found).length) ++
            id.drop (id.length - (account.owner.bytes ++ bcsU64 found).length) := (List.take_append_drop _ _).symm
        _ = _ := by rw [suffix]; rfl
  · intro spelled
    obtain ⟨front,rfl⟩ := spelled
    exact assertSealIdOwner_keyId counter front account

theorem assertSealIdOwner_refusal {id : Bytes} {account : MemWalAccount} {abort : Abort}
    (refused : assertSealIdOwner id account = .error abort) : abort = .ENoAccess := by
  have owner : account.owner.bytes.length = 32 := account.owner.length32
  unfold assertSealIdOwner at refused
  simp only [owner] at refused
  by_cases long : 40 ≤ id.length
  · simp only [ensure,show sealIdCounterLength = 8 from rfl,if_pos long,bind,Except.bind,
      sealIdCounter_last (show 8 ≤ id.length by omega)] at refused
    split at refused
    · rename_i stopped
      split at stopped
      · cases stopped
      · cases stopped
        exact (Except.error.inj refused).symm
    · cases refused
  · simp only [ensure,show sealIdCounterLength = 8 from rfl,if_neg long,bind,Except.bind] at refused
    exact (Except.error.inj refused).symm

theorem keyId_unique {front back : Bytes} {a b : Address} {m n : UInt64}
    (same : front ++ sealKeyId a m = back ++ sealKeyId b n) : front = back ∧ a = b ∧ m = n := by
  have lengths : (sealKeyId a m).length = (sealKeyId b n).length := by
    simp [sealKeyId,bcsU64,a.length32,b.length32]
  obtain ⟨fronts,ids⟩ := List.append_inj' same lengths
  exact ⟨fronts,sealKeyId_injective ids⟩

-- An id is recognised exactly when it ends in the owner and a counter, which is
-- then the result; any other id is refused by the module's own assertion.
theorem seal_ids_recognised (id : MoveVector) (account : MemWalAccount) :
    (∀ counter : UInt64, Loops.assertSealIdOwner id account = .ok counter.toNat ↔
      ∃ front, id.bytes = front ++ account.owner.bytes ++ Bytes.writeLe 8 counter.toNat) ∧
    (∀ counter, Loops.assertSealIdOwner id account = .ok counter → counter < 2 ^ 64) ∧
    (∀ stop, Loops.assertSealIdOwner id account = .error stop → stop = .assertion .ENoAccess) ∧
    ∀ front owner (counter : UInt64), id.bytes = front ++ sealKeyId owner counter →
      Loops.assertSealIdOwner id account =
        if account.owner = owner then .ok counter.toNat else .error (.assertion .ENoAccess) := by
  rw [assertSealIdOwner_loops]
  have exact_ : ∀ counter, ((assertSealIdOwner id.bytes account).map UInt64.toNat).mapError Stop.assertion = .ok counter ↔
      ∃ found, assertSealIdOwner id.bytes account = .ok found ∧ found.toNat = counter := by
    intro counter
    cases assertSealIdOwner id.bytes account <;> simp [Except.map,Except.mapError]
  have refusal : ∀ stop, ((assertSealIdOwner id.bytes account).map UInt64.toNat).mapError Stop.assertion = .error stop →
      stop = .assertion .ENoAccess := by
    intro stop refused
    cases ran : assertSealIdOwner id.bytes account with
    | error abort =>
      rw [ran] at refused
      rw [← Except.error.inj refused,assertSealIdOwner_refusal ran]
    | ok found =>
      rw [ran] at refused
      cases refused
  refine ⟨?_,?_,refusal,?_⟩
  · intro counter
    rw [exact_]
    constructor
    · intro accepted
      obtain ⟨found,accepted,same⟩ := accepted
      obtain ⟨front,spelled⟩ := assertSealIdOwner_iff.mp accepted
      exact ⟨front,by rw [spelled,sealKeyId,bcsU64,same,List.append_assoc]⟩
    · intro spelled
      obtain ⟨front,spelled⟩ := spelled
      refine ⟨counter,assertSealIdOwner_iff.mpr ⟨front,?_⟩,rfl⟩
      rw [spelled,sealKeyId,bcsU64,List.append_assoc]
  · intro counter accepted
    obtain ⟨found,_,rfl⟩ := (exact_ counter).mp accepted
    exact found.toNat_lt
  · intro front owner counter spelled
    split
    · rename_i own
      exact (exact_ _).mpr ⟨counter,assertSealIdOwner_iff.mpr ⟨front,by rw [own,spelled]⟩,rfl⟩
    · rename_i foreign
      cases ran : ((assertSealIdOwner id.bytes account).map UInt64.toNat).mapError Stop.assertion with
      | error stop => rw [refusal stop ran]
      | ok found =>
        obtain ⟨value,accepted,_⟩ := (exact_ found).mp ran
        obtain ⟨back,ends⟩ := assertSealIdOwner_iff.mp accepted
        exact absurd (keyId_unique (ends.symm.trans spelled)).2.1 foreign

end MemWal.Seal
