import Mathlib.Algebra.Ring.Nat
import Mathlib.Data.List.Nodup

namespace MemWal.Library

abbrev Bytes := List UInt8

namespace Bytes

instance lawful : LawfulBEq Bytes := inferInstance

-- Fixed-width little-endian integers.
def writeLe : Nat → Nat → Bytes
  | 0,_ => []
  | width+1,n => UInt8.ofNat (n % 256) :: writeLe width (n / 256)

def readLe : Bytes → Nat
  | [] => 0
  | b :: rest => b.toNat + 256 * readLe rest

@[simp] theorem writeLe_length (width n : Nat) : (writeLe width n).length = width := by
  induction width generalizing n with
  | zero => rfl
  | succ width ih => simp [writeLe,ih]

theorem readLe_writeLe (width n : Nat) (fits : n < 256 ^ width) : readLe (writeLe width n) = n := by
  induction width generalizing n with
  | zero =>
    have zero : n = 0 := by simpa using fits
    subst n
    rfl
  | succ width ih =>
    have small : n / 256 < 256 ^ width := by
      rw [Nat.div_lt_iff_lt_mul (by decide)]
      rwa [Nat.pow_succ] at fits
    have byte : (UInt8.ofNat (n % 256)).toNat = n % 256 := by simp
    rw [writeLe,readLe,ih _ small,byte]
    omega

theorem writeLe_injective {width m n : Nat} (left : m < 256 ^ width) (right : n < 256 ^ width)
    (equal : writeLe width m = writeLe width n) : m = n := by
  rw [← readLe_writeLe width m left,equal,readLe_writeLe width n right]

theorem readLe_lt (bytes : Bytes) : readLe bytes < 256 ^ bytes.length := by
  induction bytes with
  | nil => decide
  | cons b rest ih =>
    have := b.toNat_lt
    rw [readLe,List.length_cons,Nat.pow_succ]
    omega

theorem writeLe_readLe (bytes : Bytes) : writeLe bytes.length (readLe bytes) = bytes := by
  induction bytes with
  | nil => rfl
  | cons b rest ih =>
    have small := b.toNat_lt
    have low : (b.toNat + 256 * readLe rest) % 256 = b.toNat := by omega
    have high : (b.toNat + 256 * readLe rest) / 256 = readLe rest := by omega
    simp [writeLe,readLe,low,high,ih]

-- The top byte is written last.
theorem writeLe_top {width low top : Nat} (below : low < 256 ^ width) (small : top < 256) :
    writeLe (width+1) (top * 256 ^ width + low) = writeLe width low ++ [UInt8.ofNat top] := by
  induction width generalizing low with
  | zero =>
    have zero : low = 0 := by simpa using below
    subst zero
    simp [writeLe,Nat.mod_eq_of_lt small]
  | succ width ih =>
    have rest : low / 256 < 256 ^ width := by
      rw [Nat.div_lt_iff_lt_mul (by decide)]
      rwa [Nat.pow_succ] at below
    have first : (top * 256 ^ (width+1) + low) % 256 = low % 256 := by
      rw [Nat.pow_succ,← Nat.mul_assoc]
      omega
    have others : (top * 256 ^ (width+1) + low) / 256 = top * 256 ^ width + low / 256 := by
      rw [Nat.pow_succ,← Nat.mul_assoc]
      omega
    rw [writeLe,first,others,ih rest,writeLe]
    rfl

-- ULEB128 lengths, self-delimiting. The fuel argument only makes the
-- recursion structural: `n` halvings more than suffice for `n`.
def writeUlebFuel : Nat → Nat → Bytes
  | 0,n => [UInt8.ofNat (n % 128)]
  | fuel+1,n =>
    if n < 128 then [UInt8.ofNat n]
    else UInt8.ofNat (n % 128 + 128) :: writeUlebFuel fuel (n / 128)

def writeUleb (n : Nat) : Bytes := writeUlebFuel n n

def readUleb : Bytes → Option (Nat × Bytes)
  | [] => none
  | b :: rest =>
    if b.toNat < 128 then some (b.toNat,rest)
    else (readUleb rest).map (fun found => (b.toNat - 128 + 128 * found.1,found.2))

theorem readUleb_fuel (fuel n : Nat) (enough : n ≤ fuel) (suffix : Bytes) :
    readUleb (writeUlebFuel fuel n ++ suffix) = some (n,suffix) := by
  induction fuel generalizing n with
  | zero =>
    have zero : n = 0 := by omega
    subst n
    rfl
  | succ fuel ih =>
    by_cases small : n < 128
    · have byte : (UInt8.ofNat n).toNat = n := by simp; omega
      simp [writeUlebFuel,readUleb,small,byte]
    · have byte : (UInt8.ofNat (n % 128 + 128)).toNat = n % 128 + 128 := by simp; omega
      have rest := ih (n / 128) (by omega)
      have value : n % 128 + 128 * (n / 128) = n := by omega
      have continued : ¬ n % 128 + 128 < 128 := by omega
      rw [writeUlebFuel,if_neg small,List.cons_append,readUleb,rest,byte,if_neg continued]
      simp [value]

theorem readUleb_write (n : Nat) (suffix : Bytes) :
    readUleb (writeUleb n ++ suffix) = some (n,suffix) := readUleb_fuel n n (Nat.le_refl n) suffix

theorem writeUleb_prefix {m n : Nat} {x y : Bytes} (equal : writeUleb m ++ x = writeUleb n ++ y) :
    m = n ∧ x = y := by
  have decoded := readUleb_write m x
  rw [equal,readUleb_write n y] at decoded
  simp only [Option.some.injEq,Prod.mk.injEq] at decoded
  exact ⟨decoded.1.symm,decoded.2.symm⟩

-- A byte string with its length in front, followed by anything.
def writeBlock (body : Bytes) : Bytes := writeUleb body.length ++ body

theorem writeBlock_prefix {a b x y : Bytes} (equal : writeBlock a ++ x = writeBlock b ++ y) :
    a = b ∧ x = y := by
  simp only [writeBlock,List.append_assoc] at equal
  obtain ⟨lengths,bodies⟩ := writeUleb_prefix equal
  exact List.append_inj bodies lengths

end Bytes

-- Byte strings of exactly 32 bytes: object ids, addresses and digests.
@[ext] structure Bytes32 where
  bytes : Bytes
  length32 : bytes.length = 32
  deriving DecidableEq

theorem Bytes32.append_inj {a b : Bytes32} {x y : Bytes} (equal : a.bytes ++ x = b.bytes ++ y) :
    a = b ∧ x = y := by
  obtain ⟨same,rest⟩ := List.append_inj equal (a.length32.trans b.length32.symm)
  exact ⟨Bytes32.ext same,rest⟩

-- A hash with 32-byte digests. Its collision freedom is never a property of
-- the function (none of this width has it) but of the messages really hashed.
structure Hash256 where
  digest : Bytes → Bytes
  length32 : ∀ message, (digest message).length = 32

namespace Hash256

def apply (H : Hash256) (message : Bytes) : Bytes32 := ⟨H.digest message,H.length32 message⟩

def CollisionFree (H : Hash256) (messages : List Bytes) : Prop :=
  ∀ x ∈ messages, ∀ y ∈ messages, H.digest x = H.digest y → x = y

instance (H : Hash256) (messages : List Bytes) : Decidable (H.CollisionFree messages) :=
  inferInstanceAs (Decidable (∀ x ∈ messages, ∀ y ∈ messages, H.digest x = H.digest y → x = y))

theorem CollisionFree.subset {H : Hash256} {small large : List Bytes} (free : H.CollisionFree large)
    (sub : small ⊆ large) : H.CollisionFree small :=
  fun x left y right equal => free x (sub left) y (sub right) equal

theorem collisionFree_of_nodup {H : Hash256} {messages : List Bytes}
    (distinct : (messages.map H.digest).Nodup) : H.CollisionFree messages :=
  fun _ left _ right equal => List.inj_on_of_nodup_map distinct left right equal

end Hash256
end MemWal.Library
