import MemWal.Blobs.Ids
import MemWal.Library.Base64
import MemWal.Library.Checked

namespace MemWal.Blobs
open Library Library.Numerals Library.Checked

namespace Words

-- One pass over the array, with every sum and product a checked u32.
def pushDigit : Bytes → Nat → Except Fault (Bytes × Nat)
  | [],carry => .ok ([],carry)
  | byte :: bytes,carry => do
    let tens ← mul 32 byte.toNat 10
    let value ← add 32 tens carry
    let rest ← pushDigit bytes (value >>> 8)
    return (UInt8.ofNat (value &&& 0xff) :: rest.1,rest.2)

def pushDigits : Bytes → Text → Except Fault (Option Bytes)
  | bytes,[] => .ok (some bytes)
  | bytes,c :: raw => do
    let carry ← sub c.toNat 48
    let next ← pushDigit bytes carry
    if next.2 ≠ 0 then return none
    pushDigits next.1 raw

def canonicalBlobId (raw : Text) : Except Fault Text :=
  if isDecimal raw = true then do
    match ← pushDigits (List.replicate 32 0) raw with
    | none => return raw
    | some bytes => return base64url bytes
  else return raw

end Words

theorem decimal_digit {c : Char} (decimal : '0' ≤ c ∧ c ≤ '9') : 48 ≤ c.toNat ∧ digit c = c.toNat - 48 ∧ digit c ≤ 9 := by
  have low : 48 ≤ c.toNat := UInt32.le_iff_toNat_le.mp (Char.le_def.mp decimal.1)
  have high : c.toNat ≤ 57 := UInt32.le_iff_toNat_le.mp (Char.le_def.mp decimal.2)
  have value : digit c = c.toNat - 48 := if_pos decimal
  exact ⟨low,value,by omega⟩

-- A carry that enters as a decimal digit stays one: 255 * 10 + 9 < 10 * 256.
theorem pushDigit_words {bytes : Bytes} {carry : Nat} (small : carry ≤ 9) :
    Words.pushDigit bytes carry = .ok (pushDigit bytes carry) := by
  induction bytes generalizing carry with
  | nil => rfl
  | cons byte bytes ih =>
    have below := byte.toNat_lt
    have tens : mul 32 byte.toNat 10 = .ok (byte.toNat * 10) := mul_total (by omega)
    have value : add 32 (byte.toNat * 10) carry = .ok (byte.toNat * 10 + carry) := add_total (by omega)
    have shift : (byte.toNat * 10 + carry) >>> 8 = (byte.toNat * 10 + carry) / 256 := Nat.shiftRight_eq_div_pow _ 8
    have mask : (byte.toNat * 10 + carry) &&& 0xff = (byte.toNat * 10 + carry) % 256 := Nat.and_two_pow_sub_one_eq_mod _ 8
    have rest := @ih ((byte.toNat * 10 + carry) / 256) (by omega)
    simp only [Words.pushDigit,tens,value,bind,Except.bind,shift,mask,rest]
    rfl

theorem pushDigits_words {raw : Text} (decimal : ∀ c ∈ raw, '0' ≤ c ∧ c ≤ '9') (bytes : Bytes) :
    Words.pushDigits bytes raw = .ok (pushDigits bytes raw) := by
  induction raw generalizing bytes with
  | nil => rfl
  | cons c raw ih =>
    obtain ⟨low,value,small⟩ := decimal_digit (decimal c List.mem_cons_self)
    have carry : sub c.toNat 48 = .ok (digit c) := by rw [sub_total low,value]
    have tail := ih (fun d there => decimal d (List.mem_cons_of_mem _ there))
    simp only [Words.pushDigits,carry,pushDigit_words small,bind,Except.bind,pushDigits]
    by_cases overflow : (pushDigit bytes (digit c)).2 ≠ 0
    · simp only [if_pos overflow]
      rfl
    · simp only [if_neg overflow]
      exact tail _

theorem isDecimal_iff {raw : Text} : isDecimal raw = true ↔ raw ≠ [] ∧ ∀ c ∈ raw, '0' ≤ c ∧ c ≤ '9' := by
  simp [isDecimal]

theorem canonicalBlobId_words (raw : Text) : Words.canonicalBlobId raw = .ok (canonicalBlobId raw) := by
  unfold Words.canonicalBlobId canonicalBlobId
  by_cases decimal : isDecimal raw = true
  · simp only [if_pos decimal,pushDigits_words (isDecimal_iff.mp decimal).2,bind,Except.bind]
    cases pushDigits (List.replicate 32 0) raw <;> rfl
  · simp only [if_neg decimal]
    rfl

theorem encodings_agree {m n : Nat} (left : m < 2 ^ 256) (right : n < 2 ^ 256) :
    base64url (Bytes.writeLe 32 m) = base64url (Bytes.writeLe 32 n) ↔ m = n := by
  constructor
  · intro same
    have bound : (2 : Nat) ^ 256 = 256 ^ 32 := by norm_num
    rw [bound] at left right
    exact Bytes.writeLe_injective left right (base64url_injective same)
  · intro same
    rw [same]

-- The loop computes on u32 without a fault, converts every digit string below
-- 2^256 to the id of its value, and hands everything else back.
theorem blob_ids_converted (raw : Text) :
    Words.canonicalBlobId raw = .ok
      (if isDecimal raw = true ∧ read 10 raw < 2 ^ 256 then base64url (Bytes.writeLe 32 (read 10 raw)) else raw) ∧
    ∀ other, isDecimal raw = true → isDecimal other = true → read 10 raw < 2 ^ 256 → read 10 other < 2 ^ 256 →
      (Words.canonicalBlobId raw = Words.canonicalBlobId other ↔ read 10 raw = read 10 other) := by
  have exact_ : ∀ raw, Words.canonicalBlobId raw = .ok
      (if isDecimal raw = true ∧ read 10 raw < 2 ^ 256 then base64url (Bytes.writeLe 32 (read 10 raw)) else raw) := by
    intro raw
    rw [canonicalBlobId_words]
    by_cases decimal : isDecimal raw = true
    · rw [canonicalBlobId_eq decimal]
      simp only [decimal,true_and]
    · have kept : canonicalBlobId raw = raw := if_neg decimal
      simp [decimal,kept]
  refine ⟨exact_ raw,?_⟩
  intro other left right first second
  rw [exact_ raw,exact_ other,if_pos ⟨left,first⟩,if_pos ⟨right,second⟩,Except.ok.injEq]
  exact encodings_agree first second

-- Leading zeros are no part of the id.
theorem seven_twice : Words.canonicalBlobId ['7'] = Words.canonicalBlobId ['0','0','7'] :=
  ((blob_ids_converted ['7']).2 ['0','0','7'] (by decide) (by decide) (by decide) (by decide)).mpr (by decide)

end MemWal.Blobs
