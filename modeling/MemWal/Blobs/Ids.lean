import MemWal.Library.Numerals

namespace MemWal.Blobs
open Library Library.Numerals

abbrev Text := List Char

-- `/^\d+$/`
def isDecimal (text : Text) : Bool := text ≠ [] && text.all (fun c => '0' ≤ c && c ≤ '9')

-- The `blob_id` of the chain is a JSON string where it is there at all.
def blobIdFromRaw : Option Text → Option Text
  | none => none
  | some [] => none
  | some blobIdStr =>
    if isDecimal blobIdStr = true ∧ blobIdStr.length > 20 then
      let bigInt := read 10 blobIdStr
      let hex := padStart 64 (Nat.toDigits 16 bigInt)
      let bytesBE := pairBytes hex
      some (base64url bytesBE.reverse)
    else some blobIdStr

-- `blobIdFromInt` of the Walrus package.
structure WalrusIds where
  blobIdFromInt : Text → Text
  encodes : ∀ n < 2 ^ 256, blobIdFromInt (Nat.toDigits 10 n) = base64url (Bytes.writeLe 32 n)

def chainBlobIdFromRaw (sdk : WalrusIds) : Option Text → Option Text
  | none => none
  | some [] => none
  | some value => if isDecimal value = true then some (sdk.blobIdFromInt value) else blobIdFromRaw (some value)

-- One digit into the little-endian bytes: the carry goes through all of them.
def pushDigit : Bytes → Nat → Bytes × Nat
  | [],carry => ([],carry)
  | byte :: bytes,carry =>
    let value := byte.toNat * 10 + carry
    let rest := pushDigit bytes (value / 256)
    (UInt8.ofNat (value % 256) :: rest.1,rest.2)

def pushDigits : Bytes → Text → Option Bytes
  | bytes,[] => some bytes
  | bytes,c :: raw =>
    let next := pushDigit bytes (digit c)
    if next.2 ≠ 0 then none else pushDigits next.1 raw

def canonicalBlobId (raw : Text) : Text :=
  if isDecimal raw = true then
    match pushDigits (List.replicate 32 0) raw with
    | none => raw
    | some bytes => base64url bytes
  else raw

theorem isDecimal_toDigits (n : Nat) : isDecimal (Nat.toDigits 10 n) = true := by
  have filled : Nat.toDigits 10 n ≠ [] := Nat.toDigits_ne_nil
  simp only [isDecimal,Bool.and_eq_true,decide_eq_true_eq,List.all_eq_true]
  refine ⟨filled,?_⟩
  intro c member
  have is_digit := Nat.isDigit_of_mem_toDigits (by decide) (by decide) member
  simpa [Char.isDigit,Char.le_def,UInt32.le_iff_toNat_le] using is_digit

theorem pushDigit_spec (bytes : Bytes) (carry : Nat) : (pushDigit bytes carry).1.length = bytes.length ∧
    Bytes.readLe (pushDigit bytes carry).1 + 256 ^ bytes.length * (pushDigit bytes carry).2 =
      10 * Bytes.readLe bytes + carry := by
  induction bytes generalizing carry with
  | nil => simp [pushDigit,Bytes.readLe]
  | cons byte bytes ih =>
    obtain ⟨length,value⟩ := ih ((byte.toNat * 10 + carry) / 256)
    refine ⟨by simp [pushDigit,length],?_⟩
    have split := Nat.div_add_mod (byte.toNat * 10 + carry) 256
    have low : (UInt8.ofNat ((byte.toNat * 10 + carry) % 256)).toNat = (byte.toNat * 10 + carry) % 256 := by simp
    simp only [pushDigit,Bytes.readLe,List.length_cons,low]
    rw [Nat.pow_succ,Nat.mul_comm (256 ^ _) 256,Nat.mul_assoc]
    omega

-- The loop computes the number modulo nothing: it stops where 256 bits are exceeded.
theorem pushDigits_eq (raw : Text) {m width : Nat} (fits : m < 256 ^ width) :
    pushDigits (Bytes.writeLe width m) raw =
      if raw.foldl (fun n c => 10 * n + digit c) m < 256 ^ width then
        some (Bytes.writeLe width (raw.foldl (fun n c => 10 * n + digit c) m))
      else none := by
  induction raw generalizing m with
  | nil => simp [pushDigits,fits]
  | cons c rest ih =>
    obtain ⟨length,value⟩ := pushDigit_spec (Bytes.writeLe width m) (digit c)
    rw [Bytes.writeLe_length,Bytes.readLe_writeLe width m fits] at value
    rw [Bytes.writeLe_length] at length
    have below := Bytes.readLe_lt (pushDigit (Bytes.writeLe width m) (digit c)).1
    rw [length] at below
    simp only [pushDigits,List.foldl_cons]
    by_cases carry : (pushDigit (Bytes.writeLe width m) (digit c)).2 = 0
    · rw [carry,Nat.mul_zero,Nat.add_zero] at value
      have same : (pushDigit (Bytes.writeLe width m) (digit c)).1 = Bytes.writeLe width (10 * m + digit c) := by
        have whole := Bytes.writeLe_readLe (pushDigit (Bytes.writeLe width m) (digit c)).1
        rw [length,value] at whole
        exact whole.symm
      rw [if_neg (by simpa using carry),same]
      exact ih (value ▸ below)
    · have more : 256 ^ width ≤ 10 * m + digit c := by
        calc 256 ^ width ≤ 256 ^ width * (pushDigit (Bytes.writeLe width m) (digit c)).2 :=
              Nat.le_mul_of_pos_right _ (Nat.pos_of_ne_zero carry)
          _ ≤ 10 * m + digit c := by omega
      have kept : 10 * m + digit c ≤ rest.foldl (fun n c => 10 * n + digit c) (10 * m + digit c) := by
        rw [read_from]
        exact Nat.le_trans (Nat.le_mul_of_pos_right _ (Nat.pow_pos (by decide))) (Nat.le_add_right _ _)
      have beyond := Nat.not_lt.mpr (Nat.le_trans more kept)
      simp only [ne_eq,carry,not_false_eq_true,if_true,beyond,if_false]

theorem zero_bytes (width : Nat) : List.replicate width (0 : UInt8) = Bytes.writeLe width 0 := by
  induction width with
  | zero => rfl
  | succ width ih => simp [List.replicate_succ,Bytes.writeLe,ih]

theorem canonicalBlobId_eq {raw : Text} (decimal : isDecimal raw = true) :
    canonicalBlobId raw = if read 10 raw < 2 ^ 256 then base64url (Bytes.writeLe 32 (read 10 raw)) else raw := by
  have pushed := @pushDigits_eq raw 0 32 (by decide)
  change pushDigits _ raw = if read 10 raw < 2 ^ 256 then some (Bytes.writeLe 32 (read 10 raw)) else none at pushed
  rw [canonicalBlobId,if_pos decimal,zero_bytes,pushed]
  by_cases fits : read 10 raw < 2 ^ 256
  · simp only [if_pos fits]
  · simp only [if_neg fits]

theorem numeral_short (n : Nat) : (Nat.toDigits 10 n).length ≤ 20 ↔ n < 10 ^ 20 :=
  Nat.length_toDigits_le_iff (by decide) (by decide)

theorem hex_numeral {n : Nat} (fits : n < 2 ^ 256) :
    (padStart 64 (Nat.toDigits 16 n)).length = 2 * 32 ∧ ∀ c ∈ padStart 64 (Nat.toDigits 16 n), IsHex c := by
  constructor
  · apply padStart_length
    exact (Nat.length_toDigits_le_iff (by decide) (by decide)).mpr fits
  · exact padStart_hex (toDigits_hex n)

theorem blobIdFromRaw_filled (c : Char) (rest : Text) : blobIdFromRaw (some (c :: rest)) =
    if isDecimal (c :: rest) = true ∧ (c :: rest).length > 20 then
      some (base64url (pairBytes (padStart 64 (Nat.toDigits 16 (read 10 (c :: rest))))).reverse)
    else some (c :: rest) := rfl

theorem blobIdFromRaw_long {n : Nat} (fits : n < 2 ^ 256) (long : 10 ^ 20 ≤ n) :
    blobIdFromRaw (some (Nat.toDigits 10 n)) = some (base64url (Bytes.writeLe 32 n)) := by
  have longer : (Nat.toDigits 10 n).length > 20 := by
    have := (numeral_short n).not.mpr (by omega)
    omega
  obtain ⟨length,hex⟩ := hex_numeral fits
  cases text : Nat.toDigits 10 n with
  | nil => exact absurd text Nat.toDigits_ne_nil
  | cons c rest =>
    rw [blobIdFromRaw_filled,← text,if_pos ⟨isDecimal_toDigits n,longer⟩,read_toDigits (by decide) (by decide),
      pairBytes_eq length hex,read_padStart,read_toDigits (by decide) (by decide),List.reverse_reverse]

theorem blobIdFromRaw_short {n : Nat} (short : n < 10 ^ 20) :
    blobIdFromRaw (some (Nat.toDigits 10 n)) = some (Nat.toDigits 10 n) := by
  have shorter := (numeral_short n).mpr short
  cases text : Nat.toDigits 10 n with
  | nil => exact absurd text Nat.toDigits_ne_nil
  | cons c rest =>
    rw [blobIdFromRaw_filled,← text,if_neg (by omega)]

theorem chainBlobIdFromRaw_numeral (sdk : WalrusIds) {n : Nat} (fits : n < 2 ^ 256) :
    chainBlobIdFromRaw sdk (some (Nat.toDigits 10 n)) = some (base64url (Bytes.writeLe 32 n)) := by
  cases text : Nat.toDigits 10 n with
  | nil => exact absurd text Nat.toDigits_ne_nil
  | cons c rest =>
    have decimal := isDecimal_toDigits n
    have encoded := sdk.encodes n fits
    rw [text] at decimal encoded
    simp only [chainBlobIdFromRaw,decimal,if_true,encoded]

theorem canonicalBlobId_numeral {n : Nat} (fits : n < 2 ^ 256) :
    canonicalBlobId (Nat.toDigits 10 n) = base64url (Bytes.writeLe 32 n) := by
  rw [canonicalBlobId_eq (isDecimal_toDigits n),read_toDigits (by decide) (by decide),if_pos fits]

-- A number below 10^20 keeps its numeral in the listing, and is encoded on the
-- two other paths; from 10^20 on the three agree.
theorem blob_ids_of_numeral (sdk : WalrusIds) (n : Nat) (fits : n < 2 ^ 256) :
    chainBlobIdFromRaw sdk (some (Nat.toDigits 10 n)) = some (base64url (Bytes.writeLe 32 n)) ∧
    canonicalBlobId (Nat.toDigits 10 n) = base64url (Bytes.writeLe 32 n) ∧
    (10 ^ 20 ≤ n → blobIdFromRaw (some (Nat.toDigits 10 n)) = some (base64url (Bytes.writeLe 32 n))) ∧
    (n < 10 ^ 20 → blobIdFromRaw (some (Nat.toDigits 10 n)) = some (Nat.toDigits 10 n) ∧
      Nat.toDigits 10 n ≠ base64url (Bytes.writeLe 32 n)) := by
  refine ⟨chainBlobIdFromRaw_numeral sdk fits,canonicalBlobId_numeral fits,blobIdFromRaw_long fits,?_⟩
  intro short
  refine ⟨blobIdFromRaw_short short,?_⟩
  intro same
  have length := congrArg List.length same
  rw [base64url_length,Bytes.writeLe_length] at length
  have := (numeral_short n).mpr short
  omega

def sampleIds : WalrusIds where
  blobIdFromInt text := base64url (Bytes.writeLe 32 (read 10 text))
  encodes n _ := by rw [read_toDigits (by decide) (by decide)]

theorem blob_ids_of_two_to_seventy :
    blobIdFromRaw (some (Nat.toDigits 10 (2 ^ 70))) = some (base64url (Bytes.writeLe 32 (2 ^ 70))) :=
  (blob_ids_of_numeral sampleIds (2 ^ 70) (by decide)).2.2.1 (by decide)

theorem seven_keeps_its_numeral : ¬ ∀ (sdk : WalrusIds) (n : Nat), n < 2 ^ 256 →
    blobIdFromRaw (some (Nat.toDigits 10 n)) = some (base64url (Bytes.writeLe 32 n)) ∧
    chainBlobIdFromRaw sdk (some (Nat.toDigits 10 n)) = some (base64url (Bytes.writeLe 32 n)) ∧
    canonicalBlobId (Nat.toDigits 10 n) = base64url (Bytes.writeLe 32 n) := by
  intro agree
  have here := (agree sampleIds 7 (by decide)).1
  rw [blobIdFromRaw_short (by decide)] at here
  revert here
  decide

end MemWal.Blobs
