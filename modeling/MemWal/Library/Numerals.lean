import Mathlib.Data.List.Basic
import Mathlib.Tactic.Ring
import MemWal.Library.Bytes

namespace MemWal.Library.Numerals

-- The digit that a character stands for, in bases up to sixteen.
def digit (c : Char) : Nat :=
  if '0' ≤ c ∧ c ≤ '9' then c.toNat - 48
  else if 'a' ≤ c ∧ c ≤ 'f' then c.toNat - 87
  else if 'A' ≤ c ∧ c ≤ 'F' then c.toNat - 55
  else 0

def IsHex (c : Char) : Prop := ('0' ≤ c ∧ c ≤ '9') ∨ ('a' ≤ c ∧ c ≤ 'f') ∨ ('A' ≤ c ∧ c ≤ 'F')

instance : DecidablePred IsHex := fun c =>
  inferInstanceAs (Decidable (('0' ≤ c ∧ c ≤ '9') ∨ ('a' ≤ c ∧ c ≤ 'f') ∨ ('A' ≤ c ∧ c ≤ 'F')))

-- The number that a text denotes, most significant digit first.
def read (base : Nat) (text : List Char) : Nat := text.foldl (fun n c => base * n + digit c) 0

theorem digit_digitChar {d : Nat} (small : d < 16) : digit (Nat.digitChar d) = d := by
  revert d
  decide

theorem digit_lt {c : Char} (hex : IsHex c) : digit c < 16 := by
  obtain ⟨low,high⟩ | ⟨low,high⟩ | ⟨low,high⟩ := hex
  all_goals
    simp only [Char.le_def,UInt32.le_iff_toNat_le] at low high
    simp only [digit,Char.le_def,UInt32.le_iff_toNat_le]
    change _ ≤ c.toNat at low
    change c.toNat ≤ _ at high
    split_ifs <;> simp at * <;> omega

theorem read_append (base : Nat) (text : List Char) (c : Char) :
    read base (text ++ [c]) = base * read base text + digit c := by
  simp [read]

theorem read_toDigits {base : Nat} (low : 1 < base) (high : base ≤ 16) (n : Nat) :
    read base (Nat.toDigits base n) = n := by
  induction n using Nat.strong_induction_on with
  | _ n ih =>
    rw [Nat.toDigits_eq_if low]
    split
    · rename_i small
      simp [read,digit_digitChar (Nat.lt_of_lt_of_le small high)]
    · rename_i large
      have less : n / base < n := Nat.div_lt_self (by omega) low
      have last : n % base < 16 := Nat.lt_of_lt_of_le (Nat.mod_lt n (by omega)) high
      rw [read_append,ih _ less,digit_digitChar last]
      exact Nat.div_add_mod n base

theorem digitChar_hex {d : Nat} (small : d < 16) : IsHex (Nat.digitChar d) := by
  revert d
  decide

theorem toDigits_hex (n : Nat) : ∀ c ∈ Nat.toDigits 16 n, IsHex c := by
  induction n using Nat.strong_induction_on with
  | _ n ih =>
    rw [Nat.toDigits_eq_if (by decide)]
    split
    · rename_i small
      intro c member
      rw [List.mem_singleton.mp member]
      exact digitChar_hex small
    · rename_i large
      intro c member
      rcases List.mem_append.mp member with front | last
      · exact ih _ (Nat.div_lt_self (by omega) (by decide)) c front
      · rw [List.mem_singleton.mp last]
        exact digitChar_hex (Nat.mod_lt n (by decide))

-- What comes first weighs more.
theorem read_from (base : Nat) (text : List Char) (n : Nat) :
    text.foldl (fun n c => base * n + digit c) n = n * base ^ text.length + read base text := by
  induction text generalizing n with
  | nil => simp [read]
  | cons c rest ih =>
    simp only [List.foldl_cons,read,List.length_cons]
    rw [ih,ih (base * 0 + digit c)]
    ring

theorem read_cons (base : Nat) (c : Char) (text : List Char) :
    read base (c :: text) = digit c * base ^ text.length + read base text := by
  rw [read,List.foldl_cons,read_from]
  simp

theorem read_lt {text : List Char} (hex : ∀ c ∈ text, IsHex c) : read 16 text < 16 ^ text.length := by
  induction text with
  | nil => decide
  | cons c rest ih =>
    have first := digit_lt (hex c List.mem_cons_self)
    have tail := ih (fun d there => hex d (List.mem_cons_of_mem _ there))
    rw [read_cons,List.length_cons,Nat.pow_succ]
    calc digit c * 16 ^ rest.length + read 16 rest
        < digit c * 16 ^ rest.length + 16 ^ rest.length := by omega
      _ = (digit c + 1) * 16 ^ rest.length := by ring
      _ ≤ 16 * 16 ^ rest.length := Nat.mul_le_mul_right _ first
      _ = 16 ^ rest.length * 16 := Nat.mul_comm _ _

-- `text.padStart(width, '0')`
def padStart (width : Nat) (text : List Char) : List Char := List.replicate (width - text.length) '0' ++ text

theorem padStart_length {width : Nat} {text : List Char} (fits : text.length ≤ width) :
    (padStart width text).length = width := by
  simp [padStart,fits]

theorem read_zeros (base count : Nat) (text : List Char) :
    read base (List.replicate count '0' ++ text) = read base text := by
  induction count with
  | zero => rfl
  | succ count ih =>
    rw [List.replicate_succ,List.cons_append,read_cons,ih]
    simp [digit]

theorem read_padStart (base width : Nat) (text : List Char) : read base (padStart width text) = read base text :=
  read_zeros base _ text

theorem padStart_hex {width : Nat} {text : List Char} (hex : ∀ c ∈ text, IsHex c) : ∀ c ∈ padStart width text, IsHex c := by
  intro c member
  rcases List.mem_append.mp member with zero | own
  · rw [(List.mem_replicate.mp zero).2]
    decide
  · exact hex c own

-- The bytes of a text of pairs of digits, in the order of the text.
def pairBytes : List Char → Bytes
  | high :: low :: rest => UInt8.ofNat (16 * digit high + digit low) :: pairBytes rest
  | _ => []

def hexPair (b : UInt8) : List Char := [Nat.digitChar (b.toNat / 16),Nat.digitChar (b.toNat % 16)]

def toHex (bytes : Bytes) : List Char := bytes.flatMap hexPair

theorem pairBytes_append {text : List Char} (even : text.length % 2 = 0) (rest : List Char) :
    pairBytes (text ++ rest) = pairBytes text ++ pairBytes rest := by
  induction text using pairBytes.induct with
  | case1 high low text ih =>
    simp only [List.length_cons] at even
    rw [List.cons_append,List.cons_append,pairBytes,ih (by omega),pairBytes,List.cons_append]
  | case2 text short =>
    match text,short with
    | [],_ => rfl
    | [c],_ => cases even
    | high :: low :: more,short => exact absurd rfl (short high low more)

@[simp] theorem pairBytes_toHex (bytes : Bytes) : pairBytes (toHex bytes) = bytes := by
  induction bytes with
  | nil => rfl
  | cons b rest ih =>
    have high : b.toNat / 16 < 16 := by have := b.toNat_lt; omega
    have low : b.toNat % 16 < 16 := Nat.mod_lt _ (by decide)
    have whole : 16 * (b.toNat / 16) + b.toNat % 16 = b.toNat := Nat.div_add_mod _ _
    simp only [toHex,List.flatMap_cons,hexPair,List.cons_append,List.nil_append,pairBytes,
      digit_digitChar high,digit_digitChar low,whole]
    rw [show pairBytes (rest.flatMap hexPair) = rest from ih]
    simp

theorem toHex_length (bytes : Bytes) : (toHex bytes).length = 2 * bytes.length := by
  induction bytes with
  | nil => rfl
  | cons b rest ih =>
    simp only [toHex,List.flatMap_cons,List.length_append,hexPair,List.length_cons,List.length_nil] at ih ⊢
    omega

-- A text of digit pairs is the number it denotes, written most significant byte first.
theorem pairBytes_eq {text : List Char} {width : Nat} (length : text.length = 2 * width) (hex : ∀ c ∈ text, IsHex c) :
    pairBytes text = (Bytes.writeLe width (read 16 text)).reverse := by
  induction width generalizing text with
  | zero =>
    rw [List.eq_nil_of_length_eq_zero length]
    rfl
  | succ width ih =>
    match text,length,hex with
    | high :: low :: rest,length,hex =>
      have rest_ : rest.length = 2 * width := by simpa [Nat.mul_succ] using length
      have tail : ∀ c ∈ rest, IsHex c := fun c there => hex c (List.mem_cons_of_mem _ (List.mem_cons_of_mem _ there))
      have below : read 16 rest < 256 ^ width := by
        have bound := read_lt tail
        rwa [rest_,Nat.pow_mul] at bound
      have value : read 16 (high :: low :: rest) = (16 * digit high + digit low) * 256 ^ width + read 16 rest := by
        rw [read_cons,read_cons,List.length_cons,rest_,Nat.pow_succ,Nat.pow_mul]
        ring
      have top : 16 * digit high + digit low < 256 := by
        have := digit_lt (hex high List.mem_cons_self)
        have := digit_lt (hex low (List.mem_cons_of_mem _ List.mem_cons_self))
        omega
      rw [pairBytes,ih rest_ tail,value,Bytes.writeLe_top below top,List.reverse_append]
      rfl

-- base64url without padding, three bytes at a time
def symbol (n : Nat) : Char :=
  if n < 26 then Char.ofNat (65 + n)
  else if n < 52 then Char.ofNat (97 + (n - 26))
  else if n < 62 then Char.ofNat (48 + (n - 52))
  else if n = 62 then '-' else '_'

def base64url : Bytes → List Char
  | a :: b :: c :: rest =>
    symbol (a.toNat / 4) :: symbol (a.toNat % 4 * 16 + b.toNat / 16) :: symbol (b.toNat % 16 * 4 + c.toNat / 64) ::
      symbol (c.toNat % 64) :: base64url rest
  | [a,b] => [symbol (a.toNat / 4),symbol (a.toNat % 4 * 16 + b.toNat / 16),symbol (b.toNat % 16 * 4)]
  | [a] => [symbol (a.toNat / 4),symbol (a.toNat % 4 * 16)]
  | [] => []

theorem base64url_length (bytes : Bytes) : (base64url bytes).length = (4 * bytes.length + 2) / 3 := by
  induction bytes using base64url.induct with
  | case1 a b c rest ih =>
    simp only [base64url,List.length_cons,ih]
    omega
  | case2 a b => simp [base64url]
  | case3 a => simp [base64url]
  | case4 => rfl

example : base64url [77,97,110,77] = ['T','W','F','u','T','Q'] := by decide

end MemWal.Library.Numerals
