import MemWal.Library.Numerals

namespace MemWal.Library.Numerals

-- The six bits that a character of the url-safe alphabet stands for.
def sextet (c : Char) : Option Nat :=
  if 'A' ≤ c ∧ c ≤ 'Z' then some (c.toNat - 65)
  else if 'a' ≤ c ∧ c ≤ 'z' then some (c.toNat - 71)
  else if '0' ≤ c ∧ c ≤ '9' then some (c.toNat + 4)
  else if c = '-' then some 62
  else if c = '_' then some 63
  else none

-- The unpadded reader: no padding is taken, and the bits that a last short
-- group leaves over have to be zero.
def base64urlRead : List Char → Option Bytes
  | w :: x :: y :: z :: rest => do
    let a ← sextet w
    let b ← sextet x
    let c ← sextet y
    let d ← sextet z
    let bytes ← base64urlRead rest
    return UInt8.ofNat (a * 4 + b / 16) :: UInt8.ofNat (b % 16 * 16 + c / 4) :: UInt8.ofNat (c % 4 * 64 + d) :: bytes
  | [w,x,y] => do
    let a ← sextet w
    let b ← sextet x
    let c ← sextet y
    if c % 4 = 0 then some [UInt8.ofNat (a * 4 + b / 16),UInt8.ofNat (b % 16 * 16 + c / 4)] else none
  | [w,x] => do
    let a ← sextet w
    let b ← sextet x
    if b % 16 = 0 then some [UInt8.ofNat (a * 4 + b / 16)] else none
  | [_] => none
  | [] => some []

theorem sextet_symbol {n : Nat} (small : n < 64) : sextet (symbol n) = some n := by
  revert n
  decide

theorem byte_of {b : UInt8} {n : Nat} (same : n = b.toNat) : UInt8.ofNat n = b := by
  rw [same]
  exact UInt8.ofNat_toNat

@[simp] theorem base64urlRead_base64url (bytes : Bytes) : base64urlRead (base64url bytes) = some bytes := by
  induction bytes using base64url.induct with
  | case1 a b c rest ih =>
    have first := a.toNat_lt
    have second := b.toNat_lt
    have third := c.toNat_lt
    simp only [base64url,base64urlRead,ih,sextet_symbol (show a.toNat / 4 < 64 by omega),
      sextet_symbol (show a.toNat % 4 * 16 + b.toNat / 16 < 64 by omega),
      sextet_symbol (show b.toNat % 16 * 4 + c.toNat / 64 < 64 by omega),
      sextet_symbol (show c.toNat % 64 < 64 by omega),Option.bind_eq_bind,Option.bind_some]
    rw [byte_of (show _ = a.toNat by omega),byte_of (show _ = b.toNat by omega),byte_of (show _ = c.toNat by omega)]
    rfl
  | case2 a b =>
    have first := a.toNat_lt
    have second := b.toNat_lt
    simp only [base64url,base64urlRead,sextet_symbol (show a.toNat / 4 < 64 by omega),
      sextet_symbol (show a.toNat % 4 * 16 + b.toNat / 16 < 64 by omega),
      sextet_symbol (show b.toNat % 16 * 4 < 64 by omega),Option.bind_eq_bind,Option.bind_some]
    rw [if_pos (by omega),byte_of (show _ = a.toNat by omega),byte_of (show _ = b.toNat by omega)]
  | case3 a =>
    have first := a.toNat_lt
    simp only [base64url,base64urlRead,sextet_symbol (show a.toNat / 4 < 64 by omega),
      sextet_symbol (show a.toNat % 4 * 16 < 64 by omega),Option.bind_eq_bind,Option.bind_some]
    rw [if_pos (by omega),byte_of (show _ = a.toNat by omega)]
  | case4 => rfl

theorem base64url_injective {left right : Bytes} (same : base64url left = base64url right) : left = right := by
  have both := congrArg base64urlRead same
  rw [base64urlRead_base64url,base64urlRead_base64url] at both
  exact Option.some.inj both

theorem char_toNat_le {a b : Char} : a ≤ b ↔ a.toNat ≤ b.toNat := by
  rw [Char.le_def,UInt32.le_iff_toNat_le]
  rfl

theorem sextet_exact {c : Char} {n : Nat} (read : sextet c = some n) : n < 64 ∧ symbol n = c := by
  have back : Char.ofNat c.toNat = c := Char.ofNat_toNat c
  simp only [sextet,char_toNat_le] at read
  split at read
  · rename_i upper
    cases read
    have low : 65 ≤ c.toNat := upper.1
    have high : c.toNat ≤ 90 := upper.2
    refine ⟨by omega,?_⟩
    rw [symbol,if_pos (by omega),show 65 + (c.toNat - 65) = c.toNat by omega,back]
  · split at read
    · rename_i lower
      cases read
      have low : 97 ≤ c.toNat := lower.1
      have high : c.toNat ≤ 122 := lower.2
      refine ⟨by omega,?_⟩
      rw [symbol,if_neg (by omega),if_pos (by omega),show 97 + (c.toNat - 71 - 26) = c.toNat by omega,back]
    · split at read
      · rename_i digit
        cases read
        have low : 48 ≤ c.toNat := digit.1
        have high : c.toNat ≤ 57 := digit.2
        refine ⟨by omega,?_⟩
        rw [symbol,if_neg (by omega),if_neg (by omega),if_pos (by omega),show 48 + (c.toNat + 4 - 52) = c.toNat by omega,back]
      · split at read
        · rename_i dash
          cases read
          exact ⟨by omega,dash.symm⟩
        · split at read
          · rename_i bar
            cases read
            exact ⟨by omega,bar.symm⟩
          · cases read

-- A text that is read is the one that its bytes are written as.
theorem base64url_exact {text : List Char} {bytes : Bytes} (read : base64urlRead text = some bytes) :
    base64url bytes = text := by
  induction text using base64urlRead.induct generalizing bytes with
  | case1 w x y z rest ih =>
    simp only [base64urlRead,Option.bind_eq_bind,Option.bind_eq_some_iff,Option.pure_def,Option.some.injEq] at read
    obtain ⟨a,first,b,second,c,third,d,fourth,more,tail,rfl⟩ := read
    obtain ⟨sa,rfl⟩ := sextet_exact first
    obtain ⟨sb,rfl⟩ := sextet_exact second
    obtain ⟨sc,rfl⟩ := sextet_exact third
    obtain ⟨sd,rfl⟩ := sextet_exact fourth
    rw [base64url,ih tail]
    simp only [UInt8.toNat_ofNat']
    rw [show (a * 4 + b / 16) % 2^8 / 4 = a by omega,
      show (a * 4 + b / 16) % 2^8 % 4 * 16 + (b % 16 * 16 + c / 4) % 2^8 / 16 = b by omega,
      show (b % 16 * 16 + c / 4) % 2^8 % 16 * 4 + (c % 4 * 64 + d) % 2^8 / 64 = c by omega,
      show (c % 4 * 64 + d) % 2^8 % 64 = d by omega]
  | case2 w x y =>
    simp only [base64urlRead,Option.bind_eq_bind,Option.bind_eq_some_iff] at read
    obtain ⟨a,first,b,second,c,third,last⟩ := read
    split at last
    · cases last
      obtain ⟨sa,rfl⟩ := sextet_exact first
      obtain ⟨sb,rfl⟩ := sextet_exact second
      obtain ⟨sc,rfl⟩ := sextet_exact third
      rw [base64url]
      simp only [UInt8.toNat_ofNat']
      rw [show (a * 4 + b / 16) % 2^8 / 4 = a by omega,
        show (a * 4 + b / 16) % 2^8 % 4 * 16 + (b % 16 * 16 + c / 4) % 2^8 / 16 = b by omega,
        show (b % 16 * 16 + c / 4) % 2^8 % 16 * 4 = c by omega]
    · cases last
  | case3 w x =>
    simp only [base64urlRead,Option.bind_eq_bind,Option.bind_eq_some_iff] at read
    obtain ⟨a,first,b,second,last⟩ := read
    split at last
    · cases last
      obtain ⟨sa,rfl⟩ := sextet_exact first
      obtain ⟨sb,rfl⟩ := sextet_exact second
      rw [base64url]
      simp only [UInt8.toNat_ofNat']
      rw [show (a * 4 + b / 16) % 2^8 / 4 = a by omega,show (a * 4 + b / 16) % 2^8 % 4 * 16 = b by omega]
    · cases last
  | case4 c => cases read
  | case5 =>
    cases read
    rfl

end MemWal.Library.Numerals
