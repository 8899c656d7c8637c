import MemWal.OAuth.Routes
namespace MemWal.OAuth
open Library Auth

theorem char_between {low high c : Char} (above : low ≤ c) (below : c ≤ high) :
    c ∈ (List.range' low.toNat (high.toNat + 1 - low.toNat)).map Char.ofNat := by
  have first : low.toNat ≤ c.toNat := above
  have last : c.toNat ≤ high.toNat := below
  refine List.mem_map.mpr ⟨c.toNat,?_,Char.ofNat_toNat c⟩
  rw [List.mem_range'_1]
  omega

structure LowerHex (c : Char) : Prop where
  hex : isAsciiHexdigit c = true
  lower : c.toLower = c
  dense : Text.isWhitespace c = false

instance (c : Char) : Decidable (LowerHex c) :=
  decidable_of_iff (isAsciiHexdigit c = true ∧ c.toLower = c ∧ Text.isWhitespace c = false)
    ⟨fun h => ⟨h.1,h.2.1,h.2.2⟩,fun h => ⟨h.hex,h.lower,h.dense⟩⟩

theorem lowerHex_toLower {c : Char} (hex : isAsciiHexdigit c = true) : LowerHex c.toLower := by
  simp only [isAsciiHexdigit,hexDigit] at hex
  split at hex
  · rename_i digit
    have all : ((List.range' 48 10).map Char.ofNat).all (fun d => decide (LowerHex d.toLower)) = true := by decide
    exact of_decide_eq_true (List.all_eq_true.mp all c (char_between digit.1 digit.2))
  · split at hex
    · rename_i small
      have all : ((List.range' 97 6).map Char.ofNat).all (fun d => decide (LowerHex d.toLower)) = true := by decide
      exact of_decide_eq_true (List.all_eq_true.mp all c (char_between small.1 small.2))
    · split at hex
      · rename_i large
        have all : ((List.range' 65 6).map Char.ofNat).all (fun d => decide (LowerHex d.toLower)) = true := by decide
        exact of_decide_eq_true (List.all_eq_true.mp all c (char_between large.1 large.2))
      · cases hex

theorem trim_dense {text : List Char} (dense : ∀ c ∈ text, Text.isWhitespace c = false) : Text.trim text = text := by
  have start : ∀ {word : List Char}, (∀ c ∈ word, Text.isWhitespace c = false) →
      word.dropWhile Text.isWhitespace = word := by
    intro word all
    cases word with
    | nil => rfl
    | cons c rest => simp [all c List.mem_cons_self]
  unfold Text.trim
  rw [start dense,start (fun c member => dense c (List.mem_reverse.mp member)),List.reverse_reverse]

-- The text of an id in its own spelling.
structure Canonical (text : List Char) : Prop where
  digits : ∃ digits, text = '0' :: 'x' :: digits ∧ digits.length = 64 ∧ ∀ c ∈ digits, LowerHex c

theorem sanitize_spelled {raw accountId : String} (equal : sanitizeSuiObjectId raw = .ok accountId) :
    Canonical accountId.toList := by
  unfold sanitizeSuiObjectId at equal
  split at equal
  · rename_i digits spelled
    split at equal
    · rename_i holds
      obtain rfl := Except.ok.inj equal
      refine ⟨digits.map Char.toLower,?_,by rw [List.length_map,holds.1],?_⟩
      · rw [toAsciiLowercase,String.toList_ofList,spelled,List.map_cons,List.map_cons]
        congr 1
      · intro c member
        obtain ⟨d,listed,rfl⟩ := List.mem_map.mp member
        exact lowerHex_toLower (List.all_eq_true.mp holds.2 d listed)
    · cases equal
  · cases equal

theorem sanitize_of_canonical {accountId : String} (canonical : Canonical accountId.toList) :
    sanitizeSuiObjectId accountId = .ok accountId := by
  obtain ⟨digits,text,count,lower⟩ := canonical
  have dense : ∀ c ∈ accountId.toList, Text.isWhitespace c = false := by
    rw [text]
    intro c member
    rcases List.mem_cons.mp member with rfl | member
    · decide
    rcases List.mem_cons.mp member with rfl | listed
    · decide
    · exact (lower c listed).dense
  have trimmed : trim accountId = accountId := by
    rw [trim,trim_dense dense,String.ofList_toList]
  have lowered : toAsciiLowercase accountId = accountId := by
    have each : accountId.toList.map Char.toLower = accountId.toList := by
      rw [text]
      simp only [List.map_cons,List.map_congr_left (fun c member => (lower c member).lower),List.map_id']
      rfl
    rw [toAsciiLowercase,each,String.ofList_toList]
  unfold sanitizeSuiObjectId
  rw [trimmed,text]
  exact (if_pos ⟨count,List.all_eq_true.mpr (fun c member => (lower c member).hex)⟩).trans (congrArg Except.ok lowered)

end MemWal.OAuth
