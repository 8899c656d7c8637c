import MemWal.Library.Base64
import MemWal.SecurityDelete.Service
import Mathlib.Data.Char
import Mathlib.Logic.Encodable.Basic
import Mathlib.Logic.Equiv.List

namespace MemWal.SecurityDelete.Tokens
open Library

structure TokenClaims where
  a : String
  e : Int
  deriving DecidableEq, Repr

-- What the tokens take from other crates: the JSON text of the claims and the MAC
-- of a message under a key.
structure Mac where
  claimsJson : TokenClaims → Bytes
  readClaims : Bytes → Option TokenClaims
  hmac : Bytes → Bytes → Bytes

-- Claims read back.
def Mac.Documented (mac : Mac) : Prop := ∀ claims, mac.readClaims (mac.claimsJson claims) = some claims

def asBytes (text : List Char) : Bytes := text.flatMap String.utf8EncodeChar

def i64Min : Int := -2^63
def i64Max : Int := 2^63 - 1

-- `ttl_secs as i64`
def asI64 (n : Nat) : Int := if n % 2^64 < 2^63 then n % 2^64 else n % 2^64 - 2^64

def saturatingAdd (a b : Int) : Int := max i64Min (min (a + b) i64Max)

def tokenError : SdError := .new .authTokenExpired "Authentication token is invalid or expired"

def splitOnce (mark : Char) : List Char → Option (List Char × List Char)
  | [] => none
  | c :: rest => if c = mark then some ([],rest) else (splitOnce mark rest).map (fun parts => (c :: parts.1,parts.2))

section Tokens
variable (mac : Mac)

-- The part of a token that its signature is for.
def tokenPayload (address : String) (ttlSecs : Nat) (nowUnix : Int) : List Char :=
  Numerals.base64url (mac.claimsJson ⟨address,saturatingAdd nowUnix (asI64 ttlSecs)⟩)

def signPayload (secret : Bytes) (payload : List Char) : String :=
  String.ofList (payload ++ '.' :: Numerals.base64url (mac.hmac secret (asBytes payload)))

def mintToken (secret : Bytes) (address : String) (ttlSecs : Nat) (nowUnix : Int) : String :=
  signPayload mac secret (tokenPayload mac address ttlSecs nowUnix)

def verifyToken (secret : Bytes) (token : String) (nowUnix : Int) : Except SdError Owner := do
  let (payload,signature) ← Fallible.require (splitOnce '.' token.toList) tokenError
  Fallible.ensure ('.' ∉ signature) tokenError
  let signature ← Fallible.require (Numerals.base64urlRead signature) tokenError
  Fallible.ensure (mac.hmac secret (asBytes payload) = signature) tokenError
  let decoded ← Fallible.require (Numerals.base64urlRead payload) tokenError
  let claims ← Fallible.require (mac.readClaims decoded) tokenError
  Fallible.ensure (¬ claims.e ≤ nowUnix) tokenError
  Fallible.require (canonicalSuiAddress claims.a) tokenError

end Tokens

section Readings
variable {mac : Mac} {secret : Bytes}

theorem splitOnce_append {mark : Char} {front rest : List Char} (clean : mark ∉ front) :
    splitOnce mark (front ++ mark :: rest) = some (front,rest) := by
  induction front with
  | nil => simp [splitOnce]
  | cons c front ih =>
    simp only [List.mem_cons,not_or] at clean
    rw [List.cons_append,splitOnce,if_neg (fun same => clean.1 same.symm),ih clean.2]
    rfl

theorem splitOnce_exact {mark : Char} {text front rest : List Char} (split : splitOnce mark text = some (front,rest)) :
    text = front ++ mark :: rest := by
  induction text generalizing front with
  | nil => cases split
  | cons c text ih =>
    rw [splitOnce] at split
    split at split
    · rename_i same
      cases split
      rw [same,List.nil_append]
    · obtain ⟨parts,found,equal⟩ := Option.map_eq_some_iff.mp split
      cases equal
      rw [ih found,List.cons_append]

theorem symbol_dotless {n : Nat} (small : n < 64) : Numerals.symbol n ≠ '.' := by
  revert n
  decide

theorem base64url_dotless (bytes : Bytes) : '.' ∉ Numerals.base64url bytes := by
  have apart : ∀ n, n < 64 → '.' ≠ Numerals.symbol n := fun n small same => symbol_dotless small same.symm
  induction bytes using Numerals.base64url.induct with
  | case1 a b c rest ih =>
    have first := a.toNat_lt
    have second := b.toNat_lt
    have third := c.toNat_lt
    simp only [Numerals.base64url,List.mem_cons,not_or]
    exact ⟨apart _ (by omega),apart _ (by omega),apart _ (by omega),apart _ (by omega),ih⟩
  | case2 a b =>
    have first := a.toNat_lt
    have second := b.toNat_lt
    simp only [Numerals.base64url,List.mem_cons,List.not_mem_nil,or_false,not_or]
    exact ⟨apart _ (by omega),apart _ (by omega),apart _ (by omega)⟩
  | case3 a =>
    have first := a.toNat_lt
    simp only [Numerals.base64url,List.mem_cons,List.not_mem_nil,or_false,not_or]
    exact ⟨apart _ (by omega),apart _ (by omega)⟩
  | case4 => exact List.not_mem_nil

-- What a bearer has to be to pass: the very text that signing its payload gives,
-- with claims that have not run out.
theorem verifyToken_ok {token : String} {nowUnix : Int} {owner : Owner} :
    verifyToken mac secret token nowUnix = .ok owner ↔ ∃ claimed claims, token = signPayload mac secret (Numerals.base64url claimed) ∧
      mac.readClaims claimed = some claims ∧ nowUnix < claims.e ∧ canonicalSuiAddress claims.a = some owner := by
  simp only [verifyToken,Fallible.bind_ok,Fallible.require_ok,Fallible.ensure_ok,exists_const,Prod.exists]
  constructor
  · rintro ⟨payload,signature,split,clean,decoded,read,rfl,claimed,readPayload,claims,parsed,ahead,canonical⟩
    refine ⟨claimed,claims,?_,parsed,by omega,canonical⟩
    rw [← Numerals.base64url_exact readPayload] at split read
    rw [signPayload,Numerals.base64url_exact read,← splitOnce_exact split,String.ofList_toList]
  · rintro ⟨claimed,claims,rfl,parsed,ahead,canonical⟩
    refine ⟨_,_,?_,base64url_dotless _,_,Numerals.base64urlRead_base64url _,rfl,claimed,
      Numerals.base64urlRead_base64url _,claims,parsed,by omega,canonical⟩
    rw [signPayload,String.toList_ofList,splitOnce_append (base64url_dotless claimed)]

theorem verifyToken_error {token : String} {nowUnix : Int} {error : SdError}
    (refused : verifyToken mac secret token nowUnix = .error error) : error = tokenError := by
  simp only [verifyToken,Fallible.bind_error,Fallible.require_error,Fallible.ensure_error] at refused
  rcases refused with ⟨_,rfl⟩ | ⟨_,_,⟨_,rfl⟩ | ⟨_,_,⟨_,rfl⟩ | ⟨_,_,⟨_,rfl⟩ | ⟨_,_,⟨_,rfl⟩ | ⟨_,_,⟨_,rfl⟩ | ⟨_,_,
    ⟨_,rfl⟩ | ⟨_,_,_,rfl⟩⟩⟩⟩⟩⟩⟩ <;> rfl

def front (token : String) : List Char := token.toList.takeWhile (fun c => c != '.')

theorem signPayload_front (claimed : Bytes) :
    front (signPayload mac secret (Numerals.base64url claimed)) = Numerals.base64url claimed := by
  have clean : ∀ c ∈ Numerals.base64url claimed, (c != '.') = true := by
    intro c member
    exact bne_iff_ne.mpr (fun same => base64url_dotless claimed (same ▸ member))
  rw [front,signPayload,String.toList_ofList,List.takeWhile_append_of_pos clean,List.takeWhile_cons_of_neg (by decide),
    List.append_nil]

theorem signPayload_injective {left right : Bytes} (same : signPayload mac secret (Numerals.base64url left) =
    signPayload mac secret (Numerals.base64url right)) : left = right := by
  have fronts := congrArg front same
  rw [signPayload_front,signPayload_front] at fronts
  exact Numerals.base64url_injective fronts

theorem toLower_toNat (c : Char) :
    c.toLower.toNat = if 65 ≤ c.toNat ∧ c.toNat ≤ 90 then c.toNat + 32 else c.toNat := by
  have upper : (c.val ≥ 'A'.val ∧ c.val ≤ 'Z'.val) ↔ (65 ≤ c.toNat ∧ c.toNat ≤ 90) := by
    rw [ge_iff_le,UInt32.le_iff_toNat_le,UInt32.le_iff_toNat_le]
    rfl
  by_cases shape : 65 ≤ c.toNat ∧ c.toNat ≤ 90
  · delta Char.toLower
    rw [dif_pos (upper.mpr shape),if_pos shape]
    change (c.val + ('a'.val - 'A'.val)).toNat = c.val.toNat + 32
    have small : c.val.toNat ≤ 90 := shape.2
    rw [UInt32.toNat_add,show ('a'.val - 'A'.val).toNat = 32 from rfl,Nat.mod_eq_of_lt (by omega)]
  · delta Char.toLower
    rw [dif_neg (fun given => shape (upper.mp given)),if_neg shape]

theorem toLower_twice (c : Char) : c.toLower.toLower = c.toLower := by
  apply Char.toNat_inj.mp
  rw [toLower_toNat,toLower_toNat]
  by_cases upper : 65 ≤ c.toNat ∧ c.toNat ≤ 90
  · rw [if_pos upper,if_neg (by omega)]
  · rw [if_neg upper,if_neg upper]

def hexChar (c : Char) : Bool := c.isDigit || ('a'.toNat ≤ c.toLower.toNat && c.toLower.toNat ≤ 'f'.toNat)

theorem hexChar_lower {c : Char} (hex : hexChar c = true) : hexChar c.toLower = true := by
  unfold hexChar at hex ⊢
  rw [toLower_twice]
  simp only [Bool.or_eq_true] at hex ⊢
  rcases hex with digit | letter
  · left
    have same : c.toLower = c := by
      apply Char.toNat_inj.mp
      simp only [Char.isDigit,Bool.and_eq_true,decide_eq_true_eq,ge_iff_le,UInt32.le_iff_toNat_le] at digit
      have high : c.toNat ≤ 57 := digit.2
      rw [toLower_toNat,if_neg (by omega)]
    rw [same]
    exact digit
  · right
    exact letter

theorem canonical_fixed {raw : String} {owner : Owner} (read : canonicalSuiAddress raw = some owner) :
    canonicalSuiAddress owner = some owner := by
  unfold canonicalSuiAddress at read
  split at read
  · rename_i digits _
    split at read
    · rename_i shape
      obtain ⟨some_,few,hex⟩ := shape
      cases read
      have long : (List.replicate (64 - digits.length) '0' ++ digits.map Char.toLower).length = 64 := by
        rw [List.length_append,List.length_replicate,List.length_map]
        omega
      have again : (List.replicate (64 - digits.length) '0' ++ digits.map Char.toLower).map Char.toLower =
          List.replicate (64 - digits.length) '0' ++ digits.map Char.toLower := by
        rw [List.map_append,List.map_replicate,List.map_map]
        congr 1
        exact List.map_congr_left (fun c _ => toLower_twice c)
      have lower : (List.replicate (64 - digits.length) '0' ++ digits.map Char.toLower).all hexChar = true := by
        rw [List.all_append,Bool.and_eq_true]
        refine ⟨?_,?_⟩
        · rw [List.all_replicate]
          split <;> rfl
        · rw [List.all_map]
          exact List.all_eq_true.mpr (fun c member => hexChar_lower (List.all_eq_true.mp hex c member))
      rw [canonicalSuiAddress,String.toList_ofList]
      simp only [long]
      rw [if_pos ⟨by omega,by omega,lower⟩,again]
      simp
    · cases read
  · cases read

-- A token names its owner until it runs out, and a payload has one text that is
-- let through.
theorem token_round_trip (mac : Mac) (documented : mac.Documented) (secret : Bytes) :
    (∀ (address : Owner) (ttlSecs : Nat) (mintedAt later : Int), canonicalSuiAddress address = some address →
      verifyToken mac secret (mintToken mac secret address ttlSecs mintedAt) later =
        if later < saturatingAdd mintedAt (asI64 ttlSecs) then .ok address else .error tokenError) ∧
    (∀ left right early late owner other, verifyToken mac secret left early = .ok owner →
      verifyToken mac secret right late = .ok other → front left = front right → left = right ∧ owner = other) := by
  constructor
  · intro address ttlSecs mintedAt later canonical
    have minted : ∀ owner, verifyToken mac secret (mintToken mac secret address ttlSecs mintedAt) later = .ok owner ↔
        later < saturatingAdd mintedAt (asI64 ttlSecs) ∧ address = owner := by
      intro owner
      rw [verifyToken_ok]
      constructor
      · rintro ⟨claimed,claims,text,reads,ahead,named⟩
        rw [← signPayload_injective text,documented] at reads
        cases reads
        exact ⟨ahead,Option.some.inj (canonical.symm.trans named)⟩
      · rintro ⟨ahead,rfl⟩
        exact ⟨_,_,rfl,documented _,ahead,canonical⟩
    split
    · rename_i ahead
      exact (minted address).mpr ⟨ahead,rfl⟩
    · rename_i runOut
      cases result : verifyToken mac secret (mintToken mac secret address ttlSecs mintedAt) later with
      | error error => rw [verifyToken_error result]
      | ok owner => exact absurd ((minted owner).mp result).1 runOut
  · intro left right early late owner other first second same
    obtain ⟨claimed,claims,rfl,reads,_,named⟩ := verifyToken_ok.mp first
    obtain ⟨others,stated,rfl,read,_,called⟩ := verifyToken_ok.mp second
    rw [signPayload_front,signPayload_front] at same
    cases Numerals.base64url_injective same
    cases reads.symm.trans read
    exact ⟨rfl,Option.some.inj (named.symm.trans called)⟩

-- One wallet, and a token for it as the crates write it.

def sampleWallet : Owner := "0xaaaaaaaaaaaaaaaaaaaaaaaaaaaaaaaaaaaaaaaaaaaaaaaaaaaaaaaaaaaaaaaa"

def sampleClaims : TokenClaims := ⟨sampleWallet,2700⟩

def sampleClaimsJson : Bytes := asBytes ("\x7b\"a\":\"" ++ sampleWallet ++ "\",\"e\":2700\x7d").toList

def sampleHmac : Bytes :=
  [249,152,238,93,124,227,30,79,197,50,192,84,175,230,86,165,152,117,224,143,90,151,11,2,60,66,155,171,140,92,214,170]

def sampleToken : String :=
  "eyJhIjoiMHhhYWFhYWFhYWFhYWFhYWFhYWFhYWFhYWFhYWFhYWFhYWFhYWFhYWFhYWFhYWFhYWFhYWFhYWFhYWFhYWFhYWFhIiwiZSI6MjcwMH0" ++
    ".-ZjuXXzjHk_FMsBUr-ZWpZh14I9alwsCPEKbq4xc1qo"

def letters (codes : List Nat) : String := String.ofList (codes.map Char.ofNat)

theorem letters_back (text : String) : letters (text.toList.map Char.toNat) = text := by
  rw [letters,List.map_map]
  have same : text.toList.map (Char.ofNat ∘ Char.toNat) = text.toList :=
    List.map_id'' (fun c => Char.ofNat_toNat c) text.toList
  rw [same,String.ofList_toList]

def claimsNumber (claims : TokenClaims) : Nat := Encodable.encode (claims.a.toList.map Char.toNat,claims.e)

def otherJson (claims : TokenClaims) : Bytes := 0 :: Bytes.writeUleb (claimsNumber claims)

def otherClaims (json : Bytes) : Option TokenClaims := do
  let (n,_) ← Bytes.readUleb json.tail
  let parts ← (Encodable.decode n : Option (List Nat × Int))
  return ⟨letters parts.1,parts.2⟩

theorem otherClaims_otherJson (claims : TokenClaims) : otherClaims (otherJson claims) = some claims := by
  have back := Bytes.readUleb_write (claimsNumber claims) []
  rw [List.append_nil] at back
  simp only [otherClaims,otherJson,List.tail_cons,back,Option.bind_some,Option.bind_eq_bind]
  simp only [claimsNumber,Encodable.encodek,Option.bind_some,letters_back,Option.pure_def]

theorem otherJson_apart (claims : TokenClaims) : otherJson claims ≠ sampleClaimsJson := by
  intro same
  have first : sampleClaimsJson.head? = some 123 := by decide +kernel
  rw [← same,otherJson,List.head?_cons,Option.some.injEq] at first
  exact absurd first (by decide)

def sampleMac : Mac where
  claimsJson claims := if claims = sampleClaims then sampleClaimsJson else otherJson claims
  readClaims json := if json = sampleClaimsJson then some sampleClaims else otherClaims json
  hmac _ payload := if payload = asBytes (Numerals.base64url sampleClaimsJson) then sampleHmac else List.replicate 32 0

theorem sampleMac_documented : sampleMac.Documented := by
  intro claims
  by_cases same : claims = sampleClaims
  · simp only [sampleMac,same,if_true]
  · simp only [sampleMac,if_neg same,if_neg (otherJson_apart claims),otherClaims_otherJson]

theorem sampleToken_minted : mintToken sampleMac [1,2,3] sampleWallet 2700 0 = sampleToken := by decide +kernel

theorem sampleToken_read : verifyToken sampleMac [1,2,3] sampleToken 100 = .ok sampleWallet ∧
    verifyToken sampleMac [1,2,3] sampleToken 2700 = .error tokenError := by
  have reads := (token_round_trip sampleMac sampleMac_documented [1,2,3]).1 sampleWallet 2700 0
  rw [sampleToken_minted] at reads
  have canonical : canonicalSuiAddress sampleWallet = some sampleWallet := by decide +kernel
  exact ⟨(reads 100 canonical).trans (if_pos (by decide)),(reads 2700 canonical).trans (if_neg (by decide))⟩

end Readings
end MemWal.SecurityDelete.Tokens
