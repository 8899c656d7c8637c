import MemWal.Account.Allowlist
import MemWal.Library.Numerals

namespace MemWal.Seal
open Library Library.Numerals Library.Fallible Account

abbrev Text := List Char

-- What the id code takes from the Sui packages.
structure SuiSdk where
  normalizeSuiAddress : Text → Text
  toHex : Bytes → Text
  serializeU64 : UInt64 → Bytes
  normalizes : ∀ digits : Text, (∀ c ∈ digits, IsHex c) → 0 < digits.length → digits.length ≤ 64 →
    normalizeSuiAddress ('0' :: 'x' :: digits) = '0' :: 'x' :: padStart 64 (digits.map Char.toLower)
  hex : ∀ bytes, toHex bytes = Numerals.toHex bytes
  little : ∀ value, serializeU64 value = Bytes.writeLe 8 value.toNat

def buildSealEncryptId (sdk : SuiSdk) (owner : Text) (counter : UInt64) : Text :=
  let ownerHex := (sdk.normalizeSuiAddress owner).drop 2
  ownerHex ++ sdk.toHex (sdk.serializeU64 counter)

inductive TransactionArgument where
  | pure (bytes : Bytes)
  | object (id : Text)
  deriving DecidableEq, Repr

structure MoveCall where
  target : Text
  arguments : List TransactionArgument
  deriving DecidableEq, Repr

-- `id.match(/.{1,2}/g)`
def chunks : Text → List Text
  | high :: low :: rest => [high,low] :: chunks rest
  | [last] => [[last]]
  | [] => []

-- `parseInt(b, 16)`, stored in a byte
def parseByte (b : Text) : UInt8 := UInt8.ofNat (read 16 (b.takeWhile (fun c => decide (IsHex c))))

-- No match at all is `null`, on which the call throws.
def idBytes (id : Text) : Option Bytes := if id = [] then none else some ((chunks id).map parseByte)

def sealApproveCall (policyPackageId : Text) (registryId : Option Text) (accountId : Text) (idBytes : Bytes) : MoveCall :=
  let approveArgs := match registryId with
    | some (c :: id) => [.pure idBytes,.object (c :: id),.object accountId]
    | _ => [.pure idBytes,.object accountId]
  ⟨policyPackageId ++ "::account::seal_approve".toList,approveArgs⟩

def buildSealApproveTx (policyPackageId : Text) (registryId : Option Text) (accountId : Text) (ids : List Text) :
    Option (List MoveCall) :=
  ids.mapM (fun id => (idBytes id).map (sealApproveCall policyPackageId registryId accountId))

-- An owner as it is written: 0x and up to 64 hex digits, of either case.
structure OwnerText where
  digits : Text
  hex : ∀ c ∈ digits, IsHex c
  filled : 0 < digits.length
  fits : digits.length ≤ 64

namespace OwnerText

def text (owner : OwnerText) : Text := '0' :: 'x' :: owner.digits

-- The address that it names.
def address (owner : OwnerText) : Address := ⟨(Bytes.writeLe 32 (read 16 owner.digits)).reverse,by simp⟩

end OwnerText

theorem lower_hex {c : Char} (hex : IsHex c) : IsHex c.toLower ∧ digit c.toLower = digit c := by
  have all : ∀ n < 128, IsHex (Char.ofNat n) → IsHex (Char.ofNat n).toLower ∧
      digit (Char.ofNat n).toLower = digit (Char.ofNat n) := by decide
  have small : c.toNat < 128 := by
    obtain ⟨_,high⟩ | ⟨_,high⟩ | ⟨_,high⟩ := hex
    all_goals
      have bound := UInt32.le_iff_toNat_le.mp (Char.le_def.mp high)
      exact Nat.lt_of_le_of_lt bound (by decide)
  have here := all c.toNat small
  rw [Char.ofNat_toNat] at here
  exact here hex

theorem read_lower {text : Text} (hex : ∀ c ∈ text, IsHex c) : read 16 (text.map Char.toLower) = read 16 text := by
  induction text with
  | nil => rfl
  | cons c rest ih =>
    rw [List.map_cons,read_cons,read_cons,List.length_map,(lower_hex (hex c List.mem_cons_self)).2,
      ih (fun d there => hex d (List.mem_cons_of_mem _ there))]

theorem chunks_bytes {text : Text} (even : text.length % 2 = 0) (hex : ∀ c ∈ text, IsHex c) :
    (chunks text).map parseByte = pairBytes text := by
  induction text using chunks.induct with
  | case1 high low rest ih =>
    simp only [List.length_cons] at even
    have first := hex high List.mem_cons_self
    have second := hex low (List.mem_cons_of_mem _ List.mem_cons_self)
    have tail := ih (by omega) (fun c there => hex c (List.mem_cons_of_mem _ (List.mem_cons_of_mem _ there)))
    simp only [chunks,List.map_cons,pairBytes,tail]
    congr 1
    simp [parseByte,first,second,Numerals.read]
  | case2 last => cases even
  | case3 => rfl

theorem toHex_hex (bytes : Bytes) : ∀ c ∈ Numerals.toHex bytes, IsHex c := by
  intro c member
  obtain ⟨b,_,there⟩ := List.mem_flatMap.mp member
  have small := b.toNat_lt
  simp only [hexPair,List.mem_cons,List.not_mem_nil,or_false] at there
  rcases there with rfl | rfl
  · exact digitChar_hex (by omega)
  · exact digitChar_hex (by omega)

variable (sdk : SuiSdk) (owner : OwnerText) (counter : UInt64)

theorem encryptId_eq : buildSealEncryptId sdk owner.text counter =
    padStart 64 (owner.digits.map Char.toLower) ++ Numerals.toHex (bcsU64 counter) := by
  simp only [buildSealEncryptId,OwnerText.text,sdk.normalizes _ owner.hex owner.filled owner.fits,sdk.hex,sdk.little]
  rfl

theorem owner_part : (padStart 64 (owner.digits.map Char.toLower)).length = 2 * 32 ∧
    (∀ c ∈ padStart 64 (owner.digits.map Char.toLower), IsHex c) ∧
    pairBytes (padStart 64 (owner.digits.map Char.toLower)) = owner.address.bytes := by
  have length : (padStart 64 (owner.digits.map Char.toLower)).length = 2 * 32 :=
    padStart_length (by simpa using owner.fits)
  have hex : ∀ c ∈ padStart 64 (owner.digits.map Char.toLower), IsHex c := by
    apply padStart_hex
    intro c member
    obtain ⟨d,there,rfl⟩ := List.mem_map.mp member
    exact (lower_hex (owner.hex d there)).1
  refine ⟨length,hex,?_⟩
  rw [pairBytes_eq length hex,read_padStart,read_lower owner.hex]
  rfl

-- The parser of the transaction reads back what the Move function computes.
theorem idBytes_encryptId : idBytes (buildSealEncryptId sdk owner.text counter) = some (sealKeyId owner.address counter) := by
  obtain ⟨length,hex,bytes⟩ := owner_part owner
  have filled : buildSealEncryptId sdk owner.text counter ≠ [] := by
    intro empty
    have none_ := congrArg List.length empty
    rw [encryptId_eq,List.length_append,length] at none_
    simp at none_
  have even : (padStart 64 (owner.digits.map Char.toLower) ++ Numerals.toHex (bcsU64 counter)).length % 2 = 0 := by
    rw [List.length_append,length,toHex_length]
    omega
  have all : ∀ c ∈ padStart 64 (owner.digits.map Char.toLower) ++ Numerals.toHex (bcsU64 counter), IsHex c := by
    intro c member
    rcases List.mem_append.mp member with front | back
    · exact hex c front
    · exact toHex_hex _ c back
  rw [idBytes,if_neg filled,encryptId_eq,chunks_bytes even all,pairBytes_append (by rw [length]),bytes,pairBytes_toHex]
  rfl

-- The decoder of the Move module
theorem shifted {byte : UInt8} {i : Nat} (small : i < 8) :
    (byte.toUInt64 <<< UInt64.ofNat (8 * i)).toNat = 256 ^ i * byte.toNat := by
  have below := byte.toNat_lt
  have amount : (UInt64.ofNat (8 * i)).toNat = 8 * i := by simp; omega
  have power : 2 ^ (8 * i) = 256 ^ i := by rw [Nat.pow_mul]
  have most : 256 ^ i ≤ 256 ^ 7 := Nat.pow_le_pow_right (by decide) (by omega)
  have fits : byte.toNat * 256 ^ i < 2 ^ 64 := by
    calc byte.toNat * 256 ^ i ≤ byte.toNat * 256 ^ 7 := Nat.mul_le_mul_left _ most
      _ < 256 * 256 ^ 7 := Nat.mul_lt_mul_of_pos_right below (by decide)
      _ = 2 ^ 64 := by decide
  rw [UInt64.toNat_shiftLeft,amount,Nat.mod_eq_of_lt (show 8 * i < 64 by omega),Nat.shiftLeft_eq,power,
    UInt8.toNat_toUInt64,Nat.mod_eq_of_lt fits,Nat.mul_comm]

theorem foldSealCounter_eq (bytes : Bytes) {i : Nat} {counter : UInt64} (room : i + bytes.length ≤ 8)
    (fits : counter.toNat + 256 ^ i * Bytes.readLe bytes < 2 ^ 64) :
    foldSealCounter bytes i counter = .ok (UInt64.ofNat (counter.toNat + 256 ^ i * Bytes.readLe bytes)) := by
  induction bytes generalizing i counter with
  | nil => simp [foldSealCounter,Bytes.readLe]
  | cons byte rest ih =>
    simp only [List.length_cons] at room
    have value : 256 ^ i * Bytes.readLe (byte :: rest) = 256 ^ i * byte.toNat + 256 ^ (i+1) * Bytes.readLe rest := by
      rw [Bytes.readLe,Nat.mul_add,Nat.pow_succ,Nat.mul_assoc]
    rw [value] at fits ⊢
    have part := @shifted byte i (by omega)
    have added : (counter + byte.toUInt64 <<< UInt64.ofNat (8 * i)).toNat = counter.toNat + 256 ^ i * byte.toNat := by
      rw [UInt64.toNat_add,part,Nat.mod_eq_of_lt (by omega)]
    simp only [foldSealCounter,checkedAdd_total (show counter.toNat + _ < 2 ^ 64 by rw [part]; omega)]
    have rest_ := @ih (i+1) (counter + byte.toUInt64 <<< UInt64.ofNat (8 * i)) (by omega) (by rw [added]; omega)
    rw [added,Nat.add_assoc] at rest_
    exact rest_

theorem sealIdCounter_keyId (front : Bytes) (address : Address) :
    sealIdCounter (front ++ sealKeyId address counter) = .ok counter := by
  have length : (bcsU64 counter).length = 8 := Bytes.writeLe_length 8 _
  have value : Bytes.readLe (bcsU64 counter) = counter.toNat := Bytes.readLe_writeLe 8 _ counter.toNat_lt
  have whole : (front ++ sealKeyId address counter).length = (front ++ address.bytes).length + 8 := by
    simp [sealKeyId,length,Nat.add_assoc]
  have tail : (front ++ sealKeyId address counter).drop ((front ++ sealKeyId address counter).length - 8) = bcsU64 counter := by
    rw [whole,Nat.add_sub_cancel,sealKeyId,← List.append_assoc,List.drop_left]
  have enough : sealIdCounterLength ≤ (front ++ sealKeyId address counter).length := by
    rw [whole]
    exact Nat.le_add_left _ _
  have read_ := @foldSealCounter_eq (bcsU64 counter) 0 0 (by rw [length]) (by
    rw [value]
    simpa using counter.toNat_lt)
  rw [value] at read_
  simp only [sealIdCounter,ensure,if_pos enough]
  change foldSealCounter ((front ++ sealKeyId address counter).drop ((front ++ sealKeyId address counter).length - 8)) 0 0 = _
  rw [tail,read_]
  simp

theorem assertSealIdOwner_keyId (front : Bytes) (account : MemWalAccount) :
    assertSealIdOwner (front ++ sealKeyId account.owner counter) account = .ok counter := by
  have length : (bcsU64 counter).length = 8 := Bytes.writeLe_length 8 _
  have enough : account.owner.bytes.length + sealIdCounterLength ≤ (front ++ sealKeyId account.owner counter).length := by
    simp only [sealKeyId,List.length_append,length]
    change _ + 8 ≤ _
    omega
  have suffix : hasSuffix (front ++ sealKeyId account.owner counter) (account.owner.bytes ++ bcsU64 counter) = true := by
    have small : ¬ (sealKeyId account.owner counter).length > (front ++ sealKeyId account.owner counter).length := by
      rw [List.length_append]
      omega
    rw [hasSuffix,show account.owner.bytes ++ bcsU64 counter = sealKeyId account.owner counter from rfl,if_neg small]
    simp
  simp only [assertSealIdOwner,bind_ok,ensure_ok,exists_const,pure_ok]
  exact ⟨enough,counter,sealIdCounter_keyId counter front account.owner,suffix,rfl⟩

theorem sealKeyId_injective {a b : Address} {m n : UInt64} (equal : sealKeyId a m = sealKeyId b n) : a = b ∧ m = n := by
  obtain ⟨address,rest⟩ := Bytes32.append_inj equal
  exact ⟨address,bcsU64_injective rest⟩

-- One identity in the three places: what the encoder writes is parsed to what
-- the Move function computes, and is accepted with that counter.
theorem seal_identities_agree : (∀ policyPackageId registryId accountId,
      buildSealApproveTx policyPackageId registryId accountId [buildSealEncryptId sdk owner.text counter] =
        some [sealApproveCall policyPackageId registryId accountId (sealKeyId owner.address counter)]) ∧
    (∀ account : MemWalAccount, account.owner = owner.address →
      assertSealIdOwner (sealKeyId owner.address counter) account = .ok counter) ∧
    ∀ (other : OwnerText) (later : UInt64), (owner.address,counter) ≠ (other.address,later) →
      buildSealEncryptId sdk owner.text counter ≠ buildSealEncryptId sdk other.text later := by
  refine ⟨?_,?_,?_⟩
  · intro policyPackageId registryId accountId
    simp [buildSealApproveTx,idBytes_encryptId]
  · intro account same
    rw [← same]
    exact assertSealIdOwner_keyId counter [] account
  · intro other later different equal
    have bytes := idBytes_encryptId sdk owner counter
    rw [equal,idBytes_encryptId sdk other later] at bytes
    obtain ⟨address,same⟩ := sealKeyId_injective (Option.some.inj bytes)
    exact different (by rw [address,same])

def sampleSdk : SuiSdk where
  normalizeSuiAddress text := '0' :: 'x' :: padStart 64 ((text.drop 2).map Char.toLower)
  toHex := Numerals.toHex
  serializeU64 value := Bytes.writeLe 8 value.toNat
  normalizes _ _ _ _ := rfl
  hex _ := rfl
  little _ := rfl

def shortOwner : OwnerText := ⟨['A'],by simpa using (by decide : IsHex 'A'),by decide,by decide⟩

def otherOwner : OwnerText := ⟨['0','b'],by simpa using (⟨by decide,by decide⟩ : IsHex '0' ∧ IsHex 'b'),by decide,by decide⟩

theorem short_owner_identity : buildSealEncryptId sampleSdk shortOwner.text 7 ≠ buildSealEncryptId sampleSdk otherOwner.text 7 :=
  (seal_identities_agree sampleSdk shortOwner 7).2.2 otherOwner 7 (by decide +kernel)

end MemWal.Seal
