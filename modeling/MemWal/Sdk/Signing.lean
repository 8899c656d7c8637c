import MemWal.Library.Alone
import MemWal.Sdk.Client

namespace MemWal.Sdk
open Library

-- A character that a header carries as it is.
def graphic (c : Char) : Bool := '!' ≤ c && c ≤ '~'

-- A path that goes out as it is written.
def plainPath (path : String) : Bool :=
  path.toList.head? = some '/' && path.toList.all (fun c => c.isAlphanum || c = '/' || c = '-' || c = '_')

-- The client and the server use one hash, one signature scheme and one HTTP.
structure Kit.Documented (kit : Kit) (server : Auth.Kit) : Prop where
  hashes : ∀ bytes, kit.sha256 bytes = server.sha256.digest bytes
  keys : ∀ key, key.length = 32 → (kit.publicKey key).length = 32 ∧ server.validKey (kit.publicKey key) = true
  signatures : ∀ text key, key.length = 32 →
    (kit.sign text key).length = 64 ∧ server.verify (kit.publicKey key) text (kit.sign text key) = true
  headers : ∀ text, text.toList.all graphic = true → kit.header text = some text
  targets : ∀ path, plainPath path = true → kit.target path = path
  uuids : ∀ n, (server.uuidVersion (kit.randomUUID n)).isSome = true ∧ (kit.randomUUID n).toList.all graphic = true

section Spellings

theorem hexDigit_digitChar : ∀ n, n < 16 → Auth.hexDigit (Nat.digitChar n) = some (UInt8.ofNat n) := by decide

theorem hexLetter_digitChar : ∀ n, n < 16 → Auth.hexLetter n = Nat.digitChar n := by decide

theorem digitChar_graphic : ∀ n, n < 16 → graphic (Nat.digitChar n) = true := by decide

-- The two sides write bytes alike.
theorem bytesToHex_hexEncode (bytes : Bytes) : bytesToHex bytes = Auth.hexEncode bytes := by
  apply String.toList_inj.mp
  rw [bytesToHex,String.toList_ofList,Auth.hexEncode_letters,Numerals.toHex]
  refine List.flatMap_congr ?_
  intro b _
  rw [Numerals.hexPair,hexLetter_digitChar _ (Auth.nibbles b).1,hexLetter_digitChar _ (Auth.nibbles b).2]

theorem hexBytes_toHex (bytes : Bytes) : Auth.hexBytes (Numerals.toHex bytes) = some bytes := by
  induction bytes with
  | nil => rfl
  | cons b rest ih =>
    have byte : UInt8.ofNat (b.toNat / 16) * 16 + UInt8.ofNat (b.toNat % 16) = b := by
      apply UInt8.toNat_inj.mp
      have bound := b.toNat_lt
      rw [UInt8.toNat_add,UInt8.toNat_mul,UInt8.toNat_ofNat',UInt8.toNat_ofNat']
      simp only [UInt8.toNat_ofNat]
      omega
    change Auth.hexBytes (Nat.digitChar (b.toNat / 16) :: Nat.digitChar (b.toNat % 16) :: Numerals.toHex rest) = _
    rw [Auth.hexBytes,hexDigit_digitChar _ (Auth.nibbles b).1,hexDigit_digitChar _ (Auth.nibbles b).2,ih]
    simp only [Option.bind_eq_bind,Option.bind_some,Option.pure_def,byte]

theorem hexDecode_bytesToHex (bytes : Bytes) : Auth.hexDecode (bytesToHex bytes) = some bytes := by
  rw [Auth.hexDecode,bytesToHex,String.toList_ofList,hexBytes_toHex]

theorem bytesToHex_graphic (bytes : Bytes) : (bytesToHex bytes).toList.all graphic = true := by
  rw [bytesToHex,String.toList_ofList,List.all_eq_true]
  intro c member
  obtain ⟨b,_,pair⟩ := List.mem_flatMap.mp member
  rcases List.mem_cons.mp pair with rfl | second
  · exact digitChar_graphic _ (Auth.nibbles b).1
  · rw [List.mem_singleton.mp second]
    exact digitChar_graphic _ (Auth.nibbles b).2

theorem decimal_letters (n : Nat) : (toString n).toList = Nat.toDigits 10 n := by simp [toString]

theorem decimal_digits {n : Nat} : ∀ c ∈ Nat.toDigits 10 n, c.isDigit = true := by
  intro c member
  exact Nat.isDigit_of_mem_toDigits (by decide) (by decide) member

theorem decimal_graphic (n : Nat) : (toString n).toList.all graphic = true := by
  rw [decimal_letters,List.all_eq_true]
  intro c member
  have digit := decimal_digits c member
  simp only [Char.isDigit,Bool.and_eq_true,decide_eq_true_eq,ge_iff_le,UInt32.le_iff_toNat_le] at digit
  simp only [graphic,Bool.and_eq_true,decide_eq_true_eq,Char.le_def,UInt32.le_iff_toNat_le]
  refine ⟨Nat.le_trans ?_ digit.1,Nat.le_trans digit.2 ?_⟩
  all_goals decide

theorem digit_value {c : Char} (digit : c.isDigit = true) : Numerals.digit c = c.toNat - '0'.toNat := by
  simp only [Char.isDigit,Bool.and_eq_true,decide_eq_true_eq,ge_iff_le] at digit
  exact if_pos digit

theorem parseDigits_decimal (n : Nat) : Auth.parseDigits (Nat.toDigits 10 n) = some n := by
  have value : (Nat.toDigits 10 n).foldl (fun n c => n * 10 + (c.toNat - '0'.toNat)) 0 =
      Numerals.read 10 (Nat.toDigits 10 n) := by
    refine List.foldl_ext _ _ _ ?_
    intro m c member
    rw [digit_value (decimal_digits c member),Nat.mul_comm]
  rw [Numerals.read_toDigits (by decide) (by decide)] at value
  have digits : (Nat.toDigits 10 n).all Char.isDigit = true := List.all_eq_true.mpr decimal_digits
  have some_ : Nat.toDigits 10 n ≠ [] := Nat.toDigits_ne_nil
  generalize Nat.toDigits 10 n = text at value digits some_
  cases text with
  | nil => exact absurd rfl some_
  | cons c rest => simp only [Auth.parseDigits,if_pos digits,value]

theorem parseI64_decimal {n : Nat} (small : (n : Int) ≤ Auth.i64Max) : Auth.parseI64 (toString n) = some (n : Int) := by
  have read := parseDigits_decimal n
  have digits := @decimal_digits n
  have low : Auth.i64Min ≤ (n : Int) := Int.le_trans (by decide) (Int.natCast_nonneg n)
  unfold Auth.parseI64
  rw [decimal_letters]
  generalize Nat.toDigits 10 n = text at read digits
  split
  · exact absurd (digits '-' List.mem_cons_self) (by decide)
  · exact absurd (digits '+' List.mem_cons_self) (by decide)
  · simp only [read,Option.map_some,Option.bind_eq_bind,Option.bind_some,Int.ofNat_eq_natCast]
    exact if_pos ⟨low,small⟩

end Spellings

-- The message that the client signs is the one that the server makes of the request.
theorem signedText_message {kit : Kit} {server : Auth.Kit} (documented : kit.Documented server) (accountId : String)
    (nowMs : Nat) (nonce method path json : String) :
    signedText kit accountId nowMs nonce method path json =
      (⟨toString (nowMs / 1000),method,path,encode (bodyStr method json),nonce,accountId⟩ : Auth.SignedMessage).text
        server := by
  rw [signedText,Auth.SignedMessage.text,sha256hex,bytesToHex_hexEncode,documented.hashes]

-- The world of the middleware, with the identities that requests were let in as.
abbrev Watched := Auth.World × List Auth.AuthInfo

def enter (admitted : List Auth.AuthInfo) : Auth.Op → List Auth.AuthInfo
  | .run auth => admitted ++ [auth]
  | _ => admitted

def watch (s : Watched) (op : Auth.Op) (c : Auth.Choice) : Watched × Auth.Answer op :=
  (((Auth.serve s.1 op c).1,enter s.2 op),(Auth.serve s.1 op c).2)

def Faultless (c : Auth.Choice) : Prop := c.fault = none

-- The request alone, without faults, is let in under the identity.
def LetIn (server : Auth.Kit) (config : Auth.Config) (s : Watched) (request : Auth.SignedRequest) (auth : Auth.AuthInfo) :
    Prop :=
  Alone watch Faultless (fun result now => result = .ok () ∧ now.2 = s.2 ++ [auth])
    (Auth.verifySignature server config request) s

-- The account as the chain has it.
def Listed (config : Auth.Config) (s : Auth.World) (accountId : Auth.AccountId) (owner : Auth.Owner) (publicKey : Bytes) :
    Prop :=
  ∃ delegateKeys, s.objects.get? accountId =
    some ⟨some (Auth.memwalAccountType config),some ⟨some owner,some true,some delegateKeys⟩⟩ ∧ publicKey ∈ delegateKeys

section Middleware
variable {config : Auth.Config} {s : Watched} {accountId : Auth.AccountId} {owner : Auth.Owner} {publicKey : Bytes}
  {ε β : Type} {post : Except ε β → Watched → Prop}

theorem checkAccount_listed {s : Auth.World} (listed : Listed config s accountId owner publicKey) :
    Auth.checkAccount config publicKey (s.objects.get? accountId) = .ok owner := by
  obtain ⟨delegateKeys,found,among⟩ := listed
  simp only [found,Auth.checkAccount,Fallible.bind_ok,Fallible.require_ok,Fallible.ensure_ok,Fallible.pure_ok]
  exact ⟨_,rfl,(),rfl,_,rfl,_,rfl,_,rfl,(),rfl,_,rfl,(),among,rfl⟩

theorem verifyDelegateKeyOnchain_listed {next : Except Auth.OnchainVerifyError Auth.Owner → Program Auth.Op Auth.Answer ε β}
    (listed : Listed config s.1 accountId owner publicKey) (rest : Alone watch Faultless post (next (.ok owner)) s) :
    Alone watch Faultless post ((Auth.verifyDelegateKeyOnchain config accountId publicKey).attempt >>= next) s := by
  rw [Alone.bind_iff,Alone.attempt_iff]
  intro c usual
  have answer : (watch s (.getObject accountId) c).2 = s.1.objects.get? accountId := by
    simp only [watch,Auth.serve,show c.fault = none from usual,Option.isNone_none,if_true]
  rw [answer]
  refine Alone.orFail_iff.mpr ?_
  rw [checkAccount_listed listed]
  exact rest

-- The account is found where the cache does not name another one.
theorem resolveAccount_listed {publicKeyHex : String}
    {next : Except Unit (Auth.AccountId × Auth.Owner) → Program Auth.Op Auth.Answer ε β}
    (listed : Listed config s.1 accountId owner publicKey)
    (cached : ∀ row, s.1.cached publicKeyHex = some row → row.accountId = accountId)
    (rest : ∀ now : Watched, now.2 = s.2 → Alone watch Faultless post (next (.ok (accountId,owner))) now) :
    Alone watch Faultless post
      ((Auth.resolveAccount config publicKeyHex publicKey (some accountId)).attempt >>= next) s := by
  rw [Alone.bind_iff,Alone.attempt_iff]
  intro c usual
  have answer : (watch s (.getCachedAccount publicKeyHex) c).2 =
      .ok ((s.1.cached publicKeyHex).map (fun row => (row.accountId,row.owner))) := by
    simp only [watch,Auth.serve,show c.fault = none from usual,Auth.fallible]
  have still : (watch s (.getCachedAccount publicKeyHex) c).1 = s := by
    simp only [watch,Auth.serve,show c.fault = none from usual,Auth.fallible]
    rfl
  rw [answer,still]
  cases found : s.1.cached publicKeyHex with
  | some row =>
    have same := cached row found
    simp only [Option.map_some,same]
    refine verifyDelegateKeyOnchain_listed listed ?_
    exact rest s rfl
  | none =>
    refine verifyDelegateKeyOnchain_listed listed ?_
    intro d _
    exact rest _ rfl

-- Without faults the answer to a call is decided by the state.
theorem call_bind {op : Auth.Op} {next : Auth.Answer op → Program Auth.Op Auth.Answer ε β}
    (decided : ∀ c, Faultless c → Auth.serve s.1 op c = Auth.serve s.1 op {}) :
    Alone watch Faultless post (Auth.call op >>= next) s ↔
      Alone watch Faultless post (next (Auth.serve s.1 op {}).2) ((Auth.serve s.1 op {}).1,enter s.2 op) := by
  refine Alone.perform_bind.trans ?_
  constructor
  · exact fun alone => alone {} rfl
  · intro alone c usual
    rw [watch,decided c usual]
    exact alone

theorem check_bind {condition : Prop} [Decidable condition] {error : ε} {next : Unit → Program Auth.Op Auth.Answer ε β} :
    Alone watch Faultless post (Auth.check condition error >>= next) s ↔
      (condition ∧ Alone watch Faultless post (next ()) s) ∨ (¬ condition ∧ post (.error error) s) := by
  by_cases holds : condition
  · have passed : Fallible.ensure condition error = .ok () := Fallible.ensure_ok.mpr holds
    rw [Auth.check,Alone.orFail_bind_ok passed]
    simp [holds]
  · rw [Auth.check,Alone.orFail_bind_error (Fallible.ensure_error.mpr ⟨holds,rfl⟩)]
    simp [holds]

theorem check_passed {condition : Prop} [Decidable condition] {error : ε} {next : Unit → Program Auth.Op Auth.Answer ε β}
    (holds : condition) :
    Alone watch Faultless post (Auth.check condition error >>= next) s ↔ Alone watch Faultless post (next ()) s :=
  Alone.orFail_bind_ok (Fallible.ensure_ok.mpr holds)

theorem get_bind {α : Type} {value : Option α} {found : α} {error : ε} {next : α → Program Auth.Op Auth.Answer ε β}
    (present : value = some found) :
    Alone watch Faultless post (Auth.get value error >>= next) s ↔ Alone watch Faultless post (next found) s :=
  Alone.orFail_bind_ok (Fallible.require_ok.mpr present)

end Middleware

theorem inWindow_iff (clock nowMs : Nat) :
    Auth.inWindow (clock / 1000 : Nat) (nowMs / 1000 : Nat) = true ↔
      clock / 1000 ≤ nowMs / 1000 + 300 ∧ nowMs / 1000 ≤ clock / 1000 + 300 := by
  by_cases inside : Auth.i64Min ≤ ((clock / 1000 : Nat) : Int) - (nowMs / 1000 : Nat) ∧
      ((clock / 1000 : Nat) : Int) - (nowMs / 1000 : Nat) ≤ Auth.i64Max
  · rw [Auth.inWindow,Auth.checkedSub,if_pos inside,Option.getD_some,decide_eq_true_iff]
    omega
  · rw [Auth.inWindow,Auth.checkedSub,if_neg inside,Option.getD_none,decide_eq_true_iff]
    simp only [Auth.i64Min,Auth.i64Max] at inside ⊢
    omega

section Requests
variable {kit : Kit} {server : Auth.Kit} {config : MemWalConfig} {nowMs n : Nat} {method path json : String}
  {sealSession : Option String} {s : Watched}

def MemWalConfig.publicKeyHex (kit : Kit) (config : MemWalConfig) : String := bytesToHex (kit.publicKey config.privateKey)

-- What the client has signed, and how.
def signed (kit : Kit) (config : MemWalConfig) (nowMs n : Nat) (method path json : String) : Auth.Signed :=
  ⟨config.publicKeyHex kit,kit.publicKey config.privateKey,
    ⟨toString (nowMs / 1000),method,path,encode (bodyStr method json),kit.randomUUID n,config.accountId⟩,
    kit.sign (signedText kit config.accountId nowMs (kit.randomUUID n) method path json) config.privateKey⟩

-- The latest time that a `Date` can be.
def maxDate : Nat := 8640000000000000

def InTime (s : Auth.World) (nowMs : Nat) : Prop :=
  s.clock / 1000 ≤ nowMs / 1000 + 300 ∧ nowMs / 1000 ≤ s.clock / 1000 + 300

instance (s : Auth.World) (nowMs : Nat) : Decidable (InTime s nowMs) := inferInstanceAs (Decidable (_ ∧ _))

-- The headers are read as they were set.
theorem signedRequest_read (documented : kit.Documented server) (account : config.accountId.toList.all graphic = true)
    (plain : plainPath path = true) : signedRequest kit config nowMs (kit.randomUUID n) method path json sealSession =
      ⟨some (config.publicKeyHex kit),
        some (bytesToHex (signed kit config nowMs n method path json).signature),some (toString (nowMs / 1000)),
        some (kit.randomUUID n),some config.accountId,none,sealSession.bind kit.header,method,path,
        encode (bodyStr method json)⟩ := by
  rw [signedRequest,documented.headers _ (bytesToHex_graphic _),documented.headers _ (bytesToHex_graphic _),
    documented.headers _ (decimal_graphic _),documented.headers _ (documented.uuids n).2,documented.headers _ account,
    documented.targets _ plain]
  rfl

theorem signed_verified (documented : kit.Documented server) (own : config.privateKey.length = 32) : server.verify
    (signed kit config nowMs n method path json).publicKey ((signed kit config nowMs n method path json).message.text server)
    (signed kit config nowMs n method path json).signature = true := by
  have same := signedText_message documented config.accountId nowMs (kit.randomUUID n) method path json
  have valid := (documented.signatures (signedText kit config.accountId nowMs (kit.randomUUID n) method path json)
    config.privateKey own).2
  exact (congrArg (fun text => server.verify _ text _) same).symm.trans valid

theorem decodeRequest_signed (documented : kit.Documented server) (own : config.privateKey.length = 32) (date : nowMs ≤ maxDate)
    (account : config.accountId.toList.all graphic = true) (plain : plainPath path = true)
    {post : Except Auth.Rejection Auth.Signed → Watched → Prop} :
    Alone watch Faultless post (Auth.decodeRequest server
      (signedRequest kit config nowMs (kit.randomUUID n) method path json sealSession)) s ↔
    (InTime s.1 nowMs ∧ post (.ok (signed kit config nowMs n method path json)) s) ∨
      (¬ InTime s.1 nowMs ∧ post (.error .unauthorized) s) := by
  have number : Auth.parseI64 (toString (nowMs / 1000)) = some ((nowMs / 1000 : Nat) : Int) := by
    apply parseI64_decimal
    simp only [Auth.i64Max]
    unfold maxDate at date
    omega
  have key := documented.keys config.privateKey own
  have signature : (signed kit config nowMs n method path json).signature.length = 64 :=
    (documented.signatures _ config.privateKey own).1
  have publicKey : Auth.hexDecode (config.publicKeyHex kit) = some (kit.publicKey config.privateKey) :=
    hexDecode_bytesToHex _
  rw [signedRequest_read documented account plain]
  unfold Auth.decodeRequest
  rw [get_bind rfl,get_bind rfl,get_bind rfl,get_bind rfl,check_passed (documented.uuids n).1,get_bind number,
    call_bind (fun _ _ => rfl),check_bind,get_bind publicKey,check_passed key.1,check_passed key.2,
    get_bind (hexDecode_bytesToHex _),check_passed signature]
  have timely : Auth.inWindow (Auth.serve s.1 .now {}).2 (nowMs / 1000 : Nat) = true ↔ InTime s.1 nowMs :=
    inWindow_iff s.1.clock nowMs
  rw [timely]
  exact Iff.rfl

-- The server with the nonce on record.
def afterNonce (s : Watched) (credential : Auth.Credential) : Watched :=
  ({s.1 with
    nonces := s.1.nonces.upsert credential.nonceKey (s.1.clock + 600 * 1000)
    grants := s.1.grants ++ [⟨credential,s.1.clock,true⟩]},s.2)

theorem recordNonce_bind {credential : Auth.Credential} {β : Type} {post : Except Auth.Rejection β → Watched → Prop}
    {next : Unit → Program Auth.Op Auth.Answer Auth.Rejection β} :
    Alone watch Faultless post (Auth.recordNonce credential >>= next) s ↔
      (Expiring.held s.1.nonces s.1.clock credential.nonceKey = false ∧
        Alone watch Faultless post (next ()) (afterNonce s credential)) ∨
      (Expiring.held s.1.nonces s.1.clock credential.nonceKey = true ∧ post (.error .unauthorized) s) := by
  have split : Alone watch Faultless post (Auth.recordNonce credential >>= next) s ↔
      Alone watch Faultless post (Auth.call (.setNonce credential.nonceKey 600 credential) >>= fun recorded =>
        Auth.check (recorded.toOption = some true) .unauthorized >>= next) s := Iff.rfl
  have decided : ∀ c, Faultless c → Auth.serve s.1 (.setNonce credential.nonceKey 600 credential) c =
      Auth.serve s.1 (.setNonce credential.nonceKey 600 credential) {} := by
    intro c usual
    simp only [Auth.serve,show c.fault = none from usual]
  rw [split,call_bind decided,check_bind]
  cases held : Expiring.held s.1.nonces s.1.clock credential.nonceKey with
  | true =>
    have answer : Auth.serve s.1 (.setNonce credential.nonceKey 600 credential) {} = (s.1,.ok false) := by
      simp [Auth.serve,Auth.fallible,Auth.World.setNonce,Expiring.setIfAbsent_held held]
    rw [answer]
    simp [Except.toOption,enter]
  | false =>
    have answer : Auth.serve s.1 (.setNonce credential.nonceKey 600 credential) {} = ((afterNonce s credential).1,.ok true) := by
      simp [Auth.serve,Auth.fallible,Auth.World.setNonce,Expiring.setIfAbsent_free held,afterNonce]
    rw [answer]
    simp [Except.toOption,enter,afterNonce]

end Requests

-- A request of the client is let in, as its account, exactly if it is in time, its
-- body not too long and its nonce new: the server reads its headers, and makes of
-- them the message that the client has signed.
theorem signed_request_admitted (kit : Kit) (server : Auth.Kit) (documented : kit.Documented server)
    (config : MemWalConfig) (serverConfig : Auth.Config) (s : Watched) (nowMs n : Nat) (method path json : String)
    (sealSession : Option String) (owner : Auth.Owner) (own : config.privateKey.length = 32)
    (date : nowMs ≤ maxDate) (account : config.accountId.toList.all graphic = true) (plain : plainPath path = true)
    (listed : Listed serverConfig s.1 config.accountId owner (kit.publicKey config.privateKey))
    (cached : ∀ row, s.1.cached (config.publicKeyHex kit) = some row → row.accountId = config.accountId) :
    LetIn server serverConfig s (signedRequest kit config nowMs (kit.randomUUID n) method path json sealSession)
      ⟨config.publicKeyHex kit,owner,config.accountId,none,sealSession.bind kit.header⟩ ↔
    InTime s.1 nowMs ∧ (encode (bodyStr method json)).length ≤ Auth.protectedBodyLimitBytes ∧
      Expiring.held s.1.nonces s.1.clock ("nonce:" ++ kit.randomUUID n) = false := by
  have verified := @signed_verified kit server config nowMs n method path json documented own
  have read : ∀ c, Faultless c → Auth.serve s.1 .readBody c = Auth.serve s.1 .readBody {} := by
    intro c usual
    simp only [Auth.serve,show c.fault = none from usual]
  have shape := @signedRequest_read kit server config nowMs n method path json sealSession documented account plain
  rw [LetIn,Auth.verifySignature,Alone.bind_iff,decodeRequest_signed documented own date account plain,Afterwards,Afterwards,
    call_bind read,check_bind,check_passed verified,recordNonce_bind,shape]
  constructor
  · intro alone
    rcases alone with ⟨timely,⟨short,rest⟩ | ⟨_,failed,_⟩⟩ | ⟨_,failed,_⟩
    · rcases rest with ⟨fresh,_⟩ | ⟨_,failed,_⟩
      · exact ⟨timely,short.2,fresh⟩
      · cases failed
    · cases failed
    · cases failed
  · intro ready
    obtain ⟨timely,short,fresh⟩ := ready
    refine .inl ⟨timely,.inl ⟨⟨rfl,short⟩,.inl ⟨fresh,?_⟩⟩⟩
    refine resolveAccount_listed listed cached ?_
    intro now same c _
    exact ⟨rfl,congrArg (· ++ _) same⟩

theorem sampleKit_documented : sampleKit.Documented Auth.sampleKit where
  hashes _ := rfl
  keys _ _ := ⟨rfl,rfl⟩
  signatures _ _ _ := ⟨rfl,rfl⟩
  headers _ plain := if_pos plain
  targets _ _ := rfl
  uuids n := by
    have spelled : ∀ m < 10, (Auth.sampleKit.uuidVersion (sampleKit.randomUUID m)).isSome = true ∧
        (sampleKit.randomUUID m).toList.all graphic = true := by decide +kernel
    have same : sampleKit.randomUUID n = sampleKit.randomUUID (n % 10) := by
      simp only [sampleKit,Nat.mod_mod]
    rw [same]
    exact spelled _ (Nat.mod_lt n (by decide))

def sampleServer : Watched :=
  ({clock := 1000500,
    objects := Store.empty.upsert "0xa"
      ⟨some (Auth.memwalAccountType Auth.sampleConfig),some ⟨some "0xo",some true,some [List.replicate 32 0]⟩⟩},[])

def sampleRequest : Auth.SignedRequest :=
  signedRequest sampleKit sampleClient 998000 (sampleKit.randomUUID 1) "POST" "/api/remember" "{}" (some "session")

def sampleIdentity : Auth.AuthInfo :=
  ⟨sampleClient.publicKeyHex sampleKit,"0xo",sampleClient.accountId,none,(some "session").bind sampleKit.header⟩

-- The server after the request.
def repeatedServer : Watched :=
  ({sampleServer.1 with nonces := Store.empty.upsert ("nonce:" ++ sampleKit.randomUUID 1) 1600500},[sampleIdentity])

-- Two seconds on the way are fine; the same request is not let in once more.
theorem sample_request_admitted :
    LetIn Auth.sampleKit Auth.sampleConfig sampleServer sampleRequest sampleIdentity ∧
    ¬ LetIn Auth.sampleKit Auth.sampleConfig repeatedServer sampleRequest sampleIdentity := by
  have listed : Listed Auth.sampleConfig sampleServer.1 sampleClient.accountId "0xo"
      (sampleKit.publicKey sampleClient.privateKey) := ⟨[List.replicate 32 0],by decide +kernel,by decide +kernel⟩
  have account : sampleClient.accountId.toList.all graphic = true := by decide +kernel
  have path : plainPath "/api/remember" = true := by decide +kernel
  have date : 998000 ≤ maxDate := by decide +kernel
  have cached : ∀ row, sampleServer.1.cached (sampleClient.publicKeyHex sampleKit) = some row →
      row.accountId = sampleClient.accountId := by
    intro row found
    cases found
  have again : ∀ row, repeatedServer.1.cached (sampleClient.publicKeyHex sampleKit) = some row →
      row.accountId = sampleClient.accountId := cached
  have listed' : Listed Auth.sampleConfig repeatedServer.1 sampleClient.accountId "0xo"
      (sampleKit.publicKey sampleClient.privateKey) := listed
  unfold sampleRequest sampleIdentity
  constructor
  · rw [signed_request_admitted sampleKit Auth.sampleKit sampleKit_documented sampleClient Auth.sampleConfig sampleServer
      998000 1 "POST" "/api/remember" "{}" (some "session") "0xo" rfl date account path listed cached]
    exact ⟨by decide +kernel,by decide +kernel,by decide +kernel⟩
  · rw [signed_request_admitted sampleKit Auth.sampleKit sampleKit_documented sampleClient Auth.sampleConfig
      repeatedServer 998000 1 "POST" "/api/remember" "{}" (some "session") "0xo" rfl date account path listed' again]
    intro ready
    exact absurd ready.2.2 (by decide +kernel)

end MemWal.Sdk
