import MemWal.Funding.Snapshot
import MemWal.Library.Numerals

namespace MemWal.Funding.Payout
open Library

structure Intent where
  network : String
  sender : String
  walType : String
  payoutManifest : String
  writers : WriterAddresses
  mistPerAddress : Nat
  frostPerAddress : Nat
  gasBudget : Nat
  deriving DecidableEq, Repr

-- The intent of a run, whose WAL type was read off the chain.
structure RunIntent (kit : ScriptKit) where
  intent : Intent
  notSui : kit.normalizeStructTag intent.walType ≠ kit.normalizeStructTag suiType

def RunIntent.funding {kit : ScriptKit} (run : RunIntent kit) : FundingIntent kit.toKit :=
  ⟨run.intent.sender,run.intent.walType,run.intent.writers,run.intent.mistPerAddress,run.intent.frostPerAddress,
    run.intent.gasBudget,run.notSui⟩

structure SignedTransaction where
  bytes : Bytes
  signature : String
  digest : String
  deriving DecidableEq, Repr

def jsonOf (writers : WriterAddresses) : Json :=
  .object (writers.map (fun entry => (entry.1,.array (entry.2.map .string))))

def Intent.members (intent : Intent) : Json.Members := [("network",.string intent.network),("sender",.string intent.sender),
  ("walType",.string intent.walType),("payoutManifest",.string intent.payoutManifest),("writers",jsonOf intent.writers),
  ("mistPerAddress",.string (toString intent.mistPerAddress)),
  ("frostPerAddress",.string (toString intent.frostPerAddress)),("gasBudget",.string (toString intent.gasBudget))]

def Intent.json (intent : Intent) : Json := .object intent.members

def SignedTransaction.members (kit : ScriptKit) (signed : SignedTransaction) : Json.Members :=
  [("transactionBytes",.string (kit.encode64 signed.bytes)),("signature",.string signed.signature),
    ("digest",.string signed.digest)]

def SignedTransaction.json (kit : ScriptKit) (signed : SignedTransaction) : Json := .object (signed.members kit)

-- A journal with a transaction: the object and what the script reads in it.
structure FundingJournal (kit : ScriptKit) where
  members : Json.Members
  signed : SignedTransaction
  carried : Json.field "transaction" members = some (signed.json kit)

def fundingJournalSchemaVersion : Nat := 1

section Journals
variable (kit : ScriptKit)

def FundingJournal.assign {kit : ScriptKit} (journal : FundingJournal kit) (key : String) (value : Json)
    (other : "transaction" ≠ key) : FundingJournal kit :=
  ⟨Json.assign key value journal.members,journal.signed,(Json.field_assign_other other).trans journal.carried⟩

def FundingJournal.status {kit : ScriptKit} (journal : FundingJournal kit) : Option Json :=
  Json.field "status" journal.members

def isText (value : Option Json) (text : String) : Bool :=
  match value with
  | some (.string found) => decide (found = text)
  | _ => false

def digits (text : String) : Option Nat :=
  if text.toList ≠ [] ∧ text.toList.all Char.isDigit = true then some (Numerals.read 10 text.toList) else none

def parseAmount (v what : String) : Except String Nat := do
  let n ← Fallible.require (digits v) (what ++ " must be a whole number of base units, got " ++ kit.stringify v)
  Fallible.ensure (n ≠ 0) (what ++ " must be greater than 0")
  return n

def normalizeJson (manifest : Option Json) : Except String WriterAddresses :=
  match manifest with
  | some (.object members) => normalizeManifest kit (members.map (fun member => (member.1,some member.2)))
  | _ => .error "payout manifest must be an object mapping writer ids to ordered address arrays"

def parseWriters (raw what : String) : Except String WriterAddresses := do
  let parsed ← Fallible.require (kit.parse raw) (what ++ " is not valid JSON")
  normalizeJson kit (some parsed)

def fundingIntent (network sender walType payoutManifest : String) (writers : WriterAddresses)
    (mistPer frostPer gasBudget : Nat) : Except String Intent := do
  let sender ← assertAddress kit.toKit sender "funding sender"
  let writers ← normalizeWriters kit.toKit writers
  return ⟨network,sender,kit.normalizeStructTag walType,payoutManifest,writers,mistPer,frostPer,gasBudget⟩

def canonicalBase64 (value : Option Json) (what : String) : Except String Bytes := do
  let encoded ← requireString value what
  let bytes := kit.decode64 encoded
  Fallible.ensure (bytes ≠ [] ∧ kit.encode64 bytes = encoded) (what ++ " must be canonical base64")
  return bytes

def readIntent (intentRaw : Json.Members) : Except String Intent := do
  let network ← requireString (Json.field "network" intentRaw) "journal intent network"
  let sender ← requireString (Json.field "sender" intentRaw) "journal intent sender"
  let walType ← requireString (Json.field "walType" intentRaw) "journal intent WAL type"
  let payoutManifest ← requireString (Json.field "payoutManifest" intentRaw) "journal intent payout manifest"
  let writers ← normalizeJson kit (Json.field "writers" intentRaw)
  let mistPer ← parseAmount kit (← requireString (Json.field "mistPerAddress" intentRaw) "journal MIST per address")
    "journal MIST per address"
  let frostPer ← parseAmount kit (← requireString (Json.field "frostPerAddress" intentRaw) "journal FROST per address")
    "journal FROST per address"
  let gasBudget ← parseAmount kit (← requireString (Json.field "gasBudget" intentRaw) "journal gas budget")
    "journal gas budget"
  fundingIntent kit network sender walType payoutManifest writers mistPer frostPer gasBudget

def readTransaction (run : RunIntent kit) (root : Json.Members) : Except String SignedTransaction := do
  let transaction ← requireRecord (Json.field "transaction" root) "funding journal transaction"
  let bytes ← canonicalBase64 kit (Json.field "transactionBytes" transaction) "journal transactionBytes"
  let signature ← requireString (Json.field "signature" transaction) "journal transaction signature"
  let digest ← requireString (Json.field "digest" transaction) "journal transaction digest"
  Fallible.ensure (digest = kit.digestOf bytes)
    ("funding journal digest mismatch: expected " ++ digest ++ ", got " ++ kit.digestOf bytes)
  let _ ← assertFundingTransaction kit.toKit run.funding bytes
  Fallible.ensure (kit.verify bytes signature run.intent.sender = true) "Provided signature is invalid"
  return ⟨bytes,signature,digest⟩

def resumable : List String := ["prepared","succeeded","failed"]

def readFundingJournal (run : RunIntent kit) (nowMs : Int) (parsed : Json) : Except String (FundingJournal kit) := do
  let root ← requireRecord (some parsed) "funding journal"
  Fallible.ensure (isInteger (Json.field "schemaVersion" root) fundingJournalSchemaVersion = true ∧
      isText (Json.field "kind" root) "walrus-memory-funding" = true)
    "funding journal has an unsupported schema or kind"
  Fallible.ensure ((Json.field "status" root).elim "undefined" Json.text ∈ resumable)
    "funding journal is not a resumable signed transaction"
  let intentRaw ← requireRecord (Json.field "intent" root) "funding journal intent"
  let journalIntent ← readIntent kit intentRaw
  Fallible.ensure (journalIntent.network = "mainnet" ∨ journalIntent.network = "testnet")
    "funding journal network must be mainnet or testnet"
  Fallible.ensure (journalIntent = run.intent) "funding journal intent does not exactly match this run"
  let liveSnapshot ← Fallible.require ((Json.field "liveSnapshot" root).filter (fun value => Json.truthy (some value)))
    "funding journal is missing its original live snapshot"
  let originalSnapshot ← readLiveWriterSnapshot kit liveSnapshot nowMs false
  assertSnapshotMatchesWriters run.intent.writers originalSnapshot
  let signed ← readTransaction kit run root
  return ⟨Json.assign "transaction" (signed.json kit)
    (Json.assign "liveSnapshot" originalSnapshot.json (Json.assign "intent" journalIntent.json root)),signed,
    Json.field_assign⟩

def parseFundingJournal (raw : String) (run : RunIntent kit) (nowMs : Int) : Except String (FundingJournal kit) := do
  let parsed ← Fallible.require (kit.parse raw) "FUNDING_JOURNAL_JSON is not valid JSON"
  readFundingJournal kit run nowMs parsed

-- The journal of a signed transaction before anything was sent.
def preparedJournal (now : String) (intent : Intent) (liveSnapshot : LiveWriterSnapshot) (signed : SignedTransaction) :
    FundingJournal kit where
  members := [("schemaVersion",.nat fundingJournalSchemaVersion),("kind",.string "walrus-memory-funding"),
    ("status",.string "prepared"),("createdAt",.string now),("updatedAt",.string now),("intent",intent.json),
    ("liveSnapshot",liveSnapshot.json),("transaction",signed.json kit)]
  signed := signed
  carried := by simp [Json.field]

-- The journal of a dry run carries no transaction.
def simulatedJournal (now : String) (intent : Intent) (liveSnapshot : Option LiveWriterSnapshot) : Json.Members :=
  [("schemaVersion",.nat fundingJournalSchemaVersion),("kind",.string "walrus-memory-funding"),
    ("status",.string "simulated"),("createdAt",.string now),("updatedAt",.string now),("intent",intent.json)] ++
    (liveSnapshot.map (fun snapshot => ("liveSnapshot",snapshot.json))).toList

-- A transaction as the chain reports it.
structure Observed where
  digest : Option String
  success : Option Bool
  error : Option Json

def observedJournal (journal : FundingJournal kit) (source updatedAt observedAt : String) (success : Bool)
    (error : Option Json) : FundingJournal kit :=
  ((journal.assign "status" (.string (if success then "succeeded" else "failed")) (by decide)).assign
    "updatedAt" (.string updatedAt) (by decide)).assign "execution"
    (.object ([("observedAt",.string observedAt),("source",.string source),("success",.bool success)] ++
      if success then [] else (error.map (fun error => ("error",error))).toList)) (by decide)

-- The checks of `recordObservedTransaction`, with what they find.
def definitive (journal : FundingJournal kit) (result : Option Observed) : Except String (Bool × Option Json) := do
  let mismatch := "funding response digest mismatch: expected " ++ journal.signed.digest ++ ", got " ++
    ((result.bind Observed.digest).getD "undefined")
  let transaction ← Fallible.require result mismatch
  Fallible.ensure (transaction.digest = some journal.signed.digest) mismatch
  let success ← Fallible.require transaction.success "funding response has no definitive execution status"
  return (success,transaction.error)

def errorText : Json → String
  | .string text => text
  | error => kit.print error

def requireSuccess (result : Option Observed) (context : String) : Except String Observed := do
  let tx ← Fallible.require result (context ++ ": gRPC response has no transaction")
  Fallible.ensure (tx.success = some true) (context ++ ": " ++ tx.error.elim "undefined" (errorText kit))
  return tx

end Journals

-- An intent as a run makes it.
section Normal
variable (kit : ScriptKit)

structure PayableWriters (writers : WriterAddresses) : Prop where
  ids : ∀ entry ∈ writers, Filled entry.1 ∧ entry.2 ≠ []
  valid : ∀ entry ∈ writers, ∀ a ∈ entry.2, kit.isValidSuiAddress a = true
  normal : ∀ entry ∈ writers, ∀ a ∈ entry.2, trim a = a ∧ kit.normalizeSuiAddress a = a
  some_ : writers.flatMap Prod.snd ≠ []
  distinct : (writers.flatMap Prod.snd).Nodup
  few : (writers.flatMap Prod.snd).length ≤ maxRecipients

structure Intent.Normal (intent : Intent) : Prop where
  network : intent.network = "mainnet" ∨ intent.network = "testnet"
  sender : kit.isValidSuiAddress intent.sender = true ∧ kit.normalizeSuiAddress intent.sender = intent.sender
  named : Filled intent.sender
  walType : Filled intent.walType ∧ kit.normalizeStructTag intent.walType = intent.walType
  payoutManifest : Filled intent.payoutManifest
  writers : PayableWriters kit intent.writers
  amounts : intent.mistPerAddress ≠ 0 ∧ intent.frostPerAddress ≠ 0 ∧ intent.gasBudget ≠ 0

-- What the script asks of a signed transaction before it writes or sends it.
structure SignedTransaction.Accepted (run : RunIntent kit) (signed : SignedTransaction) : Prop where
  digest : signed.digest = kit.digestOf signed.bytes
  pays : ∃ data, assertFundingTransaction kit.toKit run.funding signed.bytes = .ok data
  verified : kit.verify signed.bytes signed.signature run.intent.sender = true

-- What a journal of a paid run says.
structure FundingJournal.Carries {kit : ScriptKit} (run : RunIntent kit) (journal : FundingJournal kit) : Prop where
  version : isInteger (Json.field "schemaVersion" journal.members) fundingJournalSchemaVersion = true
  kind : isText (Json.field "kind" journal.members) "walrus-memory-funding" = true
  status : journal.status.elim "undefined" Json.text ∈ resumable
  intent : Json.field "intent" journal.members = some run.intent.json
  snapshot : ∃ snapshot, Json.field "liveSnapshot" journal.members = some (LiveWriterSnapshot.json snapshot) ∧
    snapshot.WellFormed kit ∧ assertSnapshotMatchesWriters run.intent.writers snapshot = .ok ()
  accepted : journal.signed.Accepted kit run

end Normal

section Reading
variable {kit : ScriptKit} {run : RunIntent kit} {journal : FundingJournal kit}

theorem parseAmount_back {n : Nat} (some_ : n ≠ 0) (what : String) : parseAmount kit (toString n) what = .ok n := by
  have text : (toString n).toList = Nat.toDigits 10 n := by simp [toString]
  have whole : (toString n).toList.all Char.isDigit = true := by
    rw [text]
    exact List.all_eq_true.mpr (fun c member => Nat.isDigit_of_mem_toDigits (by decide) (by decide) member)
  have there : (toString n).toList ≠ [] := by
    rw [text]
    exact Nat.toDigits_ne_nil
  have value : digits (toString n) = some n := by
    rw [digits,if_pos ⟨there,whole⟩,text,Numerals.read_toDigits (by decide) (by decide)]
  simp only [parseAmount,value,Fallible.require,ok_bind,ensure_holds some_]
  rfl

theorem digit_solid {c : Char} (digit : c.isDigit = true) : isTrimmed c = false := by
  simp only [Char.isDigit,Bool.and_eq_true,decide_eq_true_eq,ge_iff_le,UInt32.le_iff_toNat_le] at digit
  have low : 48 ≤ c.toNat := digit.1
  have high : c.toNat ≤ 57 := digit.2
  simp only [isTrimmed,Bool.or_eq_false_iff,Bool.and_eq_false_iff,decide_eq_false_iff_not]
  refine ⟨⟨by omega,by omega⟩,?_⟩
  simp only [List.mem_cons,List.not_mem_nil,or_false]
  omega

theorem trim_solid {text : String} (solid : ∀ c ∈ text.toList, isTrimmed c = false) : trim text = text := by
  have front : text.toList.dropWhile isTrimmed = text.toList := by
    cases letters : text.toList with
    | nil => rfl
    | cons c rest => rw [List.dropWhile_cons_of_neg (by simp [solid c (letters ▸ List.mem_cons_self)])]
  have back : text.toList.reverse.dropWhile isTrimmed = text.toList.reverse := by
    cases letters : text.toList.reverse with
    | nil => rfl
    | cons c rest =>
      have inside : c ∈ text.toList := List.mem_reverse.mp (letters ▸ List.mem_cons_self)
      rw [List.dropWhile_cons_of_neg (by simp [solid c inside])]
  rw [trim,front,back,List.reverse_reverse,String.ofList_toList]

theorem amount_filled (n : Nat) : Filled (toString n) := by
  have text : (toString n).toList = Nat.toDigits 10 n := by simp [toString]
  have solid : ∀ c ∈ (toString n).toList, isTrimmed c = false := by
    intro c member
    rw [text] at member
    exact digit_solid (Nat.isDigit_of_mem_toDigits (by decide) (by decide) member)
  rw [Filled,trim_solid solid]
  intro blank
  have letters := congrArg String.toList blank
  rw [text] at letters
  exact Nat.toDigits_ne_nil letters

theorem mapM_back {α β : Type} {f : β → Except String α} {h : α → β} {xs : List α} (each : ∀ x ∈ xs, f (h x) = .ok x) :
    (xs.map h).mapM f = .ok xs := by
  induction xs with
  | nil => rfl
  | cons x rest ih =>
    rw [List.map_cons,List.mapM_cons,each x List.mem_cons_self,ok_bind,
      ih (fun y member => each y (List.mem_cons_of_mem _ member)),ok_bind]
    rfl

theorem recipients_back {writers : WriterAddresses} (payable : PayableWriters kit writers) :
    checkRecipients writers = .ok writers :=
  checkRecipients_ok.mpr ⟨rfl,payable.some_,payable.distinct,payable.few⟩

theorem writers_back {writers : WriterAddresses} (payable : PayableWriters kit writers) :
    normalizeWriters kit.toKit writers = .ok writers := by
  have each : (writers.map id).mapM (normalizeWriter kit.toKit) = .ok writers := by
    apply mapM_back
    intro entry member
    obtain ⟨named,some_⟩ := payable.ids entry member
    exact (writer_back named some_ (payable.valid entry member) (payable.normal entry member)).1
  rw [List.map_id] at each
  rw [normalizeWriters,each,ok_bind,recipients_back payable]

theorem json_back {writers : WriterAddresses} (payable : PayableWriters kit writers) :
    normalizeJson kit (some (jsonOf writers)) = .ok writers := by
  have each : (writers.map (fun entry => (entry.1,some (Json.array (entry.2.map .string))))).mapM (normalizeEntry kit) =
      .ok writers := by
    apply mapM_back
    intro entry member
    obtain ⟨named,some_⟩ := payable.ids entry member
    exact (writer_back named some_ (payable.valid entry member) (payable.normal entry member)).2
  have members : (writers.map (fun entry => (entry.1,Json.array (entry.2.map .string)))).map
      (fun member => (member.1,some member.2)) =
      writers.map (fun entry => (entry.1,some (Json.array (entry.2.map .string)))) := by
    rw [List.map_map]
    rfl
  rw [jsonOf,normalizeJson,members,normalizeManifest,each,ok_bind,recipients_back payable]

section Members
variable (intent : Intent)

theorem intent_network : Json.field "network" intent.members = some (.string intent.network) := by
  simp [Intent.members,Json.field]

theorem intent_sender : Json.field "sender" intent.members = some (.string intent.sender) := by
  simp [Intent.members,Json.field]

theorem intent_walType : Json.field "walType" intent.members = some (.string intent.walType) := by
  simp [Intent.members,Json.field]

theorem intent_manifest : Json.field "payoutManifest" intent.members = some (.string intent.payoutManifest) := by
  simp [Intent.members,Json.field]

theorem intent_writers : Json.field "writers" intent.members = some (jsonOf intent.writers) := by
  simp [Intent.members,Json.field]

theorem intent_mist : Json.field "mistPerAddress" intent.members = some (.string (toString intent.mistPerAddress)) := by
  simp [Intent.members,Json.field]

theorem intent_frost : Json.field "frostPerAddress" intent.members = some (.string (toString intent.frostPerAddress)) := by
  simp [Intent.members,Json.field]

theorem intent_gas : Json.field "gasBudget" intent.members = some (.string (toString intent.gasBudget)) := by
  simp [Intent.members,Json.field]

end Members

theorem intent_back {intent : Intent} (normal : intent.Normal kit) : readIntent kit intent.members = .ok intent := by
  have network : Filled intent.network := by
    rcases normal.network with equal | equal <;> (rw [equal]; decide +kernel)
  have sender : assertAddress kit.toKit intent.sender "funding sender" = .ok intent.sender :=
    assertAddress_ok.mpr normal.sender
  rw [readIntent,intent_network,requireString_filled network,ok_bind,intent_sender,requireString_filled normal.named,
    ok_bind,intent_walType,requireString_filled normal.walType.1,ok_bind,intent_manifest,
    requireString_filled normal.payoutManifest,ok_bind,intent_writers,json_back normal.writers,ok_bind,intent_mist,
    requireString_filled (amount_filled _),ok_bind,parseAmount_back normal.amounts.1,ok_bind,intent_frost,
    requireString_filled (amount_filled _),ok_bind,parseAmount_back normal.amounts.2.1,ok_bind,intent_gas,
    requireString_filled (amount_filled _),ok_bind,parseAmount_back normal.amounts.2.2,ok_bind,fundingIntent,sender,
    ok_bind,writers_back normal.writers,ok_bind,normal.walType.2]
  rfl

theorem signed_filled (documented : kit.Documented) {signed : SignedTransaction} (accepted : signed.Accepted kit run) :
    signed.bytes ≠ [] ∧ Filled (kit.encode64 signed.bytes) ∧ Filled signed.signature ∧ Filled signed.digest := by
  obtain ⟨data,pays⟩ := accepted.pays
  have some_ : signed.bytes ≠ [] := by
    intro empty
    rw [empty,assertFundingTransaction,documented.empty] at pays
    cases pays
  refine ⟨some_,documented.encoded _ some_,documented.signed _ _ _ accepted.verified,?_⟩
  rw [accepted.digest]
  exact documented.digested _

theorem signed_bytes (signed : SignedTransaction) :
    Json.field "transactionBytes" (signed.members kit) = some (.string (kit.encode64 signed.bytes)) := by
  simp [SignedTransaction.members,Json.field]

theorem signed_signature (signed : SignedTransaction) :
    Json.field "signature" (signed.members kit) = some (.string signed.signature) := by
  simp [SignedTransaction.members,Json.field]

theorem signed_digest (signed : SignedTransaction) :
    Json.field "digest" (signed.members kit) = some (.string signed.digest) := by
  simp [SignedTransaction.members,Json.field]

theorem transaction_back (documented : kit.Documented) {signed : SignedTransaction} (accepted : signed.Accepted kit run)
    {root : Json.Members} (carried : Json.field "transaction" root = some (signed.json kit)) :
    readTransaction kit run root = .ok signed := by
  obtain ⟨some_,encoded,signature,digest⟩ := signed_filled documented accepted
  obtain ⟨data,pays⟩ := accepted.pays
  have bytes : canonicalBase64 kit (some (.string (kit.encode64 signed.bytes))) "journal transactionBytes" =
      .ok signed.bytes := by
    rw [canonicalBase64,requireString_filled encoded,ok_bind]
    simp only [documented.decodes]
    rw [ensure_holds (And.intro some_ trivial),ok_bind]
    rfl
  have members : requireRecord (Json.field "transaction" root) "funding journal transaction" = .ok (signed.members kit) := by
    rw [carried]
    rfl
  rw [readTransaction,members,ok_bind,signed_bytes,bytes,ok_bind,signed_signature,requireString_filled signature,ok_bind,
    signed_digest,requireString_filled digest,ok_bind,ensure_holds accepted.digest,ok_bind,pays,ok_bind,
    ensure_holds accepted.verified,ok_bind]
  rfl

theorem readTransaction_accepted {root : Json.Members} {signed : SignedTransaction}
    (read : readTransaction kit run root = .ok signed) : signed.Accepted kit run := by
  simp only [readTransaction,Fallible.bind_ok,Fallible.pure_ok,Fallible.ensure_ok,exists_const] at read
  obtain ⟨_,_,bytes,_,signature,_,digest,_,same,data,pays,verified,rfl⟩ := read
  exact ⟨same,⟨data,pays⟩,verified⟩

theorem FundingJournal.ext {first second : FundingJournal kit} (members : first.members = second.members)
    (signed : first.signed = second.signed) : first = second := by
  cases first
  cases second
  cases members
  cases signed
  rfl

theorem read_carries (documented : kit.Documented) {nowMs : Int} {parsed : Json}
    (read : readFundingJournal kit run nowMs parsed = .ok journal) : journal.Carries run := by
  simp only [readFundingJournal,Fallible.bind_ok,Fallible.pure_ok,Fallible.ensure_ok,exists_const] at read
  obtain ⟨root,_,⟨version,kind⟩,status,_,_,_,_,_,rfl,_,_,snapshot,readSnapshot,_,matched,signed,readSigned,rfl⟩ := read
  have kept : ∀ key, key ≠ "transaction" → key ≠ "liveSnapshot" → key ≠ "intent" →
      Json.field key (Json.assign "transaction" (signed.json kit)
        (Json.assign "liveSnapshot" snapshot.json (Json.assign "intent" run.intent.json root))) = Json.field key root := by
    intro key first second third
    rw [Json.field_assign_other first,Json.field_assign_other second,Json.field_assign_other third]
  refine ⟨?_,?_,?_,?_,⟨snapshot,?_,read_wellFormed documented readSnapshot,matched⟩,readTransaction_accepted readSigned⟩
  · rw [kept _ (by decide) (by decide) (by decide)]
    exact version
  · rw [kept _ (by decide) (by decide) (by decide)]
    exact kind
  · rw [FundingJournal.status,kept _ (by decide) (by decide) (by decide)]
    exact status
  · rw [Json.field_assign_other (by decide),Json.field_assign_other (by decide),Json.field_assign]
  · rw [Json.field_assign_other (by decide),Json.field_assign]

theorem carries_back (documented : kit.Documented) (normal : run.intent.Normal kit) (carries : journal.Carries run)
    (nowMs : Int) : readFundingJournal kit run nowMs (.object journal.members) = .ok journal := by
  obtain ⟨snapshot,live,wellFormed,matched⟩ := carries.snapshot
  have there : ((Json.field "liveSnapshot" journal.members).filter (fun value => Json.truthy (some value))) =
      some snapshot.json := by
    rw [live]
    rfl
  have record : requireRecord (Json.field "intent" journal.members) "funding journal intent" =
      .ok run.intent.members := by
    rw [carries.intent]
    rfl
  have root : requireRecord (some (.object journal.members)) "funding journal" = .ok journal.members := rfl
  have network := normal.network
  have status : (Json.field "status" journal.members).elim "undefined" Json.text ∈ resumable := carries.status
  rw [readFundingJournal,root,ok_bind,ensure_holds ⟨carries.version,carries.kind⟩,ok_bind,
    ensure_holds status,ok_bind,record,ok_bind,intent_back normal,ok_bind,
    ensure_holds network,ok_bind,ensure_holds rfl,ok_bind,there,Fallible.require,ok_bind,
    snapshot_back wellFormed nowMs,ok_bind,matched,ok_bind,transaction_back documented carries.accepted journal.carried,
    ok_bind]
  refine congrArg Except.ok (FundingJournal.ext ?_ rfl)
  change Json.assign "transaction" _ (Json.assign "liveSnapshot" _ (Json.assign "intent" _ _)) = _
  rw [Json.assign_same carries.intent,Json.assign_same live,Json.assign_same journal.carried]

theorem parsed_carries (documented : kit.Documented) {run : RunIntent kit} {raw : String} {nowMs : Int}
    {journal : FundingJournal kit} (parsed : parseFundingJournal kit raw run nowMs = .ok journal) : journal.Carries run := by
  obtain ⟨value,_,read⟩ := Fallible.bind_ok.mp parsed
  exact read_carries documented read

-- What is accepted is a journal of the same intent, and a text that says what a
-- journal of that intent says gives that journal back, now and at any later time.
theorem journal_round_trip (kit : ScriptKit) (documented : kit.Documented) (run : RunIntent kit)
    (normal : run.intent.Normal kit) :
    (∀ raw nowMs journal, parseFundingJournal kit raw run nowMs = .ok journal → journal.Carries run) ∧
    ∀ raw (journal : FundingJournal kit), kit.parse raw = some (.object journal.members) → ∀ nowMs,
      parseFundingJournal kit raw run nowMs = .ok journal ↔ journal.Carries run := by
  refine ⟨fun _ _ _ => parsed_carries documented,?_⟩
  intro raw journal reads nowMs
  refine ⟨parsed_carries documented,?_⟩
  intro carries
  rw [parseFundingJournal,reads,Fallible.require,ok_bind]
  exact carries_back documented normal carries nowMs

end Reading

-- The journal of a run that pays the two writers.

def sampleRunIntent : Intent where
  network := "mainnet"
  sender := sampleSender
  walType := sampleWal
  payoutManifest := "distribute-funds.mainnet.json"
  writers := [("writer-0",[sampleWriter]),("writer-1",[otherWriter])]
  mistPerAddress := 10
  frostPerAddress := 20
  gasBudget := 1000

def sampleSigned : SignedTransaction := ⟨[0,0,0],"AHBheW91dA","4Nh1cUxMYFJrbgvA9k6TGhyz1H7cyCMAaMJxUFkZBdPm"⟩

def sampleMembers : Json.Members := (preparedJournal (sampleScript sampleTexts) "2026-01-01T00:01:00.000Z" sampleRunIntent
  sampleSnapshot sampleSigned).members

def journalTexts (text : String) : Option Json :=
  if text = layout "" (.object sampleMembers) then some (.object sampleMembers) else none

theorem journalTexts_journal : journalTexts (layout "" (.object sampleMembers)) = some (.object sampleMembers) := if_pos rfl

def sampleRun : RunIntent (sampleScript journalTexts) where
  intent := sampleRunIntent
  notSui := sampleIntent.notSui

theorem sampleRun_normal : sampleRun.intent.Normal (sampleScript journalTexts) where
  network := .inl rfl
  sender := by decide +kernel
  named := by decide +kernel
  walType := by decide +kernel
  payoutManifest := by decide +kernel
  writers := ⟨by decide +kernel,by decide +kernel,by decide +kernel,by decide +kernel,by decide +kernel,by decide +kernel⟩
  amounts := by decide +kernel

theorem sampleJournal_read : ∃ journal,
    parseFundingJournal (sampleScript journalTexts) (layout "" (.object sampleMembers)) sampleRun 0 = .ok journal ∧
      journal.Carries sampleRun := by
  have parses : (sampleScript journalTexts).parse (layout "" (.object sampleMembers)) = some (.object sampleMembers) := by
    rw [sampleScript_parse,journalTexts_journal]
  have accepted : (readFundingJournal (sampleScript journalTexts) sampleRun 0 (.object sampleMembers)).isOk = true := by
    decide +kernel
  cases read : readFundingJournal (sampleScript journalTexts) sampleRun 0 (.object sampleMembers) with
  | error message =>
    rw [read] at accepted
    cases accepted
  | ok journal =>
    have parsed : parseFundingJournal (sampleScript journalTexts) (layout "" (.object sampleMembers)) sampleRun 0 =
        .ok journal := by
      rw [parseFundingJournal,parses,Fallible.require,ok_bind,read]
    have trip := journal_round_trip _ (sampleScript_documented journalTexts) sampleRun sampleRun_normal
    exact ⟨journal,parsed,trip.1 _ _ _ parsed⟩

end MemWal.Funding.Payout
