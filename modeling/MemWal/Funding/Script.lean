import MemWal.Funding.Journal
import MemWal.Library.Crews

namespace MemWal.Funding.Payout
open Library

-- What `walTypeForNetwork` reads off the chain.
structure WalType (kit : ScriptKit) where
  text : String
  filled : Filled text
  normal : kit.normalizeStructTag text = text
  notSui : text ≠ kit.normalizeStructTag suiType

inductive ErrorCode where
  | text (code : String)
  | number (code : Int)
  deriving DecidableEq, Repr

structure ClientError where
  code : Option ErrorCode
  message : String
  deriving DecidableEq, Repr

-- What the log keeps of a journal with a transaction.
structure Note (kit : ScriptKit) where
  fresh : Bool
  run : RunIntent kit
  journal : FundingJournal kit

inductive Op (kit : ScriptKit) where
  | now
  | journalJson
  | readManifest (network : String)
  | walType (network : String)
  | balance (owner coinType : String)
  | build (intent : Intent)
  | simulate (bytes : Bytes)
  | writeJournal (path : String) (members : Json.Members) (note : Option (Note kit))
  | getTransaction (digest : String)
  | executeTransaction (signed : SignedTransaction)
  | print (digest : String) (deferred : Bool)

@[reducible] def Answer (kit : ScriptKit) : Op kit → Type
  | .now => Int
  | .journalJson => Option String
  | .readManifest _ => Except String String
  | .walType _ => Except String (WalType kit)
  | .balance _ _ => Except String Nat
  | .build _ => Except String Bytes
  | .simulate _ => Except String (Option Observed)
  | .writeJournal _ _ _ => Except String Unit
  | .getTransaction _ => Except ClientError (Option (Option Observed))
  | .executeTransaction _ => Except String (Option Observed)
  | .print _ _ => Unit

-- The disk, and the transactions on the chain by their digest. `written`,
-- `submitted` and `supplied` are histories, the last one of the journals that runs
-- were given to resume; `begun` counts the runs that were given none, and `tickets`
-- names those of them that have not written a journal yet.
structure World (kit : ScriptKit) where
  clock : Int := 0
  disk : Store String String := .empty
  chain : Store String Bool := .empty
  written : List (Note kit) := []
  submitted : List SignedTransaction := []
  supplied : List String := []
  begun : Nat := 0
  tickets : Store Nat Unit := .empty

-- How a lookup goes: a node tells what it knows of the transaction, is behind,
-- answers with nothing or about another one, or fails.
inductive Lookup where
  | answered
  | behind
  | nothing
  | other (result : Option Observed)
  | failed (error : ClientError)

-- `failure` is the message that the caller gets, `reached` whether the call took
-- effect all the same, `lands` what becomes of a transaction at once.
structure Choice (kit : ScriptKit) where
  journal : Option String := none
  failure : Option String := none
  reached : Bool := true
  text : String := ""
  bytes : Bytes := []
  amount : Nat := 0
  walType : Option (WalType kit) := none
  result : Option Observed := none
  lookup : Lookup := .answered
  lands : Option Bool := none
  error : Option Json := none

section Serve
variable {kit : ScriptKit}

def journalText (kit : ScriptKit) (members : Json.Members) : String := kit.pretty (.object members) ++ "\n"

def notFound (digest : String) : ClientError := ⟨some (.text "NOT_FOUND"),"Transaction " ++ digest ++ " not found"⟩

def answer {α : Type} (failure : Option String) (value : α) : Except String α :=
  match failure with
  | some message => .error message
  | none => .ok value

def World.begin_ (s : World kit) (worker : Nat) : Option String → World kit
  | some raw => {s with supplied := s.supplied ++ [raw]}
  | none => {s with begun := s.begun + 1, tickets := s.tickets.upsert worker ()}

def World.write (s : World kit) (worker : Nat) (path : String) (members : Json.Members) : Option (Note kit) → World kit
  | none => {s with disk := s.disk.upsert path (journalText kit members)}
  | some note => {s with
      disk := s.disk.upsert path (journalText kit members)
      written := s.written ++ [note]
      tickets := if note.fresh then s.tickets.erase worker else s.tickets}

-- A digest is executed once.
def World.land (s : World kit) (digest : String) (success : Bool) : World kit :=
  match s.chain.get? digest with
  | some _ => s
  | none => {s with chain := s.chain.upsert digest success}

def World.known (s : World kit) (digest : String) (error : Option Json) : Option Observed :=
  (s.chain.get? digest).map (fun success => ⟨some digest,some success,error⟩)

def World.lookUp (s : World kit) (digest : String) (error : Option Json) :
    Lookup → Except ClientError (Option (Option Observed))
  | .answered =>
    match s.known digest error with
    | some observed => .ok (some (some observed))
    | none => .error (notFound digest)
  | .behind => .error (notFound digest)
  | .nothing => .ok none
  | .other result =>
    .ok (some (if result.bind Observed.digest = some digest then s.known digest error else result))
  | .failed error => .error error

def World.submit (s : World kit) (signed : SignedTransaction) (lands : Option Bool) : World kit :=
  let sent := {s with submitted := s.submitted ++ [signed]}
  match lands with
  | some success => sent.land (kit.digestOf signed.bytes) success
  | none => sent

-- A node that has executed the transaction says how it went.
def World.executed (s : World kit) (signed : SignedTransaction) (c : Choice kit) : Except String (Option Observed) :=
  match c.failure with
  | some message => .error message
  | none =>
    match s.known (kit.digestOf signed.bytes) c.error with
    | some observed => .ok (if c.lookup matches .nothing then none else some observed)
    | none => .error "timed out"

def serve (s : World kit) (worker : Nat) : (op : Op kit) → Choice kit → World kit × Answer kit op
  | .now,_ => (s,s.clock)
  | .journalJson,c => (s.begin_ worker c.journal,c.journal)
  | .readManifest _,c => (s,answer c.failure c.text)
  | .walType _,c => (s,match c.walType with
    | some walType => .ok walType
    | none => .error (c.failure.getD "could not read the WAL type"))
  | .balance _ _,c => (s,answer c.failure c.amount)
  | .build _,c => (s,answer c.failure c.bytes)
  | .simulate _,c => (s,answer c.failure c.result)
  | .writeJournal path members note,c =>
    (if c.failure.isNone || c.reached then s.write worker path members note else s,answer c.failure ())
  | .getTransaction digest,c => (s,s.lookUp digest c.error c.lookup)
  | .executeTransaction signed,c =>
    let next := if c.failure.isNone || c.reached then s.submit signed c.lands else s
    (next,next.executed signed c)
  | .print _ _,_ => (s,())

inductive Event where
  | wait (milliseconds : Nat)
  | lands (digest : String) (success : Bool)
  | put (path text : String)
  | remove (path : String)
  deriving DecidableEq, Repr

def happen (s : World kit) : Event → World kit
  | .wait milliseconds => {s with clock := s.clock + milliseconds}
  | .lands digest success =>
    if digest ∈ s.submitted.map (fun sent => kit.digestOf sent.bytes) then s.land digest success else s
  | .put path text => {s with disk := s.disk.upsert path text}
  | .remove path => {s with disk := s.disk.erase path}

end Serve

abbrev Script (kit : ScriptKit) := Program (Op kit) (Answer kit) String

section Script
variable (kit : ScriptKit)

def call {kit : ScriptKit} (op : Op kit) : Script kit (Answer kit op) := .perform op

def check {α : Type} (result : Except String α) : Script kit α := .orFail id result

def isTransactionNotFound (error : ClientError) (digest : String) : Bool :=
  decide (error.code = some (.text "NOT_FOUND") ∨ error.code = some (.number 5) ∨
    error.message = "Transaction " ++ digest ++ " not found")

abbrev Environment := String → Option String

def env (environment : Environment) (name : String) : Option String :=
  ((environment name).map trim).filter (fun value => value ≠ "")

def requireEnv (environment : Environment) (name : String) : Except String String :=
  Fallible.require (env environment name) ("missing required env var " ++ name)

def writeJournal (path : String) (journal : FundingJournal kit) (run : RunIntent kit) (fresh : Bool) :
    Script kit Unit := do
  check kit (← call (.writeJournal path journal.members (some ⟨fresh,run,journal⟩)))

def reconcile (writers : WriterAddresses) (liveWriters : String) : Script kit LiveWriterSnapshot := do
  let nowMs ← call .now
  check kit (reconcileLiveWriters kit writers liveWriters nowMs)

def recordObservedTransaction (journalPath : String) (run : RunIntent kit) (journal : FundingJournal kit)
    (result : Option Observed) (source : String) : Script kit (FundingJournal kit) := do
  let (success,error) ← check kit (definitive kit journal result)
  let updatedMs ← call .now
  let observedMs ← call .now
  let observed := observedJournal kit journal source (kit.isoText updatedMs) (kit.isoText observedMs) success error
  writeJournal kit journalPath observed run false
  return observed

def reconcileAndExecuteFunding (journalPath : String) (run : RunIntent kit) (journal : FundingJournal kit)
    (beforeSubmit : Script kit Unit) : Script kit String := do
  let digest := journal.signed.digest
  match ← call (.getTransaction digest) with
  | .ok (some existing) =>
    let observed ← recordObservedTransaction kit journalPath run journal existing "query"
    let _ ← check kit (requireSuccess kit existing "journaled funding transaction failed")
    return observed.signed.digest
  | .ok none =>
    .fail ("cannot reconcile funding digest " ++ digest ++ "; the RPC returned no transaction and no explicit NOT_FOUND. " ++
      "Do not create or submit a new payout.")
  | .error error =>
    if isTransactionNotFound error digest then
      check kit (Fallible.ensure (isText journal.status "prepared" = true) ("journal says " ++
        journal.status.elim "undefined" Json.text ++ " but digest " ++ digest ++ " is not on chain; refusing to replay"))
      beforeSubmit
      match ← call (.executeTransaction journal.signed) with
      | .error cause =>
        .fail ("FUNDING OUTCOME AMBIGUOUS for digest " ++ digest ++ ". Do not build or submit a new payout. Preserve " ++
          journalPath ++ " and retry with its exact contents in FUNDING_JOURNAL_JSON. Cause: " ++ cause)
      | .ok result =>
        match ← (recordObservedTransaction kit journalPath run journal result "submit").attempt with
        | .error cause =>
          .fail ("FUNDING OUTCOME AMBIGUOUS for digest " ++ digest ++ ". The RPC returned after submission but the " ++
            "durable result could not be recorded. Do not build or submit a new payout; reconcile this exact journal. " ++
            "Cause: " ++ cause)
        | .ok observed =>
          let _ ← check kit (requireSuccess kit result "journaled funding transaction failed")
          return observed.signed.digest
    else
      .fail ("cannot reconcile funding digest " ++ digest ++ "; do not create or submit a new payout. Retry with the same " ++
        "FUNDING_JOURNAL_JSON. Cause: " ++ error.message)

-- The settings of a run. The journal to resume is an input of its own.
structure Settings where
  funderKey : String
  mistPer : Nat
  frostPer : Nat
  network : String
  gasBudget : Nat
  dryRun : Bool
  prepareOnly : Bool
  journalPath : String
  resumeJournalRaw : Option String
  liveWriters : Option String
  deriving DecidableEq, Repr

def readSettings (environment : Environment) (resumeJournalRaw : Option String) : Except String Settings := do
  let funderKey ← requireEnv environment "SUI_FUNDER_KEY"
  let _ ← requireEnv environment "GRPC_URL"
  let mistStr ← requireEnv environment "MIST_PER_ADDRESS"
  let frostStr ← requireEnv environment "FROST_PER_ADDRESS"
  let network := (env environment "NETWORK").getD "mainnet"
  let gasBudgetStr := (env environment "GAS_BUDGET").getD "5000000000"
  let dryRun := decide ((env environment "DRY_RUN").getD "true" ≠ "false")
  let prepareOnlyStr := (env environment "FUNDING_PREPARE_ONLY").getD "false"
  let mistPer ← parseAmount kit mistStr "MIST_PER_ADDRESS"
  let frostPer ← parseAmount kit frostStr "FROST_PER_ADDRESS"
  Fallible.ensure (network = "mainnet" ∨ network = "testnet")
    ("NETWORK must be mainnet|testnet (walrus is not deployed elsewhere), got " ++ kit.stringify network)
  let gasBudget ← parseAmount kit gasBudgetStr "GAS_BUDGET"
  Fallible.ensure (prepareOnlyStr = "true" ∨ prepareOnlyStr = "false") "FUNDING_PREPARE_ONLY must be true or false"
  Fallible.ensure (¬ (dryRun = true ∧ prepareOnlyStr = "true")) "FUNDING_PREPARE_ONLY=true requires DRY_RUN=false"
  Fallible.ensure (¬ (resumeJournalRaw.isSome = true ∧ dryRun = true)) "FUNDING_JOURNAL_JSON requires DRY_RUN=false"
  return ⟨funderKey,mistPer,frostPer,network,gasBudget,dryRun,decide (prepareOnlyStr = "true"),
    (env environment "FUNDING_JOURNAL_OUT").getD "funding-journal.json",resumeJournalRaw,
    env environment "LIVE_WRITER_ADDRESSES_JSON"⟩

def recipientsFile (network : String) : String := "distribute-funds." ++ network ++ ".json"

def requireFunds (what : String) (have_ need : Nat) : Except String Unit :=
  Fallible.ensure (need ≤ have_) ("insufficient " ++ what ++ ": sender has " ++ toString have_ ++ ", needs " ++
    toString need ++ " (short " ++ toString (need - have_) ++ ")")

-- What a run has found out before it builds or resumes anything.
structure Ready (kit : ScriptKit) where
  settings : Settings
  writers : WriterAddresses
  recipients : List String
  run : RunIntent kit
  snapshot : Option LiveWriterSnapshot

-- `reconcileLiveWriters(writers, liveWriters!)`
def reconcileAgain (ready : Ready kit) : Script kit LiveWriterSnapshot :=
  reconcile kit ready.writers (ready.settings.liveWriters.getD "")

def initialSnapshot (settings : Settings) (writers : WriterAddresses) : Script kit (Option LiveWriterSnapshot) :=
  match settings.liveWriters with
  | some liveWriters => return some (← reconcile kit writers liveWriters)
  | none => do
    check kit (Fallible.ensure (settings.dryRun = true) "missing required env var LIVE_WRITER_ADDRESSES_JSON")
    return none

def runIntent (intent : Intent) (walType : WalType kit) (same : intent.walType = kit.normalizeStructTag walType.text) :
    RunIntent kit :=
  ⟨intent,by rw [same,walType.normal,walType.normal]; exact walType.notSui⟩

-- The intent of the run under the WAL type that was read.
def makeIntent (settings : Settings) (sender : String) (writers : WriterAddresses) (walType : WalType kit) :
    Except String (RunIntent kit) :=
  match made : fundingIntent kit settings.network sender walType.text (recipientsFile settings.network) writers
    settings.mistPer settings.frostPer settings.gasBudget with
  | .error message => .error message
  | .ok intent => .ok (runIntent kit intent walType (by
      simp only [fundingIntent,Fallible.bind_ok,Fallible.pure_ok] at made
      obtain ⟨_,_,_,_,rfl⟩ := made
      rfl))

def start (environment : Environment) : Script kit (Ready kit) := do
  let resumeJournalRaw ← call .journalJson
  let settings ← check kit (readSettings kit environment resumeJournalRaw)
  let raw ← check kit (← call (.readManifest settings.network))
  let writers ← check kit (parseWriters kit raw (settings.network ++ " payout manifest"))
  let recipients ← check kit (flattenWriters kit.toKit writers)
  let snapshot ← initialSnapshot kit settings writers
  let address ← check kit (Fallible.require (kit.addressOf settings.funderKey) "invalid private key")
  let walType ← check kit (← call (.walType settings.network))
  let run ← check kit (makeIntent kit settings (kit.normalizeSuiAddress address) writers walType)
  return ⟨settings,writers,recipients,run,snapshot⟩

theorem updatedAt_apart : "transaction" ≠ "updatedAt" := by decide
theorem liveSnapshot_apart : "transaction" ≠ "liveSnapshot" := by decide

def resume (ready : Ready kit) (raw : String) : Script kit (Option String) := do
  let nowMs ← call .now
  let prepared ← check kit (parseFundingJournal kit raw ready.run nowMs)
  let liveSnapshot ← reconcileAgain kit ready
  let updatedMs ← call .now
  let journal := (prepared.assign "updatedAt" (.string (kit.isoText updatedMs)) updatedAt_apart).assign "liveSnapshot"
    liveSnapshot.json liveSnapshot_apart
  writeJournal kit ready.settings.journalPath journal ready.run false
  if ready.settings.prepareOnly then
    call (.print journal.signed.digest true)
    return some journal.signed.digest
  else
    let digest ← reconcileAndExecuteFunding kit ready.settings.journalPath ready.run journal (do
      let _ ← reconcileAgain kit ready
      return ())
    call (.print digest false)
    return some digest

def checkBalances (ready : Ready kit) : Script kit Unit := do
  let intent := ready.run.intent
  let sui ← check kit (← call (.balance intent.sender suiType))
  let wal ← check kit (← call (.balance intent.sender intent.walType))
  check kit (requireFunds "SUI (MIST, incl. gas budget)" sui
    (intent.mistPerAddress * ready.recipients.length + intent.gasBudget))
  check kit (requireFunds "WAL (FROST)" wal (intent.frostPerAddress * ready.recipients.length))

def sign (ready : Ready kit) (bytes : Bytes) : Except String SignedTransaction := do
  let signature := kit.sign ready.settings.funderKey bytes
  let _ ← assertFundingTransaction kit.toKit ready.run.funding bytes
  Fallible.ensure (kit.verify bytes signature ready.run.intent.sender = true) "Provided signature is invalid"
  return ⟨bytes,signature,kit.digestOf bytes⟩

def payOut (ready : Ready kit) : Script kit (Option String) := do
  checkBalances kit ready
  let bytes ← check kit (← call (.build ready.run.intent))
  let sim ← check kit (← call (.simulate bytes))
  let _ ← check kit (requireSuccess kit sim "funding simulation failed")
  if ready.settings.dryRun then
    let nowMs ← call .now
    check kit (← call (.writeJournal ready.settings.journalPath
      (simulatedJournal (kit.isoText nowMs) ready.run.intent ready.snapshot) none))
    return none
  else
    let liveSnapshot ← reconcileAgain kit ready
    let signed ← check kit (sign kit ready bytes)
    let nowMs ← call .now
    let journal := preparedJournal kit (kit.isoText nowMs) ready.run.intent liveSnapshot signed
    writeJournal kit ready.settings.journalPath journal ready.run true
    if ready.settings.prepareOnly then
      call (.print signed.digest true)
      return some signed.digest
    else
      let digest ← reconcileAndExecuteFunding kit ready.settings.journalPath ready.run journal (do
        let _ ← reconcileAgain kit ready
        return ())
      call (.print digest false)
      return some digest

def main (environment : Environment) : Script kit (Option String) := do
  let ready ← start kit environment
  match ready.settings.resumeJournalRaw with
  | some raw => resume kit ready raw
  | none => payOut kit ready

-- Any number of runs of the script, each in a process of its own that can die.
def operators : Crew (Op kit) (Answer kit) (World kit) (Choice kit) String (Option String) Environment Event where
  service := ⟨serve,fun s worker => {s with tickets := s.tickets.erase worker}⟩
  program := main kit
  happen := happen

end Script
end MemWal.Funding.Payout
