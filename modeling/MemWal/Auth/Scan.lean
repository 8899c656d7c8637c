import MemWal.Auth.Middleware
import MemWal.Library.Traces

namespace MemWal.Auth.Scan
open Library Library.Fallible

-- A page of `suix_getDynamicFields`, as far as its JSON has the parts that are
-- looked for; each entry is the `objectId` of a dynamic field.
structure DynamicFields where
  data : Option (List (Option String))
  nextCursor : Option String
  hasNextPage : Option Bool
  deriving DecidableEq, Repr

structure DynamicFieldsResponse where
  error : Option String
  result : Option DynamicFields
  deriving DecidableEq, Repr

-- The answers of the full node. The registry has its table's id, a dynamic field
-- its value.
structure Rpc where
  getRegistry : String → Except String (Option String)
  getDynamicFields : String → Option String → Nat → Except String DynamicFieldsResponse
  getDynamicField : String → Except String (Option AccountId)
  getObject : AccountId → Option ObjectContent

variable (rpc : Rpc) (config : Config) (publicKey : Bytes)

def rpcFailed {α : Type} (answer : Except String α) : Except OnchainVerifyError α := answer.mapError (fun _ => .rpcError)

def scanEntries : List (Option String) → Except OnchainVerifyError (Option (AccountId × Owner))
  | [] => return none
  | fieldInfo :: rest => do
    let fieldObjId ← require fieldInfo .rpcError
    let value ← rpcFailed (rpc.getDynamicField fieldObjId)
    let accountId := value.getD ""
    if accountId = "" then scanEntries rest
    else
      match checkAccount config publicKey (rpc.getObject accountId) with
      | .ok owner => return some (accountId,owner)
      | .error .keyNotFound => scanEntries rest
      | .error error => .error error

-- The pages that are left to the cap, and the cursor of the next one.
def scanPages (tableId : String) : Nat → Option String → Except OnchainVerifyError (AccountId × Owner)
  | 0,_ => .error .scanCapExceeded
  | pages + 1,cursor => do
    let response ← rpcFailed (rpc.getDynamicFields tableId cursor 50)
    ensure (response.error = none) .rpcError
    let result ← require response.result .rpcError
    let data ← require result.data .rpcError
    match ← scanEntries rpc config publicKey data with
    | some found => return found
    | none =>
      match result.nextCursor with
      | none => .error .keyNotFound
      | some next => if result.hasNextPage.getD false then scanPages tableId pages (some next) else .error .keyNotFound

def findAccountByDelegateKey (registryId : String) (maxPages : Nat) : Except OnchainVerifyError (AccountId × Owner) := do
  let registry ← rpcFailed (rpc.getRegistry registryId)
  let tableId ← require registry .rpcError
  scanPages rpc config publicKey tableId maxPages none

-- A registry on the chain: accounts, some of which may be another package's,
-- and the dynamic fields that lead to them, by pages.
structure Account where
  objectType : String
  owner : Owner
  active : Bool
  delegateKeys : List Bytes
  deriving DecidableEq, Repr

structure Page where
  fields : List String
  nextCursor : Option String
  hasNextPage : Bool
  deriving DecidableEq, Repr

def Page.next (page : Page) : Option String := if page.hasNextPage then page.nextCursor else none

structure Registry where
  tableId : String
  page : Option String → Page
  value : String → Option AccountId
  account : AccountId → Account

-- A full node that answers every call from the chain.
def Registry.node (r : Registry) : Rpc where
  getRegistry _ := .ok (some r.tableId)
  getDynamicFields _ cursor _ :=
    let page := r.page cursor
    .ok ⟨none,some ⟨some (page.fields.map some),page.nextCursor,some page.hasNextPage⟩⟩
  getDynamicField field := .ok (r.value field)
  getObject accountId :=
    let account := r.account accountId
    some ⟨some account.objectType,some ⟨some account.owner,some account.active,some account.delegateKeys⟩⟩

-- The pages of a registry from a cursor on.
inductive Pages (r : Registry) : Option String → List Page → Prop where
  | last (cursor : Option String) : (r.page cursor).next = none → Pages r cursor [r.page cursor]
  | more (cursor : Option String) (next : String) (pages : List Page) : (r.page cursor).next = some next →
      Pages r (some next) pages → Pages r cursor (r.page cursor :: pages)

-- The accounts that the fields of a page lead to.
def Registry.accounts (r : Registry) (fields : List String) : List AccountId :=
  fields.filterMap (fun field => (r.value field).filter (fun accountId => accountId ≠ ""))

variable (r : Registry)

def Holder (accountId : AccountId) : Prop :=
  (r.account accountId).objectType = memwalAccountType config ∧ (r.account accountId).active = true ∧
    publicKey ∈ (r.account accountId).delegateKeys

-- Deactivated, or of another package's type.
def Barred (accountId : AccountId) : Prop :=
  (r.account accountId).objectType ≠ memwalAccountType config ∨ (r.account accountId).active = false

instance (accountId : AccountId) : Decidable (Holder config publicKey r accountId) := by
  unfold Holder
  infer_instance

instance (accountId : AccountId) : Decidable (Barred config r accountId) := by
  unfold Barred
  infer_instance

variable {rpc config publicKey r}

inductive Verified (config : Config) (publicKey : Bytes) (r : Registry) (accountId : AccountId) :
    Except OnchainVerifyError Owner → Prop where
  | holder : Holder config publicKey r accountId → Verified config publicKey r accountId (.ok (r.account accountId).owner)
  | barred (error : OnchainVerifyError) : Barred config r accountId → ¬ Holder config publicKey r accountId →
      error = .wrongObjectType ∨ error = .accountDeactivated → Verified config publicKey r accountId (.error error)
  | other : ¬ Barred config r accountId → ¬ Holder config publicKey r accountId →
      Verified config publicKey r accountId (.error .keyNotFound)

theorem checkAccount_verified (accountId : AccountId) :
    Verified config publicKey r accountId (checkAccount config publicKey (r.node.getObject accountId)) := by
  simp only [checkAccount,Registry.node,require,ensure,bind,Except.bind,pure,Except.pure]
  by_cases type : (r.account accountId).objectType = memwalAccountType config
  · rw [if_pos (congrArg some type)]
    simp only
    by_cases active : (r.account accountId).active = true
    · rw [if_pos active]
      simp only
      by_cases key : publicKey ∈ (r.account accountId).delegateKeys
      · rw [if_pos key]
        exact .holder ⟨type,active,key⟩
      · rw [if_neg key]
        refine .other ?_ (fun holder => key holder.2.2)
        intro found
        rcases found with foreign | inactive
        · exact foreign type
        · rw [active] at inactive
          cases inactive
    · rw [if_neg active]
      exact .barred _ (.inr (by simpa using active)) (fun holder => active holder.2.1) (.inr rfl)
  · rw [if_neg (fun same => type (Option.some.inj same))]
    exact .barred _ (.inl type) (fun holder => type holder.1) (.inl rfl)

-- The account that decides a scan: the first that holds the key or is barred.
def decisive (config : Config) (publicKey : Bytes) (r : Registry) (accountIds : List AccountId) : Option AccountId :=
  accountIds.find? (fun accountId => Holder config publicKey r accountId ∨ Barred config r accountId)

def verdict (config : Config) (publicKey : Bytes) (r : Registry) (accountId : AccountId) :
    Except OnchainVerifyError (AccountId × Owner) :=
  (checkAccount config publicKey (r.node.getObject accountId)).map (fun owner => (accountId,owner))

theorem scanEntries_decisive (fields : List String) :
    scanEntries r.node config publicKey (fields.map some) =
      match decisive config publicKey r (r.accounts fields) with
      | some accountId => (verdict config publicKey r accountId).map some
      | none => .ok none := by
  induction fields with
  | nil => rfl
  | cons field rest ih =>
    rw [List.map_cons]
    change (if (r.value field).getD "" = "" then scanEntries r.node config publicKey (rest.map some) else _) = _
    by_cases empty : (r.value field).getD "" = ""
    · rw [if_pos empty,ih]
      have skipped : r.accounts (field :: rest) = r.accounts rest := by
        apply List.filterMap_cons_none
        cases value : r.value field with
        | none => rfl
        | some accountId =>
          rw [value] at empty
          change accountId = "" at empty
          rw [empty]
          rfl
      rw [skipped]
    · rw [if_neg empty]
      obtain ⟨accountId,value⟩ : ∃ accountId, r.value field = some accountId := by
        cases value : r.value field with
        | none =>
          rw [value] at empty
          exact absurd rfl empty
        | some accountId => exact ⟨accountId,rfl⟩
      rw [value] at empty ⊢
      change accountId ≠ "" at empty
      have listed : r.accounts (field :: rest) = accountId :: r.accounts rest := by
        apply List.filterMap_cons_some
        rw [value]
        simp [Option.filter,empty]
      rw [listed]
      change (match checkAccount config publicKey (r.node.getObject accountId) with
        | .ok owner => _ | .error .keyNotFound => _ | .error error => _) = _
      have verified : Verified config publicKey r accountId (checkAccount config publicKey (r.node.getObject accountId)) :=
        checkAccount_verified accountId
      have decides (stop : Holder config publicKey r accountId ∨ Barred config r accountId) :
          decisive config publicKey r (accountId :: r.accounts rest) = some accountId := by
        unfold decisive
        exact List.find?_cons_of_pos (decide_eq_true stop)
      unfold verdict
      generalize checked : checkAccount config publicKey (r.node.getObject accountId) = outcome at verified
      cases verified with
      | holder holder =>
        rw [decides (.inl holder)]
        simp only [checked]
        rfl
      | barred error barred _ which =>
        rw [decides (.inr barred)]
        simp only [checked]
        rcases which with rfl | rfl <;> rfl
      | other fit absent =>
        have passes : decisive config publicKey r (accountId :: r.accounts rest) = decisive config publicKey r (r.accounts rest) := by
          unfold decisive
          rw [List.find?_cons_of_neg]
          rw [decide_eq_true_eq]
          exact not_or.mpr ⟨absent,fit⟩
        rw [passes]
        exact ih

-- The accounts on the pages that the cap lets through.
def scanned (r : Registry) (pages : List Page) (maxPages : Nat) : List AccountId :=
  (pages.take maxPages).flatMap (fun page => r.accounts page.fields)

theorem decisive_append (front back : List AccountId) :
    decisive config publicKey r (front ++ back) = (decisive config publicKey r front).or (decisive config publicKey r back) :=
  List.find?_append

-- One round of the loop: the page decides, or it is the last, or the next one is asked for.
theorem scanPages_page (tableId : String) (pages : Nat) (cursor : Option String) :
    scanPages r.node config publicKey tableId (pages + 1) cursor =
      match decisive config publicKey r (r.accounts (r.page cursor).fields) with
      | some accountId => verdict config publicKey r accountId
      | none =>
        match (r.page cursor).next with
        | none => .error .keyNotFound
        | some next => scanPages r.node config publicKey tableId pages (some next) := by
  change (do
    match ← scanEntries r.node config publicKey ((r.page cursor).fields.map some) with
    | some found => return found
    | none =>
      match (r.page cursor).nextCursor with
      | none => .error .keyNotFound
      | some next =>
        if (r.page cursor).hasNextPage then scanPages r.node config publicKey tableId pages (some next)
        else .error .keyNotFound) = _
  rw [scanEntries_decisive]
  cases decisive config publicKey r (r.accounts (r.page cursor).fields) with
  | some accountId =>
    simp only
    cases verdict config publicKey r accountId with
    | ok found => rfl
    | error error => rfl
  | none =>
    simp only [Page.next]
    cases (r.page cursor).hasNextPage with
    | false => cases (r.page cursor).nextCursor <;> rfl
    | true => cases (r.page cursor).nextCursor <;> rfl

theorem scanPages_decisive {cursor : Option String} {pages : List Page} (paging : Pages r cursor pages) (maxPages : Nat)
    (tableId : String) :
    scanPages r.node config publicKey tableId maxPages cursor =
      match decisive config publicKey r (scanned r pages maxPages) with
      | some accountId => verdict config publicKey r accountId
      | none => .error (if pages.length ≤ maxPages then .keyNotFound else .scanCapExceeded) := by
  induction paging generalizing maxPages with
  | last cursor ends =>
    cases maxPages with
    | zero => rfl
    | succ n =>
      have accounts : scanned r [r.page cursor] (n + 1) = r.accounts (r.page cursor).fields := by
        rw [scanned,List.take_succ_cons,List.take_nil,List.flatMap_singleton]
      have all_ : [r.page cursor].length ≤ n + 1 := Nat.succ_le_succ (Nat.zero_le n)
      rw [scanPages_page,accounts,ends,if_pos all_]
  | more cursor next pages follows rest ih =>
    cases maxPages with
    | zero => rfl
    | succ n =>
      have accounts : scanned r (r.page cursor :: pages) (n + 1) = r.accounts (r.page cursor).fields ++ scanned r pages n := by
        rw [scanned,List.take_succ_cons,List.flatMap_cons]
        rfl
      rw [scanPages_page,accounts,decisive_append,follows]
      cases decisive config publicKey r (r.accounts (r.page cursor).fields) with
      | some accountId => rfl
      | none =>
        simp only [Option.none_or]
        rw [ih n,List.length_cons]
        simp only [Nat.add_le_add_iff_right]

theorem find_decisive {pages : List Page} (paging : Pages r none pages) (registryId : String) (maxPages : Nat) :
    findAccountByDelegateKey r.node config publicKey registryId maxPages =
      match decisive config publicKey r (scanned r pages maxPages) with
      | some accountId => verdict config publicKey r accountId
      | none => .error (if pages.length ≤ maxPages then .keyNotFound else .scanCapExceeded) :=
  scanPages_decisive paging maxPages r.tableId

-- What is asked of a scan: the outcome is an account that holds the key exactly
-- where one was scanned, and otherwise tells whether all of them were.
structure Exact (config : Config) (publicKey : Bytes) (r : Registry) (pages : List Page) (maxPages : Nat)
    (outcome : Except OnchainVerifyError (AccountId × Owner)) : Prop where
  found : (∃ accountId owner, outcome = .ok (accountId,owner)) ↔
    ∃ accountId ∈ scanned r pages maxPages, Holder config publicKey r accountId
  sound : ∀ accountId owner, outcome = .ok (accountId,owner) →
    accountId ∈ scanned r pages maxPages ∧ Holder config publicKey r accountId ∧ owner = (r.account accountId).owner
  missing : (∀ accountId ∈ scanned r pages maxPages, ¬ Holder config publicKey r accountId) →
    outcome = .error (if pages.length ≤ maxPages then .keyNotFound else .scanCapExceeded)

-- Every barred account among the scanned has one that holds the key in front of it.
def Clear (config : Config) (publicKey : Bytes) (r : Registry) (accountIds : List AccountId) : Prop :=
  ∀ before accountId after, accountIds = before ++ accountId :: after → Barred config r accountId →
    ∃ holder ∈ before, Holder config publicKey r holder

theorem registry_scan_exact_iff (config : Config) (publicKey : Bytes) (r : Registry) (pages : List Page) (registryId : String)
    (maxPages : Nat) (paging : Pages r none pages) :
    Exact config publicKey r pages maxPages (findAccountByDelegateKey r.node config publicKey registryId maxPages) ↔
      Clear config publicKey r (scanned r pages maxPages) := by
  rw [find_decisive paging]
  cases decided : decisive config publicKey r (scanned r pages maxPages) with
  | none =>
    have quiet : ∀ accountId ∈ scanned r pages maxPages, ¬ Holder config publicKey r accountId ∧ ¬ Barred config r accountId := by
      intro accountId member
      have not_ := List.find?_eq_none.mp decided accountId member
      rw [decide_eq_true_eq] at not_
      exact not_or.mp not_
    constructor
    · intro _ before accountId after split barred
      exact absurd barred (quiet accountId (split ▸ List.mem_append_right _ List.mem_cons_self)).2
    · intro _
      constructor
      · constructor
        · intro given
          obtain ⟨_,_,found⟩ := given
          cases found
        · intro given
          obtain ⟨accountId,member,holder⟩ := given
          exact absurd holder (quiet accountId member).1
      · intro _ _ found
        cases found
      · exact fun _ => rfl
  | some decider =>
    obtain ⟨decides,front,back,split,fronts⟩ := List.find?_eq_some_iff_append.mp decided
    have idle : ∀ accountId ∈ front, ¬ Holder config publicKey r accountId ∧ ¬ Barred config r accountId := by
      intro accountId member
      have not_ := fronts accountId member
      rw [Bool.not_eq_true',decide_eq_false_iff_not] at not_
      exact not_or.mp not_
    have listed : decider ∈ scanned r pages maxPages := split ▸ List.mem_append_right _ List.mem_cons_self
    have verified : Verified config publicKey r decider (checkAccount config publicKey (r.node.getObject decider)) :=
      checkAccount_verified decider
    simp only [verdict]
    generalize checkAccount config publicKey (r.node.getObject decider) = outcome at verified
    cases verified with
    | holder holder =>
      apply iff_of_true
      · constructor
        · exact iff_of_true ⟨_,_,rfl⟩ ⟨decider,listed,holder⟩
        · intro accountId owner same
          cases same
          exact ⟨listed,holder,rfl⟩
        · intro none_
          exact absurd holder (none_ decider listed)
      · intro before accountId after split' barred
        have apart : accountId ≠ decider := by
          intro same
          rw [same] at barred
          rcases barred with foreign | inactive
          · exact foreign holder.1
          · rw [holder.2.1] at inactive
            cases inactive
        rw [split] at split'
        -- The barred account is not in front of the decider, so it is behind it.
        rcases List.append_eq_append_iff.mp split' with ⟨between,isBefore,rest⟩ | ⟨between,isFront,rest⟩
        · cases between with
          | nil => exact absurd (List.cons.inj rest).1.symm apart
          | cons first more =>
            rw [← (List.cons.inj rest).1] at isBefore
            exact ⟨decider,isBefore ▸ List.mem_append_right _ List.mem_cons_self,holder⟩
        · cases between with
          | nil => exact absurd (List.cons.inj rest).1 apart
          | cons first more =>
            rw [← (List.cons.inj rest).1] at isFront
            have inside : accountId ∈ front := isFront ▸ List.mem_append_right _ List.mem_cons_self
            exact absurd barred (idle accountId inside).2
    | barred error barred absent which =>
      apply iff_of_false
      · intro exact_
        by_cases held : ∃ accountId ∈ scanned r pages maxPages, Holder config publicKey r accountId
        · obtain ⟨_,_,found⟩ := exact_.found.mpr held
          cases found
        · have told := exact_.missing (fun accountId member holder => held ⟨accountId,member,holder⟩)
          have same := Except.error.inj told
          rcases which with rfl | rfl
          · split at same <;> cases same
          · split at same <;> cases same
      · intro clear_
        obtain ⟨holder,member,holds⟩ := clear_ front decider back split barred
        exact (idle holder member).1 holds
    | other fit absent =>
      rw [decide_eq_true_eq] at decides
      rcases decides with holder | barred
      · exact absurd holder absent
      · exact absurd barred fit

section Samples

def sampleConfig : Config := ⟨"0xa","mainnet",none,200⟩

def sampleAccount (active : Bool) (key : UInt8) : Account := ⟨"0xa::account::MemWalAccount","0xb",active,[[key]]⟩

def samplePage (fields : List String) (next : Option String) : Page := ⟨fields,next,next.isSome⟩

-- Two pages; each field has an account of its own name.
def sampleRegistry (first second : List String) (account : AccountId → Account) : Registry where
  tableId := "0xc"
  page cursor := if cursor = none then samplePage first (some "0xd") else samplePage second none
  value field := some field
  account := account

def busyRegistry : Registry :=
  sampleRegistry ["0x1","0x2"] ["0x3"] (fun accountId => sampleAccount (accountId ≠ "0x3") (if accountId = "0x2" then 7 else 8))

theorem key_found_before_deactivated :
    Exact sampleConfig [7] busyRegistry [samplePage ["0x1","0x2"] (some "0xd"),samplePage ["0x3"] none] 2
      (findAccountByDelegateKey busyRegistry.node sampleConfig [7] "0xe" 2) := by
  apply (registry_scan_exact_iff sampleConfig [7] busyRegistry _ "0xe" 2
    (.more none "0xd" _ rfl (.last (some "0xd") rfl))).mpr
  intro before accountId after split barred
  have listed : scanned busyRegistry [busyRegistry.page none,busyRegistry.page (some "0xd")] 2 = ["0x1","0x2","0x3"] := by
    decide +kernel
  rw [listed] at split
  have first : ¬ Barred sampleConfig busyRegistry "0x1" := by decide +kernel
  have holder : Holder sampleConfig [7] busyRegistry "0x2" := by decide +kernel
  cases before with
  | nil =>
    cases split
    exact absurd barred first
  | cons one more =>
    cases more with
    | nil =>
      cases split
      exact absurd barred (by decide +kernel)
    | cons two others =>
      have second : "0x2" = two := (List.cons.inj (List.cons.inj split).2).1
      rw [← second]
      exact ⟨"0x2",List.mem_cons_of_mem _ List.mem_cons_self,holder⟩

def deactivatedFirst : Registry :=
  sampleRegistry ["0x1","0x2"] [] (fun accountId => sampleAccount (accountId ≠ "0x1") (if accountId = "0x2" then 7 else 8))

theorem deactivated_account_hides_key :
    Pages deactivatedFirst none [deactivatedFirst.page none,deactivatedFirst.page (some "0xd")] ∧
    "0x2" ∈ scanned deactivatedFirst [deactivatedFirst.page none,deactivatedFirst.page (some "0xd")] 2 ∧
    Holder sampleConfig [7] deactivatedFirst "0x2" ∧
    findAccountByDelegateKey deactivatedFirst.node sampleConfig [7] "0xe" 2 = .error .accountDeactivated ∧
    ¬ Exact sampleConfig [7] deactivatedFirst [deactivatedFirst.page none,deactivatedFirst.page (some "0xd")] 2
      (findAccountByDelegateKey deactivatedFirst.node sampleConfig [7] "0xe" 2) := by
  have listed : "0x2" ∈ scanned deactivatedFirst [deactivatedFirst.page none,deactivatedFirst.page (some "0xd")] 2 := by
    decide +kernel
  have holder : Holder sampleConfig [7] deactivatedFirst "0x2" := by decide +kernel
  have refused : findAccountByDelegateKey deactivatedFirst.node sampleConfig [7] "0xe" 2 = .error .accountDeactivated := by
    decide +kernel
  refine ⟨.more none "0xd" _ rfl (.last (some "0xd") rfl),listed,holder,refused,?_⟩
  intro exact_
  obtain ⟨accountId,owner,found⟩ := exact_.found.mpr ⟨"0x2",listed,holder⟩
  rw [refused] at found
  cases found

end Samples

-- The middleware's model has its own registry: a list, by pages of fifty. Its
-- scan is this one over that registry, whose cursors count the pages.
section Middleware
variable {s : World}

def cursorText (n : Nat) : String := String.ofList (List.replicate n '+')

def worldRpc (s : World) : Rpc where
  getRegistry _ := .ok (some "")
  getDynamicFields _ cursor limit :=
    let n := (cursor.map (fun text => text.toList.length)).getD 0
    let rest := s.registry.drop (n * limit)
    .ok ⟨none,some ⟨some ((rest.take limit).map some),if rest.length ≤ limit then none else some (cursorText (n + 1)),
      some (limit < rest.length)⟩⟩
  getDynamicField field := .ok (some field)
  getObject := s.objects.get?

abbrev Call := Made World Op Choice

-- No call fails, and nothing changes while the scan runs.
def Still (s : World) (calls : List Call) : Prop := ∀ made ∈ calls, made.state = s ∧ made.choice.fault = none

theorem Still.append {first rest : List Call} (still : Still s (first ++ rest)) : Still s first ∧ Still s rest :=
  List.forall_mem_append.mp still

theorem verify_agrees {accountId : AccountId} {calls : List Call} {result : Except OnchainVerifyError Owner}
    (completes : Completes serve (verifyDelegateKeyOnchain config accountId publicKey) calls result) (still : Still s calls) :
    result = checkAccount config publicKey (s.objects.get? accountId) := by
  cases calls with
  | nil => cases completes
  | cons made rest =>
    obtain ⟨same,completes⟩ := completes
    obtain ⟨here,works⟩ := still made List.mem_cons_self
    obtain ⟨_,checked⟩ := Completes.orFail completes
    have answer : (serve s (.getObject accountId) made.choice).2 = s.objects.get? accountId := by
      simp [serve,works]
    rw [checked,here,answer]
    cases checkAccount config publicKey (s.objects.get? accountId) <;> rfl

theorem entries_agree {accountIds : List AccountId} (named : ∀ accountId ∈ accountIds, accountId ≠ "") {calls : List Call}
    {result : Except OnchainVerifyError (Option (AccountId × Owner))}
    (completes : Completes serve (scanAccounts config publicKey accountIds) calls result) (still : Still s calls) :
    result = scanEntries (worldRpc s) config publicKey (accountIds.map some) := by
  induction accountIds generalizing calls with
  | nil =>
    cases calls with
    | nil => exact completes
    | cons made rest => cases completes
  | cons accountId rest ih =>
    have empty := named accountId List.mem_cons_self
    have later : ∀ {calls}, Completes serve (scanAccounts config publicKey rest) calls result → Still s calls →
        result = scanEntries (worldRpc s) config publicKey (rest.map some) :=
      ih (fun other member => named other (List.mem_cons_of_mem _ member))
    change result = if accountId = "" then _ else match checkAccount config publicKey (s.objects.get? accountId) with
      | .ok owner => .ok (some (accountId,owner))
      | .error .keyNotFound => scanEntries (worldRpc s) config publicKey (rest.map some)
      | .error error => .error error
    rw [if_neg empty]
    unfold scanAccounts at completes
    rcases completes.bind with ⟨error,_,failed⟩ | ⟨first,others,outcome,rfl,head,tail⟩
    · obtain ⟨inner,equal,_⟩ := failed.attempt
      cases equal
    · obtain ⟨inner,equal,verified⟩ := head.attempt
      cases equal
      obtain ⟨before,after⟩ := still.append
      rw [verify_agrees verified before] at tail
      cases checked : checkAccount config publicKey (s.objects.get? accountId) with
      | ok owner =>
        rw [checked] at tail
        cases others with
        | nil => exact tail
        | cons made more => cases tail
      | error error =>
        rw [checked] at tail
        cases error with
        | keyNotFound => exact later tail after
        | _ =>
          cases others with
          | nil => exact tail
          | cons made more => cases tail

def cursorAt (n : Nat) : Option String := if n = 0 then none else some (cursorText n)

theorem cursorAt_number (n : Nat) : ((cursorAt n).map (fun text => text.toList.length)).getD 0 = n := by
  cases n with
  | zero => rfl
  | succ n =>
    change (cursorText (n + 1)).toList.length = n + 1
    rw [cursorText,String.toList_ofList,List.length_replicate]

theorem world_page (pages n : Nat) :
    scanPages (worldRpc s) config publicKey "" (pages + 1) (cursorAt n) =
      (scanEntries (worldRpc s) config publicKey (((s.registry.drop (n * 50)).take 50).map some) >>= fun found =>
        match found with
        | some found => .ok found
        | none =>
          if (s.registry.drop (n * 50)).length ≤ 50 then .error .keyNotFound
          else scanPages (worldRpc s) config publicKey "" pages (cursorAt (n + 1))) := by
  have number := cursorAt_number n
  have response : (worldRpc s).getDynamicFields "" (cursorAt n) 50 = .ok ⟨none,some ⟨
      some (((s.registry.drop (n * 50)).take 50).map some),
      if (s.registry.drop (n * 50)).length ≤ 50 then none else some (cursorText (n + 1)),
      some (50 < (s.registry.drop (n * 50)).length)⟩⟩ := by
    simp only [worldRpc,number]
  rw [scanPages,response]
  change (scanEntries (worldRpc s) config publicKey (((s.registry.drop (n * 50)).take 50).map some) >>= fun found =>
    match found with | some found => _ | none => _) = _
  congr 1
  funext found
  cases found with
  | some found => rfl
  | none =>
    change (match (if (s.registry.drop (n * 50)).length ≤ 50 then none else some (cursorText (n + 1)) : Option String) with
      | none => _ | some next => _) = if _ then _ else _
    by_cases all_ : (s.registry.drop (n * 50)).length ≤ 50
    · rw [if_pos all_,if_pos all_]
    · have more : 50 < (s.registry.drop (n * 50)).length := Nat.lt_of_not_le all_
      rw [if_neg all_,if_neg all_]
      change (if decide (50 < (s.registry.drop (n * 50)).length) = true then _ else _) = _
      rw [if_pos (decide_eq_true more)]
      rfl

theorem pages_agree (named : ∀ accountId ∈ s.registry, accountId ≠ "") {pages n : Nat} {calls : List Call}
    {result : Except OnchainVerifyError (AccountId × Owner)}
    (completes : Completes serve (Auth.scanPages config publicKey pages n) calls result) (still : Still s calls) :
    result = scanPages (worldRpc s) config publicKey "" pages (cursorAt n) := by
  induction pages generalizing n calls with
  | zero =>
    cases calls with
    | nil => exact completes
    | cons made rest => cases completes
  | succ pages ih =>
    rw [world_page]
    cases calls with
    | nil => cases completes
    | cons made rest =>
      obtain ⟨same,completes⟩ := completes
      obtain ⟨⟨here,works⟩,after⟩ := List.forall_mem_cons.mp still
      have answer : (serve s (.registryPage n) made.choice).2 = some ⟨(s.registry.drop (n * 50)).take 50,
          if (s.registry.drop (n * 50)).length ≤ 50 then none else some (n + 1)⟩ := by
        simp only [serve,works]
        rfl
      rw [here,answer] at completes
      change Completes serve (scanAccounts config publicKey ((s.registry.drop (n * 50)).take 50) >>= fun found =>
        match found with | some found => _ | none => _) rest result at completes
      have listed : ∀ accountId ∈ (s.registry.drop (n * 50)).take 50, accountId ≠ "" :=
        fun accountId member => named accountId (List.mem_of_mem_drop (List.mem_of_mem_take member))
      rcases completes.bind with ⟨error,rfl,failed⟩ | ⟨first,others,found,rfl,head,tail⟩
      · rw [← entries_agree listed failed after]
        rfl
      · obtain ⟨before,last⟩ := Still.append after
        rw [← entries_agree listed head before]
        cases found with
        | some found =>
          cases others with
          | nil => exact tail
          | cons made more => cases tail
        | none =>
          change result = if _ then _ else _
          by_cases all_ : (s.registry.drop (n * 50)).length ≤ 50
          · rw [if_pos all_] at tail ⊢
            cases others with
            | nil => exact tail
            | cons made more => cases tail
          · rw [if_neg all_] at tail ⊢
            exact ih tail last

-- The scan of the middleware is the scan of its registry.
theorem middleware_scans (named : ∀ accountId ∈ s.registry, accountId ≠ "") {calls : List Call}
    {result : Except OnchainVerifyError (AccountId × Owner)}
    (completes : Completes serve (Auth.findAccountByDelegateKey config publicKey) calls result) (still : Still s calls)
    (registryId : String) :
    result = findAccountByDelegateKey (worldRpc s) config publicKey registryId config.registryScanMaxPages :=
  pages_agree named completes still

end Middleware

end MemWal.Auth.Scan
