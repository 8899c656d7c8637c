import MemWal.Auth.Middleware
import MemWal.Library.Traces

namespace MemWal.Auth
open Library Library.Fallible

abbrev Call := Made World Op Choice

-- A read of account `h` that finds the key among its delegates.
structure Delegate (config : Config) (publicKey : Bytes) (owner : Owner) (s : World) (h : AccountId) : Prop where
  account : ∃ content fields keys, s.objects.get? h = some content ∧
    content.objectType = some (memwalAccountType config) ∧ content.fields = some fields ∧
    fields.owner = some owner ∧ fields.active = some true ∧ fields.delegateKeys = some keys ∧ publicKey ∈ keys

theorem checkAccount_ok {config : Config} {publicKey : Bytes} {object : Option ObjectContent} {owner : Owner} :
    checkAccount config publicKey object = .ok owner ↔ ∃ content fields keys, object = some content ∧
      content.objectType = some (memwalAccountType config) ∧ content.fields = some fields ∧
      fields.owner = some owner ∧ fields.active = some true ∧ fields.delegateKeys = some keys ∧ publicKey ∈ keys := by
  simp only [checkAccount,bind_ok,require_ok,ensure_ok,pure_ok,exists_const]
  constructor
  · intro given
    obtain ⟨content,found,typed,fields,present,owner,owned,active,known,rfl,keys,listed,member,rfl⟩ := given
    exact ⟨content,fields,keys,found,typed,present,owned,known,listed,member⟩
  · intro given
    obtain ⟨content,fields,keys,found,typed,present,owned,known,listed,member⟩ := given
    exact ⟨content,found,typed,fields,present,owner,owned,true,known,rfl,keys,listed,member,rfl⟩

-- A call that reads account `h`, and what it finds.
def Finds (config : Config) (publicKey : Bytes) (owner : Owner) (h : AccountId) (made : Call) : Prop :=
  made.op = .getObject h ∧ made.choice.fault = none ∧ Delegate config publicKey owner made.state h

theorem finds_iff {config : Config} {publicKey : Bytes} {owner : Owner} {h : AccountId} {state : World}
    {choice : Choice} : Finds config publicKey owner h ⟨state,.getObject h,choice⟩ ↔
      checkAccount config publicKey (serve state (.getObject h) choice).2 = .ok owner := by
  rw [checkAccount_ok]
  constructor
  · intro given
    obtain ⟨_,works,⟨content,fields,keys,found,rest⟩⟩ := given
    refine ⟨content,fields,keys,?_,rest⟩
    simp only [serve] at works ⊢
    rw [works]
    exact found
  · intro given
    obtain ⟨content,fields,keys,found,rest⟩ := given
    simp only [serve] at found
    split at found
    · rename_i works
      exact ⟨rfl,Option.isNone_iff_eq_none.mp works,⟨content,fields,keys,found,rest⟩⟩
    · cases found

-- The handler runs for the account the request names, read during the request.
structure Bound (config : Config) (h : AccountId) (calls : List Call) (auth : AuthInfo) : Prop where
  accountId : auth.accountId = h
  delegate : ∃ publicKey made, hexDecode auth.publicKey = some publicKey ∧ made ∈ calls ∧
    Finds config publicKey auth.owner h made

-- The cache holds another account under this spelling of the key, and the key is
-- still a delegate there when that account is read.
def Elsewhere (config : Config) (h : AccountId) (publicKeyHex : String) (calls : List Call) : Prop :=
  ∃ lookup ∈ calls, lookup.op = .getCachedAccount publicKeyHex ∧ lookup.choice.fault = none ∧
    ∃ row, lookup.state.cached publicKeyHex = some row ∧ row.accountId ≠ h ∧
      ∃ publicKey made owner, hexDecode publicKeyHex = some publicKey ∧ made ∈ calls ∧
        Finds config publicKey owner row.accountId made

section Kinds

def Early : Op → Prop
  | .now | .readBody | .setNonce _ _ _ => True
  | _ => False

variable {kit : Kit} {config : Config} {ε : Type}

theorem call_only {kind : Op → Prop} {op : Op} (here : kind op) :
    (call op : Program Op Answer ε (Answer op)).Only kind := .perform here

theorem decodeRequest_early (request : SignedRequest) : (decodeRequest kit request).Only Early := by
  refine .bind (.orFail _) (fun _ => .bind (.orFail _) (fun _ => .bind (.orFail _) (fun _ => ?_)))
  refine .bind (.orFail _) (fun _ => .bind (.orFail _) (fun _ => .bind (.orFail _) (fun _ => ?_)))
  refine .bind (@call_only _ _ .now trivial) (fun _ => .bind (.orFail _) (fun _ => .bind (.orFail _) (fun _ => ?_)))
  refine .bind (.orFail _) (fun _ => .bind (.orFail _) (fun _ => .bind (.orFail _) (fun _ => ?_)))
  exact .bind (.orFail _) (fun _ => trivial)

theorem recordNonce_early (credential : Credential) : (recordNonce credential).Only Early :=
  .bind (@call_only _ _ (.setNonce _ _ _) trivial) (fun _ => .orFail _)

end Kinds

-- What has to hold of the calls of a resolution that returns an account, when
-- the request has a hint.
section Resolution
variable {config : Config} {publicKeyHex : String} {publicKey : Bytes} {h : AccountId}

theorem verified {calls : List Call} {accountId : AccountId} {result : Except OnchainVerifyError Owner}
    (completes : Completes serve (verifyDelegateKeyOnchain config accountId publicKey) calls result) :
    ∃ made, calls = [made] ∧ made.op = .getObject accountId ∧
      ∀ owner, result = .ok owner ↔ Finds config publicKey owner accountId made := by
  rcases Completes.bind completes with ⟨error,_,failed⟩ | ⟨first,rest,object,rfl,read,checked⟩
  · obtain ⟨_,_,_,equal⟩ := Completes.perform failed
    cases equal
  · obtain ⟨state,choice,rfl,equal⟩ := Completes.perform read
    cases equal
    obtain ⟨rfl,equal⟩ := Completes.orFail checked
    refine ⟨⟨state,_,choice⟩,rfl,rfl,fun owner => ?_⟩
    rw [finds_iff,equal]
    cases checkAccount config publicKey (serve state (.getObject accountId) choice).2 with
    | ok other => simp [Except.mapError]
    | error error => simp [Except.mapError]

theorem exact_resolved {calls : List Call} {accountId : AccountId} {owner : Owner}
    (completes : Completes serve (exactAccount config publicKeyHex publicKey (some h)) calls (.ok (accountId,owner))) :
    accountId = h ∧ ∃ read write, calls = [read,write] ∧ read.op = .getObject h ∧ Finds config publicKey owner h read ∧
      write.op = .cacheDelegateKey publicKeyHex h owner := by
  obtain ⟨first,rest,result,rfl,read,done⟩ := Completes.bind_ok completes
  obtain ⟨inner,equal,inside⟩ := Completes.attempt read
  cases equal
  obtain ⟨made,rfl,opened,found⟩ := verified inside
  cases result with
  | error error => cases rest <;> cases done
  | ok verifiedOwner =>
    obtain ⟨second,last,_,rfl,cached,returned⟩ := Completes.bind_ok done
    obtain ⟨state,choice,rfl,_⟩ := Completes.perform cached
    cases last with
    | nil =>
      cases returned
      exact ⟨rfl,made,_,rfl,opened,(found _).mp rfl,rfl⟩
    | cons next more => cases returned

theorem looked_up {s : World} {c : Choice} {found : AccountId × Owner} :
    (serve s (.getCachedAccount publicKeyHex) c).2 = .ok (some found) ↔
      c.fault = none ∧ ∃ row, s.cached publicKeyHex = some row ∧ (row.accountId,row.owner) = found := by
  simp only [serve]
  cases c.fault with
  | none => simp [fallible]
  | some fault => cases fault <;> simp [fallible]

-- Either the cached account was found to have the key, or the hint was.
structure Outcome (config : Config) (publicKeyHex : String) (publicKey : Bytes) (h accountId : AccountId) (owner : Owner)
    (lookup : Call) (rest : List Call) : Prop where
  single : ∀ made ∈ rest, made.op ≠ .getCachedAccount publicKeyHex
  source : (∃ row read, lookup.choice.fault = none ∧ lookup.state.cached publicKeyHex = some row ∧ rest = [read] ∧
      accountId = row.accountId ∧ Finds config publicKey owner row.accountId read) ∨
    (accountId = h ∧ (∃ read ∈ rest, Finds config publicKey owner h read) ∧
      ∀ row, lookup.choice.fault = none → lookup.state.cached publicKeyHex = some row → row.accountId ≠ h →
        ∀ made ∈ rest, ∀ other, ¬ Finds config publicKey other row.accountId made)

theorem resolved {calls : List Call} {accountId : AccountId} {owner : Owner}
    (completes : Completes serve (resolveAccount config publicKeyHex publicKey (some h)) calls (.ok (accountId,owner))) :
    ∃ lookup rest, calls = lookup :: rest ∧ lookup.op = .getCachedAccount publicKeyHex ∧
      Outcome config publicKeyHex publicKey h accountId owner lookup rest := by
  obtain ⟨first,rest,answer,rfl,looked,done⟩ := Completes.bind_ok completes
  obtain ⟨state,choice,rfl,equal⟩ := Completes.perform looked
  have answered := Except.ok.inj equal
  refine ⟨_,rest,rfl,rfl,?_⟩
  have unread : (∀ found, answer ≠ .ok (some found)) → ∀ row, choice.fault = none →
      state.cached publicKeyHex ≠ some row := by
    intro missing row works present
    exact missing _ (answered.trans (looked_up.mpr ⟨works,row,present,rfl⟩))
  have direct : Completes serve (exactAccount config publicKeyHex publicKey (some h)) rest (.ok (accountId,owner)) →
      (∀ found, answer ≠ .ok (some found)) →
      Outcome config publicKeyHex publicKey h accountId owner ⟨state,.getCachedAccount publicKeyHex,choice⟩ rest := by
    intro finish missing
    obtain ⟨same,read,write,equal,opened,found,wrote⟩ := exact_resolved finish
    refine ⟨?_,.inr ⟨same,⟨read,by simp [equal],found⟩,?_⟩⟩
    · intro made member
      rw [equal] at member
      rcases List.mem_cons.mp member with rfl | later
      · simp [opened]
      · simp [List.mem_singleton.mp later,wrote]
    · intro row works present
      exact absurd present (unread missing row works)
  cases answer with
  | error lost => exact direct done (by simp)
  | ok found =>
    cases found with
    | none => exact direct done (by simp)
    | some cached =>
      obtain ⟨cachedAccountId,cachedOwner⟩ := cached
      obtain ⟨works,row,present,same⟩ := looked_up.mp answered.symm
      obtain ⟨rfl,rfl⟩ := Prod.mk.inj same
      obtain ⟨read,after,result,rfl,attempted,done⟩ := Completes.bind_ok done
      obtain ⟨inner,equal,inside⟩ := Completes.attempt attempted
      cases equal
      obtain ⟨made,rfl,opened,found⟩ := verified inside
      cases result with
      | ok verifiedOwner =>
        cases after with
        | nil =>
          cases done
          refine ⟨?_,.inl ⟨row,made,works,present,rfl,rfl,(found _).mp rfl⟩⟩
          intro other member
          simp [List.mem_singleton.mp member,opened]
        | cons next more => cases done
      | error error =>
        obtain ⟨dropped,last,_,rfl,deleted,finish⟩ := Completes.bind_ok done
        obtain ⟨_,_,rfl,_⟩ := Completes.perform deleted
        obtain ⟨same,read,write,rfl,readHint,hintFound,wrote⟩ := exact_resolved finish
        refine ⟨?_,.inr ⟨same,⟨read,by simp,hintFound⟩,?_⟩⟩
        · intro other member
          simp only [List.cons_append,List.nil_append,List.mem_cons,List.not_mem_nil,or_false] at member
          rcases member with rfl | rfl | rfl | rfl
          · simp [opened]
          · simp
          · simp [readHint]
          · simp [wrote]
        · -- The read of the cached account failed, and the other read is of the hint.
          intro row' _ present' elsewhere other member otherOwner finds
          cases present.symm.trans present'
          simp only [List.cons_append,List.nil_append,List.mem_cons,List.not_mem_nil,or_false] at member
          rcases member with rfl | rfl | rfl | rfl
          · cases (found otherOwner).mpr finds
          · cases finds.1
          · rw [finds.1] at readHint
            exact elsewhere (Op.getObject.inj readHint)
          · rw [finds.1] at wrote
            cases wrote

end Resolution

section Requests
variable {kit : Kit} {config : Config} {request : SignedRequest}

theorem decoded {calls : List Call} {signed : Signed}
    (completes : Completes serve (decodeRequest kit request) calls (.ok signed)) :
    hexDecode signed.publicKeyHex = some signed.publicKey ∧ signed.publicKey.length = 32 ∧
      request.publicKey = some signed.publicKeyHex ∧ signed.message.accountId = request.accountId.getD "" := by
  unfold decodeRequest at completes
  obtain ⟨_,_,publicKeyHex,_,header,completes⟩ := Completes.bind_ok completes
  obtain ⟨_,_,signatureHex,_,_,completes⟩ := Completes.bind_ok completes
  obtain ⟨_,_,timestampStr,_,_,completes⟩ := Completes.bind_ok completes
  obtain ⟨_,_,nonce,_,_,completes⟩ := Completes.bind_ok completes
  obtain ⟨_,_,_,_,_,completes⟩ := Completes.bind_ok completes
  obtain ⟨_,_,timestamp,_,_,completes⟩ := Completes.bind_ok completes
  obtain ⟨_,_,now,_,_,completes⟩ := Completes.bind_ok completes
  obtain ⟨_,_,_,_,_,completes⟩ := Completes.bind_ok completes
  obtain ⟨_,_,publicKey,_,hex,completes⟩ := Completes.bind_ok completes
  obtain ⟨_,_,_,_,size,completes⟩ := Completes.bind_ok completes
  obtain ⟨_,_,_,_,_,completes⟩ := Completes.bind_ok completes
  obtain ⟨_,_,signature,_,_,completes⟩ := Completes.bind_ok completes
  obtain ⟨_,last,_,_,_,completes⟩ := Completes.bind_ok completes
  cases last with
  | nil =>
    cases completes
    exact ⟨require_ok.mp (Completes.orFail_ok hex).2,ensure_ok.mp (Completes.orFail_ok size).2,
      require_ok.mp (Completes.orFail_ok header).2,rfl⟩
  | cons next more => cases completes

-- What an accepted request has gone through: its signature was verified under
-- the key its header spells, and an account was resolved for it; then its handler
-- runs, and nothing comes after that.
structure Accepted (kit : Kit) (config : Config) (request : SignedRequest) (calls : List Call) (made : Call)
    (auth : AuthInfo) (early middle : List Call) (publicKey : Bytes) : Prop where
  split : calls = early ++ middle ++ [made]
  before : ∀ call ∈ early, Early call.op
  header : request.publicKey = some auth.publicKey
  hex : hexDecode auth.publicKey = some publicKey
  size : publicKey.length = 32
  verified : ∃ message : SignedMessage, ∃ signature, message.accountId = request.accountId.getD "" ∧
    kit.verify publicKey (message.text kit) signature = true
  resolves : Completes serve (resolveAccount config auth.publicKey publicKey request.accountId) middle
    (.ok (auth.accountId,auth.owner))

theorem reached {since : World} {calls : List Call} {auth : AuthInfo} {made : Call}
    (ran : Execution serve (fun _ _ => True) (verifySignature kit config request) since calls)
    (member : made ∈ calls) (runs : made.op = .run auth) :
    ∃ early middle publicKey, Accepted kit config request calls made auth early middle publicKey := by
  have late : ¬ Early made.op := runs ▸ id
  have unresolved : ¬ Resolves made.op := runs ▸ id
  unfold verifySignature at ran
  obtain ⟨one,_,signed,_,rfl,past,decoding,ran₁⟩ := Execution.beyond ran (decodeRequest_early request) member late
  obtain ⟨two,_,read,_,rfl,later,reading,ran₂⟩ :=
    Execution.beyond ran₁ (@call_only _ Early .readBody trivial) past late
  obtain ⟨three,_,_,_,rfl,past,sized,ran₃⟩ := Execution.beyond ran₂ (@Program.Only.orFail _ _ _ _ _ Early _ _) later late
  obtain ⟨four,_,_,_,rfl,later,signing,ran₄⟩ := Execution.beyond ran₃ (@Program.Only.orFail _ _ _ _ _ Early _ _) past late
  obtain ⟨five,_,_,_,rfl,past,recording,ran₅⟩ := Execution.beyond ran₄ (recordNonce_early _) later late
  obtain ⟨six,tail,result,_,rfl,last,resolving,ran₆⟩ :=
    Execution.beyond ran₅ (Program.Only.attempt (resolveAccount_only _ _ _)) past unresolved
  obtain ⟨hex,size,header,account⟩ := decoded decoding
  obtain ⟨inner,equal,resolving⟩ := Completes.attempt resolving
  cases equal
  cases result with
  | error error =>
    cases tail with
    | nil => cases last
    | cons final more => cases ran₆
  | ok found =>
    obtain ⟨accountId,owner⟩ := found
    cases tail with
    | nil => cases last
    | cons final more =>
      obtain ⟨opened,_,stopped⟩ := ran₆
      cases more with
      | cons next others => cases stopped
      | nil =>
        cases List.mem_singleton.mp last
        cases opened.symm.trans runs
        obtain ⟨rfl,_⟩ := Completes.orFail sized
        obtain ⟨rfl,valid⟩ := Completes.orFail_ok signing
        refine ⟨one ++ two ++ five,six,signed.publicKey,by simp,?_,header,hex,size,
          ⟨signed.message,signed.signature,account,ensure_ok.mp valid⟩,resolving⟩
        intro call member
        rcases List.mem_append.mp member with member | member
        · rcases List.mem_append.mp member with member | member
          · exact decoding.only (decodeRequest_early request) call member
          · exact reading.only (@call_only _ Early .readBody trivial) call member
        · exact recording.only (recordNonce_early _) call member

theorem accepted_bound {h : AccountId} {calls early rest : List Call} {lookup made : Call} {auth : AuthInfo}
    {publicKey : Bytes} (split : calls = early ++ (lookup :: rest) ++ [made]) (before : ∀ call ∈ early, Early call.op)
    (runs : made.op = .run auth) (hex : hexDecode auth.publicKey = some publicKey)
    (looked : lookup.op = .getCachedAccount auth.publicKey)
    (outcome : Outcome config auth.publicKey publicKey h auth.accountId auth.owner lookup rest) :
    Bound config h calls auth ↔ ¬ Elsewhere config h auth.publicKey calls := by
  -- There is one look into the cache.
  have once : ∀ call ∈ calls, call.op = .getCachedAccount auth.publicKey → call = lookup := by
    intro call member again
    rw [split] at member
    rcases List.mem_append.mp member with inside | last
    · rcases List.mem_append.mp inside with first | middle
      · have quiet := before call first
        rw [again] at quiet
        cases quiet
      · rcases List.mem_cons.mp middle with same | later
        · exact same
        · exact absurd again (outcome.single call later)
    · rw [List.mem_singleton.mp last,runs] at again
      cases again
  -- The reads of accounts come after it.
  have after : ∀ call ∈ calls, ∀ accountId, call.op = .getObject accountId → call ∈ rest := by
    intro call member accountId opened
    rw [split] at member
    rcases List.mem_append.mp member with inside | last
    · rcases List.mem_append.mp inside with first | middle
      · have quiet := before call first
        rw [opened] at quiet
        cases quiet
      · rcases List.mem_cons.mp middle with same | later
        · rw [same,looked] at opened
          cases opened
        · exact later
    · rw [List.mem_singleton.mp last,runs] at opened
      cases opened
  have within : ∀ call ∈ rest, call ∈ calls := by
    intro call member
    rw [split]
    simp [member]
  constructor
  · intro bound found
    obtain ⟨other,member,again,works,row,present,different,_,_,_,decoded,there,finds⟩ := found
    cases once other member again
    cases hex.symm.trans decoded
    rcases outcome.source with ⟨row',read,_,present',_,same,_⟩ | ⟨_,_,none_⟩
    · cases present.symm.trans present'
      exact different (same.symm.trans bound.accountId)
    · exact none_ row works present different _ (after _ there _ finds.1) _ finds
  · intro here
    rcases outcome.source with ⟨row,read,works,present,equal,same,finds⟩ | ⟨same,⟨read,member,finds⟩,_⟩
    · have inside : read ∈ calls := within read (by simp [equal])
      by_cases different : row.accountId = h
      · exact ⟨same.trans different,publicKey,read,hex,inside,different ▸ finds⟩
      · have there : lookup ∈ calls := by simp [split]
        exact absurd ⟨lookup,there,looked,works,row,present,different,publicKey,read,_,hex,inside,finds⟩ here
    · exact ⟨same,publicKey,read,hex,within read member,finds⟩

end Requests
theorem calls_execution (kit : Kit) (config : Config) (start : World) {acts : List Act} {i worker : Nat}
    {request : Request} (spawned : acts[i]? = some (.spawn worker request))
    (free : (at_ kit config start acts i).workers.get? worker = none) :
    Execution serve (fun _ _ => True) ((server kit config).program request) start
      (callsOf kit config start acts i worker) := by
  refine @Crew.made_execution _ _ _ _ _ _ _ _ (server kit config) _ _ (acts.drop (i+1)) _ _ ?_
  have ran : (server kit config).exec (at_ kit config start acts i) (.spawn worker request) =
      .ok ⟨(at_ kit config start acts i).shared,
        (at_ kit config start acts i).workers.upsert worker ((server kit config).program request)⟩ := by
    simp only [Crew.exec,free]
  have next : at_ kit config start acts (i+1) = ⟨(at_ kit config start acts i).shared,
      (at_ kit config start acts i).workers.upsert worker ((server kit config).program request)⟩ :=
    (Runs.before_succ spawned).trans (Runs.settle_ok ran)
  rw [next,Store.get?_upsert,if_pos rfl]

-- In every run, a request that is accepted with a hint runs for the account it
-- names, just when the cache does not name another one that still has the key.
theorem hint_binding_iff (kit : Kit) (config : Config) (start : World) (acts : List Act) (i worker : Nat)
    (request : SignedRequest) (h : AccountId) (auth : AuthInfo)
    (spawned : acts[i]? = some (.spawn worker (.signed request)))
    (free : (at_ kit config start acts i).workers.get? worker = none) (hint : request.accountId = some h)
    (runs : ∃ made ∈ callsOf kit config start acts i worker, made.op = .run auth) :
    request.publicKey = some auth.publicKey ∧ (Bound config h (callsOf kit config start acts i worker) auth ↔
      ¬ Elsewhere config h auth.publicKey (callsOf kit config start acts i worker)) := by
  obtain ⟨made,member,runs⟩ := runs
  have ran := calls_execution kit config start spawned free
  obtain ⟨early,middle,publicKey,accepted⟩ := reached ran member runs
  have resolves := accepted.resolves
  rw [hint] at resolves
  obtain ⟨lookup,rest,rfl,looked,outcome⟩ := resolved resolves
  exact ⟨accepted.header,accepted_bound accepted.split accepted.before runs accepted.hex looked outcome⟩

-- One key in two accounts.
def shared : World where
  clock := 1000000
  objects := Store.empty.upsert "0xa" ⟨some "0xp::account::MemWalAccount",some ⟨some "0xo",some true,
      some [List.replicate 32 0]⟩⟩ |>.upsert "0xb" ⟨some "0xp::account::MemWalAccount",some ⟨some "0xq",some true,
      some [List.replicate 32 0]⟩⟩

def hinted (nonce : String) (accountId : AccountId) : SignedRequest :=
  {replayed with nonce := some nonce, accountId := some accountId}

-- A request for the one account, then a request for the other.
def twoHints : List Act :=
  .spawn 0 (.signed (hinted sampleNonce "0xa")) :: List.replicate 7 (.step 0 {}) ++
    .spawn 1 (.signed (hinted "f47ac10b-58cc-4372-a567-0e02b2c3d470" "0xb")) :: List.replicate 7 (.step 1 {})

theorem firstHint_runs : ∃ made ∈ callsOf sampleKit sampleConfig shared twoHints 0 0,
    made.op = .run ⟨sampleKey,"0xo","0xa",none,none⟩ := by
  have ran : (callsOf sampleKit sampleConfig shared twoHints 0 0).any
      (fun made => decide (made.op = .run ⟨sampleKey,"0xo","0xa",none,none⟩)) = true := by decide +kernel
  simpa [List.any_eq_true] using ran

theorem hint_binding_first :
    (hinted sampleNonce "0xa").publicKey = some sampleKey ∧
    (Bound sampleConfig "0xa" (callsOf sampleKit sampleConfig shared twoHints 0 0) ⟨sampleKey,"0xo","0xa",none,none⟩ ↔
      ¬ Elsewhere sampleConfig "0xa" sampleKey (callsOf sampleKit sampleConfig shared twoHints 0 0)) :=
  hint_binding_iff sampleKit sampleConfig shared twoHints 0 0 (hinted sampleNonce "0xa") "0xa"
    ⟨sampleKey,"0xo","0xa",none,none⟩ rfl rfl rfl firstHint_runs

-- The second request is signed for account 0xb and runs for account 0xa.
theorem hint_not_binding : ∃ request auth, twoHints[8]? = some (.spawn 1 (.signed request)) ∧
    request.accountId = some "0xb" ∧ (∃ made ∈ callsOf sampleKit sampleConfig shared twoHints 8 1, made.op = .run auth) ∧
    ¬ Bound sampleConfig "0xb" (callsOf sampleKit sampleConfig shared twoHints 8 1) auth := by
  refine ⟨hinted "f47ac10b-58cc-4372-a567-0e02b2c3d470" "0xb",⟨sampleKey,"0xo","0xa",none,none⟩,rfl,rfl,?_,?_⟩
  · have ran : (callsOf sampleKit sampleConfig shared twoHints 8 1).any
        (fun made => decide (made.op = .run ⟨sampleKey,"0xo","0xa",none,none⟩)) = true := by decide +kernel
    simpa [List.any_eq_true] using ran
  · intro bound
    exact absurd bound.accountId (by decide)

end MemWal.Auth
