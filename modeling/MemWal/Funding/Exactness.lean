import MemWal.Funding.Soundness

namespace MemWal.Funding
open Library

def splitPlace : Option Argument → Option Place
  | some (.nestedResult command output) => some (.result command output)
  | _ => none

-- The split coin that a payment is made from, if it is made from one.
def feed (data : TransactionData) : Option Argument → Option Place
  | some (.nestedResult command _) =>
    match data.commands[command]? with
    | some (.moveCall call) =>
      if call.module = "coin" ∧ call.function = "into_balance" then splitPlace call.arguments[0]? else none
    | _ => none
  | _ => none

def feeds (data : TransactionData) : List Command → List (Option Place)
  | [] => []
  | .moveCall call :: rest =>
    if call.target = "balance::send_funds" then feed data call.arguments[0]? :: feeds data rest else feeds data rest
  | _ :: rest => feeds data rest

def driftOf (s : State) : Option Place → Int
  | some place => s.drift place
  | none => 0

-- What was sent, against what the validator has read.
inductive Matches (final : State) : List Payment → List (Option Place) → List Payment → Prop where
  | nil : Matches final [] [] []
  | cons (address coinType : String) (amount value : Nat) (from_ : Option Place) (vs : List Payment)
      (fs : List (Option Place)) (ps : List Payment) : (value : Int) = amount + driftOf final from_ →
      Matches final vs fs ps →
      Matches final (⟨address,coinType,amount⟩ :: vs) (from_ :: fs) (⟨address,coinType,value⟩ :: ps)

section Reading
variable {kit : Kit} {data : TransactionData} {intent : FundingIntent kit} {what : String}

theorem pureBytes_ok {argument : Argument} {kind : String} {bytes : Bytes}
    (read : pureBytes data (some argument) what kind = .ok bytes) : pureBytesAt data argument = some bytes := by
  simp only [pureBytes,Fallible.bind_ok] at read
  obtain ⟨input,found,read⟩ := read
  cases argument with
  | input index =>
    have there := Fallible.require_ok.mp found
    cases input with
    | pure inner =>
      simp only [Fallible.bind_ok,Fallible.pure_ok] at read
      obtain ⟨_,_,rfl⟩ := read
      simp only [pureBytesAt,there]
    | object _ => cases read
    | fundsWithdrawal _ => cases read
  | gasCoin => cases found
  | result _ => cases found
  | nestedResult _ _ => cases found

theorem pureAddress_ok {argument : Argument} {address : String}
    (read : pureAddress kit data (some argument) what = .ok address) : addressAt kit data argument = some address := by
  simp only [pureAddress,Fallible.bind_ok,Fallible.ensure_ok,Fallible.pure_ok] at read
  obtain ⟨bytes,found,_,size,rfl⟩ := read
  simp [addressAt,pureBytes_ok found,size]

theorem pureU64_ok {argument : Argument} {amount : Nat} (read : pureU64 data (some argument) what = .ok amount) :
    u64At data argument = some amount := by
  simp only [pureU64,Fallible.bind_ok,Fallible.ensure_ok,Fallible.pure_ok] at read
  obtain ⟨bytes,found,_,size,rfl⟩ := read
  simp [u64At,pureBytes_ok found,size]

theorem splitAmount_ok {argument : Argument} {amount : Nat}
    (read : splitAmount data (some argument) what = .ok amount) :
    ∃ i j, argument = .nestedResult i j ∧ amountAt data i j = some amount := by
  simp only [splitAmount] at read
  split at read
  · rename_i i j equal
    cases equal
    split at read
    · rename_i coin amounts command
      simp only [Fallible.bind_ok,Fallible.require_ok] at read
      obtain ⟨listed,there,read⟩ := read
      refine ⟨i,j,rfl,?_⟩
      simp only [amountAt,command,there,Option.bind_some]
      exact pureU64_ok read
    · cases read
  · cases read

theorem withdrawalAmount_ok {world : World} {coinType type : String} {input : Input} {amount limit : Nat}
    (read : withdrawalAmount kit coinType what input = .ok amount)
    (asset : inputAsset kit data world input = some (.withdrawal type limit)) : limit = amount := by
  unfold withdrawalAmount at read
  split at read
  · split at read
    · cases read
      simp only [inputAsset,true_or,if_true,Option.some.injEq,Asset.withdrawal.injEq] at asset
      exact asset.2.symm
    · cases read
  · cases read

-- The amount read is what the balance was made of, up to the drift of the coin.
theorem outputAmount_matches {world : World} {n : Nat} {s : State} {balance : Argument} {place : Place}
    {coinType : String} {amount value : Nat} (inv : Inv kit data world n s)
    (read : outputAmount kit data (some balance) coinType what = .ok amount)
    (resolved : resolve data balance = some place) (held : s.assets.get? place = some (.balance coinType value)) :
    (value : Int) = amount + driftOf s (feed data (some balance)) ∧
      ∀ from_, feed data (some balance) = some from_ → ∃ i j, from_ = .result i j ∧ i < n ∧
        s.assets.get? from_ = none := by
  simp only [outputAmount] at read
  split at read
  · rename_i c r equal
    cases equal
    cases resolved
    split at read
    · rename_i call command
      simp only [Fallible.bind_ok,Fallible.ensure_ok] at read
      obtain ⟨_,rfl,read⟩ := read
      obtain ⟨c',call',equal,command',source⟩ := inv.sourced _ _ _ held
      cases equal
      cases command.symm.trans command'
      have small : c < n := inv.present c 0 (by rw [held]; exact Option.some_ne_none _)
      cases source with
      | redeemed index type module function arguments input =>
        have none_ : feed data (some (.nestedResult c 0)) = none := by
          simp [feed,command,module]
        rw [none_]
        refine ⟨?_,by simp⟩
        split at read
        · simp only [arguments,List.getElem?_cons_zero,Fallible.bind_ok] at read
          obtain ⟨found,there,read⟩ := read
          rw [Fallible.require_ok.mp there] at input
          rw [withdrawalAmount_ok read input]
          simp [driftOf]
        · split at read
          · rename_i names
            simp [MoveCall.calls,module] at names
          · cases read
      | converted argument place module function arguments resolved gone past tally =>
        split at read
        · rename_i names
          simp [MoveCall.calls,module] at names
        · split at read
          · simp only [arguments,List.getElem?_cons_zero] at read
            obtain ⟨i,j,rfl,amounts⟩ := splitAmount_ok read
            cases resolved
            have from_ : feed data (some (.nestedResult c 0)) = some (.result i j) := by
              simp [feed,splitPlace,command,module,function,arguments]
            rw [from_]
            refine ⟨tally i j amount rfl amounts,?_⟩
            intro other same
            cases same
            have before := past i j rfl
            exact ⟨i,j,rfl,by omega,gone⟩
          · cases read
    · cases read
  · cases read

theorem check_payment {n : Nat} {call : MoveCall} {type : String} {balance recipient : Argument} {payment : Option Payment}
    (target : call.target = "balance::send_funds") (typed : call.typeArguments = [type])
    (takes : call.arguments = [balance,recipient])
    (checked : checkCommand kit data intent n (.moveCall call) = .ok payment) :
    ∃ address amount what what', payment = some ⟨address,kit.normalizeStructTag type,amount⟩ ∧
      pureAddress kit data (some recipient) what = .ok address ∧
      outputAmount kit data (some balance) (kit.normalizeStructTag type) what' = .ok amount := by
  simp only [checkCommand,typed,target,takes] at checked
  simp only [Fallible.bind_ok,String.reduceEq,if_false,ne_eq,not_true_eq_false,List.getElem?_cons_succ,
    List.getElem?_cons_zero,Fallible.pure_ok] at checked
  obtain ⟨_,_,_,_,_,_,address,named,amount,read,rfl⟩ := checked
  exact ⟨address,amount,_,_,rfl,named,read⟩

theorem check_remainder {n : Nat} {call : MoveCall} {type : String} {coin recipient : Argument} {payment : Option Payment}
    (target : call.target = "coin::send_funds") (typed : call.typeArguments = [type])
    (takes : call.arguments = [coin,recipient])
    (checked : checkCommand kit data intent n (.moveCall call) = .ok payment) :
    payment = none ∧ ∃ what, pureAddress kit data (some recipient) what = .ok intent.sender := by
  simp only [checkCommand,typed,target,takes] at checked
  simp only [Fallible.bind_ok,if_true,List.getElem?_cons_succ,List.getElem?_cons_zero,Fallible.ensure_ok,
    Fallible.pure_ok] at checked
  obtain ⟨_,_,_,_,_,named,_,rfl,rfl⟩ := checked
  exact ⟨rfl,_,named⟩

theorem check_quiet {n : Nat} {command : Command} {payment : Option Payment}
    (quiet : ∀ call, command = .moveCall call → call.target ≠ "balance::send_funds")
    (checked : checkCommand kit data intent n command = .ok payment) : payment = none := by
  cases command with
  | splitCoins coin amounts =>
    cases checked
    rfl
  | mergeCoins destination sources =>
    cases checked
    rfl
  | other kind => cases checked
  | moveCall call =>
    simp only [checkCommand] at checked
    split at checked
    · simp only [Fallible.bind_ok] at checked
      obtain ⟨_,_,_,_,checked⟩ := checked
      split at checked
      · simp only [Fallible.bind_ok,Fallible.pure_ok] at checked
        obtain ⟨_,_,_,_,rfl⟩ := checked
        rfl
      · rw [if_pos (quiet call rfl)] at checked
        cases checked
        rfl
    · cases checked

end Reading

section Running
variable {kit : Kit} {data : TransactionData} {intent : FundingIntent kit} {world : World}

-- What holds at the end of a run that started in `s`.
structure Ran (kit : Kit) (data : TransactionData) (intent : FundingIntent kit) (n : Nat) (s final : State)
    (vs : List Payment) (fs : List (Option Place)) : Prop where
  worth : ∀ T, worth T final = worth T s
  gone : ∀ i j, i < n → s.assets.get? (.result i j) = none → final.drift (.result i j) = s.drift (.result i j)
  payments : ∃ ps, final.payments = s.payments ++ ps ∧ Matches final vs fs ps
  remainders : ∃ rs, final.remainders = s.remainders ++ rs ∧ ∀ r ∈ rs, r.address = intent.sender

theorem feeds_quiet {command : Command} {rest : List Command}
    (quiet : ∀ call, command = .moveCall call → call.target ≠ "balance::send_funds") :
    feeds data (command :: rest) = feeds data rest := by
  cases command with
  | moveCall call => simp only [feeds,if_neg (quiet call rfl)]
  | _ => rfl

theorem execCommands_ran {rest : List Command} {n : Nat} {s final : State} {vs : List Payment}
    (located : ∀ k, rest[k]? = data.commands[n+k]?) (inv : Inv kit data world n s)
    (ran : execCommands kit data s n rest = some final) (read : actualPayments kit data intent n rest = .ok vs) :
    Ran kit data intent n s final vs (feeds data rest) := by
  induction rest generalizing n s vs with
  | nil =>
    cases ran
    cases read
    exact ⟨fun _ => rfl,fun _ _ _ _ => rfl,⟨[],by simp,.nil⟩,⟨[],by simp,fun _ none_ => absurd none_ List.not_mem_nil⟩⟩
  | cons command rest ih =>
    simp only [execCommands] at ran
    obtain ⟨next,one,tail⟩ := Option.bind_eq_some_iff.mp ran
    simp only [actualPayments,Fallible.bind_ok,Fallible.pure_ok] at read
    obtain ⟨payment,checked,others,read,rfl⟩ := read
    have here : data.commands[n]? = some command := (located 0).symm
    obtain ⟨advances,sends⟩ := execCommand_advances inv here one
    have after := ih (n:=n+1) (fun k => by rw [← List.getElem?_cons_succ (a:=command),located]; congr 1; omega)
      advances.inv tail read
    have worth_ : ∀ T, worth T final = worth T s := fun T => (after.worth T).trans (advances.worth T)
    have gone_ : ∀ i j, i < n → s.assets.get? (.result i j) = none →
        final.drift (.result i j) = s.drift (.result i j) := by
      intro i j small absent
      obtain ⟨still,drift⟩ := advances.gone i j small absent
      exact (after.gone i j (by omega) still).trans drift
    obtain ⟨ps,payments,matches_⟩ := after.payments
    obtain ⟨rs,remainders,own⟩ := after.remainders
    cases sends with
    | nothing _ kept kept' quiet =>
      obtain rfl := check_quiet quiet checked
      rw [kept] at payments
      rw [kept'] at remainders
      rw [feeds_quiet quiet]
      exact ⟨worth_,gone_,⟨ps,payments,matches_⟩,⟨rs,remainders,own⟩⟩
    | remainder call type coin recipient address value target typed takes named kept sent =>
      obtain ⟨rfl,what,named'⟩ := check_remainder target typed takes checked
      cases named.symm.trans (pureAddress_ok named')
      rw [kept] at payments
      rw [sent,List.append_assoc] at remainders
      rw [feeds_quiet (by rintro _ equal; cases equal; rw [target]; decide)]
      refine ⟨worth_,gone_,⟨ps,payments,matches_⟩,⟨_,remainders,?_⟩⟩
      intro r member
      rcases List.mem_cons.mp member with rfl | later
      · rfl
      · exact own r later
    | payment call type balance recipient place address value target typed takes resolved named held sent kept drift
        none_ =>
      obtain ⟨address',amount,_,_,rfl,named',amounts⟩ := check_payment target typed takes checked
      cases named.symm.trans (pureAddress_ok named')
      obtain ⟨tally,fed⟩ := outputAmount_matches inv amounts resolved held
      rw [kept] at remainders
      rw [sent,List.append_assoc] at payments
      refine ⟨worth_,gone_,⟨_,payments,?_⟩,⟨rs,remainders,own⟩⟩
      simp only [feeds,target,if_true,takes,List.getElem?_cons_zero]
      refine .cons address _ amount value _ _ _ _ ?_ matches_
      rw [tally]
      congr 1
      cases from_ : feed data (some balance) with
      | none => rfl
      | some place' =>
        obtain ⟨i,j,rfl,small,absent⟩ := fed place' from_
        exact (gone_ i j small absent).symm

theorem inputAssets_keys (n : Nat) (inputs : List Input) :
    ∀ row ∈ inputAssets kit data world n inputs, ∃ k input, row.1 = .input (n+k) ∧ inputs[k]? = some input ∧
      inputAsset kit data world input = some row.2 := by
  induction inputs generalizing n with
  | nil => exact fun _ none_ => absurd none_ List.not_mem_nil
  | cons input rest ih =>
    intro row member
    rcases List.mem_append.mp member with here | later
    · cases asset : inputAsset kit data world input with
      | none => simp [asset] at here
      | some found =>
        simp only [asset,Option.map_some,Option.toList_some,List.mem_singleton] at here
        rw [here]
        exact ⟨0,input,rfl,rfl,asset⟩
    · obtain ⟨k,other,key,found,asset⟩ := ih (n+1) row later
      exact ⟨k+1,other,by rw [key]; congr 1; omega,found,asset⟩

theorem inputAssets_distinct (n : Nat) (inputs : List Input) :
    ((inputAssets kit data world n inputs).map Prod.fst).Nodup := by
  induction inputs generalizing n with
  | nil => exact List.nodup_nil
  | cons input rest ih =>
    simp only [inputAssets,List.map_append]
    cases asset : inputAsset kit data world input with
    | none => exact ih (n+1)
    | some found =>
      refine List.nodup_cons.mpr ⟨?_,ih (n+1)⟩
      intro member
      obtain ⟨row,there,equal⟩ := List.mem_map.mp member
      obtain ⟨k,_,key,_⟩ := inputAssets_keys (n+1) rest row there
      rw [key] at equal
      injection equal with equal
      omega

theorem initial_get {place : Place} {asset : Asset} (found : (initial kit data world).assets.get? place = some asset) :
    place = .gas ∧ (∃ value, asset = .coin (kit.normalizeStructTag suiType) value) ∨
      ∃ i, place = .input i ∧ (data.inputs[i]?).bind (inputAsset kit data world) = some asset := by
  have distinct : (((world.gasCoin.map (fun value =>
      ((.gas : Place),Asset.coin (kit.normalizeStructTag suiType) value))).toList ++
      inputAssets kit data world 0 data.inputs).map Prod.fst).Nodup := by
    cases world.gasCoin with
    | none => exact inputAssets_distinct 0 data.inputs
    | some value =>
      refine List.nodup_cons.mpr ⟨?_,inputAssets_distinct 0 data.inputs⟩
      intro member
      obtain ⟨row,there,equal⟩ := List.mem_map.mp member
      obtain ⟨k,_,key,_⟩ := inputAssets_keys 0 data.inputs row there
      rw [key] at equal
      cases equal
  have fresh : ∀ row ∈ ((world.gasCoin.map (fun value =>
      ((.gas : Place),Asset.coin (kit.normalizeStructTag suiType) value))).toList ++
      inputAssets kit data world 0 data.inputs), (Store.empty : Store Place Asset).get? row.1 = none := fun _ _ => rfl
  rcases (Store.get?_insertAll distinct fresh).mp found with none_ | member
  · cases none_
  · rcases List.mem_append.mp member with gas | input
    · cases coin : world.gasCoin with
      | none => simp [coin] at gas
      | some value =>
        simp only [coin,Option.map_some,Option.toList_some,List.mem_singleton] at gas
        cases gas
        exact .inl ⟨rfl,value,rfl⟩
    · obtain ⟨k,found_,key,there,asset_⟩ := inputAssets_keys 0 data.inputs _ input
      refine .inr ⟨k,?_,?_⟩
      · rw [show place = _ from key,Nat.zero_add]
      · rw [there]
        exact asset_

theorem inputAsset_kind {input : Input} {asset : Asset} (made : inputAsset kit data world input = some asset) :
    ∀ type value, asset ≠ .balance type value := by
  intro type value same
  obtain rfl := same
  unfold inputAsset at made
  split at made
  · cases made
  · rename_i object
    cases coin : world.coins object.objectId with
    | none => simp [coin] at made
    | some found => simp [coin] at made
  · split at made
    · cases made
    · split at made
      · split at made <;> cases made
      · cases made

theorem initial_inv : Inv kit data world 0 (initial kit data world) where
  present := by
    intro i j there
    obtain ⟨asset,found⟩ := Option.ne_none_iff_exists'.mp there
    rcases initial_get found with ⟨equal,_⟩ | ⟨_,equal,_⟩ <;> cases equal
  undrifted := fun _ _ _ => rfl
  tallied := by
    intro i j type value amount found
    rcases initial_get found with ⟨equal,_⟩ | ⟨_,equal,_⟩ <;> cases equal
  sourced := by
    intro place type value found
    rcases initial_get found with ⟨_,_,equal⟩ | ⟨i,_,made⟩
    · cases equal
    · obtain ⟨input,_,made⟩ := Option.bind_eq_some_iff.mp made
      exact absurd rfl (inputAsset_kind made type value)
  withdrawals := by
    intro place type limit found
    rcases initial_get found with ⟨_,_,equal⟩ | there
    · cases equal
    · exact there

end Running

-- A place that is a coin of somebody else.
def foreign (data : TransactionData) : Place → Bool
  | .input index =>
    match data.inputs[index]? with
    | some (.object object) => object.shared
    | _ => false
  | _ => false

-- What the sender has of a coin type: an address balance, coins, and what the
-- transaction has sent back.
def holdings (data : TransactionData) (sender : String) (s : State) (T : String) : Nat :=
  s.funds T + s.assets.total (fun place asset => if foreign data place then 0 else asset.worth T) +
    paid T (s.remainders.filter (fun r => decide (r.address = sender)))

def foreignWorth (data : TransactionData) (s : State) (T : String) : Nat :=
  s.assets.total (fun place asset => if foreign data place then asset.worth T else 0)

-- The intended payments leave the sender, and nothing else.
structure Exact (kit : Kit) (data : TransactionData) (intent : FundingIntent kit) (before after : State) : Prop where
  payments : ∃ addresses, flattenWriters kit intent.writers = .ok addresses ∧
    after.payments.Perm (addresses.flatMap (paymentsTo kit intent)) ∧
    ∀ T, holdings data intent.sender before T ≤
      holdings data intent.sender after T + paid T (addresses.flatMap (paymentsTo kit intent))
  remainders : ∀ r ∈ after.remainders, r.address = intent.sender

-- As much is split from each split coin that a payment is made from as is merged
-- into it, and no more is merged into coins of others than is split from them.
structure Undisturbed (data : TransactionData) (before after : State) : Prop where
  fed : ∀ place, some place ∈ feeds data data.commands → after.drift place = 0
  others : ∀ T, foreignWorth data after T ≤ foreignWorth data before T

section Claims
variable {kit : Kit} {data : TransactionData} {intent : FundingIntent kit} {world : World}

theorem Matches.same {final : State} {vs ps : List Payment} {fs : List (Option Place)} (matches_ : Matches final vs fs ps)
    (still : ∀ place, some place ∈ fs → final.drift place = 0) : ps = vs := by
  induction matches_ with
  | nil => rfl
  | cons address coinType amount value from_ vs fs ps tally _ ih =>
    have zero : driftOf final from_ = 0 := by
      cases from_ with
      | none => rfl
      | some place => exact still place List.mem_cons_self
    rw [ih (fun place member => still place (List.mem_cons_of_mem _ member)),show value = amount by omega]

-- Where the coin type of a payment fixes its amount, sending the amounts read
-- leaves no drift.
theorem Matches.still {final : State} {vs ps : List Payment} {fs : List (Option Place)} {amountOf : String → Nat}
    (matches_ : Matches final vs fs ps) (read : ∀ v ∈ vs, v.amount = amountOf v.coinType)
    (sent : ∀ p ∈ ps, p.amount = amountOf p.coinType) : ∀ place, some place ∈ fs → final.drift place = 0 := by
  induction matches_ with
  | nil => exact fun _ none_ => absurd none_ List.not_mem_nil
  | cons address coinType amount value from_ vs fs ps tally _ ih =>
    intro place member
    rcases List.mem_cons.mp member with rfl | later
    · have one : amount = amountOf coinType := read ⟨address,coinType,amount⟩ List.mem_cons_self
      have two : value = amountOf coinType := sent ⟨address,coinType,value⟩ List.mem_cons_self
      change (value : Int) = amount + final.drift place at tally
      omega
    · exact ih (fun v there => read v (List.mem_cons_of_mem _ there))
        (fun p there => sent p (List.mem_cons_of_mem _ there)) place later

theorem comparePayments_ok {index : Nat} {actual expected : List Payment} (long : actual.length = expected.length)
    (compared : comparePayments index actual expected = .ok ()) : actual = expected := by
  induction actual generalizing index expected with
  | nil =>
    cases expected with
    | nil => rfl
    | cons _ _ => cases long
  | cons first rest ih =>
    cases expected with
    | nil => cases long
    | cons other more =>
      simp only [comparePayments,Fallible.bind_ok,Fallible.ensure_ok] at compared
      obtain ⟨_,rfl,tail⟩ := compared
      rw [ih (by simpa using long) tail]

-- What an accepted transaction says.
structure Accepted (kit : Kit) (intent : FundingIntent kit) (data : TransactionData) (addresses : List String) : Prop where
  budget : data.gasBudget.getD 0 = intent.gasBudget
  writers : flattenWriters kit intent.writers = .ok addresses
  read : actualPayments kit data intent 0 data.commands = .ok (addresses.flatMap (paymentsTo kit intent))

theorem assert_accepted {bytes : Bytes} (accepted : assertFundingTransaction kit intent bytes = .ok data) :
    ∃ addresses, Accepted kit intent data addresses := by
  simp only [assertFundingTransaction,expectedPayments,Fallible.bind_ok,Fallible.ensure_ok,Fallible.pure_ok] at accepted
  obtain ⟨found,_,_,_,_,_,_,budget,actual,read,expected,⟨addresses,writers,rfl⟩,_,long,_,compared,rfl⟩ := accepted
  rw [comparePayments_ok long compared] at read
  exact ⟨addresses,budget,writers,read⟩

def amountOf (kit : Kit) (intent : FundingIntent kit) (coinType : String) : Nat :=
  if coinType = kit.normalizeStructTag suiType then intent.mistPerAddress else intent.frostPerAddress

theorem amount_paid {addresses : List String} :
    ∀ v ∈ addresses.flatMap (paymentsTo kit intent), v.amount = amountOf kit intent v.coinType := by
  intro v member
  obtain ⟨address,_,there⟩ := List.mem_flatMap.mp member
  simp only [paymentsTo,List.mem_cons,List.not_mem_nil,or_false] at there
  rcases there with rfl | rfl
  · simp [amountOf]
  · simp [amountOf,intent.notSui]

theorem worth_parts {s : State} {sender T : String} (own : ∀ r ∈ s.remainders, r.address = sender) :
    worth T s = holdings data sender s T + foreignWorth data s T + paid T s.payments := by
  have all : s.remainders.filter (fun r => decide (r.address = sender)) = s.remainders := by
    rw [List.filter_eq_self]
    intro r member
    exact decide_eq_true (own r member)
  have split_ := total_split s.assets (foreign data) (fun _ asset => asset.worth T)
  simp only [worth,holdings,foreignWorth,all]
  omega

-- A funding transaction that is accepted and succeeds moves exactly the intended
-- payments, apart from gas within the budget, if and only if it leaves the coins
-- it pays from and the coins of others alone.
theorem funding_exact_iff (kit : Kit) (intent : FundingIntent kit) (bytes : Bytes) (data : TransactionData) (world : World)
    (final : State) (gas : Nat) (accepted : assertFundingTransaction kit intent bytes = .ok data)
    (executed : execute kit data world = some final) (charged : gas ≤ data.gasBudget.getD 0) :
    gas ≤ intent.gasBudget ∧
      (Exact kit data intent (initial kit data world) final ↔ Undisturbed data (initial kit data world) final) := by
  obtain ⟨addresses,accepts⟩ := assert_accepted accepted
  obtain ⟨final',ran,settled⟩ := Option.bind_eq_some_iff.mp executed
  split at settled
  · cases settled
    have run := execCommands_ran (fun k => by rw [Nat.zero_add]) initial_inv ran accepts.read
    obtain ⟨ps,payments,matches_⟩ := run.payments
    obtain ⟨rs,remainders,own⟩ := run.remainders
    change final.payments = [] ++ ps at payments
    change final.remainders = [] ++ rs at remainders
    rw [List.nil_append] at payments remainders
    rw [← remainders] at own
    rw [← payments] at matches_
    -- what was there before is held, sent, or in the coins of others
    have conserved : ∀ T, holdings data intent.sender (initial kit data world) T +
        foreignWorth data (initial kit data world) T =
          holdings data intent.sender final T + foreignWorth data final T + paid T final.payments := by
      intro T
      have same := run.worth T
      rw [@worth_parts data _ _ _ own,
        @worth_parts data _ intent.sender _ (fun _ none_ => absurd none_ List.not_mem_nil)] at same
      have none_ : paid T (initial kit data world).payments = 0 := rfl
      omega
    refine ⟨accepts.budget ▸ charged,?_,?_⟩
    · intro exact_
      obtain ⟨others,writers,perm,kept⟩ := exact_.payments
      cases writers.symm.trans accepts.writers
      refine ⟨matches_.still amount_paid (fun p member => amount_paid p (perm.mem_iff.mp member)),?_⟩
      intro T
      have total := conserved T
      have least := kept T
      rw [paid_perm perm] at total
      omega
    · intro undisturbed
      have equal := matches_.same undisturbed.fed
      refine ⟨⟨addresses,accepts.writers,by rw [equal],?_⟩,own⟩
      intro T
      have total := conserved T
      have most := undisturbed.others T
      rw [equal] at total
      omega
  · cases settled

end Claims

-- One writer is to get 10 MIST and 20 FROST.

def padded (text : String) : String :=
  let digits := text.toList.drop 2
  String.ofList ('0' :: 'x' :: (List.replicate (64 - digits.length) '0' ++ digits))

def sampleSender : String := String.ofList ('0' :: 'x' :: List.replicate 64 'a')

def sampleWriter : String := String.ofList ('0' :: 'x' :: List.replicate 64 '1')

def sampleWal : String := String.ofList ('0' :: 'x' :: List.replicate 64 'b') ++ "::wal::WAL"

def sampleTransaction (commands : List Command) : TransactionData where
  sender := some sampleSender
  gasOwner := some sampleSender
  gasBudget := some 1000
  inputs := [.pure (Bytes.writeLe 8 10),.pure (List.replicate 32 17),.object ⟨"0xc",false⟩,
    .fundsWithdrawal ⟨.maxAmountU64 20,.balance sampleWal,.sender⟩]
  commands := commands

def balanceCall (module function coinType : String) (arguments : List Argument) : Command :=
  .moveCall ⟨"0x2",module,function,[coinType],arguments⟩

def walPayment (n : Nat) : List Command := [balanceCall "balance" "redeem_funds" sampleWal [.input 3],
  balanceCall "balance" "send_funds" sampleWal [.nestedResult n 0,.input 1]]

def honest : TransactionData := sampleTransaction ([.splitCoins .gasCoin [.input 0],
  balanceCall "coin" "into_balance" suiType [.nestedResult 0 0],
  balanceCall "balance" "send_funds" suiType [.nestedResult 1 0,.input 1]] ++ walPayment 3)

-- The split coin grows before it is made a balance.
def inflated : TransactionData := sampleTransaction ([.splitCoins .gasCoin [.input 0],
  .mergeCoins (.nestedResult 0 0) [.input 2],
  balanceCall "coin" "into_balance" suiType [.nestedResult 0 0],
  balanceCall "balance" "send_funds" suiType [.nestedResult 2 0,.input 1]] ++ walPayment 4)

def sampleKit : Kit where
  isValidSuiAddress text := text.length = 66
  normalizeSuiAddress := padded
  normalizeStructTag text := if text = suiType then padded "0x2" ++ "::sui::SUI" else text
  stringify text := text
  fromBytes bytes := if bytes = [0] then some honest else if bytes = [1] then some inflated else none

def sampleIntent : FundingIntent sampleKit where
  sender := sampleSender
  walType := sampleWal
  writers := [("writer-0",[sampleWriter])]
  mistPerAddress := 10
  frostPerAddress := 20
  gasBudget := 1000
  notSui := by decide +kernel

def sampleWorld : World where
  gasCoin := some 5000
  coins objectId := if objectId = "0xc" then some (padded "0x2" ++ "::sui::SUI",1000) else none
  funds coinType := if coinType = sampleWal then 20 else 0

theorem honest_runs : (execute sampleKit honest sampleWorld).isSome = true := by decide +kernel

theorem inflated_runs : (execute sampleKit inflated sampleWorld).isSome = true := by decide +kernel

theorem honest_exact :
    Exact sampleKit honest sampleIntent (initial sampleKit honest sampleWorld)
      ((execute sampleKit honest sampleWorld).get honest_runs) := by
  have accepted : assertFundingTransaction sampleKit sampleIntent [0] = .ok honest := by decide +kernel
  refine (funding_exact_iff sampleKit sampleIntent [0] honest sampleWorld _ 0 accepted (Option.some_get honest_runs).symm
    (Nat.zero_le _)).2.mpr ⟨?_,?_⟩
  · have none_ : feeds honest honest.commands = [some (.result 0 0),none] := by decide +kernel
    intro place member
    rw [none_] at member
    simp only [List.mem_cons,List.not_mem_nil,or_false,reduceCtorEq,Option.some.injEq] at member
    rw [member]
    decide +kernel
  · intro T
    have own : ∀ place, foreign honest place = false := by
      intro place
      cases place with
      | input index =>
        have small : index < 4 ∨ 4 ≤ index := by omega
        rcases small with small | past
        · revert index
          decide
        · simp only [foreign]
          rw [List.getElem?_eq_none (by simpa [honest,sampleTransaction] using past)]
      | _ => rfl
    simp [foreignWorth,own,Store.total]

-- An accepted transaction that sends the writer a thousand MIST more.
theorem inflated_payment :
    ¬ (∀ (kit : Kit) (intent : FundingIntent kit) (bytes : Bytes) (data : TransactionData) (world : World) (final : State),
      assertFundingTransaction kit intent bytes = .ok data → execute kit data world = some final →
      Exact kit data intent (initial kit data world) final) := by
  intro claimed
  have accepted : assertFundingTransaction sampleKit sampleIntent [1] = .ok inflated := by decide +kernel
  have exact_ := claimed sampleKit sampleIntent [1] inflated sampleWorld _ accepted (Option.some_get inflated_runs).symm
  obtain ⟨addresses,writers,perm,_⟩ := exact_.payments
  have known : flattenWriters sampleKit sampleIntent.writers = .ok [sampleWriter] ∧
      ((execute sampleKit inflated sampleWorld).get inflated_runs).payments.map Payment.amount = [1010,20] := by
    decide +kernel
  cases known.1.symm.trans writers
  have amounts := perm.map Payment.amount
  rw [known.2] at amounts
  have listed : (1010 : Nat) ∈ [10,20] := by
    have member := amounts.mem_iff.mp (List.mem_cons_self (a:=1010))
    exact member
  simp at listed

end MemWal.Funding
