import MemWal.Funding.Execution

namespace MemWal.Funding
open Library

section Worths
variable {κ ν : Type} [DecidableEq κ]

omit [DecidableEq κ] in
theorem total_split (s : Store κ ν) (apart : κ → Bool) (f : κ → ν → Nat) :
    s.total (fun k v => if apart k then 0 else f k v) + s.total (fun k v => if apart k then f k v else 0) = s.total f := by
  unfold Store.total
  rw [← List.sum_map_add]
  refine congrArg List.sum (List.map_congr_left ?_)
  intro entry _
  by_cases there : apart entry.1 = true <;> simp [there]

end Worths

def paid (coinType : String) (payments : List Payment) : Nat :=
  ((payments.filter (fun payment => decide (payment.coinType = coinType))).map Payment.amount).sum

theorem paid_append (coinType : String) (first rest : List Payment) :
    paid coinType (first ++ rest) = paid coinType first + paid coinType rest := by
  simp [paid]

theorem paid_one (coinType address type : String) (amount : Nat) :
    paid coinType [⟨address,type,amount⟩] = if type = coinType then amount else 0 := by
  by_cases same : type = coinType <;> simp [paid,same]

theorem paid_perm {coinType : String} {some_ others : List Payment} (perm : some_.Perm others) :
    paid coinType some_ = paid coinType others :=
  ((perm.filter _).map _).sum_eq

-- All that there is of a coin type, wherever it has gone.
def worth (coinType : String) (s : State) : Nat :=
  s.funds coinType + s.assets.total (fun _ asset => asset.worth coinType) + paid coinType s.payments +
    paid coinType s.remainders

section Conservation
variable {kit : Kit} {data : TransactionData} {s next : State} {T : String}

theorem coinAt_iff {place : Place} {type : String} {value : Nat} :
    s.coinAt place = some (type,value) ↔ s.assets.get? place = some (.coin type value) := by
  unfold State.coinAt
  split
  · rename_i found
    simp [found]
  · rename_i other
    simp only [reduceCtorEq,false_iff]
    exact other type value

theorem worth_drop {place : Place} {asset : Asset} (found : s.assets.get? place = some asset) :
    worth T (s.drop place) + asset.worth T = worth T s := by
  have total := Store.total_erase found (fun _ asset => asset.worth T)
  simp only [worth,State.drop] at total ⊢
  omega

theorem worth_add {place : Place} (asset : Asset) (fresh : s.assets.get? place = none) :
    worth T (s.add place asset) = worth T s + asset.worth T := by
  have total := Store.total_insert asset fresh (fun _ asset => asset.worth T)
  simp only [worth,State.add] at total ⊢
  omega

theorem worth_withCoin {place : Place} {type : String} {value : Nat} (found : s.assets.get? place = some (.coin type value))
    (value' : Nat) (change : Int) : worth T (s.withCoin place type value' change) + (Asset.coin type value).worth T =
      worth T s + (Asset.coin type value').worth T := by
  have total := Store.total_put found (.coin type value') (fun _ asset => asset.worth T)
  simp only [worth,State.withCoin] at total ⊢
  omega

theorem get?_drop (place other : Place) :
    (s.drop place).assets.get? other = if other = place then none else s.assets.get? other :=
  Store.get?_erase _ _ _

theorem get?_add {place : Place} {asset : Asset} (fresh : s.assets.get? place = none) (other : Place) :
    (s.add place asset).assets.get? other = if other = place then some asset else s.assets.get? other :=
  Store.get?_insert _ fresh _

theorem get?_withCoin {place : Place} {type : String} {value : Nat} (found : s.assets.get? place = some (.coin type value))
    (value' : Nat) (change : Int) (other : Place) : (s.withCoin place type value' change).assets.get? other =
      if other = place then some (.coin type value') else s.assets.get? other :=
  Store.get?_put found _ _

end Conservation

-- What each value in a running transaction is, by the command that made it.

def amountAt (data : TransactionData) (command result : Nat) : Option Nat :=
  match data.commands[command]? with
  | some (.splitCoins _ amounts) => (amounts[result]?).bind (u64At data)
  | _ => none

-- A balance is a whole withdrawal, or a coin with all that has come of it.
inductive Source (kit : Kit) (data : TransactionData) (world : World) (s : State) (command : Nat) (call : MoveCall)
    (value : Nat) : Prop where
  | redeemed (index : Nat) (type : String) : call.module = "balance" → call.function = "redeem_funds" →
      call.arguments = [.input index] →
      (data.inputs[index]?).bind (inputAsset kit data world) = some (.withdrawal type value) →
      Source kit data world s command call value
  | converted (argument : Argument) (place : Place) : call.module = "coin" → call.function = "into_balance" →
      call.arguments = [argument] → resolve data argument = some place → s.assets.get? place = none →
      (∀ i j, place = .result i j → i < command) → (∀ i j amount, place = .result i j → amountAt data i j = some amount →
        (value : Int) = amount + s.drift (.result i j)) →
      Source kit data world s command call value

structure Inv (kit : Kit) (data : TransactionData) (world : World) (n : Nat) (s : State) : Prop where
  present : ∀ i j, s.assets.get? (.result i j) ≠ none → i < n
  undrifted : ∀ i j, n ≤ i → s.drift (.result i j) = 0
  tallied : ∀ i j type value amount, s.assets.get? (.result i j) = some (.coin type value) →
    amountAt data i j = some amount → (value : Int) = amount + s.drift (.result i j)
  sourced : ∀ place type value, s.assets.get? place = some (.balance type value) → ∃ i call, place = .result i 0 ∧
    data.commands[i]? = some (.moveCall call) ∧ Source kit data world s i call value
  withdrawals : ∀ place type limit, s.assets.get? place = some (.withdrawal type limit) → ∃ i, place = .input i ∧
    (data.inputs[i]?).bind (inputAsset kit data world) = some (.withdrawal type limit)

namespace Inv
variable {kit : Kit} {data : TransactionData} {world : World} {n : Nat} {s : State}

theorem same (inv : Inv kit data world n s) {next : State} (assets : next.assets = s.assets)
    (drift : next.drift = s.drift) : Inv kit data world n next := by
  obtain ⟨assets_,funds,payments,remainders,drift_⟩ := next
  cases assets
  cases drift
  refine ⟨inv.present,inv.undrifted,inv.tallied,?_,inv.withdrawals⟩
  intro place type value found
  obtain ⟨i,call,equal,command,source⟩ := inv.sourced place type value found
  refine ⟨i,call,equal,command,?_⟩
  cases source with
  | redeemed index type module function arguments input => exact .redeemed index type module function arguments input
  | converted argument place module function arguments resolved gone past tally =>
    exact .converted argument place module function arguments resolved gone past tally

theorem succ (inv : Inv kit data world n s) : Inv kit data world (n+1) s :=
  ⟨fun i j there => Nat.lt_succ_of_lt (inv.present i j there),fun i j past => inv.undrifted i j (by omega),inv.tallied,
    inv.sourced,inv.withdrawals⟩

theorem fresh (inv : Inv kit data world n s) (j : Nat) : s.assets.get? (.result n j) = none := by
  by_contra there
  exact absurd (inv.present n j there) (Nat.lt_irrefl n)

theorem drop (inv : Inv kit data world n s) (place : Place) : Inv kit data world n (s.drop place) := by
  have older : ∀ {other asset}, (s.drop place).assets.get? other = some asset → s.assets.get? other = some asset := by
    intro other asset found
    rw [get?_drop] at found
    split at found
    · cases found
    · exact found
  refine ⟨?_,inv.undrifted,?_,?_,?_⟩
  · intro i j there
    obtain ⟨asset,found⟩ := Option.ne_none_iff_exists'.mp there
    exact inv.present i j (by rw [older found]; exact Option.some_ne_none _)
  · exact fun i j type value amount found => inv.tallied i j type value amount (older found)
  · intro other type value found
    obtain ⟨i,call,equal,command,source⟩ := inv.sourced other type value (older found)
    refine ⟨i,call,equal,command,?_⟩
    cases source with
    | redeemed index type module function arguments input => exact .redeemed index type module function arguments input
    | converted argument place' module function arguments resolved gone past tally =>
      refine .converted argument place' module function arguments resolved ?_ past tally
      rw [get?_drop]
      split
      · rfl
      · exact gone
  · exact fun other type limit found => inv.withdrawals other type limit (older found)

-- A coin changes along with its drift.
theorem withCoin (inv : Inv kit data world n s) {place : Place} {type : String} {value value' : Nat} {change : Int}
    (found : s.assets.get? place = some (.coin type value)) (moved : (value' : Int) = value + change) :
    Inv kit data world n (s.withCoin place type value' change) := by
  have drift : ∀ other, other ≠ place → (s.withCoin place type value' change).drift other = s.drift other :=
    fun other different => Function.update_of_ne different _ _
  have here : (s.withCoin place type value' change).drift place = s.drift place + change := Function.update_self _ _ _
  have elsewhere : ∀ {other asset}, (∀ t v, asset ≠ .coin t v) →
      (s.withCoin place type value' change).assets.get? other = some asset → s.assets.get? other = some asset := by
    intro other asset kind there
    rw [get?_withCoin found] at there
    split at there
    · cases there
      exact absurd rfl (kind _ _)
    · exact there
  refine ⟨?_,?_,?_,?_,?_⟩
  · intro i j there
    rw [get?_withCoin found] at there
    split at there
    · rename_i equal
      exact inv.present i j (by rw [equal,found]; exact Option.some_ne_none _)
    · exact inv.present i j there
  · intro i j past
    rw [drift]
    · exact inv.undrifted i j past
    · intro equal
      have small := inv.present i j (by rw [equal,found]; exact Option.some_ne_none _)
      omega
  · intro i j type_ v amount there amounts
    rw [get?_withCoin found] at there
    split at there
    · rename_i equal
      cases there
      have before := inv.tallied i j type value amount (by rw [equal,found]) amounts
      rw [equal] at before ⊢
      rw [here]
      omega
    · rename_i different
      rw [drift _ different]
      exact inv.tallied i j type_ v amount there amounts
  · intro other type_ v there
    obtain ⟨i,call,equal,command,source⟩ := inv.sourced other type_ v (elsewhere (by simp) there)
    refine ⟨i,call,equal,command,?_⟩
    cases source with
    | redeemed index type module function arguments input => exact .redeemed index type module function arguments input
    | converted argument place' module function arguments resolved gone past tally =>
      have different : place' ≠ place := by
        intro given
        obtain rfl := given
        rw [gone] at found
        cases found
      refine .converted argument place' module function arguments resolved ?_ past ?_
      · rw [get?_withCoin found,if_neg different]
        exact gone
      · intro i j amount same amounts
        rw [drift _ (same ▸ different)]
        exact tally i j amount same amounts
  · exact fun other type_ limit there => inv.withdrawals other type_ limit (elsewhere (by simp) there)

-- A result of the command that is being run.
theorem add (inv : Inv kit data world (n+1) s) {j : Nat} {asset : Asset}
    (free : s.assets.get? (.result n j) = none) (still : s.drift (.result n j) = 0)
    (coin : ∀ type value amount, asset = .coin type value → amountAt data n j = some amount → value = amount)
    (balance : ∀ type value, asset = .balance type value → j = 0 ∧ ∃ call, data.commands[n]? = some (.moveCall call) ∧
      Source kit data world s n call value)
    (withdrawal : ∀ type limit, asset ≠ .withdrawal type limit) :
    Inv kit data world (n+1) (s.add (.result n j) asset) := by
  -- what has been converted is the result of an earlier command
  have kept : ∀ {i call value}, i ≤ n → Source kit data world s i call value →
      Source kit data world (s.add (.result n j) asset) i call value := by
    intro i call value small source
    cases source with
    | redeemed index type module function arguments input => exact .redeemed index type module function arguments input
    | converted argument place module function arguments resolved gone past tally =>
      refine .converted argument place module function arguments resolved ?_ past tally
      rw [get?_add free,if_neg]
      · exact gone
      · intro equal
        have before := past n j equal
        omega
  refine ⟨?_,inv.undrifted,?_,?_,?_⟩
  · intro i k there
    rw [get?_add free] at there
    split at there
    · rename_i equal
      cases equal
      exact Nat.lt_succ_self n
    · exact inv.present i k there
  · intro i k type value amount there amounts
    rw [get?_add free] at there
    split at there
    · rename_i equal
      cases equal
      cases there
      change (value : Int) = amount + s.drift (.result n j)
      rw [still,coin type value amount rfl amounts]
      omega
    · exact inv.tallied i k type value amount there amounts
  · intro other type value there
    rw [get?_add free] at there
    split at there
    · rename_i equal
      cases there
      obtain ⟨rfl,call,command,source⟩ := balance type value rfl
      exact ⟨n,call,equal,command,kept (Nat.le_refl n) source⟩
    · obtain ⟨i,call,equal,command,source⟩ := inv.sourced other type value there
      have small := inv.present i 0 (by rw [← equal,there]; exact Option.some_ne_none _)
      exact ⟨i,call,equal,command,kept (by omega) source⟩
  · intro other type limit there
    rw [get?_add free] at there
    split at there
    · cases there
      exact absurd rfl (withdrawal type limit)
    · exact inv.withdrawals other type limit there

end Inv

-- What running command `n` leaves as it was, and what it accounts for.
structure Advances (kit : Kit) (data : TransactionData) (world : World) (n : Nat) (s next : State) : Prop where
  inv : Inv kit data world (n+1) next
  worth : ∀ T, worth T next = worth T s
  gone : ∀ i j, i < n → s.assets.get? (.result i j) = none →
    next.assets.get? (.result i j) = none ∧ next.drift (.result i j) = s.drift (.result i j)

section Commands
variable {kit : Kit} {data : TransactionData} {world : World} {n : Nat} {s next : State}

theorem mapM_some {α β : Type} {f : α → Option β} {xs : List α} {ys : List β} (made : xs.mapM f = some ys) (k : Nat)
    (y : β) (found : ys[k]? = some y) : ∃ x, xs[k]? = some x ∧ f x = some y := by
  induction xs generalizing ys k with
  | nil =>
    rw [List.mapM_nil] at made
    cases made
    cases found
  | cons x rest ih =>
    rw [List.mapM_cons] at made
    obtain ⟨first,head,made⟩ := Option.bind_eq_some_iff.mp made
    obtain ⟨others,tail,made⟩ := Option.bind_eq_some_iff.mp made
    cases made
    cases k with
    | zero =>
      cases found
      exact ⟨x,rfl,head⟩
    | succ k => exact ih tail k found

-- What is left alone when coins are taken or made.
structure Frame (s next : State) : Prop where
  drift : next.drift = s.drift
  payments : next.payments = s.payments
  remainders : next.remainders = s.remainders

theorem addCoins_spec (type : String) (values : List Nat) (j : Nat) (inv : Inv kit data world (n+1) s)
    (free : ∀ k, j ≤ k → s.assets.get? (.result n k) = none ∧ s.drift (.result n k) = 0)
    (amounts : ∀ k value amount, values[k]? = some value → amountAt data n (j+k) = some amount → value = amount) :
    Inv kit data world (n+1) (s.addCoins n type j values) ∧ Frame s (s.addCoins n type j values) ∧
      (∀ T, worth T (s.addCoins n type j values) = worth T s + if type = T then values.sum else 0) ∧
      ∀ i k, i < n → (s.addCoins n type j values).assets.get? (.result i k) = s.assets.get? (.result i k) := by
  induction values generalizing s j with
  | nil => exact ⟨inv,⟨rfl,rfl,rfl⟩,fun T => by simp [State.addCoins],fun _ _ _ => rfl⟩
  | cons value rest ih =>
    obtain ⟨none_,still⟩ := free j (Nat.le_refl j)
    have here : Inv kit data world (n+1) (s.add (.result n j) (.coin type value)) := by
      apply inv.add none_ still
      · intro _ _ amount equal found
        cases equal
        exact amounts 0 value amount rfl found
      · exact fun _ _ equal => by cases equal
      · exact fun _ _ equal => by cases equal
    obtain ⟨inv',frame,worth',kept⟩ := ih (j+1) here (by
      intro k past
      obtain ⟨absent,zero⟩ := free k (by omega)
      refine ⟨?_,zero⟩
      rw [get?_add none_,if_neg]
      · exact absent
      · intro equal
        cases equal
        omega) (by
      intro k v amount found at_
      exact amounts (k+1) v amount found (by rw [← at_]; congr 1; omega))
    refine ⟨inv',⟨frame.drift,frame.payments,frame.remainders⟩,?_,?_⟩
    · intro T
      have tail := worth' T
      rw [worth_add _ none_] at tail
      simp only [State.addCoins,tail,Asset.worth,List.sum_cons]
      split <;> omega
    · intro i k small
      have tail := kept i k small
      rw [get?_add none_,if_neg] at tail
      · exact tail
      · intro equal
        cases equal
        omega

theorem splitCoins_advances {coin : Argument} {amounts : List Argument} (inv : Inv kit data world n s)
    (command : data.commands[n]? = some (.splitCoins coin amounts)) (ran : splitCoins data s n coin amounts = some next) :
    Advances kit data world n s next ∧ next.payments = s.payments ∧ next.remainders = s.remainders := by
  simp only [splitCoins] at ran
  obtain ⟨place,_,ran⟩ := Option.bind_eq_some_iff.mp ran
  obtain ⟨⟨type,value⟩,at_,ran⟩ := Option.bind_eq_some_iff.mp ran
  obtain ⟨values,made,ran⟩ := Option.bind_eq_some_iff.mp ran
  split at ran
  · rename_i enough
    cases ran
    have found := coinAt_iff.mp at_
    have less : Inv kit data world n (s.withCoin place type (value - values.sum) (-values.sum)) :=
      inv.withCoin found (by omega)
    have other : ∀ k, place ≠ .result n k := by
      intro k same
      obtain rfl := same
      rw [inv.fresh k] at found
      cases found
    have split_ := addCoins_spec type values 0 less.succ (by
      intro k _
      exact ⟨less.fresh k,less.undrifted n k (Nat.le_refl n)⟩) (by
      intro k v amount there amount_
      rw [Nat.zero_add] at amount_
      obtain ⟨argument,listed,read⟩ := mapM_some made k v there
      simp only [amountAt,command,listed,Option.bind_some] at amount_
      cases read.symm.trans amount_
      rfl)
    obtain ⟨inv',frame,worth',kept⟩ := split_
    refine ⟨⟨inv',?_,?_⟩,frame.payments,frame.remainders⟩
    · intro T
      have one := worth_withCoin (T:=T) found (value - values.sum) (-values.sum)
      have two := worth' T
      simp only [Asset.worth] at one
      split at one <;> simp_all only [if_true,if_false] <;> omega
    · intro i j small absent
      have different : (.result i j : Place) ≠ place := by
        intro same
        obtain rfl := same
        rw [absent] at found
        cases found
      rw [kept i j small,get?_withCoin found,if_neg different,frame.drift]
      exact ⟨absent,Function.update_of_ne different _ _⟩
  · cases ran

theorem takeCoins_spec {type : String} {destination : Place} {sources : List Argument} {merged : Nat}
    (inv : Inv kit data world n s) (took : takeCoins data type destination s sources = some (next,merged)) :
    Inv kit data world n next ∧ Frame s next ∧
      (∀ T, worth T next + (if type = T then merged else 0) = worth T s) ∧
      next.assets.get? destination = s.assets.get? destination ∧
      ∀ place, s.assets.get? place = none → next.assets.get? place = none := by
  induction sources generalizing s merged with
  | nil =>
    cases took
    exact ⟨inv,⟨rfl,rfl,rfl⟩,fun T => by simp,rfl,fun _ none_ => none_⟩
  | cons source rest ih =>
    simp only [takeCoins] at took
    obtain ⟨place,_,took⟩ := Option.bind_eq_some_iff.mp took
    obtain ⟨⟨found,value⟩,at_,took⟩ := Option.bind_eq_some_iff.mp took
    split at took
    · rename_i fits
      obtain ⟨rfl,different⟩ := fits
      obtain ⟨⟨after,others⟩,tail,took⟩ := Option.bind_eq_some_iff.mp took
      cases took
      obtain ⟨inv',frame,worth',there,gone⟩ := ih (inv.drop place) tail
      refine ⟨inv',⟨frame.drift,frame.payments,frame.remainders⟩,?_,?_,?_⟩
      · intro T
        have one := worth_drop (T:=T) (coinAt_iff.mp at_)
        have two := worth' T
        simp only [Asset.worth] at one
        split at one <;> simp_all only [if_true,if_false] <;> omega
      · rw [there,get?_drop,if_neg (fun equal => different equal.symm)]
      · intro other none_
        apply gone
        rw [get?_drop]
        split
        · rfl
        · exact none_
    · cases took

theorem mergeCoins_advances {destination : Argument} {sources : List Argument} (inv : Inv kit data world n s)
    (ran : mergeCoins data s destination sources = some next) :
    Advances kit data world n s next ∧ next.payments = s.payments ∧ next.remainders = s.remainders := by
  simp only [mergeCoins] at ran
  obtain ⟨place,_,ran⟩ := Option.bind_eq_some_iff.mp ran
  obtain ⟨⟨type,value⟩,at_,ran⟩ := Option.bind_eq_some_iff.mp ran
  obtain ⟨⟨after,merged⟩,took,ran⟩ := Option.bind_eq_some_iff.mp ran
  split at ran
  · cases ran
    obtain ⟨inv',frame,worth',there,gone⟩ := takeCoins_spec inv took
    have before := coinAt_iff.mp at_
    have found := there.trans before
    refine ⟨⟨(inv'.withCoin found (by omega)).succ,?_,?_⟩,frame.payments,frame.remainders⟩
    · intro T
      have one := worth_withCoin (T:=T) found (value + merged) merged
      have two := worth' T
      simp only [Asset.worth] at one
      split at one <;> simp_all only [if_true,if_false] <;> omega
    · intro i j small absent
      have different : (.result i j : Place) ≠ place := by
        intro same
        obtain rfl := same
        rw [absent] at before
        cases before
      rw [get?_withCoin found,if_neg different]
      refine ⟨gone _ absent,?_⟩
      rw [← frame.drift]
      exact Function.update_of_ne different _ _
  · cases ran

-- A value that is taken and not given back.
theorem drop_gone (place : Place) (i j : Nat) (absent : s.assets.get? (.result i j) = none) :
    (s.drop place).assets.get? (.result i j) = none := by
  rw [get?_drop]
  split
  · rfl
  · exact absent

theorem resolve_input {argument : Argument} {i : Nat} (resolved : resolve data argument = some (.input i)) :
    argument = .input i := by
  cases argument with
  | gasCoin => cases resolved
  | input index =>
    cases resolved
    rfl
  | nestedResult command result => cases resolved
  | result command =>
    simp only [resolve] at resolved
    split at resolved <;> cases resolved

-- One value is taken, and the command has one result.
theorem replaced (inv : Inv kit data world n s) (place : Place) (asset : Asset) {call : MoveCall}
    (command : data.commands[n]? = some (.moveCall call))
    (balance : ∀ type value, asset = .balance type value → Source kit data world (s.drop place) n call value)
    (withdrawal : ∀ type limit, asset ≠ .withdrawal type limit) :
    Inv kit data world (n+1) ((s.drop place).add (.result n 0) asset) ∧
      ∀ i j, i < n → s.assets.get? (.result i j) = none →
        ((s.drop place).add (.result n 0) asset).assets.get? (.result i j) = none := by
  have dropped := inv.drop place
  refine ⟨?_,?_⟩
  · apply dropped.succ.add (dropped.fresh 0) (dropped.undrifted n 0 (Nat.le_refl n))
    · intro type value amount _ found
      simp only [amountAt,command] at found
      cases found
    · exact fun type value equal => ⟨rfl,call,command,balance type value equal⟩
    · exact withdrawal
  · intro i j small absent
    rw [get?_add (dropped.fresh 0),if_neg]
    · exact drop_gone place i j absent
    · intro equal
      cases equal
      omega

theorem worth_replaced {place : Place} {asset made : Asset} {T : String} (inv : Inv kit data world n s)
    (found : s.assets.get? place = some asset) :
    worth T ((s.drop place).add (.result n 0) made) + asset.worth T = worth T s + made.worth T := by
  have one := worth_drop (T:=T) found
  have two := worth_add (T:=T) made ((inv.drop place).fresh 0)
  omega

theorem redeemFunds_advances {type : String} {argument : Argument} {asset : String → Nat → Asset} {call : MoveCall}
    (inv : Inv kit data world n s) (command : data.commands[n]? = some (.moveCall call)) (takes : call.arguments = [argument])
    (kind : asset = .coin ∨ asset = .balance ∧ call.module = "balance" ∧ call.function = "redeem_funds")
    (ran : redeemFunds data s n type argument asset = some next) :
    Advances kit data world n s next ∧ next.payments = s.payments ∧ next.remainders = s.remainders := by
  simp only [redeemFunds] at ran
  obtain ⟨place,resolved,ran⟩ := Option.bind_eq_some_iff.mp ran
  split at ran
  · rename_i found limit held
    split at ran
    · rename_i fits
      obtain ⟨rfl,enough⟩ := fits
      cases ran
      obtain ⟨i,rfl,input⟩ := inv.withdrawals place found limit held
      have made : ∀ T, (asset found limit).worth T = if found = T then limit else 0 := by
        intro T
        rcases kind with rfl | ⟨rfl,_⟩ <;> rfl
      obtain ⟨inv',gone⟩ := replaced inv (.input i) (asset found limit) command (by
        intro type value equal
        rcases kind with rfl | ⟨rfl,module,function⟩
        · cases equal
        · cases equal
          exact .redeemed i found module function (by rw [takes,resolve_input resolved]) input) (by
        intro type value equal
        rcases kind with rfl | ⟨rfl,_⟩ <;> cases equal)
      refine ⟨⟨inv'.same rfl rfl,?_,fun i j small absent => ⟨gone i j small absent,rfl⟩⟩,rfl,rfl⟩
      intro T
      have one := @worth_replaced _ _ _ _ _ _ _ (asset found limit) T inv held
      rw [made T,show (Asset.withdrawal found limit).worth T = 0 from rfl] at one
      simp only [worth,State.add,State.drop] at one ⊢
      by_cases same : found = T
      · subst same
        simp only [if_true,Function.update_self] at one ⊢
        omega
      · simp only [if_neg same,Function.update_of_ne (fun equal => same equal.symm)] at one ⊢
        omega
    · cases ran
  · cases ran

theorem intoBalance_advances {type : String} {argument : Argument} {call : MoveCall} (inv : Inv kit data world n s)
    (command : data.commands[n]? = some (.moveCall call)) (takes : call.arguments = [argument])
    (module : call.module = "coin") (function : call.function = "into_balance")
    (ran : intoBalance data s n type argument = some next) :
    Advances kit data world n s next ∧ next.payments = s.payments ∧ next.remainders = s.remainders := by
  simp only [intoBalance] at ran
  obtain ⟨place,resolved,ran⟩ := Option.bind_eq_some_iff.mp ran
  obtain ⟨⟨found,value⟩,at_,ran⟩ := Option.bind_eq_some_iff.mp ran
  have held := coinAt_iff.mp at_
  split at ran
  · rename_i same
    subst same
    cases ran
    obtain ⟨inv',gone⟩ := replaced inv place (.balance found value) command (by
      intro type value_ equal
      cases equal
      refine .converted argument place module function takes resolved ?_ ?_ ?_
      · rw [get?_drop,if_pos rfl]
      · intro i j given
        obtain rfl := given
        exact inv.present i j (by rw [held]; exact Option.some_ne_none _)
      · rintro i j amount rfl amounts
        exact inv.tallied i j found value amount held amounts) (fun _ _ equal => by cases equal)
    refine ⟨⟨inv',?_,fun i j small absent => ⟨gone i j small absent,rfl⟩⟩,rfl,rfl⟩
    intro T
    have one := @worth_replaced _ _ _ _ _ _ _ (.balance found value) T inv held
    exact Nat.add_right_cancel one
  · cases ran

theorem sendBalance_advances {type : String} {argument recipient : Argument} (inv : Inv kit data world n s)
    (ran : sendBalance kit data s type argument recipient = some next) :
    Advances kit data world n s next ∧ next.remainders = s.remainders ∧ ∃ place address value,
      resolve data argument = some place ∧ addressAt kit data recipient = some address ∧
      s.assets.get? place = some (.balance type value) ∧ next.payments = s.payments ++ [⟨address,type,value⟩] ∧
      next.drift = s.drift ∧ ∀ other, s.assets.get? other = none → next.assets.get? other = none := by
  simp only [sendBalance] at ran
  obtain ⟨place,resolved,ran⟩ := Option.bind_eq_some_iff.mp ran
  obtain ⟨address,named,ran⟩ := Option.bind_eq_some_iff.mp ran
  split at ran
  · rename_i found value held
    split at ran
    · rename_i same
      subst same
      cases ran
      have none_ : ∀ other, s.assets.get? other = none → (s.drop place).assets.get? other = none := by
        intro other absent
        rw [get?_drop]
        split
        · rfl
        · exact absent
      refine ⟨⟨((inv.drop place).succ).same rfl rfl,?_,?_⟩,rfl,place,address,value,resolved,named,held,rfl,rfl,none_⟩
      · intro T
        have one := worth_drop (T:=T) held
        simp only [worth,State.drop,paid_append,paid_one,Asset.worth] at one ⊢
        omega
      · exact fun i j _ absent => ⟨none_ _ absent,rfl⟩
    · cases ran
  · cases ran

theorem sendCoin_advances {type : String} {argument recipient : Argument} (inv : Inv kit data world n s)
    (ran : sendCoin kit data s type argument recipient = some next) :
    Advances kit data world n s next ∧ next.payments = s.payments ∧ ∃ address value,
      addressAt kit data recipient = some address ∧ next.remainders = s.remainders ++ [⟨address,type,value⟩] := by
  simp only [sendCoin] at ran
  obtain ⟨place,_,ran⟩ := Option.bind_eq_some_iff.mp ran
  obtain ⟨address,named,ran⟩ := Option.bind_eq_some_iff.mp ran
  obtain ⟨⟨found,value⟩,at_,ran⟩ := Option.bind_eq_some_iff.mp ran
  split at ran
  · rename_i same
    subst same
    cases ran
    refine ⟨⟨((inv.drop place).succ).same rfl rfl,?_,?_⟩,rfl,address,value,named,rfl⟩
    · intro T
      have one := worth_drop (T:=T) (coinAt_iff.mp at_)
      simp only [worth,State.drop,paid_append,paid_one,Asset.worth] at one ⊢
      omega
    · exact fun i j _ absent => ⟨drop_gone place i j absent,rfl⟩
  · cases ran

theorem destroyZero_advances {type : String} {argument : Argument} (inv : Inv kit data world n s)
    (ran : destroyZero data s type argument = some next) :
    Advances kit data world n s next ∧ next.payments = s.payments ∧ next.remainders = s.remainders := by
  simp only [destroyZero] at ran
  obtain ⟨place,_,ran⟩ := Option.bind_eq_some_iff.mp ran
  obtain ⟨⟨found,value⟩,at_,dropped⟩ := Option.bind_eq_some_iff.mp ran
  change (if found = type ∧ value = 0 then some (s.drop place) else none) = some next at dropped
  split at dropped
  · rename_i fits
    obtain ⟨rfl,rfl⟩ := fits
    cases dropped
    refine ⟨⟨(inv.drop place).succ,?_,fun i j _ absent => ⟨drop_gone place i j absent,rfl⟩⟩,rfl,rfl⟩
    intro T
    have one := worth_drop (T:=T) (coinAt_iff.mp at_)
    simp only [Asset.worth,ite_self] at one
    omega
  · cases dropped

-- A command of a run: what it does to what was sent.
inductive Sends (kit : Kit) (data : TransactionData) (s next : State) : Command → Prop where
  | nothing (command : Command) : next.payments = s.payments → next.remainders = s.remainders →
      (∀ call, command = .moveCall call → call.target ≠ "balance::send_funds") → Sends kit data s next command
  | remainder (call : MoveCall) (type coin recipient : _) (address : String) (value : Nat) :
      call.target = "coin::send_funds" → call.typeArguments = [type] → call.arguments = [coin,recipient] →
      addressAt kit data recipient = some address → next.payments = s.payments →
      next.remainders = s.remainders ++ [⟨address,kit.normalizeStructTag type,value⟩] →
      Sends kit data s next (.moveCall call)
  | payment (call : MoveCall) (type : String) (balance recipient : Argument) (place : Place) (address : String)
      (value : Nat) : call.target = "balance::send_funds" → call.typeArguments = [type] →
      call.arguments = [balance,recipient] → resolve data balance = some place →
      addressAt kit data recipient = some address →
      s.assets.get? place = some (.balance (kit.normalizeStructTag type) value) →
      next.payments = s.payments ++ [⟨address,kit.normalizeStructTag type,value⟩] → next.remainders = s.remainders →
      next.drift = s.drift → (∀ other, s.assets.get? other = none → next.assets.get? other = none) →
      Sends kit data s next (.moveCall call)

theorem moveCall_advances {call : MoveCall} (inv : Inv kit data world n s)
    (command : data.commands[n]? = some (.moveCall call)) (ran : moveCall kit data s n call = some next) :
    Advances kit data world n s next ∧ Sends kit data s next (.moveCall call) := by
  have quiet : ∀ {module function}, call.module = module → call.function = function →
      module ++ "::" ++ function ≠ "balance::send_funds" → next.payments = s.payments →
      next.remainders = s.remainders → Sends kit data s next (.moveCall call) := by
    rintro module function rfl rfl other payments remainders
    refine .nothing _ payments remainders ?_
    intro call' equal
    cases equal
    exact other
  simp only [moveCall] at ran
  split at ran
  · rename_i type typed
    split at ran
    · cases ran
    split at ran
    · rename_i names
      split at ran
      · rename_i withdrawal takes
        obtain ⟨advances,payments,remainders⟩ :=
          redeemFunds_advances inv command takes (.inr ⟨rfl,names.1,names.2⟩) ran
        exact ⟨advances,quiet names.1 names.2 (by decide) payments remainders⟩
      · cases ran
    split at ran
    · rename_i names
      split at ran
      · rename_i balance recipient takes
        obtain ⟨advances,remainders,place,address,value,resolved,named,held,payments,drift,gone⟩ :=
          sendBalance_advances inv ran
        refine ⟨advances,.payment call type balance recipient place address value ?_ typed takes resolved named held
          payments remainders drift gone⟩
        rw [MoveCall.target,names.1,names.2]
        rfl
      · cases ran
    split at ran
    · rename_i names
      split at ran
      · rename_i withdrawal takes
        obtain ⟨advances,payments,remainders⟩ := redeemFunds_advances inv command takes (.inl rfl) ran
        exact ⟨advances,quiet names.1 names.2 (by decide) payments remainders⟩
      · cases ran
    split at ran
    · rename_i names
      split at ran
      · rename_i coin takes
        obtain ⟨advances,payments,remainders⟩ := intoBalance_advances inv command takes names.1 names.2 ran
        exact ⟨advances,quiet names.1 names.2 (by decide) payments remainders⟩
      · cases ran
    split at ran
    · rename_i names
      split at ran
      · rename_i coin recipient takes
        obtain ⟨advances,payments,address,value,named,remainders⟩ := sendCoin_advances inv ran
        refine ⟨advances,.remainder call type coin recipient address value ?_ typed takes named payments remainders⟩
        rw [MoveCall.target,names.1,names.2]
        rfl
      · cases ran
    split at ran
    · rename_i names
      split at ran
      · rename_i coin takes
        obtain ⟨advances,payments,remainders⟩ := destroyZero_advances inv ran
        exact ⟨advances,quiet names.1 names.2 (by decide) payments remainders⟩
      · cases ran
    · cases ran
  · cases ran

theorem execCommand_advances {command : Command} (inv : Inv kit data world n s)
    (here : data.commands[n]? = some command) (ran : execCommand kit data s n command = some next) :
    Advances kit data world n s next ∧ Sends kit data s next command := by
  cases command with
  | splitCoins coin amounts =>
    obtain ⟨advances,payments,remainders⟩ := splitCoins_advances inv here ran
    exact ⟨advances,.nothing _ payments remainders (fun _ equal => by cases equal)⟩
  | mergeCoins destination sources =>
    obtain ⟨advances,payments,remainders⟩ := mergeCoins_advances inv ran
    exact ⟨advances,.nothing _ payments remainders (fun _ equal => by cases equal)⟩
  | moveCall call => exact moveCall_advances inv here ran
  | other kind => cases ran

end Commands
end MemWal.Funding
