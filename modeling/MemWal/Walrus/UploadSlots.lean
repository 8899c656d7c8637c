import MemWal.Library.Store
import MemWal.Walrus.Semaphore

namespace MemWal.Walrus
open Library

-- Where a call of `acquireWalrusUploadSlots` is suspended, or how it ended.
inductive Stage where
  | awaitingWallet | awaitingGlobal | holding | released | rejected
  deriving DecidableEq, Repr

structure Upload where
  keyIndex : Int
  stage : Stage
  deriving DecidableEq, Repr

structure Uploads where
  walletCapacity : Nat
  walletLimiters : Store Int (AsyncSemaphore Nat)
  globalLimiter : AsyncSemaphore Nat
  active : Nat
  queued : Nat
  calls : Store Nat Upload

namespace Uploads

def start (walletCapacity globalCapacity : Nat) : Uploads :=
  ⟨walletCapacity,.empty,.new globalCapacity,0,0,.empty⟩

def walletLimiter (s : Uploads) (keyIndex : Int) : AsyncSemaphore Nat :=
  (s.walletLimiters.get? keyIndex).getD (.new s.walletCapacity)

-- The limiter of a wallet is made when it is first asked for.
def walrusUploadWalletLimiter (s : Uploads) (keyIndex : Int) (f : AsyncSemaphore Nat → AsyncSemaphore Nat) : Uploads :=
  {s with walletLimiters := s.walletLimiters.upsert keyIndex (f (s.walletLimiter keyIndex))}

-- Up to the first await.
def acquireWalrusUploadSlots (s : Uploads) (id : Nat) (keyIndex : Int) : Uploads :=
  if (s.calls.get? id).isSome then s
  else {s.walrusUploadWalletLimiter keyIndex (·.acquire id) with
    queued := s.queued + 1
    calls := s.calls.insert id ⟨keyIndex,.awaitingWallet⟩}

def awaitGlobal (s : Uploads) (id : Nat) (call : Upload) : Uploads :=
  {s with globalLimiter := s.globalLimiter.acquire id, calls := s.calls.put id {call with stage := .awaitingGlobal}}

def succeed (s : Uploads) (id : Nat) (call : Upload) : Uploads :=
  {s with queued := s.queued - 1, active := s.active + 1, calls := s.calls.put id {call with stage := .holding}}

-- The catch block: `releaseGlobal` is not set where the call rejects, and
-- `releaseWallet` is set once the first await is over.
def reject (s : Uploads) (id : Nat) (call : Upload) : Uploads :=
  let rest := if call.stage = .awaitingGlobal then s.walrusUploadWalletLimiter call.keyIndex (·.close id) else s
  {rest with queued := s.queued - 1, calls := s.calls.put id {call with stage := .rejected}}

-- A call goes on once the promise it awaits is settled.
def resume (s : Uploads) (id : Nat) : Uploads :=
  match s.calls.get? id with
  | none => s
  | some call =>
    match call.stage with
    | .awaitingWallet =>
      if id ∈ (s.walletLimiter call.keyIndex).granted then s.awaitGlobal id call
      else if id ∈ (s.walletLimiter call.keyIndex).timedOut then s.reject id call
      else s
    | .awaitingGlobal =>
      if id ∈ s.globalLimiter.granted then s.succeed id call
      else if id ∈ s.globalLimiter.timedOut then s.reject id call
      else s
    | _ => s

-- The closure that a success returns, called at most once.
def close (s : Uploads) (id : Nat) : Uploads :=
  match s.calls.get? id with
  | none => s
  | some call =>
    if call.stage = .holding then
      {s.walrusUploadWalletLimiter call.keyIndex (·.close id) with
        active := s.active - 1
        globalLimiter := s.globalLimiter.close id
        calls := s.calls.put id {call with stage := .released}}
    else s

def timeOutWallet (s : Uploads) (id : Nat) : Uploads :=
  match s.calls.get? id with
  | none => s
  | some call => s.walrusUploadWalletLimiter call.keyIndex (·.timeOut id)

def timeOutGlobal (s : Uploads) (id : Nat) : Uploads := {s with globalLimiter := s.globalLimiter.timeOut id}

inductive Event where
  | acquireWalrusUploadSlots (id : Nat) (keyIndex : Int)
  | walrusUploadLimitSnapshot (keyIndex : Int)
  | timeOutWallet (id : Nat)
  | timeOutGlobal (id : Nat)
  | resume (id : Nat)
  | close (id : Nat)
  deriving DecidableEq, Repr

def step (s : Uploads) : Event → Uploads
  | .acquireWalrusUploadSlots id keyIndex => s.acquireWalrusUploadSlots id keyIndex
  | .walrusUploadLimitSnapshot keyIndex => s.walrusUploadWalletLimiter keyIndex (fun limiter => limiter)
  | .timeOutWallet id => s.timeOutWallet id
  | .timeOutGlobal id => s.timeOutGlobal id
  | .resume id => s.resume id
  | .close id => s.close id

def run (walletCapacity globalCapacity : Nat) (events : List Event) : Uploads :=
  events.foldl step (start walletCapacity globalCapacity)

end Uploads

def Stage.holds : Stage → Nat
  | .holding => 1
  | _ => 0

def Stage.waits : Stage → Nat
  | .awaitingWallet => 1
  | .awaitingGlobal => 1
  | _ => 0

-- What a call has of the limiter of its wallet and of the global one.
def Stands (wallet global : AsyncSemaphore Nat) (id : Nat) : Stage → Prop
  | .awaitingWallet => id ∈ wallet.arrivals ∧ id ∉ wallet.released ∧ id ∉ global.arrivals
  | .awaitingGlobal => id ∈ wallet.granted ∧ id ∉ wallet.released ∧ id ∈ global.arrivals ∧ id ∉ global.released
  | .holding => id ∈ wallet.granted ∧ id ∉ wallet.released ∧ id ∈ global.granted ∧ id ∉ global.released
  | .released => id ∈ wallet.released ∧ id ∈ global.released
  | .rejected => id ∈ wallet.timedOut ∧ id ∉ global.arrivals ∨ id ∈ wallet.released ∧ id ∈ global.timedOut

structure Consistent (s : Uploads) : Prop where
  wallets : ∀ keyIndex, Sound (s.walletLimiter keyIndex)
  global : Sound s.globalLimiter
  stands : ∀ id call, s.calls.get? id = some call →
    Stands (s.walletLimiter call.keyIndex) s.globalLimiter id call.stage
  ownWallet : ∀ keyIndex, ∀ id ∈ (s.walletLimiter keyIndex).arrivals,
    ∃ call, s.calls.get? id = some call ∧ call.keyIndex = keyIndex
  ownGlobal : ∀ id ∈ s.globalLimiter.arrivals, ∃ call, s.calls.get? id = some call
  active : s.active = s.calls.total (fun _ call => call.stage.holds)
  queued : s.queued = s.calls.total (fun _ call => call.stage.waits)

section Steps
open Uploads
variable {s next : Uploads} {id : Nat} {call : Upload} {stage : Stage}

-- One call goes from a stage to the next, and the others do not notice.
structure Moved (s next : Uploads) (id : Nat) (call : Upload) (stage : Stage) : Prop where
  found : s.calls.get? id = some call
  calls : next.calls = s.calls.put id {call with stage}
  wallets : ∀ keyIndex, Sound (next.walletLimiter keyIndex)
  global : Sound next.globalLimiter
  others : ∀ other, other ≠ id → (∀ keyIndex, Frame (s.walletLimiter keyIndex) (next.walletLimiter keyIndex) other) ∧
    Frame s.globalLimiter next.globalLimiter other
  arrivals : ∀ keyIndex, (next.walletLimiter keyIndex).arrivals = (s.walletLimiter keyIndex).arrivals
  stands : Stands (next.walletLimiter call.keyIndex) next.globalLimiter id stage
  active : next.active = s.active + stage.holds - call.stage.holds
  queued : next.queued = s.queued + stage.waits - call.stage.waits

end Steps

end MemWal.Walrus
