import MemWal.RateLimit.Window

namespace MemWal.RateLimit
open Library Library.Windows

-- The limit and the window a key is used with. A key outlives the window of
-- its last entry.
structure Rule where
  limit : Nat
  span : Time
  ttlSeconds : Int
  covered : span ≤ seconds ttlSeconds

def Rule.minute (limit : Nat) : Rule := ⟨limit,milliseconds 60000,120,by decide⟩

structure Call where
  key : Key
  now : Time
  weight : Nat
  requestId : RequestId
  deriving DecidableEq, Repr

def Call.run (rules : Key → Rule) (redis : Redis) (call : Call) : Redis × WindowCheckResult :=
  let rule := rules call.key
  checkAndRecordWindow redis call.now call.key (call.now - rule.span) call.now rule.limit call.weight
    rule.ttlSeconds call.requestId

structure Session where
  redis : Redis
  log : List (Call × WindowCheckResult)

def Session.call (rules : Key → Rule) (s : Session) (call : Call) : Session :=
  let ran := call.run rules s.redis
  ⟨ran.1,s.log ++ [(call,ran.2)]⟩

def replay (rules : Key → Rule) (calls : List Call) : Session := calls.foldl (Session.call rules) ⟨.empty,[]⟩

-- The weights the limiter let through on a key, with their times.
def admitted (log : List (Call × WindowCheckResult)) (key : Key) : List (Time × Nat) :=
  log.filterMap (fun e => if e.1.key = key ∧ e.2 = .allowed then some (e.1.now,e.1.weight) else none)

-- The entries of a key that are in the window at `clock`.
def inWindow (redis : Redis) (key : Key) (windowStart clock : Time) : List ((RequestId × Nat) × Time) :=
  ((SortedSet.scores? (SortedSet.live clock (redis.get? key))).keep (fun _ score => windowStart < score)).entries

section Steps
variable {rules : Key → Rule} {s : Session} {call : Call}

theorem run_stored (rules : Key → Rule) (redis : Redis) (call : Call) (key : Key) :
    (call.run rules redis).1.get? key =
      if key = call.key then
        (slidingWindowLua call.now (call.now - (rules call.key).span) call.now (rules call.key).limit call.weight
          (seconds (rules call.key).ttlSeconds) call.requestId (redis.get? call.key)).1
      else redis.get? key := get?_onKey _ _ _ key

theorem run_allowed (rules : Key → Rule) (redis : Redis) (call : Call) :
    (call.run rules redis).2 = .allowed ↔
      (slidingWindowLua call.now (call.now - (rules call.key).span) call.now (rules call.key).limit call.weight
        (seconds (rules call.key).ttlSeconds) call.requestId (redis.get? call.key)).2 = 1 := by
  simp [Call.run,checkAndRecordWindow]

theorem replay_append (rules : Key → Rule) (calls : List Call) (call : Call) :
    replay rules (calls ++ [call]) = (replay rules calls).call rules call := by
  simp [replay]

theorem admitted_append (log : List (Call × WindowCheckResult)) (call : Call) (result : WindowCheckResult) (key : Key) :
    admitted (log ++ [(call,result)]) key =
      admitted log key ++ if call.key = key ∧ result = .allowed then [(call.now,call.weight)] else [] := by
  by_cases counted : call.key = key ∧ result = .allowed <;> simp [admitted,counted]

theorem replay_calls (rules : Key → Rule) (calls : List Call) : (replay rules calls).log.map Prod.fst = calls := by
  induction calls using List.reverseRecOn with
  | nil => rfl
  | append_singleton earlier last ih => simp [replay_append,Session.call,ih]

theorem mem_admitted {log : List (Call × WindowCheckResult)} {key : Key} {e : Time × Nat}
    (member : e ∈ admitted log key) : ∃ call ∈ log.map Prod.fst, call.key = key ∧ call.now = e.1 := by
  obtain ⟨⟨call,result⟩,present,kept⟩ := List.mem_filterMap.mp member
  split at kept
  · rename_i counted
    cases kept
    exact ⟨call,List.mem_map.mpr ⟨_,present,rfl⟩,counted.1,rfl⟩
  · cases kept

end Steps

section Runs
variable {rules : Key → Rule}

-- No two calls share a request id; the calls on one key come in time order.
structure InOrder (calls : List Call) : Prop where
  times : calls.Pairwise (fun a b => a.key = b.key → a.now ≤ b.now)
  fresh : calls.Pairwise (fun a b => a.requestId ≠ b.requestId)

theorem InOrder.init {calls : List Call} {call : Call} (ordered : InOrder (calls ++ [call])) : InOrder calls :=
  ⟨(List.pairwise_append.mp ordered.times).1,(List.pairwise_append.mp ordered.fresh).1⟩

theorem InOrder.last {calls : List Call} {call : Call} (ordered : InOrder (calls ++ [call])) :
    (∀ earlier ∈ calls, earlier.key = call.key → earlier.now ≤ call.now) ∧
      call.requestId ∉ calls.map Call.requestId := by
  have times := (List.pairwise_append.mp ordered.times).2.2
  have fresh := (List.pairwise_append.mp ordered.fresh).2.2
  refine ⟨fun earlier member => times earlier member call (List.mem_singleton_self _),?_⟩
  intro member
  obtain ⟨earlier,present,same⟩ := List.mem_map.mp member
  exact fresh earlier present call (List.mem_singleton_self _) same

theorem InOrder.take {calls : List Call} {i : Nat} {call : Call} (ordered : InOrder calls)
    (found : calls[i]? = some call) : InOrder (calls.take i ++ [call]) := by
  have part : calls.take i ++ [call] = calls.take (i+1) := by simp [List.take_add_one,found]
  rw [part]
  exact ⟨ordered.times.sublist (List.take_sublist _ _),ordered.fresh.sublist (List.take_sublist _ _)⟩

theorem replay_past {calls : List Call} {call : Call} (ordered : InOrder (calls ++ [call])) :
    ∀ e ∈ admitted (replay rules calls).log call.key, e.1 ≤ call.now := by
  intro e member
  obtain ⟨earlier,present,key,time⟩ := mem_admitted member
  rw [replay_calls] at present
  rw [← time]
  exact ordered.last.1 earlier present key

-- After any run each key's entries count what was admitted on it.
theorem replay_tracks {calls : List Call} (ordered : InOrder calls) (key : Key) (cutoff : Time)
    (late : ∀ call ∈ calls, call.key = key → call.now - (rules key).span ≤ cutoff) :
    Tracks ((replay rules calls).redis.get? key) (admitted (replay rules calls).log key) (calls.map Call.requestId)
      (rules key).span cutoff := by
  induction calls using List.reverseRecOn generalizing cutoff with
  | nil => exact tracks_empty _ _ _
  | append_singleton earlier last ih =>
    have before := fun cutoff late => ih ordered.init cutoff late
    rw [replay_append]
    by_cases here : last.key = key
    · subst here
      have start := before (last.now - (rules last.key).span) (fun call member same =>
        Int.sub_le_sub_right (ordered.last.1 call member same) _)
      have checked := (start.check le_rfl ordered.last.2 (rules last.key).limit last.weight (replay_past ordered)
        (Int.add_le_add_left (rules last.key).covered last.now)).2
      have grown : last.requestId :: earlier.map Call.requestId ⊆ (earlier ++ [last]).map Call.requestId := by
        simp
      rw [Session.call,run_stored,if_pos rfl,admitted_append]
      simp only [true_and,run_allowed]
      refine Tracks.weaken ?_ grown (late last (by simp) rfl)
      split
      · rename_i allowed
        rw [if_pos allowed] at checked
        exact checked
      · rename_i denied
        rw [if_neg denied] at checked
        rw [List.append_nil]
        exact checked
    · have kept := before cutoff (fun call member => late call (List.mem_append_left _ member))
      rw [Session.call,run_stored,if_neg (Ne.symm here),admitted_append,if_neg (fun both => here both.1),List.append_nil]
      exact kept.weaken (by simp) le_rfl

-- The script lets a call through exactly when the window has room for it.
theorem replay_check {calls : List Call} {call : Call} (ordered : InOrder (calls ++ [call])) :
    (call.run rules (replay rules calls).redis).2 = .allowed ↔
      weightAbove (admitted (replay rules calls).log call.key) (call.now - (rules call.key).span) + call.weight ≤
        (rules call.key).limit := by
  have tracks := @replay_tracks rules _ ordered.init call.key (call.now - (rules call.key).span)
    (fun earlier member same => Int.sub_le_sub_right (ordered.last.1 earlier member same) _)
  rw [run_allowed]
  exact (tracks.check le_rfl ordered.last.2 (rules call.key).limit call.weight (replay_past ordered)
    (Int.add_le_add_left (rules call.key).covered call.now)).1

theorem replay_sorted {calls : List Call} (ordered : InOrder calls) (key : Key) :
    (admitted (replay rules calls).log key).Pairwise (fun a b => a.1 ≤ b.1) := by
  induction calls using List.reverseRecOn with
  | nil => exact List.Pairwise.nil
  | append_singleton earlier last ih =>
    rw [replay_append,Session.call,admitted_append]
    split
    · rename_i counted
      rw [List.pairwise_append]
      refine ⟨ih ordered.init,List.pairwise_singleton _ _,?_⟩
      intro e member new same
      rw [List.mem_singleton.mp same]
      obtain ⟨rfl,_⟩ := counted
      exact replay_past ordered e member
    · rw [List.append_nil]
      exact ih ordered.init

theorem replay_bounded {calls : List Call} (ordered : InOrder calls) (key : Key) (i : Nat) (e : Time × Nat)
    (found : (admitted (replay rules calls).log key)[i]? = some e) :
    weightAbove ((admitted (replay rules calls).log key).take (i+1)) (e.1 - (rules key).span) ≤ (rules key).limit := by
  induction calls using List.reverseRecOn with
  | nil => cases found
  | append_singleton earlier last ih =>
    rw [replay_append,Session.call,admitted_append] at found ⊢
    split at found
    · rename_i counted
      rw [if_pos counted]
      obtain ⟨rfl,allowed⟩ := counted
      rcases Nat.lt_or_ge i (admitted (replay rules earlier).log last.key).length with inside | past
      · rw [List.getElem?_append_left inside] at found
        rw [List.take_append_of_le_length inside]
        exact ih ordered.init found
      · rw [List.getElem?_append_right past,List.getElem?_singleton] at found
        split at found
        · rename_i last_
          cases found
          have room := (replay_check ordered).mp allowed
          rw [List.take_of_length_le (by simp; omega),weightAbove_append,weightAbove_singleton]
          refine Nat.le_trans (Nat.add_le_add_left ?_ _) room
          split
          · exact le_rfl
          · exact Nat.zero_le _
        · cases found
    · rename_i skipped
      rw [if_neg skipped,List.append_nil] at *
      exact ih ordered.init found

end Runs

theorem denied_unchanged {rules : Key → Rule} {redis : Redis} {call : Call}
    (denied : (call.run rules redis).2 = .denied) :
    inWindow (call.run rules redis).1 call.key (call.now - (rules call.key).span) call.now =
      inWindow redis call.key (call.now - (rules call.key).span) call.now := by
  have refused : ¬ (call.run rules redis).2 = .allowed := by simp [denied]
  rw [run_allowed] at refused
  unfold inWindow
  rw [run_stored,if_pos rfl]
  unfold slidingWindowLua at refused ⊢
  simp only at refused ⊢
  split at refused
  · rename_i full
    rw [if_pos full,live_zremrangebyscore,scores?_zremrangebyscore]
    simp [Store.keep]
  · exact absurd rfl refused

-- On every key, whatever was called on the others, the limiter lets through at
-- most the limit in any window, refuses exactly what does not fit, and a
-- refused call changes nothing that is still in the window.
theorem sliding_window_exact (rules : Key → Rule) (calls : List Call) (ordered : InOrder calls) :
    (∀ key t, weightIn (admitted (replay rules calls).log key) (t - (rules key).span) t ≤ (rules key).limit) ∧
    ∀ i call, calls[i]? = some call →
      let before := replay rules (calls.take i)
      let ran := call.run rules before.redis
      (ran.2 = .denied ↔ (rules call.key).limit <
        weightIn (admitted before.log call.key) (call.now - (rules call.key).span) call.now + call.weight) ∧
      (ran.2 = .denied → inWindow ran.1 call.key (call.now - (rules call.key).span) call.now =
        inWindow before.redis call.key (call.now - (rules call.key).span) call.now) := by
  refine ⟨?_,?_⟩
  · intro key t
    exact sliding_bound (replay_sorted ordered key) (replay_bounded ordered key) t
  · intro i call found
    have prior := ordered.take found
    refine ⟨?_,denied_unchanged⟩
    rw [weightIn_of_past (replay_past prior),← Nat.not_le,← replay_check prior]
    cases (call.run rules (replay rules (calls.take i)).redis).2 <;> simp

-- Two calls in one millisecond fill a window of two for its whole length.
theorem full_window_denies :
    (Call.run (fun _ => .minute 2) (replay (fun _ => .minute 2) [⟨"rate:a",0,1,0⟩,⟨"rate:a",0,1,1⟩]).redis
      ⟨"rate:a",milliseconds 59999,1,2⟩).2 = .denied :=
  ((sliding_window_exact (fun _ => .minute 2)
    [⟨"rate:a",0,1,0⟩,⟨"rate:a",0,1,1⟩,⟨"rate:a",milliseconds 59999,1,2⟩] ⟨by decide,by decide⟩).2
      2 _ rfl).1.mpr (by decide)

end MemWal.RateLimit
