import MemWal.Library.Store
import MemWal.Library.Windows

namespace MemWal.RateLimit
open Library Library.Windows

-- Scores are milliseconds with one decimal: the buckets of one request are
-- written a tenth of a millisecond apart.
abbrev Time := Int
abbrev Key := String
abbrev RequestId := Nat

def milliseconds (n : Int) : Time := n * 10
def seconds (n : Int) : Time := milliseconds (n * 1000)

-- A member is the request's UUID and its index within the request.
structure SortedSet where
  scores : Store (RequestId × Nat) Time
  expires : Option Time
  deriving DecidableEq

abbrev Redis := Store Key SortedSet

-- A command reads and writes what is stored under one key.
def onKey (redis : Redis) (key : Key) (command : Option SortedSet → Option SortedSet) : Redis :=
  match command (redis.get? key) with
  | some set => redis.upsert key set
  | none => redis.erase key

theorem get?_onKey (redis : Redis) (key : Key) (command : Option SortedSet → Option SortedSet) (j : Key) :
    (onKey redis key command).get? j = if j = key then command (redis.get? key) else redis.get? j := by
  unfold onKey
  cases command (redis.get? key) with
  | none => exact Store.get?_erase redis key j
  | some set => exact Store.get?_upsert redis key set j

namespace SortedSet

-- The server drops a key once its time to live has run out.
def live (clock : Time) (set : Option SortedSet) : Option SortedSet :=
  set.filter (fun set => !set.expires.any (fun deadline => deadline ≤ clock))

-- A sorted set that loses its last member is no key any more.
def zremrangebyscore (upto : Time) (set : Option SortedSet) : Option SortedSet :=
  (set.map (fun set => {set with scores := set.scores.keep (fun _ score => upto < score)})).filter
    (fun set => !set.scores.entries.isEmpty)

def scores? (set : Option SortedSet) : Store (RequestId × Nat) Time := (set.map scores).getD .empty

def zcard (set : Option SortedSet) : Nat := (scores? set).entries.length

def zadd (score : Time) (member : RequestId × Nat) (set : Option SortedSet) : Option SortedSet :=
  some ⟨(scores? set).upsert member score,set.bind expires⟩

def expire (deadline : Time) (set : Option SortedSet) : Option SortedSet :=
  set.map (fun set => {set with expires := some deadline})

-- How many of the members have a score after `after`.
def countAbove (set : Option SortedSet) (after : Time) : Nat := (scores? set).count (fun _ score => after < score)

end SortedSet

-- One sorted set member for each unit of weight.
def record (now : Time) (requestId : RequestId) (weight : Nat) (set : Option SortedSet) : Option SortedSet :=
  (List.range weight).foldl (fun set i => SortedSet.zadd now (requestId,i) set) set

open SortedSet in
def slidingWindowLua (clock windowStart now : Time) (limit weight : Nat) (ttl : Time) (requestId : RequestId)
    (stored : Option SortedSet) : Option SortedSet × Nat :=
  let pruned := zremrangebyscore windowStart (live clock stored)
  let count := zcard pruned
  if count + weight > limit then (pruned,0)
  else (expire (clock + ttl) (record now requestId weight pruned),1)

inductive WindowCheckResult where
  | allowed
  | denied
  deriving DecidableEq, Repr

-- The script runs as one command.
def checkAndRecordWindow (redis : Redis) (clock : Time) (key : Key) (windowStart now : Time) (limit weight : Nat)
    (ttlSeconds : Int) (requestId : RequestId) : Redis × WindowCheckResult :=
  let script := slidingWindowLua clock windowStart now limit weight (seconds ttlSeconds) requestId
  (onKey redis key (fun stored => (script stored).1),
    if (script (redis.get? key)).2 = 1 then .allowed else .denied)

section Commands
open SortedSet

@[simp] theorem scores?_zremrangebyscore (upto : Time) (stored : Option SortedSet) :
    scores? (zremrangebyscore upto stored) = (scores? stored).keep (fun _ score => upto < score) := by
  cases stored with
  | none => rfl
  | some set =>
    cases empty : (set.scores.keep (fun _ score => upto < score)).entries with
    | nil =>
      simp only [scores?,zremrangebyscore,Option.map_some,Option.filter,empty]
      exact (Store.mk.injEq .. ▸ empty.symm)
    | cons head tail => simp [scores?,zremrangebyscore,Option.filter,empty]

@[simp] theorem scores?_zadd (score : Time) (member : RequestId × Nat) (stored : Option SortedSet) :
    scores? (zadd score member stored) = (scores? stored).upsert member score := rfl

@[simp] theorem scores?_expire (deadline : Time) (stored : Option SortedSet) :
    scores? (expire deadline stored) = scores? stored := by
  cases stored <;> rfl

theorem live_cases (clock : Time) (stored : Option SortedSet) : live clock stored = stored ∨
    live clock stored = none ∧ ∃ set deadline, stored = some set ∧ set.expires = some deadline ∧ deadline ≤ clock := by
  cases stored with
  | none => exact .inl rfl
  | some set =>
    cases expiry : set.expires with
    | none => simp [live,Option.filter,expiry]
    | some deadline =>
      by_cases due : deadline ≤ clock
      · exact .inr ⟨by simp [live,Option.filter,expiry,due],set,deadline,rfl,expiry,due⟩
      · exact .inl (by simp [live,Option.filter,expiry,due])

-- Pruning does not change a count that no pruned member is in.
theorem countAbove_zremrangebyscore {upto after : Time} {stored : Option SortedSet}
    (idle : ∀ member score, (scores? stored).get? member = some score → after < score → upto < score) :
    countAbove (zremrangebyscore upto stored) after = countAbove stored after := by
  rw [countAbove,scores?_zremrangebyscore,Store.count_keep]
  refine Store.count_congr ?_
  intro member score found
  by_cases above : after < score
  · simp [above,idle member score found above]
  · simp [above]

theorem zcard_zremrangebyscore (upto : Time) (stored : Option SortedSet) :
    zcard (zremrangebyscore upto stored) = countAbove stored upto := by
  simp [zcard,countAbove,Store.count,Store.keysWhere,Store.keep]

theorem record_succ (now : Time) (requestId : RequestId) (weight : Nat) (stored : Option SortedSet) :
    record now requestId (weight+1) stored = zadd now (requestId,weight) (record now requestId weight stored) := by
  simp [record,List.range_succ]

theorem get?_record (now : Time) (requestId : RequestId) (weight : Nat) (stored : Option SortedSet)
    (member : RequestId × Nat) : (scores? (record now requestId weight stored)).get? member =
      if member.1 = requestId ∧ member.2 < weight then some now else (scores? stored).get? member := by
  induction weight with
  | zero => simp [record]
  | succ weight ih =>
    rw [record_succ,scores?_zadd,Store.get?_upsert,ih]
    obtain ⟨id,index⟩ := member
    by_cases same : id = requestId
    · by_cases last : index = weight
      · simp [same,last]
      · have bounds : index < weight + 1 ↔ index < weight := by omega
        simp [same,last,bounds]
    · simp [same]

theorem countAbove_record {requestId : RequestId} {stored : Option SortedSet}
    (fresh : ∀ index, (scores? stored).get? (requestId,index) = none) (now after : Time) (weight : Nat) :
    countAbove (record now requestId weight stored) after =
      countAbove stored after + if after < now then weight else 0 := by
  induction weight with
  | zero => simp [record]
  | succ weight ih =>
    have absent : (scores? (record now requestId weight stored)).get? (requestId,weight) = none := by
      rw [get?_record]
      simpa using fresh weight
    have inserted : (scores? (record now requestId weight stored)).upsert (requestId,weight) now =
        (scores? (record now requestId weight stored)).insert (requestId,weight) now := by
      simp [Store.upsert,absent]
    rw [record_succ,countAbove,scores?_zadd,inserted,Store.count_insert now absent]
    rw [countAbove] at ih
    rw [ih]
    by_cases later : after < now
    · simp only [later,decide_true,if_true]
      omega
    · simp [later]

theorem live_zremrangebyscore (clock upto : Time) (stored : Option SortedSet) :
    live clock (zremrangebyscore upto (live clock stored)) = zremrangebyscore upto (live clock stored) := by
  cases stored with
  | none => rfl
  | some set =>
    by_cases due : set.expires.any (fun deadline => deadline ≤ clock)
    · simp [live,Option.filter,due,zremrangebyscore]
    · by_cases empty : (set.scores.keep (fun _ score => upto < score)).entries.isEmpty
      · simp [live,Option.filter,due,zremrangebyscore,empty]
      · simp [live,Option.filter,due,zremrangebyscore,empty]

end Commands

-- What a stored set says about the weights recorded in it: it counts them right
-- from `cutoff` on, and it outlives every window of the given span they are in.
structure Tracks (stored : Option SortedSet) (log : List (Time × Nat)) (used : List RequestId) (span cutoff : Time) :
    Prop where
  counted : ∀ after, cutoff ≤ after → SortedSet.countAbove stored after = weightAbove log after
  known : ∀ member score, (SortedSet.scores? stored).get? member = some score → member.1 ∈ used
  lasting : ∀ set deadline, stored = some set → set.expires = some deadline → ∀ e ∈ log, e.1 + span ≤ deadline

section Tracking
open SortedSet
variable {stored : Option SortedSet} {log : List (Time × Nat)} {used : List RequestId} {span cutoff clock : Time}

theorem tracks_empty (used : List RequestId) (span cutoff : Time) : Tracks none [] used span cutoff where
  counted _ _ := rfl
  known _ _ found := by simp [scores?] at found
  lasting _ _ found := by cases found

theorem Tracks.weaken {more : List RequestId} {late : Time} (tracks : Tracks stored log used span cutoff)
    (among : used ⊆ more) (order : cutoff ≤ late) : Tracks stored log more span late :=
  ⟨fun after above => tracks.counted after (order.trans above),
    fun member score found => among (tracks.known member score found),tracks.lasting⟩

theorem Tracks.live (tracks : Tracks stored log used span cutoff) (order : cutoff ≤ clock - span) :
    Tracks (live clock stored) log used span (clock - span) := by
  rcases live_cases clock stored with same | ⟨gone,set,deadline,found,expiry,due⟩
  · rw [same]
    exact tracks.weaken (List.Subset.refl _) order
  · rw [gone]
    refine ⟨?_,fun _ _ found => by simp [scores?] at found,fun _ _ found => by cases found⟩
    intro after late
    -- What the dropped key held is older than the window.
    have past : ∀ e ∈ log, e.1 ≤ after := by
      intro e member
      have bound := (tracks.lasting set deadline found expiry e member).trans due
      exact (Int.le_sub_right_of_add_le bound).trans late
    rw [weightAbove_none past]
    rfl

theorem Tracks.prune {upto : Time} (tracks : Tracks stored log used span cutoff)
    (idle : ∀ member score, (scores? stored).get? member = some score → cutoff < score → upto < score) :
    Tracks (zremrangebyscore upto stored) log used span cutoff where
  counted after late := by
    rw [countAbove_zremrangebyscore (fun member score found above => idle member score found (lt_of_le_of_lt late above))]
    exact tracks.counted after late
  known member score found := by
    rw [scores?_zremrangebyscore,Store.get?_keep] at found
    exact tracks.known member score found.1
  lasting set deadline found expiry := by
    cases stored with
    | none => simp [zremrangebyscore] at found
    | some prior =>
      simp only [zremrangebyscore,Option.map_some,Option.filter_eq_some_iff,Option.some.injEq] at found
      obtain ⟨rfl,_⟩ := found
      exact tracks.lasting prior deadline rfl expiry

theorem Tracks.record {requestId : RequestId} {now : Time} (tracks : Tracks stored log used span cutoff)
    (fresh : requestId ∉ used) (weight : Nat) {deadline : Time} (sorted : ∀ e ∈ log, e.1 ≤ now)
    (covered : now + span ≤ deadline) :
    Tracks (expire deadline (record now requestId weight stored)) (log ++ [(now,weight)]) (requestId :: used)
      span cutoff where
  counted after late := by
    have unused : ∀ index, (scores? stored).get? (requestId,index) = none := by
      intro index
      cases found : (scores? stored).get? (requestId,index) with
      | none => rfl
      | some score => exact absurd (tracks.known _ score found) fresh
    rw [countAbove,scores?_expire,← countAbove,countAbove_record unused,tracks.counted after late,
      weightAbove_append,weightAbove_singleton]
  known member score found := by
    rw [scores?_expire,get?_record] at found
    split at found
    · rename_i here
      rw [here.1]
      exact List.mem_cons_self
    · exact List.mem_cons_of_mem _ (tracks.known member score found)
  lasting set late found expiry e member := by
    obtain ⟨prior,_,rfl⟩ := Option.map_eq_some_iff.mp found
    cases expiry
    rcases List.mem_append.mp member with old | new
    · exact (Int.add_le_add_right (sorted e old) span).trans covered
    · rw [List.mem_singleton.mp new]
      exact covered

-- A script run keeps the bucket tracked when it prunes nothing that is still in
-- the bucket's window.
theorem Tracks.script {requestId : RequestId} {windowStart now : Time} (tracks : Tracks stored log used span cutoff)
    (order : cutoff ≤ clock - span) (fresh : requestId ∉ used) (limit weight : Nat) {ttl : Time}
    (sorted : ∀ e ∈ log, e.1 ≤ now) (covered : now + span ≤ clock + ttl)
    (idle : ∀ member score, (scores? (SortedSet.live clock stored)).get? member = some score →
      clock - span < score → windowStart < score) :
    let ran := slidingWindowLua clock windowStart now limit weight ttl requestId stored
    (ran.2 = 1 ↔ countAbove (SortedSet.live clock stored) windowStart + weight ≤ limit) ∧
    Tracks ran.1 (if ran.2 = 1 then log ++ [(now,weight)] else log) (requestId :: used) span (clock - span) := by
  have pruned := (tracks.live order).prune idle
  simp only [slidingWindowLua,zcard_zremrangebyscore]
  by_cases full : countAbove (SortedSet.live clock stored) windowStart + weight > limit
  · rw [if_pos full]
    have denied : ¬ countAbove (SortedSet.live clock stored) windowStart + weight ≤ limit := Nat.not_le.mpr full
    simpa [denied] using pruned.weaken (List.subset_cons_self requestId used) le_rfl
  · rw [if_neg full]
    have room : countAbove (SortedSet.live clock stored) windowStart + weight ≤ limit := Nat.not_lt.mp full
    simpa [room] using pruned.record fresh weight sorted covered

-- A check with the window that belongs to the bucket.
theorem Tracks.check {requestId : RequestId} {now : Time} (tracks : Tracks stored log used span cutoff)
    (order : cutoff ≤ clock - span) (fresh : requestId ∉ used) (limit weight : Nat) {ttl : Time}
    (sorted : ∀ e ∈ log, e.1 ≤ now) (covered : now + span ≤ clock + ttl) :
    let ran := slidingWindowLua clock (clock - span) now limit weight ttl requestId stored
    (ran.2 = 1 ↔ weightAbove log (clock - span) + weight ≤ limit) ∧
    Tracks ran.1 (if ran.2 = 1 then log ++ [(now,weight)] else log) (requestId :: used) span (clock - span) := by
  have script := tracks.script order fresh limit weight sorted covered (fun _ _ _ above => above)
  rwa [(tracks.live order).counted _ le_rfl] at script

end Tracking
end MemWal.RateLimit
