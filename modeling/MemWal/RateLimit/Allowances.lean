import MemWal.RateLimit.Refills
import Mathlib.Data.Finset.Dedup
import Mathlib.Data.Finset.Order
import Mathlib.Data.List.Pairwise

namespace MemWal.RateLimit.Fallback
open Library

structure Session where
  fallback : InMemoryFallback
  admitted : List Request

def Session.serve (config : RateLimitConfig) (s : Session) (request : Request) : Session :=
  let served := rateLimitMiddleware config request s.fallback
  ⟨served.1,if served.2 = .next then request :: s.admitted else s.admitted⟩

def replay (config : RateLimitConfig) (requests : List Request) : Session :=
  requests.foldl (Session.serve config) ⟨⟨.empty,0⟩,[]⟩

-- The clock never goes back, within a request and from one to the next.
def Clocked (requests : List Request) : Prop :=
  (requests.flatMap (fun request => request.reads.times)).Pairwise (fun earlier later => earlier ≤ later)

-- What was admitted through a bucket in an interval.
def admittedWeight (config : RateLimitConfig) (requests : List Request) (layer : Layer) (key : Key)
    (start length : Rat) : Rat :=
  (((replay config requests).admitted.filter (fun request => layer.key request.auth = key ∧
    start ≤ request.reads.consumed layer ∧ request.reads.consumed layer ≤ start + length)).map
      (fun request => (request.weight : Rat))).sum

def historiesOf (admitted : List Request) : Histories := fun layer key =>
  (admitted.filter (fun request => layer.key request.auth = key)).map
    (fun request => (request.reads.consumed layer,(request.weight : Rat)))

def AllDebited (config : RateLimitConfig) (requests : List Request) : Prop :=
  ∀ before request after, requests = before ++ request :: after →
    (rateLimitMiddleware config request (replay config before).fallback).2 = .next →
      ∀ layer, Debited config request (replay config before).fallback layer

def Bounded (config : RateLimitConfig) (requests : List Request) : Prop :=
  ∀ (layer : Layer) (auth : AuthInfo) (start length : Rat), 0 ≤ length →
    admittedWeight config requests layer (layer.key auth) start length ≤
      layer.limit config + length * layer.limit config / layer.refillDuration

def AllSpared (config : RateLimitConfig) (requests : List Request) : Prop :=
  ∀ before request after, requests = before ++ request :: after →
    Passes config request (replay config before).fallback → Spared config request (replay config before).fallback

section Runs
variable {config : RateLimitConfig} {requests : List Request} {request : Request} {fallback : InMemoryFallback}

theorem replay_append (config : RateLimitConfig) (requests : List Request) (request : Request) :
    replay config (requests ++ [request]) = (replay config requests).serve config request := by
  simp [replay]

theorem recordAll_historiesOf (request : Request) (admitted : List Request) :
    recordAll request (historiesOf admitted) = historiesOf (request :: admitted) := by
  funext layer key
  by_cases same : layer.key request.auth = key
  · subst same
    cases layer <;> simp [recordAll,record,historiesOf,Layer.all]
  · have differs : key ≠ layer.key request.auth := fun equal => same equal.symm
    cases layer <;> simp [recordAll,record,historiesOf,Layer.all,same,differs]

theorem served_counter (below : fallback.cleanupCounter < 1000) :
    (rateLimitMiddleware config request fallback).1.cleanupCounter < 1000 ∧
      (rateLimitMiddleware config request fallback).1.cleanupCounter ≤ fallback.cleanupCounter + 3 := by
  have step : ∀ {s : InMemoryFallback} (layer : Layer), s.cleanupCounter < 1000 →
      (debit config request s layer).cleanupCounter < 1000 ∧
        (debit config request s layer).cleanupCounter ≤ s.cleanupCounter + 1 := by
    intro s layer under
    rw [debit_counter under]
    exact ⟨Nat.mod_lt _ (by decide),Nat.mod_le _ _⟩
  have asked : (askLayers config request Layer.all fallback).1.cleanupCounter = fallback.cleanupCounter :=
    askLayers_counter Layer.all
  by_cases passes : Passes config request fallback
  · rw [rateLimitMiddleware_admitted passes]
    have one := step .delegateKey (asked ▸ below)
    have two := step .burst one.1
    have three := step .sustained two.1
    exact ⟨three.1,by omega⟩
  · rw [← admitted_iff,rateLimitMiddleware_eq] at passes
    rw [rateLimitMiddleware_eq]
    split at passes
    · rename_i result
      rw [result] at asked
      exact ⟨asked.trans_lt below,asked.le.trans (Nat.le_add_right _ _)⟩
    · exact absurd rfl passes

theorem replay_counter (config : RateLimitConfig) (requests : List Request) :
    (replay config requests).fallback.cleanupCounter < 1000 := by
  induction requests using List.reverseRecOn with
  | nil => exact Nat.zero_lt_succ 999
  | append_singleton earlier last ih =>
    rw [replay_append]
    exact (served_counter ih).1

-- At most three debits a request.
theorem replay_debits (config : RateLimitConfig) (requests : List Request) :
    (replay config requests).fallback.cleanupCounter ≤ 3 * requests.length := by
  induction requests using List.reverseRecOn with
  | nil => exact le_rfl
  | append_singleton earlier last ih =>
    have more := (@served_counter config last _ (replay_counter config earlier)).2
    rw [replay_append,List.length_append,List.length_singleton]
    change (rateLimitMiddleware config last (replay config earlier).fallback).1.cleanupCounter ≤ _
    omega

theorem follows_empty (config : RateLimitConfig) (now : Instant) : Follows config ⟨.empty,0⟩ (historiesOf []) now :=
  ⟨⟨Nat.zero_lt_succ 999,nofun,nofun⟩,fun _ _ _ _ => rfl,fun _ _ => trivial,nofun⟩

theorem follows_serve {s : Session} {now : Instant} (follows : Follows config s.fallback (historiesOf s.admitted) now)
    (ordered : request.reads.Ordered) (order : now ≤ request.reads.consumed .delegateKey)
    (spared : Passes config request s.fallback → Spared config request s.fallback) :
    Follows config (s.serve config request).fallback (historiesOf (s.serve config request).admitted)
      (request.reads.cleaned .sustained) := by
  by_cases passes : Passes config request s.fallback
  · have admitted := follows_admitted follows ordered order passes (spared passes)
    rw [recordAll_historiesOf] at admitted
    simpa only [Session.serve,admitted_iff.mpr passes,if_true] using admitted
  · have late := (ordered.first .sustained).trans (ordered.cleaned .sustained)
    have refused := (follows_refused follows ordered order passes).mono late
    have skipped := mt admitted_iff.mp passes
    simpa only [Session.serve,if_neg skipped] using refused

theorem AllSpared.init (spared : AllSpared config (requests ++ [request])) : AllSpared config requests := by
  intro before middle after split
  apply spared before middle (after ++ [request])
  rw [split]
  simp

theorem replay_follows (clocked : Clocked requests) (spared : AllSpared config requests) {now : Instant}
    (past : ∀ request ∈ requests, ∀ time ∈ request.reads.times, time ≤ now) :
    Follows config (replay config requests).fallback (historiesOf (replay config requests).admitted) now := by
  induction requests using List.reverseRecOn generalizing now with
  | nil => exact follows_empty config now
  | append_singleton earlier last ih =>
    rw [Clocked,List.flatMap_append,List.pairwise_append] at clocked
    obtain ⟨before,own,order⟩ := clocked
    rw [List.flatMap_singleton] at own order
    have ordered := Reads.ordered own
    have debits : last.reads.consumed .delegateKey ∈ last.reads.times := by simp [Reads.times,Layer.all]
    have ends : last.reads.cleaned .sustained ∈ last.reads.times := by simp [Reads.times,Layer.all]
    have reads : ∀ request ∈ earlier, ∀ time ∈ request.reads.times, time ≤ last.reads.consumed .delegateKey := by
      intro request member time read
      exact order time (List.mem_flatMap.mpr ⟨request,member,read⟩) _ debits
    rw [replay_append]
    apply (follows_serve (ih before spared.init reads) ordered le_rfl (spared earlier last [] rfl)).mono
    exact past last (by simp) _ ends

theorem admittedWeight_eq (config : RateLimitConfig) (requests : List Request) (layer : Layer) (key : Key)
    (start length : Rat) : admittedWeight config requests layer key start length =
      Meters.taken (Meters.within start (start + length) (historiesOf (replay config requests).admitted layer key)) := by
  simp [admittedWeight,Meters.taken,Meters.within,historiesOf,List.filter_map,List.filter_filter,Function.comp_def,
    Bool.and_comm]

theorem replay_bounded (clocked : Clocked requests) (spared : AllSpared config requests) : Bounded config requests := by
  intro layer auth start length order
  obtain ⟨now,bound⟩ := (requests.flatMap (fun request => request.reads.times)).toFinset.exists_le
  have past : ∀ request ∈ requests, ∀ time ∈ request.reads.times, time ≤ now := by
    intro request member time read
    apply bound
    rw [List.mem_toFinset]
    exact List.mem_flatMap.mpr ⟨request,member,read⟩
  have follows := replay_follows clocked spared past
  have paid := Meters.taken_within (limit_nonneg config layer) (rate_nonneg config layer) (follows.covered layer auth)
    (le_add_of_nonneg_right order : start ≤ start + length)
  rw [admittedWeight_eq]
  apply paid.trans_eq
  rw [rate,add_sub_cancel_left,mul_div_assoc]

end Runs

section Visits

def alice : AuthInfo := ⟨"a","0x1",rfl⟩
def bob : AuthInfo := ⟨"b","0x2",rfl⟩
def thousand : RateLimitConfig := ⟨1000,1000,1000,false⟩

-- One request during which the clock stands still.
def visit (auth : AuthInfo) (time : Instant) : Request := ⟨auth,1,⟨fun _ => time,fun _ => time,fun _ => time,fun _ => time⟩⟩

theorem visit_clocked (requests : List (AuthInfo × Instant)) (sorted : requests.Pairwise (fun a b => a.2 ≤ b.2)) :
    Clocked (requests.map (fun e => visit e.1 e.2)) := by
  have times : ∀ auth time, (visit auth time).reads.times = List.replicate 12 time := fun _ _ => rfl
  rw [Clocked,List.pairwise_flatMap]
  constructor
  · intro request member
    obtain ⟨e,_,rfl⟩ := List.mem_map.mp member
    rw [times,List.pairwise_replicate]
    exact Or.inr le_rfl
  · rw [List.pairwise_map]
    apply sorted.imp
    intro a b order time early late after
    rw [times] at early after
    rw [List.eq_of_mem_replicate early,List.eq_of_mem_replicate after]
    exact order

theorem alice_bob (layer other : Layer) : layer.key alice ≠ other.key bob := by
  intro same
  have one := Layer.key_layer same
  subst one
  revert same
  cases layer <;> decide

theorem limit_thousand (layer : Layer) : (layer.limit thousand : Rat) = 1000 := by cases layer <;> rfl

theorem visit_passes {auth : AuthInfo} {time : Instant} {fallback : InMemoryFallback}
    (left : ∀ layer, 1 ≤ (held thousand (visit auth time) fallback layer).projected time 1000 (rate thousand layer)) :
    Passes thousand (visit auth time) fallback := by
  intro layer
  have enough := left layer
  rw [← limit_thousand layer] at enough
  exact decide_eq_true (by simpa [visit] using enough)

-- The account `alice` was last seen at 0, and `n` requests of `bob` came since.
structure Crowded (fallback : InMemoryFallback) (n : Nat) : Prop where
  counter : fallback.cleanupCounter = 3 + 3 * n
  idle : ∀ layer : Layer, fallback.buckets.get? (layer.key alice) = some ⟨999,0⟩
  left : ∀ layer, (held thousand (visit bob 7200) fallback layer).projected 7200 1000 (rate thousand layer) = 1000 - n

theorem crowded_zero : Crowded (replay thousand [visit alice 0]).fallback 0 := by
  have fresh : ∀ layer now, (held thousand (visit alice 0) ⟨.empty,0⟩ layer).projected now 1000 (rate thousand layer) = 1000 := by
    intro layer now
    have full := projected_new thousand layer 0 now
    rw [limit_thousand] at full
    rw [held,limit_thousand]
    exact full
  have passes : Passes thousand (visit alice 0) ⟨.empty,0⟩ := by
    apply visit_passes
    intro layer
    rw [fresh]
    norm_num
  have served := served_quietly (show 0 + 3 < 1000 by decide) passes
  refine ⟨served.counter,?_,?_⟩
  · intro layer
    apply (served.own layer).trans
    rw [TokenBucket.consume,limit_thousand,fresh]
    norm_num [visit]
  · intro layer
    have absent := served.other (layer.key bob) (fun other same => alice_bob other layer same.symm)
    have empty : (rateLimitMiddleware thousand (visit alice 0) ⟨.empty,0⟩).1.buckets.get?
        (layer.key (visit bob 7200).auth) = none := absent
    have full := projected_new thousand layer 7200 7200
    rw [limit_thousand] at full
    change (held thousand (visit bob 7200) (rateLimitMiddleware thousand (visit alice 0) ⟨.empty,0⟩).1 layer).projected 7200
      1000 (rate thousand layer) = _
    rw [held,empty,limit_thousand]
    exact full.trans (by norm_num)

theorem crowded_succ {fallback : InMemoryFallback} {n : Nat} (crowded : Crowded fallback n) (few : n < 332) :
    Crowded (rateLimitMiddleware thousand (visit bob 7200) fallback).1 (n + 1) := by
  have small : (n : Rat) < 332 := by exact_mod_cast few
  have passes : Passes thousand (visit bob 7200) fallback := by
    apply visit_passes
    intro layer
    rw [crowded.left]
    linarith
  have quiet : fallback.cleanupCounter + 3 < 1000 := by
    rw [crowded.counter]
    omega
  have served := served_quietly quiet passes
  refine ⟨?_,?_,?_⟩
  · rw [served.counter,crowded.counter]
    omega
  · intro layer
    rw [served.other _ (alice_bob layer)]
    exact crowded.idle layer
  · intro layer
    have own : (rateLimitMiddleware thousand (visit bob 7200) fallback).1.buckets.get?
        (layer.key (visit bob 7200).auth) = _ := served.own layer
    have still : durationSince 7200 7200 = 0 := by norm_num [durationSince]
    have count : (0 : Rat) ≤ n := Nat.cast_nonneg n
    rw [held,own,Option.getD_some,TokenBucket.consume,limit_thousand]
    change min ((held thousand (visit bob 7200) fallback layer).projected 7200 1000 (rate thousand layer) - (1 : Nat) +
      durationSince 7200 7200 * rate thousand layer) 1000 = _
    rw [crowded.left,still,zero_mul,add_zero]
    push_cast
    rw [min_eq_left (by linarith)]
    ring

theorem crowded_run (n : Nat) (few : n ≤ 332) :
    Crowded (replay thousand ([visit alice 0] ++ List.replicate n (visit bob 7200))).fallback n := by
  induction n with
  | zero => exact crowded_zero
  | succ n ih =>
    have before := ih (Nat.le_of_succ_le few)
    rw [List.replicate_succ',← List.append_assoc,replay_append]
    exact crowded_succ before few

theorem crowd_clocked (n : Nat) (auth : AuthInfo) {time : Instant} (late : 7200 ≤ time) :
    Clocked ([visit alice 0] ++ List.replicate n (visit bob 7200) ++ [visit auth time]) := by
  let visits : List (AuthInfo × Instant) := [(alice,0)] ++ List.replicate n (bob,7200) ++ [(auth,time)]
  have same : [visit alice 0] ++ List.replicate n (visit bob 7200) ++ [visit auth time] =
      visits.map (fun e => visit e.1 e.2) := by simp [visits]
  rw [same]
  apply visit_clocked
  have between : ∀ e ∈ [(alice,(0 : Instant))] ++ List.replicate n (bob,7200), 0 ≤ e.2 ∧ e.2 ≤ 7200 := by
    intro e member
    rcases List.mem_append.mp member with first | crowd
    · rw [List.mem_singleton.mp first]
      norm_num
    · rw [List.eq_of_mem_replicate crowd]
      norm_num
  rw [List.pairwise_append,List.pairwise_append]
  refine ⟨⟨List.pairwise_singleton _ _,List.pairwise_replicate.mpr (Or.inr le_rfl),?_⟩,List.pairwise_singleton _ _,?_⟩
  · intro first only e crowd
    rw [List.mem_singleton.mp only]
    exact (between e (List.mem_append_right _ crowd)).1
  · intro e early last only
    rw [List.mem_singleton.mp only]
    exact (between e early).2.trans late

def idleRun (n : Nat) : List Request := [visit alice 0] ++ List.replicate n (visit bob 7200) ++ [visit alice 7200]

-- The bucket of the other account after its last request.
theorem crowd_recent {n : Nat} (few : n < 332) (layer : Layer) :
    (replay thousand ([visit alice 0] ++ List.replicate (n+1) (visit bob 7200))).fallback.buckets.get? (layer.key bob) =
      some ⟨1000 - n - 1,7200⟩ := by
  have crowded := crowded_run n few.le
  have small : (n : Rat) < 332 := by exact_mod_cast few
  have passes : Passes thousand (visit bob 7200)
      (replay thousand ([visit alice 0] ++ List.replicate n (visit bob 7200))).fallback := by
    apply visit_passes
    intro layer
    rw [crowded.left]
    linarith
  have quiet : (replay thousand ([visit alice 0] ++ List.replicate n (visit bob 7200))).fallback.cleanupCounter + 3 <
      1000 := by
    rw [crowded.counter]
    omega
  rw [List.replicate_succ',← List.append_assoc,replay_append]
  have own : (rateLimitMiddleware thousand (visit bob 7200) (replay thousand ([visit alice 0] ++
      List.replicate n (visit bob 7200))).fallback).1.buckets.get? (layer.key (visit bob 7200).auth) = _ :=
    (served_quietly quiet passes).own layer
  apply own.trans
  rw [TokenBucket.consume,limit_thousand]
  change some (TokenBucket.mk ((held thousand (visit bob 7200) _ layer).projected 7200 1000 (rate thousand layer) -
    (1 : Nat)) 7200) = _
  rw [crowded.left,Nat.cast_one]

-- The first debit of the last request is the thousandth. Its account was seen ten
-- minutes before, and the tokens it spent have come back in part or in full.
def crowdRun : List Request := [visit alice 0] ++ List.replicate 332 (visit bob 7200) ++ [visit bob 7800]

end Visits

theorem fallback_bounded_iff (config : RateLimitConfig) {requests : List Request} (clocked : Clocked requests) :
    AllDebited config requests ∧ Bounded config requests ↔ AllSpared config requests := by
  constructor
  · intro both before request after split passes
    have debited := both.1 before request after split (admitted_iff.mpr passes)
    exact (debited_iff (replay_counter config before) passes).mp debited
  · intro spared
    constructor
    · intro before request after split admitted
      have passes := admitted_iff.mp admitted
      exact (debited_iff (replay_counter config before) passes).mpr (spared before request after split passes)
    · exact replay_bounded clocked spared

theorem crowd_bounded : AllDebited thousand crowdRun ∧ Bounded thousand crowdRun := by
  apply (fallback_bounded_iff thousand (crowd_clocked 332 bob (by norm_num))).mpr
  intro before request after split passes earlier layer order due
  have debits := replay_debits thousand before
  have early : place earlier < 2 := lt_of_lt_of_le order (by cases layer <;> decide)
  have lengths := congrArg List.length split
  simp only [List.length_append,List.length_cons,List.length_nil,List.length_replicate] at lengths
  have none_ : after = [] := List.eq_nil_of_length_eq_zero (by omega)
  subst none_
  obtain ⟨rfl,same⟩ := List.append_inj' split rfl
  obtain ⟨rfl,_⟩ := List.cons.inj same
  have recent := crowd_recent (show 331 < 332 by decide) layer
  rw [held]
  change durationSince 7800 (Option.getD ((replay thousand _).fallback.buckets.get? (layer.key bob)) _).lastUpdate < 7200
  rw [recent]
  norm_num [durationSince]

-- The request is the first one of its account in two hours, and its first
-- debit is the thousandth.
theorem idle_bucket_not_debited : Clocked (idleRun 332) ∧
    ¬ (AllDebited thousand (idleRun 332) ∧ Bounded thousand (idleRun 332)) := by
  refine ⟨crowd_clocked 332 alice le_rfl,?_⟩
  intro both
  have crowded := crowded_run 332 le_rfl
  generalize reached : (replay thousand ([visit alice 0] ++ List.replicate 332 (visit bob 7200))).fallback = fallback
    at crowded
  have found : ∀ layer, held thousand (visit alice 7200) fallback layer = ⟨999,0⟩ := by
    intro layer
    have idle : fallback.buckets.get? (layer.key (visit alice 7200).auth) = _ := crowded.idle layer
    rw [held,idle,Option.getD_some]
  have passes : Passes thousand (visit alice 7200) fallback := by
    apply visit_passes
    intro layer
    rw [found]
    have gain := mul_nonneg (durationSince_nonneg 7200 0) (rate_nonneg thousand layer)
    exact le_min (by linarith) (by norm_num)
  have debited := both.1 _ (visit alice 7200) [] rfl
  rw [reached] at debited
  have under : fallback.cleanupCounter < 1000 := by
    rw [crowded.counter]
    decide
  have spared := (debited_iff under passes).mp (debited (admitted_iff.mpr passes))
  have short := spared .delegateKey .burst (by decide) (by rw [crowded.counter]; rfl)
  rw [found] at short
  norm_num [visit,durationSince] at short

end MemWal.RateLimit.Fallback
