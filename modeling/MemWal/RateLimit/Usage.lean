import MemWal.RateLimit.Charges

namespace MemWal.RateLimit
open Library Library.Windows

-- What a charge should leave in a bucket: every entry that was in the window,
-- and one new entry for each unit of weight.
structure Charged (before after : Option SortedSet) (windowStart score : Time) (requestId : RequestId) (weight : Nat) :
    Prop where
  kept : ∀ member old, (SortedSet.scores? before).get? member = some old → windowStart < old →
    (SortedSet.scores? after).get? member = some old
  added : ∀ index, index < weight → (SortedSet.scores? after).get? (requestId,index) = some score

section Script
open SortedSet
variable {now score ttl : Time} {weight : Nat} {requestId : RequestId} {stored : Option SortedSet}

theorem live_expire {deadline clock : Time} (ahead : clock < deadline) (set : Option SortedSet) :
    live clock (expire deadline set) = expire deadline set := by
  cases set with
  | none => rfl
  | some set => simp [live,expire,Option.filter,ahead]

theorem charge_denied (full : i64Max < countAbove (live now stored) now + weight) :
    live now (slidingWindowLua now now score i64Max weight ttl requestId stored).1 =
      zremrangebyscore now (live now stored) := by
  rw [slidingWindowLua]
  simp only [zcard_zremrangebyscore]
  rw [if_pos full]
  exact live_zremrangebyscore now now stored

theorem charge_recorded (room : countAbove (live now stored) now + weight ≤ i64Max) (lasting : 0 < ttl) :
    live now (slidingWindowLua now now score i64Max weight ttl requestId stored).1 =
      expire (now + ttl) (record score requestId weight (zremrangebyscore now (live now stored))) := by
  rw [slidingWindowLua]
  simp only [zcard_zremrangebyscore]
  rw [if_neg (Nat.not_lt.mpr room)]
  exact live_expire (Int.lt_add_of_pos_right now lasting) _

theorem charged_iff {windowStart : Time} (positive : 0 < weight) (lasting : 0 < ttl)
    (fresh : ∀ index, (scores? (live now stored)).get? (requestId,index) = none) :
    Charged (live now stored) (live now (slidingWindowLua now now score i64Max weight ttl requestId stored).1)
      windowStart score requestId weight ↔
    (∀ member old, (scores? (live now stored)).get? member = some old → windowStart < old → now < old) ∧
      countAbove (live now stored) now + weight ≤ i64Max := by
  rcases Nat.lt_or_ge i64Max (countAbove (live now stored) now + weight) with full | room
  · rw [charge_denied full]
    constructor
    · intro charged
      have new := charged.added 0 positive
      rw [scores?_zremrangebyscore,Store.get?_keep,fresh] at new
      cases new.1
    · intro ⟨_,room⟩
      exact absurd room (Nat.not_le.mpr full)
  · rw [charge_recorded room lasting]
    have content : ∀ member, (scores? (expire (now + ttl)
        (record score requestId weight (zremrangebyscore now (live now stored))))).get? member =
          if member.1 = requestId ∧ member.2 < weight then some score
          else (scores? (zremrangebyscore now (live now stored))).get? member := by
      intro member
      rw [scores?_expire,get?_record]
    constructor
    · intro charged
      refine ⟨?_,room⟩
      intro member old found inside
      have still := charged.kept member old found inside
      rw [content,if_neg,scores?_zremrangebyscore,Store.get?_keep] at still
      · simpa using still.2
      · -- The charge's own members were not there before.
        intro ⟨same,_⟩
        have absent := fresh member.2
        rw [← same] at absent
        rw [show (member.1,member.2) = member from rfl,found] at absent
        cases absent
    · intro ⟨ahead,_⟩
      refine ⟨?_,?_⟩
      · intro member old found inside
        rw [content,if_neg,scores?_zremrangebyscore,Store.get?_keep]
        · exact ⟨found,by simpa using ahead member old found inside⟩
        · intro ⟨same,_⟩
          have absent := fresh member.2
          rw [← same] at absent
          rw [show (member.1,member.2) = member from rfl,found] at absent
          cases absent
      · intro index inside
        rw [content,if_pos ⟨rfl,inside⟩]

end Script

section Layers
variable {s : Limiter} {now : Time} {auth : AuthInfo} {trips : Layer → Trip} {weight : Nat}

theorem trip_stored {layer : Layer} {windowStart : Time} {limit : Nat} {trip : Trip} {charge : Bool}
    (reached : trip.lost ≠ some false) (key : Key) :
    (s.trip now auth layer windowStart limit weight trip charge).1.redis.get? key =
      (s.check now auth layer windowStart limit weight trip.requestId charge).1.redis.get? key := by
  unfold Limiter.trip
  cases lost : trip.lost with
  | none => rfl
  | some ran =>
    cases ran with
    | true => rfl
    | false => exact absurd lost reached

theorem chargeLayers_stored {layers : List Layer} (distinct : layers.Nodup)
    (reached : ∀ layer, (trips layer).lost ≠ some false) (layer : Layer) :
    (chargeLayers now auth weight trips layers s).redis.get? (layer.key auth) =
      if layer ∈ layers then
        (slidingWindowLua now now (now + layer.lead) i64Max weight (seconds layer.ttlSeconds) (trips layer).requestId
          (s.redis.get? (layer.key auth))).1
      else s.redis.get? (layer.key auth) := by
  induction layers generalizing s with
  | nil => rfl
  | cons first rest ih =>
    obtain ⟨apart,others⟩ := List.nodup_cons.mp distinct
    have rest_ := ih (s:=(s.trip now auth first now i64Max weight (trips first) true).1) others
    rw [trip_stored (reached first),check_stored] at rest_
    refine rest_.trans ?_
    by_cases here : layer = first
    · subst here
      simp [apart]
    · have keys : layer.key auth ≠ first.key auth := fun same => here (Layer.key_layer same)
      simp [here,keys]

end Layers

inductive Action where
  | request (now : Time) (auth : AuthInfo) (path : String) (trips : Layer → Trip)
  | charge (now : Time) (auth : AuthInfo) (weight : Nat) (trips : Layer → Trip)

namespace Action

def now : Action → Time
  | request now .. | charge now .. => now

def ids : Action → List RequestId
  | request _ _ _ trips | charge _ _ _ trips => tripIds trips Layer.all

end Action

def Limiter.act (config : RateLimitConfig) (s : Limiter) : Action → Limiter
  | .request now auth path trips => (rateLimitMiddleware config s now auth path trips).1
  | .charge now auth weight trips => chargeExplicitWeight s now auth weight trips

def Limiter.run (config : RateLimitConfig) (actions : List Action) : Limiter :=
  actions.foldl (Limiter.act config) .init

-- Time does not run backwards and no UUID is drawn twice.
structure Fair (actions : List Action) : Prop where
  times : actions.Pairwise (fun a b => a.now ≤ b.now)
  fresh : (actions.flatMap Action.ids).Nodup

-- Each charge of the run finds its three buckets idle.
def ChargesIdle (config : RateLimitConfig) (actions : List Action) : Prop :=
  ∀ i now auth weight trips, actions[i]? = some (.charge now auth weight trips) →
    ∀ layer, Idle (Limiter.run config (actions.take i)) now auth weight layer

section Runs
variable {config : RateLimitConfig} {s : Limiter} {used : List RequestId}

theorem Sound.same {after : Limiter} {now : Time} (sound : Sound s used now) (redis : after.redis = s.redis)
    (log : after.log = s.log) : Sound after used now :=
  ⟨by rw [redis,log]; exact sound.tracks,by rw [log]; exact sound.past⟩

-- The in-memory buckets touch neither Redis nor what was recorded in it.
theorem middleware_same (config : RateLimitConfig) (s : Limiter) (now : Time) (auth : AuthInfo) (path : String)
    (trips : Layer → Trip) (active : config.benchBypassEnabled = false) :
    (rateLimitMiddleware config s now auth path trips).1.redis =
        (checkLayers config now auth (endpointWeight path) trips Layer.all s).1.redis ∧
      (rateLimitMiddleware config s now auth path trips).1.log =
        (checkLayers config now auth (endpointWeight path) trips Layer.all s).1.log := by
  unfold rateLimitMiddleware
  rw [active]
  simp only [Bool.false_eq_true,if_false]
  split
  · rename_i checked
    rw [checked]
    exact ⟨rfl,rfl⟩
  · rename_i checked
    rw [checked]
    exact ⟨rfl,rfl⟩
  · rename_i checked
    rw [checked]
    split <;> exact ⟨rfl,rfl⟩

theorem checkLayers_allowed {now : Time} {auth : AuthInfo} {weight : Nat} {trips : Layer → Trip} {layer : Layer}
    {rest : List Layer} {after : Limiter} (allowed : s.trip now auth layer (now - layer.span) (layer.limit config) weight
      (trips layer) false = (after,some .allowed)) :
    checkLayers config now auth weight trips (layer :: rest) s = checkLayers config now auth weight trips rest after := by
  rw [checkLayers]
  simp only [allowed]

theorem checkLayers_denied {now : Time} {auth : AuthInfo} {weight : Nat} {trips : Layer → Trip} {layer : Layer}
    {rest : List Layer} {after : Limiter} (denied : s.trip now auth layer (now - layer.span) (layer.limit config) weight
      (trips layer) false = (after,some .denied)) :
    checkLayers config now auth weight trips (layer :: rest) s = (after,.denied layer) := by
  rw [checkLayers]
  simp only [denied]

-- While Redis answers, a request goes on only through all three windows.
theorem checkLayers_answered {now : Time} {auth : AuthInfo} {weight : Nat} {trips : Layer → Trip}
    (answers : ∀ layer, (trips layer).lost = none) (layers : List Layer) :
    (checkLayers config now auth weight trips layers s).2 ≠ .redisDown := by
  induction layers generalizing s with
  | nil => simp [checkLayers]
  | cons layer rest ih =>
    unfold checkLayers
    simp only
    split
    · exact ih
    · simp
    · rename_i lost
      rw [Limiter.trip,answers layer] at lost
      cases lost

theorem middleware_next {now : Time} {auth : AuthInfo} {path : String} {trips : Layer → Trip}
    (active : config.benchBypassEnabled = false) (answers : ∀ layer, (trips layer).lost = none)
    (admitted : (rateLimitMiddleware config s now auth path trips).2 = .next) :
    (checkLayers config now auth (endpointWeight path) trips Layer.all s).2 = .admitted := by
  unfold rateLimitMiddleware at admitted
  rw [active] at admitted
  simp only [Bool.false_eq_true,if_false] at admitted
  split at admitted
  · rename_i checked
    rw [checked]
  · cases admitted
  · rename_i down
    have up := @checkLayers_answered config s now auth (endpointWeight path) _
      answers Layer.all
    rw [down] at up
    exact absurd rfl up

theorem all_distinct : Layer.all.Nodup := by decide

-- One action of a run, a charge being made only where it may.
theorem act_sound {now : Time} {action : Action} (sound : Sound s used now) (order : now ≤ action.now)
    (fresh : (action.ids ++ used).Nodup)
    (idle : ∀ late auth weight trips, action = .charge late auth weight trips → ∀ layer, Idle s late auth weight layer) :
    Sound (s.act config action) (action.ids ++ used) action.now := by
  have start := sound.later order
  cases action with
  | request late auth path trips =>
    by_cases active : config.benchBypassEnabled = false
    · obtain ⟨redis,log⟩ := middleware_same config s late auth path trips active
      exact (checkLayers_sound start all_distinct fresh).1.same redis log
    · have same : rateLimitMiddleware config s late auth path trips = (s,.next) := by
        simp [rateLimitMiddleware,active]
      rw [Limiter.act,same]
      exact start.use (List.subset_append_right _ _)
  | charge late auth weight trips =>
    rw [Limiter.act,chargeExplicitWeight]
    split
    · exact start.use (List.subset_append_right _ _)
    · exact chargeLayers_sound start all_distinct fresh (fun layer _ => idle late auth weight trips rfl layer)

theorem run_append (config : RateLimitConfig) (actions : List Action) (action : Action) :
    Limiter.run config (actions ++ [action]) = (Limiter.run config actions).act config action := by
  simp [Limiter.run]

theorem Fair.init {actions : List Action} {action : Action} (fair : Fair (actions ++ [action])) : Fair actions := by
  refine ⟨(List.pairwise_append.mp fair.times).1,?_⟩
  have fresh := fair.fresh
  rw [List.flatMap_append] at fresh
  exact (List.nodup_append.mp fresh).1

theorem run_sound {actions : List Action} (fair : Fair actions) (idle : ChargesIdle config actions) (now : Time)
    (late : ∀ action ∈ actions, action.now ≤ now) :
    Sound (Limiter.run config actions) (actions.flatMap Action.ids) now := by
  induction actions using List.reverseRecOn generalizing now with
  | nil => exact sound_init now
  | append_singleton earlier last ih =>
    have idleBefore : ChargesIdle config earlier := by
      intro i time auth weight trips found layer
      have inside : i < earlier.length := (List.getElem?_eq_some_iff.mp found).1
      have whole := idle i time auth weight trips (by rw [List.getElem?_append_left inside]; exact found) layer
      rwa [List.take_append_of_le_length inside.le] at whole
    have before := ih fair.init idleBefore last.now (fun action member =>
      (List.pairwise_append.mp fair.times).2.2 action member last (List.mem_singleton_self _))
    have here : ∀ time auth weight trips, last = .charge time auth weight trips →
        ∀ layer, Idle (Limiter.run config earlier) time auth weight layer := by
      rintro time auth weight trips rfl layer
      have whole := idle earlier.length time auth weight trips (by simp) layer
      rwa [List.take_left'] at whole
      rfl
    have fresh : (last.ids ++ earlier.flatMap Action.ids).Nodup := by
      have all := fair.fresh
      rw [List.flatMap_append,List.flatMap_singleton] at all
      exact List.nodup_append_comm.mp all
    rw [run_append]
    have step := (@act_sound config _ _ _ _ before le_rfl fresh here).later (late last (by simp))
    refine step.use ?_
    intro id member
    simp only [List.flatMap_append,List.flatMap_singleton,List.mem_append] at member ⊢
    exact member.symm

end Runs

-- A charge leaves what the buckets still count and adds its weight exactly when
-- nothing they count was written by then. Along a run of such charges a request
-- only passes where the requests alone left room for it.
theorem charges_only_add (config : RateLimitConfig) :
    (∀ s now auth weight trips, 0 < weight → (∀ layer, (trips layer : Trip).lost ≠ some false) →
      (∀ layer index,
        (SortedSet.scores? (bucket s now auth layer)).get? ((trips layer).requestId,index) = none) →
      ((∀ layer, Charged (bucket s now auth layer)
          (bucket (chargeExplicitWeight s now auth weight trips) now auth layer) (now - layer.span) (now + layer.lead)
          (trips layer).requestId weight) ↔
        ∀ layer, Idle s now auth weight layer)) ∧
    (∀ actions, Fair actions → ChargesIdle config actions → config.benchBypassEnabled = false →
      ∀ i now auth path trips, actions[i]? = some (.request now auth path trips) →
      (∀ layer, (trips layer).lost = none) →
      let before := Limiter.run config (actions.take i)
      (rateLimitMiddleware config before now auth path trips).2 = .next →
      ∀ layer : Layer,
        weightAbove (recorded before.log (layer.key auth)) (now - layer.span) + endpointWeight path ≤ layer.limit config ∧
        weightAbove (admissions before.log (layer.key auth)) (now - layer.span) + endpointWeight path ≤
          layer.limit config) := by
  refine ⟨?_,?_⟩
  · intro s now auth weight trips positive reached fresh
    have layerwise : ∀ layer, Charged (bucket s now auth layer)
        (bucket (chargeExplicitWeight s now auth weight trips) now auth layer) (now - layer.span) (now + layer.lead)
        (trips layer).requestId weight ↔ Idle s now auth weight layer := by
      intro layer
      have stored := @chargeLayers_stored s now auth _ weight _ all_distinct reached layer
      rw [if_pos layer.mem_all] at stored
      have lasting : 0 < seconds layer.ttlSeconds := by cases layer <;> decide
      have exact_ := @charged_iff _ (now + layer.lead) _ _ _ _ (now - layer.span) positive lasting (fresh layer)
      rw [← stored] at exact_
      have unit : chargeExplicitWeight s now auth weight trips = chargeLayers now auth weight trips Layer.all s :=
        if_neg (Nat.pos_iff_ne_zero.mp positive)
      rw [unit]
      exact exact_.trans ⟨fun both => ⟨both.1,both.2⟩,fun idle => ⟨idle.ahead,idle.room⟩⟩
    exact forall_congr' layerwise
  · intro actions fair idle active i now auth path trips found answers before admitted layer
    have part : actions.take i ++ [.request now auth path trips] = actions.take (i+1) := by
      simp [List.take_add_one,found]
    have fairHere : Fair (actions.take i ++ [.request now auth path trips]) := by
      have whole := fair.fresh
      rw [← List.take_append_drop (i+1) actions,List.flatMap_append] at whole
      rw [part]
      exact ⟨fair.times.sublist (List.take_sublist _ _),(List.nodup_append.mp whole).1⟩
    have idleHere : ChargesIdle config (actions.take i) := by
      intro j time caller weight trips' charged layer
      rw [List.getElem?_take] at charged
      split at charged
      · rename_i inside
        have whole := idle j time caller weight trips' charged layer
        rwa [List.take_take,Nat.min_eq_left inside.le]
      · cases charged
    have sound := run_sound fairHere.init idleHere now (fun action member =>
      (List.pairwise_append.mp fairHere.times).2.2 action member _ (List.mem_singleton_self _))
    have fresh : (tripIds trips Layer.all ++ (actions.take i).flatMap Action.ids).Nodup := by
      have all := fairHere.fresh
      rw [List.flatMap_append,List.flatMap_singleton] at all
      exact List.nodup_append_comm.mp all
    have room := (checkLayers_sound sound all_distinct fresh).2 (middleware_next active answers admitted) layer
      layer.mem_all
    exact ⟨room,(Nat.add_le_add_right (weightAbove_sublist (admissions_sublist _ _) _) _).trans room⟩

section Erased

def caller : AuthInfo := ⟨"key","0xa",by decide⟩

def small : RateLimitConfig := ⟨60,500,5,false⟩

def trips (first : Nat) : Layer → Trip
  | .delegateKey => ⟨first,none⟩
  | .burst => ⟨first+1,none⟩
  | .sustained => ⟨first+2,none⟩

-- A millisecond after a request used its key's budget up, one charged unit makes
-- the bucket forget it, and a request of weight two goes through.
theorem charge_clears_window :
    let spent := Limiter.run small [.request 0 caller "/api/remember" (trips 0)]
    let charged := Limiter.run small [.request 0 caller "/api/remember" (trips 0),.charge 10 caller 1 (trips 3)]
    ¬ Charged (bucket spent 10 caller .delegateKey) (bucket charged 10 caller .delegateKey)
        (10 - Layer.delegateKey.span) 10 3 1 ∧
      (rateLimitMiddleware small spent 20 caller "/api/ask" (trips 6)).2 = .tooMany .delegateKey ∧
      (rateLimitMiddleware small charged 20 caller "/api/ask" (trips 6)).2 = .next := by
  refine ⟨?_,by decide +kernel,by decide +kernel⟩
  intro charged
  have kept := charged.kept (0,0) 0 (by decide +kernel) (by decide)
  exact absurd kept (by decide +kernel)

end Erased

theorem idle_init {now : Time} {auth : AuthInfo} {weight : Nat} (layer : Layer) (fits : weight ≤ i64Max) :
    Idle .init now auth weight layer where
  ahead _ _ found := by cases found
  room := (Nat.zero_add weight).le.trans fits

-- The first charge of a new caller finds its buckets idle.
theorem first_charge_adds :
    (∀ layer, Charged (bucket .init 10 caller layer) (bucket (chargeExplicitWeight .init 10 caller 1 (trips 3)) 10 caller layer)
      (10 - layer.span) (10 + layer.lead) (trips 3 layer).requestId 1) ∧
    ∀ layer : Layer, weightAbove (recorded (Limiter.run small [.charge 10 caller 1 (trips 3)]).log (layer.key caller))
      (20 - layer.span) + 2 ≤ layer.limit small := by
  refine ⟨?_,?_⟩
  · refine ((charges_only_add small).1 .init 10 caller 1 (trips 3) (by decide) ?_ ?_).mpr ?_
    · intro layer
      cases layer <;> simp [trips]
    · intro layer index
      rfl
    · intro layer
      exact idle_init layer (by decide)
  · intro layer
    refine ((charges_only_add small).2 [.charge 10 caller 1 (trips 3),.request 20 caller "/api/ask" (trips 6)] ?_ ?_ rfl
      1 20 caller "/api/ask" (trips 6) rfl ?_ ?_ layer).1
    · exact ⟨by simp [Action.now],by decide⟩
    · intro i now auth weight trips' found layer
      match i with
      | 0 =>
        cases found
        exact idle_init layer (by decide)
      | 1 => cases found
      | _ + 2 => cases found
    · intro layer
      cases layer <;> rfl
    · decide +kernel

end MemWal.RateLimit
