import MemWal.Auth.Types
import MemWal.RateLimit.Usage

namespace MemWal.RateLimit
open Library Library.Windows

-- What the middleware lets through for the callers it is asked about.
def pass (config : RateLimitConfig) (counts : AuthInfo → Bool) (s : Limiter) : Action → List (Time × Nat)
  | .request now auth path trips =>
    if counts auth = true ∧ (rateLimitMiddleware config s now auth path trips).2 = .next then
      [(now,endpointWeight path)]
    else []
  | .charge _ _ _ _ => []

def passes (config : RateLimitConfig) (counts : AuthInfo → Bool) : Limiter → List Action → List (Time × Nat)
  | _,[] => []
  | s,action :: rest => pass config counts s action ++ passes config counts (s.act config action) rest

-- The callers whose header decodes to a key, and those who spell it one way.
def ofKey (publicKey : Bytes) (auth : AuthInfo) : Bool := Auth.hexDecode auth.publicKey = some publicKey

def spelled (header : String) (auth : AuthInfo) : Bool := auth.publicKey = header

def minute : Time := milliseconds 60000

def delegateBucket (header : String) : Key := "rate:dk:" ++ header

theorem key_delegate {layer : Layer} {auth : AuthInfo} {header : String}
    (same : layer.key auth = delegateBucket header) : layer = .delegateKey ∧ auth.publicKey = header := by
  let other : AuthInfo := ⟨header,"0",by decide⟩
  have layers : layer = .delegateKey := @Layer.key_layer _ _ _ other same
  subst layers
  refine ⟨rfl,?_⟩
  have letters := congrArg String.toList same
  simp only [Layer.key,delegateBucket,String.toList_append,List.append_cancel_left_eq] at letters
  exact String.toList_inj.mp letters

-- One bucket of one spelling.
structure Counted (header : String) (s : Limiter) (used : List RequestId) (now : Time) : Prop where
  tracks : Tracks (s.redis.get? (delegateBucket header)) (recorded s.log (delegateBucket header)) used minute (now - minute)
  past : ∀ e ∈ recorded s.log (delegateBucket header), e.1 ≤ now

-- Nothing happened to this bucket.
structure Untouched (header : String) (s after : Limiter) : Prop where
  redis : after.redis.get? (delegateBucket header) = s.redis.get? (delegateBucket header)
  log : recorded after.log (delegateBucket header) = recorded s.log (delegateBucket header)

section Bucket
variable {config : RateLimitConfig} {header : String} {s after : Limiter} {used : List RequestId} {now : Time}
  {auth : AuthInfo} {layer : Layer} {trip : Trip} {trips : Layer → Trip} {weight : Nat}

theorem Untouched.refl : Untouched header s s := ⟨rfl,rfl⟩

theorem Untouched.trans {later : Limiter} (first : Untouched header s after) (second : Untouched header after later) :
    Untouched header s later :=
  ⟨second.redis.trans first.redis,second.log.trans first.log⟩

theorem Counted.later (counted : Counted header s used now) {late : Time} (order : now ≤ late) :
    Counted header s used late :=
  ⟨counted.tracks.weaken (List.Subset.refl _) (Int.sub_le_sub_right order _),
    fun e member => (counted.past e member).trans order⟩

theorem Counted.use (counted : Counted header s used now) {more : List RequestId} (among : used ⊆ more) :
    Counted header s more now :=
  ⟨counted.tracks.weaken among le_rfl,counted.past⟩

theorem Counted.untouched (counted : Counted header s used now) (same : Untouched header s after) :
    Counted header after used now := by
  refine ⟨?_,?_⟩
  · rw [same.redis,same.log]
    exact counted.tracks
  · rw [same.log]
    exact counted.past

theorem trip_untouched (apart : layer.key auth ≠ delegateBucket header) (windowStart : Time) (limit weight : Nat)
    (charge : Bool) : Untouched header s (s.trip now auth layer windowStart limit weight trip charge).1 := by
  rcases trip_cases s now auth layer windowStart limit weight trip charge with same | ran
  · rw [same]
    exact .refl
  · rw [ran]
    refine ⟨?_,check_recorded (Ne.symm apart)⟩
    rw [check_stored,if_neg (Ne.symm apart)]

theorem checkLayers_untouched {layers : List Layer}
    (apart : ∀ layer ∈ layers, layer.key auth ≠ delegateBucket header) :
    Untouched header s (checkLayers config now auth weight trips layers s).1 := by
  induction layers generalizing s with
  | nil => exact .refl
  | cons layer rest ih =>
    have first := @trip_untouched _ s now _ _ (trips layer) (apart layer List.mem_cons_self)
      (now - layer.span) (layer.limit config) weight false
    unfold checkLayers
    simp only
    split
    · exact first.trans (ih (fun other member => apart other (List.mem_cons_of_mem _ member)))
    · exact first
    · exact first

theorem chargeLayers_untouched {layers : List Layer}
    (apart : ∀ layer ∈ layers, layer.key auth ≠ delegateBucket header) :
    Untouched header s (chargeLayers now auth weight trips layers s) := by
  induction layers generalizing s with
  | nil => exact .refl
  | cons layer rest ih =>
    have first := @trip_untouched _ s now _ _ (trips layer) (apart layer List.mem_cons_self) now i64Max weight
      true
    exact first.trans (ih (fun other member => apart other (List.mem_cons_of_mem _ member)))

theorem check_own {windowStart : Time} {limit : Nat} {requestId : RequestId} {charge : Bool} :
    recorded (s.check now auth .delegateKey windowStart limit weight requestId charge).1.log
      (delegateBucket auth.publicKey) =
    if (s.check now auth .delegateKey windowStart limit weight requestId charge).2 = .allowed then
      recorded s.log (delegateBucket auth.publicKey) ++ [(now,weight)]
    else recorded s.log (delegateBucket auth.publicKey) := by
  unfold Limiter.check
  simp only
  split
  · rw [recorded_append]
    simp [Layer.key,delegateBucket,Layer.lead]
  · rfl

-- The script on the bucket itself, whatever becomes of its answer.
theorem trip_counted (counted : Counted header s used now) (own : auth.publicKey = header) {windowStart : Time}
    {limit : Nat} (charge : Bool)
    (here :
      let ran := slidingWindowLua now windowStart now limit weight (seconds 120) trip.requestId
        (s.redis.get? (delegateBucket header))
      Tracks ran.1 (if ran.2 = 1 then recorded s.log (delegateBucket header) ++ [(now,weight)]
        else recorded s.log (delegateBucket header)) (trip.requestId :: used) minute (now - minute)) :
    Counted header (s.trip now auth .delegateKey windowStart limit weight trip charge).1 (trip.requestId :: used) now := by
  subst own
  rcases trip_cases s now auth .delegateKey windowStart limit weight trip charge with same | ran
  · rw [same]
    exact counted.use (List.subset_cons_self _ _)
  · rw [ran]
    have at_ : now + Layer.delegateKey.lead = now := by simp [Layer.lead]
    have stored := check_stored s now auth .delegateKey windowStart limit weight trip.requestId charge
      (delegateBucket auth.publicKey)
    rw [if_pos (show delegateBucket auth.publicKey = Layer.delegateKey.key auth from rfl),at_] at stored
    have allowed := check_allowed s now auth .delegateKey windowStart limit weight trip.requestId charge
    rw [at_] at allowed
    refine ⟨?_,?_⟩
    · rw [stored,check_own]
      simp only [allowed]
      exact here
    · rw [check_own]
      intro e member
      split at member
      · rcases List.mem_append.mp member with old | new
        · exact counted.past e old
        · rw [List.mem_singleton.mp new]
      · exact counted.past e member

-- A request is counted, in its own bucket or not at all.
theorem request_counted {path : String} (counted : Counted header s used now)
    (fresh : ∀ layer, (trips layer).requestId ∉ used) (active : config.benchBypassEnabled = false)
    (answers : auth.publicKey = header → (trips .delegateKey).lost = none) :
    Counted header (rateLimitMiddleware config s now auth path trips).1 ((trips .delegateKey).requestId :: used) now ∧
    (recorded s.log (delegateBucket header)).Sublist
      (recorded (rateLimitMiddleware config s now auth path trips).1.log (delegateBucket header)) ∧
    (auth.publicKey = header → (rateLimitMiddleware config s now auth path trips).2 = .next →
      recorded (rateLimitMiddleware config s now auth path trips).1.log (delegateBucket header) =
        recorded s.log (delegateBucket header) ++ [(now,endpointWeight path)] ∧
      weightAbove (recorded s.log (delegateBucket header)) (now - minute) + endpointWeight path ≤
        config.maxRequestsPerDelegateKey) := by
  obtain ⟨redis,log⟩ := middleware_same config s now auth path trips active
  have others : ∀ layer ∈ [Layer.burst,.sustained], layer.key auth ≠ delegateBucket header := by
    intro layer member same
    rw [(key_delegate same).1] at member
    simp at member
  by_cases own : auth.publicKey = header
  · subst own
    have new := fresh .delegateKey
    have script := counted.tracks.check le_rfl new config.maxRequestsPerDelegateKey (endpointWeight path)
      counted.past (show now + minute ≤ now + seconds 120 from Int.add_le_add_left (by decide) now)
    have kept := @trip_counted _ _ _ _ _ (trips .delegateKey) _ counted rfl _ _ false script.2
    let ran := s.check now auth .delegateKey (now - minute) config.maxRequestsPerDelegateKey (endpointWeight path)
      (trips .delegateKey).requestId false
    have tripped : s.trip now auth .delegateKey (now - minute) config.maxRequestsPerDelegateKey (endpointWeight path)
        (trips .delegateKey) false = (ran.1,some ran.2) := by
      simp only [Limiter.trip,answers rfl]
      rfl
    rw [tripped] at kept
    have rest := @checkLayers_untouched config _ ran.1 now _ trips (endpointWeight path) _ others
    have after : Untouched auth.publicKey ran.1 (rateLimitMiddleware config s now auth path trips).1 ∧
        ((rateLimitMiddleware config s now auth path trips).2 = .next → ran.2 = .allowed) := by
      cases answer : ran.2 with
      | allowed =>
        rw [answer] at tripped
        have layers : checkLayers config now auth (endpointWeight path) trips Layer.all s =
            checkLayers config now auth (endpointWeight path) trips [.burst,.sustained] ran.1 := checkLayers_allowed tripped
        refine ⟨⟨?_,?_⟩,fun _ => rfl⟩
        · rw [redis,layers]
          exact rest.redis
        · rw [log,layers]
          exact rest.log
      | denied =>
        rw [answer] at tripped
        have layers : checkLayers config now auth (endpointWeight path) trips Layer.all s = (ran.1,.denied .delegateKey) :=
          checkLayers_denied tripped
        refine ⟨⟨by rw [redis,layers],by rw [log,layers]⟩,fun next => ?_⟩
        rw [rateLimitMiddleware,active] at next
        simp only [Bool.false_eq_true,if_false,layers] at next
        cases next
    have grown : recorded ran.1.log (delegateBucket auth.publicKey) =
        if ran.2 = .allowed then recorded s.log (delegateBucket auth.publicKey) ++ [(now,endpointWeight path)]
        else recorded s.log (delegateBucket auth.publicKey) :=
      check_own
    refine ⟨kept.untouched after.1,?_,?_⟩
    · rw [after.1.log,grown]
      split
      · exact List.sublist_append_left _ _
      · exact List.Sublist.refl _
    · intro _ next
      have allowed := after.2 next
      rw [after.1.log,grown,if_pos allowed]
      have at_ : now + Layer.delegateKey.lead = now := by simp [Layer.lead]
      have one := (check_allowed s now auth .delegateKey _ _ _ _ false).mp allowed
      rw [at_] at one
      exact ⟨rfl,script.1.mp one⟩
  · have apart : ∀ layer ∈ Layer.all, layer.key auth ≠ delegateBucket header :=
      fun layer _ same => own (key_delegate same).2
    have quiet := @checkLayers_untouched config _ s now _ trips (endpointWeight path) _ apart
    have whole : Untouched header s (rateLimitMiddleware config s now auth path trips).1 :=
      ⟨by rw [redis]; exact quiet.redis,by rw [log]; exact quiet.log⟩
    refine ⟨(counted.untouched whole).use (List.subset_cons_self _ _),?_,fun same => absurd same own⟩
    rw [whole.log]

-- A charge that finds the bucket idle keeps it counted.
theorem charge_counted (counted : Counted header s used now) (fresh : ∀ layer, (trips layer).requestId ∉ used)
    (idle : auth.publicKey = header → Idle s now auth weight .delegateKey) :
    Counted header (chargeExplicitWeight s now auth weight trips) ((trips .delegateKey).requestId :: used) now ∧
    (recorded s.log (delegateBucket header)).Sublist
      (recorded (chargeExplicitWeight s now auth weight trips).log (delegateBucket header)) := by
  by_cases none_ : weight = 0
  · have same : chargeExplicitWeight s now auth weight trips = s := if_pos none_
    rw [same]
    exact ⟨counted.use (List.subset_cons_self _ _),List.Sublist.refl _⟩
  · have all : chargeExplicitWeight s now auth weight trips = chargeLayers now auth weight trips Layer.all s :=
      if_neg none_
    rw [all]
    by_cases own : auth.publicKey = header
    · subst own
      have room := idle rfl
      have script := counted.tracks.script le_rfl (fresh .delegateKey) i64Max weight counted.past
        (show now + minute ≤ now + seconds 120 from Int.add_le_add_left (by decide) now) room.ahead
      have kept := @trip_counted _ _ _ _ _ (trips .delegateKey) _ counted rfl _ _ true script.2
      have others : ∀ layer ∈ [Layer.burst,.sustained], layer.key auth ≠ delegateBucket auth.publicKey := by
        intro layer member same
        rw [(key_delegate same).1] at member
        simp at member
      have rest := @chargeLayers_untouched _
        ((s.trip now auth .delegateKey now i64Max weight (trips .delegateKey) true).1) now _ trips weight _ others
      change Untouched auth.publicKey _ (chargeLayers now auth weight trips Layer.all s) at rest
      refine ⟨kept.untouched rest,?_⟩
      rw [rest.log]
      rcases trip_cases s now auth .delegateKey now i64Max weight (trips .delegateKey) true with same | ran
      · rw [same]
      · rw [ran,check_own]
        split
        · exact List.sublist_append_left _ _
        · exact List.Sublist.refl _
    · have quiet := @chargeLayers_untouched _ s now _ trips weight Layer.all
        (fun layer _ same => own (key_delegate same).2)
      refine ⟨(counted.untouched quiet).use (List.subset_cons_self _ _),?_⟩
      rw [quiet.log]

end Bucket

-- What passed under one spelling was recorded in its bucket, with room for it at
-- the time.
structure Metered (config : RateLimitConfig) (header : String) (s : Limiter) (used : List RequestId) (now : Time)
    (passed : List (Time × Nat)) : Prop where
  counted : Counted header s used now
  among : passed.Sublist (recorded s.log (delegateBucket header))
  sorted : passed.Pairwise (fun a b => a.1 ≤ b.1)
  bounded : ∀ (i : Nat) e, passed[i]? = some e →
    weightAbove (passed.take (i+1)) (e.1 - minute) ≤ config.maxRequestsPerDelegateKey

section Runs
variable {config : RateLimitConfig} {header : String} {s : Limiter} {used : List RequestId} {now : Time}
  {passed : List (Time × Nat)}

theorem passes_append (counts : AuthInfo → Bool) (s : Limiter) (earlier : List Action) (last : Action) :
    passes config counts s (earlier ++ [last]) =
      passes config counts s earlier ++ pass config counts (earlier.foldl (Limiter.act config) s) last := by
  induction earlier generalizing s with
  | nil => simp [passes]
  | cons action rest ih =>
    simp only [List.cons_append,passes,List.foldl_cons,List.append_assoc]
    rw [ih]

theorem Metered.add (metered : Metered config header s used now passed) {after : Limiter} {more : List RequestId}
    {weight : Nat} (counted : Counted header after more now)
    (grown : recorded after.log (delegateBucket header) = recorded s.log (delegateBucket header) ++ [(now,weight)])
    (room : weightAbove (recorded s.log (delegateBucket header)) (now - minute) + weight ≤
      config.maxRequestsPerDelegateKey) :
    Metered config header after more now (passed ++ [(now,weight)]) where
  counted := counted
  among := by
    rw [grown]
    exact metered.among.append (List.Sublist.refl _)
  sorted := by
    rw [List.pairwise_append]
    refine ⟨metered.sorted,List.pairwise_singleton _ _,?_⟩
    intro e member last same
    rw [List.mem_singleton.mp same]
    exact metered.counted.past e (metered.among.subset member)
  bounded := by
    intro i e found
    rcases Nat.lt_or_ge i passed.length with inside | beyond
    · rw [List.getElem?_append_left inside] at found
      rw [List.take_append_of_le_length inside]
      exact metered.bounded i e found
    · rw [List.getElem?_append_right beyond,List.getElem?_singleton] at found
      split at found
      · cases found
        rw [List.take_of_length_le (by simp; omega),weightAbove_append]
        have few := weightAbove_sublist metered.among (now - minute)
        have one : weightAbove [(now,weight)] (now - minute) ≤ weight := by
          rw [weightAbove_singleton]
          split
          · exact Nat.le_refl _
          · exact Nat.zero_le _
        exact (Nat.add_le_add few one).trans room
      · cases found

theorem Metered.keep (metered : Metered config header s used now passed) {after : Limiter} {more : List RequestId}
    (counted : Counted header after more now)
    (grown : (recorded s.log (delegateBucket header)).Sublist (recorded after.log (delegateBucket header))) :
    Metered config header after more now passed :=
  ⟨counted,metered.among.trans grown,metered.sorted,metered.bounded⟩

-- What is asked of the actions of one spelling.
structure Orderly (config : RateLimitConfig) (counts : AuthInfo → Bool) (actions : List Action) : Prop where
  active : config.benchBypassEnabled = false
  answers : ∀ now auth path trips, .request now auth path trips ∈ actions → counts auth = true →
    (trips .delegateKey : Trip).lost = none
  idle : ∀ i now auth weight trips, actions[i]? = some (.charge now auth weight trips) → counts auth = true →
    Idle (Limiter.run config (actions.take i)) now auth weight .delegateKey

theorem Orderly.init {counts : AuthInfo → Bool} {actions : List Action} {action : Action}
    (orderly : Orderly config counts (actions ++ [action])) : Orderly config counts actions where
  active := orderly.active
  answers now auth path trips member := orderly.answers now auth path trips (List.mem_append_left _ member)
  idle := by
    intro i time auth weight trips found own
    have inside : i < actions.length := (List.getElem?_eq_some_iff.mp found).1
    have whole := orderly.idle i time auth weight trips (by rw [List.getElem?_append_left inside]; exact found) own
    rwa [List.take_append_of_le_length inside.le] at whole

theorem metered_run {actions : List Action} (fair : Fair actions) (orderly : Orderly config (spelled header) actions)
    (now : Time) (late : ∀ action ∈ actions, action.now ≤ now) :
    Metered config header (Limiter.run config actions) (actions.flatMap Action.ids) now
      (passes config (spelled header) .init actions) := by
  induction actions using List.reverseRecOn generalizing now with
  | nil => exact ⟨⟨tracks_empty _ _ _,fun _ member => nomatch member⟩,.slnil,.nil,fun _ _ found => nomatch found⟩
  | append_singleton earlier last ih =>
    have before := ih fair.init orderly.init last.now (fun action member =>
      (List.pairwise_append.mp fair.times).2.2 action member last (List.mem_singleton_self _))
    have ids : ∀ id, id ∈ last.ids → id ∉ earlier.flatMap Action.ids := by
      intro id new old
      have all := fair.fresh
      rw [List.flatMap_append,List.flatMap_singleton] at all
      exact (List.nodup_append.mp all).2.2 id old id new rfl
    have grown : ∀ id, id ∈ last.ids → id :: earlier.flatMap Action.ids ⊆ (earlier ++ [last]).flatMap Action.ids := by
      intro id new other member
      simp only [List.flatMap_append,List.flatMap_singleton,List.mem_append]
      rcases List.mem_cons.mp member with rfl | old
      · exact .inr new
      · exact .inl old
    have latest := late last (by simp)
    suffices here : Metered config header (Limiter.run config (earlier ++ [last])) ((earlier ++ [last]).flatMap Action.ids)
        last.now (passes config (spelled header) .init (earlier ++ [last])) from
      ⟨here.counted.later latest,here.among,here.sorted,here.bounded⟩
    rw [run_append,passes_append]
    change Metered config header _ _ _ (_ ++ pass config (spelled header) (Limiter.run config earlier) last)
    cases last with
    | request time auth path trips =>
      have first : (trips .delegateKey).requestId ∈ Action.ids (.request time auth path trips) := by
        simp [Action.ids,tripIds,Layer.all]
      have unused : ∀ layer, (trips layer).requestId ∉ earlier.flatMap Action.ids := fun layer =>
        ids _ (List.mem_map.mpr ⟨layer,layer.mem_all,rfl⟩)
      have answers : auth.publicKey = header → (trips .delegateKey).lost = none := fun own =>
        orderly.answers time auth path trips (by simp) (decide_eq_true own)
      obtain ⟨counted,sub,next⟩ := @request_counted _ _ _ _ _ _ _ path before.counted unused orderly.active answers
      have more := counted.use (grown _ first)
      rw [Limiter.act,pass]
      split
      · rename_i passed
        have own := of_decide_eq_true passed.1
        obtain ⟨equal,room⟩ := next own passed.2
        exact before.add more equal room
      · rw [List.append_nil]
        exact before.keep more sub
    | charge time auth weight trips =>
      have first : (trips .delegateKey).requestId ∈ Action.ids (.charge time auth weight trips) := by
        simp [Action.ids,tripIds,Layer.all]
      have unused : ∀ layer, (trips layer).requestId ∉ earlier.flatMap Action.ids := fun layer =>
        ids _ (List.mem_map.mpr ⟨layer,layer.mem_all,rfl⟩)
      have idle : auth.publicKey = header → Idle (Limiter.run config earlier) time auth weight .delegateKey := by
        intro own
        have whole := orderly.idle earlier.length time auth weight trips (by simp) (decide_eq_true own)
        rwa [List.take_left'] at whole
        rfl
      obtain ⟨counted,sub⟩ := charge_counted before.counted unused idle
      rw [pass,List.append_nil]
      exact before.keep (counted.use (grown _ first)) sub

theorem passes_window {counts others : AuthInfo → Bool} (after upto : Time) {actions : List Action}
    (same : ∀ now auth path trips, .request now auth path trips ∈ actions → after < now → now ≤ upto →
      counts auth = true → others auth = true) (s : Limiter) :
    weightIn (passes config counts s actions) after upto ≤ weightIn (passes config others s actions) after upto := by
  induction actions generalizing s with
  | nil => exact Nat.le_refl _
  | cons action rest ih =>
    rw [passes,passes,weightIn_append,weightIn_append]
    have tail := ih (fun now auth path trips member => same now auth path trips (List.mem_cons_of_mem _ member))
      (s.act config action)
    refine Nat.add_le_add ?_ tail
    cases action with
    | charge now auth weight trips => exact Nat.le_refl _
    | request now auth path trips =>
      simp only [pass]
      by_cases here : counts auth = true ∧ (rateLimitMiddleware config s now auth path trips).2 = .next
      · rw [if_pos here]
        by_cases inside : after < now ∧ now ≤ upto
        · rw [if_pos ⟨same now auth path trips List.mem_cons_self inside.1 inside.2 here.1,here.2⟩]
        · have out : weightIn [(now,endpointWeight path)] after upto = 0 := by
            rcases not_and_or.mp inside with early | late
            · simp [weightIn,weightAbove,early]
            · simp [weightIn,weightAbove,late]
          rw [out]
          exact Nat.zero_le _
      · rw [if_neg here]
        exact Nat.zero_le _

theorem passes_nobody (s : Limiter) (actions : List Action) : passes config (fun _ => false) s actions = [] := by
  induction actions generalizing s with
  | nil => rfl
  | cons action rest ih =>
    rw [passes,ih,List.append_nil]
    cases action with
    | request now auth path trips => simp [pass]
    | charge now auth weight trips => rfl

theorem spelled_bucket {actions : List Action} (fair : Fair actions) (orderly : Orderly config (spelled header) actions)
    (t : Time) : weightIn (passes config (spelled header) .init actions) (t - minute) t ≤
      config.maxRequestsPerDelegateKey := by
  obtain ⟨last,late⟩ : ∃ last, ∀ action ∈ actions, action.now ≤ last := by
    rcases List.eq_nil_or_concat' actions with rfl | ⟨earlier,final,rfl⟩
    · exact ⟨0,fun _ member => nomatch member⟩
    · refine ⟨final.now,fun action member => ?_⟩
      rcases List.mem_append.mp member with before | same
      · exact (List.pairwise_append.mp fair.times).2.2 action before final (List.mem_singleton_self _)
      · rw [List.mem_singleton.mp same]
  have metered := metered_run fair orderly last late
  exact sliding_bound metered.sorted metered.bounded t

end Runs

-- Wherever the requests of a key are spelled alike for a minute, what passes for
-- that key in this minute is within its limit, whoever else comes in between.
theorem one_bucket (config : RateLimitConfig) (publicKey : Bytes) (actions : List Action) (fair : Fair actions)
    (orderly : Orderly config (ofKey publicKey) actions) (t : Time)
    (alike : ∃ header, ∀ now auth path trips, .request now auth path trips ∈ actions → t - minute < now → now ≤ t →
      ofKey publicKey auth = true → auth.publicKey = header) :
    weightIn (passes config (ofKey publicKey) .init actions) (t - minute) t ≤ config.maxRequestsPerDelegateKey := by
  obtain ⟨header,alike⟩ := alike
  by_cases known : Auth.hexDecode header = some publicKey
  · have own : ∀ auth, spelled header auth = true → ofKey publicKey auth = true := by
      intro auth same
      simp only [ofKey,of_decide_eq_true same,known,decide_true]
    have orderlyHere : Orderly config (spelled header) actions :=
      ⟨orderly.active,fun now auth path trips member same => orderly.answers now auth path trips member (own auth same),
        fun i now auth weight trips found same => orderly.idle i now auth weight trips found (own auth same)⟩
    have window := @passes_window config _ (spelled header) (t - minute) t _
      (fun now auth path trips member after upto counts =>
        decide_eq_true (alike now auth path trips member after upto counts)) .init
    exact window.trans (spelled_bucket fair orderlyHere t)
  · -- Nobody spells the key this way, so no request of it falls in the window.
    have window := @passes_window config (ofKey publicKey) (fun _ => false) (t - minute) t _
      (fun now auth path trips member after upto counts => by
        have same := alike now auth path trips member after upto counts
        exact absurd (same ▸ of_decide_eq_true counts) known) .init
    rw [passes_nobody] at window
    exact window.trans (Nat.zero_le _)

-- Two spellings of one key have two buckets: twice the weight goes through.
section TwoSpellings

def lowerCase : AuthInfo := ⟨"abababababababababababababababababababababababababababababababab","0xa",caller.address⟩

def upperCase : AuthInfo := ⟨"ABABABABABABABABABABABABABABABABABABABABABABABABABABABABABABABAB","0xa",caller.address⟩

def bothSpellings : List Action :=
  [.request 0 lowerCase "/api/remember" (trips 0),.request 10 upperCase "/api/remember" (trips 3)]

theorem spellings_double : ∃ publicKey, ofKey publicKey lowerCase = true ∧ ofKey publicKey upperCase = true ∧
    small.maxRequestsPerDelegateKey < weightIn (passes small (ofKey publicKey) .init bothSpellings) (10 - minute) 10 := by
  refine ⟨List.replicate 32 171,?_⟩
  decide +kernel

theorem one_bucket_alike : weightIn (passes small (ofKey (List.replicate 32 171)) .init
    [.request 0 lowerCase "/api/remember" (trips 0),.request 10 lowerCase "/api/remember" (trips 3)]) (10 - minute) 10 ≤
      5 := by
  have callers : ∀ now auth path trips_, Action.request now auth path trips_ ∈
      [Action.request 0 lowerCase "/api/remember" (trips 0),.request 10 lowerCase "/api/remember" (trips 3)] →
      auth = lowerCase ∧ (trips_ .delegateKey).lost = none := by
    intro now auth path trips_ member
    simp only [List.mem_cons,List.not_mem_nil,or_false,Action.request.injEq] at member
    rcases member with ⟨_,rfl,_,rfl⟩ | ⟨_,rfl,_,rfl⟩
    · exact ⟨rfl,rfl⟩
    · exact ⟨rfl,rfl⟩
  refine one_bucket small _ _ ⟨by simp [Action.now],by decide⟩ ⟨rfl,?_,?_⟩ 10 ⟨lowerCase.publicKey,?_⟩
  · intro now auth path trips_ member _
    exact (callers now auth path trips_ member).2
  · intro i now auth weight trips_ found _
    rcases List.mem_pair.mp (List.mem_of_getElem? found) with same | same
    all_goals cases same
  · intro now auth path trips_ member _ _ _
    rw [(callers now auth path trips_ member).1]

end TwoSpellings
end MemWal.RateLimit
