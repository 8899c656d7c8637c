import MemWal.RateLimit.Usage

namespace MemWal.RateLimit
open Library Library.Windows

-- The score a member has as long as it is in the window that ends at `clock`.
def inside (stored : Option SortedSet) (span clock : Time) (member : RequestId × Nat) : Option Time :=
  ((SortedSet.scores? (SortedSet.live clock stored)).get? member).filter (fun score => clock - span < score)

-- No window that ends at `now` or later tells the two apart.
def Agree (span now : Time) (stored stored' : Option SortedSet) : Prop :=
  ∀ clock, now ≤ clock → inside stored span clock = inside stored' span clock

section Sets
open SortedSet
variable {stored stored' : Option SortedSet} {span now clock : Time}

theorem inside_eq {member : RequestId × Nat} {score : Time} : inside stored span clock member = some score ↔
    (scores? (live clock stored)).get? member = some score ∧ clock - span < score := by
  simp [inside,Option.filter_eq_some_iff]

theorem Agree.refl (span now : Time) (stored : Option SortedSet) : Agree span now stored stored := fun _ _ => rfl

theorem Agree.symm (agree : Agree span now stored stored') : Agree span now stored' stored :=
  fun clock later => (agree clock later).symm

theorem Agree.trans {last : Option SortedSet} (agree : Agree span now stored stored') (next : Agree span now stored' last) :
    Agree span now stored last :=
  fun clock later => (agree clock later).trans (next clock later)

theorem Agree.later (agree : Agree span now stored stored') (order : now ≤ clock) : Agree span clock stored stored' :=
  fun late later => agree late (order.trans later)

theorem countAbove_agree (agree : Agree span now stored stored') :
    countAbove (live now stored) (now - span) = countAbove (live now stored') (now - span) := by
  apply Store.count_agree
  intro member score above
  have same := congrFun (agree now le_rfl) member
  have within : now - span < score := of_decide_eq_true above
  constructor
  · intro found
    have here := inside_eq.mpr ⟨found,within⟩
    rw [same] at here
    exact (inside_eq.mp here).1
  · intro found
    have here := inside_eq.mpr ⟨found,within⟩
    rw [← same] at here
    exact (inside_eq.mp here).1

theorem live_live (order : now ≤ clock) (stored : Option SortedSet) : live clock (live now stored) = live clock stored := by
  rcases live_cases now stored with same | gone
  · rw [same]
  · obtain ⟨dropped,set,deadline,found,expiry,due⟩ := gone
    have past : deadline ≤ clock := due.trans order
    rw [dropped,found]
    simp [live,Option.filter,expiry,past]

theorem live_prune (clock upto : Time) (stored : Option SortedSet) :
    live clock (zremrangebyscore upto stored) = zremrangebyscore upto (live clock stored) := by
  cases stored with
  | none => rfl
  | some set =>
    by_cases due : set.expires.any (fun deadline => deadline ≤ clock)
    · by_cases empty : (set.scores.keep (fun _ score => upto < score)).entries.isEmpty
      · simp [live,Option.filter,due,zremrangebyscore,empty]
      · simp [live,Option.filter,due,zremrangebyscore,empty]
    · by_cases empty : (set.scores.keep (fun _ score => upto < score)).entries.isEmpty
      · simp [live,Option.filter,due,zremrangebyscore,empty]
      · simp [live,Option.filter,due,zremrangebyscore,empty]

-- A bucket is only pruned of what is in no window any more.
theorem prune_agree (span now : Time) (stored : Option SortedSet) :
    Agree span now (zremrangebyscore (now - span) (live now stored)) stored := by
  intro clock later
  funext member
  apply Option.ext
  intro score
  rw [inside_eq,inside_eq,live_prune,live_live later,scores?_zremrangebyscore,Store.get?_keep]
  constructor
  · intro both
    exact ⟨both.1.1,both.2⟩
  · intro both
    have early : now - span < score := lt_of_le_of_lt (Int.sub_le_sub_right later span) both.2
    exact ⟨⟨both.1,decide_eq_true early⟩,both.2⟩

-- What a recorded request leaves in the windows from then on.
theorem inside_recorded {score ttl : Time} {weight : Nat} {requestId : RequestId} (member : RequestId × Nat) :
    inside (expire (now + ttl) (record score requestId weight (zremrangebyscore (now - span) (live now stored)))) span clock
        member =
      if now + ttl ≤ clock then none
      else if member.1 = requestId ∧ member.2 < weight then (some score).filter (fun score => clock - span < score)
      else (inside stored span now member).filter (fun score => clock - span < score) := by
  by_cases due : now + ttl ≤ clock
  · rw [if_pos due]
    have dropped : live clock (expire (now + ttl)
        (record score requestId weight (zremrangebyscore (now - span) (live now stored)))) = none := by
      cases record score requestId weight (zremrangebyscore (now - span) (live now stored)) with
      | none => rfl
      | some set => simp [live,expire,Option.filter,due]
    rw [inside,dropped]
    rfl
  · rw [if_neg due,inside,live_expire (Int.not_le.mp due),scores?_expire,get?_record]
    split
    · rfl
    · apply Option.ext
      intro old
      simp only [Option.filter_eq_some_iff,scores?_zremrangebyscore,Store.get?_keep,inside_eq,decide_eq_true_eq]

section Scripts
variable {score ttl : Time} {limit weight : Nat} {requestId : RequestId}

theorem script_passes : (slidingWindowLua now (now - span) score limit weight ttl requestId stored).2 = 1 ↔
    countAbove (live now stored) (now - span) + weight ≤ limit := by
  rw [slidingWindowLua]
  simp only [zcard_zremrangebyscore]
  split
  · rename_i full
    simp [Nat.not_le.mpr full]
  · rename_i room
    simp [Nat.not_lt.mp room]

theorem script_refused (full : ¬ countAbove (live now stored) (now - span) + weight ≤ limit) :
    Agree span now (slidingWindowLua now (now - span) score limit weight ttl requestId stored).1 stored := by
  rw [slidingWindowLua]
  simp only [zcard_zremrangebyscore]
  rw [if_pos (Nat.not_le.mp full)]
  exact prune_agree span now stored

theorem script_recorded (room : countAbove (live now stored) (now - span) + weight ≤ limit) :
    (slidingWindowLua now (now - span) score limit weight ttl requestId stored).1 =
      expire (now + ttl) (record score requestId weight (zremrangebyscore (now - span) (live now stored))) := by
  rw [slidingWindowLua]
  simp only [zcard_zremrangebyscore]
  rw [if_neg (Nat.not_lt.mpr room)]

theorem script_agree (agree : Agree span now stored stored') :
    (slidingWindowLua now (now - span) score limit weight ttl requestId stored).2 =
        (slidingWindowLua now (now - span) score limit weight ttl requestId stored').2 ∧
      Agree span now (slidingWindowLua now (now - span) score limit weight ttl requestId stored).1
        (slidingWindowLua now (now - span) score limit weight ttl requestId stored').1 := by
  have counts := countAbove_agree agree
  constructor
  · rw [slidingWindowLua,slidingWindowLua]
    simp only [zcard_zremrangebyscore,counts]
    split
    · rfl
    · rfl
  · by_cases room : countAbove (live now stored) (now - span) + weight ≤ limit
    · rw [script_recorded room,script_recorded (counts ▸ room)]
      intro clock later
      funext member
      rw [inside_recorded,inside_recorded,agree now le_rfl]
    · exact ((script_refused room).trans agree).trans (script_refused (counts ▸ room)).symm

end Scripts
end Sets

theorem Layer.lead_inside (layer : Layer) (now : Time) : now - layer.span < now + layer.lead := by
  have lead : 0 ≤ layer.lead := by cases layer <;> decide
  have span : 0 < layer.span := by cases layer <;> decide
  exact lt_of_lt_of_le (Int.sub_lt_self now span) (Int.le_add_of_nonneg_right lead)

theorem Layer.ttl_ahead (layer : Layer) (now : Time) : ¬ now + seconds layer.ttlSeconds ≤ now := by
  have ttl : 0 < seconds layer.ttlSeconds := by cases layer <;> decide
  exact Int.not_le.mpr (Int.lt_add_of_pos_right now ttl)

structure Request where
  now : Time
  auth : AuthInfo
  path : String
  trips : Layer → Trip

namespace Request

def serve (config : RateLimitConfig) (s : Limiter) (request : Request) : Limiter × Response :=
  rateLimitMiddleware config s request.now request.auth request.path request.trips

def Answered (request : Request) : Prop := ∀ layer, (request.trips layer).lost = none

-- The UUIDs of its members are new.
def Fresh (s : Limiter) (request : Request) : Prop := ∀ layer index,
  (SortedSet.scores? (bucket s request.now request.auth layer)).get? ((request.trips layer).requestId,index) = none

def HasRoom (config : RateLimitConfig) (s : Limiter) (request : Request) (layer : Layer) : Prop :=
  SortedSet.countAbove (bucket s request.now request.auth layer) (request.now - layer.span) + endpointWeight request.path ≤
    layer.limit config

instance (config : RateLimitConfig) (s : Limiter) (request : Request) (layer : Layer) :
    Decidable (request.HasRoom config s layer) := inferInstanceAs (Decidable (_ ≤ _))

-- A request that its delegate key has room for is not stopped behind it.
structure RoomBehind (config : RateLimitConfig) (s : Limiter) (request : Request) : Prop where
  active : config.benchBypassEnabled = false
  behind : request.HasRoom config s .delegateKey → ∀ layer, request.HasRoom config s layer

def window (s : Limiter) (request : Request) (layer : Layer) : RequestId × Nat → Option Time :=
  inside (s.redis.get? (layer.key request.auth)) layer.span request.now

end Request

-- A window has all it had, and so many members that it had not.
structure Gained (before after : RequestId × Nat → Option Time) (weight : Nat) : Prop where
  kept : ∀ member score, before member = some score → after member = some score
  new : ∃ members : List (RequestId × Nat), members.Nodup ∧ members.length = weight ∧
    ∀ member, member ∈ members ↔ before member = none ∧ after member ≠ none

-- Only a request that goes on is charged, and to each of its buckets.
structure ChargedRight (config : RateLimitConfig) (s : Limiter) (request : Request) : Prop where
  rejected : ∀ layer, (request.serve config s).2 = .tooMany layer → ∀ other,
    request.window (request.serve config s).1 other = request.window s other
  admitted : (request.serve config s).2 = .next → ∀ layer,
    Gained (request.window s layer) (request.window (request.serve config s).1 layer) (endpointWeight request.path)

theorem endpointWeight_pos (path : String) : 0 < endpointWeight path := by
  unfold endpointWeight
  split <;> decide

section Layers
variable {config : RateLimitConfig} {s s' : Limiter} {now : Time} {auth : AuthInfo} {weight : Nat} {trips : Layer → Trip}
  {layers : List Layer}

theorem checkLayers_apart (answers : ∀ layer, (trips layer).lost = none) {key : Key}
    (apart : ∀ layer ∈ layers, key ≠ layer.key auth) :
    (checkLayers config now auth weight trips layers s).1.redis.get? key = s.redis.get? key := by
  induction layers generalizing s with
  | nil => rfl
  | cons layer rest ih =>
    have here : (s.trip now auth layer (now - layer.span) (layer.limit config) weight (trips layer) false).1.redis.get? key =
        s.redis.get? key := by
      rw [trip_stored (by rw [answers layer]; simp),check_stored,if_neg (apart layer List.mem_cons_self)]
    unfold checkLayers
    simp only
    split
    · rw [ih (fun other member => apart other (List.mem_cons_of_mem _ member)),here]
    · exact here
    · exact here

theorem trip_answered {windowStart : Time} {limit : Nat} {trip : Trip} {charge : Bool} {layer : Layer}
    (answered : trip.lost = none) : s.trip now auth layer windowStart limit weight trip charge =
      ((s.check now auth layer windowStart limit weight trip.requestId charge).1,
        some (s.check now auth layer windowStart limit weight trip.requestId charge).2) := by
  rw [Limiter.trip,answered]

theorem check_passes {layer : Layer} {limit : Nat} {requestId : RequestId} :
    (s.check now auth layer (now - layer.span) limit weight requestId false).2 = .allowed ↔
      SortedSet.countAbove (bucket s now auth layer) (now - layer.span) + weight ≤ limit :=
  (check_allowed s now auth layer (now - layer.span) limit weight requestId false).trans script_passes

-- A request passes when each of its buckets had room, and is then recorded in each.
theorem checkLayers_answers (answers : ∀ layer, (trips layer).lost = none) (distinct : layers.Nodup) :
    ((checkLayers config now auth weight trips layers s).2 = .admitted ↔ ∀ layer ∈ layers,
      SortedSet.countAbove (bucket s now auth layer) (now - layer.span) + weight ≤ layer.limit config) ∧
    ((checkLayers config now auth weight trips layers s).2 = .admitted → ∀ layer ∈ layers,
      (checkLayers config now auth weight trips layers s).1.redis.get? (layer.key auth) =
        (slidingWindowLua now (now - layer.span) (now + layer.lead) (layer.limit config) weight (seconds layer.ttlSeconds)
          (trips layer).requestId (s.redis.get? (layer.key auth))).1) := by
  induction layers generalizing s with
  | nil =>
    refine ⟨⟨fun _ _ member => ?_,fun _ => rfl⟩,fun _ _ member => ?_⟩
    all_goals cases member
  | cons layer rest ih =>
    obtain ⟨apart,others⟩ := List.nodup_cons.mp distinct
    have tripped := @trip_answered s now auth weight (now - layer.span) (layer.limit config) (trips layer) false layer
      (answers layer)
    have differs : ∀ other ∈ rest, other ≠ layer := by
      intro other member same
      subst same
      exact apart member
    cases answer : (s.check now auth layer (now - layer.span) (layer.limit config) weight (trips layer).requestId false).2 with
    | allowed =>
      rw [answer] at tripped
      rw [checkLayers_allowed tripped]
      have room := check_passes.mp answer
      obtain ⟨passes,stored⟩ := ih (s:=(s.check now auth layer (now - layer.span) (layer.limit config) weight
        (trips layer).requestId false).1) others
      constructor
      · rw [passes]
        constructor
        · intro rooms other member
          rcases List.mem_cons.mp member with rfl | later
          · exact room
          · have bound := rooms other later
            rwa [check_bucket (differs other later)] at bound
        · intro rooms other later
          rw [check_bucket (differs other later)]
          exact rooms other (List.mem_cons_of_mem _ later)
      · intro admitted other member
        rcases List.mem_cons.mp member with rfl | later
        · rw [checkLayers_apart answers (fun next later same => differs next later (Layer.key_layer same).symm),
            check_stored,if_pos rfl]
        · rw [stored admitted other later,check_stored,if_neg (fun same => differs other later (Layer.key_layer same))]
    | denied =>
      rw [answer] at tripped
      rw [checkLayers_denied tripped]
      have full : ¬ SortedSet.countAbove (bucket s now auth layer) (now - layer.span) + weight ≤ layer.limit config := by
        intro room
        rw [check_passes.mpr room] at answer
        cases answer
      constructor
      · constructor
        · intro admitted
          cases admitted
        · intro rooms
          exact absurd (rooms layer List.mem_cons_self) full
      · intro admitted
        cases admitted

-- What the middleware makes of the three answers.
theorem serve_cases (config : RateLimitConfig) (s : Limiter) (request : Request) (answers : request.Answered)
    (active : config.benchBypassEnabled = false) :
    let checked := checkLayers config request.now request.auth (endpointWeight request.path) request.trips Layer.all s
    (checked.2 = .admitted ∧ request.serve config s = (checked.1,.next) ∧ ∀ layer, request.HasRoom config s layer) ∨
    ((∃ layer, checked.2 = .denied layer ∧ request.serve config s = (checked.1,.tooMany layer)) ∧
      ¬ ∀ layer, request.HasRoom config s layer) := by
  have passes := (@checkLayers_answers config s request.now request.auth (endpointWeight request.path) request.trips _
    answers all_distinct).1
  have up := @checkLayers_answered config s request.now request.auth (endpointWeight request.path) _ answers Layer.all
  unfold Request.serve rateLimitMiddleware
  rw [active]
  simp only [Bool.false_eq_true,if_false]
  cases ran : checkLayers config request.now request.auth (endpointWeight request.path) request.trips Layer.all s with
  | mk after verdict =>
    rw [ran] at passes up
    cases verdict with
    | admitted => exact .inl ⟨rfl,rfl,fun layer => passes.mp rfl layer layer.mem_all⟩
    | denied layer =>
      right
      refine ⟨⟨layer,rfl,rfl⟩,?_⟩
      intro rooms
      have admitted := passes.mpr (fun other _ => rooms other)
      cases admitted
    | redisDown => exact absurd rfl up

end Layers

namespace Request
variable {config : RateLimitConfig} {s : Limiter} {request : Request}

-- What a bucket holds once a script has recorded the request in it.
theorem window_recorded {layer : Layer} {after : Limiter} (room : request.HasRoom config s layer)
    (stored : after.redis.get? (layer.key request.auth) =
      (slidingWindowLua request.now (request.now - layer.span) (request.now + layer.lead) (layer.limit config)
        (endpointWeight request.path) (seconds layer.ttlSeconds) (request.trips layer).requestId
        (s.redis.get? (layer.key request.auth))).1) (member : RequestId × Nat) :
    request.window after layer member =
      if member.1 = (request.trips layer).requestId ∧ member.2 < endpointWeight request.path then
        some (request.now + layer.lead)
      else request.window s layer member := by
  have entered : (some (request.now + layer.lead)).filter (fun score => request.now - layer.span < score) =
      some (request.now + layer.lead) := by
    rw [Option.filter_some,if_pos (decide_eq_true (layer.lead_inside request.now))]
  have again : (request.window s layer member).filter (fun score => request.now - layer.span < score) =
      request.window s layer member := by
    apply Option.ext
    intro score
    rw [Option.filter_eq_some_iff,window,inside_eq,decide_eq_true_eq]
    constructor
    · exact And.left
    · intro both
      exact ⟨both,both.2⟩
  rw [window,stored,script_recorded room,inside_recorded,if_neg (layer.ttl_ahead request.now),entered]
  split
  · rfl
  · exact again

theorem window_fresh (fresh : request.Fresh s) (layer : Layer) (index : Nat) :
    request.window s layer ((request.trips layer).requestId,index) = none := by
  have absent := fresh layer index
  rw [bucket] at absent
  rw [window,inside,absent]
  rfl

theorem fresh_of_keys (new : ∀ layer, (SortedSet.scores? (bucket s request.now request.auth layer)).keys.all
    (fun member => member.1 != (request.trips layer).requestId) = true) : request.Fresh s := by
  intro layer index
  apply Store.get?_eq_none.mpr
  intro member
  have differs := List.all_eq_true.mp (new layer) _ member
  simp at differs

theorem gained_recorded {before after : RequestId × Nat → Option Time} {requestId : RequestId} {score : Time} {weight : Nat}
    (fresh : ∀ index, before (requestId,index) = none)
    (recorded : ∀ member, after member = if member.1 = requestId ∧ member.2 < weight then some score else before member) :
    Gained before after weight := by
  constructor
  · intro member old found
    rw [recorded,if_neg]
    · exact found
    · intro own
      have absent := fresh member.2
      rw [← own.1,found] at absent
      cases absent
  · refine ⟨(List.range weight).map (fun index => (requestId,index)),?_,by simp,?_⟩
    · apply List.nodup_range.map
      intro i j same
      exact (Prod.mk.inj same).2
    · intro member
      constructor
      · intro listed
        obtain ⟨index,bound,rfl⟩ := List.mem_map.mp listed
        rw [recorded,if_pos ⟨rfl,List.mem_range.mp bound⟩]
        exact ⟨fresh index,by simp⟩
      · intro appeared
        rw [recorded] at appeared
        split at appeared
        · rename_i own
          exact List.mem_map.mpr ⟨member.2,List.mem_range.mpr own.2,by rw [← own.1]⟩
        · exact absurd appeared.1 appeared.2

-- The first of the three scripts, the delegate key's, decides alone what becomes of its bucket.
theorem stored_first (answers : request.Answered) (active : config.benchBypassEnabled = false)
    (room : request.HasRoom config s .delegateKey) :
    (request.serve config s).1.redis.get? (Layer.delegateKey.key request.auth) =
      (slidingWindowLua request.now (request.now - Layer.delegateKey.span) (request.now + Layer.delegateKey.lead)
        (Layer.delegateKey.limit config) (endpointWeight request.path) (seconds Layer.delegateKey.ttlSeconds)
        (request.trips .delegateKey).requestId (s.redis.get? (Layer.delegateKey.key request.auth))).1 := by
  have allowed := (@check_passes s request.now request.auth (endpointWeight request.path) .delegateKey
    (Layer.delegateKey.limit config) (request.trips .delegateKey).requestId).mpr room
  rw [serve,(middleware_same config s request.now request.auth request.path request.trips active).1,Layer.all,checkLayers,
    trip_answered (answers .delegateKey)]
  simp only [allowed]
  rw [checkLayers_apart answers]
  · rw [check_stored,if_pos rfl]
  · intro layer later same
    have here := Layer.key_layer same
    rw [← here] at later
    revert later
    decide

theorem refused_first (answers : request.Answered) (active : config.benchBypassEnabled = false)
    (full : ¬ request.HasRoom config s .delegateKey) (auth : AuthInfo) (layer : Layer) :
    Agree layer.span request.now ((request.serve config s).1.redis.get? (layer.key auth)) (s.redis.get? (layer.key auth)) := by
  have denied : (s.check request.now request.auth .delegateKey (request.now - Layer.delegateKey.span)
      (Layer.delegateKey.limit config) (endpointWeight request.path) (request.trips .delegateKey).requestId false).2 = .denied := by
    cases ran : (s.check request.now request.auth .delegateKey (request.now - Layer.delegateKey.span)
      (Layer.delegateKey.limit config) (endpointWeight request.path) (request.trips .delegateKey).requestId false).2 with
    | allowed => exact absurd (check_passes.mp ran) full
    | denied => rfl
  rw [serve,(middleware_same config s request.now request.auth request.path request.trips active).1,Layer.all,checkLayers,
    trip_answered (answers .delegateKey)]
  simp only [denied]
  rw [check_stored]
  split
  · rename_i same
    have layers := Layer.key_layer same
    subst layers
    rw [← same]
    exact script_refused (same ▸ full)
  · exact .refl _ _ _

theorem charged_right_iff (answers : request.Answered) (fresh : request.Fresh s) :
    ChargedRight config s request ↔ request.RoomBehind config s := by
  by_cases active : config.benchBypassEnabled = false
  · have layers := @checkLayers_answers config s request.now request.auth (endpointWeight request.path) request.trips _
      answers all_distinct
    rcases serve_cases config s request answers active with passed | stopped
    · obtain ⟨_,served,rooms⟩ := passed
      constructor
      · intro _
        exact ⟨active,fun _ => rooms⟩
      · intro _
        constructor
        · intro layer rejected
          rw [served] at rejected
          cases rejected
        · intro _ layer
          rw [served]
          apply gained_recorded (window_fresh fresh layer)
          intro member
          apply window_recorded (rooms layer)
          exact layers.2 (layers.1.mpr (fun other _ => rooms other)) layer layer.mem_all
    · obtain ⟨⟨layer,_,served⟩,full⟩ := stopped
      constructor
      · intro charged
        refine ⟨active,?_⟩
        -- The delegate key's bucket holds the rejected request.
        intro room
        have same := congrFun (charged.rejected layer (by rw [served]) .delegateKey)
          ((request.trips .delegateKey).requestId,0)
        rw [window_recorded room (stored_first answers active room),window_fresh fresh,
          if_pos ⟨rfl,endpointWeight_pos request.path⟩] at same
        cases same
      · intro room
        have shut : ¬ request.HasRoom config s .delegateKey := fun first => full (room.behind first)
        constructor
        · intro _ _ other
          exact refused_first answers active shut request.auth other request.now le_rfl
        · intro admitted
          rw [served] at admitted
          cases admitted
  · have served : request.serve config s = (s,.next) := by
      simp [serve,rateLimitMiddleware,active]
    constructor
    · intro charged
      obtain ⟨members,_,many,listed⟩ := (charged.admitted (by rw [served]) .delegateKey).new
      have positive := endpointWeight_pos request.path
      rw [← many] at positive
      obtain ⟨member,present⟩ := List.exists_mem_of_length_pos positive
      rw [served] at listed
      have appeared := (listed member).mp present
      exact absurd appeared.1 appeared.2
    · intro room
      exact absurd room.active active

end Request

def Limiter.Agree (s : Limiter) (now : Time) (s' : Limiter) : Prop := ∀ (layer : Layer) (auth : AuthInfo),
  RateLimit.Agree layer.span now (s.redis.get? (layer.key auth)) (s'.redis.get? (layer.key auth))

section Agreement
variable {config : RateLimitConfig} {s s' : Limiter} {now : Time} {auth : AuthInfo} {weight : Nat} {trips : Layer → Trip}
  {layers : List Layer}

theorem check_agree (agree : s.Agree now s') (layer : Layer) (limit : Nat) (requestId : RequestId) :
    (s.check now auth layer (now - layer.span) limit weight requestId false).2 =
        (s'.check now auth layer (now - layer.span) limit weight requestId false).2 ∧
      (s.check now auth layer (now - layer.span) limit weight requestId false).1.Agree now
        (s'.check now auth layer (now - layer.span) limit weight requestId false).1 := by
  have scripts := @script_agree _ _ layer.span now (now + layer.lead) (seconds layer.ttlSeconds) limit weight requestId
    (agree layer auth)
  constructor
  · simp only [Limiter.check,checkAndRecordWindow,scripts.1]
  · intro other caller
    rw [check_stored,check_stored]
    split
    · rename_i same
      have layers := Layer.key_layer same
      subst layers
      exact scripts.2
    · exact agree other caller

theorem checkLayers_agree (answers : ∀ layer, (trips layer).lost = none) (agree : s.Agree now s') :
    (checkLayers config now auth weight trips layers s).2 = (checkLayers config now auth weight trips layers s').2 ∧
      (checkLayers config now auth weight trips layers s).1.Agree now
        (checkLayers config now auth weight trips layers s').1 := by
  induction layers generalizing s s' with
  | nil => exact ⟨rfl,agree⟩
  | cons layer rest ih =>
    obtain ⟨same,after⟩ := @check_agree s s' now auth weight agree layer (layer.limit config) (trips layer).requestId
    rw [checkLayers,checkLayers,trip_answered (answers layer),trip_answered (answers layer)]
    simp only [same]
    cases (s'.check now auth layer (now - layer.span) (layer.limit config) weight (trips layer).requestId false).2 with
    | allowed => exact ih after
    | denied => exact ⟨rfl,after⟩

theorem serve_agree {request : Request} (answers : request.Answered) (agree : s.Agree request.now s') :
    (request.serve config s).2 = (request.serve config s').2 ∧
      (request.serve config s).1.Agree request.now (request.serve config s').1 := by
  by_cases active : config.benchBypassEnabled = false
  · obtain ⟨same,after⟩ := @checkLayers_agree config s s' request.now request.auth (endpointWeight request.path)
      request.trips Layer.all answers agree
    constructor
    · rcases serve_cases config s request answers active with passed | stopped
      · rcases serve_cases config s' request answers active with passed' | stopped'
        · rw [passed.2.1,passed'.2.1]
        · obtain ⟨⟨layer,denied,_⟩,_⟩ := stopped'
          rw [← same,passed.1] at denied
          cases denied
      · obtain ⟨⟨layer,denied,served⟩,_⟩ := stopped
        rcases serve_cases config s' request answers active with passed' | stopped'
        · rw [same,passed'.1] at denied
          cases denied
        · obtain ⟨⟨layer',denied',served'⟩,_⟩ := stopped'
          rw [same,denied'] at denied
          cases denied
          rw [served,served']
    · intro layer caller
      rw [Request.serve,Request.serve,(middleware_same config s _ _ _ request.trips active).1,
        (middleware_same config s' _ _ _ request.trips active).1]
      exact after layer caller
  · have served : ∀ s, request.serve config s = (s,.next) := by
      intro s
      simp [Request.serve,rateLimitMiddleware,active]
    rw [served,served]
    exact ⟨rfl,agree⟩

end Agreement

-- The requests of a run, each with its answer.
def responses (config : RateLimitConfig) : Limiter → List Request → List (Request × Response)
  | _,[] => []
  | s,request :: rest =>
    let served := request.serve config s
    (request,served.2) :: responses config served.1 rest

def EachRoomBehind (config : RateLimitConfig) : Limiter → List Request → Prop
  | _,[] => True
  | s,request :: rest => request.RoomBehind config s ∧ EachRoomBehind config (request.serve config s).1 rest

theorem responses_without (config : RateLimitConfig) (dropped : Request → Bool) {s s' : Limiter} {now : Time}
    {requests : List Request} (agree : s.Agree now s') (late : ∀ request ∈ requests, now ≤ request.now)
    (sorted : requests.Pairwise (fun a b => a.now ≤ b.now)) (answers : ∀ request ∈ requests, request.Answered)
    (room : EachRoomBehind config s requests)
    (rejected : ∀ e ∈ responses config s requests, dropped e.1 = true → e.2 ≠ .next) :
    responses config s' (requests.filter (fun request => !dropped request)) =
      (responses config s requests).filter (fun e => !dropped e.1) := by
  induction requests generalizing s s' now with
  | nil => rfl
  | cons request rest ih =>
    obtain ⟨first,others⟩ := List.pairwise_cons.mp sorted
    obtain ⟨here,rooms⟩ := room
    have answered := answers request List.mem_cons_self
    have from_ : s.Agree request.now s' := fun layer auth =>
      (agree layer auth).later (late request List.mem_cons_self)
    rw [responses] at rejected ⊢
    have rest_ := fun {s'} (agree : (request.serve config s).1.Agree request.now s') =>
      ih agree first others (fun next member => answers next (List.mem_cons_of_mem _ member)) rooms
        (fun e member => rejected e (List.mem_cons_of_mem _ member))
    by_cases drop : dropped request = true
    · have full : ¬ request.HasRoom config s .delegateKey := by
        intro room
        rcases serve_cases config s request answered here.active with passed | stopped
        · exact rejected _ List.mem_cons_self drop (by rw [passed.2.1])
        · exact stopped.2 (here.behind room)
      have same : (request.serve config s).1.Agree request.now s' := fun layer auth =>
        (Request.refused_first answered here.active full auth layer).trans (from_ layer auth)
      rw [List.filter_cons_of_neg (by simpa using drop),List.filter_cons_of_neg (by simpa using drop)]
      exact rest_ same
    · have kept : (!dropped request) = true := by simpa using drop
      obtain ⟨same,after⟩ := serve_agree answered from_
      simp only [List.filter_cons,kept,if_true,responses]
      rw [← same,rest_ after]

-- A request is charged as it should be exactly when it is not stopped behind its
-- delegate key's bucket. In a run of such requests those that were rejected can
-- be left out, and every other one is answered as before.
theorem rejections_uncharged (config : RateLimitConfig) (s : Limiter) :
    (∀ request : Request, request.Answered → request.Fresh s →
      (ChargedRight config s request ↔ request.RoomBehind config s)) ∧
    ∀ requests : List Request, requests.Pairwise (fun a b => a.now ≤ b.now) →
      (∀ request ∈ requests, request.Answered) → EachRoomBehind config s requests → ∀ dropped : Request → Bool,
      (∀ e ∈ responses config s requests, dropped e.1 = true → e.2 ≠ .next) →
      responses config s (requests.filter (fun request => !dropped request)) =
        (responses config s requests).filter (fun e => !dropped e.1) := by
  constructor
  · intro request answers fresh
    exact Request.charged_right_iff answers fresh
  · intro requests sorted answers room dropped rejected
    cases requests with
    | nil => rfl
    | cons first rest =>
      have late : ∀ request ∈ first :: rest, first.now ≤ request.now := by
        intro request member
        rcases List.mem_cons.mp member with rfl | later
        · exact le_rfl
        · exact (List.pairwise_cons.mp sorted).1 request later
      exact responses_without config dropped (fun layer auth => .refl _ _ _) late sorted answers room rejected

section Starved

-- Another delegate key of the same account.
def colleague : AuthInfo := ⟨"other","0xa",caller.address⟩

def tight : RateLimitConfig := ⟨5,500,5,false⟩

def used : Request := ⟨0,caller,"/api/remember",trips 0⟩

def early : Request := ⟨seconds 30,colleague,"/api/remember",trips 3⟩

def later : Request := ⟨seconds 60 + milliseconds 1,colleague,"/api/remember",trips 6⟩

-- The account's budget is used up by its first key. What its second key asks for
-- is rejected, and this is why it is rejected once more when the budget is back.
theorem rejected_request_starves :
    (early.Answered ∧ early.Fresh (used.serve tight .init).1 ∧ ¬ ChargedRight tight (used.serve tight .init).1 early) ∧
    (responses tight .init [used,early,later]).map Prod.snd = [.next,.tooMany .burst,.tooMany .delegateKey] ∧
    (responses tight .init [used,later]).map Prod.snd = [.next,.next] := by
  refine ⟨⟨?_,?_,?_⟩,by decide +kernel,by decide +kernel⟩
  · intro layer
    cases layer <;> rfl
  · apply Request.fresh_of_keys
    intro layer
    cases layer <;> decide +kernel
  · intro charged
    have same := congrFun (charged.rejected .burst (by decide +kernel) .delegateKey) (3,0)
    revert same
    decide +kernel

end Starved

-- A third request in the window is rejected by its key's bucket, and nobody notices.
theorem third_request_uncharged :
    ChargedRight small .init used ∧
    responses small .init [used] = (responses small .init [used,⟨seconds 30,caller,"/api/ask",trips 3⟩]).filter
      (fun e => !decide (e.1.path = "/api/ask")) := by
  have uncharged := rejections_uncharged small .init
  refine ⟨(uncharged.1 used ?_ ?_).mpr ?_,?_⟩
  · intro layer
    cases layer <;> rfl
  · intro layer index
    rfl
  · refine ⟨rfl,?_⟩
    intro _ layer
    cases layer <;> decide +kernel
  · apply uncharged.2 [used,⟨seconds 30,caller,"/api/ask",trips 3⟩] (by decide) _ _ (fun request => request.path = "/api/ask")
    · decide +kernel
    · intro request member layer
      rcases List.mem_cons.mp member with rfl | other
      · cases layer <;> rfl
      · rw [List.mem_singleton.mp other]
        cases layer <;> rfl
    · refine ⟨⟨rfl,?_⟩,⟨rfl,?_⟩,trivial⟩
      · intro _ layer
        cases layer <;> decide +kernel
      · intro room
        exact absurd room (by decide +kernel)

end MemWal.RateLimit
