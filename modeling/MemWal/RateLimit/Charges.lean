import MemWal.RateLimit.Middleware

namespace MemWal.RateLimit
open Library Library.Windows

-- What was recorded on a key, and the part of it that requests recorded.
def recorded (log : List Entry) (key : Key) : List (Time × Nat) :=
  (log.filter (fun e => e.key = key)).map (fun e => (e.time,e.weight))

def admissions (log : List Entry) (key : Key) : List (Time × Nat) :=
  (log.filter (fun e => e.key = key ∧ e.charge = false)).map (fun e => (e.time,e.weight))

theorem admissions_sublist (log : List Entry) (key : Key) : (admissions log key).Sublist (recorded log key) := by
  refine List.Sublist.map _ (List.monotone_filter_right _ ?_)
  intro e both
  simp only [decide_eq_true_eq] at both ⊢
  exact both.1

theorem recorded_append (log : List Entry) (e : Entry) (key : Key) :
    recorded (log ++ [e]) key = recorded log key ++ if e.key = key then [(e.time,e.weight)] else [] := by
  by_cases here : e.key = key <;> simp [recorded,here]

-- The bucket of a layer as a caller's request finds it.
def bucket (s : Limiter) (now : Time) (auth : AuthInfo) (layer : Layer) : Option SortedSet :=
  SortedSet.live now (s.redis.get? (layer.key auth))

-- Nothing the bucket still counts was written by now, and the charge fits.
structure Idle (s : Limiter) (now : Time) (auth : AuthInfo) (weight : Nat) (layer : Layer) : Prop where
  ahead : ∀ member score, (SortedSet.scores? (bucket s now auth layer)).get? member = some score →
    now - layer.span < score → now < score
  room : SortedSet.countAbove (bucket s now auth layer) now + weight ≤ i64Max

structure Sound (s : Limiter) (used : List RequestId) (now : Time) : Prop where
  tracks : ∀ (layer : Layer) (auth : AuthInfo), Tracks (s.redis.get? (layer.key auth)) (recorded s.log (layer.key auth)) used layer.span
    (now - layer.span)
  past : ∀ (layer : Layer) (auth : AuthInfo), ∀ e ∈ recorded s.log (layer.key auth), e.1 ≤ now + layer.lead

theorem sound_init (now : Time) : Sound Limiter.init [] now :=
  ⟨fun _ _ => tracks_empty _ _ _,fun _ _ _ member => by cases member⟩

section Steps
variable {s : Limiter} {used : List RequestId} {now : Time} {auth : AuthInfo} {layer : Layer}

theorem Sound.later {late : Time} (sound : Sound s used now) (order : now ≤ late) : Sound s used late where
  tracks layer auth := (sound.tracks layer auth).weaken (List.Subset.refl _) (Int.sub_le_sub_right order _)
  past layer auth e member := (sound.past layer auth e member).trans (Int.add_le_add_right order _)

theorem Sound.use {more : List RequestId} (sound : Sound s used now) (among : used ⊆ more) : Sound s more now where
  tracks layer auth := (sound.tracks layer auth).weaken among le_rfl
  past := sound.past

theorem check_stored (s : Limiter) (now : Time) (auth : AuthInfo) (layer : Layer) (windowStart : Time)
    (limit weight : Nat) (requestId : RequestId) (charge : Bool) (key : Key) :
    (s.check now auth layer windowStart limit weight requestId charge).1.redis.get? key =
      if key = layer.key auth then
        (slidingWindowLua now windowStart (now + layer.lead) limit weight (seconds layer.ttlSeconds) requestId
          (s.redis.get? (layer.key auth))).1
      else s.redis.get? key := get?_onKey _ _ _ key

theorem check_allowed (s : Limiter) (now : Time) (auth : AuthInfo) (layer : Layer) (windowStart : Time)
    (limit weight : Nat) (requestId : RequestId) (charge : Bool) :
    (s.check now auth layer windowStart limit weight requestId charge).2 = .allowed ↔
      (slidingWindowLua now windowStart (now + layer.lead) limit weight (seconds layer.ttlSeconds) requestId
        (s.redis.get? (layer.key auth))).2 = 1 := by
  simp [Limiter.check,checkAndRecordWindow]

-- A script run on one key keeps every bucket tracked once it does so there.
theorem check_sound {windowStart : Time} {limit weight : Nat} {requestId : RequestId} (sound : Sound s used now)
    (charge : Bool)
    (here :
      let ran := slidingWindowLua now windowStart (now + layer.lead) limit weight (seconds layer.ttlSeconds) requestId
        (s.redis.get? (layer.key auth))
      Tracks ran.1 (if ran.2 = 1 then recorded s.log (layer.key auth) ++ [(now + layer.lead,weight)]
        else recorded s.log (layer.key auth)) (requestId :: used) layer.span (now - layer.span)) :
    Sound (s.check now auth layer windowStart limit weight requestId charge).1 (requestId :: used) now := by
  have log : ∀ key, recorded (s.check now auth layer windowStart limit weight requestId charge).1.log key =
      recorded s.log key ++ if layer.key auth = key ∧
        (s.check now auth layer windowStart limit weight requestId charge).2 = .allowed
      then [(now + layer.lead,weight)] else [] := by
    intro key
    by_cases allowed : (s.check now auth layer windowStart limit weight requestId charge).2 = .allowed
    · have grown : (s.check now auth layer windowStart limit weight requestId charge).1.log =
          s.log ++ [⟨layer.key auth,now + layer.lead,weight,charge⟩] := if_pos allowed
      rw [grown,recorded_append]
      simp [allowed]
    · have same : (s.check now auth layer windowStart limit weight requestId charge).1.log = s.log := if_neg allowed
      rw [same]
      simp [allowed]
  refine ⟨?_,?_⟩
  · intro other caller
    rw [check_stored,log]
    by_cases same : other.key caller = layer.key auth
    · have layers := Layer.key_layer same
      subst layers
      rw [if_pos same,same]
      simp only [true_and,check_allowed]
      split
      · rename_i allowed
        simpa only [allowed,if_true] using here
      · rename_i denied
        simpa only [denied,if_false,List.append_nil] using here
    · rw [if_neg same,if_neg (fun both => same both.1.symm),List.append_nil]
      exact (sound.tracks other caller).weaken (List.subset_cons_self _ _) le_rfl
  · intro other caller e member
    rw [log,List.mem_append] at member
    rcases member with old | new
    · exact sound.past other caller e old
    · split at new
      · rename_i counted
        rw [List.mem_singleton.mp new,Layer.key_layer counted.1]
      · cases new

-- A request checks each bucket with the bucket's own window.
theorem request_tracks {requestId : RequestId} (sound : Sound s used now) (fresh : requestId ∉ used)
    (limit weight : Nat) :
    let ran := slidingWindowLua now (now - layer.span) (now + layer.lead) limit weight (seconds layer.ttlSeconds)
      requestId (s.redis.get? (layer.key auth))
    (ran.2 = 1 ↔ weightAbove (recorded s.log (layer.key auth)) (now - layer.span) + weight ≤ limit) ∧
    Tracks ran.1 (if ran.2 = 1 then recorded s.log (layer.key auth) ++ [(now + layer.lead,weight)]
      else recorded s.log (layer.key auth)) (requestId :: used) layer.span (now - layer.span) :=
  (sound.tracks layer auth).check le_rfl fresh limit weight (sound.past layer auth) (layer.covered now)

-- A charge prunes up to `now`; an idle bucket has nothing there to lose.
theorem charge_tracks {weight : Nat} {requestId : RequestId} (sound : Sound s used now) (fresh : requestId ∉ used)
    (idle : Idle s now auth weight layer) :
    let ran := slidingWindowLua now now (now + layer.lead) i64Max weight (seconds layer.ttlSeconds) requestId
      (s.redis.get? (layer.key auth))
    ran.2 = 1 ∧ Tracks ran.1 (if ran.2 = 1 then recorded s.log (layer.key auth) ++ [(now + layer.lead,weight)]
      else recorded s.log (layer.key auth)) (requestId :: used) layer.span (now - layer.span) := by
  have script := (sound.tracks layer auth).script le_rfl fresh i64Max weight (sound.past layer auth)
    (layer.covered now) idle.ahead
  exact ⟨script.1.mpr idle.room,script.2⟩

theorem check_recorded {windowStart : Time} {limit weight : Nat} {requestId : RequestId} {charge : Bool} {key : Key}
    (apart : key ≠ layer.key auth) :
    recorded (s.check now auth layer windowStart limit weight requestId charge).1.log key = recorded s.log key := by
  unfold Limiter.check
  simp only
  split
  · rw [recorded_append,if_neg (Ne.symm apart),List.append_nil]
  · rfl

theorem check_bucket {windowStart : Time} {limit weight : Nat} {requestId : RequestId} {charge : Bool} {other : Layer}
    (apart : other ≠ layer) :
    bucket (s.check now auth layer windowStart limit weight requestId charge).1 now auth other =
      bucket s now auth other := by
  have keys : other.key auth ≠ layer.key auth := fun same => apart (Layer.key_layer same)
  rw [bucket,check_stored,if_neg keys]
  rfl

theorem trip_cases (s : Limiter) (now : Time) (auth : AuthInfo) (layer : Layer) (windowStart : Time)
    (limit weight : Nat) (trip : Trip) (charge : Bool) :
    (s.trip now auth layer windowStart limit weight trip charge).1 = s ∨
      (s.trip now auth layer windowStart limit weight trip charge).1 =
        (s.check now auth layer windowStart limit weight trip.requestId charge).1 := by
  unfold Limiter.trip
  cases trip.lost with
  | none => exact .inr rfl
  | some ran =>
    cases ran with
    | true => exact .inr rfl
    | false => exact .inl rfl

theorem trip_result {windowStart : Time} {limit weight : Nat} {trip : Trip} {charge : Bool}
    {result : WindowCheckResult}
    (answered : (s.trip now auth layer windowStart limit weight trip charge).2 = some result) :
    s.trip now auth layer windowStart limit weight trip charge =
      ((s.check now auth layer windowStart limit weight trip.requestId charge).1,some result) ∧
    (s.check now auth layer windowStart limit weight trip.requestId charge).2 = result := by
  unfold Limiter.trip at answered ⊢
  cases lost : trip.lost with
  | none =>
    simp only [lost,Option.some.injEq] at answered ⊢
    exact ⟨by rw [answered],answered⟩
  | some ran =>
    rw [lost] at answered
    cases ran <;> cases answered

-- Whatever becomes of the call, one trip leaves the buckets tracked.
theorem trip_sound {windowStart : Time} {limit weight : Nat} {trip : Trip} (sound : Sound s used now) (charge : Bool)
    (here :
      let ran := slidingWindowLua now windowStart (now + layer.lead) limit weight (seconds layer.ttlSeconds)
        trip.requestId (s.redis.get? (layer.key auth))
      Tracks ran.1 (if ran.2 = 1 then recorded s.log (layer.key auth) ++ [(now + layer.lead,weight)]
        else recorded s.log (layer.key auth)) (trip.requestId :: used) layer.span (now - layer.span)) :
    Sound (s.trip now auth layer windowStart limit weight trip charge).1 (trip.requestId :: used) now := by
  rcases trip_cases s now auth layer windowStart limit weight trip charge with same | ran
  · rw [same]
    exact sound.use (List.subset_cons_self _ _)
  · rw [ran]
    exact check_sound sound charge here

end Steps

def tripIds (trips : Layer → Trip) (layers : List Layer) : List RequestId :=
  layers.map (fun layer => (trips layer).requestId)

section Requests
variable {config : RateLimitConfig} {s : Limiter} {used : List RequestId} {now : Time} {auth : AuthInfo}
  {trips : Layer → Trip} {layers : List Layer} {weight : Nat}

-- A request that passes its layers had room in each of them when it came.
theorem checkLayers_sound (sound : Sound s used now) (distinct : layers.Nodup)
    (fresh : (tripIds trips layers ++ used).Nodup) :
    Sound (checkLayers config now auth weight trips layers s).1 (tripIds trips layers ++ used) now ∧
      ((checkLayers config now auth weight trips layers s).2 = .admitted → ∀ layer ∈ layers,
        weightAbove (recorded s.log (layer.key auth)) (now - layer.span) + weight ≤ layer.limit config) := by
  induction layers generalizing s used with
  | nil => exact ⟨sound,fun _ layer member => by cases member⟩
  | cons layer rest ih =>
    obtain ⟨apart,others⟩ := List.nodup_cons.mp distinct
    obtain ⟨unused,tail⟩ := List.nodup_cons.mp (show ((trips layer).requestId :: (tripIds trips rest ++ used)).Nodup from fresh)
    have new : (trips layer).requestId ∉ used := fun member => unused (List.mem_append_right _ member)
    have script := @request_tracks _ _ _ auth layer _ sound new (layer.limit config) weight
    have here := trip_sound sound false script.2
    have among : (trips layer).requestId :: used ⊆ tripIds trips (layer :: rest) ++ used := by
      intro id member
      rcases List.mem_cons.mp member with rfl | old
      · exact List.mem_append_left _ List.mem_cons_self
      · exact List.mem_append_right _ old
    unfold checkLayers
    simp only
    split
    · rename_i allowed
      obtain ⟨after,room⟩ := trip_result allowed
      have freshRest : (tripIds trips rest ++ ((trips layer).requestId :: used)).Nodup :=
        List.nodup_middle.mpr (List.nodup_cons.mpr ⟨unused,tail⟩)
      obtain ⟨kept,rooms⟩ := ih here others freshRest
      refine ⟨kept.use (List.perm_middle.subset),?_⟩
      intro admitted other member
      rcases List.mem_cons.mp member with rfl | later
      · exact script.1.mp (check_allowed s now auth other _ _ _ _ false |>.mp room)
      · have differs : other.key auth ≠ layer.key auth := fun same => apart (Layer.key_layer same ▸ later)
        have bound := rooms admitted other later
        rwa [after,check_recorded differs] at bound
    · exact ⟨here.use among,fun admitted => by cases admitted⟩
    · exact ⟨here.use among,fun admitted => by cases admitted⟩

end Requests

section ChargeLayers
variable {s : Limiter} {used : List RequestId} {now : Time} {auth : AuthInfo} {trips : Layer → Trip}
  {layers : List Layer} {weight : Nat}

def chargeLayers (now : Time) (auth : AuthInfo) (weight : Nat) (trips : Layer → Trip) (layers : List Layer)
    (s : Limiter) : Limiter :=
  layers.foldl (fun s layer => (s.trip now auth layer now i64Max weight (trips layer) true).1) s

theorem idle_stays {layer other : Layer} (apart : other ≠ layer) (idle : Idle s now auth weight other)
    (trip : Trip) : Idle (s.trip now auth layer now i64Max weight trip true).1 now auth weight other := by
  rcases trip_cases s now auth layer now i64Max weight trip true with same | ran
  · rw [same]
    exact idle
  · rw [ran]
    have bucket_ := @check_bucket s now auth _ now i64Max weight trip.requestId true _ apart
    exact ⟨by rw [bucket_]; exact idle.ahead,by rw [bucket_]; exact idle.room⟩

theorem chargeLayers_sound (sound : Sound s used now) (distinct : layers.Nodup)
    (fresh : (tripIds trips layers ++ used).Nodup) (idle : ∀ layer ∈ layers, Idle s now auth weight layer) :
    Sound (chargeLayers now auth weight trips layers s) (tripIds trips layers ++ used) now := by
  induction layers generalizing s used with
  | nil => exact sound
  | cons layer rest ih =>
    obtain ⟨apart,others⟩ := List.nodup_cons.mp distinct
    obtain ⟨unused,tail⟩ := List.nodup_cons.mp (show ((trips layer).requestId :: (tripIds trips rest ++ used)).Nodup from fresh)
    have new : (trips layer).requestId ∉ used := fun member => unused (List.mem_append_right _ member)
    have script := charge_tracks sound new (idle layer List.mem_cons_self)
    have here := @trip_sound _ _ _ _ _ _ _ _ (trips layer) sound true script.2
    have freshRest : (tripIds trips rest ++ ((trips layer).requestId :: used)).Nodup :=
      List.nodup_middle.mpr (List.nodup_cons.mpr ⟨unused,tail⟩)
    have idleRest : ∀ other ∈ rest, Idle (s.trip now auth layer now i64Max weight (trips layer) true).1 now auth weight other := by
      intro other member
      have differs : other ≠ layer := by
        intro same
        obtain rfl := same
        exact apart member
      exact idle_stays differs (idle other (List.mem_cons_of_mem _ member)) _
    exact (ih here others freshRest idleRest).use List.perm_middle.subset

end ChargeLayers
end MemWal.RateLimit
