import MemWal.Library.Meters
import MemWal.RateLimit.Fallback

namespace MemWal.RateLimit.Fallback
open Library

-- What a bucket holds at a time. One that is not there would start full.
def level (config : RateLimitConfig) (fallback : InMemoryFallback) (layer : Layer) (key : Key) (now : Instant) : Rat :=
  ((fallback.buckets.get? key).map (fun bucket => bucket.projected now (layer.limit config) (rate config layer))).getD
    (layer.limit config)

structure Sound (fallback : InMemoryFallback) (now : Instant) : Prop where
  counter : fallback.cleanupCounter < 1000
  tokens : ∀ key bucket, fallback.buckets.get? key = some bucket → 0 ≤ bucket.tokens
  past : ∀ key bucket, fallback.buckets.get? key = some bucket → bucket.lastUpdate ≤ now

section Levels
variable {config : RateLimitConfig} {request : Request} {fallback : InMemoryFallback} {key : Key} {bucket : TokenBucket}
  {layer : Layer} {now later : Instant}

theorem durationSince_nonneg (now earlier : Instant) : 0 ≤ durationSince now earlier := le_max_left _ _

theorem durationSince_mono (order : now ≤ later) (earlier : Instant) : durationSince now earlier ≤ durationSince later earlier :=
  max_le_max_left 0 (sub_le_sub_right order earlier)

theorem limit_nonneg (config : RateLimitConfig) (layer : Layer) : (0 : Rat) ≤ layer.limit config := Nat.cast_nonneg _

theorem refillDuration_pos (layer : Layer) : 0 < layer.refillDuration := by
  cases layer <;> norm_num [Layer.refillDuration]

theorem rate_nonneg (config : RateLimitConfig) (layer : Layer) : 0 ≤ rate config layer :=
  div_nonneg (limit_nonneg config layer) (refillDuration_pos layer).le

-- Two hours refill every bucket.
theorem limit_refilled (config : RateLimitConfig) (layer : Layer) {idle : Rat} (long : 7200 ≤ idle) :
    (layer.limit config : Rat) ≤ idle * rate config layer := by
  have short : layer.refillDuration ≤ idle := by
    apply le_trans _ long
    cases layer <;> norm_num [Layer.refillDuration]
  calc (layer.limit config : Rat) = layer.refillDuration * rate config layer :=
        (mul_div_cancel₀ _ (refillDuration_pos layer).ne').symm
    _ ≤ idle * rate config layer := mul_le_mul_of_nonneg_right short (rate_nonneg config layer)

theorem projected_mono (config : RateLimitConfig) (layer : Layer) (bucket : TokenBucket) (order : now ≤ later) :
    bucket.projected now (layer.limit config) (rate config layer) ≤
      bucket.projected later (layer.limit config) (rate config layer) :=
  Meters.refilled_mono (rate_nonneg config layer) (durationSince_mono order bucket.lastUpdate)

theorem projected_new (config : RateLimitConfig) (layer : Layer) (created now : Instant) :
    (TokenBucket.new (layer.limit config) created).projected now (layer.limit config) (rate config layer) =
      layer.limit config :=
  min_eq_right (le_add_of_nonneg_right (mul_nonneg (durationSince_nonneg now created) (rate_nonneg config layer)))

theorem projected_idle (config : RateLimitConfig) (layer : Layer) (paid : 0 ≤ bucket.tokens)
    (idle : 7200 ≤ durationSince now bucket.lastUpdate) :
    bucket.projected now (layer.limit config) (rate config layer) = layer.limit config :=
  Meters.refilled_full paid (limit_refilled config layer idle)

theorem level_held (config : RateLimitConfig) (request : Request) (fallback : InMemoryFallback) (layer : Layer)
    (now : Instant) : level config fallback layer (layer.key request.auth) now =
      (held config request fallback layer).projected now (layer.limit config) (rate config layer) := by
  rw [level,held]
  cases fallback.buckets.get? (layer.key request.auth) with
  | none => exact (projected_new config layer _ now).symm
  | some bucket => rfl

theorem Sound.mono (sound : Sound fallback now) (order : now ≤ later) : Sound fallback later :=
  ⟨sound.counter,sound.tokens,fun key bucket found => (sound.past key bucket found).trans order⟩

theorem held_sound (config : RateLimitConfig) (sound : Sound fallback now) (created : request.reads.created layer ≤ now) :
    0 ≤ (held config request fallback layer).tokens ∧ (held config request fallback layer).lastUpdate ≤ now := by
  rw [held]
  cases found : fallback.buckets.get? (layer.key request.auth) with
  | none => exact ⟨limit_nonneg config layer,created⟩
  | some bucket => exact ⟨sound.tokens _ _ found,sound.past _ _ found⟩

theorem ask_sound (sound : Sound fallback now) (created : request.reads.created layer ≤ now) :
    Sound (ask config request layer fallback).1 now := by
  have own := held_sound config sound created
  refine ⟨sound.counter,?_,?_⟩
  · intro key bucket found
    rw [get?_ask] at found
    split at found
    · cases found
      exact own.1
    · exact sound.tokens key bucket found
  · intro key bucket found
    rw [get?_ask] at found
    split at found
    · cases found
      exact own.2
    · exact sound.past key bucket found

-- A check changes no level, also where it makes the bucket.
theorem level_ask (asked : Layer) (auth : AuthInfo) (now : Instant) :
    level config (ask config request asked fallback).1 layer (layer.key auth) now =
      level config fallback layer (layer.key auth) now := by
  by_cases same : layer.key auth = asked.key request.auth
  · have one := Layer.key_layer same
    subst one
    rw [same,level_held,level_held,held_ask]
  · simp only [level,get?_ask,if_neg same]

theorem charge_sound (sound : Sound fallback now) {weight : Rat} {refillDuration capacity : Rat}
    (paid : ∀ bucket, fallback.buckets.get? key = some bucket →
      weight ≤ bucket.projected now capacity (capacity / refillDuration)) :
    Sound (fallback.charge now key weight capacity refillDuration) now := by
  refine ⟨?_,?_,?_⟩
  · rw [charge_counter]
    exact sound.counter
  · intro other bucket found
    rw [get?_charge] at found
    split at found
    · obtain ⟨old,stored,rfl⟩ := Option.map_eq_some_iff.mp found
      exact sub_nonneg.mpr (paid old stored)
    · exact sound.tokens other bucket found
  · intro other bucket found
    rw [get?_charge] at found
    split at found
    · obtain ⟨old,stored,rfl⟩ := Option.map_eq_some_iff.mp found
      exact le_refl now
    · exact sound.past other bucket found

theorem cleanUp_sound (sound : Sound fallback now) : Sound (fallback.cleanUp now) now := by
  refine ⟨?_,?_,?_⟩
  · rw [cleanUp_counter sound.counter]
    exact Nat.mod_lt _ (by decide)
  · intro key bucket found
    rw [get?_cleanUp sound.counter,Option.filter_eq_some_iff] at found
    exact sound.tokens key bucket found.1
  · intro key bucket found
    rw [get?_cleanUp sound.counter,Option.filter_eq_some_iff] at found
    exact sound.past key bucket found.1

-- What is pruned was full.
theorem level_cleanUp (sound : Sound fallback now) (order : now ≤ later) (layer : Layer) (key : Key) :
    level config (fallback.cleanUp now) layer key later = level config fallback layer key later := by
  rw [level,level,get?_cleanUp sound.counter]
  cases found : fallback.buckets.get? key with
  | none => rfl
  | some bucket =>
    rw [Option.filter_some]
    split
    · rfl
    · rename_i pruned
      have idle : 7200 ≤ durationSince now bucket.lastUpdate := by
        by_contra short
        exact pruned (decide_eq_true (fun _ => not_le.mp short))
      have full := projected_idle config layer (sound.tokens key bucket found)
        (idle.trans (durationSince_mono order bucket.lastUpdate))
      exact full.symm

end Levels

-- The withdrawals of each bucket, the last one first.
abbrev Histories := Layer → Key → List (Instant × Rat)

def record (request : Request) (histories : Histories) (layer : Layer) : Histories := fun other key =>
  if other = layer ∧ key = layer.key request.auth then
    (request.reads.consumed layer,(request.weight : Rat)) :: histories other key
  else histories other key

-- From `now` on the map is a meter for every bucket, whatever it has pruned.
structure Follows (config : RateLimitConfig) (fallback : InMemoryFallback) (histories : Histories) (now : Instant) :
    Prop where
  sound : Sound fallback now
  levels : ∀ layer auth later, now ≤ later → level config fallback layer (layer.key auth) later =
    Meters.level (layer.limit config : Rat) (rate config layer) (histories layer (layer.key auth)) later
  covered : ∀ layer auth, Meters.Covered (layer.limit config : Rat) (rate config layer) (histories layer (layer.key auth))
  past : ∀ layer auth, ∀ e ∈ histories layer (layer.key auth), e.1 ≤ now

structure Reads.Ordered (reads : Reads) : Prop where
  created : ∀ layer, reads.created layer ≤ reads.consumed .delegateKey
  peeked : ∀ layer, reads.peeked layer ≤ reads.consumed .delegateKey
  cleaned : ∀ layer, reads.consumed layer ≤ reads.cleaned layer
  burst : reads.cleaned .delegateKey ≤ reads.consumed .burst
  sustained : reads.cleaned .burst ≤ reads.consumed .sustained

theorem Reads.ordered {reads : Reads} (sorted : reads.times.Pairwise (fun earlier later => earlier ≤ later)) :
    reads.Ordered := by
  have chain := sorted.isChain
  simp only [Reads.times,Layer.all,List.flatMap_cons,List.flatMap_nil,List.append_nil,List.cons_append,List.nil_append,
    List.isChain_cons_cons] at chain
  obtain ⟨one,two,three,four,five,six,seven,eight,nine,ten,last,_⟩ := chain
  constructor
  · intro layer
    cases layer <;> linarith
  · intro layer
    cases layer <;> linarith
  · intro layer
    cases layer <;> assumption
  · exact eight
  · exact ten

section Simulation
variable {config : RateLimitConfig} {request : Request} {fallback : InMemoryFallback} {histories : Histories}
  {now later : Instant} {layer : Layer}

theorem Follows.mono (follows : Follows config fallback histories now) (order : now ≤ later) :
    Follows config fallback histories later := by
  refine ⟨follows.sound.mono order,?_,follows.covered,?_⟩
  · intro layer auth late after
    exact follows.levels layer auth late (order.trans after)
  · intro layer auth e member
    exact (follows.past layer auth e member).trans order

theorem follows_ask (follows : Follows config fallback histories now) (asked : Layer)
    (created : request.reads.created asked ≤ now) : Follows config (ask config request asked fallback).1 histories now := by
  refine ⟨ask_sound follows.sound created,?_,follows.covered,follows.past⟩
  intro layer auth late after
  rw [level_ask]
  exact follows.levels layer auth late after

theorem follows_askLayers (layers : List Layer) (follows : Follows config fallback histories now)
    (created : ∀ layer, request.reads.created layer ≤ now) :
    Follows config (askLayers config request layers fallback).1 histories now := by
  induction layers generalizing fallback with
  | nil => exact follows
  | cons asked rest ih =>
    have next := follows_ask follows asked (created asked)
    rw [askLayers]
    split
    · exact ih next
    · exact next

theorem level_charge {bucket : TokenBucket} (found : fallback.buckets.get? (layer.key request.auth) = some bucket)
    (order : now ≤ later) : level config (fallback.charge now (layer.key request.auth) request.weight
      (layer.limit config) layer.refillDuration) layer (layer.key request.auth) later =
        Meters.refilled (layer.limit config : Rat) (rate config layer)
          (level config fallback layer (layer.key request.auth) now - request.weight) (later - now) := by
  rw [level,level,get?_charge,if_pos rfl,found,← durationSince_of_le order]
  rfl

theorem follows_charge {bucket : TokenBucket} (follows : Follows config fallback histories (request.reads.consumed layer))
    (found : fallback.buckets.get? (layer.key request.auth) = some bucket)
    (paid : request.weight ≤ level config fallback layer (layer.key request.auth) (request.reads.consumed layer)) :
    Follows config (fallback.charge (request.reads.consumed layer) (layer.key request.auth) request.weight
      (layer.limit config) layer.refillDuration) (record request histories layer) (request.reads.consumed layer) := by
  have before := follows.levels layer request.auth _ le_rfl
  constructor
  · apply charge_sound follows.sound
    intro other stored
    rw [found] at stored
    cases stored
    rw [level,found] at paid
    exact paid
  · intro other auth late after
    by_cases same : other = layer ∧ other.key auth = layer.key request.auth
    · obtain ⟨rfl,key⟩ := same
      rw [record,key,if_pos ⟨rfl,rfl⟩,Meters.level,level_charge found after,before]
    · have apart : other.key auth ≠ layer.key request.auth := fun equal => same ⟨Layer.key_layer equal,equal⟩
      have untouched := follows.levels other auth late after
      rw [record,if_neg same,← untouched,level,level,get?_charge,if_neg apart]
  · intro other auth
    rw [record]
    split
    · rename_i same
      obtain ⟨rfl,key⟩ := same
      rw [key]
      exact ⟨before ▸ paid,follows.past other request.auth,follows.covered other request.auth⟩
    · exact follows.covered other auth
  · intro other auth e member
    rw [record] at member
    split at member
    · rcases List.mem_cons.mp member with rfl | old
      · exact le_rfl
      · exact follows.past other auth e old
    · exact follows.past other auth e member

theorem follows_debit (follows : Follows config fallback histories (request.reads.consumed layer))
    (order : request.reads.consumed layer ≤ request.reads.cleaned layer) {bucket : TokenBucket}
    (found : fallback.buckets.get? (layer.key request.auth) = some bucket)
    (paid : request.weight ≤ level config fallback layer (layer.key request.auth) (request.reads.consumed layer)) :
    Follows config (debit config request fallback layer) (record request histories layer) (request.reads.cleaned layer) := by
  have charged := (follows_charge follows found paid).mono order
  refine ⟨cleanUp_sound charged.sound,?_,charged.covered,charged.past⟩
  intro other auth late after
  rw [debit,InMemoryFallback.consume,level_cleanUp charged.sound after]
  exact charged.levels other auth late after

def recordAll (request : Request) (histories : Histories) : Histories := Layer.all.foldl (record request) histories

theorem level_paid (passes : Passes config request fallback) (ordered : request.reads.Ordered) (layer : Layer)
    (late : request.reads.consumed .delegateKey ≤ now) :
    request.weight ≤ level config fallback layer (layer.key request.auth) now := by
  rw [level_held]
  have enough : (request.weight : Rat) ≤ (held config request fallback layer).projected (request.reads.peeked layer)
      (layer.limit config) (rate config layer) := of_decide_eq_true (passes layer)
  exact enough.trans (projected_mono config layer _ ((ordered.peeked layer).trans late))

theorem follows_refused (follows : Follows config fallback histories now) (ordered : request.reads.Ordered)
    (order : now ≤ request.reads.consumed .delegateKey) (refused : ¬ Passes config request fallback) :
    Follows config (rateLimitMiddleware config request fallback).1 histories (request.reads.consumed .delegateKey) := by
  have asked := follows_askLayers Layer.all (follows.mono order) ordered.created
  rw [← admitted_iff,rateLimitMiddleware_eq] at refused
  rw [rateLimitMiddleware_eq]
  split at refused
  · rename_i result
    simpa only [result] using asked
  · exact absurd rfl refused

theorem record_other {other : Layer} (differs : other ≠ layer) (histories : Histories) (key : Key) :
    record request histories layer other key = histories other key :=
  if_neg (fun same => differs same.1)

theorem Reads.Ordered.first {reads : Reads} (ordered : reads.Ordered) (layer : Layer) :
    reads.consumed .delegateKey ≤ reads.consumed layer := by
  have one := ordered.cleaned .delegateKey
  have two := ordered.cleaned .burst
  cases layer with
  | delegateKey => exact le_rfl
  | burst => exact one.trans ordered.burst
  | sustained => exact ((one.trans ordered.burst).trans two).trans ordered.sustained

-- A layer that was not debited yet still has the level the request was
-- checked against.
theorem follows_next {reached : InMemoryFallback} {changed : Histories} (passes : Passes config request fallback)
    (ordered : request.reads.Ordered) (follows : Follows config fallback histories (request.reads.consumed .delegateKey))
    (current : Follows config reached changed (request.reads.consumed layer))
    (same : changed layer (layer.key request.auth) = histories layer (layer.key request.auth))
    (found : ∃ bucket, reached.buckets.get? (layer.key request.auth) = some bucket) :
    Follows config (debit config request reached layer) (record request changed layer) (request.reads.cleaned layer) := by
  obtain ⟨bucket,stored⟩ := found
  apply follows_debit current (ordered.cleaned layer) stored
  have paid := level_paid passes ordered layer (ordered.first layer)
  rw [follows.levels layer request.auth _ (ordered.first layer)] at paid
  rw [current.levels layer request.auth _ le_rfl,same]
  exact paid

theorem follows_admitted (follows : Follows config fallback histories now) (ordered : request.reads.Ordered)
    (order : now ≤ request.reads.consumed .delegateKey) (passes : Passes config request fallback)
    (spared : Spared config request fallback) : Follows config (rateLimitMiddleware config request fallback).1
      (recordAll request histories) (request.reads.cleaned .sustained) := by
  have start := follows.mono order
  have debited := (debited_iff follows.sound.counter passes).mpr spared
  have asked := follows_askLayers Layer.all start ordered.created
  have first := follows_next passes ordered start asked rfl (debited_found (debited .delegateKey))
  have burst : record request histories .delegateKey .burst = histories .burst := by
    funext key
    exact record_other (by decide) histories key
  have found := debited_found (debited .burst)
  rw [beforeDebit_burst] at found
  have second := follows_next passes ordered start (first.mono ordered.burst) (congrFun burst _) found
  have sustained : record request (record request histories .delegateKey) .burst .sustained = histories .sustained := by
    funext key
    rw [record_other (by decide),record_other (by decide)]
  have last := debited_found (debited .sustained)
  rw [beforeDebit_sustained] at last
  have third := follows_next passes ordered start (second.mono ordered.sustained) (congrFun sustained _) last
  rw [rateLimitMiddleware_admitted passes]
  exact third

end Simulation

end MemWal.RateLimit.Fallback
