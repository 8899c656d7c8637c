import MemWal.Library.Store
import MemWal.Library.Windows

namespace MemWal.Mcp.Limiter
open Library

-- Milliseconds since the epoch.
abbrev Time := Int

structure RateLimitConfig where
  maxTotalSessions : Nat
  maxSessionsPerIp : Nat
  maxNewSessionsPerIpPerMin : Nat
  deriving DecidableEq, Repr

inductive Reason where
  | globalCap | ipActiveCap | ipBurstCap
  deriving DecidableEq, Repr

structure Refusal where
  reason : Reason
  retryAfterSeconds : Int
  deriving DecidableEq, Repr

structure IpState where
  active : Nat
  opens : List Time
  deriving DecidableEq, Repr

structure McpRateLimiter where
  config : RateLimitConfig
  perIp : Store String IpState
  totalActive : Nat
  deriving DecidableEq

-- The opens that are less than a minute old.
def recent (now : Time) (opens : List Time) : List Time := opens.filter (fun t => now - 60000 < t)

namespace McpRateLimiter

def new (config : RateLimitConfig) : McpRateLimiter := ⟨config,.empty,0⟩

-- The opens of an entry that is there are pruned also when the call is refused.
def acquire (s : McpRateLimiter) (now : Time) (ip : String) : McpRateLimiter × Except Refusal Unit :=
  if s.totalActive ≥ s.config.maxTotalSessions then (s,.error ⟨.globalCap,30⟩)
  else
    let found := (s.perIp.get? ip).getD ⟨0,[]⟩
    let state : IpState := {found with opens := recent now found.opens}
    let pruned := {s with perIp := s.perIp.put ip state}
    if state.active ≥ s.config.maxSessionsPerIp then (pruned,.error ⟨.ipActiveCap,30⟩)
    else if state.opens.length ≥ s.config.maxNewSessionsPerIpPerMin then
      let oldest := state.opens.head?.getD now
      (pruned,.error ⟨.ipBurstCap,max 1 ((oldest + 60000 - now + 999) / 1000)⟩)
    else ({s with
      perIp := s.perIp.upsert ip ⟨state.active + 1,state.opens ++ [now]⟩
      totalActive := s.totalActive + 1},.ok ())

-- Neither counter goes below zero.
def release (s : McpRateLimiter) (ip : String) : McpRateLimiter :=
  match s.perIp.get? ip with
  | none => s
  | some found =>
    let state : IpState := {found with active := found.active - 1}
    {s with
      perIp := if state.active = 0 ∧ state.opens = [] then s.perIp.erase ip else s.perIp.put ip state
      totalActive := s.totalActive - 1}

def activeOf (s : McpRateLimiter) (ip : String) : Nat := ((s.perIp.get? ip).map IpState.active).getD 0

def opensOf (s : McpRateLimiter) (ip : String) : List Time := ((s.perIp.get? ip).map IpState.opens).getD []

end McpRateLimiter

-- A success, with the flag of its closure from `releaseFn`.
structure Grant where
  ip : String
  time : Time
  released : Bool
  deriving DecidableEq, Repr

structure Session where
  limiter : McpRateLimiter
  grants : List Grant

inductive Act where
  | acquire (ip : String)
  | release (closure : Nat)
  deriving DecidableEq, Repr

structure Call where
  now : Time
  act : Act
  deriving DecidableEq, Repr

namespace Session

def start (config : RateLimitConfig) : Session := ⟨.new config,[]⟩

def acquire (s : Session) (now : Time) (ip : String) : Session :=
  let asked := s.limiter.acquire now ip
  match asked.2 with
  | .ok _ => ⟨asked.1,s.grants ++ [⟨ip,now,false⟩]⟩
  | .error _ => {s with limiter := asked.1}

-- The closure of a success, which acts once.
def release (s : Session) (closure : Nat) : Session :=
  match s.grants[closure]? with
  | none => s
  | some grant =>
    if grant.released then s
    else ⟨s.limiter.release grant.ip,s.grants.set closure {grant with released := true}⟩

def call (s : Session) (c : Call) : Session :=
  match c.act with
  | .acquire ip => s.acquire c.now ip
  | .release closure => s.release closure

def run (config : RateLimitConfig) (calls : List Call) : Session := calls.foldl call (start config)

-- The sessions that are open, all of them and those of one IP.
def unreleased (s : Session) : List Grant := s.grants.filter (fun grant => !grant.released)

def unreleasedOf (s : Session) (ip : String) : List Grant := s.unreleased.filter (fun grant => grant.ip = ip)

def times (s : Session) (ip : String) : List Time := (s.grants.filter (fun grant => grant.ip = ip)).map Grant.time

end Session

def Clocked (calls : List Call) : Prop := calls.Pairwise (fun earlier later => earlier.now ≤ later.now)

section Effects
open McpRateLimiter
variable {s : McpRateLimiter} {now : Time} {ip : String}

-- What a refused call leaves: at most some opens of the entry are dropped.
structure Refused (s next : McpRateLimiter) (now : Time) (ip : String) : Prop where
  config : next.config = s.config
  totalActive : next.totalActive = s.totalActive
  other : ∀ other, other ≠ ip → next.perIp.get? other = s.perIp.get? other
  own : next.perIp.get? ip = s.perIp.get? ip ∨
    next.perIp.get? ip = (s.perIp.get? ip).map (fun found => {found with opens := recent now found.opens})
  sum : next.perIp.total (fun _ state => state.active) = s.perIp.total (fun _ state => state.active)

structure Granted (s next : McpRateLimiter) (now : Time) (ip : String) : Prop where
  config : next.config = s.config
  room : s.totalActive < s.config.maxTotalSessions
  roomOf : s.activeOf ip < s.config.maxSessionsPerIp
  rate : (recent now (s.opensOf ip)).length < s.config.maxNewSessionsPerIpPerMin
  totalActive : next.totalActive = s.totalActive + 1
  other : ∀ other, other ≠ ip → next.perIp.get? other = s.perIp.get? other
  own : next.perIp.get? ip = some ⟨s.activeOf ip + 1,recent now (s.opensOf ip) ++ [now]⟩
  sum : next.perIp.total (fun _ state => state.active) = s.perIp.total (fun _ state => state.active) + 1

theorem found_eq (s : McpRateLimiter) (ip : String) :
    (s.perIp.get? ip).getD ⟨0,[]⟩ = ⟨s.activeOf ip,s.opensOf ip⟩ := by
  rw [activeOf,opensOf]
  cases s.perIp.get? ip <;> rfl

theorem pruned_refused (s : McpRateLimiter) (now : Time) (ip : String) :
    Refused s {s with perIp := s.perIp.put ip ⟨s.activeOf ip,recent now (s.opensOf ip)⟩} now ip := by
  cases found : s.perIp.get? ip with
  | none =>
    have same := Store.put_absent found (⟨s.activeOf ip,recent now (s.opensOf ip)⟩ : IpState)
    rw [same]
    exact ⟨rfl,rfl,fun _ _ => rfl,.inl rfl,rfl⟩
  | some state =>
    have lookup := Store.get?_put found (⟨s.activeOf ip,recent now (s.opensOf ip)⟩ : IpState)
    have sum := Store.total_put found (⟨s.activeOf ip,recent now (s.opensOf ip)⟩ : IpState) (fun _ state => state.active)
    have active : s.activeOf ip = state.active := by rw [activeOf,found]; rfl
    have opens : s.opensOf ip = state.opens := by rw [opensOf,found]; rfl
    refine ⟨rfl,rfl,?_,.inr ?_,?_⟩
    · intro other differs
      exact (lookup other).trans (if_neg differs)
    · rw [lookup,if_pos rfl,found,active,opens]
      rfl
    · simp only at sum ⊢
      omega

theorem upsert_granted (s : McpRateLimiter) (now : Time) (ip : String) (room : s.totalActive < s.config.maxTotalSessions)
    (roomOf : s.activeOf ip < s.config.maxSessionsPerIp)
    (rate : (recent now (s.opensOf ip)).length < s.config.maxNewSessionsPerIpPerMin) :
    Granted s {s with
      perIp := s.perIp.upsert ip ⟨s.activeOf ip + 1,recent now (s.opensOf ip) ++ [now]⟩
      totalActive := s.totalActive + 1} now ip := by
  refine ⟨rfl,room,roomOf,rate,rfl,?_,?_,?_⟩
  · intro other differs
    exact (Store.get?_upsert _ _ _ _).trans (if_neg differs)
  · exact (Store.get?_upsert _ _ _ _).trans (if_pos rfl)
  · change (s.perIp.upsert _ _).total _ = _
    rw [Store.upsert]
    cases found : s.perIp.get? ip with
    | none =>
      have absent : s.activeOf ip = 0 := by rw [activeOf,found]; rfl
      simp only [Option.isSome_none,Bool.false_eq_true,if_false]
      rw [Store.total_insert _ found,absent]
    | some state =>
      have active : s.activeOf ip = state.active := by rw [activeOf,found]; rfl
      have sum := Store.total_put found (⟨s.activeOf ip + 1,recent now (s.opensOf ip) ++ [now]⟩ : IpState)
        (fun _ state => state.active)
      simp only [Option.isSome_some,if_true]
      simp only [active] at sum ⊢
      omega

theorem acquire_cases (s : McpRateLimiter) (now : Time) (ip : String) :
    (∃ refusal, (s.acquire now ip).2 = .error refusal ∧ Refused s (s.acquire now ip).1 now ip) ∨
      (s.acquire now ip).2 = .ok () ∧ Granted s (s.acquire now ip).1 now ip := by
  rw [acquire]
  split
  · exact .inl ⟨_,rfl,rfl,rfl,fun _ _ => rfl,.inl rfl,rfl⟩
  · rename_i room
    simp only [found_eq]
    split
    · exact .inl ⟨_,rfl,pruned_refused s now ip⟩
    · rename_i roomOf
      split
      · exact .inl ⟨_,rfl,pruned_refused s now ip⟩
      · rename_i rate
        exact .inr ⟨rfl,upsert_granted s now ip (Nat.not_le.mp room) (Nat.not_le.mp roomOf) (Nat.not_le.mp rate)⟩

-- What a release does where a session of the IP is open.
structure Released (s next : McpRateLimiter) (ip : String) : Prop where
  config : next.config = s.config
  totalActive : next.totalActive = s.totalActive - 1
  other : ∀ other, other ≠ ip → next.perIp.get? other = s.perIp.get? other
  own : next.perIp.get? ip = if s.activeOf ip = 1 ∧ s.opensOf ip = [] then none
    else some ⟨s.activeOf ip - 1,s.opensOf ip⟩
  sum : next.perIp.total (fun _ state => state.active) + 1 = s.perIp.total (fun _ state => state.active)

theorem release_released (held : 0 < s.activeOf ip) : Released s (s.release ip) ip := by
  cases found : s.perIp.get? ip with
  | none =>
    rw [activeOf,found] at held
    exact absurd held (Nat.lt_irrefl 0)
  | some state =>
    have active : s.activeOf ip = state.active := by rw [activeOf,found]; rfl
    have opens : s.opensOf ip = state.opens := by rw [opensOf,found]; rfl
    rw [active] at held
    by_cases last : state.active - 1 = 0 ∧ state.opens = []
    · have gone : s.release ip = {s with perIp := s.perIp.erase ip, totalActive := s.totalActive - 1} := by
        simp only [release,found,if_pos last]
      have one : state.active = 1 := by omega
      rw [gone]
      refine ⟨rfl,rfl,?_,?_,?_⟩
      · intro other differs
        exact (Store.get?_erase _ _ _).trans (if_neg differs)
      · rw [active,opens,if_pos ⟨one,last.2⟩]
        exact (Store.get?_erase _ _ _).trans (if_pos rfl)
      · have sum := Store.total_erase found (fun _ state => state.active)
        simp only [one] at sum
        exact sum
    · have kept : s.release ip = {s with
          perIp := s.perIp.put ip {state with active := state.active - 1}
          totalActive := s.totalActive - 1} := by
        simp only [release,found,if_neg last]
      have lookup := Store.get?_put found ({state with active := state.active - 1} : IpState)
      have more : ¬ (state.active = 1 ∧ state.opens = []) := fun both => last ⟨by omega,both.2⟩
      rw [kept]
      refine ⟨rfl,rfl,?_,?_,?_⟩
      · intro other differs
        exact (lookup other).trans (if_neg differs)
      · rw [active,opens,if_neg more]
        exact (lookup ip).trans (if_pos rfl)
      · have sum := Store.total_put found ({state with active := state.active - 1} : IpState) (fun _ state => state.active)
        simp only at sum ⊢
        omega

end Effects

-- The counters count the sessions that are open, whatever the clock reads.
structure Counted (s : Session) : Prop where
  total : s.limiter.totalActive = s.unreleased.length
  sum : s.limiter.perIp.total (fun _ state => state.active) = s.limiter.totalActive
  active : ∀ ip, s.limiter.activeOf ip = (s.unreleasedOf ip).length

-- What the counters and the lists of opens say about the successes so far.
structure Sound (s : Session) (now : Time) : Prop extends Counted s where
  room : s.limiter.totalActive ≤ s.limiter.config.maxTotalSessions
  roomOf : ∀ ip, s.limiter.activeOf ip ≤ s.limiter.config.maxSessionsPerIp
  past : ∀ grant ∈ s.grants, grant.time ≤ now
  sorted : s.grants.Pairwise (fun earlier later => earlier.time ≤ later.time)
  opens : ∀ ip clock, now ≤ clock → recent clock (s.limiter.opensOf ip) = recent clock (s.times ip)
  among : ∀ ip, ∀ t ∈ s.limiter.opensOf ip, t ∈ s.times ip
  rate : ∀ ip i t, (s.times ip)[i]? = some t →
    (recent t ((s.times ip).take (i + 1))).length ≤ s.limiter.config.maxNewSessionsPerIpPerMin

section Steps
open McpRateLimiter
variable {s : Session} {now later : Time} {ip : String} {next : McpRateLimiter}

theorem recent_append (clock : Time) (one other : List Time) :
    recent clock (one ++ other) = recent clock one ++ recent clock other := List.filter_append one other

theorem recent_recent {clock : Time} (order : now ≤ clock) (opens : List Time) :
    recent clock (recent now opens) = recent clock opens := by
  rw [recent,recent,List.filter_filter]
  apply List.filter_congr
  intro t _
  by_cases young : clock - 60000 < t
  · have younger : now - 60000 < t := lt_of_le_of_lt (Int.sub_le_sub_right order 60000) young
    simp [young,younger]
  · simp [young]

theorem activeOf_eq {one other : McpRateLimiter} (same : one.perIp.get? ip = other.perIp.get? ip) :
    one.activeOf ip = other.activeOf ip := by
  rw [activeOf,activeOf,same]

theorem opensOf_eq {one other : McpRateLimiter} (same : one.perIp.get? ip = other.perIp.get? ip) :
    one.opensOf ip = other.opensOf ip := by
  rw [opensOf,opensOf,same]

-- A refused call changes no counter.
theorem Refused.activeOf {limiter : McpRateLimiter} (refused : Refused limiter next now ip) (other : String) :
    next.activeOf other = limiter.activeOf other := by
  by_cases same : other = ip
  · subst same
    rcases refused.own with still | pruned
    · exact activeOf_eq still
    · rw [McpRateLimiter.activeOf,McpRateLimiter.activeOf,pruned]
      cases limiter.perIp.get? other <;> rfl
  · exact activeOf_eq (refused.other other same)

theorem Refused.opensOf {limiter : McpRateLimiter} (refused : Refused limiter next now ip) (other : String) :
    next.opensOf other = limiter.opensOf other ∨ next.opensOf other = recent now (limiter.opensOf other) := by
  by_cases same : other = ip
  · subst same
    rcases refused.own with still | pruned
    · exact .inl (opensOf_eq still)
    · right
      rw [McpRateLimiter.opensOf,McpRateLimiter.opensOf,pruned]
      cases limiter.perIp.get? other <;> rfl
  · exact .inl (opensOf_eq (refused.other other same))

theorem refused_counted (counted : Counted s) (refused : Refused s.limiter next later ip) :
    Counted {s with limiter := next} := by
  refine ⟨?_,?_,?_⟩
  · exact refused.totalActive.trans counted.total
  · exact (refused.sum.trans counted.sum).trans refused.totalActive.symm
  · intro other
    exact (refused.activeOf other).trans (counted.active other)

theorem refused_sound (sound : Sound s now) (order : now ≤ later) (refused : Refused s.limiter next later ip) :
    Sound {s with limiter := next} later := by
  refine ⟨refused_counted sound.toCounted refused,?_,?_,?_,sound.sorted,?_,?_,?_⟩
  · simp only [refused.totalActive,refused.config]
    exact sound.room
  · intro other
    simp only [refused.activeOf,refused.config]
    exact sound.roomOf other
  · intro grant member
    exact (sound.past grant member).trans order
  · intro other clock after
    have kept := sound.opens other clock (order.trans after)
    rcases refused.opensOf other with same | pruned
    · simp only [same]
      exact kept
    · simp only [pruned,recent_recent after]
      exact kept
  · intro other t member
    rcases refused.opensOf other with same | pruned
    · simp only [same] at member
      exact sound.among other t member
    · simp only [pruned] at member
      exact sound.among other t (List.mem_of_mem_filter member)
  · intro other i t found
    simp only [refused.config]
    exact sound.rate other i t found

theorem times_append (s : Session) (limiter : McpRateLimiter) (grant : Grant) (other : String) :
    (Session.mk limiter (s.grants ++ [grant])).times other = s.times other ++ if grant.ip = other then [grant.time] else [] := by
  by_cases same : grant.ip = other <;> simp [Session.times,same]

theorem granted_counted (counted : Counted s) (granted : Granted s.limiter next later ip) :
    Counted ⟨next,s.grants ++ [⟨ip,later,false⟩]⟩ := by
  have own : next.activeOf ip = s.limiter.activeOf ip + 1 := by rw [activeOf,granted.own]; rfl
  refine ⟨?_,?_,?_⟩
  · simp only [granted.totalActive,counted.total]
    simp [Session.unreleased]
  · have sum := granted.sum
    rw [counted.sum] at sum
    exact sum.trans granted.totalActive.symm
  · intro other
    by_cases same : other = ip
    · subst same
      simp only [own,counted.active]
      simp [Session.unreleasedOf,Session.unreleased]
    · have differs : ip ≠ other := fun equal => same equal.symm
      simp only [activeOf_eq (granted.other other same),counted.active]
      simp [Session.unreleasedOf,Session.unreleased,differs]

theorem granted_sound (sound : Sound s now) (order : now ≤ later) (granted : Granted s.limiter next later ip) :
    Sound ⟨next,s.grants ++ [⟨ip,later,false⟩]⟩ later := by
  have own : next.activeOf ip = s.limiter.activeOf ip + 1 := by rw [activeOf,granted.own]; rfl
  have opens : next.opensOf ip = recent later (s.limiter.opensOf ip) ++ [later] := by rw [opensOf,granted.own]; rfl
  have times := times_append s next ⟨ip,later,false⟩
  refine ⟨granted_counted sound.toCounted granted,?_,?_,?_,?_,?_,?_,?_⟩
  · simp only [granted.totalActive,granted.config]
    exact granted.room
  · intro other
    simp only [granted.config]
    by_cases same : other = ip
    · subst same
      rw [own]
      exact granted.roomOf
    · rw [activeOf_eq (granted.other other same)]
      exact sound.roomOf other
  · intro grant member
    rcases List.mem_append.mp member with old | new
    · exact (sound.past grant old).trans order
    · cases List.mem_singleton.mp new
      exact le_rfl
  · rw [List.pairwise_append]
    refine ⟨sound.sorted,List.pairwise_singleton _ _,?_⟩
    intro grant old last new
    cases List.mem_singleton.mp new
    exact (sound.past grant old).trans order
  · intro other clock after
    have kept := sound.opens other clock (order.trans after)
    rw [times]
    by_cases same : ip = other
    · subst same
      rw [opens,if_pos rfl,recent_append,recent_append,recent_recent after,kept]
    · rw [if_neg same,List.append_nil,← kept]
      exact congrArg (recent clock) (opensOf_eq (granted.other other (Ne.symm same)))
  · intro other t member
    rw [times]
    by_cases same : ip = other
    · subst same
      simp only [opens] at member
      rw [if_pos rfl]
      rcases List.mem_append.mp member with old | new
      · exact List.mem_append_left _ (sound.among ip t (List.mem_of_mem_filter old))
      · exact List.mem_append_right _ new
    · rw [if_neg same,List.append_nil]
      simp only [opensOf_eq (granted.other other (Ne.symm same))] at member
      exact sound.among other t member
  · intro other i t found
    simp only [granted.config]
    rw [times] at found ⊢
    by_cases same : ip = other
    · subst same
      rw [if_pos rfl] at found ⊢
      rcases lt_or_ge i (s.times ip).length with inside | last
      · rw [List.getElem?_append_left inside] at found
        rw [List.take_append_of_le_length inside]
        exact sound.rate ip i t found
      · rw [List.getElem?_append_right last] at found
        obtain ⟨at_,value⟩ := List.getElem?_eq_some_iff.mp found
        have whole : (s.times ip ++ [later]).length ≤ i + 1 := by
          rw [List.length_append]
          exact Nat.add_le_add_right last 1
        have now_ : t = later := by
          rw [← value]
          exact List.getElem_singleton _
        have room := granted.rate
        rw [sound.opens ip later order] at room
        rw [now_,List.take_of_length_le whole,recent_append,List.length_append]
        exact (Nat.add_le_add_left (List.length_filter_le _ [later]) _).trans room
    · rw [if_neg same,List.append_nil] at found ⊢
      exact sound.rate other i t found

theorem acquire_sound (sound : Sound s now) (order : now ≤ later) (ip : String) : Sound (s.acquire later ip) later := by
  rw [Session.acquire]
  rcases acquire_cases s.limiter later ip with ⟨refusal,outcome,refused⟩ | ⟨outcome,granted⟩
  · simp only [outcome]
    exact refused_sound sound order refused
  · simp only [outcome]
    exact granted_sound sound order granted

theorem set_parts {grants : List Grant} {n : Nat} {grant : Grant} (found : grants[n]? = some grant) (new : Grant) :
    ∃ before after, grants = before ++ grant :: after ∧ grants.set n new = before ++ new :: after := by
  obtain ⟨inside,value⟩ := List.getElem?_eq_some_iff.mp found
  refine ⟨grants.take n,grants.drop (n + 1),?_,?_⟩
  · rw [← value,List.getElem_cons_drop inside,List.take_append_drop]
  · rw [List.set_eq_take_append_cons_drop,if_pos inside]

-- The session in which a closure has acted.
structure Closed (s after : Session) (grant : Grant) : Prop where
  limiter : Released s.limiter after.limiter grant.ip
  unreleased : after.unreleased.length + 1 = s.unreleased.length
  own : (after.unreleasedOf grant.ip).length + 1 = (s.unreleasedOf grant.ip).length
  other : ∀ ip, ip ≠ grant.ip → after.unreleasedOf ip = s.unreleasedOf ip
  stamps : after.grants.map (fun grant => (grant.ip,grant.time)) = s.grants.map (fun grant => (grant.ip,grant.time))

theorem closed_held {closure : Nat} {grant : Grant} (counted : Counted s) (found : s.grants[closure]? = some grant)
    (open_ : grant.released = false) : 0 < s.limiter.activeOf grant.ip := by
  rw [counted.active]
  apply List.length_pos_of_mem
  simp only [Session.unreleasedOf,Session.unreleased,List.mem_filter]
  exact ⟨⟨List.mem_of_getElem? found,by simp [open_]⟩,decide_eq_true rfl⟩

theorem release_closed {closure : Nat} {grant : Grant} (counted : Counted s) (found : s.grants[closure]? = some grant)
    (open_ : grant.released = false) : Closed s (s.release closure) grant := by
  have held := closed_held counted found open_
  obtain ⟨before,after,whole,set⟩ := set_parts found {grant with released := true}
  have result : s.release closure = ⟨s.limiter.release grant.ip,before ++ {grant with released := true} :: after⟩ := by
    simp only [Session.release,found,open_,Bool.false_eq_true,if_false,set]
  rw [result]
  refine ⟨release_released held,?_,?_,?_,?_⟩
  · simp only [Session.unreleased,whole,List.filter_append,List.filter_cons,open_]
    simp [Nat.add_assoc]
  · simp only [Session.unreleasedOf,Session.unreleased,whole,List.filter_append,List.filter_cons,open_]
    simp [Nat.add_assoc]
  · intro ip differs
    have apart : grant.ip ≠ ip := fun same => differs same.symm
    simp only [Session.unreleasedOf,Session.unreleased,whole,List.filter_append,List.filter_cons,open_]
    simp [apart]
  · simp [whole]

theorem times_of_stamps {after : Session} (stamps : after.grants.map (fun grant => (grant.ip,grant.time)) =
    s.grants.map (fun grant => (grant.ip,grant.time))) (ip : String) : after.times ip = s.times ip := by
  have read : ∀ any : Session, any.times ip =
      ((any.grants.map (fun grant => (grant.ip,grant.time))).filter (fun e => e.1 = ip)).map Prod.snd := by
    intro any
    simp [Session.times,List.filter_map,Function.comp_def]
  rw [read,read,stamps]

theorem closed_opens {after : Session} {grant : Grant} (closed : Closed s after grant) (ip : String) :
    after.limiter.opensOf ip = s.limiter.opensOf ip := by
  by_cases same : ip = grant.ip
  · subst same
    rw [opensOf,closed.limiter.own]
    split
    · rename_i last
      exact last.2.symm
    · rfl
  · exact opensOf_eq (closed.limiter.other ip same)

theorem closed_active {after : Session} {grant : Grant} (counted : Counted s) (closed : Closed s after grant) (ip : String) :
    after.limiter.activeOf ip = (after.unreleasedOf ip).length := by
  by_cases same : ip = grant.ip
  · subst same
    have before := counted.active grant.ip
    have fewer := closed.own
    rw [activeOf,closed.limiter.own]
    split
    · rename_i last
      change 0 = _
      omega
    · change s.limiter.activeOf grant.ip - 1 = _
      omega
  · rw [activeOf_eq (closed.limiter.other ip same),counted.active,closed.other ip same]

theorem closed_counted {after : Session} {grant : Grant} (counted : Counted s) (closed : Closed s after grant) :
    Counted after := by
  have total := closed.limiter.totalActive
  have sum := closed.limiter.sum
  have before := counted.sum
  have count := counted.total
  have fewer := closed.unreleased
  refine ⟨?_,?_,closed_active counted closed⟩
  · omega
  · omega

theorem closed_sound {after : Session} {grant : Grant} (sound : Sound s now) (closed : Closed s after grant) :
    Sound after now := by
  have config := closed.limiter.config
  have total := closed.limiter.totalActive
  have times := times_of_stamps closed.stamps
  have order : ∀ any : Session, any.grants.Pairwise (fun earlier later => earlier.time ≤ later.time) ↔
      (any.grants.map (fun grant => (grant.ip,grant.time))).Pairwise (fun earlier later => earlier.2 ≤ later.2) := by
    intro any
    rw [List.pairwise_map]
  refine ⟨closed_counted sound.toCounted closed,?_,?_,?_,?_,?_,?_,?_⟩
  · rw [total,config]
    exact (Nat.sub_le _ _).trans sound.room
  · intro ip
    have kept := sound.roomOf ip
    have active := closed_active sound.toCounted closed ip
    have old := sound.active ip
    rw [config]
    by_cases same : ip = grant.ip
    · subst same
      have own := closed.own
      omega
    · rw [closed.other ip same] at active
      omega
  · intro grant member
    have stamped : (grant.ip,grant.time) ∈ s.grants.map (fun grant => (grant.ip,grant.time)) :=
      closed.stamps ▸ List.mem_map_of_mem member
    obtain ⟨old,present,same⟩ := List.mem_map.mp stamped
    rw [← (Prod.mk.inj same).2]
    exact sound.past old present
  · rw [order,closed.stamps,← order]
    exact sound.sorted
  · intro ip clock later
    rw [closed_opens closed,times]
    exact sound.opens ip clock later
  · intro ip t member
    rw [closed_opens closed] at member
    rw [times]
    exact sound.among ip t member
  · intro ip i t found
    rw [times] at found ⊢
    rw [config]
    exact sound.rate ip i t found

theorem Sound.mono (sound : Sound s now) (order : now ≤ later) : Sound s later := by
  refine ⟨sound.toCounted,sound.room,sound.roomOf,?_,sound.sorted,?_,sound.among,sound.rate⟩
  · intro grant member
    exact (sound.past grant member).trans order
  · intro ip clock after
    exact sound.opens ip clock (order.trans after)

theorem release_sound (sound : Sound s now) (closure : Nat) : Sound (s.release closure) now := by
  cases found : s.grants[closure]? with
  | none => simpa only [Session.release,found] using sound
  | some grant =>
    cases open_ : grant.released with
    | true => simpa only [Session.release,found,open_,if_true] using sound
    | false => exact closed_sound sound (release_closed sound.toCounted found open_)

theorem acquire_counted (counted : Counted s) (later : Time) (ip : String) : Counted (s.acquire later ip) := by
  rw [Session.acquire]
  rcases acquire_cases s.limiter later ip with ⟨refusal,outcome,refused⟩ | ⟨outcome,granted⟩
  · simp only [outcome]
    exact refused_counted counted refused
  · simp only [outcome]
    exact granted_counted counted granted

theorem release_counted (counted : Counted s) (closure : Nat) : Counted (s.release closure) := by
  cases found : s.grants[closure]? with
  | none => simpa only [Session.release,found] using counted
  | some grant =>
    cases open_ : grant.released with
    | true => simpa only [Session.release,found,open_,if_true] using counted
    | false => exact closed_counted counted (release_closed counted found open_)

theorem release_grants (s : Session) (closure n : Nat) : (s.release closure).grants[n]? =
    if n = closure then (s.grants[n]?).map (fun grant => {grant with released := true}) else s.grants[n]? := by
  cases found : s.grants[closure]? with
  | none =>
    simp only [Session.release,found]
    split
    · rename_i same
      rw [same,found]
      rfl
    · rfl
  | some grant =>
    have inside := (List.getElem?_eq_some_iff.mp found).1
    cases open_ : grant.released with
    | true =>
      simp only [Session.release,found,open_,if_true]
      split
      · rename_i same
        rw [same,found,Option.map_some,← open_]
      · rfl
    | false =>
      simp only [Session.release,found,open_,Bool.false_eq_true,if_false]
      split
      · rename_i same
        rw [same,List.getElem?_set_self inside,found]
        rfl
      · rename_i differs
        rw [List.getElem?_set_ne (fun same => differs same.symm)]

theorem call_sound (sound : Sound s now) (c : Call) (order : now ≤ c.now) : Sound (s.call c) c.now := by
  rw [Session.call]
  cases c.act with
  | acquire ip => exact acquire_sound sound order ip
  | release closure => exact release_sound (sound.mono order) closure

-- A call is refused, succeeds, changes nothing or closes one session.
inductive Outcome (s next : Session) (c : Call) : Prop where
  | refused (asked : String) (limiter : Refused s.limiter next.limiter c.now asked) (grants : next.grants = s.grants)
  | granted (asked : String) (limiter : Granted s.limiter next.limiter c.now asked)
      (grants : next.grants = s.grants ++ [⟨asked,c.now,false⟩])
  | idle (same : next = s)
  | closed (n : Nat) (grant : Grant) (act : c.act = .release n) (found : s.grants[n]? = some grant)
      (unreleased : grant.released = false) (closed : Closed s next grant)

theorem call_outcome (sound : Sound s now) (c : Call) : Outcome s (s.call c) c := by
  rw [Session.call]
  cases act : c.act with
  | acquire ip =>
    simp only [Session.acquire]
    rcases acquire_cases s.limiter c.now ip with ⟨refusal,outcome,refused⟩ | ⟨outcome,granted⟩
    · simp only [outcome]
      exact .refused ip refused rfl
    · simp only [outcome]
      exact .granted ip granted rfl
  | release n =>
    cases found : s.grants[n]? with
    | none =>
      simp only [Session.release,found]
      exact .idle rfl
    | some grant =>
      cases unreleased : grant.released with
      | true =>
        simp only [Session.release,found,unreleased,if_true]
        exact .idle rfl
      | false => exact .closed n grant act found unreleased (release_closed sound.toCounted found unreleased)

end Steps

theorem Clocked.last {calls : List Call} (clocked : Clocked calls) : ∃ now, ∀ c ∈ calls, c.now ≤ now := by
  cases calls using List.reverseRecOn with
  | nil => exact ⟨0,nofun⟩
  | append_singleton earlier last =>
    refine ⟨last.now,?_⟩
    intro c member
    rcases List.mem_append.mp member with old | new
    · exact (List.pairwise_append.mp clocked).2.2 c old last (List.mem_singleton_self last)
    · rw [List.mem_singleton.mp new]

section Runs
open McpRateLimiter
variable {config : RateLimitConfig} {calls : List Call} {now : Time}

theorem run_append (config : RateLimitConfig) (calls : List Call) (c : Call) :
    Session.run config (calls ++ [c]) = (Session.run config calls).call c := by
  simp [Session.run]

theorem start_sound (config : RateLimitConfig) (now : Time) : Sound (.start config) now :=
  ⟨⟨rfl,rfl,fun _ => rfl⟩,Nat.zero_le _,fun _ => Nat.zero_le _,nofun,List.Pairwise.nil,fun _ _ _ => rfl,nofun,nofun⟩

theorem run_sound (config : RateLimitConfig) (clocked : Clocked calls) (past : ∀ c ∈ calls, c.now ≤ now) :
    Sound (.run config calls) now := by
  induction calls using List.reverseRecOn generalizing now with
  | nil => exact start_sound config now
  | append_singleton earlier last ih =>
    obtain ⟨before,_,order⟩ := List.pairwise_append.mp clocked
    have reached := ih before (fun c member => order c member last (List.mem_singleton_self last))
    rw [run_append]
    exact (call_sound reached last le_rfl).mono (past last (by simp))

theorem call_config {s : Session} (sound : Sound s now) (c : Call) : (s.call c).limiter.config = s.limiter.config := by
  rcases call_outcome sound c with ⟨_,refused,_⟩ | ⟨_,granted,_⟩ | same | ⟨_,_,_,_,_,closed⟩
  · exact refused.config
  · exact granted.config
  · rw [same]
  · exact closed.limiter.config

theorem run_config (config : RateLimitConfig) (clocked : Clocked calls) : (Session.run config calls).limiter.config = config := by
  induction calls using List.reverseRecOn with
  | nil => rfl
  | append_singleton earlier last ih =>
    obtain ⟨before,_,order⟩ := List.pairwise_append.mp clocked
    have reached := run_sound config before (fun c member => order c member last (List.mem_singleton_self last))
    rw [run_append,call_config reached,ih before]

theorem weightAbove_ones (opens : List Time) (after : Time) :
    Windows.weightAbove (opens.map (fun t => (t,1))) after = (opens.filter (fun t => after < t)).length := by
  simp [Windows.weightAbove,List.filter_map,Function.comp_def]

-- The window that ends at a success bounds the one that ends at any moment.
theorem opens_bounded {s : Session} (sound : Sound s now) (ip : String) (t : Time) :
    ((s.times ip).filter (fun open_ => t - 60000 < open_ ∧ open_ ≤ t)).length ≤
      s.limiter.config.maxNewSessionsPerIpPerMin := by
  have ordered : ((s.times ip).map (fun t => (t,1))).Pairwise (fun a b => a.1 ≤ b.1) := by
    rw [List.pairwise_map,Session.times,List.pairwise_map]
    exact sound.sorted.filter _
  have kept : ∀ i e, ((s.times ip).map (fun t => (t,1)))[i]? = some e →
      Windows.weightAbove (((s.times ip).map (fun t => (t,1))).take (i + 1)) (e.1 - 60000) ≤
        s.limiter.config.maxNewSessionsPerIpPerMin := by
    intro i e found
    obtain ⟨t,present,rfl⟩ := Option.map_eq_some_iff.mp (List.getElem?_map ▸ found)
    rw [← List.map_take,weightAbove_ones]
    exact sound.rate ip i t present
  have bound := Windows.sliding_bound ordered kept t
  rw [Windows.weightIn,List.filter_map,weightAbove_ones,List.filter_filter] at bound
  convert bound using 4
  simp

end Runs

theorem limiter_invariants (config : RateLimitConfig) {calls : List Call} (clocked : Clocked calls) :
    (Session.run config calls).limiter.totalActive =
        (Session.run config calls).limiter.perIp.total (fun _ state => state.active) ∧
      (Session.run config calls).limiter.totalActive = (Session.run config calls).unreleased.length ∧
      (Session.run config calls).limiter.totalActive ≤ config.maxTotalSessions ∧
      (∀ ip, (Session.run config calls).limiter.activeOf ip ≤ config.maxSessionsPerIp) ∧
      (∀ ip t, (((Session.run config calls).times ip).filter (fun open_ => t - 60000 < open_ ∧ open_ ≤ t)).length ≤
        config.maxNewSessionsPerIpPerMin) ∧
      ∀ now ip refusal, ((Session.run config calls).limiter.acquire now ip).2 = .error refusal →
        ((Session.run config calls).limiter.acquire now ip).1.totalActive = (Session.run config calls).limiter.totalActive ∧
        ∀ other, ((Session.run config calls).limiter.acquire now ip).1.activeOf other =
          (Session.run config calls).limiter.activeOf other := by
  obtain ⟨now,past⟩ := clocked.last
  have sound := run_sound config clocked past
  have same := run_config config clocked
  refine ⟨sound.sum.symm,sound.total,by simpa only [same] using sound.room,
    by simpa only [same] using sound.roomOf,?_,?_⟩
  · intro ip t
    have bound := opens_bounded sound ip t
    rw [same] at bound
    exact bound
  · intro now ip refusal denied
    rcases acquire_cases (Session.run config calls).limiter now ip with ⟨_,_,refused⟩ | ⟨outcome,_⟩
    · exact ⟨refused.totalActive,refused.activeOf⟩
    · rw [denied] at outcome
      cases outcome

def sampleConfig : RateLimitConfig := ⟨1000,16,30⟩

def sampleCalls : List Call := [⟨0,.acquire "::1"⟩,⟨5,.release 0⟩,⟨9,.release 0⟩]

theorem one_session_counted :
    (Session.run sampleConfig sampleCalls).limiter.totalActive =
        (Session.run sampleConfig sampleCalls).limiter.perIp.total (fun _ state => state.active) ∧
      (Session.run sampleConfig sampleCalls).limiter.totalActive =
        (Session.run sampleConfig sampleCalls).unreleased.length := by
  have clocked : Clocked sampleCalls := by simp [Clocked,sampleCalls]
  obtain ⟨sum,unreleased,_⟩ := limiter_invariants sampleConfig clocked
  exact ⟨sum,unreleased⟩

end MemWal.Mcp.Limiter
