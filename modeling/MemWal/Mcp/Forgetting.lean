import MemWal.Mcp.Limiter
import Mathlib.Data.List.Dedup
import Mathlib.Data.List.Infix

namespace MemWal.Mcp.Limiter
open Library McpRateLimiter

-- A success within the last minute.
def seen (s : Session) (ip : String) (clock : Time) : Bool :=
  s.grants.any (fun grant => grant.ip = ip && clock - 60000 < grant.time)

-- A call of a closure that has not been called before.
structure ReleasedAt (config : RateLimitConfig) (calls before : List Call) (c : Call) (after : List Call) (grant : Grant) :
    Prop where
  split : calls = before ++ c :: after
  closure : ∃ n, c.act = .release n ∧ (Session.run config before).grants[n]? = some grant
  unreleased : grant.released = false

def Forgotten (config : RateLimitConfig) (calls : List Call) : Prop :=
  ∀ before c after grant, ReleasedAt config calls before c after grant →
    ∀ entry, (Session.run config (before ++ [c])).limiter.perIp.get? grant.ip = some entry →
      0 < entry.active ∨ seen (Session.run config (before ++ [c])) grant.ip c.now = true

-- The IPs that are active or were seen in the last minute.
def current (s : Session) (clock : Time) : List String :=
  (s.grants.map Grant.ip).dedup.filter (fun ip => 0 < s.limiter.activeOf ip || seen s ip clock)

def OlderReleased (s : Session) (clock : Time) : Prop := ∀ ip, seen s ip clock = false → s.limiter.activeOf ip = 0

def BoundedAt (s : Session) (clock : Time) : Prop :=
  OlderReleased s clock → s.limiter.perIp.entries.length ≤ (current s clock).length

-- The release of an IP's last session that finds opens in its list, and keeps
-- the entry for them.
structure Leaves (config : RateLimitConfig) (calls before : List Call) (c : Call) (after : List Call) (grant : Grant) :
    Prop extends ReleasedAt config calls before c after grant where
  last : (Session.run config before).limiter.activeOf grant.ip = 1
  opens : (Session.run config before).limiter.opensOf grant.ip ≠ []

-- Each such release finds an open of the last minute; and its IP either came
-- back or is still in that minute when the clock is read.
structure Prompt (config : RateLimitConfig) (calls : List Call) (clock : Time) : Prop where
  young : ∀ before c after grant, Leaves config calls before c after grant →
    ∃ t ∈ (Session.run config before).limiter.opensOf grant.ip, c.now - 60000 < t
  fresh : OlderReleased (Session.run config calls) clock → ∀ before c after grant,
    Leaves config calls before c after grant →
      (Session.run config calls).times grant.ip = (Session.run config before).times grant.ip →
        seen (Session.run config calls) grant.ip clock = true

section Entries
variable {s : Session} {now clock : Time} {ip : String}

theorem seen_iff : seen s ip clock = true ↔ ∃ t ∈ s.times ip, clock - 60000 < t := by
  simp only [seen,Session.times,List.any_eq_true,Bool.and_eq_true,decide_eq_true_eq,List.mem_map,List.mem_filter]
  constructor
  · intro found
    obtain ⟨grant,member,same,young⟩ := found
    exact ⟨grant.time,⟨grant,⟨member,same⟩,rfl⟩,young⟩
  · intro found
    obtain ⟨t,⟨grant,⟨member,same⟩,rfl⟩,young⟩ := found
    exact ⟨grant,member,same,young⟩

-- The list of opens shows whether the IP was seen, however it was pruned.
theorem seen_opens (sound : Sound s now) (order : now ≤ clock) :
    seen s ip clock = true ↔ ∃ t ∈ s.limiter.opensOf ip, clock - 60000 < t := by
  have same := sound.opens ip clock order
  have read : ∀ opens : List Time, (∃ t ∈ opens, clock - 60000 < t) ↔ recent clock opens ≠ [] := by
    intro opens
    rw [recent,Ne,List.filter_eq_nil_iff]
    push Not
    simp
  rw [seen_iff,read,read,same]

theorem activeOf_entry {entry : IpState} {limiter : McpRateLimiter} (found : limiter.perIp.get? ip = some entry) :
    limiter.activeOf ip = entry.active := by
  rw [activeOf,found]
  rfl

theorem entry_of_active {limiter : McpRateLimiter} (active : 0 < limiter.activeOf ip) :
    ∃ entry, limiter.perIp.get? ip = some entry := by
  cases found : limiter.perIp.get? ip with
  | none =>
    rw [activeOf,found] at active
    exact absurd active (Nat.lt_irrefl 0)
  | some entry => exact ⟨entry,rfl⟩

theorem entry_of_opens {limiter : McpRateLimiter} (opens : limiter.opensOf ip ≠ []) :
    ∃ entry, limiter.perIp.get? ip = some entry := by
  cases found : limiter.perIp.get? ip with
  | none =>
    rw [opensOf,found] at opens
    exact absurd rfl opens
  | some entry => exact ⟨entry,rfl⟩

theorem current_entry (sound : Sound s now) (order : now ≤ clock) (member : ip ∈ current s clock) :
    ip ∈ s.limiter.perIp.keys := by
  have alive := (List.mem_filter.mp member).2
  have entry : ∃ entry, s.limiter.perIp.get? ip = some entry := by
    rcases Bool.or_eq_true _ _ ▸ alive with active | seen
    · exact entry_of_active (of_decide_eq_true active)
    · obtain ⟨t,open_,_⟩ := (seen_opens sound order).mp seen
      exact entry_of_opens (List.ne_nil_of_mem open_)
  obtain ⟨entry,found⟩ := entry
  exact List.mem_map.mpr ⟨_,Store.get?_eq_some.mp found,rfl⟩

theorem current_of_alive (sound : Sound s now) (alive : 0 < s.limiter.activeOf ip ∨ seen s ip clock = true) :
    ip ∈ current s clock := by
  have listed : ip ∈ s.grants.map Grant.ip := by
    rcases alive with active | found
    · rw [sound.active] at active
      obtain ⟨grant,member⟩ := List.exists_mem_of_length_pos active
      simp only [Session.unreleasedOf,Session.unreleased,List.mem_filter,decide_eq_true_eq] at member
      exact List.mem_map.mpr ⟨grant,member.1.1,member.2⟩
    · obtain ⟨t,member,_⟩ := seen_iff.mp found
      obtain ⟨grant,kept,_⟩ := List.mem_map.mp member
      have own := List.mem_filter.mp kept
      exact List.mem_map.mpr ⟨grant,own.1,of_decide_eq_true own.2⟩
  refine List.mem_filter.mpr ⟨List.mem_dedup.mpr listed,?_⟩
  simpa using alive

-- The map is no larger than that exactly if it holds nothing else.
theorem bounded_iff (sound : Sound s now) (order : now ≤ clock) : BoundedAt s clock ↔ (OlderReleased s clock →
    ∀ ip entry, s.limiter.perIp.get? ip = some entry → 0 < entry.active ∨ seen s ip clock = true) := by
  have inside : current s clock ⊆ s.limiter.perIp.keys := fun ip member => current_entry sound order member
  have distinct : (current s clock).Nodup := (List.nodup_dedup _).filter _
  have length : s.limiter.perIp.keys.length = s.limiter.perIp.entries.length := List.length_map _
  constructor
  · intro bounded older ip entry found
    have perm := (List.subperm_of_subset distinct inside).perm_of_length_le (length ▸ bounded older)
    have key : ip ∈ s.limiter.perIp.keys := List.mem_map.mpr ⟨_,Store.get?_eq_some.mp found,rfl⟩
    have alive := (List.mem_filter.mp (perm.mem_iff.mpr key)).2
    rw [← activeOf_entry found]
    simpa using alive
  · intro alive older
    rw [← length]
    apply (List.subperm_of_subset s.limiter.perIp.unique _).length_le
    intro ip key
    obtain ⟨⟨_,entry⟩,present,rfl⟩ := List.mem_map.mp key
    have found := Store.get?_eq_some.mpr present
    apply current_of_alive sound
    rw [activeOf_entry found]
    exact alive older _ entry found

end Entries

section Steps
variable {s : Session} {now : Time} {c : Call} {ip : String}

-- The entry of an IP without sessions.
def Idle (s : Session) (ip : String) : Prop := ∃ entry, s.limiter.perIp.get? ip = some entry ∧ entry.active = 0

theorem Refused.idle {s next : McpRateLimiter} {asked : String} (refused : Refused s next now asked) :
    (∃ entry, next.perIp.get? ip = some entry ∧ entry.active = 0) ↔
      ∃ entry, s.perIp.get? ip = some entry ∧ entry.active = 0 := by
  by_cases same : ip = asked
  · subst same
    rcases refused.own with still | pruned
    · rw [still]
    · rw [pruned]
      cases s.perIp.get? ip <;> simp
  · rw [refused.other ip same]

theorem times_grow (sound : Sound s now) (c : Call) (ip : String) : s.times ip <+: (s.call c).times ip := by
  rcases call_outcome sound c with ⟨_,_,grants⟩ | ⟨asked,_,grants⟩ | same | ⟨_,_,_,_,_,closed⟩
  · rw [Session.times,Session.times,grants]
  · rw [Session.times,Session.times,grants,List.filter_append,List.map_append]
    exact List.prefix_append _ _
  · rw [same]
  · rw [times_of_stamps closed.stamps]

-- An IP becomes idle by the release of its last session that finds opens.
theorem idle_before (sound : Sound s now) (idle : Idle (s.call c) ip) :
    (Idle s ip ∨ ∃ n grant, c.act = .release n ∧ s.grants[n]? = some grant ∧ grant.released = false ∧ grant.ip = ip ∧
      s.limiter.activeOf ip = 1 ∧ s.limiter.opensOf ip ≠ []) ∧ (s.call c).times ip = s.times ip := by
  rcases call_outcome sound c with ⟨_,refused,grants⟩ | ⟨asked,granted,grants⟩ | same | ⟨n,grant,act,found,unreleased,closed⟩
  · refine ⟨.inl (refused.idle.mp idle),?_⟩
    rw [Session.times,Session.times,grants]
  · by_cases same : ip = asked
    · subst same
      obtain ⟨entry,present,zero⟩ := idle
      rw [granted.own] at present
      cases Option.some.inj present
      exact absurd zero (Nat.succ_ne_zero _)
    · have apart : ¬ asked = ip := fun equal => same equal.symm
      refine ⟨.inl ?_,?_⟩
      · simpa only [Idle,granted.other ip same] using idle
      · rw [Session.times,Session.times,grants]
        simp [apart]
  · rw [same] at idle ⊢
    exact ⟨.inl idle,rfl⟩
  · refine ⟨?_,times_of_stamps closed.stamps ip⟩
    by_cases same : ip = grant.ip
    · subst same
      right
      obtain ⟨entry,present,zero⟩ := idle
      have held := closed_held sound.toCounted found unreleased
      rw [closed.limiter.own] at present
      split at present
      · cases present
      · rename_i more
        cases Option.some.inj present
        have one : s.limiter.activeOf grant.ip = 1 := by
          change s.limiter.activeOf grant.ip - 1 = 0 at zero
          omega
        exact ⟨n,grant,act,found,unreleased,rfl,one,fun none => more ⟨one,none⟩⟩
    · left
      simpa only [Idle,closed.limiter.other ip same] using idle

-- It stays idle until it comes back.
theorem idle_after (sound : Sound s now) (idle : Idle s ip) (away : (s.call c).times ip = s.times ip) :
    Idle (s.call c) ip := by
  rcases call_outcome sound c with ⟨_,refused,_⟩ | ⟨asked,granted,grants⟩ | same | ⟨_,grant,_,found,unreleased,closed⟩
  · exact refused.idle.mpr idle
  · by_cases same : ip = asked
    · subst same
      rw [Session.times,Session.times,grants] at away
      simp at away
    · simpa only [Idle,granted.other ip same] using idle
  · rwa [same]
  · by_cases same : ip = grant.ip
    · subst same
      obtain ⟨entry,present,zero⟩ := idle
      have held := closed_held sound.toCounted found unreleased
      rw [activeOf_entry present,zero] at held
      exact absurd held (Nat.lt_irrefl 0)
    · simpa only [Idle,closed.limiter.other ip same] using idle

end Steps

section Runs
variable {config : RateLimitConfig} {calls before after : List Call} {c : Call} {grant : Grant} {clock : Time} {ip : String}

-- What a closure that acts finds and leaves.
theorem ReleasedAt.closed (released : ReleasedAt config calls before c after grant) (clocked : Clocked calls) :
    Sound (Session.run config before) c.now ∧
      Closed (Session.run config before) (Session.run config (before ++ [c])) grant ∧
      0 < (Session.run config before).limiter.activeOf grant.ip := by
  have ordered := clocked
  rw [released.split] at ordered
  obtain ⟨earlier,_,order⟩ := List.pairwise_append.mp ordered
  have sound := run_sound config earlier (fun b member => order b member c List.mem_cons_self)
  obtain ⟨n,act,found⟩ := released.closure
  refine ⟨sound,?_,closed_held sound.toCounted found released.unreleased⟩
  rw [run_append,Session.call,act]
  exact release_closed sound.toCounted found released.unreleased

theorem forgotten_iff (clocked : Clocked calls) : Forgotten config calls ↔
    ∀ before c after grant, Leaves config calls before c after grant →
      ∃ t ∈ (Session.run config before).limiter.opensOf grant.ip, c.now - 60000 < t := by
  constructor
  · intro forgotten before c after grant leaves
    obtain ⟨sound,closed,_⟩ := leaves.closed clocked
    have more : ¬ ((Session.run config before).limiter.activeOf grant.ip = 1 ∧
      (Session.run config before).limiter.opensOf grant.ip = []) := fun both => leaves.opens both.2
    have kept := closed.limiter.own
    rw [if_neg more,leaves.last] at kept
    rcases forgotten before c after grant leaves.toReleasedAt _ kept with active | seen
    · exact absurd active (Nat.lt_irrefl 0)
    · rw [seen_iff,times_of_stamps closed.stamps,← seen_iff] at seen
      exact (seen_opens sound le_rfl).mp seen
  · intro young before c after grant released entry present
    obtain ⟨sound,closed,held⟩ := released.closed clocked
    rw [closed.limiter.own] at present
    split at present
    · cases present
    · rename_i more
      cases Option.some.inj present
      by_cases last : (Session.run config before).limiter.activeOf grant.ip = 1
      · right
        have found := young before c after grant ⟨released,last,fun none => more ⟨last,none⟩⟩
        rw [seen_iff,times_of_stamps closed.stamps,← seen_iff]
        exact (seen_opens sound le_rfl).mpr found
      · left
        change 0 < (Session.run config before).limiter.activeOf grant.ip - 1
        omega

theorem run_grow (config : RateLimitConfig) (clocked : Clocked (before ++ after)) (ip : String) :
    (Session.run config before).times ip <+: (Session.run config (before ++ after)).times ip := by
  induction after using List.reverseRecOn with
  | nil => rw [List.append_nil]
  | append_singleton middle last ih =>
    rw [← List.append_assoc] at clocked ⊢
    obtain ⟨earlier,_,order⟩ := List.pairwise_append.mp clocked
    have sound := run_sound config earlier (fun b member => order b member last (List.mem_singleton_self last))
    rw [run_append]
    exact (ih earlier).trans (times_grow sound last ip)

theorem left_of_idle (clocked : Clocked calls) (idle : Idle (Session.run config calls) ip) :
    ∃ before c after grant, Leaves config calls before c after grant ∧ grant.ip = ip ∧
      (Session.run config calls).times ip = (Session.run config before).times ip := by
  induction calls using List.reverseRecOn with
  | nil =>
    obtain ⟨entry,present,_⟩ := idle
    cases present
  | append_singleton earlier last ih =>
    obtain ⟨ordered,_,order⟩ := List.pairwise_append.mp clocked
    have sound := run_sound config ordered (fun b member => order b member last (List.mem_singleton_self last))
    rw [run_append] at idle ⊢
    obtain ⟨before,away⟩ := idle_before sound idle
    rw [away]
    rcases before with idle | ⟨n,grant,act,found,unreleased,rfl,one,opens⟩
    · obtain ⟨before,c,after,grant,leaves,same,times⟩ := ih ordered idle
      refine ⟨before,c,after ++ [last],grant,⟨⟨?_,leaves.closure,leaves.unreleased⟩,leaves.last,leaves.opens⟩,same,times⟩
      rw [leaves.split]
      simp
    · exact ⟨earlier,last,[],grant,⟨⟨rfl,⟨n,act,found⟩,unreleased⟩,one,opens⟩,rfl,rfl⟩

theorem idle_of_left (leaves : Leaves config calls before c after grant) (clocked : Clocked calls)
    (away : (Session.run config calls).times grant.ip = (Session.run config before).times grant.ip) :
    Idle (Session.run config calls) grant.ip := by
  obtain ⟨_,closed,_⟩ := leaves.closed clocked
  have left : Idle (Session.run config (before ++ [c])) grant.ip := by
    refine ⟨_,(closed.limiter.own).trans (if_neg (fun both => leaves.opens both.2)),?_⟩
    rw [leaves.last]
  have stamps := times_of_stamps closed.stamps grant.ip
  have split : calls = (before ++ [c]) ++ after := by
    rw [leaves.split]
    simp
  rw [split] at clocked away ⊢
  clear leaves split
  -- The IP is away at each call since then: its successes only grow in number.
  induction after using List.reverseRecOn with
  | nil => simpa only [List.append_nil] using left
  | append_singleton middle last ih =>
    rw [← List.append_assoc] at clocked away ⊢
    obtain ⟨ordered,_,order⟩ := List.pairwise_append.mp clocked
    have sound := run_sound config ordered (fun b member => order b member last (List.mem_singleton_self last))
    have grown := run_grow config ordered grant.ip
    rw [run_append] at away ⊢
    have last_ := times_grow sound last grant.ip
    rw [stamps] at grown
    have still : (Session.run config (before ++ [c] ++ middle)).times grant.ip = (Session.run config before).times grant.ip :=
      (grown.eq_of_length_le (away ▸ last_.length_le)).symm
    exact idle_after sound (ih ordered still) (away.trans still.symm)

theorem bounded_fresh (clocked : Clocked calls) (past : ∀ c ∈ calls, c.now ≤ clock) :
    BoundedAt (Session.run config calls) clock ↔ (OlderReleased (Session.run config calls) clock →
      ∀ before c after grant, Leaves config calls before c after grant →
        (Session.run config calls).times grant.ip = (Session.run config before).times grant.ip →
          seen (Session.run config calls) grant.ip clock = true) := by
  rw [bounded_iff (run_sound config clocked past) le_rfl]
  constructor
  · intro alive older before c after grant leaves away
    obtain ⟨entry,present,zero⟩ := idle_of_left leaves clocked away
    rcases alive older grant.ip entry present with active | seen
    · exact absurd zero (Nat.pos_iff_ne_zero.mp active)
    · exact seen
  · intro fresh older ip entry present
    rcases Nat.eq_zero_or_pos entry.active with zero | active
    · right
      obtain ⟨before,c,after,grant,leaves,rfl,away⟩ := left_of_idle clocked ⟨entry,present,zero⟩
      exact fresh older before c after grant leaves away
    · exact .inl active

end Runs

theorem idle_ips_forgotten_iff (config : RateLimitConfig) {calls : List Call} {clock : Time} (clocked : Clocked calls)
    (past : ∀ c ∈ calls, c.now ≤ clock) :
    Forgotten config calls ∧ BoundedAt (Session.run config calls) clock ↔ Prompt config calls clock := by
  rw [forgotten_iff clocked,bounded_fresh clocked past]
  constructor
  · intro both
    exact ⟨both.1,both.2⟩
  · intro prompt
    exact ⟨prompt.young,prompt.fresh⟩

def shortVisit : List Call := [⟨0,.acquire "192.0.2.7"⟩,⟨30000,.release 0⟩]

theorem short_visit_forgotten :
    Forgotten sampleConfig shortVisit ∧ BoundedAt (Session.run sampleConfig shortVisit) 30000 := by
  have clocked : Clocked shortVisit := by simp [Clocked,shortVisit]
  have past : ∀ c ∈ shortVisit, c.now ≤ 30000 := by simp [shortVisit]
  -- Its only release is the second call.
  have only : ∀ before c after grant, Leaves sampleConfig shortVisit before c after grant →
      before = [⟨0,.acquire "192.0.2.7"⟩] ∧ c = ⟨30000,.release 0⟩ ∧ grant.ip = "192.0.2.7" := by
    intro before c after grant leaves
    obtain ⟨n,act,found⟩ := leaves.closure
    have split := leaves.split
    rcases before with _ | ⟨first,_ | ⟨second,rest⟩⟩
    · simp only [shortVisit,List.nil_append,List.cons.injEq] at split
      rw [← split.1] at act
      cases act
    · simp only [shortVisit,List.cons_append,List.nil_append,List.cons.injEq] at split
      obtain ⟨rfl,rfl,_⟩ := split
      cases act
      cases Option.some.inj found
      exact ⟨rfl,rfl,rfl⟩
    · simp [shortVisit] at split
  apply (idle_ips_forgotten_iff sampleConfig clocked past).mpr
  constructor
  · intro before c after grant leaves
    obtain ⟨rfl,rfl,ip⟩ := only before c after grant leaves
    rw [ip]
    exact ⟨0,by decide,by decide⟩
  · intro _ before c after grant leaves _
    rw [(only before c after grant leaves).2.2]
    decide

def longVisit : List Call := [⟨0,.acquire "192.0.2.7"⟩,⟨120000,.release 0⟩]

theorem long_visit_remembered :
    (Session.run sampleConfig longVisit).limiter.perIp.get? "192.0.2.7" = some ⟨0,[0]⟩ ∧
      ¬ Forgotten sampleConfig longVisit ∧ ¬ BoundedAt (Session.run sampleConfig longVisit) 120000 := by
  have entry : (Session.run sampleConfig longVisit).limiter.perIp.get? "192.0.2.7" = some ⟨0,[0]⟩ := by decide
  refine ⟨entry,?_,?_⟩
  · intro forgotten
    have alive := forgotten [⟨0,.acquire "192.0.2.7"⟩] ⟨120000,.release 0⟩ [] ⟨"192.0.2.7",0,false⟩
      ⟨rfl,⟨0,rfl,rfl⟩,rfl⟩ ⟨0,[0]⟩ entry
    revert alive
    decide
  · intro bounded
    have older : OlderReleased (Session.run sampleConfig longVisit) 120000 := by
      intro ip _
      have clocked : Clocked longVisit := by simp [Clocked,longVisit]
      have past : ∀ c ∈ longVisit, c.now ≤ 120000 := by simp [longVisit]
      have sound := run_sound sampleConfig clocked past
      have none_open : (Session.run sampleConfig longVisit).unreleased = [] := by decide
      rw [sound.active,Session.unreleasedOf,none_open]
      rfl
    have none := bounded older
    revert none
    decide

end MemWal.Mcp.Limiter
