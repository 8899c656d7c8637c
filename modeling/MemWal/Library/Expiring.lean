import MemWal.Library.Store

namespace MemWal.Library.Expiring
variable {κ : Type} [DecidableEq κ]

-- Keys that are there until a deadline, as `SET key NX EX ttl` leaves them.
def held (deadlines : Store κ Nat) (now : Nat) (key : κ) : Bool := (deadlines.get? key).any (fun at_ => decide (now < at_))

def setIfAbsent (deadlines : Store κ Nat) (now ttl : Nat) (key : κ) : Store κ Nat × Bool :=
  if held deadlines now key then (deadlines,false) else (deadlines.upsert key (now+ttl),true)

theorem held_iff {deadlines : Store κ Nat} {now : Nat} {key : κ} :
    held deadlines now key = true ↔ ∃ deadline, deadlines.get? key = some deadline ∧ now < deadline := by
  simp [held,Option.any_eq_true]

theorem setIfAbsent_held {deadlines : Store κ Nat} {now ttl : Nat} {key : κ} (taken : held deadlines now key = true) :
    setIfAbsent deadlines now ttl key = (deadlines,false) := by
  simp [setIfAbsent,taken]

theorem setIfAbsent_free {deadlines : Store κ Nat} {now ttl : Nat} {key : κ} (free : held deadlines now key = false) :
    setIfAbsent deadlines now ttl key = (deadlines.upsert key (now+ttl),true) := by
  simp [setIfAbsent,free]

-- The successes of all keys, in order: what a key holds is due to its last one,
-- and no success of a key comes before the one it had has run out.
structure Granted (ttl : Nat) (deadlines : Store κ Nat) (now : Nat) (grants : List (κ × Nat)) : Prop where
  past : ∀ grant ∈ grants, grant.2 ≤ now
  keeps : ∀ grant ∈ grants, ∃ deadline, deadlines.get? grant.1 = some deadline ∧ grant.2 + ttl ≤ deadline
  due : ∀ key deadline, deadlines.get? key = some deadline → ∃ at_, deadline = at_ + ttl ∧ (key,at_) ∈ grants
  apart : grants.Pairwise (fun a b => a.1 = b.1 → a.2 + ttl ≤ b.2)

namespace Granted
variable {ttl now : Nat} {deadlines : Store κ Nat} {grants : List (κ × Nat)}

theorem empty (now : Nat) : Granted ttl (.empty : Store κ Nat) now [] where
  past _ member := nomatch member
  keeps _ member := nomatch member
  due _ _ found := nomatch found
  apart := .nil

theorem wait (granted : Granted ttl deadlines now grants) {later : Nat} (after : now ≤ later) :
    Granted ttl deadlines later grants :=
  ⟨fun grant member => (granted.past grant member).trans after,granted.keeps,granted.due,granted.apart⟩

theorem grant (granted : Granted ttl deadlines now grants) {key : κ} (free : held deadlines now key = false) :
    Granted ttl (deadlines.upsert key (now+ttl)) now (grants ++ [(key,now)]) where
  past := by
    intro grant member
    rcases List.mem_append.mp member with old | new
    · exact granted.past grant old
    · rw [List.mem_singleton.mp new]
  keeps := by
    intro grant member
    rw [Store.get?_upsert]
    rcases List.mem_append.mp member with old | new
    · by_cases same : grant.1 = key
      · have before := granted.past grant old
        exact ⟨now+ttl,if_pos same,Nat.add_le_add_right before ttl⟩
      · rw [if_neg same]
        exact granted.keeps grant old
    · rw [List.mem_singleton.mp new]
      exact ⟨now+ttl,if_pos rfl,Nat.le_refl _⟩
  due := by
    intro other deadline found
    rw [Store.get?_upsert] at found
    split at found
    · rename_i same
      cases found
      exact ⟨now,rfl,by simp [same]⟩
    · obtain ⟨at_,equal,member⟩ := granted.due other deadline found
      exact ⟨at_,equal,List.mem_append_left _ member⟩
  apart := by
    rw [List.pairwise_append]
    refine ⟨granted.apart,List.pairwise_singleton _ _,?_⟩
    intro old member new last same
    cases List.mem_singleton.mp last
    obtain ⟨deadline,found,bound⟩ := granted.keeps old member
    rw [show old.1 = key from same] at found
    -- The old deadline of this key has passed.
    by_contra early
    have ahead : now < deadline := Nat.lt_of_lt_of_le (Nat.lt_of_not_le early) bound
    rw [held_iff.mpr ⟨deadline,found,ahead⟩] at free
    cases free

-- A key is held exactly while one of its successes is recent.
theorem held_recent (granted : Granted ttl deadlines now grants) {key : κ} :
    held deadlines now key = true ↔ ∃ at_, (key,at_) ∈ grants ∧ now < at_ + ttl := by
  rw [held_iff]
  constructor
  · intro given
    obtain ⟨deadline,found,ahead⟩ := given
    obtain ⟨at_,rfl,member⟩ := granted.due key deadline found
    exact ⟨at_,member,ahead⟩
  · intro given
    obtain ⟨at_,member,ahead⟩ := given
    obtain ⟨deadline,found,bound⟩ := granted.keeps (key,at_) member
    exact ⟨deadline,found,Nat.lt_of_lt_of_le ahead bound⟩

end Granted
end MemWal.Library.Expiring
