import MemWal.OAuth.Records

namespace MemWal.OAuth
open Library Auth

namespace Fact

def consumes (sessionId : String) : Fact → Bool
  | .sessionConsumed id _ => id = sessionId
  | _ => false

def redeems (sha : String) : Fact → Bool
  | .codeConsumed h _ => h = sha
  | _ => false

def grants (sha : String) : Fact → Bool
  | .granted h _ _ => h = sha
  | _ => false

def issues (sha : String) (type : TokenType) : Fact → Bool
  | .issued h t _ => h = sha && t = type
  | _ => false

def rotates (sha : String) : Fact → Bool
  | .rotated h _ _ => h = sha
  | _ => false

-- Whether the counts below speak of it.
def counted : Fact → Bool
  | .registered _ _ | .opened _ _ _ | .completed _ _ => false
  | _ => true

end Fact

namespace World

def consumptions (s : World) (sessionId : String) : Nat := s.log.countP (Fact.consumes sessionId)
def redemptions (s : World) (sha : String) : Nat := s.log.countP (Fact.redeems sha)
def grantings (s : World) (sha : String) : Nat := s.log.countP (Fact.grants sha)
def issues (s : World) (sha : String) (type : TokenType) : Nat := s.log.countP (Fact.issues sha type)
def rotations (s : World) (sha : String) : Nat := s.log.countP (Fact.rotates sha)

end World

namespace Holding

def code? : Holding → Option String
  | .code sha | .grant sha _ | .access sha _ => some sha

def grant? : Holding → Option String
  | .grant _ grantId | .access _ grantId => some grantId
  | _ => none

-- Two holdings of one code or of one grant.
def Clash (a b : Holding) : Prop :=
  (∃ sha, a.code? = some sha ∧ b.code? = some sha) ∨ ∃ grantId, a.grant? = some grantId ∧ b.grant? = some grantId

theorem Clash.symm {a b : Holding} (clash : Clash a b) : Clash b a := by
  rcases clash with ⟨sha,left,right⟩ | ⟨grantId,left,right⟩
  · exact .inl ⟨sha,right,left⟩
  · exact .inr ⟨grantId,right,left⟩

end Holding

-- A grant that has no refresh token so far.
structure Unrefreshed (s : World) (grantId : String) : Prop where
  there : (s.grants.get? grantId).isSome = true
  none_ : ∀ sha row, s.tokens.get? sha = some row → row.grantId = grantId → row.tokenType ≠ .refresh

-- What is still outstanding for a holding.
def Due (s : World) : Holding → Prop
  | .code sha => s.redemptions sha ≠ 0 ∧ s.grantings sha = 0 ∧ s.issues sha .access = 0 ∧ s.issues sha .refresh = 0
  | .grant sha grantId => s.redemptions sha ≠ 0 ∧ s.issues sha .access = 0 ∧ s.issues sha .refresh = 0 ∧
    Unrefreshed s grantId
  | .access sha grantId => s.redemptions sha ≠ 0 ∧ s.issues sha .refresh = 0 ∧ Unrefreshed s grantId

-- An unrevoked refresh token.
def TokenRow.Live (row : TokenRow) : Prop := row.tokenType = .refresh ∧ row.revokedAt = none

structure Sessions (kit : Kit) (s : World) : Prop where
  drawn : ∀ id, (s.sessions.get? id).isSome = true ∨ s.consumptions id ≠ 0 →
    ∃ n, n < s.drawn ∧ id = sessionIdPrefix ++ kit.random n
  pending : ∀ id row, s.sessions.get? id = some row → row.status = .pending → s.consumptions id = 0
  once : ∀ id, s.consumptions id ≤ 1

structure Codes (kit : Kit) (s : World) : Prop where
  drawn : ∀ sha, (s.codes.get? sha).isSome = true ∨ s.redemptions sha ≠ 0 →
    ∃ n, n < s.drawn ∧ sha = kit.hash (codePrefix ++ kit.random n)
  fresh : ∀ sha row, s.codes.get? sha = some row → s.redemptions sha = 0
  once : ∀ sha, s.redemptions sha ≤ 1

structure Exchanges (s : World) : Prop where
  unused : ∀ sha, s.redemptions sha = 0 → s.grantings sha = 0 ∧ ∀ type, s.issues sha type = 0
  once : ∀ sha, s.grantings sha ≤ 1 ∧ ∀ type, s.issues sha type ≤ 1
  due : ∀ k a, s.held.get? k = some a → Due s a
  alone : ∀ j k a b, s.held.get? j = some a → s.held.get? k = some b → a.Clash b → j = k

structure Tokens (s : World) : Prop where
  foreign : ∀ sha row, s.tokens.get? sha = some row → (s.grants.get? row.grantId).isSome = true
  single : ∀ a b left right, s.tokens.get? a = some left → s.tokens.get? b = some right → left.Live → right.Live →
    left.grantId = right.grantId → a = b
  once : ∀ sha, s.rotations sha ≤ 1
  replaced : ∀ sha, s.rotations sha ≠ 0 → ∃ row, s.tokens.get? sha = some row ∧ row.tokenType = .refresh ∧
    row.revokedAt ≠ none

structure Custody (kit : Kit) (s : World) : Prop where
  sessions : Sessions kit s
  codes : Codes kit s
  exchanges : Exchanges s
  tokens : Tokens s
  clients : ∀ grantId row, s.grants.get? grantId = some row → (s.clients.get? row.clientId).isSome = true

section Counts
variable {s now : World}

-- A log that grows by facts of other kinds counts the same.
structure SameExchanges (s now : World) : Prop where
  redemptions : ∀ sha, now.redemptions sha = s.redemptions sha
  grantings : ∀ sha, now.grantings sha = s.grantings sha
  issues : ∀ sha type, now.issues sha type = s.issues sha type

structure SameCounts (s now : World) : Prop extends SameExchanges s now where
  consumptions : ∀ id, now.consumptions id = s.consumptions id
  rotations : ∀ sha, now.rotations sha = s.rotations sha

theorem sameCounts_of_log (equal : now.log = s.log) : SameCounts s now :=
  ⟨⟨fun _ => congrArg _ equal,fun _ => congrArg _ equal,fun _ _ => congrArg _ equal⟩,fun _ => congrArg _ equal,
    fun _ => congrArg _ equal⟩

theorem countP_append_one (p : Fact → Bool) (log : List Fact) (fact : Fact) :
    (log ++ [fact]).countP p = log.countP p + if p fact = true then 1 else 0 := by
  rw [List.countP_append,List.countP_singleton]

theorem sameCounts_of_append {fact : Fact} (other : fact.counted = false) (equal : now.log = s.log ++ [fact]) :
    SameCounts s now := by
  cases fact with
  | registered _ _ | opened _ _ _ | completed _ _ =>
    constructor
    · constructor <;> intros <;> simp [World.redemptions,World.grantings,World.issues,equal,Fact.redeems,Fact.grants,
        Fact.issues]
    · intro id
      simp [World.consumptions,equal,Fact.consumes]
    · intro sha
      simp [World.rotations,equal,Fact.rotates]
  | _ => cases other

-- What one more fact does to the counts.
structure Appended (s now : World) (fact : Fact) : Prop where
  consumptions : ∀ id, now.consumptions id = s.consumptions id + if fact.consumes id = true then 1 else 0
  redemptions : ∀ sha, now.redemptions sha = s.redemptions sha + if fact.redeems sha = true then 1 else 0
  grantings : ∀ sha, now.grantings sha = s.grantings sha + if fact.grants sha = true then 1 else 0
  issues : ∀ sha type, now.issues sha type = s.issues sha type + if fact.issues sha type = true then 1 else 0
  rotations : ∀ sha, now.rotations sha = s.rotations sha + if fact.rotates sha = true then 1 else 0

theorem appended (s now : World) {fact : Fact} (equal : now.log = s.log ++ [fact]) : Appended s now fact := by
  constructor <;> intros <;> simp only [World.consumptions,World.redemptions,World.grantings,World.issues,
    World.rotations,equal,countP_append_one]

end Counts

-- What each part of the invariant depends on.
section Frames
variable {kit : Kit} {s now : World}

theorem Sessions.frame (sessions : Sessions kit s)
    (rows : ∀ id row, now.sessions.get? id = some row → s.sessions.get? id = some row)
    (drawn : s.drawn ≤ now.drawn) (counts : ∀ id, now.consumptions id = s.consumptions id) : Sessions kit now := by
  refine ⟨?_,?_,?_⟩
  · intro id known
    have old : (s.sessions.get? id).isSome = true ∨ s.consumptions id ≠ 0 := by
      rcases known with there | counted
      · obtain ⟨row,found⟩ := Option.isSome_iff_exists.mp there
        exact .inl (Option.isSome_iff_exists.mpr ⟨row,rows id row found⟩)
      · exact .inr (counts id ▸ counted)
    obtain ⟨n,small,equal⟩ := sessions.drawn id old
    exact ⟨n,Nat.lt_of_lt_of_le small drawn,equal⟩
  · intro id row found pending
    rw [counts]
    exact sessions.pending id row (rows id row found) pending
  · intro id
    rw [counts]
    exact sessions.once id

theorem Codes.frame (codes : Codes kit s)
    (rows : ∀ sha row, now.codes.get? sha = some row → s.codes.get? sha = some row)
    (drawn : s.drawn ≤ now.drawn) (counts : ∀ sha, now.redemptions sha = s.redemptions sha) : Codes kit now := by
  refine ⟨?_,?_,?_⟩
  · intro sha known
    have old : (s.codes.get? sha).isSome = true ∨ s.redemptions sha ≠ 0 := by
      rcases known with there | counted
      · obtain ⟨row,found⟩ := Option.isSome_iff_exists.mp there
        exact .inl (Option.isSome_iff_exists.mpr ⟨row,rows sha row found⟩)
      · exact .inr (counts sha ▸ counted)
    obtain ⟨n,small,equal⟩ := codes.drawn sha old
    exact ⟨n,Nat.lt_of_lt_of_le small drawn,equal⟩
  · intro sha row found
    rw [counts]
    exact codes.fresh sha row (rows sha row found)
  · intro sha
    rw [counts]
    exact codes.once sha

theorem Unrefreshed.frame {grantId : String} (unrefreshed : Unrefreshed s grantId)
    (grants : ∀ grantId, (s.grants.get? grantId).isSome = true → (now.grants.get? grantId).isSome = true)
    (tokens : ∀ sha row, now.tokens.get? sha = some row → row.grantId = grantId → row.tokenType = .refresh →
      ∃ old, s.tokens.get? sha = some old ∧ old.grantId = grantId ∧ old.tokenType = .refresh) :
    Unrefreshed now grantId := by
  refine ⟨grants grantId unrefreshed.there,?_⟩
  intro sha row found same type
  obtain ⟨old,before,grant,refresh⟩ := tokens sha row found same type
  exact unrefreshed.none_ sha old before grant refresh

-- A holding keeps its due when its own code and grant are left alone.
structure Spared (s now : World) (a : Holding) : Prop where
  code : ∀ sha, a.code? = some sha → s.redemptions sha ≤ now.redemptions sha ∧ now.grantings sha = s.grantings sha ∧
    ∀ type, now.issues sha type = s.issues sha type
  grant : ∀ grantId, a.grant? = some grantId → Unrefreshed s grantId → Unrefreshed now grantId

theorem Due.spared {a : Holding} (due : Due s a) (spared : Spared s now a) : Due now a := by
  cases a with
  | code sha =>
    obtain ⟨redeemed,granted,access,refresh⟩ := due
    obtain ⟨more,same,issues⟩ := spared.code sha rfl
    refine ⟨?_,same.trans granted,(issues _).trans access,(issues _).trans refresh⟩
    omega
  | grant sha grantId =>
    obtain ⟨redeemed,access,refresh,unrefreshed⟩ := due
    obtain ⟨more,same,issues⟩ := spared.code sha rfl
    refine ⟨?_,(issues _).trans access,(issues _).trans refresh,spared.grant grantId rfl unrefreshed⟩
    omega
  | access sha grantId =>
    obtain ⟨redeemed,refresh,unrefreshed⟩ := due
    obtain ⟨more,same,issues⟩ := spared.code sha rfl
    refine ⟨?_,(issues _).trans refresh,spared.grant grantId rfl unrefreshed⟩
    omega

theorem Spared.of_same {a : Holding} (counts : SameExchanges s now)
    (grant : ∀ grantId, a.grant? = some grantId → Unrefreshed s grantId → Unrefreshed now grantId) : Spared s now a :=
  ⟨fun sha _ => ⟨Nat.le_of_eq (counts.redemptions sha).symm,counts.grantings sha,counts.issues sha⟩,grant⟩

-- The worker `k` comes to hold `next`, or nothing; the others hold what they held.
theorem Exchanges.take (exchanges : Exchanges s) {k : Nat} {next : Option Holding}
    (here : now.held.get? k = next) (others : ∀ j, j ≠ k → now.held.get? j = s.held.get? j)
    (unused : ∀ sha, now.redemptions sha = 0 → now.grantings sha = 0 ∧ ∀ type, now.issues sha type = 0)
    (once : ∀ sha, now.grantings sha ≤ 1 ∧ ∀ type, now.issues sha type ≤ 1)
    (due : ∀ a, next = some a → Due now a)
    (spared : ∀ j a, j ≠ k → s.held.get? j = some a → Spared s now a)
    (apart : ∀ j a b, j ≠ k → s.held.get? j = some a → next = some b → ¬ a.Clash b) : Exchanges now := by
  refine ⟨unused,once,?_,?_⟩
  · intro j a holds
    by_cases same : j = k
    · subst same
      exact due a (here.symm.trans holds)
    · rw [others j same] at holds
      exact (exchanges.due j a holds).spared (spared j a same holds)
  · intro i j a b left right clash
    by_cases first : i = k
    · by_cases second : j = k
      · exact first.trans second.symm
      · subst first
        rw [others j second] at right
        exact absurd clash.symm (apart j b a second right (here.symm.trans left))
    · by_cases second : j = k
      · subst second
        rw [others i first] at left
        exact absurd clash (apart i a b first left (here.symm.trans right))
      · rw [others i first] at left
        rw [others j second] at right
        exact exchanges.alone i j a b left right clash

theorem Exchanges.frame (exchanges : Exchanges s) (held : now.held = s.held) (counts : SameExchanges s now)
    (grant : ∀ k a grantId, s.held.get? k = some a → a.grant? = some grantId → Unrefreshed s grantId →
      Unrefreshed now grantId) : Exchanges now := by
  refine ⟨?_,?_,?_,?_⟩
  · intro sha
    rw [counts.redemptions,counts.grantings]
    simp only [counts.issues]
    exact exchanges.unused sha
  · intro sha
    rw [counts.grantings]
    simp only [counts.issues]
    exact exchanges.once sha
  · intro k a holds
    rw [held] at holds
    exact (exchanges.due k a holds).spared (.of_same counts (fun grantId => grant k a grantId holds))
  · rw [held]
    exact exchanges.alone

theorem Tokens.frame (tokens : Tokens s)
    (grants : ∀ grantId, (s.grants.get? grantId).isSome = true → (now.grants.get? grantId).isSome = true)
    (same : now.tokens = s.tokens) (counts : ∀ sha, now.rotations sha = s.rotations sha) : Tokens now := by
  refine ⟨?_,?_,?_,?_⟩
  · intro sha row found
    rw [same] at found
    exact grants _ (tokens.foreign sha row found)
  · rw [same]
    exact tokens.single
  · intro sha
    rw [counts]
    exact tokens.once sha
  · intro sha
    rw [counts,same]
    exact tokens.replaced sha

-- Calls that touch none of this.
structure Aside (s now : World) : Prop where
  sessions : ∀ id row, now.sessions.get? id = some row → s.sessions.get? id = some row
  codes : ∀ sha row, now.codes.get? sha = some row → s.codes.get? sha = some row
  grants : now.grants = s.grants
  tokens : now.tokens = s.tokens
  held : now.held = s.held
  drawn : s.drawn ≤ now.drawn
  counts : SameCounts s now
  clients : ∀ id, s.hasGrant id = true → (s.clients.get? id).isSome = true → (now.clients.get? id).isSome = true

theorem Aside.of_same (sessions : now.sessions = s.sessions) (codes : now.codes = s.codes) (grants : now.grants = s.grants)
    (tokens : now.tokens = s.tokens) (held : now.held = s.held) (drawn : s.drawn ≤ now.drawn)
    (counts : SameCounts s now) (clients : now.clients = s.clients) : Aside s now := by
  refine ⟨?_,?_,grants,tokens,held,drawn,counts,?_⟩
  · rw [sessions]
    exact fun _ _ found => found
  · rw [codes]
    exact fun _ _ found => found
  · rw [clients]
    exact fun _ _ there => there

theorem Custody.aside (custody : Custody kit s) (aside : Aside s now) : Custody kit now := by
  have grants : ∀ grantId, (s.grants.get? grantId).isSome = true → (now.grants.get? grantId).isSome = true := by
    rw [aside.grants]
    exact fun _ there => there
  refine ⟨custody.sessions.frame aside.sessions aside.drawn aside.counts.consumptions,
    custody.codes.frame aside.codes aside.drawn aside.counts.redemptions,?_,
    custody.tokens.frame grants aside.tokens aside.counts.rotations,?_⟩
  · refine custody.exchanges.frame aside.held aside.counts.toSameExchanges ?_
    intro _ _ _ _ _ unrefreshed
    refine unrefreshed.frame grants ?_
    rw [aside.tokens]
    exact fun _ row found same type => ⟨row,found,same,type⟩
  · intro grantId row found
    rw [aside.grants] at found
    exact aside.clients _ (hasGrant_iff.mpr ⟨grantId,row,found,rfl⟩) (custody.clients grantId row found)

end Frames
end MemWal.OAuth
