import MemWal.Mcp.Bridge

namespace MemWal.Mcp.Bridge
open Library

section Posts
variable {out : List RpcMessage} {reads : List Read} {sessions : List Session} {p : Post} {id : Id} {n : Nat} {m : RpcMessage}

-- A response or an error for `id` was written after the first `n` messages.
def Answered (out : List RpcMessage) (n : Nat) (id : Id) : Prop :=
  ∃ m ∈ out.drop n, m.id = some id ∧ State.isAnswer m = true

theorem Answered.grow (answered : Answered out n id) (more : List RpcMessage) : Answered (out ++ more) n id := by
  obtain ⟨m,member,answer⟩ := answered
  refine ⟨m,?_,answer⟩
  rw [List.drop_append]
  exact List.mem_append_left _ member

theorem answered_write (here : n ≤ out.length) (member : m ∈ more) (same : m.id = some id)
    (answer : State.isAnswer m = true) : Answered (out ++ more) n id := by
  refine ⟨m,?_,same,answer⟩
  rw [List.drop_append_of_le_length here]
  exact List.mem_append_right _ member

-- What a post carries, by what had been read, written and opened before it.
structure Post.Sound (reads : List Read) (out : List RpcMessage) (sessions : List Session) (p : Post) : Prop where
  written : p.written ≤ out.length
  opened : p.sessions ≤ sessions.length
  latest : (sessions.take p.sessions).getLast? = some p.session
  fresh : p.session.creds = p.creds ∨ ∀ x ∈ sessions.take p.sessions, x.generation < p.generation
  copied : ∃ r ∈ reads, r.line = p.line ∧ r.message = p.message ∧
    (p.replay = true → r.accountId = p.creds.accountId ∧ p.session.creds = p.creds ∧ r.sessions < p.sessions) ∧
    (r.accountId = p.creds.accountId ∨
      ∀ id, r.message.requestId = some id → Answered (out.take p.written) r.written id)

theorem Post.Sound.grow (sound : Post.Sound reads out sessions p) (rs : List Read) (ms : List RpcMessage)
    (xs : List Session) : Post.Sound (reads ++ rs) (out ++ ms) (sessions ++ xs) p := by
  obtain ⟨written,opened,latest,fresh,r,member,copied⟩ := sound
  refine ⟨by rw [List.length_append]; omega,by rw [List.length_append]; omega,?_,?_,r,List.mem_append_left _ member,?_⟩
  · rw [List.take_append_of_le_length opened]; exact latest
  · rw [List.take_append_of_le_length opened]; exact fresh
  · rw [List.take_append_of_le_length written]; exact copied

end Posts

-- Two posts of one line are a direct one and a replay, or replays to two sessions.
def Post.Apart (p q : Post) : Prop :=
  p.line = q.line → p.replay = q.replay → p.replay = true ∧ p.sessions ≠ q.sessions

namespace State

def left (s : State) : List (Id × Tracked) :=
  match s.reconnectPromise with
  | some (.replaying _ _ rest) => rest
  | _ => []

-- The handler of the line has yet to post it.
def Waiting (s : State) (n : Nat) (message : RpcMessage) : Prop :=
  ∃ round, s.lines.get? n = some (.joining round message) ∨ s.lines.get? n = some (.catchingUp round message)

-- Or it is at it.
def Due (s : State) (due : Option (Nat × RpcMessage)) (n : Nat) (message : RpcMessage) : Prop :=
  due = some (n,message) ∨ s.Waiting n message

-- What is kept for an id is a request as it was read, for the account of now.
def KeptAsRead (s : State) : Prop :=
  ∀ id t, s.inFlight.get? id = some t → t.message.requestId = some id ∧
    ∃ r ∈ s.reads, r.line = t.line ∧ r.message = t.message ∧ r.accountId = s.creds.accountId

-- Of requests with one id the last is kept.
def KeepsRequests (s : State) : Prop :=
  ∀ r ∈ s.reads, ∀ id, r.message.requestId = some id → Answered s.stdout r.written id ∨
    r.accountId = s.creds.accountId ∧ ∃ t, s.inFlight.get? id = some t ∧ r.line ≤ t.line

def SentAll (s : State) : Prop :=
  ∀ id t, s.inFlight.get? id = some t → s.Waiting t.line t.message ∨
    ∃ p ∈ s.posts, p.line = t.line ∧ p.message = t.message ∧ p.session = s.sse ∧ p.sessions = s.sessions.length

end State

structure Opened (s : State) : Prop where
  active : s.activeCredentialGeneration ≤ s.credentialGeneration
  current : s.sse.generation = s.activeCredentialGeneration
  latest : s.sessions.getLast? = some s.sse
  older : ∀ x ∈ s.sessions, x.generation ≤ s.activeCredentialGeneration
  own : s.sse.generation = s.credentialGeneration → s.sse.creds = s.creds
  opening : ∀ g c, s.reconnectPromise = some (.opening g c) →
    g ≤ s.credentialGeneration ∧ (g = s.credentialGeneration → c = s.creds)
  replaying : ∀ g c rest, s.reconnectPromise = some (.replaying g c rest) → s.sse.generation = g ∧ s.sse.creds = c

structure Recorded (s : State) : Prop where
  numbered : ∀ r ∈ s.reads, r.line < s.nextLine
  distinct : ∀ r ∈ s.reads, ∀ r' ∈ s.reads, r.line = r'.line → r = r'
  earlier : ∀ r ∈ s.reads, r.written ≤ s.stdout.length ∧ r.sessions ≤ s.sessions.length
  tracked : s.KeptAsRead
  kept : s.KeepsRequests

-- `due` is the line that is being handled right now.
structure Held (s : State) (due : Option (Nat × RpcMessage)) : Prop extends Opened s, Recorded s where
  waiting : ∀ n m, s.Due due n m → ∃ r ∈ s.reads, r.line = n ∧ r.message = m
  unposted : ∀ n m, s.Due due n m → ∀ p ∈ s.posts, p.line = n → p.replay = true
  left : ∀ e ∈ s.left, ∃ r ∈ s.reads, r.line = e.2.line ∧ r.message = e.2.message ∧
    r.accountId = s.sse.creds.accountId ∧ r.sessions < s.sessions.length
  unreplayed : ∀ e ∈ s.left, ∀ p ∈ s.posts, p.line = e.2.line → p.replay = true → p.sessions ≠ s.sessions.length
  once : (s.left.map (fun e => e.2.line)).Nodup
  served : ∀ id t, s.inFlight.get? id = some t → s.Due due t.line t.message ∨ (id,t) ∈ s.left ∨
    ∃ p ∈ s.posts, p.line = t.line ∧ p.sessions = s.sessions.length
  sound : ∀ p ∈ s.posts, p.Sound s.reads s.stdout s.sessions
  apart : s.posts.Pairwise Post.Apart

section Steps
variable {s next : State} {due : Option (Nat × RpcMessage)} {n : Nat} {m m' : RpcMessage} {line : Line}
variable {g : Nat} {c : Credentials} {rest : List (Id × Tracked)}

theorem Held.due_unique (held : Held s due) (one : s.Due due n m) (two : s.Due due n m') : m = m' := by
  obtain ⟨r,member,line,message⟩ := held.waiting n m one
  obtain ⟨r',member',line',message'⟩ := held.waiting n m' two
  have same := held.distinct r member r' member' (line.trans line'.symm)
  rw [← message,same,message']

theorem Held.relined (held : Held s due) (fewer : ∀ k m, State.Due {s with lines := lines} due' k m → s.Due due k m)
    (still : ∀ k m, s.Due due k m → State.Due {s with lines := lines} due' k m) : Held {s with lines := lines} due' := by
  refine {held with waiting := ?_,unposted := ?_,served := ?_}
  · intro k m waiting
    exact held.waiting k m (fewer k m waiting)
  · intro k m waiting
    exact held.unposted k m (fewer k m waiting)
  · intro id t found
    rcases held.served id t found with waiting | rest
    · exact .inl (still _ _ waiting)
    · exact .inr rest

theorem Held.handle (held : Held s none) (waiting : s.Waiting n m) : Held s (some (n,m)) := by
  refine held.relined ?_ ?_
  · intro k m' given
    rcases given with here | there
    · cases here
      exact .inr waiting
    · exact .inr there
  · intro k m' given
    rcases given with here | there
    · cases here
    · exact .inr there

-- The line waits for a reconnect.
theorem Held.wait (held : Held s (some (n,m))) (line : Line)
    (waits : ∃ round, line = .joining round m ∨ line = .catchingUp round m) :
    Held {s with lines := s.lines.upsert n line} none := by
  refine held.relined ?_ ?_
  · intro k m' given
    rcases given with here | ⟨round',there⟩
    · cases here
    · simp only [Store.get?_upsert] at there
      by_cases same : k = n
      · subst same
        rw [if_pos rfl,Option.some.injEq,Option.some.injEq] at there
        left
        obtain ⟨round,rfl | rfl⟩ := waits <;> rcases there with there | there <;> cases there <;> rfl
      · rw [if_neg same] at there
        exact .inr ⟨round',there⟩
  · intro k m' given
    obtain ⟨round,kind⟩ := waits
    right
    by_cases same : k = n
    · subst same
      have equal : m' = m := held.due_unique given (.inl rfl)
      subst equal
      refine ⟨round,?_⟩
      simpa only [Store.get?_upsert,if_true,Option.some.injEq] using kind
    · rcases given with here | ⟨round',there⟩
      · cases here
        exact absurd rfl same
      · exact ⟨round',by simpa only [Store.get?_upsert,if_neg same] using there⟩

-- Nothing waits where the line is not handled.
theorem Held.quiet (held : Held s none) (lines : Store Nat Line) (n : Nat)
    (others : ∀ k, k ≠ n → lines.get? k = s.lines.get? k) (before : ∀ m, ¬s.Waiting n m)
    (after : ∀ m, ¬State.Waiting {s with lines := lines} n m) : Held {s with lines := lines} none := by
  refine held.relined ?_ ?_
  · intro k m given
    rcases given with here | waiting
    · cases here
    · by_cases same : k = n
      · subst same
        exact absurd waiting (after m)
      · right
        simpa only [State.Waiting,others k same] using waiting
  · intro k m given
    rcases given with here | waiting
    · cases here
    · by_cases same : k = n
      · subst same
        exact absurd waiting (before m)
      · right
        simpa only [State.Waiting,others k same] using waiting

-- Only a replay leaves requests for later.
theorem left_other (other : ∀ g c rest, s.reconnectPromise ≠ some (.replaying g c rest)) : s.left = [] := by
  unfold State.left
  split
  · rename_i g c rest at_
    exact absurd at_ (other g c rest)
  · rfl

theorem Held.promised (held : Held s due) (stage : Option Reconnecting) (attempt round : Nat) (finished : s.left = [])
    (other : ∀ g c rest, stage ≠ some (.replaying g c rest))
    (opening : ∀ g c, stage = some (.opening g c) → g = s.credentialGeneration ∧ c = s.creds) :
    Held {s with reconnectAttempt := attempt,round := round,reconnectPromise := stage} due := by
  have none_left : State.left {s with reconnectAttempt := attempt,round := round,reconnectPromise := stage} = [] :=
    left_other other
  refine {held with opening := ?_,replaying := ?_,left := ?_,unreplayed := ?_,once := ?_,served := ?_}
  · intro g c at_
    obtain ⟨rfl,rfl⟩ := opening g c at_
    exact ⟨Nat.le_refl _,fun _ => rfl⟩
  · intro g c rest at_
    exact absurd at_ (other g c rest)
  · intro e member
    rw [none_left] at member
    cases member
  · intro e member
    rw [none_left] at member
    cases member
  · rw [none_left]
    exact List.nodup_nil
  · intro id t found
    rcases held.served id t found with waiting | member | posted
    · exact .inl waiting
    · rw [finished] at member
      cases member
    · exact .inr (.inr posted)

theorem Held.openSseStream (held : Held s due) (finished : s.left = []) : Held s.openSseStream due := by
  refine held.promised _ s.reconnectAttempt s.round finished ?_ ?_
  · intro g c rest
    split <;> simp
  · intro g c at_
    split at at_
    · cases at_
    · cases at_
      exact ⟨rfl,rfl⟩

theorem Held.reconnect (held : Held s due) (immediate : Bool) : Held (s.reconnect immediate).1 due := by
  unfold State.reconnect
  by_cases closed : s.stdinClosed = true
  · rw [if_pos closed]
    exact held
  rw [if_neg closed]
  cases promise : s.reconnectPromise with
  | some stage => exact held
  | none =>
    have finished : s.left = [] := left_other (fun g c rest => by rw [promise]; simp)
    have begun := held.promised s.reconnectPromise (s.reconnectAttempt + 1) (s.round + 1) finished
      (by simp [promise]) (by simp [promise])
    simp only [Option.isSome_none,Bool.false_eq_true,if_false]
    cases immediate with
    | true => exact begun.openSseStream finished
    | false => exact held.promised _ (s.reconnectAttempt + 1) (s.round + 1) finished (by simp) (by simp)

@[simp] theorem reconnect_lines (s : State) (immediate : Bool) : (s.reconnect immediate).1.lines = s.lines := by
  simp only [State.reconnect,State.openSseStream]
  grind

-- What any post of a line that was read carries.
theorem Held.post_sound (held : Held s due) {generation : Nat} {creds : Credentials} {replay : Bool}
    (fresh : s.sse.creds = creds ∨ s.sse.generation < generation)
    (copied : ∃ r ∈ s.reads, r.line = n ∧ r.message = m ∧
      (replay = true → r.accountId = creds.accountId ∧ s.sse.creds = creds ∧ r.sessions < s.sessions.length) ∧
      (r.accountId = creds.accountId ∨ ∀ id, r.message.requestId = some id → Answered s.stdout r.written id)) :
    Post.Sound s.reads s.stdout s.sessions
      ⟨s.sse,n,m,creds,generation,replay,s.stdout.length,s.sessions.length⟩ := by
  refine ⟨Nat.le_refl _,Nat.le_refl _,?_,?_,?_⟩
  · rw [List.take_length]
    exact held.latest
  · refine fresh.imp_right ?_
    intro behind x member
    rw [List.take_length] at member
    exact Nat.lt_of_le_of_lt (held.current ▸ held.older x member) behind
  · rw [List.take_length]
    exact copied

theorem Held.forward (held : Held s (some (n,m))) : Held (s.forward n m) none := by
  have elsewhere : ∀ k m', State.Due (s.forward n m) none k m' → k ≠ n ∧ s.Waiting k m' := by
    intro k m' given
    rcases given with here | ⟨round,there⟩
    · cases here
    · simp only [State.forward,State.post,Store.get?_upsert] at there
      by_cases same : k = n
      · rw [if_pos same] at there
        rcases there with there | there <;> cases there
      · rw [if_neg same] at there
        exact ⟨same,round,there⟩
  refine {held with waiting := ?_,unposted := ?_,unreplayed := ?_,served := ?_,sound := ?_,apart := ?_}
  · intro k m' given
    exact held.waiting k m' (.inr (elsewhere k m' given).2)
  · intro k m' given p member line
    obtain ⟨other,waiting⟩ := elsewhere k m' given
    rcases List.mem_append.mp member with old | new
    · exact held.unposted k m' (.inr waiting) p old line
    · rw [List.mem_singleton.mp new] at line
      exact absurd line.symm other
  · intro e member p posted line replay
    rcases List.mem_append.mp posted with old | new
    · exact held.unreplayed e member p old line replay
    · rw [List.mem_singleton.mp new] at replay
      cases replay
  · intro id t found
    have mine : t.line = n → ∃ p ∈ (s.forward n m).posts, p.line = t.line ∧ p.sessions = s.sessions.length := by
      intro same
      exact ⟨_,List.mem_append_right _ List.mem_cons_self,same.symm,rfl⟩
    rcases held.served id t found with (here | ⟨round,there⟩) | member | ⟨p,posted,rest⟩
    · cases here
      exact .inr (.inr (mine rfl))
    · by_cases same : t.line = n
      · exact .inr (.inr (mine same))
      · refine .inl (.inr ⟨round,?_⟩)
        simpa only [State.forward,State.post,Store.get?_upsert,if_neg same] using there
    · exact .inr (.inl member)
    · exact .inr (.inr ⟨p,List.mem_append_left _ posted,rest⟩)
  · intro p member
    rcases List.mem_append.mp member with old | new
    · exact held.sound p old
    · rw [List.mem_singleton.mp new]
      obtain ⟨r,read,line,message⟩ := held.waiting n m (.inl rfl)
      refine held.post_sound ?_ ⟨r,read,line,message,?_,?_⟩
      · rcases Nat.lt_or_eq_of_le held.active with behind | level
        · exact .inr (held.current ▸ behind)
        · exact .inl (held.own (held.current.trans level))
      · intro replay
        cases replay
      · by_cases account : r.accountId = s.creds.accountId
        · exact .inl account
        · right
          intro id named
          rcases held.kept r read id named with answered | kept
          · exact answered
          · exact absurd kept.1 account
  · refine List.pairwise_append.mpr ⟨held.apart,List.pairwise_singleton _ _,?_⟩
    intro p member q new line replay
    rw [List.mem_singleton.mp new] at line replay
    have replayed := held.unposted n m (.inl rfl) p member line
    rw [replayed] at replay
    cases replay

theorem Held.catchUp (held : Held s (some (n,m))) : Held (s.catchUp n m) none := by
  unfold State.catchUp
  by_cases behind : s.activeCredentialGeneration ≠ s.credentialGeneration
  · rw [if_pos behind]
    have waits := (held.reconnect true).wait (.catchingUp (s.reconnect true).2 m) ⟨_,.inr rfl⟩
    rw [reconnect_lines] at waits
    exact waits
  · rw [if_neg behind]
    exact held.forward

theorem Held.replayEntry (held : Held s none) (promise : s.reconnectPromise = some (.replaying g c rest)) :
    Held (s.replay g c rest) none := by
  obtain ⟨generation,creds⟩ := held.replaying g c rest promise
  have remaining : s.left = rest := by simp only [State.left,promise]
  cases rest with
  | nil =>
    unfold State.replay
    by_cases changed : g ≠ s.credentialGeneration
    · rw [if_pos changed]
      exact held.openSseStream remaining
    · rw [if_neg changed]
      exact held.promised _ s.reconnectAttempt s.round remaining (by simp) (by simp)
  | cons head rest =>
    obtain ⟨id,entry⟩ := head
    have once := held.once
    rw [remaining,List.map_cons,List.nodup_cons] at once
    have within : ∀ e ∈ rest, e ∈ s.left := by
      intro e member
      rw [remaining]
      exact List.mem_cons_of_mem _ member
    have first : (id,entry) ∈ s.left := by
      rw [remaining]
      exact List.mem_cons_self
    refine {held with
      opening := ?_,replaying := ?_,unposted := ?_,left := ?_,unreplayed := ?_,once := once.2,served := ?_,sound := ?_,apart := ?_}
    · intro g' c' at_
      cases at_
    · intro g' c' rest' at_
      cases at_
      exact ⟨generation,creds⟩
    · intro k m' given p member line
      rcases List.mem_append.mp member with old | new
      · exact held.unposted k m' given p old line
      · rw [List.mem_singleton.mp new]
    · intro e member
      exact held.left e (within e member)
    · intro e member p posted line replay
      rcases List.mem_append.mp posted with old | new
      · exact held.unreplayed e (within e member) p old line replay
      · rw [List.mem_singleton.mp new] at line
        exact absurd (List.mem_map.mpr ⟨e,member,line.symm⟩) once.1
    · intro id' t found
      rcases held.served id' t found with waiting | member | ⟨p,posted,rest⟩
      · exact .inl waiting
      · rw [remaining] at member
        rcases List.mem_cons.mp member with same | later
        · cases same
          exact .inr (.inr ⟨_,List.mem_append_right _ List.mem_cons_self,rfl,rfl⟩)
        · exact .inr (.inl later)
      · exact .inr (.inr ⟨p,List.mem_append_left _ posted,rest⟩)
    · intro p member
      rcases List.mem_append.mp member with old | new
      · exact held.sound p old
      · rw [List.mem_singleton.mp new]
        obtain ⟨r,read,line,message,account,before⟩ := held.left _ first
        rw [creds] at account
        exact held.post_sound (.inl creds) ⟨r,read,line,message,fun _ => ⟨account,creds,before⟩,.inl account⟩
    · refine List.pairwise_append.mpr ⟨held.apart,List.pairwise_singleton _ _,?_⟩
      intro p member q new line replay
      rw [List.mem_singleton.mp new] at line replay ⊢
      exact ⟨replay,held.unreplayed _ first p member line replay⟩

-- What is in flight when a session opens is replayed to it.
theorem Held.publish (held : Held s none) (promise : s.reconnectPromise = some (.opening g c))
    (level : g = s.credentialGeneration) (postUrl : String) :
    Held {s.publish g c postUrl with reconnectPromise := some (.replaying g c s.inFlight.entries)} none := by
  have creds := (held.opening g c promise).2 level
  have longer : s.sessions.length < (s.sessions ++ [(⟨postUrl,g,c⟩ : Session)]).length := by simp
  refine {held with
    active := ?_,current := rfl,latest := ?_,older := ?_,own := ?_,opening := ?_,replaying := ?_,earlier := ?_
    left := ?_,unreplayed := ?_,once := ?_,served := ?_,sound := ?_}
  · exact Nat.le_of_eq level
  · exact List.getLast?_concat
  · intro x member
    rcases List.mem_append.mp member with old | new
    · exact (held.older x old).trans (held.active.trans (Nat.le_of_eq level.symm))
    · rw [List.mem_singleton.mp new]
      exact Nat.le_refl _
  · intro _
    exact creds
  · intro g' c' at_
    cases at_
  · intro g' c' rest at_
    cases at_
    exact ⟨rfl,rfl⟩
  · intro r member
    obtain ⟨written,sessions⟩ := held.earlier r member
    exact ⟨written,sessions.trans (Nat.le_of_lt longer)⟩
  · intro e member
    obtain ⟨_,r,read,line,message,account⟩ := held.tracked e.1 e.2 (Store.get?_eq_some.mpr member)
    exact ⟨r,read,line,message,creds ▸ account,Nat.lt_of_le_of_lt (held.earlier r read).2 longer⟩
  · intro e _ p posted _ _ same
    have opened := (held.sound p posted).opened
    exact absurd same (Nat.ne_of_lt (Nat.lt_of_le_of_lt opened longer))
  · refine List.Nodup.map_on ?_ (List.Nodup.of_map Prod.fst s.inFlight.unique)
    intro e member e' member' same
    obtain ⟨named,r,read,line,message,_⟩ := held.tracked e.1 e.2 (Store.get?_eq_some.mpr member)
    obtain ⟨named',r',read',line',message',_⟩ := held.tracked e'.1 e'.2 (Store.get?_eq_some.mpr member')
    have one := held.distinct r read r' read' (line.trans (same.trans line'.symm))
    have ids : e.1 = e'.1 := by
      have both : some e.1 = some e'.1 := by rw [← named,← named',← message,← message',one]
      exact Option.some.inj both
    have found := Store.get?_eq_some.mpr member
    rw [ids,Store.get?_eq_some.mpr member'] at found
    exact Prod.ext ids (Option.some.inj found).symm
  · intro id t found
    exact .inr (.inl (Store.get?_eq_some.mp found))
  · intro p member
    have grown := (held.sound p member).grow [] [] [⟨postUrl,g,c⟩]
    rwa [List.append_nil,List.append_nil] at grown

theorem replay_promise (s : State) (g : Nat) (c : Credentials) (rest : List (Id × Tracked)) (stage : Option Reconnecting) :
    State.replay {s with reconnectPromise := stage} g c rest = s.replay g c rest := by
  cases rest <;> rfl

theorem Held.opened (held : Held s none) (promise : s.reconnectPromise = some (.opening g c)) (postUrl : String) :
    Held (s.opened g c postUrl) none := by
  unfold State.opened
  by_cases level : g = s.credentialGeneration
  · rw [if_neg (not_not.mpr level)]
    have replaying := (held.publish promise level postUrl).replayEntry rfl
    rw [replay_promise] at replaying
    exact replaying
  · rw [if_pos level]
    exact held.openSseStream (left_other (fun g c rest => by rw [promise]; simp))

theorem Held.track (held : Held s none) :
    Held ({s with nextLine := s.nextLine + 1}.track s.nextLine m) (some (s.nextLine,m)) := by
  have news : ∀ r ∈ ({s with nextLine := s.nextLine + 1}.track s.nextLine m).reads, r ∈ s.reads ∨
      r = ⟨s.nextLine,m,s.creds.accountId,s.stdout.length,s.sessions.length⟩ := by
    intro r member
    simpa only [State.track,List.mem_append,List.mem_singleton] using member
  have flight : ∀ id t, ({s with nextLine := s.nextLine + 1}.track s.nextLine m).inFlight.get? id = some t →
      s.inFlight.get? id = some t ∨ m.requestId = some id ∧ t = ⟨s.nextLine,m⟩ := by
    intro id t found
    simp only [State.track] at found
    cases named : m.requestId with
    | none =>
      rw [named] at found
      exact .inl found
    | some own =>
      simp only [named,Store.get?_upsert] at found
      by_cases same : id = own
      · rw [if_pos same] at found
        cases found
        exact .inr ⟨congrArg some same.symm,rfl⟩
      · rw [if_neg same] at found
        exact .inl found
  refine {held with
    numbered := ?_,distinct := ?_,earlier := ?_,tracked := ?_,kept := ?_,waiting := ?_,unposted := ?_,left := ?_
    served := ?_,sound := ?_}
  · intro r member
    rcases news r member with old | rfl
    · exact Nat.lt_succ_of_lt (held.numbered r old)
    · exact Nat.lt_succ_self _
  · intro r member r' member' line
    rcases news r member with old | rfl <;> rcases news r' member' with old' | rfl
    · exact held.distinct r old r' old' line
    · exact absurd line (Nat.ne_of_lt (held.numbered r old))
    · exact absurd line.symm (Nat.ne_of_lt (held.numbered r' old'))
    · rfl
  · intro r member
    rcases news r member with old | rfl
    · exact held.earlier r old
    · exact ⟨Nat.le_refl _,Nat.le_refl _⟩
  · intro id t found
    rcases flight id t found with old | ⟨named,rfl⟩
    · obtain ⟨named,r,read,rest⟩ := held.tracked id t old
      exact ⟨named,r,List.mem_append_left _ read,rest⟩
    · exact ⟨named,_,List.mem_append_right _ List.mem_cons_self,rfl,rfl,rfl⟩
  · intro r member id named
    by_cases mine : m.requestId = some id
    · have found : ({s with nextLine := s.nextLine + 1}.track s.nextLine m).inFlight.get? id = some ⟨s.nextLine,m⟩ := by
        simp only [State.track,mine,Store.get?_upsert,if_true]
      rcases news r member with old | rfl
      · rcases held.kept r old id named with answered | kept
        · exact .inl answered
        · exact .inr ⟨kept.1,_,found,Nat.le_of_lt (held.numbered r old)⟩
      · exact .inr ⟨rfl,_,found,Nat.le_refl _⟩
    · rcases news r member with old | rfl
      · rcases held.kept r old id named with answered | ⟨account,t,found,later⟩
        · exact .inl answered
        · refine .inr ⟨account,t,?_,later⟩
          simp only [State.track]
          split
          · rename_i own equal
            have differs : id ≠ own := fun same => mine (by rw [equal,same])
            rw [Store.get?_upsert,if_neg differs]
            exact found
          · exact found
      · exact absurd named mine
  · intro k m' given
    rcases given with here | there
    · cases here
      exact ⟨_,List.mem_append_right _ List.mem_cons_self,rfl,rfl⟩
    · obtain ⟨r,read,rest⟩ := held.waiting k m' (.inr there)
      exact ⟨r,List.mem_append_left _ read,rest⟩
  · intro k m' given p posted line
    rcases given with here | there
    · cases here
      obtain ⟨r,read,line',_⟩ := (held.sound p posted).copied
      exact absurd (line'.trans line) (Nat.ne_of_lt (held.numbered r read))
    · exact held.unposted k m' (.inr there) p posted line
  · intro e member
    obtain ⟨r,read,rest⟩ := held.left e member
    exact ⟨r,List.mem_append_left _ read,rest⟩
  · intro id t found
    rcases flight id t found with old | ⟨_,rfl⟩
    · rcases held.served id t old with (here | there) | rest
      · cases here
      · exact .inl (.inr there)
      · exact .inr rest
    · exact .inl (.inl rfl)
  · intro p posted
    have grown := (held.sound p posted).grow [⟨s.nextLine,m,s.creds.accountId,s.stdout.length,s.sessions.length⟩] [] []
    rwa [List.append_nil,List.append_nil] at grown

theorem Held.send (held : Held s none) : Held ({s with nextLine := s.nextLine + 1}.send s.nextLine m) none := by
  unfold State.send
  by_cases under : ({s with nextLine := s.nextLine + 1}.track s.nextLine m).reconnectPromise.isSome = true
  · rw [if_pos under]
    exact held.track.wait _ ⟨_,.inl rfl⟩
  · rw [if_neg under]
    exact held.track.catchUp

theorem Held.wrote (held : Held s due) (more : List RpcMessage) (pending : List Id) :
    Held {s with stdout := s.stdout ++ more,pendingListIds := pending} due := by
  refine {held with earlier := ?_,kept := ?_,sound := ?_}
  · intro r member
    obtain ⟨written,sessions⟩ := held.earlier r member
    refine ⟨?_,sessions⟩
    rw [List.length_append]
    exact written.trans (Nat.le_add_right _ _)
  · intro r member id named
    rcases held.kept r member id named with answered | kept
    · exact .inl (answered.grow more)
    · exact .inr kept
  · intro p posted
    have grown := (held.sound p posted).grow [] more []
    rwa [List.append_nil,List.append_nil] at grown

-- A request leaves the table when it has been answered.
theorem Held.settle (held : Held s due) (inFlight : Store Id Tracked)
    (fewer : ∀ id t, inFlight.get? id = some t → s.inFlight.get? id = some t)
    (gone : ∀ r ∈ s.reads, ∀ id, r.message.requestId = some id →
      inFlight.get? id = s.inFlight.get? id ∨ Answered s.stdout r.written id) :
    Held {s with inFlight := inFlight} due := by
  refine {held with tracked := ?_,kept := ?_,served := ?_}
  · intro id t found
    exact held.tracked id t (fewer id t found)
  · intro r member id named
    rcases gone r member id named with same | answered
    · rcases held.kept r member id named with answered | ⟨account,t,found,later⟩
      · exact .inl answered
      · exact .inr ⟨account,t,same.trans found,later⟩
    · exact .inl answered
  · intro id t found
    exact held.served id t (fewer id t found)

-- The message that is written keeps its id and whether it answers.
theorem splice_same (s : State) (m : RpcMessage) :
    (s.splice m).2.id = m.id ∧ State.isAnswer (s.splice m).2 = State.isAnswer m ∧
    ∃ pending, (s.splice m).1 = {s with pendingListIds := pending} := by
  unfold State.splice
  split
  · rename_i id members named result
    split
    · refine ⟨?_,?_,_,rfl⟩
      · dsimp only
        split <;> simp [named]
      · split
        · simp [State.isAnswer,result]
        · rfl
    · exact ⟨rfl,rfl,_,rfl⟩
  · refine ⟨rfl,rfl,?_⟩
    dsimp only
    split
    · exact ⟨_,rfl⟩
    · exact ⟨_,rfl⟩
  · exact ⟨rfl,rfl,_,rfl⟩

theorem Held.receive (held : Held s none) (m : RpcMessage) : Held (s.receive m) none := by
  unfold State.receive
  cases named : m.id with
  | none =>
    obtain ⟨_,_,pending,spliced⟩ := splice_same s m
    simp only [spliced]
    exact held.wrote _ pending
  | some id =>
    by_cases answer : State.isAnswer m = true
    · obtain ⟨same,kind,pending,spliced⟩ := splice_same {s with inFlight := s.inFlight.erase id} m
      simp only [if_pos answer,spliced]
      -- The entry goes first, but it is the answer written next that accounts for it.
      refine (held.wrote [_] pending).settle (s.inFlight.erase id) ?_ ?_
      · intro id' t found
        rw [Store.get?_erase] at found
        split at found
        · cases found
        · exact found
      · intro r member id' _
        by_cases its : id' = id
        · right
          exact answered_write (held.earlier r member).1 List.mem_cons_self (its ▸ same.trans named) (kind.trans answer)
        · left
          exact (Store.get?_erase s.inFlight id id').trans (if_neg its)
    · obtain ⟨_,_,pending,spliced⟩ := splice_same s m
      simp only [if_neg answer,spliced]
      exact held.wrote _ pending

theorem Held.refuseAll (held : Held s none) : Held s.refuseAll none := by
  have wrote := held.wrote (s.inFlight.keys.map State.changedAccount)
    (s.pendingListIds.filter (fun id => id ∉ s.inFlight.keys))
  refine wrote.settle .empty ?_ ?_
  · intro id t found
    rw [Store.get?_empty] at found
    cases found
  · intro r member id named
    cases found : s.inFlight.get? id with
    | none => exact .inl (Store.get?_empty id)
    | some t =>
      right
      have key : id ∈ s.inFlight.keys := List.mem_map.mpr ⟨_,Store.get?_eq_some.mp found,rfl⟩
      exact answered_write (held.earlier r member).1 (List.mem_map.mpr ⟨id,key,rfl⟩) rfl rfl

theorem Held.adopt (held : Held s none) (next : Credentials)
    (safe : next.accountId = s.creds.accountId ∨ s.inFlight = .empty) :
    Held {s with creds := next,credentialGeneration := s.credentialGeneration + 1,reconnectAttempt := 0} none := by
  have ahead : s.activeCredentialGeneration < s.credentialGeneration + 1 := Nat.lt_succ_of_le held.active
  refine {held with active := Nat.le_of_lt ahead,own := ?_,opening := ?_,tracked := ?_,kept := ?_}
  · intro level
    rw [held.current] at level
    exact absurd level (Nat.ne_of_lt ahead)
  · intro g c at_
    have within := (held.opening g c at_).1
    exact ⟨Nat.le_succ_of_le within,fun level => absurd level (Nat.ne_of_lt (Nat.lt_succ_of_le within))⟩
  · intro id t found
    obtain ⟨named,r,read,line,message,account⟩ := held.tracked id t found
    rcases safe with same | none_
    · exact ⟨named,r,read,line,message,account.trans same.symm⟩
    · rw [none_,Store.get?_empty] at found
      cases found
  · intro r member id named
    rcases held.kept r member id named with answered | ⟨account,t,found,later⟩
    · exact .inl answered
    · rcases safe with same | none_
      · exact .inr ⟨account.trans same.symm,t,found,later⟩
      · rw [none_,Store.get?_empty] at found
        cases found

theorem Held.adoptCredentials (held : Held s none) (k : Nat) (next : Credentials) :
    Held (s.adoptCredentials k next) none := by
  unfold State.adoptCredentials
  by_cases changed : s.creds.accountId ≠ next.accountId
  · simp only [if_pos changed]
    have reconnected := ((held.refuseAll).adopt next (.inr rfl)).reconnect true
    exact {reconnected with}
  · simp only [if_neg changed]
    have reconnected := (held.adopt next (.inl (not_not.mp changed).symm)).reconnect true
    exact {reconnected with}

theorem Held.handleClientLine (held : Held s none) (config : BridgeConfig) (text : String) (cleared : Except String Unit) :
    Held (s.handleClientLine config text cleared) none := by
  have later : Held {s with nextLine := s.nextLine + 1} none :=
    {held with numbered := fun r member => Nat.lt_succ_of_lt (held.numbered r member)}
  have unread : ∀ m, ¬s.Waiting s.nextLine m := by
    intro m waiting
    obtain ⟨r,read,line,_⟩ := held.waiting _ m (.inr waiting)
    exact absurd line (Nat.ne_of_lt (held.numbered r read))
  unfold State.handleClientLine
  cases config.parse text with
  | none => exact later
  | some message =>
    simp only
    split
    · rename_i id _ _ _
      refine later.quiet _ s.nextLine ?_ unread ?_
      · intro k other
        rw [Store.get?_upsert,if_neg other]
      · intro m waiting
        obtain ⟨round,there⟩ := waiting
        simp only [Store.get?_upsert,if_true] at there
        rcases there with there | there <;> cases there
    · exact later.wrote _ _
    · cases applyDefaultNamespace message config.defaultNamespace with
      | none => exact later
      | some filled => exact held.send

theorem Held.handled (held : Held s none) (n : Nat) (at_ : s.lines.get? n = some line)
    (idle : ∀ round m, line ≠ .joining round m ∧ line ≠ .catchingUp round m) (lines : Store Nat Line)
    (others : ∀ k, k ≠ n → lines.get? k = s.lines.get? k)
    (after : ∀ round m, lines.get? n ≠ some (.joining round m) ∧ lines.get? n ≠ some (.catchingUp round m)) :
    Held {s with lines := lines} none := by
  refine held.quiet lines n others ?_ ?_
  · intro m waiting
    obtain ⟨round,there⟩ := waiting
    rw [at_,Option.some.injEq,Option.some.injEq] at there
    exact there.elim (idle round m).1 (idle round m).2
  · intro m waiting
    obtain ⟨round,there⟩ := waiting
    exact there.elim (after round m).1 (after round m).2

theorem Held.drop (held : Held s none) (n : Nat) (at_ : s.lines.get? n = some line)
    (idle : ∀ round m, line ≠ .joining round m ∧ line ≠ .catchingUp round m) :
    Held {s with lines := s.lines.erase n} none := by
  refine held.handled n at_ idle _ ?_ ?_
  · intro k other
    rw [Store.get?_erase,if_neg other]
  · intro round m
    rw [Store.get?_erase,if_pos rfl]
    simp

theorem Held.posted (held : Held s none) (n : Nat) (status : Option Nat) (ran : s.posted n status = .ok next) :
    Held next none := by
  unfold State.posted at ran
  split at ran
  · rename_i at_
    split at ran
    · cases ran
      have still : (s.reconnect false).1.lines.get? n = some .posting := by
        rw [reconnect_lines]
        exact at_
      have missed := (held.reconnect false).handled n still (by simp)
        ((s.reconnect false).1.lines.upsert n (.stale (s.reconnect false).2)) ?_ ?_
      · rw [reconnect_lines] at missed
        exact missed
      · intro k other
        rw [Store.get?_upsert,if_neg other]
      · intro round m
        rw [Store.get?_upsert,if_pos rfl]
        simp
    · cases ran
      exact held.drop n at_ (by simp)
  · cases ran

theorem Held.resumeLine (held : Held s none) (n : Nat) (ran : s.resumeLine n = .ok next) : Held next none := by
  unfold State.resumeLine at ran
  split at ran
  · rename_i round message at_
    split at ran
    · cases ran
      exact (held.handle ⟨round,.inl at_⟩).catchUp
    · cases ran
  · rename_i round message at_
    split at ran
    · cases ran
      exact (held.handle ⟨round,.inr at_⟩).forward
    · cases ran
  · rename_i round at_
    split at ran
    · cases ran
      exact held.drop n at_ (by simp)
    · cases ran
  · cases ran

-- The ones that only the reconnect under way takes.
theorem Held.stage (held : Held s none) (stage : Option Reconnecting) (finished : s.left = [])
    (other : ∀ g c rest, stage ≠ some (.replaying g c rest)) (still : ∀ g c, stage ≠ some (.opening g c)) :
    Held {s with reconnectPromise := stage} none :=
  held.promised stage s.reconnectAttempt s.round finished other (fun g c at_ => absurd at_ (still g c))

theorem exec_held (config : BridgeConfig) (s : State) (act : Act) (next : State) (held : Held s none)
    (ran : exec config s act = .ok next) : Held next none := by
  cases act with
  | line text cleared =>
    simp only [exec] at ran
    split at ran
    · cases ran
    · cases ran
      exact held.handleClientLine config text cleared
  | close =>
    cases ran
    exact {held with}
  | loggedIn k creds =>
    simp only [exec] at ran
    split at ran
    · cases ran
    · cases ran
      exact held.adoptCredentials k creds
  | loginShown n text isError =>
    simp only [exec] at ran
    split at ran
    · rename_i id at_
      cases ran
      exact (held.wrote [_] s.pendingListIds).drop n at_ (by simp)
    · cases ran
  | message message =>
    simp only [exec] at ran
    split at ran
    · cases ran
    · cases ran
      exact held.receive message
  | eof =>
    simp only [exec] at ran
    split at ran
    · cases ran
    · cases ran
      exact {held.reconnect false with}
  | timer =>
    simp only [exec] at ran
    split at ran
    · rename_i promise
      cases ran
      exact held.openSseStream (left_other (fun g c rest => by rw [promise]; simp))
    · cases ran
  | opened postUrl =>
    simp only [exec] at ran
    split at ran
    · rename_i promise
      cases ran
      exact held.opened promise postUrl
    · cases ran
  | openFailed =>
    simp only [exec] at ran
    split at ran
    · rename_i promise
      cases ran
      exact held.stage _ (left_other (fun g c rest => by rw [promise]; simp)) (by simp) (by simp)
    · cases ran
  | replayed =>
    simp only [exec] at ran
    split at ran
    · rename_i promise
      cases ran
      exact held.replayEntry promise
    · cases ran
  | settled =>
    simp only [exec] at ran
    split at ran
    · rename_i promise
      cases ran
      exact held.stage _ (left_other (fun g c rest => by rw [promise]; simp)) (by simp) (by simp)
    · cases ran
  | posted n status => exact held.posted n status ran
  | resumeLine n => exact held.resumeLine n ran
  | resumeAdoption k =>
    simp only [exec] at ran
    split at ran
    · split at ran
      · cases ran
        have taken : Held {s with adoptions := s.adoptions.erase k} none := {held with}
        split
        · exact taken.reconnect true
        · exact taken
      · cases ran
    · cases ran
  | resumePump =>
    simp only [exec] at ran
    split at ran
    · split at ran
      · cases ran
        exact {held with}
      · cases ran
    · cases ran

end Steps

theorem start_held (creds : Credentials) (postUrl : String) : Held (runBridge creds postUrl) none := by
  have unread : ∀ n m, ¬(runBridge creds postUrl).Due none n m := by
    intro n m given
    rcases given with here | ⟨round,there | there⟩
    · cases here
    · cases there
    · cases there
  constructor
  case toOpened =>
    refine ⟨Nat.le_refl _,rfl,rfl,?_,fun _ => rfl,?_,?_⟩
    · intro x member
      rw [List.mem_singleton.mp member]
      exact Nat.le_refl _
    · intro g c at_
      cases at_
    · intro g c rest at_
      cases at_
  case toRecorded =>
    constructor
    case tracked =>
      intro id t found
      cases found
    all_goals
      intro r member
      cases member
  case waiting =>
    intro n m given
    exact absurd given (unread n m)
  case unposted =>
    intro n m given
    exact absurd given (unread n m)
  case once => exact List.nodup_nil
  case served =>
    intro id t found
    cases found
  case apart => exact List.Pairwise.nil
  all_goals
    intro x member
    cases member

section Runs
variable (config : BridgeConfig) (creds : Credentials) (postUrl : String) (acts : List Act) (i : Nat)

theorem held_at : Held (at_ config creds postUrl acts i) none :=
  Runs.invariant_before (I:=fun s => Held s none) (start_held creds postUrl) (exec_held config) acts i

-- No request is lost: each that was read has been answered since, or it, or a later
-- one of its id, is kept as it was read and for the account that it was read for.
-- While no reconnect is under way, the session that is open has been sent each that
-- is kept, or the handler of its line is about to send it.
theorem requests_kept :
    (at_ config creds postUrl acts i).KeepsRequests ∧ (at_ config creds postUrl acts i).KeptAsRead ∧
    ((at_ config creds postUrl acts i).reconnectPromise = none → (at_ config creds postUrl acts i).SentAll) := by
  have held := held_at config creds postUrl acts i
  refine ⟨held.kept,held.tracked,?_⟩
  intro idle id t found
  have finished : (at_ config creds postUrl acts i).left = [] := left_other (fun g c rest => by rw [idle]; simp)
  rcases held.served id t found with (here | waiting) | member | ⟨p,posted,line,newest⟩
  · cases here
  · exact .inl waiting
  · rw [finished] at member
    cases member
  · right
    have sound := held.sound p posted
    obtain ⟨_,r,read,line',message',_⟩ := held.tracked id t found
    obtain ⟨r',read',line'',message'',_⟩ := sound.copied
    have same := held.distinct r read r' read' (by rw [line',line'',line])
    have latest := sound.latest
    rw [newest,List.take_length,held.latest,Option.some.injEq] at latest
    exact ⟨p,posted,line,by rw [← message'',← message',same],latest.symm,newest⟩

-- Each post is a copy of a line that was read, and goes to the newest session. It
-- carries the credentials that the session was opened with, unless none has been
-- opened since they changed. A replay carries the account that the line was read
-- for, to a session opened after it; of the requests, only one that has been answered already
-- is sent under another account. No line is sent directly twice, or replayed twice
-- to one session.
theorem posts_sound :
    (∀ p ∈ (at_ config creds postUrl acts i).posts, p.Sound (at_ config creds postUrl acts i).reads
      (at_ config creds postUrl acts i).stdout (at_ config creds postUrl acts i).sessions) ∧
    (at_ config creds postUrl acts i).posts.Pairwise Post.Apart :=
  ⟨(held_at config creds postUrl acts i).sound,(held_at config creds postUrl acts i).apart⟩

end Runs

-- A line that waits while the account changes is refused, and is sent under the
-- new account all the same.
example :
    let call : RpcMessage := {id := some (.string "1"),method := some "tools/call"}
    let config : BridgeConfig := ⟨none,"~/.memwal/credentials.json",fun _ => some call⟩
    let s := at_ config ⟨"https://relayer","0xa","old"⟩ "/first"
      [.eof,.line "" (.ok ()),.loggedIn 0 ⟨"https://relayer","0xb","new"⟩,.timer,.opened "/second",.settled,.resumeLine 0] 7
    s.reads.map (fun r => r.accountId) = ["0xa"] ∧ s.stdout.map (fun m => m.id) = [some (.string "1")] ∧
      s.posts.map (fun p => (p.creds.accountId,p.session.postUrl,p.replay)) = [("0xb","/second",false)] := by
  decide

end MemWal.Mcp.Bridge
