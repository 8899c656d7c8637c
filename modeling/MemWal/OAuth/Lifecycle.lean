import MemWal.OAuth.Custody

namespace MemWal.OAuth
open Library Auth

-- A grant and its tokens are only inserted by the worker that has consumed the
-- code, one after the other; a rotation stays within the grant of its token.
def MayCall (s : World) (worker : Nat) : Op → Prop
  | .insertOauthGrant _ => ∃ sha, s.held.get? worker = some (.code sha)
  | .insertOauthToken _ token => ∃ sha type held, NextToken s worker token sha type held
  | .rotateOauthRefreshToken presented _ access refresh => access.tokenType = .access ∧ refresh.tokenType = .refresh ∧
    ∀ row, s.tokens.get? presented = some row → access.grantId = row.grantId ∧ refresh.grantId = row.grantId
  | _ => True

section Draws
variable {kit : Kit} {s : World}

theorem draw_new {start : String} {n : Nat} (small : n < s.drawn) :
    start ++ kit.random s.drawn ≠ start ++ kit.random n := by
  intro same
  have equal := kit.hash_random start _ _ (congrArg kit.hash same)
  omega

theorem hash_new {start : String} {n : Nat} (small : n < s.drawn) :
    kit.hash (start ++ kit.random s.drawn) ≠ kit.hash (start ++ kit.random n) := by
  intro same
  have equal := kit.hash_random start _ _ same
  omega

theorem Sessions.unconsumed (sessions : Sessions kit s) : s.consumptions (sessionIdPrefix ++ kit.random s.drawn) = 0 := by
  by_contra counted
  obtain ⟨n,small,same⟩ := sessions.drawn _ (.inr counted)
  exact draw_new small same

theorem Codes.unredeemed (codes : Codes kit s) : s.redemptions (kit.hash (codePrefix ++ kit.random s.drawn)) = 0 := by
  by_contra counted
  obtain ⟨n,small,same⟩ := codes.drawn _ (.inr counted)
  exact hash_new small same

end Draws

section Calls
variable {kit : Kit} {s : World} {worker : Nat}

theorem Custody.draw (custody : Custody kit s) (n : Nat) : Custody kit {s with drawn := s.drawn+n} :=
  custody.aside (.of_same rfl rfl rfl rfl rfl (Nat.le_add_right _ _) (sameCounts_of_log rfl) rfl)

theorem insertOauthClient_keeps (custody : Custody kit s) (client : ClientRow) :
    Custody kit (s.insertOauthClient kit client).1 := by
  rcases insertOauthClient_cases kit s client with equal | ⟨clientId,secret,fresh,equal⟩
  · rw [equal]
    exact custody.draw 2
  · rw [equal]
    refine custody.aside ⟨fun _ _ found => found,fun _ _ found => found,rfl,rfl,rfl,Nat.le_add_right _ _,
      sameCounts_of_append rfl rfl,?_⟩
    intro id _ there
    obtain ⟨row,found⟩ := Option.isSome_iff_exists.mp there
    exact Option.isSome_iff_exists.mpr ⟨row,get?_insert_old fresh found⟩

theorem insertOauthDelegate_keeps (custody : Custody kit s) (key : Bytes) (label : String) :
    Custody kit (s.insertOauthDelegate kit key label).1 := by
  rcases insertOauthDelegate_cases kit s key label with equal | ⟨encrypted,_,_,equal⟩
  · rw [equal]
    exact custody.draw 2
  · rw [equal]
    exact custody.aside (.of_same rfl rfl rfl rfl rfl (Nat.le_add_right _ _) (sameCounts_of_log rfl) rfl)

theorem insertOauthSession_keeps (custody : Custody kit s) (session : SessionRow) (query : AuthorizeQuery) :
    Custody kit (s.insertOauthSession kit session query).1 := by
  rcases insertOauthSession_cases kit s session query with equal | ⟨fresh,_,_,equal⟩
  · rw [equal]
    exact custody.draw 1
  have counts : SameCounts s (s.insertOauthSession kit session query).1 := by
    rw [equal]
    exact sameCounts_of_append rfl rfl
  rw [equal] at counts ⊢
  refine ⟨⟨?_,?_,?_⟩,custody.codes.frame (fun _ _ found => found) (Nat.le_succ _) counts.redemptions,
    custody.exchanges.frame rfl counts.toSameExchanges (fun _ _ _ _ _ unrefreshed => ⟨unrefreshed.there,unrefreshed.none_⟩),
    custody.tokens.frame (fun _ there => there) rfl counts.rotations,custody.clients⟩
  · intro id known
    by_cases same : id = sessionIdPrefix ++ kit.random s.drawn
    · exact ⟨s.drawn,Nat.lt_succ_self _,same⟩
    · rw [counts.consumptions] at known
      simp only [Store.get?_insert session fresh,if_neg same] at known
      obtain ⟨n,small,drawn⟩ := custody.sessions.drawn id known
      exact ⟨n,Nat.lt_succ_of_lt small,drawn⟩
  · intro id row found pending
    rw [counts.consumptions]
    by_cases same : id = sessionIdPrefix ++ kit.random s.drawn
    · rw [same]
      exact custody.sessions.unconsumed
    · simp only [Store.get?_insert session fresh,if_neg same] at found
      exact custody.sessions.pending id row found pending
  · intro id
    rw [counts.consumptions]
    exact custody.sessions.once id

theorem consumeOauthSession_keeps (custody : Custody kit s) (sessionId : String) :
    Custody kit (s.consumeOauthSession sessionId).1 := by
  rcases consumeOauthSession_cases s sessionId with equal | ⟨session,found,pending,_,equal⟩
  · rw [equal]
    exact custody
  have counts := appended s (s.consumeOauthSession sessionId).1
    (congrArg (fun result => result.1.log) equal)
  rw [equal] at counts ⊢
  have counted := custody.sessions.pending sessionId session found pending
  refine ⟨⟨?_,?_,?_⟩,?_,?_,?_,custody.clients⟩
  · intro id known
    by_cases same : id = sessionId
    · subst same
      exact custody.sessions.drawn id (.inl (by rw [found]; rfl))
    · refine custody.sessions.drawn id ?_
      rw [counts.consumptions] at known
      simpa [Store.get?_put found,same,Fact.consumes,Ne.symm same] using known
  · intro id row there open_
    rw [counts.consumptions]
    by_cases same : id = sessionId
    · subst same
      simp only [Store.get?_put found,if_true,Option.some.injEq] at there
      rw [← there] at open_
      cases open_
    · simp only [Store.get?_put found,if_neg same] at there
      simpa [Fact.consumes,Ne.symm same] using custody.sessions.pending id row there open_
  · intro id
    rw [counts.consumptions]
    by_cases same : id = sessionId
    · subst same
      simp [Fact.consumes,counted]
    · simpa [Fact.consumes,Ne.symm same] using custody.sessions.once id
  · refine custody.codes.frame (fun _ _ there => there) (Nat.le_refl _) ?_
    intro sha
    rw [counts.redemptions]
    simp [Fact.redeems]
  · refine custody.exchanges.frame rfl ⟨?_,?_,?_⟩ (fun _ _ _ _ _ unrefreshed => ⟨unrefreshed.there,unrefreshed.none_⟩)
    · intro sha
      simp [counts.redemptions,Fact.redeems]
    · intro sha
      simp [counts.grantings,Fact.grants]
    · intro sha type
      simp [counts.issues,Fact.issues]
  · refine custody.tokens.frame (fun _ there => there) rfl ?_
    intro sha
    rw [counts.rotations]
    simp [Fact.rotates]

theorem insertOauthCode_keeps (custody : Custody kit s) (code : CodeRow) :
    Custody kit (s.insertOauthCode kit code).1 := by
  rcases insertOauthCode_cases kit s code with equal | ⟨fresh,equal⟩
  · rw [equal]
    exact custody.draw 1
  have counts : SameCounts s (s.insertOauthCode kit code).1 := by
    rw [equal]
    exact sameCounts_of_append rfl rfl
  rw [equal] at counts ⊢
  refine ⟨custody.sessions.frame (fun _ _ found => found) (Nat.le_succ _) counts.consumptions,⟨?_,?_,?_⟩,
    custody.exchanges.frame rfl counts.toSameExchanges (fun _ _ _ _ _ unrefreshed => ⟨unrefreshed.there,unrefreshed.none_⟩),
    custody.tokens.frame (fun _ there => there) rfl counts.rotations,custody.clients⟩
  · intro sha known
    by_cases same : sha = kit.hash (codePrefix ++ kit.random s.drawn)
    · exact ⟨s.drawn,Nat.lt_succ_self _,same⟩
    · rw [counts.redemptions] at known
      simp only [Store.get?_insert code fresh,if_neg same] at known
      obtain ⟨n,small,drawn⟩ := custody.codes.drawn sha known
      exact ⟨n,Nat.lt_succ_of_lt small,drawn⟩
  · intro sha row found
    rw [counts.redemptions]
    by_cases same : sha = kit.hash (codePrefix ++ kit.random s.drawn)
    · rw [same]
      exact custody.codes.unredeemed
    · simp only [Store.get?_insert code fresh,if_neg same] at found
      exact custody.codes.fresh sha row found
  · intro sha
    rw [counts.redemptions]
    exact custody.codes.once sha

theorem consumeOauthCode_keeps (custody : Custody kit s) (clientId sha : String) :
    Custody kit (s.consumeOauthCode worker clientId sha).1 := by
  rcases consumeOauthCode_cases s worker clientId sha with equal | ⟨code,found,_,_,equal⟩
  · rw [equal]
    exact custody
  have counts := appended s (s.consumeOauthCode worker clientId sha).1
    (congrArg (fun result => result.1.log) equal)
  rw [equal] at counts ⊢
  have counted := custody.codes.fresh sha code found
  obtain ⟨granted,issued⟩ := custody.exchanges.unused sha counted
  refine ⟨?_,⟨?_,?_,?_⟩,?_,?_,custody.clients⟩
  · refine custody.sessions.frame (fun _ _ there => there) (Nat.le_refl _) ?_
    intro id
    rw [counts.consumptions]
    simp [Fact.consumes]
  · intro other known
    by_cases same : other = sha
    · subst same
      exact custody.codes.drawn other (.inl (by rw [found]; rfl))
    · refine custody.codes.drawn other ?_
      rw [counts.redemptions] at known
      simpa [Store.get?_erase,same,Fact.redeems,Ne.symm same] using known
  · intro other row there
    simp only [Store.get?_erase] at there
    split at there
    · cases there
    · rename_i different
      rw [counts.redemptions]
      simpa [Fact.redeems,Ne.symm different] using custody.codes.fresh other row there
  · intro other
    rw [counts.redemptions]
    by_cases same : other = sha
    · subst same
      simp [Fact.redeems,counted]
    · simpa [Fact.redeems,Ne.symm same] using custody.codes.once other
  · -- Nobody holds a code that is still in the table.
    have apart : ∀ j a, s.held.get? j = some a → a.code? ≠ some sha := by
      intro j a holds same
      have due := custody.exchanges.due j a holds
      cases a with
      | code other =>
        cases same
        exact due.1 counted
      | grant other grantId =>
        cases same
        exact due.1 counted
      | access other grantId =>
        cases same
        exact due.1 counted
    refine @Exchanges.take _ _ custody.exchanges worker (some (.code sha)) (by simp) ?_ ?_ ?_ ?_ ?_ ?_
    · intro j other
      simp [other]
    · intro other
      simp only [counts.redemptions,counts.grantings,counts.issues,Nat.add_eq_zero_iff]
      intro none_
      simpa [Fact.grants,Fact.issues] using custody.exchanges.unused other none_.1
    · intro other
      simp only [counts.grantings,counts.issues]
      simpa [Fact.grants,Fact.issues] using custody.exchanges.once other
    · intro a same
      cases same
      simp only [Due,counts.redemptions,counts.grantings,counts.issues]
      simp [Fact.redeems,Fact.grants,Fact.issues,granted,issued]
    · intro j a _ _
      refine ⟨?_,?_⟩
      · intro other _
        simp only [counts.redemptions,counts.grantings,counts.issues]
        simp [Fact.grants,Fact.issues]
      · exact fun _ _ unrefreshed => ⟨unrefreshed.there,unrefreshed.none_⟩
    · intro j a b _ holds same clash
      cases same
      rcases clash with ⟨_,mine,code⟩ | ⟨_,_,grant⟩
      · cases code
        exact apart j a holds mine
      · cases grant
  · refine custody.tokens.frame (fun _ there => there) rfl ?_
    intro other
    rw [counts.rotations]
    simp [Fact.rotates]

-- What the others hold has another code and another grant.
theorem Custody.others (custody : Custody kit s) {mine : Holding} (holds : s.held.get? worker = some mine) {j : Nat}
    {a : Holding} (different : j ≠ worker) (theirs : s.held.get? j = some a) : ¬ a.Clash mine :=
  fun clash => different (custody.exchanges.alone j worker a mine theirs holds clash)

theorem insertOauthGrant_keeps (custody : Custody kit s) (grant : GrantRow) {sha : String}
    (holds : s.held.get? worker = some (.code sha)) : Custody kit (s.insertOauthGrant kit worker grant).1 := by
  rcases insertOauthGrant_cases kit s worker grant holds with equal | ⟨fresh,client,_,equal⟩
  · rw [equal]
    exact custody.draw 1
  have counts := appended s (s.insertOauthGrant kit worker grant).1
    (congrArg (fun result => result.1.log) equal)
  rw [equal] at counts ⊢
  obtain ⟨redeemed,granted,access,refresh⟩ : Due s (.code sha) := custody.exchanges.due worker _ holds
  have grants : ∀ grantId row, s.grants.get? grantId = some row →
      (s.grants.insert (grantIdPrefix ++ kit.random s.drawn) {grant with revokedAt := none}).get? grantId = some row :=
    fun _ _ found => get?_insert_old fresh found
  have there : ∀ grantId, (s.grants.get? grantId).isSome = true →
      ((s.grants.insert (grantIdPrefix ++ kit.random s.drawn) {grant with revokedAt := none}).get? grantId).isSome =
        true := by
    intro grantId some_
    obtain ⟨row,found⟩ := Option.isSome_iff_exists.mp some_
    exact Option.isSome_iff_exists.mpr ⟨row,grants grantId row found⟩
  have inserted : (s.grants.insert (grantIdPrefix ++ kit.random s.drawn) {grant with revokedAt := none}).get?
      (grantIdPrefix ++ kit.random s.drawn) = some {grant with revokedAt := none} := by
    rw [Store.get?_insert _ fresh,if_pos rfl]
  refine ⟨?_,?_,?_,?_,?_⟩
  · refine custody.sessions.frame (fun _ _ there => there) (Nat.le_succ _) ?_
    intro id
    rw [counts.consumptions]
    simp [Fact.consumes]
  · refine custody.codes.frame (fun _ _ there => there) (Nat.le_succ _) ?_
    intro other
    rw [counts.redemptions]
    simp [Fact.redeems]
  · refine @Exchanges.take _ _ custody.exchanges worker
      (some (.grant sha (grantIdPrefix ++ kit.random s.drawn))) (by simp) ?_ ?_ ?_ ?_ ?_ ?_
    · intro j other
      simp [other]
    · intro other
      simp only [counts.redemptions,counts.grantings,counts.issues]
      intro none_
      have before : s.redemptions other = 0 := by simpa [Fact.redeems] using none_
      have different : sha ≠ other := by
        intro given
        obtain rfl := given
        exact redeemed before
      simpa [Fact.grants,Fact.issues,different] using custody.exchanges.unused other before
    · intro other
      simp only [counts.grantings,counts.issues]
      by_cases same : sha = other
      · subst same
        simpa [Fact.grants,Fact.issues,granted] using (custody.exchanges.once sha).2
      · simpa [Fact.grants,Fact.issues,same] using custody.exchanges.once other
    · intro a same
      cases same
      simp only [Due,counts.redemptions,counts.issues]
      refine ⟨by simpa [Fact.redeems] using redeemed,by simpa [Fact.issues] using access,
        by simpa [Fact.issues] using refresh,⟨by rw [inserted]; rfl,?_⟩⟩
      intro token row found same
      have old := custody.tokens.foreign token row found
      rw [same,fresh] at old
      cases old
    · intro j a different theirs
      refine ⟨?_,?_⟩
      · intro other mine
        have apart : sha ≠ other := by
          intro given
          obtain rfl := given
          exact custody.others holds different theirs (.inl ⟨sha,mine,rfl⟩)
        simp only [counts.redemptions,counts.grantings,counts.issues]
        simp [Fact.redeems,Fact.grants,Fact.issues,apart]
      · exact fun grantId _ unrefreshed => ⟨there grantId unrefreshed.there,unrefreshed.none_⟩
    · intro j a b different theirs same clash
      cases same
      rcases clash with ⟨_,mine,code⟩ | ⟨_,mine,equal⟩
      · cases code
        exact custody.others holds different theirs (.inl ⟨sha,mine,rfl⟩)
      · cases equal
        have due := custody.exchanges.due j a theirs
        have known : (s.grants.get? (grantIdPrefix ++ kit.random s.drawn)).isSome = true := by
          cases a with
          | code other => cases mine
          | grant other grantId =>
            cases mine
            exact due.2.2.2.there
          | access other grantId =>
            cases mine
            exact due.2.2.there
        rw [fresh] at known
        cases known
  · refine custody.tokens.frame there rfl ?_
    intro other
    rw [counts.rotations]
    simp [Fact.rotates]
  · intro grantId row found
    rw [Store.get?_insert _ fresh] at found
    split at found
    · cases found
      exact client
    · exact custody.clients grantId row found

-- A token more, for a grant that others do not hold.
theorem insert_unrefreshed {sha grantId : String} {token : TokenRow} (fresh : s.tokens.get? sha = none)
    (other : token.tokenType = .refresh → token.grantId ≠ grantId) (unrefreshed : Unrefreshed s grantId) :
    ∀ h row, (s.tokens.insert sha {token with revokedAt := none}).get? h = some row → row.grantId = grantId →
      row.tokenType ≠ .refresh := by
  intro h row found same
  rw [Store.get?_insert _ fresh] at found
  split at found
  · cases found
    exact fun refresh => other refresh same
  · exact unrefreshed.none_ h row found same

theorem insertOauthToken_keeps (custody : Custody kit s) (start : String) (token : TokenRow) {sha : String}
    {type : TokenType} {held : Store Nat Holding} (next : NextToken s worker token sha type held) :
    Custody kit (s.insertOauthToken kit worker start token).1 := by
  rcases insertOauthToken_cases kit s worker start token next with equal | ⟨fresh,grant,equal⟩
  · rw [equal]
    exact custody.draw 1
  have counts := appended s (s.insertOauthToken kit worker start token).1 (congrArg (fun result => result.1.log) equal)
  rw [equal] at counts ⊢
  -- What the worker holds, and what it holds afterwards.
  obtain ⟨mine,after,holds,here,others,code,ofGrant,redeemed,unissued,later,unrefreshed,tokenType⟩ :
      ∃ mine after, s.held.get? worker = some mine ∧ held.get? worker = after ∧
        (∀ j, j ≠ worker → held.get? j = s.held.get? j) ∧ mine.code? = some sha ∧ mine.grant? = some token.grantId ∧
        s.redemptions sha ≠ 0 ∧ s.issues sha type = 0 ∧
        (∀ a, after = some a → type = .access ∧ a = .access sha token.grantId ∧ s.issues sha .refresh = 0) ∧
        Unrefreshed s token.grantId ∧ token.tokenType = type := by
    cases next with
    | access has isAccess =>
      obtain ⟨redeemed,access,refresh,unrefreshed⟩ := custody.exchanges.due worker _ has
      refine ⟨_,_,has,Store.get?_upsert _ _ _ _,fun j other => by simp [other],rfl,rfl,redeemed,access,?_,unrefreshed,
        isAccess⟩
      intro a same
      rw [if_pos rfl] at same
      cases same
      exact ⟨rfl,rfl,refresh⟩
    | refresh has isRefresh =>
      obtain ⟨redeemed,refresh,unrefreshed⟩ := custody.exchanges.due worker _ has
      refine ⟨_,_,has,Store.get?_erase _ _ _,fun j other => by simp [Store.get?_erase,other],rfl,rfl,redeemed,refresh,?_,
        unrefreshed,isRefresh⟩
      intro a same
      rw [if_pos rfl] at same
      cases same
  refine ⟨?_,?_,?_,⟨?_,?_,?_,?_⟩,custody.clients⟩
  · refine custody.sessions.frame (fun _ _ there => there) (Nat.le_succ _) ?_
    intro id
    rw [counts.consumptions]
    simp [Fact.consumes]
  · refine custody.codes.frame (fun _ _ there => there) (Nat.le_succ _) ?_
    intro other
    rw [counts.redemptions]
    simp [Fact.redeems]
  · refine custody.exchanges.take (k:=worker) here others ?_ ?_ ?_ ?_ ?_
    · intro other
      simp only [counts.redemptions,counts.grantings,counts.issues]
      intro none_
      have before : s.redemptions other = 0 := by simpa [Fact.redeems] using none_
      have different : sha ≠ other := by
        intro given
        obtain rfl := given
        exact redeemed before
      simpa [Fact.grants,Fact.issues,different] using custody.exchanges.unused other before
    · intro other
      simp only [counts.grantings,counts.issues]
      refine ⟨by simpa [Fact.grants] using (custody.exchanges.once other).1,?_⟩
      intro kind
      by_cases same : sha = other ∧ type = kind
      · obtain ⟨rfl,rfl⟩ := same
        simp [Fact.issues,unissued]
      · have off : Fact.issues other kind (.issued sha type (kit.hash (start ++ kit.random s.drawn))) = false := by
          simpa [Fact.issues] using same
        simpa [off] using (custody.exchanges.once other).2 kind
    · intro a same
      obtain ⟨rfl,rfl,refresh⟩ := later a same
      simp only [Due,counts.redemptions,counts.issues]
      refine ⟨by simpa [Fact.redeems] using redeemed,by simpa [Fact.issues] using refresh,unrefreshed.there,?_⟩
      refine insert_unrefreshed fresh ?_ unrefreshed
      intro refresh
      rw [tokenType] at refresh
      cases refresh
    · intro j a different theirs
      have apart := custody.others holds different theirs
      refine ⟨?_,?_⟩
      · intro other theirCode
        have differs : sha ≠ other := by
          intro given
          obtain rfl := given
          exact apart (.inl ⟨sha,theirCode,code⟩)
        simp only [counts.redemptions,counts.grantings,counts.issues]
        simp [Fact.redeems,Fact.grants,Fact.issues,differs]
      · intro grantId theirGrant unrefreshed
        refine ⟨unrefreshed.there,insert_unrefreshed fresh ?_ unrefreshed⟩
        intro _ given
        obtain rfl := given
        exact apart (.inr ⟨_,theirGrant,ofGrant⟩)
    · intro j a b different theirs same clash
      obtain ⟨_,rfl,_⟩ := later b same
      refine custody.others holds different theirs ?_
      rcases clash with ⟨h,theirCode,equal⟩ | ⟨g,theirGrant,equal⟩
      · exact .inl ⟨h,theirCode,code.trans equal⟩
      · exact .inr ⟨g,theirGrant,ofGrant.trans equal⟩
  · intro h row found
    rw [Store.get?_insert _ fresh] at found
    split at found
    · cases found
      exact grant
    · exact custody.tokens.foreign h row found
  · -- The token is the only refresh token of its grant, if it is one.
    intro a b left right foundLeft foundRight liveLeft liveRight same
    rw [Store.get?_insert _ fresh] at foundLeft foundRight
    split at foundLeft
    · rename_i first
      cases foundLeft
      split at foundRight
      · rename_i second
        exact first.trans second.symm
      · exact absurd liveRight.1 (unrefreshed.none_ b right foundRight same.symm)
    · split at foundRight
      · cases foundRight
        exact absurd liveLeft.1 (unrefreshed.none_ a left foundLeft same)
      · exact custody.tokens.single a b left right foundLeft foundRight liveLeft liveRight same
  · intro h
    rw [counts.rotations]
    simpa [Fact.rotates] using custody.tokens.once h
  · intro h rotated
    rw [counts.rotations] at rotated
    obtain ⟨row,found,type,revoked⟩ := custody.tokens.replaced h (by simpa [Fact.rotates] using rotated)
    exact ⟨row,get?_insert_old fresh found,type,revoked⟩

-- Tokens are only revoked.
structure Revoked (s now : World) : Prop where
  tokens : ∀ sha row, now.tokens.get? sha = some row → ∃ old, s.tokens.get? sha = some old ∧ old.grantId = row.grantId ∧
    old.tokenType = row.tokenType ∧ (row.revokedAt = none → old.revokedAt = none)
  kept : ∀ sha row, s.tokens.get? sha = some row → ∃ next, now.tokens.get? sha = some next ∧
    next.tokenType = row.tokenType ∧ (row.revokedAt ≠ none → next.revokedAt ≠ none)
  grants : ∀ grantId row, now.grants.get? grantId = some row → ∃ old, s.grants.get? grantId = some old ∧
    old.clientId = row.clientId
  there : ∀ grantId, (s.grants.get? grantId).isSome = true → (now.grants.get? grantId).isSome = true
  sessions : now.sessions = s.sessions
  codes : now.codes = s.codes
  clients : now.clients = s.clients
  held : now.held = s.held
  drawn : now.drawn = s.drawn
  log : now.log = s.log

theorem Custody.revoked {now : World} (custody : Custody kit s) (revoked : Revoked s now) : Custody kit now := by
  have counts : SameCounts s now := sameCounts_of_log revoked.log
  refine ⟨?_,?_,?_,⟨?_,?_,?_,?_⟩,?_⟩
  · refine custody.sessions.frame ?_ (Nat.le_of_eq revoked.drawn.symm) counts.consumptions
    rw [revoked.sessions]
    exact fun _ _ found => found
  · refine custody.codes.frame ?_ (Nat.le_of_eq revoked.drawn.symm) counts.redemptions
    rw [revoked.codes]
    exact fun _ _ found => found
  · refine custody.exchanges.frame revoked.held counts.toSameExchanges ?_
    intro _ _ _ _ _ unrefreshed
    refine unrefreshed.frame revoked.there ?_
    intro sha row found grant type
    obtain ⟨old,before,sameGrant,sameType,_⟩ := revoked.tokens sha row found
    exact ⟨old,before,sameGrant.trans grant,sameType.trans type⟩
  · intro sha row found
    obtain ⟨old,before,grant,_⟩ := revoked.tokens sha row found
    rw [← grant]
    exact revoked.there _ (custody.tokens.foreign sha old before)
  · intro a b left right foundLeft foundRight liveLeft liveRight same
    obtain ⟨oldLeft,beforeLeft,grantLeft,typeLeft,openLeft⟩ := revoked.tokens a left foundLeft
    obtain ⟨oldRight,beforeRight,grantRight,typeRight,openRight⟩ := revoked.tokens b right foundRight
    exact custody.tokens.single a b oldLeft oldRight beforeLeft beforeRight
      ⟨typeLeft.trans liveLeft.1,openLeft liveLeft.2⟩ ⟨typeRight.trans liveRight.1,openRight liveRight.2⟩
      (grantLeft.trans (same.trans grantRight.symm))
  · intro sha
    rw [counts.rotations]
    exact custody.tokens.once sha
  · intro sha rotated
    rw [counts.rotations] at rotated
    obtain ⟨row,found,type,gone⟩ := custody.tokens.replaced sha rotated
    obtain ⟨next,after,same,still⟩ := revoked.kept sha row found
    exact ⟨next,after,same.trans type,still gone⟩
  · intro grantId row found
    obtain ⟨old,before,client⟩ := revoked.grants grantId row found
    rw [revoked.clients,← client]
    exact custody.clients grantId old before

theorem revokeOauthToken_keeps (custody : Custody kit s) (sha : String) : Custody kit (s.revokeOauthToken sha) := by
  refine custody.revoked ⟨?_,?_,fun _ row found => ⟨row,found,rfl⟩,fun _ there => there,rfl,rfl,rfl,rfl,rfl,rfl⟩
  · intro h row found
    simp only [World.revokeOauthToken,get?_modify,Option.map_eq_some_iff] at found
    obtain ⟨old,before,equal⟩ := found
    refine ⟨old,before,?_⟩
    split at equal
    · rw [← equal]
      exact ⟨rfl,rfl,fun live => absurd live (Option.some_ne_none _)⟩
    · rw [equal]
      exact ⟨rfl,rfl,id⟩
  · intro h row found
    obtain ⟨next,after,_,type,_,still⟩ := (revokeOauthToken_later (s:=s) sha).tokens h row found
    exact ⟨next,after,type,still⟩

theorem revokeOauthGrant_keeps (custody : Custody kit s) (grantId : String) (missed : List String) :
    Custody kit (s.revokeOauthGrant grantId missed) := by
  have later := revokeOauthGrant_later (s:=s) grantId missed
  refine custody.revoked ⟨?_,?_,?_,?_,rfl,rfl,rfl,rfl,rfl,rfl⟩
  · intro h row found
    simp only [World.revokeOauthGrant,Store.get?_update,Option.map_eq_some_iff] at found
    obtain ⟨old,before,equal⟩ := found
    refine ⟨old,before,?_⟩
    split at equal
    · rw [← equal]
      exact ⟨rfl,rfl,fun live => absurd live (Option.some_ne_none _)⟩
    · rw [equal]
      exact ⟨rfl,rfl,id⟩
  · intro h row found
    obtain ⟨next,after,_,type,_,still⟩ := later.tokens h row found
    exact ⟨next,after,type,still⟩
  · intro g row found
    simp only [World.revokeOauthGrant,get?_modify,Option.map_eq_some_iff] at found
    obtain ⟨old,before,equal⟩ := found
    refine ⟨old,before,?_⟩
    split at equal
    · rw [← equal]
    · rw [equal]
  · intro g there
    obtain ⟨row,found⟩ := Option.isSome_iff_exists.mp there
    obtain ⟨next,after,_⟩ := later.grants g row found
    exact Option.isSome_iff_exists.mpr ⟨next,after⟩

theorem tokenWithDelegate_some {s : World} {sha : String} {row : TokenWithDelegateRow} :
    s.tokenWithDelegate sha = some row ↔ ∃ t g d, s.tokens.get? sha = some t ∧ s.grants.get? t.grantId = some g ∧
      s.delegates.get? g.delegateRef = some d ∧ row = ⟨sha,t.grantId,t.tokenType,t.expiresAt,t.revokedAt,g.clientId,
        g.accountId,g.ownerAddress,g.scope,g.revokedAt,g.delegateRef,d.encryptedPrivateKey,d.delegatePublicKey,
        d.status⟩ := by
  simp only [World.tokenWithDelegate,Option.bind_eq_bind,Option.bind_eq_some_iff,Option.some.injEq]
  constructor
  · intro found
    obtain ⟨t,foundT,g,foundG,d,foundD,rfl⟩ := found
    exact ⟨t,g,d,foundT,foundG,foundD,rfl⟩
  · intro found
    obtain ⟨t,g,d,foundT,foundG,foundD,rfl⟩ := found
    exact ⟨t,foundT,g,foundG,d,foundD,rfl⟩

-- A rotation, part by part: the token that it takes, and the two that it inserts for
-- the same grant.
structure Turns (s : World) (presented : String) (access refresh taken : TokenRow) : Prop where
  found : s.tokens.get? presented = some taken
  type : taken.tokenType = .refresh
  live : taken.revokedAt = none
  isAccess : access.tokenType = .access
  accessGrant : access.grantId = taken.grantId
  refreshGrant : refresh.grantId = taken.grantId

section Rotation
variable {presented clientId : String} {access refresh taken : TokenRow} {row : TokenWithDelegateRow}

theorem Rotates.turns (rotates : Rotates kit s presented clientId access refresh row)
    (within : MayCall s worker (.rotateOauthRefreshToken presented clientId access refresh)) :
    ∃ taken, Turns s presented access refresh taken := by
  obtain ⟨isAccess,_,within⟩ := within
  obtain ⟨taken,_,_,found,_,_,same⟩ := tokenWithDelegate_some.mp rotates.found
  obtain ⟨sameAccess,sameRefresh⟩ := within taken found
  have type := rotates.type
  have live := rotates.live
  rw [same] at type live
  exact ⟨taken,found,type,live,isAccess,sameAccess,sameRefresh⟩

-- Where a token comes from that is there after the rotation.
theorem Rotates.origin (rotates : Rotates kit s presented clientId access refresh row)
    (turns : Turns s presented access refresh taken) {sha : String} {token : TokenRow}
    (there : (afterRotation kit s presented access refresh).tokens.get? sha = some token) :
    (sha = kit.hash (refreshTokenPrefix ++ kit.random (s.drawn+1)) ∧ token = {refresh with revokedAt := none}) ∨
    token = {access with revokedAt := none} ∨ token = {taken with revokedAt := some s.clock} ∨
    sha ≠ presented ∧ s.tokens.get? sha = some token := by
  rw [rotates.get?] at there
  split at there
  · rename_i newest
    exact .inl ⟨newest,(Option.some.inj there).symm⟩
  · split at there
    · exact .inr (.inl (Option.some.inj there).symm)
    · obtain ⟨old,before,made⟩ := Option.map_eq_some_iff.mp there
      split at made
      · rename_i same
        rw [same,turns.found] at before
        cases before
        exact .inr (.inr (.inl made.symm))
      · rename_i different
        rw [made] at before
        exact .inr (.inr (.inr ⟨different,before⟩))

-- The grant of the token is not one that is being equipped.
theorem rotation_exchanges (exchanges : Exchanges s) (rotates : Rotates kit s presented clientId access refresh row)
    (turns : Turns s presented access refresh taken) : Exchanges (afterRotation kit s presented access refresh) := by
  have counts := appended s (afterRotation kit s presented access refresh) rfl
  refine exchanges.frame rfl ⟨?_,?_,?_⟩ ?_
  · intro sha
    simp [counts.redemptions,Fact.redeems]
  · intro sha
    simp [counts.grantings,Fact.grants]
  · intro sha type
    simp [counts.issues,Fact.issues]
  · intro _ _ grantId _ _ unrefreshed
    have other : taken.grantId ≠ grantId := fun equal => unrefreshed.none_ presented taken turns.found equal turns.type
    refine ⟨unrefreshed.there,?_⟩
    intro sha token there grant
    rcases rotates.origin turns there with ⟨_,rfl⟩ | rfl | rfl | ⟨_,before⟩
    · exact absurd (turns.refreshGrant.symm.trans grant) other
    · exact absurd (turns.accessGrant.symm.trans grant) other
    · exact absurd grant other
    · exact unrefreshed.none_ sha token before grant

theorem rotation_foreign (tokens : Tokens s) (rotates : Rotates kit s presented clientId access refresh row)
    (turns : Turns s presented access refresh taken) {sha : String} {token : TokenRow}
    (there : (afterRotation kit s presented access refresh).tokens.get? sha = some token) :
    (s.grants.get? token.grantId).isSome = true := by
  rcases rotates.origin turns there with ⟨_,rfl⟩ | rfl | rfl | ⟨_,before⟩
  · exact rotates.refreshGrant
  · exact rotates.accessGrant
  · exact tokens.foreign presented taken turns.found
  · exact tokens.foreign sha token before

-- A live refresh token is the new one, or one of another grant that was live before.
theorem rotation_live (tokens : Tokens s) (rotates : Rotates kit s presented clientId access refresh row)
    (turns : Turns s presented access refresh taken) {sha : String} {token : TokenRow}
    (there : (afterRotation kit s presented access refresh).tokens.get? sha = some token) (lives : token.Live) :
    (sha = kit.hash (refreshTokenPrefix ++ kit.random (s.drawn+1)) ∧ token.grantId = taken.grantId) ∨
      token.grantId ≠ taken.grantId ∧ s.tokens.get? sha = some token := by
  rcases rotates.origin turns there with ⟨newest,rfl⟩ | rfl | rfl | ⟨different,before⟩
  · exact .inl ⟨newest,turns.refreshGrant⟩
  · cases turns.isAccess.symm.trans lives.1
  · cases lives.2
  · refine .inr ⟨?_,before⟩
    intro grant
    exact different (tokens.single sha presented token taken before turns.found lives ⟨turns.type,turns.live⟩ grant)

theorem rotation_single (tokens : Tokens s) (rotates : Rotates kit s presented clientId access refresh row)
    (turns : Turns s presented access refresh taken) {a b : String} {left right : TokenRow}
    (foundLeft : (afterRotation kit s presented access refresh).tokens.get? a = some left)
    (foundRight : (afterRotation kit s presented access refresh).tokens.get? b = some right)
    (liveLeft : left.Live) (liveRight : right.Live) (equal : left.grantId = right.grantId) : a = b := by
  rcases rotation_live tokens rotates turns foundLeft liveLeft with ⟨first,mine⟩ | ⟨other,before⟩
  · rcases rotation_live tokens rotates turns foundRight liveRight with ⟨second,_⟩ | ⟨other,_⟩
    · exact first.trans second.symm
    · exact absurd (equal.symm.trans mine) other
  · rcases rotation_live tokens rotates turns foundRight liveRight with ⟨_,mine⟩ | ⟨_,after⟩
    · exact absurd (equal.trans mine) other
    · exact tokens.single a b left right before after liveLeft liveRight equal

theorem rotation_once (tokens : Tokens s) (turns : Turns s presented access refresh taken) (sha : String) :
    (afterRotation kit s presented access refresh).rotations sha ≤ 1 := by
  have counts := appended s (afterRotation kit s presented access refresh) rfl
  rw [counts.rotations]
  by_cases equal : presented = sha
  · subst equal
    have unrotated : s.rotations presented = 0 := by
      by_contra rotated
      obtain ⟨row,there,_,gone⟩ := tokens.replaced presented rotated
      cases turns.found.symm.trans there
      exact gone turns.live
    simp [Fact.rotates,unrotated]
  · simpa [Fact.rotates,equal] using tokens.once sha

theorem rotation_replaced (tokens : Tokens s) (rotates : Rotates kit s presented clientId access refresh row)
    (turns : Turns s presented access refresh taken) (later : Later s (afterRotation kit s presented access refresh))
    {sha : String} (rotated : (afterRotation kit s presented access refresh).rotations sha ≠ 0) :
    ∃ row, (afterRotation kit s presented access refresh).tokens.get? sha = some row ∧ row.tokenType = .refresh ∧
      row.revokedAt ≠ none := by
  by_cases equal : presented = sha
  · subst equal
    obtain ⟨next,after,_,type,_⟩ := later.tokens presented taken turns.found
    refine ⟨next,after,type.trans turns.type,?_⟩
    rcases rotates.origin turns after with ⟨same,_⟩ | rfl | rfl | ⟨different,_⟩
    · cases (same ▸ turns.found).symm.trans rotates.newRefresh
    · cases turns.isAccess.symm.trans (type.trans turns.type)
    · exact Option.some_ne_none _
    · exact absurd rfl different
  · have counts := appended s (afterRotation kit s presented access refresh) rfl
    rw [counts.rotations] at rotated
    obtain ⟨row,there,type,gone⟩ := tokens.replaced sha (by simpa [Fact.rotates,equal] using rotated)
    obtain ⟨next,after,_,same,_,still⟩ := later.tokens sha row there
    exact ⟨next,after,same.trans type,still gone⟩

end Rotation

theorem rotateOauthRefreshToken_keeps (custody : Custody kit s) {presented clientId : String} {access refresh : TokenRow}
    (within : MayCall s worker (.rotateOauthRefreshToken presented clientId access refresh)) :
    Custody kit (s.rotateOauthRefreshToken kit presented clientId access refresh).1 := by
  have later := @rotateOauthRefreshToken_later kit s presented clientId access refresh
  rcases rotate_cases kit s presented clientId access refresh with ⟨row,rotates,equal⟩ | ⟨equal,_⟩
  · rw [equal] at later ⊢
    have counts := appended s (afterRotation kit s presented access refresh) rfl
    obtain ⟨taken,turns⟩ := rotates.turns within
    refine ⟨?_,?_,rotation_exchanges custody.exchanges rotates turns,⟨?_,?_,?_,?_⟩,custody.clients⟩
    · refine custody.sessions.frame (fun _ _ there => there) (Nat.le_add_right _ _) ?_
      intro id
      rw [counts.consumptions]
      simp [Fact.consumes]
    · refine custody.codes.frame (fun _ _ there => there) (Nat.le_add_right _ _) ?_
      intro sha
      rw [counts.redemptions]
      simp [Fact.redeems]
    · exact fun sha token there => rotation_foreign custody.tokens rotates turns there
    · exact fun a b left right foundLeft foundRight => rotation_single custody.tokens rotates turns foundLeft foundRight
    · exact rotation_once custody.tokens turns
    · exact fun sha rotated => rotation_replaced custody.tokens rotates turns later rotated
  · rw [equal]
    exact custody.draw 2

theorem commit_keeps (custody : Custody kit s) {op : Op} (allowed : MayCall s worker op) (c : Choice) :
    Custody kit (commit kit s worker op c).1 := by
  cases op with
  | insertOauthClient client => exact insertOauthClient_keeps custody client
  | insertOauthDelegate key label => exact insertOauthDelegate_keeps custody key label
  | activateOauthDelegate delegateRef accountId ownerAddress txDigest =>
    exact custody.aside (.of_same rfl rfl rfl rfl rfl (Nat.le_refl _) (sameCounts_of_log rfl) rfl)
  | insertOauthSession session query => exact insertOauthSession_keeps custody session query
  | consumeOauthSession sessionId => exact consumeOauthSession_keeps custody sessionId
  | insertOauthCode code => exact insertOauthCode_keeps custody code
  | consumeOauthCode clientId sha => exact consumeOauthCode_keeps custody clientId sha
  | insertOauthGrant grant =>
    obtain ⟨sha,holds⟩ := allowed
    exact insertOauthGrant_keeps custody grant holds
  | insertOauthToken start token =>
    obtain ⟨sha,type,held,next⟩ := allowed
    exact insertOauthToken_keeps custody start token next
  | revokeOauthToken sha => exact revokeOauthToken_keeps custody sha
  | revokeOauthGrant grantId => exact revokeOauthGrant_keeps custody grantId c.missed
  | rotateOauthRefreshToken presented clientId access refresh => exact rotateOauthRefreshToken_keeps custody allowed
  | incrRegistrations key =>
    exact custody.aside (.of_same rfl rfl rfl rfl rfl (Nat.le_refl _) (sameCounts_of_log rfl) rfl)
  | _ => exact custody

theorem serve_keeps (custody : Custody kit s) {op : Op} (allowed : MayCall s worker op) (c : Choice) :
    Custody kit (serve kit s worker op c).1 := by
  rcases serve_state kit s worker op c with equal | equal
  · rw [equal]
    exact custody
  · rw [equal]
    exact commit_keeps custody allowed c

theorem abandon_keeps (custody : Custody kit s) (worker : Nat) : Custody kit {s with held := s.held.erase worker} := by
  refine ⟨custody.sessions.frame (fun _ _ found => found) (Nat.le_refl _) (fun _ => rfl),
    custody.codes.frame (fun _ _ found => found) (Nat.le_refl _) (fun _ => rfl),?_,
    custody.tokens.frame (fun _ there => there) rfl (fun _ => rfl),custody.clients⟩
  refine @Exchanges.take _ _ custody.exchanges worker none (by simp [Store.get?_erase]) ?_
    custody.exchanges.unused custody.exchanges.once nofun ?_ nofun
  · intro j other
    simp [Store.get?_erase,other]
  · intro j a _ _
    exact .of_same ⟨fun _ => rfl,fun _ => rfl,fun _ _ => rfl⟩ (fun _ _ unrefreshed => ⟨unrefreshed.there,unrefreshed.none_⟩)

theorem happen_keeps (custody : Custody kit s) (event : Event) : Custody kit (happen s event) := by
  cases event with
  | clock now => exact custody.aside (.of_same rfl rfl rfl rfl rfl (Nat.le_refl _) (sameCounts_of_log rfl) rfl)
  | object objectId content =>
    cases content <;>
      exact custody.aside (.of_same rfl rfl rfl rfl rfl (Nat.le_refl _) (sameCounts_of_log rfl) rfl)
  | forgetRegistrations key =>
    exact custody.aside (.of_same rfl rfl rfl rfl rfl (Nat.le_refl _) (sameCounts_of_log rfl) rfl)
  | evictExpiredOauthSessions =>
    refine custody.aside ⟨fun _ _ found => (Store.get?_keep.mp found).1,fun _ _ found => found,rfl,rfl,rfl,
      Nat.le_refl _,sameCounts_of_log rfl,fun _ _ there => there⟩
  | evictExpiredOauthCodes =>
    refine custody.aside ⟨fun _ _ found => found,fun _ _ found => (Store.get?_keep.mp found).1,rfl,rfl,rfl,
      Nat.le_refl _,sameCounts_of_log rfl,fun _ _ there => there⟩
  | pruneUnconsumedOauthClients =>
    refine custody.aside ⟨fun _ _ found => (Store.get?_keep.mp found).1,fun _ _ found => found,rfl,rfl,rfl,
      Nat.le_refl _,sameCounts_of_log rfl,?_⟩
    intro id has there
    obtain ⟨row,found⟩ := Option.isSome_iff_exists.mp there
    have kept := (happen_later (s:=s) .pruneUnconsumedOauthClients).clients id row found has
    exact Option.isSome_iff_exists.mpr ⟨row,kept⟩

end Calls
end MemWal.OAuth
