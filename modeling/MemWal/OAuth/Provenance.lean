import MemWal.OAuth.Conduct

namespace MemWal.OAuth
open Library Auth

section Scopes

theorem supported_word {scope : String} (supported : scope ∈ supportedScopes) : Text.Word scope.toList := by
  simp only [supportedScopes,List.mem_cons,List.not_mem_nil,or_false] at supported
  rcases supported with rfl | rfl | rfl
  · exact .of_all (by decide) (by decide)
  · exact .of_all (by decide) (by decide)
  · exact .of_all (by decide) (by decide)

theorem collectScopes_mem {raw collected scopes : List String} (equal : collectScopes collected raw = some scopes)
    {scope : String} (member : scope ∈ scopes) : scope ∈ collected ∨ scope ∈ raw ∧ scope ∈ supportedScopes := by
  induction raw generalizing collected with
  | nil =>
    cases equal
    exact .inl member
  | cons first rest ih =>
    unfold collectScopes at equal
    split at equal
    · cases equal
    · rename_i supported
      rw [Decidable.not_not] at supported
      rcases ih equal with before | ⟨later,known⟩
      · split at before
        · exact .inl before
        · rcases List.mem_append.mp before with old | new
          · exact .inl old
          · cases List.mem_singleton.mp new
            exact .inr ⟨List.mem_cons_self,supported⟩
      · exact .inr ⟨List.mem_cons_of_mem _ later,known⟩

theorem splitWhitespace_join {scopes : List String} (supported : ∀ scope ∈ scopes, scope ∈ supportedScopes) :
    splitWhitespace (joinScopes scopes) = scopes := by
  simp only [splitWhitespace,joinScopes,String.toList_ofList]
  rw [Text.words_join,List.map_map]
  · simp [Function.comp_def]
  · intro word member
    obtain ⟨scope,listed,rfl⟩ := List.mem_map.mp member
    exact supported_word (supported scope listed)

-- A normalized scope is made of words of the raw one.
theorem normalizeScopes_words {raw scope word : String} (equal : normalizeScopes raw = .ok scope)
    (member : word ∈ splitWhitespace scope) : word ∈ splitWhitespace raw := by
  unfold normalizeScopes at equal
  split at equal
  · cases equal
  · cases equal
  · rename_i scopes _ collected
    cases equal
    have each : ∀ scope ∈ scopes, scope ∈ splitWhitespace raw ∧ scope ∈ supportedScopes := by
      intro scope listed
      rcases collectScopes_mem collected listed with none_ | known
      · cases none_
      · exact known
    rw [splitWhitespace_join (fun scope listed => (each scope listed).2)] at member
    exact (each word member).1

theorem checkScope_words {query : AuthorizeQuery} {client : ClientRow} {scope word : String}
    (equal : checkScope query client = .ok scope) (member : word ∈ splitWhitespace scope) :
    word ∈ splitWhitespace (requestedScope query client) ∧ word ∈ splitWhitespace client.scope := by
  unfold checkScope at equal
  split at equal
  · rename_i normalized ok
    split at equal
    · rename_i subset
      cases equal
      have inside := List.all_eq_true.mp subset word member
      exact ⟨normalizeScopes_words ok member,of_decide_eq_true inside⟩
    · cases equal
  · cases equal

end Scopes

-- A session that `authorize` opens for a query, given the client's row.
structure Opened (kit : Kit) (cfg : McpOAuthConfig) (query : AuthorizeQuery) (client : ClientRow) (session : SessionRow) :
    Prop where
  sameClient : session.clientId = query.clientId
  redirectUri : matchingUri kit query client = some session.redirectUri
  state : session.state = query.state
  scope : checkScope query client = .ok session.scope
  resource : checkQuery kit cfg query = .ok session.resource
  codeChallenge : session.codeChallenge = query.codeChallenge
  pending : session.status = .pending

-- A delegate row that holds the key pair `n`.
structure Sealed (kit : Kit) (cfg : McpOAuthConfig) (n : Nat) (row : DelegateRow) : Prop where
  publicKey : row.delegatePublicKey = (kit.keyPair n).publicKey
  address : row.delegateAddress = (kit.keyPair n).address
  envelope : kit.encrypt cfg.encryptionKey n (kit.keyPair n).privateKey = some row.encryptedPrivateKey

-- The code of a session.
structure Coded (session : SessionRow) (code : CodeRow) : Prop where
  sameClient : code.clientId = session.clientId
  redirectUri : code.redirectUri = session.redirectUri
  scope : code.scope = session.scope
  resource : code.resource = session.resource
  codeChallenge : code.codeChallenge = session.codeChallenge

def grantOf (code : CodeRow) : GrantRow :=
  ⟨code.clientId,code.delegateRef,code.accountId,code.ownerAddress,code.scope,code.resource,none⟩

-- Where each record comes from.
structure Descent (kit : Kit) (cfg : McpOAuthConfig) (s : World) : Prop where
  clients : ∀ clientId row, s.clients.get? clientId = some row → .registered clientId row ∈ s.log
  delegates : ∀ delegateRef row, s.delegates.get? delegateRef = some row → ∃ n, Sealed kit cfg n row
  opened : ∀ id session query, .opened id session query ∈ s.log →
    ∃ client, .registered query.clientId client ∈ s.log ∧ Opened kit cfg query client session
  sessions : ∀ id row, s.sessions.get? id = some row → ∃ session query, .opened id session query ∈ s.log ∧
    row = {session with status := row.status}
  consumed : ∀ id row, .sessionConsumed id row ∈ s.log → ∃ session query, .opened id session query ∈ s.log ∧
    row = {session with status := .consumed}
  completed : ∀ sha code, .completed sha code ∈ s.log →
    ∃ id session, .sessionConsumed id session ∈ s.log ∧ Coded session code
  codes : ∀ sha code, s.codes.get? sha = some code → .completed sha code ∈ s.log
  redeemed : ∀ sha code, .codeConsumed sha code ∈ s.log → .completed sha code ∈ s.log
  grants : ∀ grantId row, s.grants.get? grantId = some row →
    ∃ sha code, .codeConsumed sha code ∈ s.log ∧ row.terms = grantOf code

-- What each endpoint knows when it makes a call.
def MayRecord (kit : Kit) (cfg : McpOAuthConfig) (s : World) : Op → Prop
  | .insertOauthDelegate key _ => key = cfg.encryptionKey
  | .insertOauthSession session query =>
    ∃ client, .registered query.clientId client ∈ s.log ∧ Opened kit cfg query client session
  | .insertOauthCode code => ∃ id session, .sessionConsumed id session ∈ s.log ∧ Coded session code
  | .insertOauthGrant grant => ∃ sha code, .codeConsumed sha code ∈ s.log ∧ grant = grantOf code
  | .activateOauthDelegate _ accountId _ _ => ∃ raw, sanitizeSuiObjectId raw = .ok accountId
  | _ => True

section Calls
variable {kit : Kit} {cfg : McpOAuthConfig} {s now : World} {worker : Nat}

-- Where the records come from when the log has grown: only what is new is to be shown.
theorem Descent.grow (descent : Descent kit cfg s) {more : List Fact} (log : now.log = s.log ++ more)
    (clients : ∀ clientId row, now.clients.get? clientId = some row →
      s.clients.get? clientId = some row ∨ .registered clientId row ∈ more)
    (delegates : ∀ delegateRef row, now.delegates.get? delegateRef = some row →
      (∃ old, s.delegates.get? delegateRef = some old ∧ old.delegatePublicKey = row.delegatePublicKey ∧
        old.delegateAddress = row.delegateAddress ∧ old.encryptedPrivateKey = row.encryptedPrivateKey) ∨
      ∃ n, Sealed kit cfg n row)
    (opened : ∀ id session query, .opened id session query ∈ more →
      ∃ client, .registered query.clientId client ∈ s.log ∧ Opened kit cfg query client session)
    (sessions : ∀ id row, now.sessions.get? id = some row →
      (∃ old, s.sessions.get? id = some old ∧ row = {old with status := row.status}) ∨
      ∃ query, .opened id row query ∈ more)
    (consumed : ∀ id row, .sessionConsumed id row ∈ more →
      ∃ old, s.sessions.get? id = some old ∧ row = {old with status := .consumed})
    (completed : ∀ sha code, .completed sha code ∈ more →
      ∃ id session, .sessionConsumed id session ∈ s.log ∧ Coded session code)
    (codes : ∀ sha code, now.codes.get? sha = some code → s.codes.get? sha = some code ∨ .completed sha code ∈ more)
    (redeemed : ∀ sha code, .codeConsumed sha code ∈ more → s.codes.get? sha = some code)
    (grants : ∀ grantId row, now.grants.get? grantId = some row →
      (∃ old, s.grants.get? grantId = some old ∧ row.terms = old.terms) ∨
      ∃ sha code, .codeConsumed sha code ∈ s.log ∧ row.terms = grantOf code) : Descent kit cfg now := by
  have old : ∀ {fact}, fact ∈ s.log → fact ∈ now.log := fun known => log ▸ List.mem_append_left _ known
  have new : ∀ {fact}, fact ∈ more → fact ∈ now.log := fun known => log ▸ List.mem_append_right _ known
  have either : ∀ {fact}, fact ∈ now.log → fact ∈ s.log ∨ fact ∈ more :=
    fun known => List.mem_append.mp (log ▸ known)
  refine ⟨?_,?_,?_,?_,?_,?_,?_,?_,?_⟩
  · intro clientId row found
    rcases clients clientId row found with before | fresh
    · exact old (descent.clients clientId row before)
    · exact new fresh
  · intro delegateRef row found
    rcases delegates delegateRef row found with ⟨before,there,key,address,envelope⟩ | fresh
    · obtain ⟨n,sealed⟩ := descent.delegates delegateRef before there
      exact ⟨n,key ▸ sealed.publicKey,address ▸ sealed.address,envelope ▸ sealed.envelope⟩
    · exact fresh
  · intro id session query known
    have fact : ∃ client, .registered query.clientId client ∈ s.log ∧ Opened kit cfg query client session :=
      (either known).elim (descent.opened id session query) (opened id session query)
    obtain ⟨client,registered,holds⟩ := fact
    exact ⟨client,old registered,holds⟩
  · intro id row found
    rcases sessions id row found with ⟨before,there,same⟩ | ⟨query,fresh⟩
    · obtain ⟨session,query,known,equal⟩ := descent.sessions id before there
      refine ⟨session,query,old known,?_⟩
      rw [same,equal]
    · exact ⟨row,query,new fresh,rfl⟩
  · intro id row known
    rcases either known with before | fresh
    · obtain ⟨session,query,there,equal⟩ := descent.consumed id row before
      exact ⟨session,query,old there,equal⟩
    · obtain ⟨before,there,same⟩ := consumed id row fresh
      obtain ⟨session,query,opened,equal⟩ := descent.sessions id before there
      refine ⟨session,query,old opened,?_⟩
      rw [same,equal]
  · intro sha code known
    have fact : ∃ id session, .sessionConsumed id session ∈ s.log ∧ Coded session code :=
      (either known).elim (descent.completed sha code) (completed sha code)
    obtain ⟨id,session,there,coded⟩ := fact
    exact ⟨id,session,old there,coded⟩
  · intro sha code found
    rcases codes sha code found with before | fresh
    · exact old (descent.codes sha code before)
    · exact new fresh
  · intro sha code known
    rcases either known with before | fresh
    · exact old (descent.redeemed sha code before)
    · exact old (descent.codes sha code (redeemed sha code fresh))
  · intro grantId row found
    rcases grants grantId row found with ⟨before,there,same⟩ | ⟨sha,code,known,equal⟩
    · obtain ⟨sha,code,known,equal⟩ := descent.grants grantId before there
      exact ⟨sha,code,old known,same.trans equal⟩
    · exact ⟨sha,code,old known,equal⟩

-- A call that writes nothing new.
theorem Descent.still (descent : Descent kit cfg s) (log : now.log = s.log)
    (clients : ∀ clientId row, now.clients.get? clientId = some row → s.clients.get? clientId = some row)
    (delegates : ∀ delegateRef row, now.delegates.get? delegateRef = some row →
      ∃ old, s.delegates.get? delegateRef = some old ∧ old.delegatePublicKey = row.delegatePublicKey ∧
        old.delegateAddress = row.delegateAddress ∧ old.encryptedPrivateKey = row.encryptedPrivateKey)
    (sessions : ∀ id row, now.sessions.get? id = some row → s.sessions.get? id = some row)
    (codes : ∀ sha code, now.codes.get? sha = some code → s.codes.get? sha = some code)
    (grants : ∀ grantId row, now.grants.get? grantId = some row →
      ∃ old, s.grants.get? grantId = some old ∧ row.terms = old.terms) : Descent kit cfg now := by
  refine @Descent.grow _ _ _ _ descent [] (by rw [log,List.append_nil]) (fun id row found => .inl (clients id row found))
    (fun ref row found => .inl (delegates ref row found)) (fun _ _ _ none => absurd none List.not_mem_nil) ?_
    (fun _ _ none => absurd none List.not_mem_nil) (fun _ _ none => absurd none List.not_mem_nil)
    (fun sha code found => .inl (codes sha code found)) (fun _ _ none => absurd none List.not_mem_nil)
    (fun id row found => .inl (grants id row found))
  intro id row found
  exact .inl ⟨row,sessions id row found,rfl⟩

theorem sameKeys (delegateRef : String) (row : DelegateRow) (found : s.delegates.get? delegateRef = some row) :
    ∃ old, s.delegates.get? delegateRef = some old ∧ old.delegatePublicKey = row.delegatePublicKey ∧
      old.delegateAddress = row.delegateAddress ∧ old.encryptedPrivateKey = row.encryptedPrivateKey :=
  ⟨row,found,rfl,rfl,rfl⟩

theorem sameTerms (grantId : String) (row : GrantRow) (found : s.grants.get? grantId = some row) :
    ∃ old, s.grants.get? grantId = some old ∧ row.terms = old.terms :=
  ⟨row,found,rfl⟩

-- The tables of records are as they were.
theorem Descent.of_same (descent : Descent kit cfg s) (log : now.log = s.log) (clients : now.clients = s.clients)
    (delegates : now.delegates = s.delegates) (sessions : now.sessions = s.sessions) (codes : now.codes = s.codes)
    (grants : now.grants = s.grants) : Descent kit cfg now := by
  refine descent.still log ?_ ?_ ?_ ?_ ?_
  · rw [clients]
    exact fun _ _ found => found
  · rw [delegates]
    exact sameKeys
  · rw [sessions]
    exact fun _ _ found => found
  · rw [codes]
    exact fun _ _ found => found
  · rw [grants]
    exact sameTerms

theorem insertOauthClient_descent (descent : Descent kit cfg s) (client : ClientRow) :
    Descent kit cfg (s.insertOauthClient kit client).1 := by
  rcases insertOauthClient_cases kit s client with equal | ⟨clientId,secret,fresh,equal⟩
  · rw [equal]
    exact descent.of_same rfl rfl rfl rfl rfl rfl
  rw [equal]
  refine descent.grow rfl ?_ (fun ref row found => .inl (sameKeys ref row found)) (by simp)
    (fun id row found => .inl ⟨row,found,rfl⟩) (by simp) (by simp) (fun _ _ found => .inl found) (by simp)
    (fun id row found => .inl (sameTerms id row found))
  intro id row found
  simp only [Store.get?_insert _ fresh] at found
  split at found
  · rename_i same
    cases found
    exact .inr (by rw [same]; exact List.mem_cons_self)
  · exact .inl found

theorem insertOauthDelegate_descent (descent : Descent kit cfg s) {key : Bytes} (may : key = cfg.encryptionKey)
    (label : String) : Descent kit cfg (s.insertOauthDelegate kit key label).1 := by
  rcases insertOauthDelegate_cases kit s key label with equal | ⟨encrypted,envelope,fresh,equal⟩
  · rw [equal]
    exact descent.of_same rfl rfl rfl rfl rfl rfl
  rw [equal]
  refine @Descent.grow _ _ _ _ descent [] (List.append_nil _).symm (fun _ _ found => .inl found) ?_
    (fun _ _ _ none => absurd none List.not_mem_nil) (fun id row found => .inl ⟨row,found,rfl⟩)
    (fun _ _ none => absurd none List.not_mem_nil) (fun _ _ none => absurd none List.not_mem_nil)
    (fun _ _ found => .inl found) (fun _ _ none => absurd none List.not_mem_nil)
    (fun id row found => .inl (sameTerms id row found))
  intro ref row found
  simp only [Store.get?_insert _ fresh] at found
  split at found
  · cases found
    exact .inr ⟨s.drawn,rfl,rfl,may ▸ envelope⟩
  · exact .inl (sameKeys ref row found)

theorem insertOauthSession_descent (descent : Descent kit cfg s) {session : SessionRow} {query : AuthorizeQuery}
    (may : MayRecord kit cfg s (.insertOauthSession session query)) :
    Descent kit cfg (s.insertOauthSession kit session query).1 := by
  rcases insertOauthSession_cases kit s session query with equal | ⟨fresh,_,_,equal⟩
  · rw [equal]
    exact descent.of_same rfl rfl rfl rfl rfl rfl
  rw [equal]
  refine descent.grow rfl (fun _ _ found => .inl found) (fun ref row found => .inl (sameKeys ref row found)) ?_ ?_
    (by simp) (by simp) (fun _ _ found => .inl found) (by simp) (fun id row found => .inl (sameTerms id row found))
  · intro id row asked known
    cases List.mem_singleton.mp known
    exact may
  · intro id row found
    simp only [Store.get?_insert _ fresh] at found
    split at found
    · rename_i same
      cases found
      exact .inr ⟨query,by rw [same]; exact List.mem_cons_self⟩
    · exact .inl ⟨row,found,rfl⟩

theorem consumeOauthSession_descent (descent : Descent kit cfg s) (sessionId : String) :
    Descent kit cfg (s.consumeOauthSession sessionId).1 := by
  rcases consumeOauthSession_cases s sessionId with equal | ⟨session,there,_,_,equal⟩
  · rw [equal]
    exact descent
  rw [equal]
  refine descent.grow rfl (fun _ _ found => .inl found) (fun ref row found => .inl (sameKeys ref row found)) (by simp) ?_ ?_
    (by simp) (fun _ _ found => .inl found) (by simp) (fun id row found => .inl (sameTerms id row found))
  · intro id row found
    simp only [Store.get?_put there] at found
    split at found
    · rename_i same
      cases found
      exact .inl ⟨session,same ▸ there,rfl⟩
    · exact .inl ⟨row,found,rfl⟩
  · intro id row known
    cases List.mem_singleton.mp known
    exact ⟨session,there,rfl⟩

theorem insertOauthCode_descent (descent : Descent kit cfg s) {code : CodeRow}
    (may : MayRecord kit cfg s (.insertOauthCode code)) : Descent kit cfg (s.insertOauthCode kit code).1 := by
  rcases insertOauthCode_cases kit s code with equal | ⟨fresh,equal⟩
  · rw [equal]
    exact descent.of_same rfl rfl rfl rfl rfl rfl
  rw [equal]
  refine descent.grow rfl (fun _ _ found => .inl found) (fun ref row found => .inl (sameKeys ref row found)) (by simp)
    (fun id row found => .inl ⟨row,found,rfl⟩) (by simp) ?_ ?_ (by simp) (fun id row found => .inl (sameTerms id row found))
  · intro sha other known
    cases List.mem_singleton.mp known
    exact may
  · intro sha other found
    simp only [Store.get?_insert _ fresh] at found
    split at found
    · rename_i same
      cases found
      exact .inr (by rw [same]; exact List.mem_cons_self)
    · exact .inl found

theorem consumeOauthCode_descent (descent : Descent kit cfg s) (clientId sha : String) :
    Descent kit cfg (s.consumeOauthCode worker clientId sha).1 := by
  rcases consumeOauthCode_cases s worker clientId sha with equal | ⟨code,there,_,_,equal⟩
  · rw [equal]
    exact descent
  rw [equal]
  refine descent.grow rfl (fun _ _ found => .inl found) (fun ref row found => .inl (sameKeys ref row found)) (by simp)
    (fun id row found => .inl ⟨row,found,rfl⟩) (by simp) (by simp) ?_ ?_ (fun id row found => .inl (sameTerms id row found))
  · intro other row found
    simp only [Store.get?_erase] at found
    split at found
    · cases found
    · exact .inl found
  · intro other row known
    cases List.mem_singleton.mp known
    exact there

-- A fact about tokens alone.
theorem Descent.noted (descent : Descent kit cfg s) {more : List Fact} (log : now.log = s.log ++ more)
    (apart : ∀ fact ∈ more, ∃ sha other third type grantId grant, fact = .granted sha grantId grant ∨
      fact = .issued sha type other ∨ fact = .rotated sha other third)
    (clients : now.clients = s.clients) (delegates : now.delegates = s.delegates) (sessions : now.sessions = s.sessions)
    (codes : now.codes = s.codes)
    (grants : ∀ grantId row, now.grants.get? grantId = some row →
      (∃ old, s.grants.get? grantId = some old ∧ row.terms = old.terms) ∨
      ∃ sha code, .codeConsumed sha code ∈ s.log ∧ row.terms = grantOf code) : Descent kit cfg now := by
  have foreign : ∀ {fact : Fact}, fact ∈ more → (∀ sha grantId grant, fact ≠ .granted sha grantId grant) →
      (∀ sha type other, fact ≠ .issued sha type other) → (∀ sha other third, fact ≠ .rotated sha other third) →
      False := by
    intro fact member notGranted notIssued notRotated
    obtain ⟨sha,other,third,type,grantId,grant,equal | equal | equal⟩ := apart fact member
    · exact notGranted _ _ _ equal
    · exact notIssued _ _ _ equal
    · exact notRotated _ _ _ equal
  refine descent.grow log ?_ ?_ ?_ ?_ ?_ ?_ ?_ ?_ grants
  · rw [clients]
    exact fun _ _ found => .inl found
  · rw [delegates]
    exact fun ref row found => .inl (sameKeys ref row found)
  · exact fun _ _ _ known => (foreign known (by simp) (by simp) (by simp)).elim
  · rw [sessions]
    exact fun _ row found => .inl ⟨row,found,rfl⟩
  · exact fun _ _ known => (foreign known (by simp) (by simp) (by simp)).elim
  · exact fun _ _ known => (foreign known (by simp) (by simp) (by simp)).elim
  · rw [codes]
    exact fun _ _ found => .inl found
  · exact fun _ _ known => (foreign known (by simp) (by simp) (by simp)).elim

theorem insertOauthGrant_descent (descent : Descent kit cfg s) {grant : GrantRow}
    (may : MayRecord kit cfg s (.insertOauthGrant grant)) :
    Descent kit cfg (s.insertOauthGrant kit worker grant).1 := by
  unfold World.insertOauthGrant
  dsimp only
  split
  · exact descent.of_same rfl rfl rfl rfl rfl rfl
  · rename_i free
    have fresh := Option.not_isSome_iff_eq_none.mp (fun there => free (.inl there))
    obtain ⟨sha,code,known,rfl⟩ := may
    have rows : ∀ grantId row, (s.grants.insert (grantIdPrefix ++ kit.random s.drawn)
        {grantOf code with revokedAt := none}).get? grantId = some row →
        (∃ old, s.grants.get? grantId = some old ∧ row.terms = old.terms) ∨
        ∃ sha code, .codeConsumed sha code ∈ s.log ∧ row.terms = grantOf code := by
      intro grantId row found
      rw [Store.get?_insert _ fresh] at found
      split at found
      · cases found
        exact .inr ⟨sha,code,known,rfl⟩
      · exact .inl ⟨row,found,rfl⟩
    split
    · refine descent.noted rfl ?_ rfl rfl rfl rfl rows
      intro fact member
      cases List.mem_singleton.mp member
      exact ⟨_,"","",.access,_,_,.inl rfl⟩
    · exact descent.noted (List.append_nil _).symm (fun _ none => absurd none List.not_mem_nil) rfl rfl rfl rfl rows

theorem insertOauthToken_descent (descent : Descent kit cfg s) (start : String) (token : TokenRow) :
    Descent kit cfg (s.insertOauthToken kit worker start token).1 := by
  have terms : ∀ grantId row, s.grants.get? grantId = some row →
      (∃ old, s.grants.get? grantId = some old ∧ row.terms = old.terms) ∨
      ∃ sha code, .codeConsumed sha code ∈ s.log ∧ row.terms = grantOf code :=
    fun grantId row found => .inl (sameTerms grantId row found)
  unfold World.insertOauthToken
  dsimp only
  split
  · exact descent.of_same rfl rfl rfl rfl rfl rfl
  · split
    · refine descent.noted rfl ?_ rfl rfl rfl rfl terms
      intro fact member
      cases List.mem_singleton.mp member
      exact ⟨_,_,"",_,"",⟨"","","","","","",none⟩,.inr (.inl rfl)⟩
    · refine descent.noted rfl ?_ rfl rfl rfl rfl terms
      intro fact member
      cases List.mem_singleton.mp member
      exact ⟨_,_,"",_,"",⟨"","","","","","",none⟩,.inr (.inl rfl)⟩
    · exact descent.of_same rfl rfl rfl rfl rfl rfl

theorem rotateOauthRefreshToken_descent (descent : Descent kit cfg s) (presented clientId : String)
    (access refresh : TokenRow) : Descent kit cfg (s.rotateOauthRefreshToken kit presented clientId access refresh).1 := by
  rcases rotate_cases kit s presented clientId access refresh with ⟨row,rotates,equal⟩ | ⟨equal,_⟩
  · rw [equal]
    refine descent.noted rfl ?_ rfl rfl rfl rfl (fun grantId row found => .inl (sameTerms grantId row found))
    intro fact member
    cases List.mem_singleton.mp member
    exact ⟨_,_,_,.access,"",⟨"","","","","","",none⟩,.inr (.inr rfl)⟩
  · rw [equal]
    exact descent.of_same rfl rfl rfl rfl rfl rfl

theorem commit_descent (descent : Descent kit cfg s) {op : Op} (may : MayRecord kit cfg s op) (c : Choice) :
    Descent kit cfg (commit kit s worker op c).1 := by
  cases op with
  | insertOauthClient client => exact insertOauthClient_descent descent client
  | insertOauthDelegate key label => exact insertOauthDelegate_descent descent may label
  | insertOauthSession session query => exact insertOauthSession_descent descent may
  | consumeOauthSession sessionId => exact consumeOauthSession_descent descent sessionId
  | insertOauthCode code => exact insertOauthCode_descent descent may
  | consumeOauthCode clientId sha => exact consumeOauthCode_descent descent clientId sha
  | insertOauthGrant grant => exact insertOauthGrant_descent descent may
  | insertOauthToken start token => exact insertOauthToken_descent descent start token
  | rotateOauthRefreshToken presented clientId access refresh =>
    exact rotateOauthRefreshToken_descent descent presented clientId access refresh
  | activateOauthDelegate delegateRef accountId ownerAddress txDigest =>
    refine descent.still rfl (fun _ _ found => found) ?_ (fun _ _ found => found) (fun _ _ found => found) sameTerms
    intro ref row found
    simp only [commit,World.activateOauthDelegate,get?_modify,Option.map_eq_some_iff] at found
    obtain ⟨old,there,same⟩ := found
    refine ⟨old,there,?_⟩
    split at same
    · rw [← same]
      exact ⟨rfl,rfl,rfl⟩
    · rw [same]
      exact ⟨rfl,rfl,rfl⟩
  | revokeOauthGrant grantId =>
    refine descent.still rfl (fun _ _ found => found) sameKeys (fun _ _ found => found) (fun _ _ found => found) ?_
    intro id row found
    simp only [commit,World.revokeOauthGrant,get?_modify,Option.map_eq_some_iff] at found
    obtain ⟨old,there,same⟩ := found
    refine ⟨old,there,?_⟩
    split at same
    · rw [← same]
      rfl
    · rw [same]
  | revokeOauthToken sha => exact descent.of_same rfl rfl rfl rfl rfl rfl
  | incrRegistrations key => exact descent.of_same rfl rfl rfl rfl rfl rfl
  | _ => exact descent

theorem serve_descent (descent : Descent kit cfg s) {op : Op} (may : MayRecord kit cfg s op) (c : Choice) :
    Descent kit cfg (serve kit s worker op c).1 := by
  rcases serve_state kit s worker op c with equal | equal
  · rw [equal]
    exact descent
  · rw [equal]
    exact commit_descent descent may c

theorem happen_descent (descent : Descent kit cfg s) (event : Event) : Descent kit cfg (happen s event) := by
  cases event with
  | clock now => exact descent.of_same rfl rfl rfl rfl rfl rfl
  | object objectId content =>
    cases content with
    | none => exact descent.of_same rfl rfl rfl rfl rfl rfl
    | some content => exact descent.of_same rfl rfl rfl rfl rfl rfl
  | forgetRegistrations key => exact descent.of_same rfl rfl rfl rfl rfl rfl
  | evictExpiredOauthSessions =>
    exact descent.still rfl (fun _ _ found => found) sameKeys (fun _ _ found => (Store.get?_keep.mp found).1)
      (fun _ _ found => found) sameTerms
  | evictExpiredOauthCodes =>
    exact descent.still rfl (fun _ _ found => found) sameKeys (fun _ _ found => found)
      (fun _ _ found => (Store.get?_keep.mp found).1) sameTerms
  | pruneUnconsumedOauthClients =>
    exact descent.still rfl (fun _ _ found => (Store.get?_keep.mp found).1) sameKeys
      (fun _ _ found => (Store.get?_keep.mp found).1) (fun _ _ found => found) sameTerms

end Calls

def recordTerms (kit : Kit) (cfg : McpOAuthConfig) : Terms (server kit cfg).service where
  Inv := Descent kit cfg
  Rely _ s now := s.log <+: now.log
  Allowed s _ op := MayRecord kit cfg s op
  Given _ _ _ _ := True
  refl _ _ := List.prefix_refl _
  trans _ _ _ _ first second := first.trans second
  serves _ _ op c descent may _ := ⟨serve_descent descent may c,fun _ _ => (serve_later op c).log⟩
  abandons _ _ descent := ⟨descent.of_same rfl rfl rfl rfl rfl rfl,fun _ _ => List.prefix_refl _⟩

section Programs
variable {kit : Kit} {cfg : McpOAuthConfig} {k : Nat} {s : World}

theorem records_at {α : Type} {p : Handler α} {stage : Stage}
    (other : stage ∉ [Stage.opening,.completing,.exchanging]) (only : p.Only (At stage)) (s : World) :
    Keeps (recordTerms kit cfg) k (fun _ _ => True) p s := by
  refine Keeps.of_only ?_ only s
  intro op here now
  cases stage with
  | opening | completing | exchanging => exact absurd (by decide) other
  | _ => cases op <;> trivial

theorem openSession_records {query : AuthorizeQuery} {client : ClientRow} {redirectUri resource delegateRef scope : String}
    (known : .registered query.clientId client ∈ s.log) (matches_ : matchingUri kit query client = some redirectUri)
    (accepted : checkQuery kit cfg query = .ok resource) (allowed : checkScope query client = .ok scope) :
    Keeps (recordTerms kit cfg) k (fun _ _ => True) (openSession cfg query redirectUri resource delegateRef scope) s := by
  refine keeps_call (fun _ _ _ => trivial) ?_ (fun _ => trivial)
  intro first c now since _ _ answered _
  refine keeps_attempt ?_ ?_
  · intro second more _
    exact ⟨client,(more : first.log <+: second.log).subset (since.subset known),
      ⟨rfl,matches_,rfl,allowed,accepted,rfl,rfl⟩⟩
  · intro second d answer _ _ _ _ _
    cases answer with
    | error _ => trivial
    | ok sessionId =>
      refine @records_at _ _ _ _ _ .naming (by decide) ?_ _
      exact .bind (attempt_at trivial) (fun _ => trivial)

theorem authorizeClient_records {query : AuthorizeQuery} {client : ClientRow} {redirectUri : String}
    (known : .registered query.clientId client ∈ s.log) (matches_ : matchingUri kit query client = some redirectUri) :
    Keeps (recordTerms kit cfg) k (fun _ _ => True) (authorizeClient kit cfg query client redirectUri) s := by
  unfold authorizeClient
  split
  · refine @records_at _ _ _ _ _ .naming (by decide) ?_ _
    exact .bind (get_at _ _) (fun _ => trivial)
  · rename_i resource accepted
    refine keeps_attempt (fun _ _ _ => rfl) ?_
    intro now c answer since _ _ _ _
    cases answer with
    | error _ => trivial
    | ok delegateRef =>
      dsimp only
      split
      · refine @records_at _ _ _ _ _ .naming (by decide) ?_ _
        exact .bind (get_at _ _) (fun _ => trivial)
      · rename_i scope allowed
        exact openSession_records ((serve_later _ _).log.subset (since.subset known)) matches_ accepted allowed

theorem authorize_records (query : AuthorizeQuery) :
    Keeps (recordTerms kit cfg) k (fun _ _ => True) (authorize kit cfg query) s := by
  refine keeps_attempt (fun _ _ _ => trivial) ?_
  intro now c answer _ descent _ answered _
  cases answer with
  | error _ => trivial
  | ok found =>
    cases found with
    | none => trivial
    | some client =>
      dsimp only
      split
      · trivial
      · rename_i redirectUri matches_
        have fetched := (serve_ok answered).2
        simp only [commit,Except.ok.injEq] at fetched
        have known := descent.clients _ _ (Option.filter_eq_some_iff.mp fetched).1
        exact authorizeClient_records ((serve_later _ _).log.subset known) matches_

theorem issueCode_records {id : String} {session : SessionRow} (known : .sessionConsumed id session ∈ s.log)
    (named : Named) (delegateRef : String) :
    Keeps (recordTerms kit cfg) k (fun _ _ => True) (issueCode kit cfg session named delegateRef) s := by
  refine keeps_call (fun _ _ _ => trivial) ?_ (fun _ => trivial)
  intro first c now since _ _ _ _
  refine keeps_call ?_ ?_ (fun _ => trivial)
  · intro second more _
    exact ⟨id,session,(more : first.log <+: second.log).subset (since.subset known),⟨rfl,rfl,rfl,rfl,rfl⟩⟩
  · intro second d secret _ _ _ _ _
    refine @records_at _ _ _ _ _ .naming (by decide) ?_ _
    exact .bind (get_at _ _) (fun _ => trivial)

theorem sessionComplete_records (sessionId : String) (req : SessionCompleteRequest) (descent : Descent kit cfg s) :
    Keeps (recordTerms kit cfg) k (fun _ _ => True) (sessionComplete kit cfg sessionId req) s := by
  refine keeps_orFail (fun named parsed => ?_)
  refine Keeps.bind descent (records_at (by decide) (verifyOwner_at _ _ _) _) ?_ (fun _ _ _ _ => trivial)
  intro _ now _ _
  refine keeps_call (fun _ _ _ => trivial) ?_ (fun _ => trivial)
  intro now c consumed _ _ _ answered descent
  refine keeps_get (fun session found => ?_)
  subst found
  have known : .sessionConsumed sessionId session ∈ (commit kit now k (.consumeOauthSession sessionId) c).1.log := by
    rcases consumeOauthSession_cases now sessionId with equal | ⟨_,_,_,_,equal⟩
    · simp only [commit,equal] at answered
      cases answered
    · simp only [commit,equal] at answered ⊢
      cases answered
      exact List.mem_append_right _ List.mem_cons_self
  -- the log keeps it through whatever is checked in between
  have remembers : ∀ {α : Type} {p : Handler α} {s : World}, .sessionConsumed sessionId session ∈ s.log →
      Keeps (recordTerms kit cfg) k (fun _ _ => True) p s → Keeps (recordTerms kit cfg) k
        (fun _ now => True ∧ .sessionConsumed sessionId session ∈ now.log) p s := by
    intro α p s there keeps
    exact Keeps.remember (fun _ _ since member => since.subset member)
      (fun _ _ _ _ member => (serve_later _ _).log.subset member) keeps there
  have sanitized : ∃ raw, sanitizeSuiObjectId raw = .ok named.accountId := by
    simp only [checkComplete,Fallible.bind_ok] at parsed
    obtain ⟨accountId,sanitized,_,_,_,_,_,_,same⟩ := parsed
    cases same
    exact ⟨_,sanitized⟩
  refine Keeps.bind descent (remembers known (records_at (by decide) (chooseDelegate_at _ _) _)) ?_ (fun _ _ _ _ => trivial)
  intro chosen now descent known
  refine Keeps.bind descent (remembers known.2 (records_at (by decide) (verifyDelegate_at _ _) _)) ?_ (fun _ _ _ _ => trivial)
  intro owner now descent known
  refine Keeps.bind descent (remembers known.2 (Keeps.of_only ?_ (activate_at _ _ _ _) _)) ?_ (fun _ _ _ _ => trivial)
  · intro op same s
    subst same
    exact sanitized
  intro _ now _ known
  exact issueCode_records known.2 named chosen.delegateRef

theorem exchangeCode_records (authorization : Option String) (req : TokenRequest) (descent : Descent kit cfg s) :
    Keeps (recordTerms kit cfg) k (fun _ _ => True) (exchangeCode kit cfg authorization req) s := by
  refine Keeps.bind descent (@records_at _ _ _ _ _ .presenting (by decide) (authenticateClient_at _ _) s) ?_
    (fun _ _ _ _ => trivial)
  intro client now _ _
  refine keeps_get (fun code _ => keeps_get (fun redirectUri _ => keeps_get (fun codeVerifier _ => ?_)))
  refine keeps_call (fun _ _ _ => trivial) ?_ (fun _ => trivial)
  intro now c consumed _ _ _ answered _
  refine keeps_get (fun codeRow found => keeps_orFail (fun _ _ => ?_))
  subst found
  have known : .codeConsumed (kit.hash code) codeRow ∈ (commit kit now k (.consumeOauthCode client.1 (kit.hash code)) c).1.log ∧
      codeRow.clientId = client.1 := by
    rcases consumeOauthCode_cases now k client.1 (kit.hash code) with equal | ⟨_,_,mine,_,equal⟩
    · simp only [commit,equal] at answered
      cases answered
    · simp only [commit,equal] at answered ⊢
      cases answered
      exact ⟨List.mem_append_right _ List.mem_cons_self,mine⟩
  refine keeps_call ?_ ?_ (fun _ => trivial)
  · intro after since _
    refine ⟨_,codeRow,since.subset known.1,?_⟩
    rw [grantOf,known.2]
  · intro after d grantId _ _ _ _ descent
    refine Keeps.bind descent (@records_at _ _ _ _ _ .naming (by decide) (mintTokenPair_at _) _) ?_ (fun _ _ _ _ => trivial)
    intro pair now _ _
    refine keeps_call (fun _ _ _ => trivial) ?_ (fun _ => trivial)
    intro now c accessToken _ _ _ _ _
    exact keeps_call (fun _ _ _ => trivial) (fun _ _ _ _ _ _ _ _ => trivial) (fun _ => trivial)

theorem handle_records (request : Request) (descent : Descent kit cfg s) :
    Keeps (recordTerms kit cfg) k (fun _ _ => True) (handle kit cfg request) s := by
  cases request with
  | authorize query => exact authorize_records query
  | sessionComplete sessionId req => exact sessionComplete_records sessionId req descent
  | register ip req => exact records_at (by decide) (registerClient_at ip req) s
  | sessionAccount sessionId accountId => exact records_at (by decide) (sessionAccount_at sessionId accountId) s
  | sessionCancel sessionId error => exact records_at (by decide) (sessionCancel_at sessionId error) s
  | revoke presented => exact records_at (by decide) (revoke_at presented) s
  | bearer presented => exact @records_at _ _ _ _ _ .presenting (by decide) (handle_at (.bearer presented)) s
  | token authorization req =>
    simp only [handle,token]
    split
    · exact exchangeCode_records authorization req descent
    · exact records_at (by decide) (refresh_at authorization req) s
    · trivial

end Programs

def recordContract (kit : Kit) (cfg : McpOAuthConfig) : (server kit cfg).Contract (recordTerms kit cfg) where
  Idle _ _ := True
  stays _ _ _ _ _ := trivial
  leaves _ _ _ := trivial
  happens _ event descent := ⟨happen_descent descent event,fun _ => (happen_later event).log⟩
  programs request _ _ descent _ := handle_records request descent

theorem fresh_descent (kit : Kit) (cfg : McpOAuthConfig) (clock : Int) (objects : Store String ObjectContent) :
    Descent kit cfg (fresh clock objects) := by
  have empty : ∀ {ν : Type} {key : String} {value : ν}, (Store.empty : Store String ν).get? key ≠ some value := by
    intro ν key value found
    rw [Store.get?_empty] at found
    cases found
  refine ⟨fun _ _ found => absurd found empty,fun _ _ found => absurd found empty,?_,
    fun _ _ found => absurd found empty,?_,?_,fun _ _ found => absurd found empty,?_,fun _ _ found => absurd found empty⟩
  · exact fun _ _ _ none => absurd none List.not_mem_nil
  · exact fun _ _ none => absurd none List.not_mem_nil
  · exact fun _ _ none => absurd none List.not_mem_nil
  · exact fun _ _ none => absurd none List.not_mem_nil

theorem fresh_recorded (kit : Kit) (cfg : McpOAuthConfig) (clock : Int) (objects : Store String ObjectContent) :
    Crew.Sound (recordContract kit cfg) (⟨fresh clock objects,.empty⟩ : Pooled) :=
  ⟨fresh_descent kit cfg clock objects,(fun _ _ found => nomatch found),fun _ _ => trivial⟩

theorem descent_at (kit : Kit) (cfg : McpOAuthConfig) (clock : Int) (objects : Store String ObjectContent)
    (acts : List Act) (i : Nat) : Descent kit cfg (at_ kit cfg (fresh clock objects) acts i).shared :=
  (Crew.sound_before (fun _ _ _ _ => trivial) (fresh_recorded kit cfg clock objects) i).inv

end MemWal.OAuth
