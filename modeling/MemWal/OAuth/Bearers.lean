import MemWal.OAuth.Provenance
import MemWal.OAuth.Revocation

namespace MemWal.OAuth
open Library Auth

-- A call of a worker that was answered with `value`.
def Answered (kit : Kit) (worker : Nat) (calls : List Call) (op : Op) (value : Result op) : Prop :=
  ∃ state choice, ⟨state,op,choice⟩ ∈ calls ∧ (serve kit state worker op choice).2 = .ok value

section Completions
variable {kit : Kit} {cfg : McpOAuthConfig} {worker : Nat} {calls : List Call}

theorem Answered.mono {op : Op} {value : Result op} {more : List Call} (answered : Answered kit worker calls op value)
    (inside : ∀ made ∈ calls, made ∈ more) : Answered kit worker more op value := by
  obtain ⟨state,choice,member,equal⟩ := answered
  exact ⟨state,choice,inside _ member,equal⟩

theorem call_answered {op : Op} {value : Result op} (completes : Completes (serves kit worker) (call op) calls (.ok value)) :
    Answered kit worker calls op value := by
  obtain ⟨_,_,answer,rfl,asked,given⟩ := Completes.bind_ok completes
  obtain ⟨state,choice,rfl,equal⟩ := Completes.perform asked
  cases equal
  obtain ⟨rfl,answered⟩ := Completes.orFail_ok given
  exact ⟨state,choice,List.mem_cons_self,answered⟩

theorem get_ok {α : Type} {value : Option α} {error : Failure} {result : α}
    (completes : Completes (serves kit worker) (get value error) calls (.ok result)) : value = some result :=
  Fallible.require_ok.mp (Completes.orFail_ok completes).2

theorem verifyOwner_completes {sessionId signature : String} {named : Named}
    (completes : Completes (serves kit worker) (verifyOwner sessionId named signature) calls (.ok ())) :
    Answered kit worker calls (.verifyPersonal named.ownerAddress
      (oauthOwnerProofMessage sessionId named.accountId named.ownerAddress) signature) () := by
  obtain ⟨_,_,answer,rfl,asked,given⟩ := Completes.bind_ok completes
  obtain ⟨state,choice,rfl,equal⟩ := Completes.perform asked
  cases equal
  obtain ⟨rfl,answered⟩ := Completes.orFail_ok given
  exact ⟨state,choice,List.mem_cons_self,answered⟩

theorem reusable_row {s : World} {accountId delegateRef : String} {pick : Nat} {row : DelegateRow}
    (found : s.findReusableOauthDelegate accountId pick = some (delegateRef,row)) :
    s.delegates.get? delegateRef = some row := by
  have member := List.mem_of_getElem? found
  simp only [World.reusable,List.mem_filter] at member
  exact Store.get?_eq_some.mpr member.1.1

theorem chooseDelegate_completes {session : SessionRow} {accountId : String} {chosen : Chosen}
    (completes : Completes (serves kit worker) (chooseDelegate session accountId) calls (.ok chosen)) :
    ∃ made ∈ calls, made.state.delegates.get? chosen.delegateRef = some chosen.delegate := by
  obtain ⟨first,_,reusable,rfl,asked,given⟩ := Completes.bind_ok completes
  obtain ⟨state,choice,rfl,answered⟩ := call_ok asked
  simp only [commit,Except.ok.injEq] at answered
  cases reusable with
  | some pair =>
    obtain ⟨rfl,rfl⟩ := Completes.pure_ok given
    exact ⟨⟨state,.findReusableOauthDelegate accountId,choice⟩,by simp,reusable_row answered⟩
  | none =>
    obtain ⟨_,_,found,rfl,asked,given1⟩ := Completes.bind_ok given
    obtain ⟨_,_,delegate,rfl,got,given2⟩ := Completes.bind_ok given1
    obtain ⟨state,choice,rfl,answered⟩ := call_ok asked
    simp only [commit,Except.ok.injEq] at answered
    obtain ⟨rfl,rfl⟩ := Completes.pure_ok given2
    exact ⟨⟨state,.fetchOauthDelegate session.delegateRef,choice⟩,by simp,answered.trans (get_ok got)⟩

theorem verifyDelegate_completes {named : Named} {delegate : DelegateRow} {owner : String}
    (completes : Completes (serves kit worker) (verifyDelegate cfg named delegate) calls (.ok owner)) :
    ∃ publicKey object, hexDecode delegate.delegatePublicKey = some publicKey ∧
      Answered kit worker calls (.getObject named.accountId) object ∧
      checkAccount cfg.account publicKey object = .ok owner ∧ eqIgnoreAsciiCase owner named.ownerAddress = true := by
  obtain ⟨_,_,publicKey,rfl,got,completes1⟩ := Completes.bind_ok completes
  obtain ⟨_,_,answer,rfl,asked,completes2⟩ := Completes.bind_ok completes1
  obtain ⟨_,_,found,rfl,given,completes3⟩ := Completes.bind_ok completes2
  obtain ⟨_,_,_,rfl,matched,completes4⟩ := Completes.bind_ok completes3
  obtain ⟨state,choice,rfl,equal⟩ := Completes.perform asked
  cases equal
  obtain ⟨rfl,rfl⟩ := Completes.pure_ok completes4
  have checked := (Completes.orFail_ok given).2
  have same : eqIgnoreAsciiCase owner named.ownerAddress = true := Fallible.ensure_ok.mp (Completes.orFail_ok matched).2
  cases answered : (serves kit worker state (.getObject named.accountId) choice).2 with
  | error _ =>
    rw [answered] at checked
    cases checked
  | ok object =>
    rw [answered] at checked
    exact ⟨publicKey,object,get_ok got,⟨state,choice,by simp,answered⟩,checked,same⟩

-- What a session completion has done before it writes its code.
structure Completion (kit : Kit) (cfg : McpOAuthConfig) (worker : Nat) (earlier : List Call) (sessionId : String)
    (req : SessionCompleteRequest) (session : SessionRow) (code : CodeRow) (delegate : DelegateRow) : Prop where
  named : checkComplete req = .ok ⟨code.accountId,code.ownerAddress⟩
  verified : Answered kit worker earlier (.verifyPersonal code.ownerAddress
    (oauthOwnerProofMessage sessionId code.accountId code.ownerAddress) req.ownerSignature) ()
  consumed : Answered kit worker earlier (.consumeOauthSession sessionId) (some session)
  chosen : ∃ made ∈ earlier, made.state.delegates.get? code.delegateRef = some delegate
  checked : ∃ publicKey object owner, hexDecode delegate.delegatePublicKey = some publicKey ∧
    Answered kit worker earlier (.getObject code.accountId) object ∧
    checkAccount cfg.account publicKey object = .ok owner ∧ eqIgnoreAsciiCase owner code.ownerAddress = true
  coded : Coded session code

theorem call_execution {op : Op} {since : World} {made : Call}
    (ran : Execution (serves kit worker) (fun _ _ => True) (call op) since calls) (member : made ∈ calls) :
    calls = [made] ∧ made.op = op := by
  cases calls with
  | nil => cases member
  | cons first rest =>
    obtain ⟨same,_,tail⟩ := ran
    have ended : rest = [] := by
      cases rest with
      | nil => rfl
      | cons next more =>
        change Execution _ _ (Program.orFail (fun _ => Failure.server) (serves kit worker first.state op first.choice).2)
          _ _ at tail
        cases answered : (serves kit worker first.state op first.choice).2 with
        | error _ =>
          rw [answered] at tail
          cases tail
        | ok value =>
          rw [answered] at tail
          cases tail
    subst ended
    cases List.mem_singleton.mp member
    exact ⟨rfl,same⟩

theorem issueCode_writes {session : SessionRow} {named : Named} {delegateRef : String} {since state : World}
    {code : CodeRow} {choice : Choice}
    (ran : Execution (serves kit worker) (fun _ _ => True) (issueCode kit cfg session named delegateRef) since calls)
    (member : ⟨state,.insertOauthCode code,choice⟩ ∈ calls) :
    ∃ earlier later, calls = earlier ++ ⟨state,.insertOauthCode code,choice⟩ :: later ∧ Coded session code ∧
      code.delegateRef = delegateRef ∧ code.accountId = named.accountId ∧ code.ownerAddress = named.ownerAddress := by
  obtain ⟨first,rest,now,_,rfl,member1,_,ran1⟩ := Execution.beyond ran (@call_at .naming _ trivial) member id
  rcases Execution.bind ran1 with early | ⟨_,last,secret,_,rfl,writes,ran2⟩
  · obtain ⟨rfl,same⟩ := call_execution early member1
    cases same
    exact ⟨first,[],rfl,⟨rfl,rfl,rfl,rfl,rfl⟩,rfl,rfl,rfl⟩
  · obtain ⟨there,other,rfl,_⟩ := call_ok writes
    rcases List.mem_append.mp member1 with here | later
    · cases List.mem_singleton.mp here
      exact ⟨first,last,rfl,⟨rfl,rfl,rfl,rfl,rfl⟩,rfl,rfl,rfl⟩
    · -- nothing is written after it
      have silent : (do
          let target ← get (kit.parseUrl session.redirectUri) .panicked
          return Reply.redirectUrl (kit.withPairs target ([("code",secret)] ++ withState session.state)) :
            Handler Reply).Only (At .naming) := .bind (get_at _ _) (fun _ => trivial)
      exact (Execution.only ran2 silent _ later).elim

theorem completion_execution {sessionId : String} {req : SessionCompleteRequest} {since state : World} {code : CodeRow}
    {choice : Choice}
    (ran : Execution (serves kit worker) (fun _ _ => True) (sessionComplete kit cfg sessionId req) since calls)
    (member : ⟨state,.insertOauthCode code,choice⟩ ∈ calls) :
    ∃ earlier later session delegate, calls = earlier ++ ⟨state,.insertOauthCode code,choice⟩ :: later ∧
      Completion kit cfg worker earlier sessionId req session code delegate := by
  obtain ⟨_,_,named,_,rfl,member1,named_,ran1⟩ := Execution.beyond ran (@Program.Only.orFail _ _ _ _ _ (At .checking) _ _) member id
  obtain ⟨rfl,parsed⟩ := Completes.orFail_ok named_
  obtain ⟨l1,_,_,_,rfl,member2,verified,ran2⟩ := Execution.beyond ran1 (verifyOwner_at _ _ _) member1 id
  obtain ⟨l2,_,consumed,_,rfl,member3,consumes,ran3⟩ := Execution.beyond ran2
    (@call_at .cancelling _ trivial) member2 id
  obtain ⟨l3,_,session,_,rfl,member4,some_,ran4⟩ := Execution.beyond ran3 (@get_at .checking _ _ _) member3 id
  obtain ⟨l4,_,chosen,_,rfl,member5,chooses,ran5⟩ := Execution.beyond ran4 (chooseDelegate_at _ _) member4 id
  obtain ⟨l5,_,owner,_,rfl,member6,verifies,ran6⟩ := Execution.beyond ran5 (verifyDelegate_at _ _) member5 id
  obtain ⟨l6,_,_,_,rfl,member7,_,ran7⟩ := Execution.beyond ran6 (activate_at _ _ _ _) member6 nofun
  obtain ⟨earlier,later,rfl,coded,ref,account,ownerAddress⟩ := issueCode_writes ran7 member7
  have found := get_ok some_
  subst found
  obtain ⟨made,there,row⟩ := chooseDelegate_completes chooses
  obtain ⟨publicKey,object,key,read,checked,matched⟩ := verifyDelegate_completes verifies
  refine ⟨l1 ++ (l2 ++ (l3 ++ (l4 ++ (l5 ++ (l6 ++ earlier))))),later,session,chosen.delegate,by simp,?_⟩
  refine ⟨?_,?_,?_,⟨made,?_,?_⟩,⟨publicKey,object,owner,key,?_,checked,?_⟩,coded⟩
  · rw [parsed,account,ownerAddress]
  · rw [account,ownerAddress]
    exact (verifyOwner_completes verified).mono (fun _ there => by simp [there])
  · exact (call_answered consumes).mono (fun _ there => by simp [there])
  · simp [there]
  · rw [ref]
    exact row
  · rw [account]
    exact read.mono (fun _ there => by simp [there])
  · rw [ownerAddress]
    exact matched

end Completions

section Runs
variable {kit : Kit} {cfg : McpOAuthConfig} {clock : Int} {objects : Store String ObjectContent} {acts : List Act}

-- A session completion of a run that wrote its code at position `q`.
structure CompletedAt (kit : Kit) (cfg : McpOAuthConfig) (start : World) (acts : List Act) (q : Nat) (sessionId : String)
    (earlier : List Call) (session : SessionRow) (code : CodeRow) (delegate : DelegateRow) : Prop where
  request : ∃ j worker req later act choice, j < q ∧ acts[j]? = some (.spawn worker (.sessionComplete sessionId req)) ∧
    callsOf kit cfg start acts j worker =
      earlier ++ ⟨(at_ kit cfg start acts q).shared,.insertOauthCode code,choice⟩ :: later ∧
    acts[q]? = some act ∧ Crew.served (at_ kit cfg start acts q) act = some (worker,.insertOauthCode code,choice) ∧
    Completion kit cfg worker earlier sessionId req session code delegate

theorem completed_at {p : Nat} {sha : String} {code : CodeRow}
    (member : .completed sha code ∈ (at_ kit cfg (fresh clock objects) acts p).shared.log) :
    ∃ q sessionId earlier session delegate, q < p ∧
      CompletedAt kit cfg (fresh clock objects) acts q sessionId earlier session code delegate := by
  obtain ⟨q,act,worker,op,choice,small,found,call,_,notes,_⟩ := noted member
  cases op with
  | insertOauthCode other =>
    obtain rfl : code = other := notes
    obtain ⟨j,request,before,spawned,free,made⟩ := @Crew.requested _ _ _ _ _ _ _ _ (server kit cfg) _ _ _ _ _ _ _ rfl found call
    have ran := @calls_of_fresh kit cfg _ (fresh clock objects) _ _ _ spawned free
    change _ ∈ callsOf kit cfg (fresh clock objects) acts j worker at made
    cases request with
    | sessionComplete sessionId req =>
      obtain ⟨earlier,later,session,delegate,split,completion⟩ := completion_execution ran made
      exact ⟨q,sessionId,earlier,session,delegate,small,j,worker,req,later,act,choice,before,spawned,split,found,call,
        completion⟩
    | _ => exact (ran.only (handle_at _) _ made).elim
  | _ => cases notes

-- The session that is consumed in a completion had been opened.
theorem consumed_opened {j worker : Nat} {sessionId : String} {session : SessionRow} {calls : List Call}
    (inside : ∀ made ∈ calls, made ∈ callsOf kit cfg (fresh clock objects) acts j worker)
    (consumed : Answered kit worker calls (.consumeOauthSession sessionId) (some session)) :
    ∃ made ∈ calls, made.op = .consumeOauthSession sessionId ∧ ∃ opened query client,
      .opened sessionId opened query ∈ made.state.log ∧ .registered query.clientId client ∈ made.state.log ∧
      Opened kit cfg query client opened ∧ session = {opened with status := .consumed} := by
  obtain ⟨state,choice,member,answered⟩ := consumed
  refine ⟨_,member,rfl,?_⟩
  obtain ⟨p,_,_,_,_,equal,_⟩ := call_position (inside _ member)
  dsimp only at equal
  have descent := descent_at kit cfg clock objects acts p
  rw [← equal] at descent
  have answered := (serve_ok answered).2
  rcases consumeOauthSession_cases state sessionId with none_ | ⟨row,there,_,_,some_⟩
  · simp only [commit,none_] at answered
    cases answered
  · simp only [commit,some_,Except.ok.injEq,Option.some.injEq] at answered
    obtain ⟨opened,query,known,same⟩ := descent.sessions sessionId row there
    obtain ⟨client,registered,holds⟩ := descent.opened sessionId opened query known
    refine ⟨opened,query,client,known,registered,holds,?_⟩
    rw [← answered,same]

theorem sameDelegate {i j : Nat} {delegateRef : String} {left right : DelegateRow}
    (first : (at_ kit cfg (fresh clock objects) acts i).shared.delegates.get? delegateRef = some left)
    (second : (at_ kit cfg (fresh clock objects) acts j).shared.delegates.get? delegateRef = some right) :
    left.delegatePublicKey = right.delegatePublicKey ∧ left.encryptedPrivateKey = right.encryptedPrivateKey := by
  rcases Nat.le_total i j with order | order
  · obtain ⟨row,found,key,envelope⟩ := (later_between order).delegates _ _ first
    cases second.symm.trans found
    exact ⟨key.symm,envelope.symm⟩
  · obtain ⟨row,found,key,envelope⟩ := (later_between order).delegates _ _ second
    cases first.symm.trans found
    exact ⟨key,envelope⟩

-- What an accepted bearer goes back to.
structure Provenance (kit : Kit) (cfg : McpOAuthConfig) (start : World) (acts : List Act) (p : Nat)
    (identity : ResolvedOAuthIdentity) (grant : GrantRow) : Prop where
  completion : ∃ q sessionId earlier session code delegate n, q < p ∧
    CompletedAt kit cfg start acts q sessionId earlier session code delegate ∧
    -- the key that was checked on chain is the one that is handed out, and the account the same
    delegate.delegatePublicKey = (kit.keyPair n).publicKey ∧
    identity.delegatePrivateKey = (kit.keyPair n).privateKey ∧ identity.accountId = code.accountId ∧
    grant = grantOf code ∧
    -- the session was the client's, for no less than the scope
    ∃ made ∈ earlier, made.op = .consumeOauthSession sessionId ∧ ∃ opened query client,
      .opened sessionId opened query ∈ made.state.log ∧ .registered query.clientId client ∈ made.state.log ∧
      session = {opened with status := .consumed} ∧ grant.clientId = query.clientId ∧
      grant.resource = opened.resource ∧
      ∀ word ∈ splitWhitespace identity.scope,
        word ∈ splitWhitespace (requestedScope query client) ∧ word ∈ splitWhitespace client.scope

theorem provenance_of {p : Nat} {sha : String} {row : TokenWithDelegateRow} {identity : ResolvedOAuthIdentity}
    (found : (at_ kit cfg (fresh clock objects) acts p).shared.tokenWithDelegate sha = some row)
    (decrypted : kit.decrypt cfg.encryptionKey row.encryptedPrivateKey = some identity.delegatePrivateKey)
    (resolved : identity = ⟨row.accountId,identity.delegatePrivateKey,row.grantId,row.scope⟩) :
    ∃ grant, (at_ kit cfg (fresh clock objects) acts p).shared.grants.get? identity.grantId = some grant ∧
      Provenance kit cfg (fresh clock objects) acts p identity grant.terms := by
  obtain ⟨token,grant,delegate,_,granted,held,same⟩ := tokenWithDelegate_some.mp found
  have descent := descent_at kit cfg clock objects acts p
  obtain ⟨_,code,redeemed,terms⟩ := descent.grants _ _ granted
  obtain ⟨q,sessionId,earlier,session,checked,small,completed⟩ := completed_at (descent.redeemed _ _ redeemed)
  obtain ⟨j,worker,req,later,act,choice,_,_,split,_,_,completion⟩ := completed.request
  have inside : ∀ made ∈ earlier, made ∈ callsOf kit cfg (fresh clock objects) acts j worker :=
    fun made member => split ▸ List.mem_append_left _ member
  obtain ⟨made,member,op,opened,query,client,known,registered,holds,consumed⟩ :=
    consumed_opened inside completion.consumed
  obtain ⟨chosen,there,row_⟩ := completion.chosen
  obtain ⟨p',_,_,_,_,equal,_⟩ := call_position (inside chosen there)
  rw [equal] at row_
  obtain ⟨n,sealed⟩ := (descent_at kit cfg clock objects acts p').delegates _ _ row_
  have ref : grant.delegateRef = code.delegateRef := congrArg GrantRow.delegateRef terms
  rw [ref] at held
  obtain ⟨_,envelope⟩ := sameDelegate held row_
  have key : identity.delegatePrivateKey = (kit.keyPair n).privateKey := by
    have opens := kit.decrypt_encrypt _ _ _ _ sealed.envelope
    rw [← envelope] at opens
    have decrypted : kit.decrypt cfg.encryptionKey delegate.encryptedPrivateKey = some identity.delegatePrivateKey := by
      rw [← decrypted,same]
    exact Option.some.inj (decrypted.symm.trans opens)
  have account : identity.accountId = code.accountId := by
    rw [resolved,same]
    exact congrArg GrantRow.accountId terms
  have scope : identity.scope = opened.scope := by
    have granted : grant.scope = code.scope := congrArg GrantRow.scope terms
    rw [resolved,same]
    change grant.scope = opened.scope
    rw [granted,completion.coded.scope,consumed]
  have clientId : grant.terms.clientId = query.clientId := by
    rw [terms]
    refine completion.coded.sameClient.trans ?_
    rw [consumed]
    exact holds.sameClient
  have resource : grant.terms.resource = opened.resource := by
    rw [terms]
    refine completion.coded.resource.trans ?_
    rw [consumed]
  refine ⟨grant,?_,q,sessionId,earlier,session,code,checked,n,small,completed,sealed.publicKey,key,account,terms,made,
    member,op,opened,query,client,known,registered,consumed,clientId,resource,?_⟩
  · rw [resolved,same]
    exact granted
  · intro word listed
    rw [scope] at listed
    exact checkScope_words holds.scope listed

-- The lookup on which a bearer was accepted.
theorem bearer_lookup {start : World} {i worker : Nat} {presented : String} {identity : ResolvedOAuthIdentity}
    (served : Served kit cfg start acts i worker (.bearer presented) (.ok (.identity identity))) :
    ∃ p act op choice row, i < p ∧ acts[p]? = some act ∧
      Crew.served (at_ kit cfg start acts p) act = some (worker,op,choice) ∧
      (at_ kit cfg start acts p).shared.tokenWithDelegate (kit.hash presented) = some row ∧
      kit.decrypt cfg.encryptionKey row.encryptedPrivateKey = some identity.delegatePrivateKey ∧
      identity = ⟨row.accountId,identity.delegatePrivateKey,row.grantId,row.scope⟩ := by
  obtain ⟨first,_,value,equal,accepted,given⟩ := Completes.bind_ok served.completes
  obtain ⟨rfl,same⟩ := Completes.pure_ok given
  cases same
  obtain ⟨made,member,row,_,_,found,_,_,_,_,decrypted,resolved⟩ := bearer_completes accepted
  rw [List.append_nil] at equal
  obtain ⟨p,act,order,at_p,call,state,_⟩ := call_position (equal ▸ member)
  exact ⟨p,act,made.op,made.choice,row,order,at_p,call,state ▸ found,decrypted,resolved⟩

theorem sameGrant {i j : Nat} {grantId : String} {left right : GrantRow}
    (first : (at_ kit cfg (fresh clock objects) acts i).shared.grants.get? grantId = some left)
    (second : (at_ kit cfg (fresh clock objects) acts j).shared.grants.get? grantId = some right) :
    left.terms = right.terms := by
  rcases Nat.le_total i j with order | order
  · obtain ⟨row,found,terms,_⟩ := (later_between order).grants _ _ first
    cases second.symm.trans found
    exact terms.symm
  · obtain ⟨row,found,terms,_⟩ := (later_between order).grants _ _ second
    cases first.symm.trans found
    exact terms

-- Two bearers of one grant, however often it was refreshed in between.
theorem sameIdentity {i j : Nat} {left right : String} {row other : TokenWithDelegateRow}
    {identity identity' : ResolvedOAuthIdentity}
    (found : (at_ kit cfg (fresh clock objects) acts i).shared.tokenWithDelegate left = some row)
    (found' : (at_ kit cfg (fresh clock objects) acts j).shared.tokenWithDelegate right = some other)
    (decrypted : kit.decrypt cfg.encryptionKey row.encryptedPrivateKey = some identity.delegatePrivateKey)
    (decrypted' : kit.decrypt cfg.encryptionKey other.encryptedPrivateKey = some identity'.delegatePrivateKey)
    (resolved : identity = ⟨row.accountId,identity.delegatePrivateKey,row.grantId,row.scope⟩)
    (resolved' : identity' = ⟨other.accountId,identity'.delegatePrivateKey,other.grantId,other.scope⟩)
    (same : identity.grantId = identity'.grantId) : identity = identity' := by
  obtain ⟨token,grant,delegate,_,granted,held,equal⟩ := tokenWithDelegate_some.mp found
  obtain ⟨token',grant',delegate',_,granted',held',equal'⟩ := tokenWithDelegate_some.mp found'
  have id : token.grantId = token'.grantId := by
    rw [resolved,resolved',equal,equal'] at same
    exact same
  rw [← id] at granted'
  have terms := sameGrant granted granted'
  have ref : grant.delegateRef = grant'.delegateRef := (congrArg GrantRow.delegateRef terms : _)
  rw [← ref] at held'
  obtain ⟨_,envelope⟩ := sameDelegate held held'
  have key : identity.delegatePrivateKey = identity'.delegatePrivateKey := by
    rw [equal] at decrypted
    rw [equal'] at decrypted'
    change kit.decrypt cfg.encryptionKey delegate.encryptedPrivateKey = _ at decrypted
    change kit.decrypt cfg.encryptionKey delegate'.encryptedPrivateKey = _ at decrypted'
    rw [envelope] at decrypted
    exact Option.some.inj (decrypted.symm.trans decrypted')
  have account : grant.accountId = grant'.accountId := (congrArg GrantRow.accountId terms : _)
  have scope : grant.scope = grant'.scope := (congrArg GrantRow.scope terms : _)
  rw [resolved,resolved',equal,equal']
  simp only [key,account,scope,id]

-- A refresh stays within its grant.
theorem refreshed {i : Nat} {presented access refresh : String}
    (member : .rotated presented access refresh ∈ (at_ kit cfg (fresh clock objects) acts i).shared.log) :
    ∃ grantId, ∀ sha ∈ [presented,access,refresh], ∃ row,
      (at_ kit cfg (fresh clock objects) acts i).shared.tokens.get? sha = some row ∧ row.grantId = grantId := by
  obtain ⟨q,act,worker,op,choice,small,_,_,allowed,notes,new,there_,after⟩ := noted member
  cases op with
  | rotateOauthRefreshToken presented' clientId accessRow refreshRow =>
    obtain ⟨rfl,rfl,rfl,row,rotates⟩ := notes
    obtain ⟨token,_,_,there,_,_,_⟩ := tokenWithDelegate_some.mp rotates.found
    obtain ⟨sameAccess,sameRefresh⟩ := allowed.2.2 token there
    rcases rotate_cases kit (at_ kit cfg (fresh clock objects) acts q).shared presented clientId accessRow refreshRow with
      ⟨_,_,equal⟩ | ⟨equal,_⟩
    · have written := @Rotates.get? _ _ _ _ accessRow refreshRow _ rotates
      simp only [commit,equal] at after
      refine ⟨token.grantId,fun sha listed => ?_⟩
      have now : ∃ row, (at_ kit cfg (fresh clock objects) acts (q+1)).shared.tokens.get? sha = some row ∧
          row.grantId = token.grantId := by
        rw [after,written]
        split
        · exact ⟨_,rfl,sameRefresh⟩
        · split
          · exact ⟨_,rfl,sameAccess⟩
          · rename_i notRefresh notAccess
            have old : sha = presented := by simpa [notRefresh,notAccess] using listed
            subst old
            rw [there]
            exact ⟨_,rfl,by simp⟩
      obtain ⟨row,found,same⟩ := now
      obtain ⟨next,found',same',_⟩ := (@later_between kit cfg (fresh clock objects) acts _ _
        small).tokens _ _ found
      exact ⟨next,found',same'.trans same⟩
    · simp only [commit,equal] at there_
      exact absurd there_ new
  | _ => cases notes

structure Traceable (kit : Kit) (cfg : McpOAuthConfig) (start : World) (acts : List Act) : Prop where
  accepted : ∀ i worker presented identity,
    Served kit cfg start acts i worker (.bearer presented) (.ok (.identity identity)) →
    ∃ p act op choice grant, i < p ∧ acts[p]? = some act ∧
      Crew.served (at_ kit cfg start acts p) act = some (worker,op,choice) ∧
      (at_ kit cfg start acts p).shared.grants.get? identity.grantId = some grant ∧
      Provenance kit cfg start acts p identity grant.terms
  constant : ∀ i j grantId row, i ≤ j → (at_ kit cfg start acts i).shared.grants.get? grantId = some row →
    ∃ row', (at_ kit cfg start acts j).shared.grants.get? grantId = some row' ∧ row'.terms = row.terms
  refreshed : ∀ i presented access refresh, .rotated presented access refresh ∈ (at_ kit cfg start acts i).shared.log →
    ∃ grantId, ∀ sha ∈ [presented,access,refresh], ∃ row,
      (at_ kit cfg start acts i).shared.tokens.get? sha = some row ∧ row.grantId = grantId
  same : ∀ i j worker worker' presented presented' identity identity',
    Served kit cfg start acts i worker (.bearer presented) (.ok (.identity identity)) →
    Served kit cfg start acts j worker' (.bearer presented') (.ok (.identity identity')) →
    identity.grantId = identity'.grantId → identity = identity'

end Runs

theorem bearer_provenance (kit : Kit) (cfg : McpOAuthConfig) (clock : Int) (objects : Store String ObjectContent)
    (acts : List Act) : Traceable kit cfg (fresh clock objects) acts where
  accepted i worker presented identity served := by
    obtain ⟨p,act,op,choice,row,order,at_p,call,found,decrypted,resolved⟩ := bearer_lookup served
    obtain ⟨grant,granted,provenance⟩ := provenance_of found decrypted resolved
    exact ⟨p,act,op,choice,grant,order,at_p,call,granted,provenance⟩
  constant i j grantId row order found := by
    obtain ⟨row',found',terms,_⟩ := (later_between order).grants _ _ found
    exact ⟨row',found',terms⟩
  refreshed i presented access refresh member := refreshed member
  same i j worker worker' presented presented' identity identity' served served' same := by
    obtain ⟨_,_,_,_,_,_,_,_,found,decrypted,resolved⟩ := bearer_lookup served
    obtain ⟨_,_,_,_,_,_,_,_,found',decrypted',resolved'⟩ := bearer_lookup served'
    exact sameIdentity found found' decrypted decrypted' resolved resolved' same

end MemWal.OAuth
