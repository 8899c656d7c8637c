import MemWal.Mcp.Proxy
import MemWal.Library.Runs

namespace MemWal.Mcp
open Library OAuth

structure RpcError where
  status : Nat
  message : String
  deriving DecidableEq, Repr

-- What `\s` and `String.prototype.trim` take for white space.
def jsWhitespace (c : Char) : Bool :=
  let n := c.toNat
  (0x9 ≤ n && n ≤ 0xd) || (0x2000 ≤ n && n ≤ 0x200a) ||
    n ∈ [0x20,0xa0,0x1680,0x2028,0x2029,0x202f,0x205f,0x3000,0xfeff]

def jsTrim (text : List Char) : List Char := ((text.dropWhile jsWhitespace).reverse.dropWhile jsWhitespace).reverse

def jsWords (text : String) : List String :=
  ((text.toList.splitOnP jsWhitespace).filter (· ≠ [])).map String.ofList

-- auth.ts

structure Session where
  accountId : String
  delegateKeyHex : String
  delegatePubKeyHex : String
  namespace_ : Option String
  oauthScope : Option String
  deriving DecidableEq, Repr

structure AuthResolution where
  session : Session
  sessionKey : String
  deriving DecidableEq, Repr

def hex64 (digits : List Char) : Bool := digits.length = 64 && digits.all isAsciiHexdigit

def withoutHexPrefix (key : List Char) : List Char := (dropStart "0x".toList key).getD key

def resolveAuth (publicKeyHex : String → String) (headers : Outbound) : Except RpcError AuthResolution := do
  let authHeader := (headers.get? "authorization").getD ""
  Fallible.ensure (startsWith "bearer " (toAsciiLowercase authHeader) = true)
    ⟨401,"Missing Authorization: Bearer <delegate-key-hex> header"⟩
  let rawKey := jsTrim (authHeader.toList.drop "bearer ".length)
  Fallible.ensure (hex64 (withoutHexPrefix rawKey) = true)
    ⟨401,"Bearer token must be a 64-char hex Ed25519 private key (32-byte seed)"⟩
  let delegateKeyHex := String.ofList (withoutHexPrefix rawKey)
  let accountId := (headers.get? "x-memwal-account-id").getD ""
  Fallible.ensure ((dropStart "0x".toList accountId.toList).any hex64 = true)
    ⟨401,"Missing or malformed X-MemWal-Account-Id header (0x-prefixed 64-hex Sui object id)"⟩
  let delegatePubKeyHex := publicKeyHex delegateKeyHex
  return ⟨⟨accountId,delegateKeyHex,delegatePubKeyHex,headers.get? "x-memwal-namespace",
    headers.get? "x-memwal-internal-oauth-scope"⟩,"delegate:" ++ accountId ++ ":" ++ delegatePubKeyHex⟩

-- tools/index.ts

inductive Tool where
  | remember | rememberBulk | analyze | restore | recall | health
  deriving DecidableEq, Repr

def registerTools (oauthScope : Option String) : List Tool :=
  let granted := (oauthScope.map jsWords).getD []
  let unrestricted := oauthScope = none
  let canRead := unrestricted ∨ "memwal:read" ∈ granted
  let canWrite := unrestricted ∨ "memwal:write" ∈ granted
  (if canWrite then [.remember,.rememberBulk,.analyze,.restore] else []) ++ (if canRead then [.recall,.health] else [])

-- index.ts

-- A transport with the server that was built for it.
structure Connection where
  sessionKey : String
  tools : List Tool
  deriving DecidableEq, Repr

-- A tool that was run, and how the proxy saw the request that asked for it.
structure Execution where
  tool : Tool
  caller : McpAuthOutcome
  deriving DecidableEq, Repr

structure World where
  sessionsById : Store String Connection := .empty
  streamableSessions : Store String Connection := .empty
  tokens : Store String ResolvedOAuthIdentity := .empty
  executed : List Execution := []

inductive Message where
  | initRequest
  | callTool (tool : Tool)
  | other
  deriving DecidableEq, Repr

inductive Method where
  | get | post | delete
  deriving DecidableEq, Repr

-- A request with what is left to chance: what the limiter says, and the next id.
structure Request where
  headers : HeaderMap
  clientIp : String
  admitted : Bool
  newId : String
  deriving DecidableEq, Repr

inductive Act where
  | issue (token : String) (identity : ResolvedOAuthIdentity)
  | revoke (token : String)
  | sse (req : Request)
  | messages (sessionId : Option String) (req : Request) (message : Message)
  | streamable (method : Method) (req : Request) (message : Message)
  | closeSse (sessionId : String)
  | closeStreamable (sessionId : String)
  deriving DecidableEq, Repr

-- How the bearer of a request is resolved at this moment.
def World.resolved (s : World) (headers : HeaderMap) : Except OAuthBearerError ResolvedOAuthIdentity :=
  match (bearerOf headers).bind s.tokens.get? with
  | some identity => .ok identity
  | none => .error .invalid

-- What the server of a connection does with a message.
def World.handle (s : World) (conn : Connection) (caller : McpAuthOutcome) : Message → World
  | .callTool tool => if tool ∈ conn.tools then {s with executed := s.executed ++ [⟨tool,caller⟩]} else s
  | _ => s

section Routes
variable (publicKeyHex : String → String) (oauthEnabled : Bool)

-- A request as the sidecar gets it, with its caller as the proxy saw it.
def throughProxy (s : World) (req : Request) : Except RpcError (McpAuthOutcome × Outbound) :=
  match proxied oauthEnabled req.headers req.clientIp (s.resolved req.headers) with
  | .ok out => .ok (classifyAndResolve oauthEnabled req.headers (s.resolved req.headers),out)
  | .error _ => .error ⟨401,"unauthorized"⟩

def handleSse (s : World) (req : Request) : Except RpcError World := do
  let (_,out) ← throughProxy oauthEnabled s req
  Fallible.ensure (req.admitted = true) ⟨429,"MCP rate limit"⟩
  let auth ← resolveAuth publicKeyHex out
  return {s with sessionsById := (s.sessionsById.upsert req.newId
    ⟨auth.sessionKey,registerTools auth.session.oauthScope⟩)}

-- The connection that a message is for, once its caller has been checked.
def messageTarget (s : World) (sessionId : Option String) (req : Request) :
    Except RpcError (Connection × McpAuthOutcome) := do
  let id ← Fallible.require (sessionId.filter (· ≠ "")) ⟨400,"Missing sessionId query parameter"⟩
  Fallible.ensure (id.toList.all (fun c => isAsciiHexdigit c || c = '-') = true) ⟨400,"Invalid sessionId"⟩
  let (caller,out) ← throughProxy oauthEnabled s req
  let conn ← Fallible.require (s.sessionsById.get? id) ⟨404,"Unknown sessionId " ++ id⟩
  let auth ← resolveAuth publicKeyHex out
  Fallible.ensure (conn.sessionKey = auth.sessionKey) ⟨403,"sessionId does not match authenticated caller"⟩
  return (conn,caller)

def handlePostMessage (s : World) (sessionId : Option String) (req : Request) (message : Message) :
    Except RpcError World := do
  let (conn,caller) ← messageTarget publicKeyHex oauthEnabled s sessionId req
  return s.handle conn caller message

-- The connection that a request names, if there is one.
def streamableTarget (s : World) (req : Request) :
    Except RpcError (AuthResolution × McpAuthOutcome × Option (String × Connection)) := do
  let (caller,out) ← throughProxy oauthEnabled s req
  let auth ← resolveAuth publicKeyHex out
  let sessionId := (out.get? sessionIdHeader).filter (· ≠ "")
  match sessionId.bind (fun id => (s.streamableSessions.get? id).map (fun conn => (id,conn))) with
  | some (id,conn) =>
    Fallible.ensure (conn.sessionKey = auth.sessionKey)
      ⟨403,"mcp-session-id does not match authenticated caller"⟩
    return (auth,caller,some (id,conn))
  | none => return (auth,caller,none)

def openStreamable (s : World) (method : Method) (req : Request) (auth : AuthResolution) (message : Message) :
    Except RpcError World := do
  Fallible.ensure (method = .post) ⟨400,"missing mcp-session-id — open a new session with an initial POST"⟩
  Fallible.ensure (req.admitted = true) ⟨429,"MCP rate limit"⟩
  match message with
  | .initRequest => return {s with streamableSessions := (s.streamableSessions.upsert req.newId
      ⟨auth.sessionKey,registerTools auth.session.oauthScope⟩)}
  | _ => return s

def handleStreamableHttp (s : World) (method : Method) (req : Request) (message : Message) :
    Except RpcError World := do
  let (auth,caller,found) ← streamableTarget publicKeyHex oauthEnabled s req
  match found,method with
  | some (_,conn),.post => return s.handle conn caller message
  | some (id,_),.delete => return {s with streamableSessions := s.streamableSessions.erase id}
  | some _,.get => return s
  | none,_ => openStreamable s method req auth message

def exec (s : World) : Act → Except RpcError World
  | .issue token identity => .ok {s with tokens := s.tokens.upsert token identity}
  | .revoke token => .ok {s with tokens := s.tokens.erase token}
  | .sse req => handleSse publicKeyHex oauthEnabled s req
  | .messages sessionId req message => handlePostMessage publicKeyHex oauthEnabled s sessionId req message
  | .streamable method req message => handleStreamableHttp publicKeyHex oauthEnabled s method req message
  | .closeSse sessionId => .ok {s with sessionsById := s.sessionsById.erase sessionId}
  | .closeStreamable sessionId => .ok {s with streamableSessions := s.streamableSessions.erase sessionId}

def at_ (acts : List Act) (i : Nat) : World := Runs.before (exec publicKeyHex oauthEnabled) {} acts i

-- The connection that a tool would run in if the request called one.
def target (s : World) : Act → Option (Connection × McpAuthOutcome)
  | .messages sessionId req _ => (messageTarget publicKeyHex oauthEnabled s sessionId req).toOption
  | .streamable .post req _ =>
    (streamableTarget publicKeyHex oauthEnabled s req).toOption.bind (fun t => t.2.2.map (fun e => (e.2,t.2.1)))
  | _ => none

end Routes

def Act.calling (tool : Tool) : Act → Act
  | .messages sessionId req _ => .messages sessionId req (.callTool tool)
  | .streamable method req _ => .streamable method req (.callTool tool)
  | act => act

-- Every tool that ran for a token is one that is registered for its scope.
def Confined (s : World) : Prop :=
  ∀ e ∈ s.executed, ∀ identity, e.caller = .oauth identity → e.tool ∈ registerTools (some identity.scope)

-- A token that joins a connection can do all that the connection was opened for.
def Covers (publicKeyHex : String → String) (oauthEnabled : Bool) (s : World) (act : Act) : Prop :=
  ∀ conn identity, target publicKeyHex oauthEnabled s act = some (conn,.oauth identity) →
    ∀ tool ∈ conn.tools, tool ∈ registerTools (some identity.scope)

section Confinement
variable {publicKeyHex : String → String} {oauthEnabled : Bool} {s next : World} {act : Act}

theorem handle_listed {conn : Connection} {caller : McpAuthOutcome} {tool : Tool} (listed : tool ∈ conn.tools) :
    s.handle conn caller (.callTool tool) = {s with executed := s.executed ++ [⟨tool,caller⟩]} := if_pos listed

theorem handle_executed (s : World) (conn : Connection) (caller : McpAuthOutcome) (message : Message) :
    (s.handle conn caller message).executed = s.executed ∨
      ∃ tool ∈ conn.tools, (s.handle conn caller message).executed = s.executed ++ [⟨tool,caller⟩] := by
  cases message with
  | callTool tool =>
    by_cases listed : tool ∈ conn.tools
    · exact .inr ⟨tool,listed,congrArg World.executed (handle_listed listed)⟩
    · exact .inl (by simp only [World.handle,listed,if_false])
  | initRequest => exact .inl rfl
  | other => exact .inl rfl

theorem exec_executed (ran : exec publicKeyHex oauthEnabled s act = .ok next) : next.executed = s.executed ∨
    ∃ conn caller, target publicKeyHex oauthEnabled s act = some (conn,caller) ∧
      ∃ tool ∈ conn.tools, next.executed = s.executed ++ [⟨tool,caller⟩] := by
  cases act with
  | issue token identity =>
    cases ran
    exact .inl rfl
  | revoke token =>
    cases ran
    exact .inl rfl
  | closeSse sessionId =>
    cases ran
    exact .inl rfl
  | closeStreamable sessionId =>
    cases ran
    exact .inl rfl
  | sse req =>
    simp only [exec,handleSse,Fallible.bind_ok] at ran
    obtain ⟨_,_,_,_,_,_,same⟩ := ran
    cases same
    exact .inl rfl
  | messages sessionId req message =>
    simp only [exec,handlePostMessage,Fallible.bind_ok] at ran
    obtain ⟨⟨conn,caller⟩,found,same⟩ := ran
    cases same
    rcases handle_executed s conn caller message with still | ran
    · exact .inl still
    · exact .inr ⟨conn,caller,by simp only [target,found]; rfl,ran⟩
  | streamable method req message =>
    simp only [exec,handleStreamableHttp,Fallible.bind_ok] at ran
    obtain ⟨⟨auth,caller,found⟩,reached,ran⟩ := ran
    cases found with
    | none =>
      simp only [openStreamable,Fallible.bind_ok] at ran
      obtain ⟨_,_,_,_,ran⟩ := ran
      cases message <;> cases ran <;> exact .inl rfl
    | some named =>
      obtain ⟨id,conn⟩ := named
      cases method with
      | get =>
        cases ran
        exact .inl rfl
      | delete =>
        cases ran
        exact .inl rfl
      | post =>
        cases ran
        rcases handle_executed s conn caller message with still | ran
        · exact .inl still
        · exact .inr ⟨conn,caller,by simp only [target,reached]; rfl,ran⟩

theorem exec_confined (confined : Confined s) (covers : Covers publicKeyHex oauthEnabled s act)
    (ran : exec publicKeyHex oauthEnabled s act = .ok next) : Confined next := by
  intro e member identity outcome
  rcases exec_executed ran with still | ⟨conn,caller,reached,tool,listed,grown⟩
  · rw [still] at member
    exact confined e member identity outcome
  · rw [grown] at member
    rcases List.mem_append.mp member with old | new
    · exact confined e old identity outcome
    · cases List.mem_singleton.mp new
      cases outcome
      exact covers conn identity reached tool listed

-- A connection that a request reaches runs any of its tools for it.
theorem exec_calling {conn : Connection} {caller : McpAuthOutcome} {tool : Tool}
    (reached : target publicKeyHex oauthEnabled s act = some (conn,caller)) (listed : tool ∈ conn.tools) :
    exec publicKeyHex oauthEnabled s (act.calling tool) = .ok {s with executed := s.executed ++ [⟨tool,caller⟩]} := by
  cases act with
  | messages sessionId req message =>
    simp only [target] at reached
    have found := Fallible.toOption_some.mp reached
    simp only [Act.calling,exec,handlePostMessage,found,bind,Except.bind,handle_listed listed]
    rfl
  | streamable method req message =>
    cases method with
    | get => cases reached
    | delete => cases reached
    | post =>
      simp only [target,Option.bind_eq_some_iff,Option.map_eq_some_iff] at reached
      obtain ⟨⟨auth,outcome,named⟩,found,⟨id,other⟩,same,equal⟩ := reached
      cases equal
      cases same
      have found := Fallible.toOption_some.mp found
      simp only [Act.calling,exec,handleStreamableHttp,found,bind,Except.bind,handle_listed listed]
      rfl
  | _ => cases reached

end Confinement
-- What a token can do is within its scope as long as it joins no connection that was
-- opened for more; and once it does, it can do more.
theorem scope_confines (publicKeyHex : String → String) (oauthEnabled : Bool) (acts : List Act) :
    ((∀ i act, acts[i]? = some act → Covers publicKeyHex oauthEnabled (at_ publicKeyHex oauthEnabled acts i) act) →
      ∀ i, Confined (at_ publicKeyHex oauthEnabled acts i)) ∧
    ∀ i act, ¬ Covers publicKeyHex oauthEnabled (at_ publicKeyHex oauthEnabled acts i) act →
      ∃ tool, ¬ Confined (Runs.settle (exec publicKeyHex oauthEnabled) (at_ publicKeyHex oauthEnabled acts i)
        (act.calling tool)) := by
  constructor
  · intro covers i
    refine Runs.kept_between (Nat.zero_le i) (P:=Confined) (fun _ none_ => absurd none_ List.not_mem_nil) ?_
    intro k act next _ _ found confined ran
    exact exec_confined confined (covers k act found) ran
  · intro i act uncovered
    simp only [Covers,not_forall] at uncovered
    obtain ⟨conn,identity,reached,tool,listed,outside⟩ := uncovered
    refine ⟨tool,?_⟩
    rw [Runs.settle_ok (exec_calling reached listed)]
    intro confined
    exact outside (confined ⟨tool,.oauth identity⟩ (by simp) identity rfl)

def testIdentity (scope : String) : ResolvedOAuthIdentity :=
  ⟨"0x" ++ String.ofList (List.replicate 64 'a'),String.ofList (List.replicate 64 'b'),"mwg_",scope⟩

def testRequest (token newId : String) : Request := ⟨[("Authorization","Bearer " ++ token)],"::1",true,newId⟩

-- Two tokens of one account and one key; the one with the wider scope opens the session.
def testActs (message : Message) : List Act :=
  [.issue "mwo_w" (testIdentity "memwal:read memwal:write"),.issue "mwo_r" (testIdentity "memwal:read"),
    .sse (testRequest "mwo_w" "0a"),.messages (some "0a") (testRequest "mwo_r" "") message]

-- The token with the narrower scope has the session remember.
theorem scope_escaped : ¬ ∀ (publicKeyHex : String → String) (oauthEnabled : Bool) (acts : List Act) (i : Nat),
    Confined (at_ publicKeyHex oauthEnabled acts i) := by
  intro always
  have ran : (at_ id true (testActs (.callTool .remember)) 4).executed =
      [⟨.remember,.oauth (testIdentity "memwal:read")⟩] := by decide +kernel
  have confined := always id true (testActs (.callTool .remember)) 4 ⟨.remember,.oauth (testIdentity "memwal:read")⟩
    (by rw [ran]; exact List.mem_cons_self) (testIdentity "memwal:read") rfl
  revert confined
  decide +kernel

end MemWal.Mcp
