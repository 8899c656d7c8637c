import MemWal.Library.Json
import MemWal.Library.Runs
import MemWal.Library.Store
import MemWal.Mcp.Sidecar

namespace MemWal.Mcp.Bridge
open Library

-- packages/mcp/src/bridge.ts

inductive Id where
  | number (value : JsonNumber)
  | string (text : String)
  deriving DecidableEq

-- A member that is not there, or whose `id` is null, is `none`.
structure RpcMessage where
  id : Option Id := none
  method : Option String := none
  params : Option Json := none
  result : Option Json := none
  error : Option Json := none

-- Requests have both a method and an id. Notifications and responses do not.
def RpcMessage.requestId (message : RpcMessage) : Option Id :=
  if message.method.isSome then message.id else none

structure Credentials where
  relayerUrl : String
  accountId : String
  delegatePrivateKey : String
  deriving DecidableEq

structure BridgeConfig where
  defaultNamespace : Option String
  credsPath : String
  parse : String → Option RpcMessage

def namespaceTools : List String := ["memwal_remember","memwal_recall","memwal_analyze","memwal_restore"]

def toolName (message : RpcMessage) : Option String :=
  match message.params with
  | some (.object params) =>
    match Json.field "name" params with
    | some (.string name) => some name
    | _ => none
  | _ => none

def RpcMessage.withArguments (message : RpcMessage) (params arguments : Json.Members) : RpcMessage :=
  {message with params := some (.object (Json.assign "arguments" (.object arguments) params))}

-- `none` is what it throws: a string, a number or a boolean takes no member. One
-- that an array takes is not part of its JSON text.
def fillNamespace (ns : String) (message : RpcMessage) (params : Json.Members) : Option RpcMessage :=
  match Json.field "arguments" params with
  | none | some .null => some (message.withArguments params [("namespace",.string ns)])
  | some (.object arguments) =>
    match Json.field "namespace" arguments with
    | some (.string current) =>
      if jsTrim current.toList ≠ [] then some message
      else some (message.withArguments params (Json.assign "namespace" (.string ns) arguments))
    | _ => some (message.withArguments params (Json.assign "namespace" (.string ns) arguments))
  | some (.array _) => some message
  | some _ => none

def applyDefaultNamespace (message : RpcMessage) (ns : Option String) : Option RpcMessage :=
  match ns,message.params with
  | some ns,some (.object params) =>
    if ns ≠ "" ∧ message.method = some "tools/call" ∧ (toolName message).any (fun name => name ∈ namespaceTools) then
      fillNamespace ns message params
    else some message
  | _,_ => some message

def localTool (name description : String) : Json :=
  .object [("name",.string name),("description",.string description),
    ("inputSchema",.object [("type",.string "object"),("properties",.object []),("additionalProperties",.bool false)])]

def localToolDefinitions : List Json :=
  [localTool "memwal_login"
      "Sign in (or re-sign in) to Walrus Memory by opening a browser. Use to switch wallets, refresh credentials, or sign in for the first time. Returns a click-able URL — the user must approve in their browser.",
    localTool "memwal_logout"
      "Remove the saved Walrus Memory credentials from this machine (~/.memwal/credentials.json). The on-chain delegate key registration is NOT revoked — visit the Walrus Memory dashboard to remove it from your account if needed."]

-- A session with the relayer, and the credentials that its stream was opened with.
structure Session where
  postUrl : String
  generation : Nat
  creds : Credentials
  deriving DecidableEq

-- A line that was forwarded, as it went out: the account at that time, and how
-- much had been written and how many sessions opened before.
structure Read where
  line : Nat
  message : RpcMessage
  accountId : String
  written : Nat
  sessions : Nat

structure Post where
  session : Session
  line : Nat
  message : RpcMessage
  creds : Credentials
  generation : Nat
  replay : Bool
  written : Nat
  sessions : Nat

structure Tracked where
  line : Nat
  message : RpcMessage

-- Where the one reconnect under way is suspended. `settling` is the turn between
-- its end and the variable's reset.
inductive Reconnecting where
  | backoff (milliseconds : Nat)
  | opening (generation : Nat) (creds : Credentials)
  | replaying (generation : Nat) (creds : Credentials) (rest : List (Id × Tracked))
  | settling

-- The reconnect that a task awaits: `none` has resolved already.
abbrev Round := Option Nat

-- Where the handling of a line is suspended.
inductive Line where
  | joining (round : Round) (message : RpcMessage)
  | catchingUp (round : Round) (message : RpcMessage)
  | posting
  | stale (round : Round)
  | login (id : Id)

-- The variables of `runBridge`. A stream may end at any time, so that aborting it
-- leaves no trace. The last four are histories.
structure State where
  creds : Credentials
  sse : Session
  stdinClosed : Bool := false
  reconnectAttempt : Nat := 0
  reconnectPromise : Option Reconnecting := none
  round : Nat := 0
  credentialGeneration : Nat := 0
  activeCredentialGeneration : Nat := 0
  inFlight : Store Id Tracked := .empty
  pendingListIds : List Id := []
  pump : Option Round := none
  lines : Store Nat Line := .empty
  adoptions : Store Nat Round := .empty
  nextLine : Nat := 0
  stdout : List RpcMessage := []
  reads : List Read := []
  posts : List Post := []
  sessions : List Session

namespace State

def write (s : State) (message : RpcMessage) : State := {s with stdout := s.stdout ++ [message]}

def post (s : State) (line : Nat) (message : RpcMessage) (creds : Credentials) (generation : Nat) (replay : Bool) : State :=
  {s with posts := s.posts ++
    [⟨s.sse,line,message,creds,generation,replay,s.stdout.length,s.sessions.length⟩]}

-- The head of the loop in `reconnect`.
def openSseStream (s : State) : State :=
  {s with reconnectPromise := some (if s.stdinClosed then .settling else .opening s.credentialGeneration s.creds)}

-- Up to its first await; the second part is what the caller awaits.
def reconnect (s : State) (immediate : Bool) : State × Round :=
  if s.stdinClosed then (s,none)
  else if s.reconnectPromise.isSome then (s,some s.round)
  else
    let begun := {s with reconnectAttempt := s.reconnectAttempt + 1,round := s.round + 1}
    (if immediate then begun.openSseStream
      else {begun with reconnectPromise := some (.backoff (min 15000 (500 * 2^s.reconnectAttempt)))},some (s.round + 1))

-- After the replays the credentials are compared again.
def replay (s : State) (generation : Nat) (creds : Credentials) : List (Id × Tracked) → State
  | [] => if generation ≠ s.credentialGeneration then s.openSseStream else {s with reconnectPromise := some .settling}
  | (_,entry) :: rest =>
    {s.post entry.line entry.message creds generation true with
      reconnectPromise := some (.replaying generation creds rest)}

def publish (s : State) (generation : Nat) (creds : Credentials) (postUrl : String) : State :=
  {s with
    sse := ⟨postUrl,generation,creds⟩
    activeCredentialGeneration := generation
    reconnectAttempt := 0
    sessions := s.sessions ++ [⟨postUrl,generation,creds⟩]}

-- A stream that was opened with credentials that have changed is not published.
def opened (s : State) (generation : Nat) (creds : Credentials) (postUrl : String) : State :=
  if generation ≠ s.credentialGeneration then s.openSseStream
  else (s.publish generation creds postUrl).replay generation creds s.inFlight.entries

def forward (s : State) (n : Nat) (message : RpcMessage) : State :=
  {s.post n message s.creds s.credentialGeneration false with lines := s.lines.upsert n .posting}

def catchUp (s : State) (n : Nat) (message : RpcMessage) : State :=
  if s.activeCredentialGeneration ≠ s.credentialGeneration then
    {(s.reconnect true).1 with lines := s.lines.upsert n (.catchingUp (s.reconnect true).2 message)}
  else s.forward n message

def track (s : State) (n : Nat) (message : RpcMessage) : State :=
  {s with
    pendingListIds := if message.method = some "tools/list" then message.id.toList ++ s.pendingListIds else s.pendingListIds
    inFlight := match message.requestId with
      | some id => s.inFlight.upsert id ⟨n,message⟩
      | none => s.inFlight
    reads := s.reads ++ [⟨n,message,s.creds.accountId,s.stdout.length,s.sessions.length⟩]}

def send (s : State) (n : Nat) (message : RpcMessage) : State :=
  let tracked := s.track n message
  if tracked.reconnectPromise.isSome then
    {tracked with lines := tracked.lines.upsert n (.joining (some tracked.round) message)}
  else tracked.catchUp n message

def toolResult (id : Id) (text : String) (isError : Bool) : RpcMessage :=
  {id := some id
   result := some (.object [("content",.array [.object [("type",.string "text"),("text",.string text)]]),
     ("isError",.bool isError)])}

-- `cleared` is how the removal of the credentials file goes.
def handleLocalLogout (config : BridgeConfig) (id : Id) : Except String Unit → RpcMessage
  | .ok _ => toolResult id ("✅ Signed out. Credentials removed from `" ++ config.credsPath ++
      "`.\n\n**Note:** the on-chain delegate key for this client is still registered on your Walrus Memory account. To fully revoke access, visit the Walrus Memory dashboard and remove the matching public key from the \"Delegate Keys\" section.\n\nCall `memwal_login` to sign in again with the same or a different wallet.") false
  | .error failure => toolResult id ("❌ Logout failed: " ++ failure) true

-- A line that does not parse, or that throws before it is tracked, is dropped.
def handleClientLine (config : BridgeConfig) (s : State) (text : String) (cleared : Except String Unit) : State :=
  let n := s.nextLine
  let s := {s with nextLine := n + 1}
  match config.parse text with
  | none => s
  | some message =>
    match message.id,message.method,toolName message with
    | some id,some "tools/call",some "memwal_login" => {s with lines := s.lines.upsert n (.login id)}
    | some id,some "tools/call",some "memwal_logout" => s.write (handleLocalLogout config id cleared)
    | _,_,_ =>
      match applyDefaultNamespace message config.defaultNamespace with
      | none => s
      | some message => s.send n message

def changedAccount (id : Id) : RpcMessage :=
  {id := some id
   error := some (.object [("code",.number (.safe (-32001) (by decide))),
     ("message",.string "Walrus Memory account changed during login; retry this request for the new account")])}

def refuseAll (s : State) : State :=
  {s with
    stdout := s.stdout ++ s.inFlight.keys.map changedAccount
    pendingListIds := s.pendingListIds.filter (fun id => id ∉ s.inFlight.keys)
    inFlight := .empty}

def adoptCredentials (s : State) (k : Nat) (next : Credentials) : State :=
  let refused := if s.creds.accountId ≠ next.accountId then s.refuseAll else s
  let adopted := {refused with
    creds := next,credentialGeneration := refused.credentialGeneration + 1,reconnectAttempt := 0}
  {(adopted.reconnect true).1 with adoptions := s.adoptions.upsert k (adopted.reconnect true).2}

def isAnswer (message : RpcMessage) : Bool := message.result.isSome || message.error.isSome

-- The response to `tools/list` gets the local tools.
def splice (s : State) (message : RpcMessage) : State × RpcMessage :=
  match message.id,message.result with
  | some id,some (.object members) =>
    if id ∈ s.pendingListIds then
      ({s with pendingListIds := s.pendingListIds.filter (fun other => other ≠ id)},
        match Json.field "tools" members with
        | some (.array tools) =>
          {message with result := some (.object (Json.assign "tools" (.array (tools ++ localToolDefinitions)) members))}
        | _ => message)
    else (s,message)
  | some id,some (.array _) =>
    (if id ∈ s.pendingListIds then {s with pendingListIds := s.pendingListIds.filter (fun other => other ≠ id)} else s,message)
  | _,_ => (s,message)

def receive (s : State) (message : RpcMessage) : State :=
  let settled := match message.id with
    | some id => if isAnswer message then {s with inFlight := s.inFlight.erase id} else s
    | none => s
  (settled.splice message).1.write (settled.splice message).2

def resolved (s : State) (round : Round) : Bool := s.reconnectPromise.isNone || round ≠ some s.round

end State

-- What the surroundings do, and the tasks that go on.
inductive Act where
  | line (text : String) (cleared : Except String Unit)
  | close
  | loggedIn (k : Nat) (creds : Credentials)
  | loginShown (n : Nat) (text : String) (isError : Bool)
  | message (message : RpcMessage)
  | eof
  | timer
  | opened (postUrl : String)
  | openFailed
  | replayed
  | settled
  | posted (n : Nat) (status : Option Nat)
  | resumeLine (n : Nat)
  | resumeAdoption (k : Nat)
  | resumePump

inductive Refused where
  | notNow
  deriving DecidableEq

def State.resumeLine (s : State) (n : Nat) : Except Refused State :=
  match s.lines.get? n with
  | some (.joining round message) => if s.resolved round then .ok (s.catchUp n message) else .error .notNow
  | some (.catchingUp round message) => if s.resolved round then .ok (s.forward n message) else .error .notNow
  | some (.stale round) => if s.resolved round then .ok {s with lines := s.lines.erase n} else .error .notNow
  | _ => .error .notNow

def State.posted (s : State) (n : Nat) (status : Option Nat) : Except Refused State :=
  match s.lines.get? n with
  | some .posting =>
    if status = some 404 then
      .ok {(s.reconnect false).1 with lines := s.lines.upsert n (.stale (s.reconnect false).2)}
    else .ok {s with lines := s.lines.erase n}
  | _ => .error .notNow

def exec (config : BridgeConfig) (s : State) : Act → Except Refused State
  | .line text cleared => if s.stdinClosed then .error .notNow else .ok (s.handleClientLine config text cleared)
  | .close => .ok {s with stdinClosed := true}
  | .loggedIn k creds => if (s.adoptions.get? k).isSome then .error .notNow else .ok (s.adoptCredentials k creds)
  | .loginShown n text isError =>
    match s.lines.get? n with
    | some (.login id) => .ok {s.write (State.toolResult id text isError) with lines := s.lines.erase n}
    | _ => .error .notNow
  | .message message => if s.pump.isSome then .error .notNow else .ok (s.receive message)
  | .eof =>
    if s.pump.isSome ∨ s.stdinClosed then .error .notNow
    else .ok {(s.reconnect false).1 with pump := some (s.reconnect false).2}
  | .timer =>
    match s.reconnectPromise with
    | some (.backoff _) => .ok s.openSseStream
    | _ => .error .notNow
  | .opened postUrl =>
    match s.reconnectPromise with
    | some (.opening generation creds) => .ok (s.opened generation creds postUrl)
    | _ => .error .notNow
  | .openFailed =>
    match s.reconnectPromise with
    | some (.opening _ _) => .ok {s with reconnectPromise := some .settling}
    | _ => .error .notNow
  | .replayed =>
    match s.reconnectPromise with
    | some (.replaying generation creds rest) => .ok (s.replay generation creds rest)
    | _ => .error .notNow
  | .settled =>
    match s.reconnectPromise with
    | some .settling => .ok {s with reconnectPromise := none}
    | _ => .error .notNow
  | .posted n status => s.posted n status
  | .resumeLine n => s.resumeLine n
  | .resumeAdoption k =>
    match s.adoptions.get? k with
    | some round =>
      if s.resolved round then
        let s := {s with adoptions := s.adoptions.erase k}
        .ok (if s.activeCredentialGeneration ≠ s.credentialGeneration then (s.reconnect true).1 else s)
      else .error .notNow
    | none => .error .notNow
  | .resumePump =>
    match s.pump with
    | some round => if s.resolved round then .ok {s with pump := none} else .error .notNow
    | none => .error .notNow

-- Once the first session is open.
def runBridge (creds : Credentials) (postUrl : String) : State where
  creds := creds
  sse := ⟨postUrl,0,creds⟩
  sessions := [⟨postUrl,0,creds⟩]

def at_ (config : BridgeConfig) (creds : Credentials) (postUrl : String) (acts : List Act) (i : Nat) : State :=
  Runs.before (exec config) (runBridge creds postUrl) acts i

end MemWal.Mcp.Bridge
