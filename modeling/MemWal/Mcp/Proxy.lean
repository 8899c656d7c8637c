import MemWal.OAuth.Routes

namespace MemWal.Mcp
open Library Auth OAuth

-- The headers of a request as they arrive: names in any case, in any order, more
-- than once. A value is text whose characters stand for its bytes.
abbrev HeaderMap := List (String × String)

namespace HeaderMap

def get (headers : HeaderMap) (name : String) : Option String :=
  (headers.find? (fun h => decide (toAsciiLowercase h.1 = name))).map Prod.snd

end HeaderMap

-- The headers of a request that is sent on, one value a name.
abbrev Outbound := Store String String

def authorizationHeader : String := "authorization"
def accountIdHeader : String := "x-memwal-account-id"
def scopeHeader : String := "x-memwal-internal-oauth-scope"
def sessionIdHeader : String := "mcp-session-id"
def clientIpHeader : String := "x-forwarded-for"

def forwardHeaderPrefixes : List String := ["x-memwal-"]

def forwardHeaderExact : List String := ["authorization","content-type","accept","x-request-id","x-correlation-id",
  "mcp-session-id","mcp-protocol-version","last-event-id"]

def startsWith (start text : String) : Bool := start.toList.isPrefixOf text.toList

def shouldForward (name : String) : Bool :=
  toAsciiLowercase name ∈ forwardHeaderExact ||
    forwardHeaderPrefixes.any (fun start => startsWith start (toAsciiLowercase name))

def forwardOne (out : Outbound) (header : String × String) : Outbound :=
  if shouldForward header.1 then out.upsert (toAsciiLowercase header.1) header.2 else out

def buildForwardedHeaders (inbound : HeaderMap) : Outbound := inbound.foldl forwardOne .empty

-- What `HeaderValue::from_str` and `to_str` allow.
def visibleChar (c : Char) : Bool := (0x20 ≤ c.toNat && c.toNat < 0x7f) || c = '\t'

def visible (text : String) : Bool := text.toList.all visibleChar

def toStr (value : String) : Option String := if visible value then some value else none

def setHeader (out : Outbound) (name text : String) : Outbound := if visible text then out.upsert name text else out

inductive McpAuthOutcome where
  | passthrough
  | oauth (identity : ResolvedOAuthIdentity)
  | unauthorized (error : Option OAuthBearerError)
  deriving DecidableEq, Repr

def isLegacyDelegateBearer (token : String) : Bool :=
  let hexPart := (dropStart "0x".toList token.toList).getD token.toList
  hexPart.length = 64 && hexPart.all isAsciiHexdigit

-- The bearer of the first `authorization` header.
def bearerOf (headers : HeaderMap) : Option String := do
  let value ← (headers.get authorizationHeader).bind toStr
  let token ← (dropStart "Bearer ".toList value.toList) <|> (dropStart "bearer ".toList value.toList)
  some (trim (String.ofList token))

-- `resolved` is what `resolve_oauth_bearer` comes to, if it is asked.
def classifyAndResolve (oauthEnabled : Bool) (headers : HeaderMap)
    (resolved : Except OAuthBearerError ResolvedOAuthIdentity) : McpAuthOutcome :=
  if oauthEnabled = false then .passthrough
  else
    match bearerOf headers with
    | none => .unauthorized none
    | some token =>
      if isLegacyDelegateBearer token then .passthrough
      else
        match resolved with
        | .ok identity => .oauth identity
        | .error .notOAuthToken => .unauthorized none
        | .error error => .unauthorized (some error)

def applyOauthHeaders (forwarded : Outbound) (identity : ResolvedOAuthIdentity) : Outbound :=
  setHeader (setHeader (setHeader forwarded authorizationHeader ("Bearer " ++ identity.delegatePrivateKey))
    accountIdHeader identity.accountId) scopeHeader identity.scope

-- What each of the three routes does before it sends the request on.
def proxied (oauthEnabled : Bool) (inbound : HeaderMap) (clientIp : String)
    (resolved : Except OAuthBearerError ResolvedOAuthIdentity) : Except (Option OAuthBearerError) Outbound :=
  let forwarded := setHeader (buildForwardedHeaders inbound) clientIpHeader clientIp
  match classifyAndResolve oauthEnabled inbound resolved with
  | .passthrough => .ok forwarded
  | .oauth identity => .ok (applyOauthHeaders forwarded identity)
  | .unauthorized error => .error error

section Forwarding

theorem setHeader_get {out : Outbound} {name text : String} (shown : visible text = true) (other : String) :
    (setHeader out name text).get? other = if other = name then some text else out.get? other := by
  simp only [setHeader,shown,if_true,Store.get?_upsert]

theorem setHeader_other {out : Outbound} {name text other : String} (different : other ≠ name) :
    (setHeader out name text).get? other = out.get? other := by
  unfold setHeader
  split
  · rw [Store.get?_upsert,if_neg different]
  · rfl

theorem forwardOne_get (out : Outbound) (header : String × String) (name : String) :
    (forwardOne out header).get? name =
      if shouldForward header.1 = true ∧ toAsciiLowercase header.1 = name then some header.2 else out.get? name := by
  unfold forwardOne
  by_cases forwards : shouldForward header.1 = true
  · rw [if_pos forwards,Store.get?_upsert]
    simp only [forwards,true_and]
    exact if_congr eq_comm rfl rfl
  · rw [if_neg forwards,if_neg (fun both => forwards both.1)]

-- A name is in the forwarded request if it is forwarded and was in the request.
theorem forwarded_iff (inbound : HeaderMap) (name : String) :
    ((buildForwardedHeaders inbound).get? name).isSome = true ↔
      ∃ header ∈ inbound, shouldForward header.1 = true ∧ toAsciiLowercase header.1 = name := by
  have from_ : ∀ (headers : HeaderMap) (out : Outbound), ((headers.foldl forwardOne out).get? name).isSome = true ↔
      (out.get? name).isSome = true ∨
        ∃ header ∈ headers, shouldForward header.1 = true ∧ toAsciiLowercase header.1 = name := by
    intro headers
    induction headers with
    | nil => simp
    | cons header rest ih =>
      intro out
      rw [List.foldl_cons,ih,forwardOne_get]
      by_cases here : shouldForward header.1 = true ∧ toAsciiLowercase header.1 = name
      · simp [here]
      · rw [if_neg here]
        simp only [List.mem_cons,exists_eq_or_imp,here,false_or]
  rw [buildForwardedHeaders,from_]
  simp [Store.empty,Store.get?]

-- What a name holds in the request with the headers of a grant.
theorem applied_get {forwarded : Outbound} {identity : ResolvedOAuthIdentity}
    (key : visible ("Bearer " ++ identity.delegatePrivateKey) = true) (account : visible identity.accountId = true)
    (scope : visible identity.scope = true) :
    (applyOauthHeaders forwarded identity).get? authorizationHeader = some ("Bearer " ++ identity.delegatePrivateKey) ∧
      (applyOauthHeaders forwarded identity).get? accountIdHeader = some identity.accountId ∧
      (applyOauthHeaders forwarded identity).get? scopeHeader = some identity.scope := by
  unfold applyOauthHeaders
  refine ⟨?_,?_,?_⟩
  · rw [setHeader_other (by decide),setHeader_other (by decide),setHeader_get key,if_pos rfl]
  · rw [setHeader_other (by decide),setHeader_get account,if_pos rfl]
  · rw [setHeader_get scope,if_pos rfl]

end Forwarding
end MemWal.Mcp
