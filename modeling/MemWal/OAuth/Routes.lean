import MemWal.OAuth.World

namespace MemWal.OAuth
open Library Auth

-- `server` stands for every failed call of the database or of another service.
inductive Failure where
  | server
  | oauth (error : OAuthError)
  | bearer (error : OAuthBearerError)
  | panicked
  deriving DecidableEq, Repr

inductive Reply where
  | registered (client : NewClient) (row : ClientRow)
  | page (status : Nat) (title detail : String)
  | redirect (location : String)
  | account (needsOnchainRegistration : Bool) (delegatePublicKey delegateSuiAddress : String)
  | redirectUrl (redirectUrl : String)
  | tokens (accessToken : String) (expiresIn : Int) (refreshToken scope : String)
  | done
  | identity (identity : ResolvedOAuthIdentity)
  deriving DecidableEq, Repr

abbrev Handler := Program Op Answer Failure

def attempt (op : Op) : Handler (Answer op) := .perform op

def get {α : Type} (value : Option α) (error : Failure) : Handler α := .orFail id (Fallible.require value error)

def check (condition : Prop) [Decidable condition] (error : Failure) : Handler Unit :=
  .orFail id (Fallible.ensure condition error)

def call (op : Op) : Handler (Result op) := do
  let answer ← attempt op
  .orFail (fun _ => .server) answer

-- routes/oauth.rs: register_client

def expireFirst (key : String) (count : Nat) : Handler Unit :=
  match count with
  | 1 => do
    let _ ← attempt (.expireRegistrations key 3600)
    return ()
  | _ => return ()

def throttle (cfg : McpOAuthConfig) (ip : String) : Handler Unit := do
  match cfg.registrationTrusted ip with
  | true => return ()
  | false =>
    let key := "mcp_oauth:register_rl:" ++ ip
    let incremented ← attempt (.incrRegistrations key)
    let count := incremented.toOption.getD 1
    expireFirst key count
    check (count ≤ cfg.registrationPerHourPerIp)
      (.oauth ⟨429,"invalid_request","registration rate limit exceeded, try again later"⟩)

def defaultClient : ClientRow :=
  ⟨none,"",[],["authorization_code","refresh_token"],["code"],"none",defaultScopes,.active,0⟩

def validateRegistration (kit : Kit) (cfg : McpOAuthConfig) (req : ClientRegistrationRequest) :
    Except OAuthError ClientRow := do
  Fallible.ensure (1 ≤ req.redirectUris.length ∧ req.redirectUris.length ≤ 10)
    (.invalidClientMetadata "redirect_uris must contain 1-10 URIs")
  match req.redirectUris.find? (fun uri =>
    !isAllowedRegistrationRedirect kit uri cfg.allowedRegistrationRedirectHosts) with
  | some uri => .error (.invalidClientMetadata ("redirect_uri is not on the allowed registration list: " ++ uri))
  | none =>
    let clientName ← Fallible.require (sanitizeClientName (req.clientName.getD "Unnamed client"))
      (.invalidClientMetadata "client_name is invalid")
    let authMethod := req.tokenEndpointAuthMethod.getD defaultClient.tokenEndpointAuthMethod
    Fallible.ensure (authMethod ∈ ["none","client_secret_basic","client_secret_post"])
      (.invalidClientMetadata "unsupported token_endpoint_auth_method")
    let grantTypes := req.grantTypes.getD defaultClient.grantTypes
    match grantTypes.find? (fun grantType => decide (grantType ∉ defaultClient.grantTypes)) with
    | some grantType => .error (.invalidClientMetadata ("unsupported grant_type: " ++ grantType))
    | none =>
      let responseTypes := req.responseTypes.getD defaultClient.responseTypes
      Fallible.ensure (responseTypes = ["code"]) (.invalidClientMetadata "only response_type=code is supported")
      match normalizeScopes (req.scope.getD defaultClient.scope) with
      | .error description => .error (.invalidClientMetadata description)
      | .ok scope =>
        return {defaultClient with
          clientName := clientName
          redirectUris := req.redirectUris
          grantTypes := grantTypes
          responseTypes := responseTypes
          tokenEndpointAuthMethod := authMethod
          scope := scope}

def registerClient (kit : Kit) (cfg : McpOAuthConfig) (ip : String) (req : ClientRegistrationRequest) :
    Handler Reply := do
  throttle cfg ip
  let unconsumed ← attempt (.countUnconsumedOauthClients 3600)
  check (unconsumed.toOption.getD 0 ≤ 5000)
    (.oauth ⟨429,"invalid_request","registration is temporarily unavailable, try again later"⟩)
  let row ← .orFail .oauth (validateRegistration kit cfg req)
  let client ← call (.insertOauthClient row)
  return .registered client row

-- authorize

def somethingWentWrong : Reply := .page 500 "Something went wrong" "Please try again."

def withState (state : Option String) : List (String × String) := (state.map (fun value => ("state",value))).toList

def bounceError (kit : Kit) (query : AuthorizeQuery) (redirectUri error description : String) : Handler Reply := do
  let target ← get (kit.parseUrl redirectUri) .panicked
  return .redirect (kit.withPairs target ([("error",error)] ++
    (if description = "" then [] else [("error_description",description)]) ++ withState query.state))

def checkQuery (kit : Kit) (cfg : McpOAuthConfig) (query : AuthorizeQuery) : Except (String × String) String := do
  Fallible.ensure (query.responseType = "code") ("unsupported_response_type","only response_type=code is supported")
  Fallible.ensure (query.codeChallengeMethod = some "S256") ("invalid_request","code_challenge_method must be S256")
  Fallible.ensure (query.codeChallenge ≠ "") ("invalid_request","code_challenge is required")
  let resource ← Fallible.require (query.resource.bind (normalizeResourceUri kit))
    ("invalid_target","resource is required and must be a valid https URL")
  Fallible.ensure (resource = (normalizeResourceUri kit cfg.resource).getD "")
    ("invalid_target","resource does not match this server")
  return resource

def requestedScope (query : AuthorizeQuery) (client : ClientRow) : String := query.scope.getD client.scope

def checkScope (query : AuthorizeQuery) (client : ClientRow) : Except (String × String) String :=
  match normalizeScopes (requestedScope query client) with
  | .ok scope =>
    if scopesAreSubset scope client.scope then .ok scope
    else .error ("invalid_scope","requested scope exceeds the registered client scope")
  | .error _ => .error ("invalid_scope","requested scope is unsupported")

def openSession (cfg : McpOAuthConfig) (query : AuthorizeQuery) (redirectUri resource delegateRef scope : String) :
    Handler Reply := do
  let now ← call .now
  match ← attempt (.insertOauthSession ⟨query.clientId,redirectUri,query.state,scope,resource,query.codeChallenge,
      delegateRef,.pending,now + cfg.sessionTtlSecs * 1000⟩ query) with
  | .error _ => return somethingWentWrong
  | .ok sessionId =>
    let _ ← attempt (.touchOauthClientLastUsed query.clientId)
    return .redirect (cfg.consentUrl ++ "?session=" ++ sessionId)

def authorizeClient (kit : Kit) (cfg : McpOAuthConfig) (query : AuthorizeQuery) (client : ClientRow)
    (redirectUri : String) : Handler Reply := do
  match checkQuery kit cfg query with
  | .error (error,description) => bounceError kit query redirectUri error description
  | .ok resource =>
    match ← attempt (.insertOauthDelegate cfg.encryptionKey
        (sanitizeLabel (query.state.getD "") client.clientName)) with
    | .error _ => return somethingWentWrong
    | .ok delegateRef =>
      match checkScope query client with
      | .error (error,description) => bounceError kit query redirectUri error description
      | .ok scope => openSession cfg query redirectUri resource delegateRef scope

def matchingUri (kit : Kit) (query : AuthorizeQuery) (client : ClientRow) : Option String :=
  client.redirectUris.find? (fun registered => redirectUriMatches kit query.redirectUri registered)

def authorize (kit : Kit) (cfg : McpOAuthConfig) (query : AuthorizeQuery) : Handler Reply := do
  match ← attempt (.fetchOauthClient query.clientId) with
  | .error _ => return somethingWentWrong
  | .ok none =>
    return .page 400 "Unknown application" "This connector is not registered with Walrus Memory."
  | .ok (some client) =>
    match matchingUri kit query client with
    | none =>
      return .page 400 "Redirect not recognized" "The redirect_uri does not match what this connector registered."
    | some redirectUri => authorizeClient kit cfg query client redirectUri

-- session_account, session_complete, session_cancel

def reusableOrNew (session : SessionRow) : Option (String × DelegateRow) → Handler Reply
  | some existing => return .account false existing.2.delegatePublicKey existing.2.delegateAddress
  | none => do
    let found ← call (.fetchOauthDelegate session.delegateRef)
    let delegate ← get found (.oauth (.serverError "session references an unknown delegate"))
    return .account true delegate.delegatePublicKey delegate.delegateAddress

def sessionAccount (sessionId accountId : String) : Handler Reply := do
  let found ← call (.fetchOauthSession sessionId)
  let session ← get found (.oauth (.invalidRequest "unknown or expired session"))
  let reusable ← call (.findReusableOauthDelegate accountId)
  reusableOrNew session reusable

def oauthOwnerProofMessage (sessionId accountId ownerAddress : String) : String :=
  "Walrus Memory OAuth authorization\nsession:" ++ sessionId ++ "\naccount:" ++ accountId ++ "\nowner:" ++ ownerAddress

def isAsciiHexdigit (c : Char) : Bool := (hexDigit c).isSome

@[irreducible] def sanitizeSuiObjectId (raw : String) : Except OAuthError String :=
  match (trim raw).toList with
  | '0' :: 'x' :: digits =>
    if digits.length = 64 ∧ digits.all isAsciiHexdigit then .ok (toAsciiLowercase (trim raw))
    else .error (.invalidRequest "account_id/owner_address is invalid")
  | _ => .error (.invalidRequest "account_id/owner_address is invalid")

structure Named where
  accountId : String
  ownerAddress : String
  deriving DecidableEq, Repr

def checkComplete (req : SessionCompleteRequest) : Except OAuthError Named := do
  let accountId ← sanitizeSuiObjectId req.accountId
  let ownerAddress ← sanitizeSuiObjectId req.ownerAddress
  Fallible.ensure (trim req.txDigest ≠ "" ∧ req.txDigest.utf8ByteSize ≤ 160) (.invalidRequest "tx_digest is invalid")
  Fallible.ensure (trim req.ownerSignature ≠ "" ∧ req.ownerSignature.utf8ByteSize ≤ 4096)
    (.invalidRequest "owner_signature is invalid")
  return ⟨accountId,ownerAddress⟩

def verifyOwner (sessionId : String) (named : Named) (signature : String) : Handler Unit := do
  let verified ← attempt (.verifyPersonal named.ownerAddress
    (oauthOwnerProofMessage sessionId named.accountId named.ownerAddress) signature)
  .orFail (fun _ => .oauth (.invalidRequest "wallet ownership proof is invalid")) verified

structure Chosen where
  delegateRef : String
  delegate : DelegateRow
  isReused : Bool
  deriving DecidableEq, Repr

def reuseOrFetch (session : SessionRow) : Option (String × DelegateRow) → Handler Chosen
  | some existing => return ⟨existing.1,existing.2,true⟩
  | none => do
    let found ← call (.fetchOauthDelegate session.delegateRef)
    let delegate ← get found (.oauth (.serverError "session delegate is missing"))
    return ⟨session.delegateRef,delegate,false⟩

def chooseDelegate (session : SessionRow) (accountId : String) : Handler Chosen := do
  let reusable ← call (.findReusableOauthDelegate accountId)
  reuseOrFetch session reusable

def onchainText : OnchainVerifyError → String
  | .rpcError => "Sui RPC error"
  | .keyNotFound => "Key not found"
  | .accountDeactivated => "Account deactivated"
  | .wrongObjectType => "Wrong object type"
  | .scanCapExceeded => "Registry scan cap exceeded"

def verifyDelegate (cfg : McpOAuthConfig) (named : Named) (delegate : DelegateRow) : Handler String := do
  let publicKey ← get (hexDecode delegate.delegatePublicKey)
    (.oauth (.serverError "stored delegate public key is invalid"))
  let object ← attempt (.getObject named.accountId)
  let owner ← .orFail
    (fun e => .oauth (.invalidRequest ("delegate key is not registered on-chain: " ++ onchainText e)))
    (checkAccount cfg.account publicKey (object.toOption.bind id))
  check (eqIgnoreAsciiCase owner named.ownerAddress = true)
    (.oauth (.invalidRequest "verified owner does not match connected account"))
  return owner

def activate (chosen : Chosen) (accountId verifiedOwner txDigest : String) : Handler Unit := do
  match chosen.isReused with
  | true => return ()
  | false => call (.activateOauthDelegate chosen.delegateRef accountId verifiedOwner txDigest)

def issueCode (kit : Kit) (cfg : McpOAuthConfig) (session : SessionRow) (named : Named) (delegateRef : String) :
    Handler Reply := do
  let now ← call .now
  let code ← call (.insertOauthCode ⟨session.clientId,session.redirectUri,session.scope,session.resource,
    session.codeChallenge,delegateRef,named.accountId,named.ownerAddress,now + cfg.codeTtlSecs * 1000⟩)
  let target ← get (kit.parseUrl session.redirectUri) .panicked
  return .redirectUrl (kit.withPairs target ([("code",code)] ++ withState session.state))

def sessionComplete (kit : Kit) (cfg : McpOAuthConfig) (sessionId : String) (req : SessionCompleteRequest) :
    Handler Reply := do
  let named ← .orFail .oauth (checkComplete req)
  verifyOwner sessionId named req.ownerSignature
  let consumed ← call (.consumeOauthSession sessionId)
  let session ← get consumed (.oauth (.invalidRequest "session already used, expired, or unknown"))
  let chosen ← chooseDelegate session named.accountId
  let verifiedOwner ← verifyDelegate cfg named chosen.delegate
  activate chosen named.accountId verifiedOwner req.txDigest
  issueCode kit cfg session named chosen.delegateRef

def sessionCancel (kit : Kit) (sessionId : String) (error : Option String) : Handler Reply := do
  let consumed ← call (.consumeOauthSession sessionId)
  let session ← get consumed (.oauth (.invalidRequest "session already used, expired, or unknown"))
  let error := (error.filter (fun e => e.toList.all (fun c => c.isLower || c = '_'))).getD "access_denied"
  let target ← get (kit.parseUrl session.redirectUri) .panicked
  return .redirectUrl (kit.withPairs target ([("error",error)] ++ withState session.state))

-- token

def dropStart (start text : List Char) : Option (List Char) :=
  if start.isPrefixOf text then some (text.drop start.length) else none

def splitColon : List Char → Option (List Char × List Char)
  | [] => none
  | ':' :: rest => some ([],rest)
  | c :: rest => (splitColon rest).map (fun parts => (c :: parts.1,parts.2))

def basicCredentials (kit : Kit) (authorization : Option String) : Option (String × String) := do
  let encoded ← dropStart "Basic ".toList (← authorization).toList
  let text ← kit.decodeBasic (String.ofList encoded)
  let (id,secret) ← splitColon text.toList
  return (String.ofList id,String.ofList secret)

def clientCredentialsFromRequest (kit : Kit) (authorization : Option String) (body : TokenRequest) :
    Option (String × Option String) :=
  match basicCredentials kit authorization with
  | some (id,secret) => some (id,some secret)
  | none => body.clientId.map (fun id => (id,body.clientSecret))

def checkSecret (kit : Kit) (client : ClientRow) (secret : Option String) : Except OAuthError Unit :=
  if client.tokenEndpointAuthMethod = "none" then .ok ()
  else do
    let secret ← Fallible.require secret (.invalidClient "missing client_secret")
    let expected ← Fallible.require client.clientSecretSha256 (.invalidClient "client has no secret configured")
    Fallible.ensure (kit.hash secret = expected) (.invalidClient "invalid client_secret")

def authenticateClient (kit : Kit) (authorization : Option String) (body : TokenRequest) :
    Handler (String × ClientRow) := do
  let (clientId,secret) ← get (clientCredentialsFromRequest kit authorization body)
    (.oauth (.invalidClient "missing client authentication"))
  let found ← call (.fetchOauthClient clientId)
  let client ← get found (.oauth (.invalidClient "unknown client"))
  .orFail .oauth (checkSecret kit client secret)
  return (clientId,client)

def checkCode (kit : Kit) (code : CodeRow) (redirectUri codeVerifier : String) (resource : Option String) :
    Except OAuthError Unit := do
  Fallible.ensure (code.redirectUri = redirectUri)
    (.invalidGrant "redirect_uri does not match the authorization request")
  Fallible.ensure (verifyPkceS256 kit codeVerifier code.codeChallenge = true)
    (.invalidGrant "code_verifier does not match code_challenge")
  Fallible.ensure (resource.all (fun requested => normalizeResourceUri kit requested = some code.resource) = true)
    (.invalidTarget "resource does not match the authorization request")

def accessRow (cfg : McpOAuthConfig) (grantId : String) (now : Int) : TokenRow :=
  ⟨grantId,.access,now + cfg.accessTtlSecs * 1000,none⟩

def refreshRow (cfg : McpOAuthConfig) (grantId : String) (now : Int) : TokenRow :=
  ⟨grantId,.refresh,now + cfg.refreshTtlSecs * 1000,none⟩

def mintTokenPair (cfg : McpOAuthConfig) (grantId : String) : Handler (TokenRow × TokenRow) := do
  let first ← call .now
  let second ← call .now
  return (accessRow cfg grantId first,refreshRow cfg grantId second)

def grantTokens (cfg : McpOAuthConfig) (clientId : String) (code : CodeRow) : Handler Reply := do
  let grantId ← call (.insertOauthGrant ⟨clientId,code.delegateRef,code.accountId,code.ownerAddress,code.scope,
    code.resource,none⟩)
  let pair ← mintTokenPair cfg grantId
  let accessToken ← call (.insertOauthToken accessTokenPrefix pair.1)
  let refreshToken ← call (.insertOauthToken refreshTokenPrefix pair.2)
  return .tokens accessToken cfg.accessTtlSecs refreshToken code.scope

def exchangeCode (kit : Kit) (cfg : McpOAuthConfig) (authorization : Option String) (req : TokenRequest) :
    Handler Reply := do
  let client ← authenticateClient kit authorization req
  let code ← get req.code (.oauth (.invalidRequest "code is required"))
  let redirectUri ← get req.redirectUri (.oauth (.invalidRequest "redirect_uri is required"))
  let codeVerifier ← get req.codeVerifier (.oauth (.invalidRequest "code_verifier is required"))
  let consumed ← call (.consumeOauthCode client.1 (kit.hash code))
  let codeRow ← get consumed (.oauth (.invalidGrant "authorization code is invalid, expired, or already used"))
  .orFail .oauth (checkCode kit codeRow redirectUri codeVerifier req.resource)
  grantTokens cfg client.1 codeRow

def checkPreview (preview : TokenWithDelegateRow) (clientId : String) : Except OAuthError Unit := do
  Fallible.ensure (preview.tokenType = .refresh) (.invalidGrant "token is not a refresh token")
  Fallible.ensure (preview.clientId = clientId) (.invalidGrant "refresh_token belongs to another client")

def rotate (cfg : McpOAuthConfig) (presentedHash clientId : String) (preview : TokenWithDelegateRow) :
    Handler Reply := do
  let now ← call .now
  check (now < preview.expiresAt) (.oauth (.invalidGrant "refresh_token has expired"))
  let pair ← mintTokenPair cfg preview.grantId
  let rotated ← call (.rotateOauthRefreshToken presentedHash clientId pair.1 pair.2)
  let tokens ← get rotated (.oauth (.invalidGrant "refresh_token was concurrently used or revoked"))
  return .tokens tokens.accessToken cfg.accessTtlSecs tokens.refreshToken tokens.row.scope

def refresh (kit : Kit) (cfg : McpOAuthConfig) (authorization : Option String) (req : TokenRequest) :
    Handler Reply := do
  let client ← authenticateClient kit authorization req
  let presented ← get req.refreshToken (.oauth (.invalidRequest "refresh_token is required"))
  let found ← call (.fetchOauthTokenWithDelegate (kit.hash presented))
  let preview ← get found (.oauth (.invalidGrant "refresh_token is invalid"))
  .orFail .oauth (checkPreview preview client.1)
  match preview.revokedAt.isSome || preview.grantRevokedAt.isSome with
  | true =>
    call (.revokeOauthGrant preview.grantId)
    .fail (.oauth (.invalidGrant "refresh_token was already used or revoked; the connection has been revoked"))
  | false => rotate cfg (kit.hash presented) client.1 preview

def token (kit : Kit) (cfg : McpOAuthConfig) (authorization : Option String) (req : TokenRequest) : Handler Reply :=
  match req.grantType with
  | "authorization_code" => exchangeCode kit cfg authorization req
  | "refresh_token" => refresh kit cfg authorization req
  | other => .fail (.oauth (.unsupportedGrantType ("unsupported grant_type: " ++ other)))

-- revoke

def revoke (kit : Kit) (presented : String) : Handler Reply := do
  match ← attempt (.fetchOauthTokenWithDelegate (kit.hash presented)) with
  | .ok (some row) =>
    match row.tokenType with
    | .refresh =>
      let _ ← attempt (.revokeOauthGrant row.grantId)
      return .done
    | .access =>
      let _ ← attempt (.revokeOauthToken (kit.hash presented))
      return .done
  | _ => return .done

-- oauth.rs: resolve_oauth_bearer

def checkBearer (row : TokenWithDelegateRow) (now : Int) : Except OAuthBearerError Unit := do
  Fallible.ensure (row.tokenType = .access) .invalid
  Fallible.ensure (row.revokedAt = none ∧ row.grantRevokedAt = none) .revoked
  Fallible.ensure (now < row.expiresAt) .expired
  Fallible.ensure (row.delegateStatus = .active) .delegateNotActive

def resolveOauthBearer (kit : Kit) (cfg : McpOAuthConfig) (presented : String) : Handler ResolvedOAuthIdentity := do
  check (accessTokenPrefix.toList.isPrefixOf presented.toList = true) (.bearer .notOAuthToken)
  let found ← attempt (.fetchOauthTokenWithDelegate (kit.hash presented))
  let read ← .orFail (fun _ => .bearer .internal) found
  let row ← get read (.bearer .invalid)
  let now ← call .now
  .orFail .bearer (checkBearer row now)
  let delegatePrivateKey ← get (kit.decrypt cfg.encryptionKey row.encryptedPrivateKey) (.bearer .internal)
  return ⟨row.accountId,delegatePrivateKey,row.grantId,row.scope⟩

-- Any number of requests of any clients.

inductive Request where
  | register (ip : String) (req : ClientRegistrationRequest)
  | authorize (query : AuthorizeQuery)
  | sessionAccount (sessionId accountId : String)
  | sessionComplete (sessionId : String) (req : SessionCompleteRequest)
  | sessionCancel (sessionId : String) (error : Option String)
  | token (authorization : Option String) (req : TokenRequest)
  | revoke (presented : String)
  | bearer (presented : String)
  deriving DecidableEq, Repr

def handle (kit : Kit) (cfg : McpOAuthConfig) : Request → Handler Reply
  | .register ip req => registerClient kit cfg ip req
  | .authorize query => authorize kit cfg query
  | .sessionAccount sessionId accountId => sessionAccount sessionId accountId
  | .sessionComplete sessionId req => sessionComplete kit cfg sessionId req
  | .sessionCancel sessionId error => sessionCancel kit sessionId error
  | .token authorization req => token kit cfg authorization req
  | .revoke presented => revoke kit presented
  | .bearer presented => do return .identity (← resolveOauthBearer kit cfg presented)

def server (kit : Kit) (cfg : McpOAuthConfig) : Crew Op Answer World Choice Failure Reply Request Event where
  service := ⟨serve kit,fun s worker => {s with held := s.held.erase worker}⟩
  program := handle kit cfg
  happen := happen

abbrev Pooled := Pool World (Handler Reply)

abbrev Act := Move Request Choice Event

-- The server before it has written a row, at any time and amid any chain.
def fresh (clock : Int) (objects : Store String ObjectContent) : World := {clock := clock, objects := objects}

def at_ (kit : Kit) (cfg : McpOAuthConfig) (start : World) (acts : List Act) (i : Nat) : Pooled :=
  Runs.before (server kit cfg).exec ⟨start,.empty⟩ acts i

-- The calls made for the request that is started at position `i`.
def callsOf (kit : Kit) (cfg : McpOAuthConfig) (start : World) (acts : List Act) (i worker : Nat) :
    List (Made World Op Choice) :=
  Crew.made (server kit cfg) worker (at_ kit cfg start acts (i+1)) (acts.drop (i+1))

end MemWal.OAuth
