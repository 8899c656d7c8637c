import MemWal.Auth.Middleware
import MemWal.Library.Text

namespace MemWal.OAuth
open Library Auth

-- oauth.rs

def accessTokenPrefix : String := "mwo_"
def refreshTokenPrefix : String := "mwr_"
def clientIdPrefix : String := "mwc_"
def delegateRefPrefix : String := "mwd_"
def sessionIdPrefix : String := "mws_"
def grantIdPrefix : String := "mwg_"
def clientSecretPrefix : String := "mws_secret_"
def codePrefix : String := "mwac_"

def scopeRead : String := "memwal:read"
def scopeWrite : String := "memwal:write"
def scopeOffline : String := "offline_access"
def defaultScopes : String := "memwal:read memwal:write offline_access"
def supportedScopes : List String := [scopeRead,scopeWrite,scopeOffline]

def displayNameMaxChars : Nat := 80
def labelMaxChars : Nat := 32
def claudeCodeLoopbackPaths : List String := ["/callback"]

-- The parts of a `url::Url` that are looked at, beside its serialization.
structure Url where
  text : String
  scheme : String
  username : String
  password : Option String
  host : Option String
  path : String
  query : Option String
  fragment : Option String
  deriving DecidableEq, Repr

structure KeyPair where
  privateKey : String
  publicKey : String
  address : String
  deriving DecidableEq, Repr

-- What the server takes from other crates. Secrets and keys are numbered in the
-- order in which they are drawn; no two secrets of a kind have the same digest.
structure Kit where
  random : Nat → String
  hash : String → String
  keyPair : Nat → KeyPair
  encrypt : Bytes → Nat → String → Option String
  decrypt : Bytes → String → Option String
  challenge : String → String
  parseUrl : String → Option Url
  withPairs : Url → List (String × String) → String
  setHost : Url → Option String → String
  decodeBasic : String → Option String
  hash_random : ∀ start m n, hash (start ++ random m) = hash (start ++ random n) → m = n
  publicKey_hex : ∀ n, (hexDecode (keyPair n).publicKey).isSome = true
  decrypt_encrypt : ∀ key n text envelope, encrypt key n text = some envelope → decrypt key envelope = some text

-- A kit whose secrets are told apart by their lengths.
def testKit : Kit where
  random n := String.ofList (List.replicate n 'x')
  hash := id
  keyPair n := ⟨"",String.ofList (List.replicate 2 (Nat.digitChar (n % 10))),""⟩
  encrypt _ _ text := some text
  decrypt _ envelope := some envelope
  challenge := id
  parseUrl text :=
    if text ∈ ["http://localhost:1/callback","http://localhost:2/callback"] then
      some ⟨text,"http","",none,some "localhost","/callback",none,none⟩
    else if text = "https://mcp.example/" then some ⟨text,"https","",none,some "mcp.example","/",none,none⟩
    else none
  withPairs url pairs := pairs.foldl (fun text pair => text ++ "?" ++ pair.1 ++ "=" ++ pair.2) url.text
  setHost url _ := url.text
  decodeBasic _ := none
  hash_random start m n same := by
    have lists := congrArg String.toList same
    simp only [id,String.toList_append,String.toList_ofList] at lists
    have lengths := congrArg List.length (List.append_cancel_left lists)
    simpa using lengths
  publicKey_hex n := by
    have digits : ∀ d < 10, (hexDecode (String.ofList (List.replicate 2 (Nat.digitChar d)))).isSome = true := by
      decide +kernel
    exact digits (n % 10) (Nat.mod_lt n (by decide))
  decrypt_encrypt _ _ _ _ same := same.symm

structure McpOAuthConfig where
  resource : String
  consentUrl : String
  encryptionKey : Bytes
  allowedRegistrationRedirectHosts : List String
  accessTtlSecs : Int
  refreshTtlSecs : Int
  codeTtlSecs : Int
  sessionTtlSecs : Int
  registrationTrusted : String → Bool
  registrationPerHourPerIp : Nat
  account : Auth.Config

def testConfig : McpOAuthConfig :=
  ⟨"https://mcp.example/","https://consent",[],[],60,600,60,60,fun _ => true,5,⟨"0xpkg","testnet",none,1⟩⟩

structure OAuthError where
  status : Nat
  error : String
  description : String
  deriving DecidableEq, Repr

namespace OAuthError

def invalidRequest (description : String) : OAuthError := ⟨400,"invalid_request",description⟩
def invalidGrant (description : String) : OAuthError := ⟨400,"invalid_grant",description⟩
def invalidClient (description : String) : OAuthError := ⟨401,"invalid_client",description⟩
def invalidTarget (description : String) : OAuthError := ⟨400,"invalid_target",description⟩
def invalidClientMetadata (description : String) : OAuthError := ⟨400,"invalid_client_metadata",description⟩
def unsupportedGrantType (description : String) : OAuthError := ⟨400,"unsupported_grant_type",description⟩
def serverError (description : String) : OAuthError := ⟨500,"server_error",description⟩

end OAuthError

def splitWhitespace (text : String) : List String := (Text.words text.toList).map String.ofList

def joinScopes (scopes : List String) : String := String.ofList (Text.join (scopes.map String.toList))

def trim (text : String) : String := String.ofList (Text.trim text.toList)

def collectScopes (collected : List String) : List String → Option (List String)
  | [] => some collected
  | scope :: rest =>
    if scope ∉ supportedScopes then none
    else collectScopes (if scope ∈ collected then collected else collected ++ [scope]) rest

def normalizeScopes (raw : String) : Except String String :=
  match collectScopes [] (splitWhitespace raw) with
  | none => .error "unsupported scope"
  | some [] => .error "at least one scope is required"
  | some scopes => .ok (joinScopes scopes)

def scopesAreSubset (requested registered : String) : Bool :=
  (splitWhitespace requested).all (fun scope => decide (scope ∈ splitWhitespace registered))

def verifyPkceS256 (kit : Kit) (codeVerifier codeChallenge : String) : Bool :=
  codeVerifier ≠ "" && codeVerifier.utf8ByteSize ≤ 128 && kit.challenge codeVerifier = codeChallenge

def isLoopbackHost (host : String) : Bool := host ∈ ["localhost","127.0.0.1","::1"]

def parseRedirectUrl (kit : Kit) (raw : String) : Option Url := do
  let url ← kit.parseUrl raw
  if url.fragment.isSome ∨ url.username ≠ "" ∨ url.password.isSome then none
  else
    let host ← url.host
    if url.scheme ≠ "https" ∧ ¬ (url.scheme = "http" ∧ isLoopbackHost host = true) then none else some url

def redirectUriMatches (kit : Kit) (candidate registered : String) : Bool :=
  match parseRedirectUrl kit candidate,parseRedirectUrl kit registered with
  | some candidateUrl,some registeredUrl =>
    if candidateUrl.text = registeredUrl.text then true
    else
      match registeredUrl.host with
      | none => false
      | some host =>
        if ¬ isLoopbackHost host ∨ candidateUrl.scheme ≠ "http" then false
        else candidateUrl.host = some host ∧ candidateUrl.path = registeredUrl.path ∧
          candidateUrl.query = registeredUrl.query
  | _,_ => false

def toAsciiLowercase (text : String) : String := String.ofList (text.toList.map Char.toLower)

def eqIgnoreAsciiCase (a b : String) : Bool := toAsciiLowercase a = toAsciiLowercase b

def isAllowedRegistrationRedirect (kit : Kit) (raw : String) (allowedHosts : List String) : Bool :=
  match parseRedirectUrl kit raw with
  | none => false
  | some url =>
    match url.host with
    | none => false
    | some host =>
      if isLoopbackHost host then url.scheme = "http" ∧ url.path ∈ claudeCodeLoopbackPaths
      else if url.scheme ≠ "https" then false
      else allowedHosts.any (fun allowed => eqIgnoreAsciiCase host allowed)

def toAsciiLowercaseSchemeHost (kit : Kit) (text : String) : String :=
  match kit.parseUrl text with
  | some url => kit.setHost url (url.host.map toAsciiLowercase)
  | none => text

def normalizeResourceUri (kit : Kit) (raw : String) : Option String := do
  let url ← kit.parseUrl raw
  let scheme := toAsciiLowercase url.scheme
  if url.fragment.isSome then none
  else if scheme ≠ "https" ∧ ¬ (scheme = "http" ∧ url.host.any isLoopbackHost = true) then none
  else
    let normalized := if url.text.toList.getLast? = some '/' ∧ url.path ≠ "/" then
      String.ofList url.text.toList.dropLast else url.text
    some (toAsciiLowercaseSchemeHost kit normalized)

-- `char::is_control`
def isControl (c : Char) : Bool := c.toNat < 0x20 || (0x7f ≤ c.toNat && c.toNat ≤ 0x9f)

def stripAndCap (raw : String) (maxChars : Nat) : String :=
  let kept := raw.toList.filter (fun c => c ∉ ['<','>','&','"','\'','/','\\'] && !isControl c)
  String.ofList ((Text.trim kept).take maxChars)

def containsWord (word : List Char) : List Char → Bool
  | [] => word = []
  | c :: rest => word.isPrefixOf (c :: rest) || containsWord word rest

def usesReservedBrand (raw : String) : Bool :=
  let normalized := (raw.toList.filter (fun c => c.isAlphanum)).map Char.toLower
  containsWord "memwal".toList normalized || containsWord "walrusmemory".toList normalized

def sanitizeClientName (raw : String) : Option String :=
  let cleaned := stripAndCap raw displayNameMaxChars
  if cleaned = "" ∨ usesReservedBrand cleaned then none else some cleaned

def sanitizeLabel (raw default : String) : String :=
  let cleaned := stripAndCap raw labelMaxChars
  if cleaned = "" then default else cleaned

-- The rows, without the columns that nothing reads.

inductive Status where
  | active | blocked
  deriving DecidableEq, Repr

structure ClientRow where
  clientSecretSha256 : Option String
  clientName : String
  redirectUris : List String
  grantTypes : List String
  responseTypes : List String
  tokenEndpointAuthMethod : String
  scope : String
  status : Status
  createdAt : Int
  deriving DecidableEq, Repr

inductive DelegateStatus where
  | pending | active | revoked
  deriving DecidableEq, Repr

structure DelegateRow where
  accountId : Option String
  ownerAddress : Option String
  delegatePublicKey : String
  delegateAddress : String
  encryptedPrivateKey : String
  label : String
  status : DelegateStatus
  txDigest : Option String
  updatedAt : Int
  deriving DecidableEq, Repr

inductive SessionStatus where
  | pending | consumed
  deriving DecidableEq, Repr

structure SessionRow where
  clientId : String
  redirectUri : String
  state : Option String
  scope : String
  resource : String
  codeChallenge : String
  delegateRef : String
  status : SessionStatus
  expiresAt : Int
  deriving DecidableEq, Repr

structure CodeRow where
  clientId : String
  redirectUri : String
  scope : String
  resource : String
  codeChallenge : String
  delegateRef : String
  accountId : String
  ownerAddress : String
  expiresAt : Int
  deriving DecidableEq, Repr

structure GrantRow where
  clientId : String
  delegateRef : String
  accountId : String
  ownerAddress : String
  scope : String
  resource : String
  revokedAt : Option Int
  deriving DecidableEq, Repr

inductive TokenType where
  | access | refresh
  deriving DecidableEq, Repr

structure TokenRow where
  grantId : String
  tokenType : TokenType
  expiresAt : Int
  revokedAt : Option Int
  deriving DecidableEq, Repr

structure TokenWithDelegateRow where
  tokenSha256 : String
  grantId : String
  tokenType : TokenType
  expiresAt : Int
  revokedAt : Option Int
  clientId : String
  accountId : String
  ownerAddress : String
  scope : String
  grantRevokedAt : Option Int
  delegateRef : String
  encryptedPrivateKey : String
  delegatePublicKey : String
  delegateStatus : DelegateStatus
  deriving DecidableEq, Repr

-- routes/oauth.rs

structure ClientRegistrationRequest where
  clientName : Option String
  redirectUris : List String
  grantTypes : Option (List String)
  responseTypes : Option (List String)
  tokenEndpointAuthMethod : Option String
  scope : Option String
  deriving DecidableEq, Repr

structure AuthorizeQuery where
  responseType : String
  clientId : String
  redirectUri : String
  codeChallenge : String
  codeChallengeMethod : Option String
  state : Option String
  scope : Option String
  resource : Option String
  deriving DecidableEq, Repr

structure SessionCompleteRequest where
  accountId : String
  ownerAddress : String
  ownerSignature : String
  txDigest : String
  deriving DecidableEq, Repr

structure TokenRequest where
  grantType : String
  code : Option String
  redirectUri : Option String
  codeVerifier : Option String
  refreshToken : Option String
  clientId : Option String
  clientSecret : Option String
  resource : Option String
  deriving DecidableEq, Repr

inductive OAuthBearerError where
  | notOAuthToken | invalid | expired | revoked | delegateNotActive
  | internal
  deriving DecidableEq, Repr

structure ResolvedOAuthIdentity where
  accountId : String
  delegatePrivateKey : String
  grantId : String
  scope : String
  deriving DecidableEq, Repr

end MemWal.OAuth
