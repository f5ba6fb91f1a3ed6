import DecAustrum.Http.TrustedHosts
import DecAustrum.Platform
import DecAustrum.Python.IntText
import DecAustrum.RateLimit

/-!
# Checks before the application

What `SecurityObservabilityMiddleware` looks at before it calls the application: the host, the
scheme, the origin, the announced body and the rate limits. Each check refuses with its own reply.
-/
namespace DecAustrum

open Python

/-! ## Requests -/

/-- The headers of a request: the values of a name. -/
structure Headers where
  getlist : Str → List Str

/-- The first value. -/
def Headers.get (headers : Headers) (name : Str) : Option Str := (headers.getlist name).head?

/-- The raw headers of a response. -/
abbrev RawHeaders := List (Bytes × Bytes)

/-- What the middleware takes from the interpreter and the framework. -/
structure HttpPlatform extends Platform where
  tables : UnicodeTables
  /-- `str.upper`. -/
  upper : Str → Str
  /-- `headers[name] = value` and `headers.append(name, value)`. -/
  setHeader : RawHeaders → Str → Str → RawHeaders
  appendHeader : RawHeaders → Str → Str → RawHeaders

/-- What the middleware reads of the settings. -/
structure RuntimeSettings where
  trustedHosts : List Str
  corsAllowedOrigins : List Str
  enforceHttps : Bool
  maxRequestBodyBytes : Nat
  rateLimitEnabled : Bool
  rateLimitWindowSeconds : Int
  authorizationRateLimit : Int
  tenantRateLimit : Int
  adminRateLimit : Int

/-- An HTTP request, with the defaults for what a server leaves out. -/
structure Scope where
  headers : Headers
  method : Str := "UNKNOWN"
  path : Str := ""
  scheme : Str := "http"
  /-- The address of the client. -/
  client : Option Str := none

/-! ## Replies -/

/-- `_send_json_error` and `_send_empty`, with their arguments. -/
inductive Reply where
  | jsonError (statusCode : Int) (code message : Str) (origin : Option Str)
      (rateDecision : Option RateLimitDecision) (extraHeaders : List (Str × Str))
  | empty (statusCode : Int) (origin : Option Str)

namespace Reply

def statusCode : Reply → Int
  | jsonError statusCode .. => statusCode
  | empty statusCode _ => statusCode

end Reply

/-- The security event that is counted, and the reply. -/
structure Refusal where
  event : Option Str
  reply : Reply

/-- An event and the error that has its name. -/
def Refusal.error (statusCode : Int) (code message : Str) (origin : Option Str) : Refusal :=
  ⟨some code, .jsonError statusCode code message origin none []⟩

def jsonBodyMethods : List Str := ["POST", "PUT", "PATCH"]

/-- In the order of `sorted`. -/
def corsMethods : List Str := ["DELETE", "GET", "OPTIONS", "PATCH", "POST", "PUT"]

/-- In the order of `sorted`. -/
def corsHeaders : List Str :=
  ["accept", "content-type", "idempotency-key", "x-admin-actor", "x-admin-api-key", "x-api-key",
    "x-audit-reason", "x-request-id"]

def stripSpaces (s : Str) : Str := (s.dropWhile isSpace).rdropWhile isSpace

def slash : CodePoint := 0x2f

/-- `_origin_allowed`. -/
def originAllowed (origin : Str) (allowedOrigins : List Str) : Bool :=
  allowedOrigins.any fun configured => origin.rdropWhile (· = slash) = configured.rdropWhile (· = slash)

/-- `_content_length`; `none` is `InvalidContentLength`. -/
def contentLength (platform : HttpPlatform) (headers : Headers) : Option Nat :=
  let rawValues := headers.getlist "content-length"
  let chunked := match headers.get "transfer-encoding" with
    | none => true
    | some encoding => rawValues.isEmpty && platform.tables.lower (stripSpaces encoding) = "chunked"
  if chunked then
    match rawValues with
    | [] => some 0
    | [rawValue] => (readInteger rawValue).bind fun value => if value < 0 then none else some value.toNat
    | _ => none
  else none

/-- `_is_json_content_type`. -/
def isJsonContentType (platform : HttpPlatform) (headers : Headers) : Bool :=
  let contentType := (headers.get "content-type").getD []
  let mediaType := platform.tables.lower (stripSpaces (contentType.takeWhile (· ≠ 0x3b)))
  mediaType = "application/json" || ("+json" : Str).isSuffixOf mediaType

/-- `_rate_policy`: the policy, the credential and the limit. -/
def ratePolicy (settings : RuntimeSettings) (scope : Scope) : Option (Str × Option Str × Int) :=
  if scope.path = "/v1/authorize" then
    some ("authorization", scope.headers.get "x-api-key", settings.authorizationRateLimit)
  else if ("/v1/admin/" : Str).isPrefixOf scope.path || scope.path = "/metrics" then
    some ("admin", scope.headers.get "x-admin-api-key", settings.adminRateLimit)
  else if ("/v1/" : Str).isPrefixOf scope.path then
    some ("tenant", scope.headers.get "x-api-key", settings.tenantRateLimit)
  else none

/-- `rate_limit_subject`; `none` is a `UnicodeEncodeError`. -/
def rateLimitSubject (platform : HttpPlatform) (credential clientHost : Option Str) : Option Str :=
  let host : Str := if clientHost.getD [] = [] then "unknown" else clientHost.getD []
  let source : Str :=
    if credential.getD [] ≠ [] then ofString "credential:" ++ credential.getD []
    else ofString "anonymous:" ++ host
  (encodeUtf8 source).map platform.sha256

/-! ## The checks in their order -/

section

variable (platform : HttpPlatform) (settings : RuntimeSettings) (scope : Scope)

def requestMethod : Str := platform.upper scope.method

/-- The origin of the request, when it is an allowed one. -/
def allowedOrigin : Option Str :=
  (scope.headers.get "origin").filter fun origin => originAllowed origin settings.corsAllowedOrigins

def hostRefusal : Option Refusal :=
  if passesHostCheck platform.tables (scope.headers.getlist "host") settings.trustedHosts then none
  else some (.error 400 "invalid_host" "Request host is not trusted." (allowedOrigin settings scope))

def httpsRefusal : Option Refusal :=
  if settings.enforceHttps && scope.scheme ≠ "https" then
    some (.error 400 "https_required" "HTTPS is required." (allowedOrigin settings scope))
  else none

def originRefusal : Option Refusal :=
  if (scope.headers.get "origin").isSome && (allowedOrigin settings scope).isNone then
    some (.error 403 "cors_origin_denied" "Request origin is not allowed." none)
  else none

/-- A preflight request is answered, one way or the other. -/
def preflight : Option Refusal :=
  match allowedOrigin settings scope, scope.headers.get "access-control-request-method" with
  | some origin, some requested =>
    if requestMethod platform scope = "OPTIONS" then
      let names := split 0x2c ((scope.headers.get "access-control-request-headers").getD [])
      let requestedHeaders := (names.filter fun name => stripSpaces name ≠ []).map fun name =>
        platform.tables.lower (stripSpaces name)
      if platform.upper requested ∈ corsMethods ∧ requestedHeaders ⊆ corsHeaders then
        some ⟨none, .empty 204 (some origin)⟩
      else
        some (.error 403 "cors_preflight_denied" "CORS preflight is not allowed." (some origin))
    else none
  | _, _ => none

/-- The announced length and the content type. -/
def bodyRefusal : Option Refusal :=
  match contentLength platform scope.headers with
  | none =>
    some (.error 400 "invalid_content_length" "Content-Length must be a non-negative integer."
      (allowedOrigin settings scope))
  | some length =>
    if settings.maxRequestBodyBytes < length then
      some (.error 413 "request_body_too_large" "Request body exceeds the configured limit."
        (allowedOrigin settings scope))
    else
      let hasBody := 0 < length || (scope.headers.get "transfer-encoding").isSome
      if ("/v1/" : Str).isPrefixOf scope.path && jsonBodyMethods.contains (requestMethod platform scope) &&
          hasBody && !isJsonContentType platform scope.headers then
        some (.error 415 "unsupported_content_type" "Request body must use application/json."
          (allowedOrigin settings scope))
      else none

/-- The decision on the client, and on the credential where one is given: the stricter one counts.
The clock is read for each; `none` is an exception. -/
def rateDecision (limiter : FixedWindowRateLimiter) (clientNow credentialNow : Double) :
    Option (Option RateLimitDecision) × FixedWindowRateLimiter :=
  match if settings.rateLimitEnabled then ratePolicy settings scope else none with
  | none => (some none, limiter)
  | some (policyName, credential, limit) =>
    match rateLimitSubject platform none scope.client with
    | none => (none, limiter)
    | some subject =>
      match limiter.check (policyName ++ ofString ":client") subject limit
        settings.rateLimitWindowSeconds clientNow with
      | (.error _, limiter) => (none, limiter)
      | (.ok clientDecision, limiter) =>
        if clientDecision.allowed && credential.getD [] ≠ [] then
          match rateLimitSubject platform credential scope.client with
          | none => (none, limiter)
          | some subject =>
            match limiter.check (policyName ++ ofString ":credential") subject limit
              settings.rateLimitWindowSeconds credentialNow with
            | (.error _, limiter) => (none, limiter)
            | (.ok credentialDecision, limiter) =>
              if !credentialDecision.allowed || credentialDecision.remaining < clientDecision.remaining then
                (some (some credentialDecision), limiter)
              else (some (some clientDecision), limiter)
        else (some (some clientDecision), limiter)

/-- What the checks come to. -/
inductive Admission where
  | refused (refusal : Refusal)
  /-- The application is called. -/
  | admitted (rateDecision : Option RateLimitDecision)
  /-- A check raises. -/
  | failed

/-- The checks, up to the call of the application. -/
def admission (limiter : FixedWindowRateLimiter) (clientNow credentialNow : Double) :
    Admission × FixedWindowRateLimiter :=
  match hostRefusal platform settings scope <|> httpsRefusal settings scope <|>
    originRefusal settings scope <|> preflight platform settings scope <|>
    bodyRefusal platform settings scope with
  | some refusal => (.refused refusal, limiter)
  | none =>
    match rateDecision platform settings scope limiter clientNow credentialNow with
    | (none, limiter) => (.failed, limiter)
    | (some none, limiter) => (.admitted none, limiter)
    | (some (some decision), limiter) =>
      if decision.allowed then (.admitted (some decision), limiter)
      else
        (.refused ⟨some "rate_limit_exceeded", .jsonError 429 "rate_limit_exceeded"
          "Request rate limit exceeded." (allowedOrigin settings scope) (some decision)
          [("Retry-After", Json.intText decision.retryAfter)]⟩, limiter)

/-! ## Response headers -/

/-- `_rate_headers`. -/
def rateHeaders : Option RateLimitDecision → List (Str × Str)
  | none => []
  | some decision =>
    [("RateLimit-Limit", Json.intText decision.limit),
      ("RateLimit-Remaining", Json.intText decision.remaining),
      ("RateLimit-Reset", Json.intText decision.resetAt)]

/-- One assignment after the other. -/
def setHeaders (headers : RawHeaders) (pairs : List (Str × Str)) : RawHeaders :=
  pairs.foldl (fun headers pair => platform.setHeader headers pair.1 pair.2) headers

/-- `_apply_response_headers`. -/
def applyResponseHeaders (requestId : Str) (origin : Option Str)
    (rateDecision : Option RateLimitDecision) (headers : RawHeaders) : RawHeaders :=
  let common : List (Str × Str) :=
    [("X-Request-ID", requestId), ("X-Content-Type-Options", "nosniff"), ("X-Frame-Options", "DENY"),
      ("Referrer-Policy", "no-referrer"), ("Cache-Control", "no-store"),
      ("Permissions-Policy", "camera=(), microphone=(), geolocation=()")]
  let transport : List (Str × Str) :=
    if scope.scheme = "https" then
      [("Strict-Transport-Security", "max-age=31536000; includeSubDomains")]
    else []
  let headers := setHeaders platform headers (common ++ transport ++ rateHeaders rateDecision)
  match origin with
  | none => headers
  | some origin =>
    platform.appendHeader
      (setHeaders platform headers
        [("Access-Control-Allow-Origin", origin),
          ("Access-Control-Expose-Headers",
            "X-Request-ID, RateLimit-Limit, RateLimit-Remaining, RateLimit-Reset")])
      "Vary" "Origin"

end

end DecAustrum
