import DecAustrum.Http.RequestChecks
import DecAustrum.Reference
import Mathlib.Logic.Relation

/-!
# The middleware

One HTTP request through `SecurityObservabilityMiddleware`, as steps: the checks, the calls the
application makes of the wrapped `receive` and `send`, the exception handlers and `finish`. The
application and the server are arbitrary.
-/
namespace DecAustrum

open Python

/-! ## Messages and the application -/

inductive Message where
  | request (body : Bytes) (moreBody : Bool)
  | disconnect
  /-- The status is absent where it is missing or no number, the headers where they are missing. -/
  | responseStart (status : Option Int) (headers : Option RawHeaders)
  | responseBody (body : Bytes)
  | other (type : Str)
  deriving DecidableEq

def Message.isStart : Message → Bool
  | responseStart .. => true
  | _ => false

/-- `len(message.get("body", b""))` of a part of the request. -/
def Message.bodyLength : Message → Nat
  | request body _ => body.length
  | _ => 0

inductive Raised where
  | requestBodyTooLarge
  /-- Any other `Exception`. -/
  | exception
  /-- A `BaseException` that is none, such as a cancellation. -/
  | base
  deriving DecidableEq

/-- What happens between the application and the callables it is given. -/
inductive AppEvent where
  | received (result : Except Raised Message)
  | sent (message : Message) (error : Option Raised)

def AppEvent.isStart : AppEvent → Bool
  | sent message _ => message.isStart
  | received _ => false

/-- An application: what it may do in each of its states, and how it may end. -/
structure App where
  Local : Type
  start : Local
  step : Local → AppEvent → Local → Prop
  returns : Local → Prop
  raises : Local → Raised → Prop

/-- What the application has done up to a state of its own. -/
inductive App.Run (app : App) : List AppEvent → app.Local → Prop where
  | start : App.Run app [] app.start
  | step {events : List AppEvent} {before after : app.Local} {event : AppEvent}
      (run : App.Run app events before) (next : app.step before event after) :
      App.Run app (events ++ [event]) after

/-- The application itself sends at most one `http.response.start`. -/
def App.SendsOneStart (app : App) : Prop :=
  ∀ events at', app.Run events at' → events.countP AppEvent.isStart ≤ 1

/-! ## The call -/

inductive Phase (Local : Type) where
  | called
  /-- The application runs. -/
  | running (rateDecision : Option RateLimitDecision) (at' : Local)
  /-- Messages of a reply that are not sent yet. -/
  | replying (rest : List Message)
  /-- With the exception that escapes. -/
  | ended (escaped : Option Raised)

/-- One call of the middleware: its variables, what the application was given, what reached the
server, and what the metrics were told. -/
structure Call (Local : Type) where
  phase : Phase Local := .called
  statusCode : Int := 500
  receivedBytes : Nat := 0
  responseStarted : Bool := false
  delivered : List Message := []
  sent : List Message := []
  requestsStarted : Nat := 0
  requestsFinished : List Int := []
  securityEvents : List Str := []

/-- The bytes of an ASCII text. -/
def asciiBytes (text : Str) : Bytes := text.map fun c => UInt8.ofNat c.val

/-- The messages of a reply. -/
def Reply.messages (platform : HttpPlatform) (scope : Scope) (requestId : Str) : Reply → List Message
  | jsonError statusCode code message origin rateDecision extraHeaders =>
    let detail : Json := .obj [("code", .str code), ("message", .str message)]
    let body := asciiBytes (Json.text platform.floats ⟨true, ",", ":"⟩ (.obj [("detail", detail)]))
    let rawHeaders := [(asciiBytes "content-type", asciiBytes "application/json"),
      (asciiBytes "content-length", asciiBytes (decimal body.length))]
    let headers := applyResponseHeaders platform scope requestId origin rateDecision rawHeaders
    [.responseStart (some statusCode) (some (setHeaders platform headers extraHeaders)), .responseBody body]
  | empty statusCode origin =>
    let rawHeaders := [(asciiBytes "content-length", asciiBytes "0")]
    let headers := applyResponseHeaders platform scope requestId origin none rawHeaders
    let preflightHeaders : List (Str × Str) :=
      [("Access-Control-Allow-Methods", (ofString ", ").intercalate corsMethods),
        ("Access-Control-Allow-Headers", (ofString ", ").intercalate corsHeaders),
        ("Access-Control-Max-Age", "600")]
    [.responseStart (some statusCode) (some (setHeaders platform headers preflightHeaders)), .responseBody []]

namespace Call

variable {Local : Type}

def record (event : Option Str) (call : Call Local) : Call Local :=
  { call with securityEvents := call.securityEvents ++ event.toList }

/-- `finish`, on the way out. -/
def finish (escaped : Option Raised) (call : Call Local) : Call Local :=
  { call.record (if call.statusCode = 401 then some "authentication_failed" else none) with
    phase := .ended escaped
    requestsFinished := call.requestsFinished ++ [call.statusCode] }

/-- `limited_receive` of what the server gives: what the application gets. -/
def limitedReceive (settings : RuntimeSettings) (message : Message) (call : Call Local) :
    Except Raised Message × Call Local :=
  match message with
  | .request .. =>
    let receivedBytes := call.receivedBytes + message.bodyLength
    if settings.maxRequestBodyBytes < receivedBytes then
      (.error .requestBodyTooLarge, { call with receivedBytes })
    else (.ok message, { call with receivedBytes, delivered := call.delivered ++ [message] })
  | _ => (.ok message, { call with delivered := call.delivered ++ [message] })

section

variable (platform : HttpPlatform) (scope : Scope) (requestId : Str)

/-- The status and the reply, in an early return or a handler. -/
def respond (refusal : Refusal) (call : Call Local) : Call Local :=
  { call.record refusal.event with
    statusCode := refusal.reply.statusCode
    phase := .replying (refusal.reply.messages platform scope requestId) }

/-- `secured_send`: the message the server is to send, if none of it raises. -/
def securedSend (settings : RuntimeSettings) (rateDecision : Option RateLimitDecision)
    (message : Message) (call : Call Local) : Except Raised Message × Call Local :=
  match message with
  | .responseStart status headers =>
    let call := { call with responseStarted := true }
    match status with
    | none => (.error .exception, call)
    | some status =>
      let call := { call with statusCode := status }
      match headers with
      | none => (.error .exception, call)
      | some headers =>
        (.ok (.responseStart (some status) (some (applyResponseHeaders platform scope requestId
          (allowedOrigin settings scope) rateDecision headers))), call)
  | _ => (.ok message, call)

/-- The exception handlers around the application. -/
def handle (settings : RuntimeSettings) (rateDecision : Option RateLimitDecision) (raised : Raised)
    (call : Call Local) : Call Local :=
  let origin := allowedOrigin settings scope
  match raised with
  | .requestBodyTooLarge =>
    if call.responseStarted then { call with statusCode := 500 }.finish (some raised)
    else call.respond platform scope requestId ⟨some "request_body_too_large",
      .jsonError 413 "request_body_too_large" "Request body exceeds the configured limit." origin
        rateDecision []⟩
  | .exception =>
    let call := call.record (some "unhandled_exception")
    if call.responseStarted then { call with statusCode := 500 }.finish (some raised)
    else call.respond platform scope requestId ⟨none,
      .jsonError 500 "internal_server_error" "An unexpected error occurred." origin rateDecision []⟩
  | .base => call.finish (some raised)

end

end Call

section

variable (platform : HttpPlatform) (settings : RuntimeSettings) (scope : Scope) (requestId : Str)
  (app : App)

/-- `request_started`, and the way on from the checks. -/
def Call.enter (admission : Admission) (call : Call app.Local) : Call app.Local :=
  let call := { call with requestsStarted := call.requestsStarted + 1 }
  match admission with
  | .refused refusal => call.respond platform scope requestId refusal
  | .admitted rateDecision => { call with phase := .running rateDecision app.start }
  | .failed => call.finish (some .exception)

/-- What can happen next. -/
inductive Step : Call app.Local → Call app.Local → Prop where
  | enter (call : Call app.Local) (called : call.phase = .called) (limiter : FixedWindowRateLimiter)
      (clientNow credentialNow : Double) :
      Step call (call.enter platform scope requestId app
        (admission platform settings scope limiter clientNow credentialNow).1)
  /-- The server's `receive` gives a message. -/
  | receive (call : Call app.Local) {rateDecision : Option RateLimitDecision} {before after : app.Local}
      (running : call.phase = .running rateDecision before) (message : Message)
      (next : app.step before (.received (call.limitedReceive settings message).1) after) :
      Step call { (call.limitedReceive settings message).2 with phase := .running rateDecision after }
  /-- The server's `receive` raises. -/
  | receiveRaises (call : Call app.Local) {rateDecision : Option RateLimitDecision}
      {before after : app.Local} (running : call.phase = .running rateDecision before) (error : Raised)
      (next : app.step before (.received (.error error)) after) :
      Step call { call with phase := .running rateDecision after }
  /-- `secured_send` raises before it calls the server's `send`. -/
  | sendRaises (call : Call app.Local) {rateDecision : Option RateLimitDecision}
      {before after : app.Local} (running : call.phase = .running rateDecision before)
      (message : Message) {error : Raised} {later : Call app.Local}
      (wrapped : call.securedSend platform scope requestId settings rateDecision message =
        (.error error, later))
      (next : app.step before (.sent message (some error)) after) :
      Step call { later with phase := .running rateDecision after }
  /-- The server's `send` is called; it returns or raises. -/
  | send (call : Call app.Local) {rateDecision : Option RateLimitDecision} {before after : app.Local}
      (running : call.phase = .running rateDecision before) (message : Message) {out : Message}
      {later : Call app.Local}
      (wrapped : call.securedSend platform scope requestId settings rateDecision message = (.ok out, later))
      (result : Option Raised) (next : app.step before (.sent message result) after) :
      Step call { later with sent := later.sent ++ [out], phase := .running rateDecision after }
  | returns (call : Call app.Local) {rateDecision : Option RateLimitDecision} {before : app.Local}
      (running : call.phase = .running rateDecision before) (done : app.returns before) :
      Step call (call.finish none)
  | raises (call : Call app.Local) {rateDecision : Option RateLimitDecision} {before : app.Local}
      (running : call.phase = .running rateDecision before) {error : Raised}
      (done : app.raises before error) :
      Step call (call.handle platform scope requestId settings rateDecision error)
  /-- One message of a reply. -/
  | reply (call : Call app.Local) {message : Message} {rest : List Message}
      (replying : call.phase = .replying (message :: rest)) :
      Step call { call with sent := call.sent ++ [message], phase := .replying rest }
  /-- The server's `send` raises in a reply. -/
  | replyRaises (call : Call app.Local) {message : Message} {rest : List Message}
      (replying : call.phase = .replying (message :: rest)) (error : Raised) :
      Step call ({ call with sent := call.sent ++ [message] }.finish (some error))
  | replied (call : Call app.Local) (replying : call.phase = .replying []) : Step call (call.finish none)

/-- What a call can come to. -/
def Reached (call : Call app.Local) : Prop :=
  Relation.ReflTransGen (Step platform settings scope requestId app) {} call

end

/-! ## What the callables do -/

theorem starts_append (messages : List Message) (message : Message) :
    (messages ++ [message]).countP Message.isStart =
      messages.countP Message.isStart + if message.isStart then 1 else 0 := by
  rw [List.countP_append, List.countP_singleton]

/-- A reply has one start, with its status. -/
theorem Reply.messages_start (platform : HttpPlatform) (scope : Scope) (requestId : Str) (reply : Reply) :
    ∃ headers body, reply.messages platform scope requestId =
      [.responseStart (some reply.statusCode) (some headers), .responseBody body] := by
  cases reply with
  | jsonError => exact ⟨_, _, rfl⟩
  | empty => exact ⟨_, _, rfl⟩

namespace Call

variable {Local : Type} {call : Call Local}

/-- What the application was handed of the body. -/
def handed (call : Call Local) : Nat := (call.delivered.map Message.bodyLength).sum

/-- The bytes handed over are among those counted, and within the limit. -/
def Within (settings : RuntimeSettings) (call : Call Local) : Prop :=
  call.handed ≤ call.receivedBytes ∧ call.handed ≤ settings.maxRequestBodyBytes

/-- Every start among the messages has the status of the call. -/
def Records (call : Call Local) (messages : List Message) : Prop :=
  ∀ status headers, Message.responseStart status headers ∈ messages → status = some call.statusCode

/-- `limited_receive` changes the count of bytes and what was handed over, and nothing else. -/
theorem limitedReceive_eq (settings : RuntimeSettings) (message : Message) (call : Call Local) :
    (call.limitedReceive settings message).2 =
      { call with
        receivedBytes := (call.limitedReceive settings message).2.receivedBytes
        delivered := (call.limitedReceive settings message).2.delivered } := by
  unfold limitedReceive
  cases message with
  | request body moreBody =>
    dsimp only
    split <;> rfl
  | _ => rfl

theorem Within.limitedReceive {settings : RuntimeSettings} (within : call.Within settings)
    (message : Message) : (call.limitedReceive settings message).2.Within settings := by
  have total (m : Message) : ((call.delivered ++ [m]).map Message.bodyLength).sum =
      call.handed + m.bodyLength := by
    rw [List.map_append, List.sum_append, List.map_singleton, List.sum_singleton, handed]
  have bodiless (m : Message) (none : m.bodyLength = 0) :
      ({ call with delivered := call.delivered ++ [m] } : Call Local).Within settings := by
    unfold Within handed
    rw [total, none]
    exact within
  cases message with
  | request body moreBody =>
    rw [Call.limitedReceive]
    split
    next beyond => exact ⟨Nat.le_trans within.1 (Nat.le_add_right _ _), within.2⟩
    next fits =>
      have counted := within.1
      unfold Within handed
      dsimp only
      rw [total]
      omega
  | disconnect => exact bodiless _ rfl
  | responseStart status headers => exact bodiless _ rfl
  | responseBody body => exact bodiless _ rfl
  | other type => exact bodiless _ rfl

section

variable {platform : HttpPlatform} {scope : Scope} {requestId : Str} {settings : RuntimeSettings}
  {rateDecision : Option RateLimitDecision} {message out : Message} {later : Call Local}

/-- A message that is no start passes as it is. -/
theorem securedSend_plain (call : Call Local) (plain : message.isStart = false) :
    call.securedSend platform scope requestId settings rateDecision message = (.ok message, call) := by
  cases message with
  | responseStart => cases plain
  | _ => rfl

/-- A start sets the flag and the status; what is passed on has that status. -/
theorem securedSend_start {result : Except Raised Message} (start : message.isStart = true)
    (wrapped : call.securedSend platform scope requestId settings rateDecision message = (result, later)) :
    (∃ statusCode, later = { call with responseStarted := true, statusCode }) ∧
      ∀ out, result = .ok out → ∃ headers, out = .responseStart (some later.statusCode) headers := by
  cases message with
  | responseStart status headers =>
    unfold securedSend at wrapped
    dsimp only at wrapped
    split at wrapped
    next =>
      cases wrapped
      exact ⟨⟨_, rfl⟩, fun out same => by cases same⟩
    next status =>
      split at wrapped
      · cases wrapped
        exact ⟨⟨_, rfl⟩, fun out same => by cases same⟩
      · cases wrapped
        exact ⟨⟨_, rfl⟩, fun out same => by cases same; exact ⟨_, rfl⟩⟩
  | _ => cases start

end

end Call

/-! ## What holds at every moment -/

section

variable {platform : HttpPlatform} {settings : RuntimeSettings} {scope : Scope} {requestId : Str}
  {app : App}

/-- What holds of a call in each of its phases. -/
inductive Consistent (call : Call app.Local) : Prop where
  | called (phase : call.phase = .called) (silent : call.sent = [])
      (untouched : call.responseStarted = false) (started : call.requestsStarted = 0)
      (finished : call.requestsFinished = [])
  /-- The starts that reached the server are among those of the application. -/
  | running {rateDecision : Option RateLimitDecision} {at' : app.Local} {events : List AppEvent}
      (phase : call.phase = .running rateDecision at') (run : app.Run events at')
      (starts : call.sent.countP Message.isStart ≤ events.countP AppEvent.isStart)
      (untouched : call.responseStarted = false → call.sent.countP Message.isStart = 0)
      (records : call.Records call.sent) (started : call.requestsStarted = 1)
      (finished : call.requestsFinished = [])
  | replying {rest : List Message} (phase : call.phase = .replying rest)
      (single : (call.sent ++ rest).countP Message.isStart ≤ 1)
      (records : call.Records (call.sent ++ rest)) (started : call.requestsStarted = 1)
      (finished : call.requestsFinished = [])
  | ended {escaped : Option Raised} (phase : call.phase = .ended escaped)
      (single : call.sent.countP Message.isStart ≤ 1)
      (records : escaped = none → call.Records call.sent) (started : call.requestsStarted = 1)
      (finished : call.requestsFinished = [call.statusCode])

namespace Consistent

variable {call : Call app.Local}

theorem finish {escaped : Option Raised} (single : call.sent.countP Message.isStart ≤ 1)
    (records : escaped = none → call.Records call.sent) (started : call.requestsStarted = 1)
    (finished : call.requestsFinished = []) : Consistent (call.finish escaped) := by
  refine .ended rfl single records started ?_
  change call.requestsFinished ++ [call.statusCode] = [call.statusCode]
  rw [finished, List.nil_append]

/-- A reply is begun only where nothing was sent. -/
theorem respond (refusal : Refusal) (silent : call.sent.countP Message.isStart = 0)
    (started : call.requestsStarted = 1) (finished : call.requestsFinished = []) :
    Consistent (call.respond platform scope requestId refusal) := by
  obtain ⟨headers, body, messages⟩ := refusal.reply.messages_start platform scope requestId
  refine .replying rfl ?_ ?_ started finished
  · rw [messages]
    change (call.sent ++ [_, _]).countP Message.isStart ≤ 1
    rw [List.countP_append, silent]
    exact Nat.le_refl 1
  · intro status headers' inside
    rw [messages] at inside
    change _ ∈ call.sent ++ [_, _] at inside
    rw [List.mem_append, List.mem_cons, List.mem_singleton] at inside
    rcases inside with before | same | same
    · exact absurd rfl (List.countP_eq_zero.mp silent _ before)
    · cases same
      rfl
    · cases same

/-- An exception of the application is answered only before its response. -/
theorem handle {rateDecision : Option RateLimitDecision} (raised : Raised)
    (single : call.sent.countP Message.isStart ≤ 1)
    (untouched : call.responseStarted = false → call.sent.countP Message.isStart = 0)
    (started : call.requestsStarted = 1) (finished : call.requestsFinished = []) :
    Consistent (call.handle platform scope requestId settings rateDecision raised) := by
  unfold Call.handle
  cases raised with
  | requestBodyTooLarge =>
    dsimp only
    split
    next => exact finish single (fun none => by cases none) started finished
    next clean => exact respond _ (untouched (Bool.eq_false_iff.mpr clean)) started finished
  | exception =>
    dsimp only
    split
    next => exact finish single (fun none => by cases none) started finished
    next clean => exact respond _ (untouched (Bool.eq_false_iff.mpr clean)) started finished
  | base => exact finish single (fun none => by cases none) started finished

/-- Where the application sends its start, nothing like it was sent before. -/
theorem first_start {events : List AppEvent} {before after : app.Local} {message : Message}
    {error : Option Raised} (oneStart : app.SendsOneStart) (run : app.Run events before)
    (starts : call.sent.countP Message.isStart ≤ events.countP AppEvent.isStart)
    (next : app.step before (.sent message error) after) (kind : message.isStart = true) :
    call.sent.countP Message.isStart = 0 := by
  have bound := oneStart _ _ (run.step next)
  rw [List.countP_append, List.countP_singleton, AppEvent.isStart, if_pos kind] at bound
  omega

/-- Every step keeps it, where the application sends one start at most. -/
theorem step {later : Call app.Local} (oneStart : app.SendsOneStart) (before : Consistent call)
    (next : Step platform settings scope requestId app call later) : Consistent later := by
  cases next with
  | enter called limiter clientNow credentialNow =>
    cases before with
    | called _ silent untouched started finished =>
      have once : call.requestsStarted + 1 = 1 := by rw [started]
      have none : call.sent.countP Message.isStart = 0 := by rw [silent]; rfl
      unfold Call.enter
      split
      · exact respond _ none once finished
      · refine .running rfl .start (by rw [none]; exact Nat.zero_le _) (fun _ => none) ?_ once finished
        intro status headers inside
        rw [silent] at inside
        cases inside
      · exact finish (by rw [none]; exact Nat.zero_le _) (fun same => by cases same) once finished
    | _ phase => rw [called] at phase; cases phase
  | receive running message next =>
    cases before with
    | running phase run starts untouched records started finished =>
      rw [running] at phase
      cases phase
      rw [Call.limitedReceive_eq]
      refine .running rfl (run.step next) ?_ untouched records started finished
      rw [List.countP_append]
      exact Nat.le_trans starts (Nat.le_add_right _ _)
    | _ phase => rw [running] at phase; cases phase
  | receiveRaises running error next =>
    cases before with
    | running phase run starts untouched records started finished =>
      rw [running] at phase
      cases phase
      refine .running rfl (run.step next) ?_ untouched records started finished
      rw [List.countP_append]
      exact Nat.le_trans starts (Nat.le_add_right _ _)
    | _ phase => rw [running] at phase; cases phase
  | sendRaises running message wrapped next =>
    cases before with
    | running phase run starts untouched records started finished =>
      rw [running] at phase
      cases phase
      cases kind : message.isStart with
      | false =>
        rw [Call.securedSend_plain call kind] at wrapped
        cases wrapped
      | true =>
        obtain ⟨⟨statusCode, rfl⟩, -⟩ := Call.securedSend_start kind wrapped
        have none := first_start oneStart run starts next kind
        refine .running rfl (run.step next) ?_ (fun _ => none) ?_ started finished
        · change call.sent.countP Message.isStart ≤ _
          rw [none]
          exact Nat.zero_le _
        · intro status headers inside
          exact absurd rfl (List.countP_eq_zero.mp none _ inside)
    | _ phase => rw [running] at phase; cases phase
  | send running message wrapped result next =>
    cases before with
    | running phase run starts untouched records started finished =>
      rw [running] at phase
      cases phase
      cases kind : message.isStart with
      | false =>
        rw [Call.securedSend_plain call kind] at wrapped
        cases wrapped
        have same : (call.sent ++ [message]).countP Message.isStart = call.sent.countP Message.isStart := by
          rw [starts_append, kind]
          rfl
        refine .running rfl (run.step next) ?_ (fun clean => same.trans (untouched clean)) ?_ started finished
        · change (call.sent ++ [message]).countP Message.isStart ≤ _
          rw [same, List.countP_append]
          exact Nat.le_trans starts (Nat.le_add_right _ _)
        · intro status headers inside
          rcases List.mem_append.mp inside with before | last
          · exact records status headers before
          · rw [List.mem_singleton] at last
            subst last
            cases kind
      | true =>
        obtain ⟨⟨statusCode, rfl⟩, passed⟩ := Call.securedSend_start kind wrapped
        obtain ⟨headers, rfl⟩ := passed _ rfl
        have none := first_start oneStart run starts next kind
        refine .running rfl (run.step next) ?_ (fun clean => by cases clean) ?_ started finished
        · change (call.sent ++ [_]).countP Message.isStart ≤ _
          rw [starts_append, none, List.countP_append]
          refine Nat.le_trans ?_ (Nat.le_add_left _ _)
          rw [List.countP_singleton, AppEvent.isStart, kind]
          exact Nat.le_refl 1
        · intro status headers' inside
          rcases List.mem_append.mp inside with before | last
          · exact absurd rfl (List.countP_eq_zero.mp none _ before)
          · rw [List.mem_singleton] at last
            cases last
            rfl
    | _ phase => rw [running] at phase; cases phase
  | returns running done =>
    cases before with
    | running phase run starts untouched records started finished =>
      exact finish (Nat.le_trans starts (oneStart _ _ run)) (fun _ => records) started finished
    | _ phase => rw [running] at phase; cases phase
  | raises running done =>
    cases before with
    | running phase run starts untouched records started finished =>
      exact handle _ (Nat.le_trans starts (oneStart _ _ run)) untouched started finished
    | _ phase => rw [running] at phase; cases phase
  | reply replying =>
    cases before with
    | replying phase single records started finished =>
      rw [replying] at phase
      cases phase
      rw [List.append_cons] at single records
      exact .replying rfl single records started finished
    | _ phase => rw [replying] at phase; cases phase
  | replyRaises replying error =>
    cases before with
    | replying phase single records started finished =>
      rw [replying] at phase
      cases phase
      refine finish ?_ (fun none => by cases none) started finished
      rw [List.append_cons] at single
      exact Nat.le_trans (List.sublist_append_left _ _).countP_le single
    | _ phase => rw [replying] at phase; cases phase
  | replied replying =>
    cases before with
    | replying phase single records started finished =>
      rw [replying] at phase
      cases phase
      rw [List.append_nil] at single records
      exact finish single (fun _ => records) started finished
    | _ phase => rw [replying] at phase; cases phase

end Consistent

/-- Only `limited_receive` hands anything over. -/
theorem Call.Within.step {call later : Call app.Local} (within : call.Within settings)
    (next : Step platform settings scope requestId app call later) : later.Within settings := by
  cases next with
  | enter =>
    unfold Call.enter
    split <;> exact within
  | receive _ message _ => exact Call.Within.limitedReceive within message
  | sendRaises _ message wrapped _ =>
    cases kind : message.isStart with
    | false =>
      rw [Call.securedSend_plain call kind] at wrapped
      cases wrapped
    | true =>
      obtain ⟨⟨statusCode, rfl⟩, -⟩ := Call.securedSend_start kind wrapped
      exact within
  | send _ message wrapped _ _ =>
    cases kind : message.isStart with
    | false =>
      rw [Call.securedSend_plain call kind] at wrapped
      cases wrapped
      exact within
    | true =>
      obtain ⟨⟨statusCode, rfl⟩, -⟩ := Call.securedSend_start kind wrapped
      exact within
  | raises _ done =>
    unfold Call.handle
    dsimp only
    split
    · split <;> exact within
    · split <;> exact within
    · exact within
  | receiveRaises | returns | reply | replyRaises | replied => exact within

/-- Both hold of whatever a call comes to. -/
theorem Reached.sound {call : Call app.Local} (oneStart : app.SendsOneStart)
    (reached : Reached platform settings scope requestId app call) :
    Consistent call ∧ call.Within settings := by
  induction reached with
  | refl => exact ⟨.called rfl rfl rfl rfl rfl, Nat.le_refl 0, Nat.zero_le _⟩
  | tail _ next ih => exact ⟨ih.1.step oneStart next, ih.2.step next⟩

end

/-! ## One response within the limit -/

/-- What the middleware promises of a call, at any moment. -/
structure Promised {Local : Type} (settings : RuntimeSettings) (call : Call Local) : Prop where
  /-- The body the application is handed stays within the limit. -/
  body : (call.delivered.map Message.bodyLength).sum ≤ settings.maxRequestBodyBytes
  oneStart : call.sent.countP Message.isStart ≤ 1
  atMostOnce : call.requestsStarted ≤ 1 ∧ call.requestsFinished.length ≤ 1
  /-- The metrics are told of the request once, and of its end once. -/
  exactlyOnce : ∀ escaped, call.phase = .ended escaped →
    call.requestsStarted = 1 ∧ call.requestsFinished.length = 1
  /-- Where nothing escapes, the status told is the one that was sent. -/
  status : call.phase = .ended none → ∀ status headers,
    Message.responseStart status headers ∈ call.sent → call.requestsFinished.map some = [status]

/-- Before the end there is nothing to say of what the metrics are told. -/
theorem Promised.before_end {Local : Type} {settings : RuntimeSettings} {call : Call Local}
    (within : call.Within settings) (single : call.sent.countP Message.isStart ≤ 1)
    (started : call.requestsStarted ≤ 1) (finished : call.requestsFinished = [])
    (running : ∀ escaped, call.phase ≠ .ended escaped) : Promised settings call where
  body := within.2
  oneStart := single
  atMostOnce := ⟨started, by rw [finished]; exact Nat.zero_le 1⟩
  exactlyOnce escaped ended := absurd ended (running escaped)
  status ended := absurd ended (running none)

theorem middleware_keeps_promises (platform : HttpPlatform) (settings : RuntimeSettings) (scope : Scope)
    (requestId : Str) (app : App) (oneStart : app.SendsOneStart) (call : Call app.Local)
    (reached : Reached platform settings scope requestId app call) : Promised settings call := by
  obtain ⟨consistent, within⟩ := reached.sound oneStart
  cases consistent with
  | called phase silent untouched started finished =>
    refine .before_end within (by rw [silent]; exact Nat.zero_le 1) ?_ finished ?_
    · exact Nat.le_trans (Nat.le_of_eq started) (Nat.zero_le 1)
    · exact fun escaped ended => by rw [phase] at ended; cases ended
  | running phase run starts untouched records started finished =>
    refine .before_end within (Nat.le_trans starts (oneStart _ _ run)) (Nat.le_of_eq started) finished ?_
    exact fun escaped ended => by rw [phase] at ended; cases ended
  | replying phase single records started finished =>
    refine .before_end within ?_ (Nat.le_of_eq started) finished ?_
    · exact Nat.le_trans (List.sublist_append_left _ _).countP_le single
    · exact fun escaped ended => by rw [phase] at ended; cases ended
  | ended phase single records started finished =>
    refine ⟨within.2, single, ?_, ?_, ?_⟩
    · rw [started, finished]
      exact ⟨Nat.le_refl _, Nat.le_refl _⟩
    · intro escaped _
      rw [started, finished]
      exact ⟨rfl, rfl⟩
    · intro ended status headers inside
      rw [phase] at ended
      cases ended
      rw [records rfl status headers inside, finished]
      rfl

/-! ## An application that goes on -/

/-- Two bytes are one too many; the application catches the error and responds. -/
inductive SampleStep : Nat → AppEvent → Nat → Prop where
  | caught : SampleStep 0 (.received (.error .requestBodyTooLarge)) 1
  | start : SampleStep 1 (.sent (.responseStart (some 200) (some [])) none) 2
  | body : SampleStep 2 (.sent (.responseBody []) none) 3

def sampleApp : App where
  Local := Nat
  start := 0
  step := SampleStep
  returns stage := stage = 3
  raises _ _ := False

theorem sampleApp_sendsOneStart : sampleApp.SendsOneStart := by
  have stages (events : List AppEvent) (at' : sampleApp.Local) (run : sampleApp.Run events at') :
      events.countP AppEvent.isStart = if (show Nat from at') ≤ 1 then 0 else 1 := by
    induction run with
    | start => rfl
    | step run next ih => cases next <;> rw [List.countP_append, ih] <;> rfl
  intro events at' run
  rw [stages events at' run]
  split
  · exact Nat.zero_le 1
  · exact Nat.le_refl 1

def sampleHttpPlatform : HttpPlatform where
  toPlatform := referencePlatform fun _ => []
  tables := latin1Tables
  upper s := s.map fun c => if 0x61 ≤ c.val ∧ c.val ≤ 0x7a then Fin.ofNat 0x110000 (c.val - 0x20) else c
  setHeader headers name value :=
    headers.filter (·.1 ≠ asciiBytes (latin1Tables.lower name)) ++
      [(asciiBytes (latin1Tables.lower name), asciiBytes value)]
  appendHeader headers name value :=
    headers ++ [(asciiBytes (latin1Tables.lower name), asciiBytes value)]

def sampleSettings : RuntimeSettings where
  trustedHosts := defaultTrustedHosts
  corsAllowedOrigins := []
  enforceHttps := false
  maxRequestBodyBytes := 1
  rateLimitEnabled := false
  rateLimitWindowSeconds := 60
  authorizationRateLimit := 60
  tenantRateLimit := 60
  adminRateLimit := 60

def sampleScope : Scope where
  headers := ⟨fun name => if name = "host" then ["localhost"] else []⟩
  method := "POST"
  path := "/v1/authorize"

theorem sample_admitted (limiter : FixedWindowRateLimiter) (now : Double) :
    (admission sampleHttpPlatform sampleSettings sampleScope limiter now now).1 = .admitted none := by
  have passes : (hostRefusal sampleHttpPlatform sampleSettings sampleScope <|>
      httpsRefusal sampleSettings sampleScope <|> originRefusal sampleSettings sampleScope <|>
      preflight sampleHttpPlatform sampleSettings sampleScope <|>
      bodyRefusal sampleHttpPlatform sampleSettings sampleScope) = none :=
    Option.isNone_iff_eq_none.mp (by decide)
  rw [admission, passes]
  rfl

def sampleClock : Double := ⟨0, 0, 0, by decide, by decide, by decide, by simp⟩

theorem middleware_keeps_promises_sample :
    ∃ call : Call Nat, call.phase = .ended none ∧ call.requestsFinished = [200] ∧
      Promised sampleSettings call := by
  have entered : Reached sampleHttpPlatform sampleSettings sampleScope [] sampleApp _ :=
    .single (.enter {} rfl .new sampleClock sampleClock)
  rw [sample_admitted] at entered
  have caught := entered.tail (.receive _ rfl (.request [0, 0] false) .caught)
  have started := caught.tail (.send _ rfl (.responseStart (some 200) (some [])) rfl none .start)
  have sent := started.tail (.send _ rfl (.responseBody []) rfl none .body)
  have ended := sent.tail (.returns _ rfl rfl)
  exact ⟨_, rfl, rfl, middleware_keeps_promises sampleHttpPlatform sampleSettings sampleScope [] sampleApp
    sampleApp_sendsOneStart _ ended⟩

end DecAustrum
