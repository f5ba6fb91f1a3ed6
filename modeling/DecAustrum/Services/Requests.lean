import DecAustrum.RequestEncoding
import DecAustrum.EvidenceStore.Authorizations
import DecAustrum.Transaction.Attempts

/-!
# Requests to the services

What the services share: the errors they answer with, and the request that a stored decision was
made for.
-/
namespace DecAustrum

open Python Transaction

/-- `HTTPException` with a detail of a code and a message. -/
structure HttpException where
  statusCode : Nat
  code : Str
  message : Str
  deriving DecidableEq

/-- A service over the store. -/
abbrev Service (ω : Type) := Session Database Uuid ω StoreExc

/-- What a service answers. An `HTTPException` is an answer; every other exception leaves the
service as one of the store. -/
abbrev Answer := Except HttpException

/-- `raise HTTPException(..)`. -/
def refuse {ω α : Type} (exc : HttpException) : Service ω (Answer α) := .ret (.error exc)

/-- A return of the service. -/
def respond {ω α : Type} (response : α) : Service ω (Answer α) := .ret (.ok response)

theorem mapError_eq_ok {ε δ α : Type} {f : ε → δ} {x : Except ε α} {a : α} :
    x.mapError f = .ok a ↔ x = .ok a := by
  cases x <;> simp [Except.mapError]

/-- The subclasses of `ValueError`. -/
def PyExc.isValueError : PyExc → Bool
  | .valueError | .jsonDecodeError | .unicodeEncodeError | .validationError | .archiveError _ => true
  | .typeError | .integrityError | .overflowError | .operationalError | .migrationError | .runtimeError
  | .exportSizeLimitError => false

/-- A text with its surrounding space removed, one character at least. -/
def NonEmptyString.validate (s : Str) : Option NonEmptyString :=
  if checked : 1 ≤ (strip s).length ∧ (strip s).any isSurrogate = false then
    some ⟨strip s, strip_strip s, checked.1, checked.2⟩
  else none

theorem NonEmptyString.validate_text (s : NonEmptyString) : validate s.text = some s := by
  have checked : 1 ≤ (strip s.text).length ∧ (strip s.text).any isSurrogate = false := by
    rw [s.stripped]
    exact ⟨s.nonempty, s.encodable⟩
  rw [validate, dif_pos checked]
  cases s
  simp_all

/-- `AuthorizationRequest(agent=.., action=.., context=..)`. -/
def AuthorizationRequest.of (agent action : Str) (context : Json) : Option AuthorizationRequest := do
  let agent ← NonEmptyString.validate agent
  let action ← NonEmptyString.validate action
  let context ← StrictObject.validate context
  return ⟨agent, action, context⟩

/-- The request of a stored decision. -/
def AuthorizationResponse.request (a : AuthorizationResponse) : Except PyExc AuthorizationRequest :=
  orRaise .validationError do
    let agent ← NonEmptyString.validate a.agent
    let action ← NonEmptyString.validate a.action
    return ⟨agent, action, a.context⟩

/-- The fingerprint of the request that a stored decision was made for. -/
def immutableFingerprint (platform : Platform) (a : AuthorizationResponse) : Except PyExc Str := do
  let request ← a.request
  buildRequestFingerprint platform request

end DecAustrum
