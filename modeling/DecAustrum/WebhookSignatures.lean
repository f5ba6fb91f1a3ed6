import DecAustrum.Python.Double
import DecAustrum.Python.IntText
import DecAustrum.TokenCodec

/-!
# Webhook signatures

A signature is an HMAC over the timestamp, a dot and the payload. A receiver reads the timestamp
of the header, compares it with its own clock in double precision, and signs the payload again.
-/
namespace DecAustrum

open Python

/-! ## Clock values -/

/-- The clock reading of 1970-01-01T00:00:00. -/
def epochClock : Instant := 719163 * 86400000000

/-- Microseconds from the epoch; `none` without a zone. -/
def posixMicroseconds (d : Datetime) : Option Instant :=
  d.offset.map fun offset => d.clock - offset * 60000000 - epochClock

/-- Seconds from the epoch, before they are rounded. -/
def posixSeconds (micros : Instant) : ℚ := micros / 1000000

/-! ## Signing -/

/-- `digest.hex()`. -/
def hexText (data : Bytes) : Str := data.flatMap fun b => padded 16 2 b.toNat

/-- `str(n)`. -/
def intStr (n : Int) : Except PyExc Str :=
  if Json.withinDigitLimit n then .ok (Json.intText n) else .error .valueError

section Signing

-- `hmac.new(key, message, hashlib.sha256).digest()`
variable (hmac : Bytes → Bytes → Bytes)

/-- `sign_webhook_payload`. -/
def signWebhookPayload (payload : Bytes) (timestamp : Int) (signingSecret : Str) :
    Except PyExc Str := do
  let text ← intStr timestamp
  let stamp ← orRaise .unicodeEncodeError (encodeAscii text)
  let key ← orRaise .unicodeEncodeError (encodeUtf8 signingSecret)
  return "v1=" ++ hexText (hmac key (stamp ++ 0x2e :: payload))

/-! ## Verifying -/

/-- The `timestamp` argument: the text of a header, or an integer. -/
inductive WebhookTimestamp where
  | text (value : Str)
  | int (value : Int)
  deriving DecidableEq

/-- `int(timestamp)`. -/
def WebhookTimestamp.read : WebhookTimestamp → Option Int
  | .text value => readInteger value
  | .int value => some value

/-- `abs(difference) > tolerance_seconds`; an infinite difference exceeds every tolerance. -/
def exceeds (difference : Option Double) (toleranceSeconds : Int) : Bool :=
  match difference with
  | none => true
  | some d => (toleranceSeconds : ℚ) < |d.val|

/-- `verify_webhook_signature`; `current` is what the clock shows when no time is given. -/
def verifyWebhookSignature (current : Datetime) (payload : Bytes) (timestamp : WebhookTimestamp)
    (signature signingSecret : Str) (now : Option Datetime) (toleranceSeconds : Int) :
    Except PyExc Bool :=
  match timestamp.read with
  | none => .ok false
  | some timestampValue =>
    match posixMicroseconds (now.getD current) with
    | none => .error .valueError
    | some micros =>
      if toleranceSeconds < 0 then .error .valueError
      else do
        let reference ← orRaise .overflowError (Double.ofRat (posixSeconds micros))
        let stamp ← orRaise .overflowError (Double.ofInt timestampValue)
        if exceeds (reference.sub stamp) toleranceSeconds then return false
        else
          let expected ← signWebhookPayload hmac payload timestampValue signingSecret
          EvidenceStore.compareDigest expected signature

end Signing

end DecAustrum
