import DecAustrum.Storage.Outbox
import DecAustrum.Storage.Search

/-!
# Listing audit events

`AdministrativeAuditRepository.list` and `count`: the audit events that meet every given condition,
the latest first.
-/
namespace DecAustrum

open Python

/-- The conditions of a listing; the times are in UTC. -/
structure AuditFilters where
  projectId : Option Uuid := none
  action : Option AuditAction := none
  resourceType : Option AuditResourceType := none
  resourceId : Option Str := none
  actorType : Option AuditActorType := none
  actorId : Option Str := none
  occurredAfter : Option UtcDatetime := none
  occurredBefore : Option UtcDatetime := none

/-- `_filters`, over the columns of an event. -/
def AuditFilters.selects (filters : AuditFilters) (event : AdministrativeAuditEvent) : Bool :=
  (filters.projectId.all fun value => event.projectId = value) &&
  (filters.action.all fun value => event.action.text = value.text) &&
  (filters.resourceType.all fun value => event.resourceType = value) &&
  (filters.resourceId.all fun value => event.resourceId.text = value) &&
  (filters.actorType.all fun value => event.actorType.text = value.text) &&
  (filters.actorId.all fun value => event.actorId.text = value) &&
  (filters.occurredAfter.all fun value => value.val.isoformat ≤ event.occurredAt.val.isoformat) &&
  filters.occurredBefore.all fun value => event.occurredAt.val.isoformat ≤ value.val.isoformat

/-- SQLite binds no text with a surrogate. -/
def AuditFilters.bindable (filters : AuditFilters) : Bool :=
  !(filters.resourceId.any fun value => value.any isSurrogate) &&
    !(filters.actorId.any fun value => value.any isSurrogate)

/-- `ORDER BY occurred_at DESC, event_id DESC`. -/
def auditOrder (a b : AdministrativeAuditEvent) : Prop :=
  b.occurredAt.val.isoformat < a.occurredAt.val.isoformat ∨
    a.occurredAt.val.isoformat = b.occurredAt.val.isoformat ∧ b.eventId.value ≤ a.eventId.value

instance : DecidableRel auditOrder := fun a b =>
  inferInstanceAs (Decidable (b.occurredAt.val.isoformat < a.occurredAt.val.isoformat ∨
    a.occurredAt.val.isoformat = b.occurredAt.val.isoformat ∧ b.eventId.value ≤ a.eventId.value))

namespace AdministrativeAuditRepository

def list (db : Database) (filters : AuditFilters) (limit offset : Int) :
    Except PyExc (List AdministrativeAuditEvent) :=
  if filters.bindable = false then .error .unicodeEncodeError
  else if fitsInteger limit && fitsInteger offset then
    .ok (page limit offset ((db.audit.filter filters.selects).insertionSort auditOrder))
  else .error .overflowError

def count (db : Database) (filters : AuditFilters) : Except PyExc Nat :=
  if filters.bindable = false then .error .unicodeEncodeError
  else .ok (db.audit.countP filters.selects)

end AdministrativeAuditRepository

end DecAustrum
