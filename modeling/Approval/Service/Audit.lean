import Approval.Service.Basic

/-!
# The audit log as a service

Entries are appended and read, those about one request or the latest of all.
-/

namespace Approval.Audit

open Work Operation

/-- The largest count of entries that are read at once. -/
def maxLatest : Int := 500

def record (e : AuditEntry) : Operation Unit := change (·.append e)

/-- The entries about a request, in the order of writing. -/
def ofRequest (id : RequestId) : Operation (List AuditEntry) := read (·.auditOf id)

/-- The latest entries, the last one first. -/
def latest (limit : Int) : Operation (List AuditEntry) :=
  read (·.latestAudit (max 1 (min maxLatest limit)).toNat)

end Approval.Audit
