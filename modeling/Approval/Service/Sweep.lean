import Approval.Service.Basic

/-!
# Sweeps

A sweep looks through the open requests for late steps and records each once, in the audit log as well.
It does not change steps; if the settings say so, the request is marked as escalated.
-/

namespace Approval.Sweep

open Work Operation

variable [Supply]

/-- What a sweep found: the requests it looked at, the new breaches, and the requests it escalated. -/
structure Report where
  scanned : Nat
  breaches : Nat := 0
  escalated : Nat := 0
  deriving DecidableEq

/-- A report as a JSON value. -/
def Report.json (r : Report) : Json :=
  .object
    [("breaches", Json.ofNat r.breaches), ("escalated", Json.ofNat r.escalated),
     ("scanned", Json.ofNat r.scanned)]

/-- A late step: its request as it was listed, its position and record, and its deadline. -/
structure Finding where
  request : Request
  position : Nat
  step : StepRecord
  deadline : Instant

/-- The late steps of a request. -/
def findingsOf (now : Instant) (r : Request) : List Finding :=
  r.steps.zipIdx.filterMap fun (step, position) =>
    match step.deadline with
    | some deadline => if step.isLate now then some ⟨r, position, step, deadline⟩ else none
    | none => none

/-- The late steps of requests, in order. -/
def findings (now : Instant) (requests : List Request) : List Finding :=
  requests.flatMap (findingsOf now)

/-- The request marked as escalated, if escalating is on and it is in progress. -/
def escalated (escalate : Bool) (now : Instant) (r : Request) : Option Request :=
  if escalate ∧ r.status = .inProgress then
    some { r with status := .escalated, version := r.version + 1, updatedAt := now }
  else none

namespace Finding

/-- The breach to be recorded. -/
def breach (f : Finding) (now : Instant) : Breach :=
  { requestId := f.request.id
    position := f.position
    order := f.step.order
    deadline := f.deadline
    detectedAt := now }

/-- The audit note about a late step; it comes from nobody. -/
def note (f : Finding) (now : Instant) : AuditNote :=
  { requestId := some f.request.id
    action := .breachDetected
    actor := none
    resourceType := "request"
    resourceId := f.request.id.text
    details := some <| .object
      [("deadline", f.deadline.json),
       ("overdue_minutes", Json.ofInt (Instant.minutesBetween f.deadline now)),
       ("step_index", Json.ofNat f.position),
       ("step_name", .text f.step.name),
       ("step_order", Json.ofNat f.step.order)]
    createdAt := now }

/-- The announcement of a late step. -/
def event (f : Finding) : Event :=
  .stepLate f.request.id f.request.workflowName f.step.order f.step.name f.deadline

end Finding

/-- Record a finding, unless it is recorded already or its request has moved on since it was listed. -/
def record (escalate : Bool) (now : Instant) (f : Finding) (report : Report) : Operation Report :=
  fun _ w =>
    let copy := escalated escalate now f.request
    let written :=
      w.store.addBreach (f.breach now) (w.store.entry (f.note now)) (copy.map (·, f.request.version))
    match written with
    | .ok (true, store) =>
      (.ok
        { report with
          breaches := report.breaches + 1
          escalated := report.escalated + (if copy.isSome then 1 else 0) },
       { store, events := w.events ++ [f.event] })
    | _ => (.ok report, w)

/-- Record findings one after the other. -/
def recordAll (escalate : Bool) (now : Instant) : List Finding → Report → Operation Report
  | [], report => return report
  | f :: rest, report => do recordAll escalate now rest (← record escalate now f report)

/-- Sweep once. -/
def once : Operation Report := do
  let requests ← read (·.listOpen)
  let c ← context
  recordAll c.settings.sweep.escalate c.now (findings c.now requests) { scanned := requests.length }

end Approval.Sweep
