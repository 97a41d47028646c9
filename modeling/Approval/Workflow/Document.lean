import Approval.Failure
import Approval.Workflow.Form
import Approval.Yaml.Document

/-!
# Definition documents

A draft of a workflow may be handed in as a YAML document, of which JSON is a part.
-/

namespace Approval

/-- Check a draft as an operation. -/
def Draft.verify (d : Draft) : Except Failure Unit :=
  match d.check with
  | .ok _ => .ok ()
  | .error fault => .error (.invalid (.draft fault))

/-- The normalized and checked draft of a document. -/
def Draft.ofDocument (text : String) : Except Failure Draft :=
  match (Yaml.read? text).map Draft.decode with
  | some (.ok d) => do
    d.normalize.verify
    return d.normalize
  | _ => .error (.invalid .unreadableDraft)

end Approval
