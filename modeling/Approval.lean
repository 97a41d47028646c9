import Approval.Digest
import Approval.Directory.Form
import Approval.Main
import Approval.Http.Interface
import Approval.Json.Writer
import Approval.Request.Decision
import Approval.Settings
import Approval.Text.Quoted
import Approval.Text.Width
import Approval.Workflow.Document
import Approval.Service.Audit
import Approval.Service.Directory
import Approval.Service.Requests
import Approval.Service.Sweep
import Approval.Service.Tasks
import Approval.Service.Workflows
import Approval.Proofs.Interleaving.Linear
import Approval.Proofs.Run.History
import Approval.Proofs.Run.Justified
import Approval.Proofs.Workflow.WayOut
import Approval.Proofs.Request.Turns
import Approval.Proofs.Run.Refinement
import Approval.Proofs.Run.Breach
import Approval.Proofs.Interleaving.Breach
import Approval.Proofs.Interface.Use
import Approval.Proofs.Json.Depth
import Approval.Proofs.Run.Readable
import Approval.Proofs.Interface.ReadBack
import Approval.Proofs.Run.Growth
import Approval.Proofs.Run.Refusal
import Approval.Proofs.Run.Escalation
import Approval.Proofs.Interleaving.Start
import Approval.Proofs.Request.Story
import Approval.Proofs.Run.Story
import Approval.Proofs.Service.Actor
import Approval.Proofs.Interface.Happening
import Approval.Proofs.Interface.Authority
import Approval.Proofs.Yaml.Depth
import Approval.Proofs.Workflow.Depth
import Approval.Proofs.Interface.Access
import Approval.Proofs.Agreement
import Approval.Proofs.Request.Alike
import Approval.Proofs.Run.Alike
import Approval.Proofs.Run.Observation
import Approval.Proofs.Run.Tasks
import Approval.Proofs.Run.Counts
import Approval.Proofs.Run.Internal
import Approval.Proofs.Run.Resolution
import Approval.Proofs.Run.Tokens
import Approval.Proofs.Interface.Deactivation
import Approval.Proofs.Run.Independence
import Approval.Proofs.Run.WellFormed
import Approval.Proofs.Workflow.Acceptance
import Approval.Proofs.Request.Context
import Approval.Proofs.Store.Writes
import Approval.Proofs.Run.Sweeping
import Approval.Proofs.Workflow.Normalization
import Approval.Proofs.Workflow.Evaluation
import Approval.Proofs.Workflow.Path
import Approval.Proofs.Service.Pages
import Approval.Proofs.Form
