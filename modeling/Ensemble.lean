import Ensemble.Config.Report
import Ensemble.Jobs.Codec
import Ensemble.Main
import Ensemble.Manager
import Ensemble.Model.Playback
import Ensemble.Proofs.Run.Steps
import Ensemble.Proofs.Run.Effects
import Ensemble.Proofs.Life
import Ensemble.Proofs.Worlds
import Ensemble.Proofs.Accounts
import Ensemble.Proofs.Anthropic.Chunks
import Ensemble.Proofs.Approval
import Ensemble.Proofs.Requests
import Ensemble.Proofs.Agent.Targets
import Ensemble.Proofs.Endings
import Ensemble.Proofs.Anthropic.Assembly
import Ensemble.Proofs.Anthropic.Turns
import Ensemble.Proofs.Handoffs
import Ensemble.Proofs.Tool.Registry
import Ensemble.Proofs.Transfers
import Ensemble.Proofs.Run.Twins
import Ensemble.Proofs.Run.Matches
import Ensemble.Proofs.Transparency
import Ensemble.Proofs.Switches
import Ensemble.Proofs.Growth
import Ensemble.Proofs.Passages
import Ensemble.Proofs.Echoes
import Ensemble.Proofs.Halt
import Ensemble.Proofs.Suggestions
import Ensemble.Proofs.Suggestions.Prose
import Ensemble.Proofs.Billing
import Ensemble.Proofs.Limits
import Ensemble.Proofs.Summaries
import Ensemble.Proofs.Isolation
import Ensemble.Proofs.Session.Store
import Ensemble.Proofs.Manager.Histories
import Ensemble.Proofs.Manager.Ways
import Ensemble.Proofs.Manager.Course
import Ensemble.Proofs.Manager.Serial
import Ensemble.Proofs.Json.Numbers
import Ensemble.Proofs.Json.Reading
import Ensemble.Proofs.Json.Records
import Ensemble.Proofs.Json.Fields
import Ensemble.Proofs.Persistence
import Ensemble.Proofs.Config
import Ensemble.Proofs.Config.Team
import Ensemble.Proofs.Model.Scripts
import Ensemble.Proofs.View.Policies
import Ensemble.Proofs.View.Marks
import Ensemble.Proofs.View.Metadata
import Ensemble.Proofs.Jobs.Background
