import Autoflow.Editing.Session
import Autoflow.Main
import Autoflow.Proofs.Editing.Branches
import Autoflow.Proofs.Editing.Interference
import Autoflow.Proofs.Editing.Lanes
import Autoflow.Proofs.Editing.Listings
import Autoflow.Proofs.Editing.Recoveries
import Autoflow.Proofs.Editing.Returns
import Autoflow.Proofs.Editing.Rewind
import Autoflow.Proofs.Editing.Savings
import Autoflow.Proofs.Editing.Takeover
import Autoflow.Proofs.Editing.Twins
import Autoflow.Proofs.Editing.Values
import Autoflow.Proofs.Graph.Arrivals
import Autoflow.Proofs.Graph.Faults
import Autoflow.Proofs.Graph.Mainline
import Autoflow.Proofs.Graph.Naming
import Autoflow.Proofs.Graph.Reading
import Autoflow.Proofs.Graph.Renamings
import Autoflow.Proofs.Graph.Renderings
import Autoflow.Proofs.Graph.Substitution
import Autoflow.Proofs.Graph.Trails
import Autoflow.Proofs.Run.Causes
import Autoflow.Proofs.Run.Depth
import Autoflow.Proofs.Run.Families
import Autoflow.Proofs.Run.Simulation
import Autoflow.Proofs.Run.Targets
import Autoflow.Proofs.Run.Visibility
import Autoflow.Proofs.Workflow.Ancestry
import Autoflow.Proofs.Workflow.Exports
import Autoflow.Proofs.Workflow.Rules
