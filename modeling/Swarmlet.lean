import Swarmlet.Lib.Machine
import Swarmlet.Lib.JsString
import Swarmlet.Lib.JsNumber
import Swarmlet.Lib.Checked
import Swarmlet.Lib.Keyed
import Swarmlet.Lib.Json
import Swarmlet.Protocol.Types
import Swarmlet.Protocol.Validate
import Swarmlet.Protocol.Wire
import Swarmlet.Control.Registry
import Swarmlet.Control.PhasePlan
import Swarmlet.Control.Planner
import Swarmlet.Control.PlanFacts
import Swarmlet.Control.Profiles
import Swarmlet.Control.SplitPlans
import Swarmlet.Control.RowOrder
import Swarmlet.Control.WorkerFloors
import Swarmlet.Control.Resources
import Swarmlet.Control.Starters
import Swarmlet.Control.Fleet
import Swarmlet.NodeAgent.Agent
import Swarmlet.NodeAgent.Admission
import Swarmlet.Control.Delivery
import Swarmlet.Control.StageExecution
import Swarmlet.Control.PhaseAdmission
import Swarmlet.Control.OwnerAdmission
import Swarmlet.Control.PlanStability
import Swarmlet.Control.FleetAgreement
import Swarmlet.Control.FleetBounds
import Swarmlet.Control.Manager
import Swarmlet.Control.Operations
import Swarmlet.Control.Step
import Swarmlet.Control.Abstraction
import Swarmlet.Control.Micro
import Swarmlet.Control.Refinement
import Swarmlet.Control.Reports
import Swarmlet.Control.Launches
import Swarmlet.Control.Queue
import Swarmlet.Control.Runs
import Swarmlet.Control.Routing
import Swarmlet.Control.FleetApply
import Swarmlet.Control.Enroll
import Swarmlet.Control.External
import Swarmlet.Lib.Cursor
import Swarmlet.Lib.JsMap
import Swarmlet.Mesh.Coordinator
import Swarmlet.Mesh.Dispatch
import Swarmlet.Mesh.Binding
import Swarmlet.Mesh.CrossCheck
import Swarmlet.Lib.Regex
import Swarmlet.Loop.Pii
import Swarmlet.Loop.Events
import Swarmlet.Loop.Privacy
import Swarmlet.Loop.Graduate
import Swarmlet.Mux.Pair
import Swarmlet.Lib.JsonText
import Swarmlet.Core.Sign
import Swarmlet.NodeAgent.Assignments
import Swarmlet.NodeAgent.Stopped
import Swarmlet.NodeAgent.UpdateState
import Swarmlet.NodeAgent.Supervisor
import Swarmlet.NodeAgent.CrashSafety
import Swarmlet.Control.StageTransfer
import Swarmlet.Control.StageGenerate
import Swarmlet.Control.StageResidue
import Swarmlet.Control.StageExecutor
import Swarmlet.Control.SocketOutbox
import Swarmlet.Mesh.Copies
import Swarmlet.NodeAgent.DataListener
import Swarmlet.Control.Topology
import Swarmlet.Control.StoredTopology
import Swarmlet.Control.Pinned
import Swarmlet.Control.AutoChoice
import Swarmlet.NodeAgent.ServeDial
import Swarmlet.NodeAgent.Download
import Swarmlet.Control.Inflight
import Swarmlet.Loop.Knowledge
import Swarmlet.Control.Guarantees
