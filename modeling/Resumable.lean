import Resumable.Bound.Listing
import Resumable.Machine.Listing
import Resumable.Bound.NodeTable
import Resumable.Machine.Link
import Resumable.Host.Function
import Resumable.Proofs.WakeUp
import Resumable.Proofs.Preservation
import Resumable.Proofs.Observation
import Resumable.Proofs.Faultless
import Resumable.Proofs.LivenessModes
import Resumable.Proofs.Failing
import Resumable.Proofs.Joins
import Resumable.Proofs.ModuleLowering
import Resumable.Proofs.Unstarted
import Resumable.Proofs.AwaitSlots
import Resumable.Proofs.Rejoining
import Resumable.Proofs.Exposure
import Resumable.Proofs.HoistingRule
import Resumable.Proofs.SlotTable
import Resumable.Proofs.Pacing
import Resumable.Proofs.ClosureModes
import Resumable.Proofs.Reporting
import Resumable.Proofs.BuilderSpans
import Resumable.Proofs.Capacity
import Resumable.Proofs.Interning
import Resumable.Proofs.Registry
