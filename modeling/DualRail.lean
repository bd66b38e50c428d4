import DualRail.Main
import DualRail.Json.Program
import DualRail.Proofs.Decoding
import DualRail.Proofs.Restoration
import DualRail.Proofs.Interaction
import DualRail.Proofs.Placement
import DualRail.Proofs.Building
import DualRail.Proofs.Ports
import DualRail.Proofs.Conformance
import DualRail.Proofs.Storage
import DualRail.Proofs.Rebuilding
import DualRail.Proofs.Accounting
import DualRail.Proofs.Pipeline
import DualRail.Proofs.Scheduling
import DualRail.Proofs.Reloading
import DualRail.Proofs.Records
import DualRail.Proofs.Handwriting
import DualRail.Proofs.Configuration
import DualRail.Proofs.Writing
import DualRail.Proofs.Running
import DualRail.Proofs.Ladder
import DualRail.Proofs.Framing
import DualRail.Proofs.Commuting
import DualRail.Proofs.Replaying
import DualRail.Proofs.Entangling
import DualRail.Proofs.Collecting
