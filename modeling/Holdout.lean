import Holdout.Exchange.Listing
import Holdout.Exchange.Machine
import Holdout.Main
import Holdout.Proofs.Code.Peg
import Holdout.Proofs.Command.JsonLines
import Holdout.Proofs.Listing.Join
import Holdout.Proofs.Paths
import Holdout.Proofs.Run.Faults
import Holdout.Proofs.Run.FirstEvent
import Holdout.Proofs.Run.Halting
import Holdout.Proofs.Run.Mirror
import Holdout.Proofs.Run.Observers
import Holdout.Proofs.Run.OneWay
import Holdout.Proofs.Run.Safety
import Holdout.Proofs.Run.Unending
import Holdout.Proofs.Run.Unreached
import Holdout.Proofs.Views
