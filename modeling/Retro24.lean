import Retro24.Enumerations
import Retro24.Main
import Retro24.Proofs.Controller.Accounts
import Retro24.Proofs.Controller.Attempts
import Retro24.Proofs.Controller.Budgets
import Retro24.Proofs.Controller.Cuts
import Retro24.Proofs.Controller.Faults
import Retro24.Proofs.Controller.Frames
import Retro24.Proofs.Controller.Order
import Retro24.Proofs.Controller.Pauses
import Retro24.Proofs.Controller.Reasons
import Retro24.Proofs.Controller.Reports
import Retro24.Proofs.Controller.Sleep
import Retro24.Proofs.Controller.Stops
import Retro24.Proofs.Controller.Termination
import Retro24.Proofs.Controller.Undisturbed
import Retro24.Proofs.Listings.Tracing
import Retro24.Proofs.Machine.Acceptance
import Retro24.Proofs.Machine.Coordinates
import Retro24.Proofs.Machine.Loading
import Retro24.Proofs.Machine.Partition
import Retro24.Proofs.Machine.Resets
import Retro24.Proofs.Machine.Screens
import Retro24.Proofs.Machine.Services
import Retro24.Proofs.Memory.Extents
import Retro24.Proofs.Memory.Lettering
import Retro24.Proofs.Output.Dumps
import Retro24.Proofs.Output.Enlargement
import Retro24.Proofs.Processor.Counting
import Retro24.Proofs.Processor.History
import Retro24.Proofs.Processor.Lockstep
import Retro24.Proofs.Session.Honoured
