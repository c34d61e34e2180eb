import Toolshed.Main
import Toolshed.Proofs.Grammar.Forest
import Toolshed.Proofs.Grammar.Layout
import Toolshed.Proofs.Grammar.Balance
import Toolshed.Proofs.Grammar.RoundTrip
import Toolshed.Proofs.Library.Address
import Toolshed.Proofs.Lowering.Loads
import Toolshed.Proofs.Lowering.Published
import Toolshed.Proofs.Script.Quotation
import Toolshed.Proofs.Script.RoundTrip
import Toolshed.Proofs.Script.Settled
import Toolshed.Proofs.Script.Simplified
import Toolshed.Proofs.Session.Places
import Toolshed.Proofs.Session.Recorded
import Toolshed.Proofs.Session.Settings
import Toolshed.Proofs.Typing.History
import Toolshed.Proofs.Typing.Isolation
import Toolshed.Proofs.Typing.Returning
