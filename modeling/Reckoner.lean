import Reckoner.Main
import Reckoner.Workbench.Frame
import Reckoner.Proofs.CommandLine.Calculation
import Reckoner.Proofs.Console.Ledger
import Reckoner.Proofs.DepthLimit
import Reckoner.Proofs.Display.Numbering
import Reckoner.Proofs.Evaluation.Dependence
import Reckoner.Proofs.Evaluation.Exact
import Reckoner.Proofs.Evaluation.Targets
import Reckoner.Proofs.Evaluation.Undefined
import Reckoner.Proofs.Grammar.Discarding
import Reckoner.Proofs.Grammar.Resuming
import Reckoner.Proofs.Grammar.Respacing
import Reckoner.Proofs.Postfix.Refusals
import Reckoner.Proofs.ProbeTable.Steps
import Reckoner.Proofs.ProbeTable.Undoing
import Reckoner.Proofs.Scanning.Calls
import Reckoner.Proofs.Scanning.States
import Reckoner.Proofs.Workbench.Cursor
import Reckoner.Proofs.Workbench.InputBox
import Reckoner.Proofs.Workbench.Recalling
import Reckoner.Proofs.Workbench.Scrolling
