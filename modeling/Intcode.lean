import Intcode.Main
import Intcode.Run
import Intcode.Proofs.Evaluation
import Intcode.Proofs.Execution
import Intcode.Proofs.Interpreter
import Intcode.Proofs.Session
import Intcode.Proofs.Simulation
import Intcode.Proofs.Completion
import Intcode.Proofs.Suspension
import Intcode.Proofs.Protocol
import Intcode.Proofs.Retry
import Intcode.Proofs.Cursor
import Intcode.Proofs.AddressRange
import Intcode.Proofs.Layout
import Intcode.Proofs.Conversation
import Intcode.Proofs.Demand
import Intcode.Proofs.LineInput
import Intcode.Proofs.Exchange
import Intcode.Proofs.Pipeline
import Intcode.Proofs.Decimal
import Intcode.Proofs.Grammar
import Intcode.Proofs.Reloading
import Intcode.Proofs.Invocation
import Intcode.Proofs.BadCell
import Intcode.Proofs.FaultOrder
import Intcode.Proofs.Quotation
import Intcode.Proofs.Search
import Intcode.Proofs.FreshManifest
import Intcode.Proofs.FileTree
import Intcode.Proofs.NewPackage
import Intcode.Proofs.Underline
import Intcode.Proofs.BrokenCell
import Intcode.Proofs.RangeReport
import Intcode.Proofs.HeaderShift
import Intcode.Proofs.ArgumentOrder
import Intcode.Proofs.Upward
import Intcode.Proofs.Preservation
import Intcode.Proofs.Decoding
import Intcode.Proofs.WriteHistory
import Intcode.Proofs.Whereabouts
import Intcode.Proofs.Bytewise
