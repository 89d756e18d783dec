import HackVM.Batch
import HackVM.Computer.Assembler
import HackVM.Computer.Machine
import HackVM.Conformance.Check
import HackVM.Conformance.Suite
import HackVM.Instruction.StackDepth
import HackVM.Main
import HackVM.Proofs.Assembling
import HackVM.Proofs.Listing
import HackVM.Proofs.Layout
import HackVM.Proofs.Blocks
import HackVM.Proofs.Forward
import HackVM.Proofs.OperandStack
import HackVM.Proofs.Comparison
import HackVM.Proofs.Depth
import HackVM.Proofs.Statics
import HackVM.Proofs.Correctness
import HackVM.Proofs.Words
import HackVM.Proofs.Lexing
import HackVM.Proofs.Comments
import HackVM.Proofs.Passes
import HackVM.Proofs.Canonical
import HackVM.Proofs.Remarks
import HackVM.Proofs.Labels
import HackVM.Proofs.Resolution
import HackVM.Proofs.Sessions
import HackVM.Proofs.Renaming
import HackVM.Proofs.Namespaces
import HackVM.Proofs.Registers
import HackVM.Proofs.Grammar
import HackVM.Proofs.Committing
import HackVM.Proofs.Trials
import HackVM.Proofs.Outputs
import HackVM.Proofs.Accounting
import HackVM.Proofs.Overwriting
import HackVM.Proofs.WellFormed
import HackVM.Proofs.Columns
import HackVM.Proofs.ErrorPlaces
import HackVM.Proofs.SurplusMarks
import HackVM.Proofs.Verdicts
import HackVM.Proofs.SplitRuns
import HackVM.Proofs.LimitedSinks
import HackVM.Proofs.ComputeLines
import HackVM.Proofs.AddressWords
import HackVM.Proofs.TrailingFlags
import HackVM.Proofs.RoundTrips
import HackVM.Proofs.Encodings
import HackVM.Proofs.Excerpts
import HackVM.Proofs.LineEnds
import HackVM.Proofs.Rearrangement
import HackVM.Yaml.Suite
