import Acceptors.Attempt
import Acceptors.Automaton
import Acceptors.Capacity
import Acceptors.Checked
import Acceptors.CommandLine.Arguments
import Acceptors.CommandLine.Execution
import Acceptors.Departure
import Acceptors.Draft
import Acceptors.Encoding
import Acceptors.Exploration
import Acceptors.Journal
import Acceptors.Main
import Acceptors.Minimization
import Acceptors.Numbering
import Acceptors.Partition
import Acceptors.Proofs.Absorption
import Acceptors.Proofs.Acyclicity
import Acceptors.Proofs.Additions
import Acceptors.Proofs.AlphabetCheck
import Acceptors.Proofs.Alternation
import Acceptors.Proofs.ByteReading
import Acceptors.Proofs.Bytes
import Acceptors.Proofs.CanonicalForm
import Acceptors.Proofs.CheckedMerging
import Acceptors.Proofs.CheckedRefinement
import Acceptors.Proofs.Coarseness
import Acceptors.Proofs.Commands
import Acceptors.Proofs.Completeness
import Acceptors.Proofs.Consistency
import Acceptors.Proofs.Coupling
import Acceptors.Proofs.Densities
import Acceptors.Proofs.Determinism
import Acceptors.Proofs.Determinization
import Acceptors.Proofs.Discovery
import Acceptors.Proofs.DiscoveryOrder
import Acceptors.Proofs.Draining
import Acceptors.Proofs.DrawnValues
import Acceptors.Proofs.Equivalence
import Acceptors.Proofs.Exactness
import Acceptors.Proofs.Exploration
import Acceptors.Proofs.Extensionality
import Acceptors.Proofs.FileTransformation
import Acceptors.Proofs.FirstFault
import Acceptors.Proofs.Grammar
import Acceptors.Proofs.GridLines
import Acceptors.Proofs.GridReading
import Acceptors.Proofs.Growth
import Acceptors.Proofs.Homomorphism
import Acceptors.Proofs.Layout
import Acceptors.Proofs.LineByLine
import Acceptors.Proofs.ListedBlocks
import Acceptors.Proofs.Lockstep
import Acceptors.Proofs.Malformed
import Acceptors.Proofs.Merging
import Acceptors.Proofs.Minimality
import Acceptors.Proofs.Mirror
import Acceptors.Proofs.NumberLines
import Acceptors.Proofs.Numbering
import Acceptors.Proofs.PendingBranches
import Acceptors.Proofs.Reading
import Acceptors.Proofs.Recognition
import Acceptors.Proofs.Refinement
import Acceptors.Proofs.RefinementLoop
import Acceptors.Proofs.Renaming
import Acceptors.Proofs.Replay
import Acceptors.Proofs.RoundTrip
import Acceptors.Proofs.Safety
import Acceptors.Proofs.Separation
import Acceptors.Proofs.Shortlex
import Acceptors.Proofs.Simulation
import Acceptors.Proofs.Spelling
import Acceptors.Proofs.Splitting
import Acceptors.Proofs.Stabilization
import Acceptors.Proofs.TableReading
import Acceptors.Proofs.Targets
import Acceptors.Proofs.Validation
import Acceptors.Proofs.WordText
import Acceptors.Proofs.Worklist
import Acceptors.Proofs.WrittenLength
import Acceptors.Random.Generator
import Acceptors.Random.Sample
import Acceptors.Refinement
import Acceptors.Run
import Acceptors.Simulation
import Acceptors.StateSet
import Acceptors.StateSet.Counting
import Acceptors.StateSet.History
import Acceptors.SubsetConstruction
import Acceptors.Text.Blank
import Acceptors.Text.Grid
import Acceptors.Text.Lines
import Acceptors.Text.Listing
import Acceptors.Text.Numeral
import Acceptors.Text.Tokens
import Acceptors.TransitionTable
import Acceptors.Word
import Acceptors.Worklist
