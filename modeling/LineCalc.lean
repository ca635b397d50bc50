import LineCalc.Cursor.Walk
import LineCalc.Main
import LineCalc.Proofs.ClosedSequence
import LineCalc.Proofs.Grammar.Operands
import LineCalc.Proofs.Grammar.Grouping
import LineCalc.Proofs.Grammar.Procedures
import LineCalc.Proofs.Grammar.Misfit
import LineCalc.Proofs.Grammar.Precedence
import LineCalc.Proofs.Scanner.Findings
import LineCalc.Proofs.Scanner.Progress
import LineCalc.Proofs.Scanner.Simulation
import LineCalc.Proofs.Acceptance
import LineCalc.Proofs.Scanner.Cuts
import LineCalc.Proofs.Scanner.Partition
import LineCalc.Proofs.IllegalCharacters
import LineCalc.Proofs.Scanner.Spacing
import LineCalc.Proofs.Scanner.Concatenation
import LineCalc.Proofs.Scanner.Reachable
import LineCalc.Proofs.Scanner.Coherence
import LineCalc.Proofs.Scanner.Overflow
import LineCalc.Proofs.Scanner.Relabelling
import LineCalc.Proofs.Scanner.Records
import LineCalc.Proofs.Grammar.Visits
import LineCalc.Proofs.Caret
import LineCalc.Proofs.FaultFreedom
import LineCalc.Proofs.Grammar.Journal
import LineCalc.Proofs.Grammar.Itinerary
import LineCalc.Proofs.SinglePass
import LineCalc.Proofs.Chronicle
import LineCalc.Proofs.Number.RoundingInterval
import LineCalc.Proofs.Number.ShortestDecimal
import LineCalc.Proofs.Number.FloatBits
import LineCalc.Proofs.Number.NearestFloat
import LineCalc.Proofs.Number.NumberText
import LineCalc.Proofs.Number.ReadBack
import LineCalc.Proofs.Transcripts
import LineCalc.Proofs.Pointing
import LineCalc.Proofs.Recovery
import LineCalc.Proofs.Insertion
import LineCalc.Proofs.Listing
import LineCalc.Proofs.StandardInput
import LineCalc.Proofs.Walks
import LineCalc.Proofs.Grammar.Stops
import LineCalc.Proofs.Handover
import LineCalc.Proofs.Grammar.WholeNumbers
import LineCalc.Proofs.Number.WholeRounding
import LineCalc.Proofs.Number.WholeFloats
import LineCalc.Proofs.WholeNumberLines
import LineCalc.Proofs.Number.SignedZero
import LineCalc.Proofs.NegativeZero
import LineCalc.Proofs.Scanner.Recognition
