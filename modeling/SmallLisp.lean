import SmallLisp.Console.Directory
import SmallLisp.Main
import SmallLisp.Proofs.Arithmetic
import SmallLisp.Proofs.Backlog
import SmallLisp.Proofs.Concatenation
import SmallLisp.Proofs.Counter
import SmallLisp.Proofs.Dialogue
import SmallLisp.Proofs.Embedding
import SmallLisp.Proofs.Equality
import SmallLisp.Proofs.Extension
import SmallLisp.Proofs.Frame
import SmallLisp.Proofs.Grammar
import SmallLisp.Proofs.Hashes
import SmallLisp.Proofs.Headroom
import SmallLisp.Proofs.Holes
import SmallLisp.Proofs.Identity
import SmallLisp.Proofs.Inspection
import SmallLisp.Proofs.Invariant
import SmallLisp.Proofs.Keys
import SmallLisp.Proofs.Limit
import SmallLisp.Proofs.Lines
import SmallLisp.Proofs.Listing
import SmallLisp.Proofs.Log
import SmallLisp.Proofs.Logic
import SmallLisp.Proofs.Names
import SmallLisp.Proofs.Nesting
import SmallLisp.Proofs.Numerals
import SmallLisp.Proofs.Parameters
import SmallLisp.Proofs.Pieces
import SmallLisp.Proofs.Refusal
import SmallLisp.Proofs.Registration
import SmallLisp.Proofs.Reset
import SmallLisp.Proofs.RoundTrip
import SmallLisp.Proofs.Safety
import SmallLisp.Proofs.Session
import SmallLisp.Proofs.Spelling
import SmallLisp.Proofs.Splices
import SmallLisp.Proofs.StableSort
import SmallLisp.Proofs.Termination
import SmallLisp.Proofs.TokenLists
import SmallLisp.Proofs.Verdict
import SmallLisp.Proofs.Visibility
import SmallLisp.Proofs.WellFormed
