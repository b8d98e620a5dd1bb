import TokenGrammar.Grammar.Budget
import TokenGrammar.Pipeline
import TokenGrammar.Proofs.Alternatives
import TokenGrammar.Proofs.Arithmetic
import TokenGrammar.Proofs.Attempts
import TokenGrammar.Proofs.Completion
import TokenGrammar.Proofs.Diagnostics
import TokenGrammar.Proofs.Expansion
import TokenGrammar.Proofs.Fields
import TokenGrammar.Proofs.Limits
import TokenGrammar.Proofs.Locality
import TokenGrammar.Proofs.Lookahead
import TokenGrammar.Proofs.Nesting
import TokenGrammar.Proofs.Reachability
import TokenGrammar.Proofs.Recognition
import TokenGrammar.Proofs.Scanning
import TokenGrammar.Proofs.Separation
import TokenGrammar.Proofs.Splitting
import TokenGrammar.Proofs.Transparency
import TokenGrammar.Proofs.Wording
import TokenGrammar.Session
