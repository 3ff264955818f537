import JsonSchema.Main
import JsonSchema.Schema.Builder
import JsonSchema.Proofs.Cycles
import JsonSchema.Proofs.Frame
import JsonSchema.Proofs.Invariance
import JsonSchema.Proofs.Levels
import JsonSchema.Proofs.Locations
import JsonSchema.Proofs.Places
import JsonSchema.Proofs.RoundTrip
import JsonSchema.Proofs.Descent
import JsonSchema.Proofs.Inference
import JsonSchema.Proofs.Canonical
import JsonSchema.Proofs.Building
import JsonSchema.Proofs.Erasure
import JsonSchema.Proofs.Faults
import JsonSchema.Proofs.Pointers
import JsonSchema.Proofs.Subdocuments
import JsonSchema.Proofs.Malformed
import JsonSchema.Proofs.Alike
import JsonSchema.Proofs.Reordered
import JsonSchema.Proofs.Order
import JsonSchema.Proofs.Paths
import JsonSchema.Proofs.Following
import JsonSchema.Proofs.Verdict
import JsonSchema.Proofs.Addresses
import JsonSchema.Proofs.Refusals
import JsonSchema.Proofs.Rounding
import JsonSchema.Proofs.Multiples
import JsonSchema.Proofs.Chains
import JsonSchema.Proofs.Ways
import JsonSchema.Proofs.Equivalence
import JsonSchema.Proofs.Kept
import JsonSchema.Proofs.Lines
import JsonSchema.Proofs.Overrides
import JsonSchema.Proofs.Inquiries
