import Gridded.Proofs.Region.Acceptance
import Gridded.Region.Walk
import Mathlib

namespace Gridded

namespace Slice

def whole (n : Nat) : Slice := ⟨n, 0, n, 1⟩

end Slice

namespace Region

namespace Partial

end Partial

def whole (sizes : List Nat) : Region where
  counts := sizes
  skips := List.replicate sizes.length 0
  start := 0
  length := sizes.prod

end Region

end Gridded
