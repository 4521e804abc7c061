import Gridded.Proofs.Reader.Accounting
import Gridded.Proofs.Region.Whole
import Mathlib

namespace Gridded

namespace Reader

theorem Follows.exists_ok {ι α : Type} [Input ι] [FaithfulInput ι] {c : Contents} {i : ι}
    {a : ExceptT StoreError (StateM ι) α} {x : α} (h : Follows a c i (.ok x))
    (hfails : ∀ e, ¬FaithfulInput.Fails ι e) : ∃ j, a.run.run i = (.ok x, j) := by
  unfold Follows Ensures at h
  revert h
  rcases a.run.run i with ⟨e | y, j⟩
  · rintro ⟨-, hx | ⟨s, -, hs⟩⟩
    · cases hx
    · exact absurd hs (hfails s)
  · rintro ⟨-, hx⟩
    cases hx
    exact ⟨j, rfl⟩

section Whole

variable {sizes : List Nat} {origin : Nat}

end Whole

end Reader

end Gridded
