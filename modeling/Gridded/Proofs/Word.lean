import Gridded.Effect
import Gridded.Binary.Basic
import Mathlib

namespace Gridded

/-- Why a computation in words stops: an operation that goes wrong unchecked, or an error. -/
inductive Failure (ε : Type)
  | fault
  | reported (e : ε)
  deriving DecidableEq

namespace Word

variable {ε : Type} {m : Type → Type} [Monad m] [MonadExcept (Failure ε) m]

def sub (a b : Nat) : m Nat := if b ≤ a then pure (a - b) else throw .fault

def add (a b : Nat) : m Nat := if a + b < wordLimit then pure (a + b) else throw .fault

def mul (a b : Nat) : m Nat := if a * b < wordLimit then pure (a * b) else throw .fault

variable {a b : Nat}

theorem sub_eq_pure (h : b ≤ a) : (sub a b : m Nat) = pure (a - b) := if_pos h

theorem add_eq_pure (h : a + b < wordLimit) : (add a b : m Nat) = pure (a + b) := if_pos h

theorem mul_eq_pure (h : a * b < wordLimit) : (mul a b : m Nat) = pure (a * b) := if_pos h

theorem foldlM_mul_eq_pure [LawfulMonad m] {ns : List Nat} (hpos : ∀ n ∈ ns, 0 < n)
    (h : a * ns.foldr (· * ·) 1 < wordLimit) :
    (ns.foldlM mul a : m Nat) = pure (a * ns.foldr (· * ·) 1) := by
  induction ns generalizing a with
  | nil => rw [List.foldlM_nil, List.foldr_nil, Nat.mul_one]
  | cons n ns ih =>
    obtain ⟨-, hns⟩ := List.forall_mem_cons.1 hpos
    rw [List.foldr_cons, ← Nat.mul_assoc] at h ⊢
    have hprod : 0 < ns.foldr (· * ·) 1 := List.prod_pos hns
    rw [List.foldlM_cons, mul_eq_pure (Nat.lt_of_le_of_lt (Nat.le_mul_of_pos_right _ hprod) h),
      pure_bind, ih hns h]

end Word

def reported {ε σ α : Type} (a : ExceptT ε (StateM σ) α) : ExceptT (Failure ε) (StateM σ) α :=
  a.adapt .reported

section Reported

variable {ε σ α β : Type}

theorem run_get_bind (f : σ → ExceptT ε (StateM σ) α) (s : σ) :
    (get >>= f).run.run s = (f s).run.run s := rfl

theorem run_reported (a : ExceptT ε (StateM σ) α) (s : σ) :
    (reported a).run.run s = ((a.run.run s).1.mapError .reported, (a.run.run s).2) := rfl

@[simp] theorem reported_pure (x : α) :
    reported (pure x : ExceptT ε (StateM σ) α) = pure x := rfl

@[simp] theorem reported_get :
    reported (get : ExceptT ε (StateM σ) σ) = get := rfl

@[simp] theorem reported_throw (e : ε) :
    reported (throw e : ExceptT ε (StateM σ) α) = throw (.reported e) := rfl

@[simp] theorem reported_bind (a : ExceptT ε (StateM σ) α) (f : α → ExceptT ε (StateM σ) β) :
    reported (a >>= f) = reported a >>= fun x => reported (f x) := by
  apply ExceptT.ext
  apply StateT.ext
  intro s
  rw [run_reported, ExceptT.run_bind, StateT.run_bind, ExceptT.run_bind, StateT.run_bind,
    run_reported]
  rcases a.run.run s with ⟨e | x, t⟩
  · rfl
  · rfl

@[simp] theorem ensures_reported_iff {a : ExceptT ε (StateM σ) α} {s : σ} {Q : α → σ → Prop}
    {E : Failure ε → σ → Prop} :
    Ensures (reported a) s Q E ↔ Ensures a s Q fun e => E (.reported e) := by
  unfold Ensures
  rw [run_reported]
  rcases a.run.run s with ⟨e | x, t⟩ <;> rfl

end Reported

end Gridded
