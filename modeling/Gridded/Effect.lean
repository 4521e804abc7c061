import Gridded.Input.Basic

namespace Gridded

variable {ε σ τ α β : Type}

/--
From the state `s`, a success has the property `Q` and a failure the property `E`, each of them
together with the state that is left behind.
-/
def Ensures (a : ExceptT ε (StateM σ) α) (s : σ) (Q : α → σ → Prop) (E : ε → σ → Prop) : Prop :=
  match a.run.run s with
  | (.ok x, t) => Q x t
  | (.error e, t) => E e t

namespace Ensures

variable {s : σ} {Q Q' : α → σ → Prop} {E E' : ε → σ → Prop}

@[simp] theorem pure_iff (x : α) : Ensures (pure x) s Q E ↔ Q x s := Iff.rfl

@[simp] theorem throw_iff (e : ε) :
    Ensures (throw e : ExceptT ε (StateM σ) α) s Q E ↔ E e s := Iff.rfl

@[simp] theorem bind_iff (a : ExceptT ε (StateM σ) β) (f : β → ExceptT ε (StateM σ) α) :
    Ensures (a >>= f) s Q E ↔ Ensures a s (fun x t => Ensures (f x) t Q E) E := by
  simp only [Ensures, ExceptT.run_bind, StateT.run_bind]
  rcases a.run.run s with ⟨e | x, t⟩ <;> rfl

@[simp] theorem get_iff {Q : σ → σ → Prop} :
    Ensures (get : ExceptT ε (StateM σ) σ) s Q E ↔ Q s s := Iff.rfl

@[simp] theorem set_iff (t : σ) {Q : PUnit → σ → Prop} :
    Ensures (set t : ExceptT ε (StateM σ) PUnit) s Q E ↔ Q ⟨⟩ t := Iff.rfl

@[simp] theorem modify_iff (f : σ → σ) {Q : PUnit → σ → Prop} :
    Ensures (modify f : ExceptT ε (StateM σ) PUnit) s Q E ↔ Q ⟨⟩ (f s) := Iff.rfl

theorem mono {a : ExceptT ε (StateM σ) α} (h : Ensures a s Q E) (hq : ∀ x t, Q x t → Q' x t)
    (he : ∀ e t, E e t → E' e t) : Ensures a s Q' E' := by
  unfold Ensures at h ⊢
  revert h
  rcases a.run.run s with ⟨e | x, t⟩
  · exact he e t
  · exact hq x t

theorem of_forall {a : ExceptT ε (StateM σ) α} (hq : ∀ x t, Q x t) (he : ∀ e t, E e t) :
    Ensures a s Q E := by
  unfold Ensures
  rcases a.run.run s with ⟨e | x, t⟩
  · exact he e t
  · exact hq x t

theorem and {a : ExceptT ε (StateM σ) α} (h : Ensures a s Q E) (h' : Ensures a s Q' E') :
    Ensures a s (fun x t => Q x t ∧ Q' x t) fun e t => E e t ∧ E' e t := by
  unfold Ensures at h h' ⊢
  revert h h'
  rcases a.run.run s with ⟨e | x, t⟩
  · exact And.intro
  · exact And.intro

theorem of_run_eq_ok {a : ExceptT ε (StateM σ) α} {x : α} {t : σ} (h : Ensures a s Q E)
    (hrun : a.run.run s = (.ok x, t)) : Q x t := by
  unfold Ensures at h
  rw [hrun] at h
  exact h

theorem of_run_eq_error {a : ExceptT ε (StateM σ) α} {e : ε} {t : σ} (h : Ensures a s Q E)
    (hrun : a.run.run s = (.error e, t)) : E e t := by
  unfold Ensures at h
  rw [hrun] at h
  exact h

theorem state {a : ExceptT ε (StateM σ) α} {P : σ → Prop}
    (h : Ensures a s (fun _ => P) fun _ => P) : P (a.run.run s).2 := by
  unfold Ensures at h
  revert h
  rcases a.run.run s with ⟨e | x, t⟩
  · exact id
  · exact id

theorem foldlM {γ : Type} {f : β → γ → ExceptT ε (StateM σ) β} {I : List γ → β → σ → Prop}
    (l : List γ)
    (step : ∀ done b t q, done ++ [q] <+: l → I done b t → Ensures (f b q) t (I (done ++ [q])) E)
    {b : β} (h : I [] b s) : Ensures (l.foldlM f b) s (I l) E := by
  induction l generalizing I b s with
  | nil => exact h
  | cons q l ih =>
    rw [List.foldlM_cons, bind_iff]
    apply (step [] b s q (by simp) h).mono
    · intro b' t h'
      refine ih (I := fun done => I (q :: done)) (fun done b t r hpre => ?_) h'
      exact step (q :: done) b t r (List.cons_prefix_cons.2 ⟨rfl, hpre⟩)
    · exact fun _ _ he => he

theorem bind_congr {a : ExceptT ε (StateM σ) β} {f g : β → ExceptT ε (StateM σ) α}
    (h : ∀ s, Ensures a s (fun x _ => f x = g x) fun _ _ => True) : a >>= f = a >>= g := by
  apply ExceptT.ext
  apply StateT.ext
  intro s
  rw [ExceptT.run_bind, StateT.run_bind, ExceptT.run_bind, StateT.run_bind]
  have hs := h s
  unfold Ensures at hs
  revert hs
  rcases a.run.run s with ⟨e | x, t⟩
  · exact fun _ => rfl
  · exact fun hx => congrArg (fun c => c.run.run t) hx

@[simp] theorem within_iff {part : τ → σ} {put : σ → τ → τ} {a : Action σ α} {t : τ}
    {Q : α → τ → Prop} {E : SourceError → τ → Prop} :
    Ensures (a.within part put) t Q E ↔
      Ensures a (part t) (fun x s => Q x (put s t)) (fun e s => E e (put s t)) := by
  have h : (a.within part put).run.run t =
      ((a.run.run (part t)).1, put (a.run.run (part t)).2 t) := rfl
  unfold Ensures
  rw [h]
  rcases a.run.run (part t) with ⟨e | x, s⟩ <;> rfl

end Ensures

/-- What `a` does to a whole is what `b` does to a part of it. -/
def Through (part : τ → σ) (a : ExceptT ε (StateM τ) α) (b : ExceptT ε (StateM σ) α) : Prop :=
  ∀ t, ((a.run.run t).1, part (a.run.run t).2) = b.run.run (part t)

namespace Through

variable {part : τ → σ}

theorem modify {f : τ → τ} (h : ∀ t, part (f t) = part t) :
    Through part (modify f : ExceptT ε (StateM τ) PUnit) (pure ⟨⟩) :=
  fun t => congrArg (Prod.mk (Except.ok PUnit.unit)) (h t)

theorem within {put : σ → τ → τ} (h : ∀ s t, part (put s t) = s) (a : Action σ α) :
    Through part (a.within part put) a := by
  intro t
  exact congrArg (Prod.mk _) (h _ t)

theorem bind {a : ExceptT ε (StateM τ) α} {b : ExceptT ε (StateM σ) α}
    {f : α → ExceptT ε (StateM τ) β} {g : α → ExceptT ε (StateM σ) β} (h : Through part a b)
    (hf : ∀ x, Through part (f x) (g x)) : Through part (a >>= f) (b >>= g) := by
  intro t
  rw [ExceptT.run_bind, StateT.run_bind, ExceptT.run_bind, StateT.run_bind, ← h t]
  rcases a.run.run t with ⟨e | x, u⟩
  · rfl
  · exact hf x u

theorem foldlM {γ : Type} {f : β → γ → ExceptT ε (StateM τ) β} {g : β → γ → ExceptT ε (StateM σ) β}
    (h : ∀ b q, Through part (f b q) (g b q)) (l : List γ) (b : β) :
    Through part (l.foldlM f b) (l.foldlM g b) := by
  induction l generalizing b with
  | nil => exact fun _ => rfl
  | cons q l ih => exact (h b q).bind ih

end Through

end Gridded
