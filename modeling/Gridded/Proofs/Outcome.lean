import Gridded.Journal
import Mathlib.Data.List.Forall2

namespace Gridded

variable {ε α β : Type}

namespace Except

theorem bind_eq_ok_iff {x : Except ε α} {f : α → Except ε β} {b : β} :
    x >>= f = .ok b ↔ ∃ a, x = .ok a ∧ f a = .ok b := by
  cases x <;> simp [bind, Except.bind]

theorem bind_eq_error_iff {x : Except ε α} {f : α → Except ε β} {e : ε} :
    x >>= f = .error e ↔ x = .error e ∨ ∃ a, x = .ok a ∧ f a = .error e := by
  cases x <;> simp [bind, Except.bind]

variable {f : α → Except ε β} {xs : List α} {ys : List β} {e : ε}

theorem mapM_eq_ok_iff : xs.mapM f = .ok ys ↔ List.Forall₂ (fun x y => f x = .ok y) xs ys := by
  induction xs generalizing ys with
  | nil =>
    rw [List.mapM_nil, List.forall₂_nil_left_iff, eq_comm]
    exact ⟨fun h => Except.ok.inj h, fun h => congrArg _ h⟩
  | cons x xs ih =>
    simp only [List.mapM_cons, bind_eq_ok_iff, List.forall₂_cons_left_iff, ih]
    constructor
    · rintro ⟨y, hy, ys', hys, h⟩
      exact ⟨y, ys', hy, hys, (Except.ok.inj h).symm⟩
    · rintro ⟨y, ys', hy, hys, rfl⟩
      exact ⟨y, hy, ys', hys, rfl⟩

theorem exists_mapM_eq_ok_iff : (∃ ys, xs.mapM f = .ok ys) ↔ ∀ x ∈ xs, ∃ y, f x = .ok y := by
  induction xs with
  | nil => exact iff_of_true ⟨[], rfl⟩ nofun
  | cons x xs ih =>
    simp only [List.mapM_cons, bind_eq_ok_iff, List.forall_mem_cons, ← ih]
    constructor
    · rintro ⟨_, y, hy, ys, hys, -⟩
      exact ⟨⟨y, hy⟩, ys, hys⟩
    · rintro ⟨⟨y, hy⟩, ys, hys⟩
      exact ⟨y :: ys, y, hy, ys, hys, rfl⟩

theorem mapM_eq_error_iff :
    xs.mapM f = .error e ↔
      ∃ before x after, xs = before ++ x :: after ∧ (∀ y ∈ before, ∃ z, f y = .ok z) ∧
        f x = .error e := by
  induction xs with
  | nil => exact iff_of_false nofun fun ⟨before, x, after, h, _⟩ => by cases before <;> cases h
  | cons x xs ih =>
    simp only [List.mapM_cons, bind_eq_error_iff, ih]
    constructor
    · rintro (h | ⟨z, hz, ⟨before, y, after, rfl, hbefore, hy⟩ | ⟨_, _, h⟩⟩)
      · exact ⟨[], x, xs, rfl, nofun, h⟩
      · exact ⟨x :: before, y, after, rfl, List.forall_mem_cons.2 ⟨⟨z, hz⟩, hbefore⟩, hy⟩
      · cases h
    · rintro ⟨before, y, after, h, hbefore, hy⟩
      cases before with
      | nil =>
        obtain ⟨rfl, rfl⟩ := List.cons.inj h
        exact .inl hy
      | cons b before =>
        obtain ⟨rfl, rfl⟩ := List.cons.inj h
        obtain ⟨⟨z, hz⟩, hbefore⟩ := List.forall_mem_cons.1 hbefore
        exact .inr ⟨z, hz, .inl ⟨before, y, after, rfl, hbefore, hy⟩⟩

theorem foldlM_eq_error_iff {f : β → α → Except ε β} {b : β} :
    xs.foldlM f b = .error e ↔
      ∃ before x after c, xs = before ++ x :: after ∧ before.foldlM f b = .ok c ∧
        f c x = .error e := by
  induction xs generalizing b with
  | nil => exact iff_of_false nofun fun ⟨before, x, after, c, h, _⟩ => by cases before <;> cases h
  | cons x xs ih =>
    simp only [List.foldlM_cons, bind_eq_error_iff, ih]
    constructor
    · rintro (h | ⟨c, hc, before, y, after, d, rfl, hbefore, hy⟩)
      · exact ⟨[], x, xs, b, rfl, rfl, h⟩
      · refine ⟨x :: before, y, after, d, rfl, ?_, hy⟩
        rw [List.foldlM_cons, hc]
        exact hbefore
    · rintro ⟨before, y, after, d, h, hbefore, hy⟩
      cases before with
      | nil =>
        obtain ⟨rfl, rfl⟩ := List.cons.inj h
        obtain rfl := Except.ok.inj hbefore
        exact .inl hy
      | cons z before =>
        obtain ⟨rfl, rfl⟩ := List.cons.inj h
        rw [List.foldlM_cons, bind_eq_ok_iff] at hbefore
        obtain ⟨c, hc, hbefore⟩ := hbefore
        exact .inr ⟨c, hc, before, y, after, d, rfl, hbefore, hy⟩

end Except

namespace Logged

variable {c : ExceptT ε Logged α} {f : α → ExceptT ε Logged β} {x : α}

theorem result_run_bind (c : ExceptT ε Logged α) (f : α → ExceptT ε Logged β) :
    (c >>= f).run.result = c.run.result >>= fun x => (f x).run.result := by
  rw [ExceptT.run_bind, result_bind]
  rcases c.run.result with e | x <;> rfl

theorem result_run_map (c : ExceptT ε Logged α) (f : α → β) :
    (f <$> c).run.result = c.run.result.map f := by
  rw [ExceptT.run_map]
  rfl

theorem events_run_map (c : ExceptT ε Logged α) (f : α → β) :
    (f <$> c).run.events = c.run.events := by
  rw [ExceptT.run_map]
  exact List.append_nil _

theorem events_run_bind (h : c.run.result = .ok x) :
    (c >>= f).run.events = c.run.events ++ (f x).run.events := by
  rw [ExceptT.run_bind, events_bind, h]

theorem result_run_mapM (f : α → ExceptT ε Logged β) (xs : List α) :
    (xs.mapM f).run.result = xs.mapM fun x => (f x).run.result := by
  induction xs with
  | nil => rfl
  | cons x xs ih =>
    simp only [List.mapM_cons, result_run_bind, ih]
    rfl

theorem events_run_mapM {g : α → List Event} {xs : List α} {ys : List β}
    (hg : ∀ x y, (f x).run.result = .ok y → (f x).run.events = g x)
    (h : (xs.mapM f).run.result = .ok ys) : (xs.mapM f).run.events = xs.flatMap g := by
  induction xs generalizing ys with
  | nil => rfl
  | cons x xs ih =>
    rw [List.mapM_cons, result_run_bind, Except.bind_eq_ok_iff] at h
    obtain ⟨y, hy, h⟩ := h
    rw [result_run_bind, Except.bind_eq_ok_iff] at h
    obtain ⟨ys', hys, -⟩ := h
    rw [List.mapM_cons, events_run_bind hy, events_run_bind hys, ih hys, hg x y hy,
      List.flatMap_cons]
    exact congrArg _ (List.append_nil _)

end Logged

end Gridded
