import Gridded.Proofs.Reader.Runs
import Mathlib

namespace Gridded

namespace ReadM

variable {ι α β : Type}

theorem run_bind (a : ReadM ι α) (f : α → ReadM ι β) (i : ι) :
    (a >>= f).run.run i = a.run.run i >>= fun
      | (.ok x, j) => (f x).run.run j
      | (.error e, j) => pure (.error e, j) := by
  rw [ExceptT.run_bind, StateT.run_bind]
  congr 1
  funext out
  rcases out with ⟨e | x, j⟩
  · rfl
  · rfl

theorem run_get (i : ι) : (get : ReadM ι ι).run.run i = pure (.ok i, i) := rfl

theorem run_mk (a : ExceptT StoreError (StateM ι) α) (i : ι) :
    (ExceptT.mk fun i => pure (a.run.run i) : ReadM ι α).run.run i = pure (a.run.run i) := rfl

end ReadM

namespace Reader

section Runs

variable {ι : Type} [Input ι] {k : ElementKind} {origin : Nat} {region : Region} {i j : ι}

theorem readRun_ensures {length position : Nat} {p : Progress k} {Q : Progress k → ι → Prop}
    {E : StoreError → ι → Prop}
    (hread : ∀ values : Array k.Element, values.size = length →
      ∀ j, Q ⟨p.runs + 1, p.values ++ values⟩ j)
    (hsource : ∀ e j, E (.source e) j)
    (hposition : wordLimit ≤ position → E (.overflow "stream position") i) :
    Ensures (readRun k length position p) i Q E := by
  unfold readRun
  split
  · simp only [Ensures.bind_iff, onInput_ensures_iff, Ensures.get_iff, Ensures.pure_iff]
    refine Ensures.of_forall (fun _ _ => ?_) hsource
    refine Ensures.of_forall (fun _ _ => hread _ ?_ _) hsource
    exact Array.size_ofFn
  · next hlimit => exact hposition (Nat.le_of_not_lt hlimit)

theorem readRuns_ensures {I : List Nat → Progress k → ι → Prop} {E : StoreError → ι → Prop}
    (hrun : ∀ done p j q,
      done ++ [q] <+: Walk.places (region.laps k.size) (region.start * k.size + origin) →
        I done p j → Ensures (readRun k region.runLength q p) j (I (done ++ [q])) E)
    (hstride : ∀ lap ∈ region.laps k.size, wordLimit ≤ lap.gap → E (.overflow "stride") i)
    (hstart : wordLimit ≤ region.start * k.size + origin → E (.overflow "stream position") i)
    (h : I [] {} i) :
    Ensures (readRuns k origin region) i
      (I (Walk.places (region.laps k.size) (region.start * k.size + origin))) E := by
  simp only [readRuns, Heap.allocate_unbounded]
  split
  · next hany =>
    obtain ⟨lap, hlap, hgap⟩ := List.any_eq_true.1 hany
    exact hstride lap hlap (of_decide_eq_true hgap)
  split
  · next hlimit => exact hstart hlimit
  · rw [Walk.fold_eq_foldlM]
    exact Ensures.foldlM _ hrun h

theorem readRuns_counts (k : ElementKind) (origin : Nat) (region : Region) (i : ι) :
    Ensures (readRuns k origin region) i
      (fun p _ => p.runs = (Walk.places (region.laps k.size)
          (region.start * k.size + origin)).length ∧
        p.values.size = p.runs * region.runLength)
      fun _ _ => True := by
  apply readRuns_ensures
    (I := fun done p _ => p.runs = done.length ∧ p.values.size = p.runs * region.runLength)
  · rintro done p j q - ⟨hruns, hsize⟩
    refine readRun_ensures (fun values hvalues _ => ⟨?_, ?_⟩) (fun _ _ => trivial) fun _ => trivial
    · rw [List.length_append, hruns]
      rfl
    · rw [Array.size_append, hsize, hvalues, Nat.add_one_mul]
  · exact fun _ _ _ => trivial
  · exact fun _ => trivial
  · exact ⟨rfl, (Nat.zero_mul _).symm⟩

theorem readRuns_metered (k : ElementKind) (origin : Nat) (region : Region) (i : ι) :
    Ensures (readRuns k origin region) ({ input := i } : Metered ι)
      (fun p m => m.seeks = p.runs ∧ m.reads = p.runs ∧
        m.bytesRead = p.runs * (region.runLength * k.size))
      fun _ _ => True := by
  apply readRuns_ensures
    (I := fun _ p (m : Metered ι) => m.seeks = p.runs ∧ m.reads = p.runs ∧
      m.bytesRead = p.runs * (region.runLength * k.size))
  · rintro done p m q - ⟨hseeks, hreads, hbytes⟩
    unfold readRun
    split
    · simp only [Ensures.bind_iff, onInput_ensures_iff, Input.seek, Input.read, Metered.onInput,
        Ensures.within_iff, Ensures.modify_iff, Ensures.get_iff, Ensures.pure_iff]
      refine Ensures.of_forall (fun _ j => ?_) fun _ _ => trivial
      refine Ensures.of_forall (fun got j' => ⟨?_, ?_, ?_⟩) fun _ _ => trivial
      · simp only [hseeks]
      · simp only [hreads]
      · simp only [hbytes, Nat.add_one_mul]
    · trivial
  · exact fun _ _ _ => trivial
  · exact fun _ => trivial
  · exact ⟨rfl, rfl, (Nat.zero_mul _).symm⟩

section Memory

variable {heap : Heap}

theorem readRuns_of_holds (h : heap.holds (region.length * k.size)) (origin : Nat) :
    (readRuns k origin region heap : ExceptT StoreError (StateM ι) _) =
      readRuns k origin region := by
  simp only [readRuns, Heap.allocate_eq_pure h, Heap.allocate_unbounded]

theorem run_readRuns_of_not_holds (h : ¬heap.holds (region.length * k.size)) (origin : Nat) :
    ∃ e, (e = .exhausted (region.length * k.size) ∨ ∃ quantity, e = .overflow quantity) ∧
      ∀ {ι : Type} [Input ι] (i : ι),
        (readRuns k origin region heap).run.run i = (.error e, i) := by
  simp only [readRuns, Heap.allocate_eq_throw h]
  split
  · exact ⟨_, .inr ⟨_, rfl⟩, fun _ => rfl⟩
  split
  · exact ⟨_, .inr ⟨_, rfl⟩, fun _ => rfl⟩
  · exact ⟨_, .inl rfl, fun _ => rfl⟩

theorem readAs_of_holds (h : heap.holds (region.length * k.size)) (r : Reader) :
    (r.readAs k region heap : ReadM ι _) = r.readAs k region := by
  simp only [readAs, readRuns_of_holds h]

theorem read_of_holds {r : Reader} (h : heap.holds (region.length * r.dataSize)) :
    (r.read region heap : ReadM ι _) = r.read region := by
  simp only [read, readAs_of_holds h]

end Memory

theorem run_readAs (r : Reader) (k : ElementKind) (region : Region) (i : ι)
    (heap : Heap) :
    (r.readAs k region heap).run.run i =
      if k ≠ r.kind then ⟨(.error (.content (.kindMismatch (Input.name i) r.kind k)), i), []⟩
      else match (readRuns k r.origin region heap).run.run i with
        | (.ok p, j) => ⟨(.ok p.values, j),
            [.elementsRead (Input.name i) p.values.size k p.runs region.runLength]⟩
        | (.error e, j) => ⟨(.error e, j), []⟩ := by
  simp only [readAs, ReadM.run_bind, ReadM.run_get, pure_bind]
  split
  · rfl
  · simp only [ReadM.run_bind, ReadM.run_mk, pure_bind]
    rcases (readRuns k r.origin region heap).run.run i with ⟨e | p, j⟩
    · rfl
    · rfl

theorem run_read (r : Reader) (region : Region) (i : ι) (heap : Heap) :
    (r.read region heap).run.run i =
      match (readRuns r.kind r.origin region heap).run.run i with
        | (.ok p, j) => ⟨(.ok ⟨r.kind, p.values⟩, j),
            [.elementsRead (Input.name i) p.values.size r.kind p.runs region.runLength]⟩
        | (.error e, j) => ⟨(.error e, j), []⟩ := by
  rw [read, ReadM.run_bind, run_readAs, if_neg (not_not_intro rfl)]
  rcases (readRuns r.kind r.origin region heap).run.run i with ⟨e | p, j⟩
  · rfl
  · rfl

theorem holds_of_readAs {r : Reader} {heap : Heap} {values : Array k.Element}
    (h : ((r.readAs k region heap).run.run i).result.1 = .ok values) :
    heap.holds (region.length * k.size) := by
  by_contra hheap
  obtain ⟨e, -, he⟩ := run_readRuns_of_not_holds hheap r.origin
  rw [run_readAs, he] at h
  split at h
  · cases h
  · cases h

theorem exists_runs_of_readAs {r : Reader} {values : Array k.Element}
    (h : ((r.readAs k region).run.run i).result = (.ok values, j)) :
    k = r.kind ∧ ∃ p, (readRuns k r.origin region).run.run i = (.ok p, j) ∧ values = p.values ∧
      ((r.readAs k region).run.run i).events =
        [.elementsRead (Input.name i) p.values.size k p.runs region.runLength] := by
  rw [run_readAs] at h ⊢
  split at h
  · cases h
  · next hk =>
    rw [if_neg hk]
    rcases hrun : (readRuns k r.origin region).run.run i with ⟨e | p, j'⟩
    · rw [hrun] at h
      cases h
    · rw [hrun] at h
      cases h
      exact ⟨Decidable.not_not.1 hk, p, rfl, rfl, rfl⟩

theorem exists_runs_of_read {r : Reader} {elements : Elements}
    (h : ((r.read region).run.run i).result = (.ok elements, j)) :
    ∃ p, (readRuns r.kind r.origin region).run.run i = (.ok p, j) ∧
      elements = ⟨r.kind, p.values⟩ := by
  rw [run_read] at h
  rcases hrun : (readRuns r.kind r.origin region).run.run i with ⟨e | p, j'⟩
  · rw [hrun] at h
    cases h
  · rw [hrun] at h
    cases h
    exact ⟨p, rfl, rfl⟩

theorem exists_runs_of_read_error {r : Reader} {e : StoreError}
    (h : ((r.read region).run.run i).result.1 = .error e) :
    ∃ j, (readRuns r.kind r.origin region).run.run i = (.error e, j) := by
  rw [run_read] at h
  rcases hrun : (readRuns r.kind r.origin region).run.run i with ⟨e' | p, j⟩
  · rw [hrun] at h
    cases h
    exact ⟨j, rfl⟩
  · rw [hrun] at h
    cases h

theorem runs_of_readRuns (hs : region.Selected) {p : Progress k}
    (h : (readRuns k origin region).run.run i = (.ok p, j)) :
    p.runs = (region.counts.drop region.runDimensions).prod ∧
      p.runs * region.runLength = region.length ∧ p.values.size = region.length := by
  obtain ⟨hruns, hsize⟩ := (readRuns_counts k origin region i).of_run_eq_ok h
  have hlength : p.runs * region.runLength = region.length :=
    hruns ▸ hs.length_places_laps_mul k.size _
  exact ⟨hruns.trans (hs.length_places_laps k.size _), hlength, hsize.trans hlength⟩

theorem size_of_readAs {r : Reader} (hs : region.Selected) {values : Array k.Element}
    (h : ((r.readAs k region).run.run i).result = (.ok values, j)) :
    values.size = region.length := by
  obtain ⟨-, p, hp, rfl, -⟩ := exists_runs_of_readAs h
  exact (runs_of_readRuns hs hp).2.2

end Runs

end Reader

end Gridded
