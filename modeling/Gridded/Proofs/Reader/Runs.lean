import Gridded.Proofs.Input.Faithful
import Gridded.Proofs.Region.Selection
import Gridded.Reader

/-!
Reading by runs from a faithful input. What is read is a function of the bytes, and so is the
failure unless the input fails by itself: neither the position nor anything read ahead matters.
-/

namespace Gridded

inductive StoreError.Kind
  | content
  | source (kind : SourceError.Kind)
  | overflow (quantity : String)
  | exhausted (size : Nat)
  deriving DecidableEq

def StoreError.kind : StoreError → Kind
  | .content _ => .content
  | .source e => .source e.kind
  | .overflow quantity => .overflow quantity
  | .exhausted size => .exhausted size

theorem StoreError.kind_eq_overflow_iff {e : StoreError} {quantity : String} :
    e.kind = .overflow quantity ↔ e = .overflow quantity := by
  cases e <;> simp [kind]

theorem StoreError.kind_eq_source_iff {e : StoreError} {kind : SourceError.Kind} :
    e.kind = .source kind ↔ ∃ s, e = .source s ∧ s.kind = kind := by
  cases e <;> simp [StoreError.kind]

def Contents.element (c : Contents) (k : ElementKind) (p : Nat) : k.Element :=
  k.decode c.order (c.bytes.extract p (p + k.size)).toList

theorem ElementKind.size_pos (k : ElementKind) : 0 < k.size := by
  cases k <;> decide

theorem ElementKind.decodeAll_extract (k : ElementKind) (c : Contents) (p count : Nat) :
    (k.decodeAll c.order (c.bytes.extract p (p + count * k.size)) count).toList =
      (List.range count).map fun i => c.element k (p + i * k.size) := by
  apply List.ext_getElem
  · simp [decodeAll]
  · intro i hi _
    have hi : i < count := by simpa [decodeAll] using hi
    have hle : (i + 1) * k.size ≤ count * k.size := Nat.mul_le_mul_right _ hi
    simp only [decodeAll, Array.getElem_toList, Array.getElem_ofFn, List.getElem_map,
      List.getElem_range, decodeAt, Contents.element, Array.extract_extract]
    rw [Nat.min_eq_left (by omega), Nat.add_one_mul, Nat.add_assoc]

namespace ReadM

variable {ι α β : Type}

def quiet (a : ReadM ι α) : ExceptT StoreError (StateM ι) α :=
  ExceptT.mk fun i => pure (a.run.run i).result

theorem run_quiet (a : ReadM ι α) (i : ι) : a.quiet.run.run i = (a.run.run i).result := rfl

@[simp] theorem quiet_pure (x : α) : (pure x : ReadM ι α).quiet = pure x := rfl

@[simp] theorem quiet_throw (e : StoreError) : (throw e : ReadM ι α).quiet = throw e := rfl

@[simp] theorem quiet_get : (get : ReadM ι ι).quiet = get := rfl

@[simp] theorem quiet_tell (e : Event) :
    (liftM (Logged.tell e) : ReadM ι Unit).quiet = pure () := rfl

@[simp] theorem quiet_mk (a : ExceptT StoreError (StateM ι) α) :
    quiet (ExceptT.mk fun i => pure (a.run.run i)) = a := rfl

@[simp] theorem quiet_bind (a : ReadM ι α) (f : α → ReadM ι β) :
    (a >>= f).quiet = a.quiet >>= fun x => (f x).quiet := by
  apply ExceptT.ext
  apply StateT.ext
  intro i
  rw [run_quiet, ExceptT.run_bind, StateT.run_bind, ExceptT.run_bind, StateT.run_bind,
    Logged.result_bind, run_quiet]
  rcases (a.run.run i).result with ⟨e | x, j⟩
  · rfl
  · rfl

end ReadM

namespace Reader

@[simp] theorem onInput_ensures_iff {ι α : Type} {i : ι} {a : Action ι α} {Q : α → ι → Prop}
    {E : StoreError → ι → Prop} :
    Ensures (onInput a) i Q E ↔ Ensures a i Q fun e j => E (.source e) j := by
  have h : (onInput a).run.run i = ((a.run.run i).1.mapError .source, (a.run.run i).2) := rfl
  unfold Ensures
  rw [h]
  rcases a.run.run i with ⟨e | x, j⟩ <;> rfl

section Follows

variable {ι α β γ : Type} [Input ι] [FaithfulInput ι] {c : Contents} {i : ι}

/-- The computation comes to what was worked out beforehand unless the input fails by itself. -/
def Follows (a : ExceptT StoreError (StateM ι) α) (c : Contents) (i : ι)
    (x : Except StoreError.Kind α) : Prop :=
  Ensures a i (fun r j => FaithfulInput.Over c j ∧ x = .ok r) fun e j =>
    FaithfulInput.Over c j ∧ (x = .error e.kind ∨ ∃ s, e = .source s ∧ FaithfulInput.Fails ι s)

theorem follows_pure (hi : FaithfulInput.Over c i) (r : α) :
    Follows (pure r : ExceptT StoreError (StateM ι) α) c i (.ok r) :=
  ⟨hi, rfl⟩

theorem follows_throw (hi : FaithfulInput.Over c i) (e : StoreError) :
    Follows (throw e : ExceptT StoreError (StateM ι) α) c i (.error e.kind) :=
  ⟨hi, .inl rfl⟩

theorem Follows.bind {a : ExceptT StoreError (StateM ι) α}
    {f : α → ExceptT StoreError (StateM ι) β} {x : Except StoreError.Kind α}
    {g : α → Except StoreError.Kind β} (ha : Follows a c i x)
    (hf : ∀ r j, FaithfulInput.Over c j → Follows (f r) c j (g r)) :
    Follows (a >>= f) c i (x >>= g) := by
  unfold Follows
  rw [Ensures.bind_iff]
  apply ha.mono
  · rintro r j ⟨hj, rfl⟩
    exact hf r j hj
  · rintro e j ⟨hj, rfl | he⟩
    · exact ⟨hj, .inl rfl⟩
    · exact ⟨hj, .inr he⟩

theorem Follows.of_quiet {a : ReadM ι α} {x : Except StoreError.Kind α}
    (h : Follows a.quiet c i x) :
    match (a.run.run i).result with
    | (.ok r, j) => FaithfulInput.Over c j ∧ x = .ok r
    | (.error e, j) => FaithfulInput.Over c j ∧
        (x = .error e.kind ∨ ∃ s, e = .source s ∧ FaithfulInput.Fails ι s) := by
  unfold Follows Ensures at h
  rw [ReadM.run_quiet] at h
  revert h
  rcases (a.run.run i).result with ⟨e | r, j⟩
  · exact id
  · exact id

theorem follows_foldlM {f : β → γ → ExceptT StoreError (StateM ι) β}
    {g : β → γ → Except StoreError.Kind β}
    (h : ∀ b q j, FaithfulInput.Over c j → Follows (f b q) c j (g b q)) (l : List γ) (b : β)
    (hi : FaithfulInput.Over c i) : Follows (l.foldlM f b) c i (l.foldlM g b) := by
  induction l generalizing b i with
  | nil => exact follows_pure hi b
  | cons q l ih =>
    rw [List.foldlM_cons, List.foldlM_cons]
    exact (h b q i hi).bind fun b' j hj => ih b' hj

end Follows

variable {c : Contents} {k : ElementKind} {length origin : Nat}

def runOf (c : Contents) (k : ElementKind) (length position : Nat) (p : Progress k) :
    Except StoreError.Kind (Progress k) :=
  if position < wordLimit then
    if position + length * k.size ≤ c.bytes.size then
      .ok ⟨p.runs + 1, p.values ++ k.decodeAll c.order
        (c.bytes.extract position (position + length * k.size)) length⟩
    else .error (.source .unexpectedEnd)
  else .error (.overflow "stream position")

def runsOf (c : Contents) (k : ElementKind) (origin : Nat) (region : Region) :
    Except StoreError.Kind (Progress k) :=
  let laps := region.laps k.size
  let position := region.start * k.size + origin
  if laps.any (wordLimit ≤ ·.gap) then .error (.overflow "stride")
  else if wordLimit ≤ position then .error (.overflow "stream position")
  else (Walk.places laps position).foldlM (fun p q => runOf c k region.runLength q p) {}

section Following

variable {ι : Type} [Input ι] [FaithfulInput ι] {i : ι}

theorem readRun_follows (hi : FaithfulInput.Over c i) (hlength : 0 < length) (position : Nat)
    (p : Progress k) :
    Follows (readRun k length position p) c i (runOf c k length position p) := by
  -- No read is empty: beyond the end, a buffer would grant an empty one and memory refuse it.
  have hsize : 0 < length * k.size := Nat.mul_pos hlength k.size_pos
  unfold readRun runOf
  split
  · next hposition =>
    unfold Follows
    simp only [Ensures.bind_iff, onInput_ensures_iff, Ensures.get_iff, Ensures.pure_iff]
    apply (FaithfulInput.seek hi hposition).mono
    · intro _ j hj
      apply (FaithfulInput.read hj).mono
      · rintro got j' ⟨rfl, hgot, hj'⟩
        have hover := FaithfulInput.over_of_at hj'
        rw [Array.size_extract] at hgot
        rw [if_pos (by omega), FaithfulInput.order_eq hover]
        exact ⟨hover, rfl⟩
      · rintro e j' ⟨hover, he | ⟨he, hend⟩⟩
        · exact ⟨hover, .inr ⟨e, rfl, he⟩⟩
        · rw [if_neg (by omega), ← he]
          exact ⟨hover, .inl rfl⟩
    · rintro e j ⟨hover, he⟩
      exact ⟨hover, .inr ⟨e, rfl, he⟩⟩
  · exact follows_throw hi _

theorem readRuns_follows (hi : FaithfulInput.Over c i) {region : Region}
    (hlength : 0 < region.runLength) (k : ElementKind) (origin : Nat) :
    Follows (readRuns k origin region) c i (runsOf c k origin region) := by
  simp only [readRuns, runsOf, Heap.allocate_unbounded]
  split
  · exact follows_throw hi (.overflow "stride")
  · split
    · exact follows_throw hi (.overflow "stream position")
    · rw [Walk.fold_eq_foldlM]
      exact follows_foldlM (fun p q j hj => readRun_follows hj hlength q p) _ _ hi

end Following

section Values

variable {p p' : Progress k}

theorem runOf_eq_ok {q : Nat} (h : runOf c k length q p = .ok p') :
    q + length * k.size ≤ c.bytes.size ∧
      p'.values.toList =
        p.values.toList ++ (List.range length).map fun i => c.element k (q + i * k.size) := by
  unfold runOf at h
  split at h
  · split at h
    · next hsize =>
      obtain rfl := Except.ok.inj h
      rw [Array.toList_append, k.decodeAll_extract]
      exact ⟨hsize, rfl⟩
    · cases h
  · cases h

theorem foldlM_runOf_eq_ok {qs : List Nat}
    (h : qs.foldlM (fun p q => runOf c k length q p) p = .ok p') :
    (∀ q ∈ qs, q + length * k.size ≤ c.bytes.size) ∧
      p'.values.toList = p.values.toList ++
        qs.flatMap fun q => (List.range length).map fun i => c.element k (q + i * k.size) := by
  induction qs generalizing p with
  | nil =>
    obtain rfl := Except.ok.inj h
    simp
  | cons q qs ih =>
    rw [List.foldlM_cons, Except.bind_eq_ok_iff] at h
    obtain ⟨p₁, hq, hqs⟩ := h
    obtain ⟨hsize, hvalues⟩ := runOf_eq_ok hq
    obtain ⟨hsizes, hrest⟩ := ih hqs
    rw [hrest, hvalues, List.flatMap_cons, List.append_assoc]
    exact ⟨List.forall_mem_cons.2 ⟨hsize, hsizes⟩, rfl⟩

theorem runsOf_eq_ok {ss : List Slice} (hss : ∀ s ∈ ss, s.Fits)
    (h : runsOf c k origin (Region.Partial.along ss).toRegion = .ok p) :
    (∀ q ∈ (Region.Partial.along ss).visits, origin + k.size * q + k.size ≤ c.bytes.size) ∧
      p.values.toList =
        (Region.Partial.along ss).visits.map fun q => c.element k (origin + k.size * q) := by
  simp only [runsOf] at h
  split at h
  · cases h
  split at h
  · cases h
  · rw [Region.places_laps] at h
    obtain ⟨hsizes, hvalues⟩ := foldlM_runOf_eq_ok h
    rw [Region.visits_eq_flatMap hss]
    constructor
    · intro q hq
      obtain ⟨start, hstart, hq⟩ := List.mem_flatMap.1 hq
      rw [List.mem_range'_1] at hq
      have hle : (q + 1) * k.size ≤ (start + (Region.Partial.along ss).runLength) * k.size :=
        Nat.mul_le_mul_right _ hq.2
      have hend := hsizes _ (List.mem_map_of_mem hstart)
      rw [Nat.add_one_mul, Nat.add_mul] at hle
      rw [Nat.mul_comm k.size q]
      omega
    · rw [hvalues, List.flatMap_map, List.map_flatMap]
      apply List.flatMap_congr
      intro start _
      rw [List.range'_eq_map_range, List.map_map]
      apply List.map_congr_left
      intro i _
      have hplace : start * k.size + origin + i * k.size = origin + k.size * (start + i) := by
        rw [Nat.mul_comm k.size, Nat.add_mul]
        omega
      rw [hplace]
      rfl

end Values

def valuesOf (r : Reader) (c : Contents) (k : ElementKind) (region : Region) :
    Except StoreError.Kind (Array k.Element) :=
  if k ≠ r.kind then .error .content
  else do return (← runsOf c k r.origin region).values

theorem readAs_follows {ι : Type} [Input ι] [FaithfulInput ι] {i : ι} {region : Region}
    (hi : FaithfulInput.Over c i) (hlength : 0 < region.runLength) (r : Reader)
    (k : ElementKind) :
    Follows (r.readAs k region).quiet c i (r.valuesOf c k region) := by
  unfold valuesOf
  simp only [readAs, ReadM.quiet_bind, ReadM.quiet_get]
  split
  · simp only [ReadM.quiet_bind, ReadM.quiet_throw]
    exact follows_throw hi (.content (.kindMismatch (Input.name i) r.kind k))
  · simp only [ReadM.quiet_bind, ReadM.quiet_mk, ReadM.quiet_tell, ReadM.quiet_pure]
    exact (readRuns_follows hi hlength k r.origin).bind fun p _ hj => follows_pure hj p.values

end Reader

end Gridded
