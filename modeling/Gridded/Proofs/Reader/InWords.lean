import Gridded.Proofs.Reader.Accounting
import Gridded.Proofs.Region.InWords
import Gridded.Proofs.Region.Odometer
import Gridded.Input.Basic
import Mathlib

/-!
Reads computed in words. The elements are put in the places of an array made beforehand, and an
odometer leads from run to run. As the runs have all elements among them, no run ends behind the
array, and as a word counts the elements, no sum is too large.
-/

namespace Gridded

def splice {α : Type} (values : Array α) (start : Nat) (part : Array α) : Array α :=
  values.extract 0 start ++ part ++ values.extract (start + part.size)

theorem splice_append_replicate {α : Type} (values part : Array α) (n : Nat) (x : α) :
    splice (values ++ .replicate n x) values.size part =
      values ++ part ++ .replicate (n - part.size) x := by
  rw [splice, Array.extract_append, Array.extract_append,
    Array.extract_empty_of_size_le_start (Nat.le_add_right values.size part.size)]
  simp

namespace Memory

def readInWords (n : Nat) : ExceptT (Failure SourceError) (StateM Memory) Bytes := do
  let m ← get
  if m.position + n ≤ m.bytes.size then
    set { m with position := ← Word.add m.position n }
    return m.bytes.extract m.position (m.position + n)
  else throw (.reported (.outside m.name n m.position m.bytes.size))

theorem readInWords_eq {m : Memory} (h : m.bytes.size < wordLimit) (n : Nat) :
    (readInWords n).run.run m = (reported (read n)).run.run m := by
  rw [readInWords, read, reported_bind, reported_get, run_get_bind, run_get_bind]
  split
  · next hle =>
    rw [Word.add_eq_pure (Nat.lt_of_le_of_lt hle h)]
    rfl
  · rfl

end Memory

namespace Reader

structure Output (k : ElementKind) where
  runs : Nat
  offset : Nat
  values : Array k.Element

variable {k : ElementKind} {length total : Nat}

def Output.filled (total : Nat) (p : Progress k) : Output k :=
  ⟨p.runs, p.values.size, p.values ++ .replicate (total - p.values.size) (k.ofWord 0)⟩

theorem Output.size_filled {p : Progress k} (h : p.values.size ≤ total) :
    (filled total p).values.size = total := by
  rw [filled, Array.size_append, Array.size_replicate]
  omega

theorem Output.filled_append (p : Progress k) (runs : Nat) (run : Array k.Element) :
    filled total ⟨runs, p.values ++ run⟩ =
      ⟨runs, p.values.size + run.size, splice (filled total p).values p.values.size run⟩ := by
  rw [filled, filled, splice_append_replicate, Array.size_append, Nat.sub_add_eq]

variable {ι : Type} [Input ι]

def readRunInWords (k : ElementKind) (length position : Nat) (out : Output k) :
    ExceptT (Failure StoreError) (StateM ι) (Output k) := do
  if position < wordLimit then
    reported (onInput (Input.seek position))
    let stop ← Word.add out.offset length
    if out.values.size < stop then throw .fault
    let bytes ← reported (onInput (Input.read (length * k.size)))
    let run := k.decodeAll (Input.order (← get)) bytes length
    return ⟨← Word.add out.runs 1, stop, splice out.values out.offset run⟩
  else throw (.reported (.overflow "stream position"))

def readRunsInWords (k : ElementKind) (origin : Nat) (region : Region) :
    ExceptT (Failure StoreError) (StateM ι) (Output k) := do
  let length ← region.runLengthInWords
  let laps := region.laps k.size
  if laps.any (wordLimit ≤ ·.gap) then throw (.reported (.overflow "stride"))
  let position := region.start * k.size + origin
  if wordLimit ≤ position then throw (.reported (.overflow "stream position"))
  Odometer.foldInWords (readRunInWords k length) laps.reverse region.length
    (Odometer.zeros laps.reverse) position
    { runs := 0, offset := 0, values := .replicate region.length (k.ofWord 0) }

def readInWords (r : Reader) (region : Region) :
    ExceptT (Failure StoreError) (StateM ι) Elements := do
  let out ← readRunsInWords r.kind r.origin region
  return ⟨r.kind, out.values⟩

theorem readRunInWords_eq {p : Progress k} (hsize : p.values.size + length ≤ total)
    (htotal : total < wordLimit) (hruns : p.runs + 1 < wordLimit) (position : Nat) :
    (readRunInWords k length position (.filled total p) :
        ExceptT (Failure StoreError) (StateM ι) _) =
      reported (Output.filled total <$> readRun k length position p) := by
  have hfull : (Output.filled total p).values.size = total := Output.size_filled (by omega)
  have hoffset : (Output.filled total p).offset = p.values.size := rfl
  have hcount : (Output.filled total p).runs = p.runs := rfl
  have hrun (order : ByteOrder) (bytes : Bytes) :
      (k.decodeAll order bytes length).size = length := Array.size_ofFn
  unfold readRunInWords readRun
  split
  · simp only [map_eq_pure_bind, bind_assoc, reported_bind, reported_get, reported_pure, pure_bind,
      hfull, hoffset, hcount, Word.add_eq_pure (Nat.lt_of_le_of_lt hsize htotal),
      Word.add_eq_pure hruns, if_neg (Nat.not_lt_of_le hsize), Output.filled_append, hrun]
  · rfl

theorem foldlM_readRunInWords_eq {qs : List Nat} {p : Progress k}
    (hsize : p.values.size + qs.length * length ≤ total) (htotal : total < wordLimit)
    (hruns : p.runs + qs.length < wordLimit) :
    (qs.foldlM (fun out q => readRunInWords k length q out) (.filled total p) :
        ExceptT (Failure StoreError) (StateM ι) _) =
      reported (Output.filled total <$> qs.foldlM (fun p q => readRun k length q p) p) := by
  induction qs generalizing p with
  | nil => rfl
  | cons q qs ih =>
    rw [List.length_cons, Nat.add_one_mul] at hsize
    rw [List.length_cons] at hruns
    rw [List.foldlM_cons, List.foldlM_cons, readRunInWords_eq (by omega) htotal (by omega)]
    simp only [map_eq_pure_bind, bind_assoc, reported_bind, reported_pure, pure_bind] at ih ⊢
    refine Ensures.bind_congr fun i => ?_
    rw [ensures_reported_iff]
    refine readRun_ensures (fun values hvalues _ => ?_) (fun _ _ => trivial) fun _ => trivial
    exact ih (by rw [Array.size_append, hvalues]; omega) (by simp only; omega)

theorem Output.filled_empty : filled total {} = (⟨0, 0, .replicate total (k.ofWord 0)⟩ : Output k) :=
  congrArg (Output.mk 0 0) Array.empty_append

theorem readRunsInWords_eq {region : Region} (hs : region.Selected) (k : ElementKind)
    (origin : Nat) :
    (readRunsInWords k origin region : ExceptT (Failure StoreError) (StateM ι) _) =
      reported (Output.filled region.length <$> readRuns k origin region) := by
  have hlimit := hs.length_lt
  have hpos : ∀ lap ∈ region.laps k.size, 0 < lap.count := fun _ hlap =>
    hs.count_pos (Region.count_mem_of_mem_laps hlap)
  have hcount : ∀ lap ∈ (region.laps k.size).reverse, lap.count < wordLimit := fun _ hlap =>
    Nat.lt_of_le_of_lt
      (hs.count_le_length (Region.count_mem_of_mem_laps (List.mem_reverse.1 hlap))) hlimit
  simp only [readRunsInWords, hs.runLengthInWords_eq, readRuns, Heap.allocate_unbounded, pure_bind]
  split
  · rfl
  split
  · rfl
  · have htour := Odometer.tour_places hpos (region.start * k.size + origin)
    -- The runs are as many as there are places, and they have all elements among them.
    have hplaces := hs.length_places_laps_mul k.size (region.start * k.size + origin)
    have hruns := (Nat.le_mul_of_pos_right _ hs.runLength_pos).trans (Nat.le_of_eq hplaces)
    rw [Walk.fold_eq_foldlM, ← Output.filled_empty, Odometer.foldInWords_eq_foldlM _ hcount
      (Odometer.valid_zeros fun lap hlap => hpos lap (List.mem_reverse.1 hlap)) htour hruns]
    apply foldlM_readRunInWords_eq
    · exact Nat.le_of_eq ((Nat.zero_add _).trans hplaces)
    · exact hlimit
    · exact Nat.lt_of_le_of_lt ((Nat.le_of_eq (Nat.zero_add _)).trans hruns) hlimit

theorem quiet_read (r : Reader) (region : Region) :
    (r.read region : ReadM ι Elements).quiet =
      readRuns r.kind r.origin region >>= fun p => pure ⟨r.kind, p.values⟩ := by
  apply ExceptT.ext
  apply StateT.ext
  intro i
  rw [ReadM.run_quiet, run_read, ExceptT.run_bind, StateT.run_bind]
  rcases (readRuns r.kind r.origin region).run.run i with ⟨e | p, j⟩
  · rfl
  · rfl

theorem readInWords_eq {region : Region} (hs : region.Selected) (r : Reader) :
    (r.readInWords region : ExceptT (Failure StoreError) (StateM ι) _) =
      reported (r.read region).quiet := by
  rw [readInWords, readRunsInWords_eq hs, quiet_read]
  simp only [map_eq_pure_bind, bind_assoc, reported_bind, reported_pure, pure_bind]
  refine Ensures.bind_congr fun i => ?_
  rw [ensures_reported_iff]
  apply (readRuns_counts r.kind r.origin region i).mono
  · rintro p - ⟨hruns, hsize⟩
    rw [hruns, hs.length_places_laps_mul] at hsize
    simp only [Output.filled, hsize, Nat.sub_self, Array.replicate_zero, Array.append_empty]
  · exact fun _ _ _ => trivial

/--
Whatever the arguments of a selection, and whatever is read of an accepted one, from any input and
from any origin, computing in words without a check comes to the same as computing in numbers: no
difference is taken below zero, no product, sum or position gets as far as the word limit, and no run
ends behind the array made for the elements. Neither does the position of a memory, as long as a word
counts its bytes.
-/
theorem inWords_eq_reported (sizes lowers uppers steps : List Nat) :
    Region.selectInWords sizes lowers uppers steps =
        (Region.select sizes lowers uppers steps).mapError .reported ∧
      (∀ region, Region.select sizes lowers uppers steps = .ok region →
        ∀ (r : Reader) (ι : Type) [Input ι],
          (r.readInWords region : ExceptT (Failure StoreError) (StateM ι) Elements) =
            reported (r.read region).quiet) ∧
      ∀ m : Memory, m.bytes.size < wordLimit → ∀ n,
        (Memory.readInWords n).run.run m = (reported (Memory.read n)).run.run m := by
  refine ⟨Region.selectInWords_eq sizes lowers uppers steps, ?_, ?_⟩
  · exact fun region h r ι _ => readInWords_eq ⟨sizes, lowers, uppers, steps, h⟩ r
  · exact fun m h n => Memory.readInWords_eq h n

theorem inWords_eq_reported_plane :
    let m : Memory := { name := "plane", order := .big, bytes := .ofFn fun i : Fin 25 => .ofNat i }
    ∃ region, Region.selectInWords [4, 3] [1, 0] [4, 3] [2, 2] = .ok region ∧
      (∃ elements, (((⟨.short, 1⟩ : Reader).readInWords region).run.run m).1 = .ok elements ∧
        elements.size = 4) ∧
      ((Memory.readInWords 25).run.run m).2.position = 25 := by
  intro m
  have hs : Region.select [4, 3] [1, 0] [4, 3] [2, 2] = .ok _ := rfl
  obtain ⟨hselect, hread, hmemory⟩ := inWords_eq_reported [4, 3] [1, 0] [4, 3] [2, 2]
  refine ⟨_, hselect, ?_, ?_⟩
  · rw [hread _ hs, run_reported]
    exact ⟨_, rfl, rfl⟩
  · rw [hmemory m (by decide)]
    rfl

end Reader

end Gridded
