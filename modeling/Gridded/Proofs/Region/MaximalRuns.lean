import Gridded.Proofs.Region.Selection
import Mathlib

namespace Gridded

/-- The `n` numbers from `a` on are in the set, and neither the one before nor the one after is. -/
structure MaximalRun (S : Set Nat) (a n : Nat) : Prop where
  pos : 0 < n
  mem : ∀ i < n, a + i ∈ S
  notMem_before : ∀ b, b + 1 = a → b ∉ S
  notMem_after : a + n ∉ S

def numbersOf (runs : List (Nat × Nat)) : Set Nat :=
  {q | ∃ run ∈ runs, run.1 ≤ q ∧ q < run.1 + run.2}

section Separated

variable {S : Set Nat} {starts : List Nat} {length a n : Nat}

theorem maximalRun_iff_of_pairwise (hpos : 0 < length)
    (hstarts : starts.Pairwise fun p q => p + length < q)
    (hS : ∀ q, q ∈ S ↔ ∃ p ∈ starts, p ≤ q ∧ q < p + length) :
    MaximalRun S a n ↔ a ∈ starts ∧ n = length := by
  have hsymm : Std.Symm fun p q : Nat => p = q ∨ p + length < q ∨ q + length < p :=
    ⟨fun p q h => by omega⟩
  have hapart : ∀ p ∈ starts, ∀ q ∈ starts, p = q ∨ p + length < q ∨ q + length < p := by
    intro p hp q hq
    have hor := hstarts.imp fun {p q} h =>
      (.inr (.inl h) : p = q ∨ p + length < q ∨ q + length < p)
    exact hor.forall_of_forall (fun _ _ => .inl rfl) hp hq
  constructor
  · rintro ⟨hn, hmem, hbefore, hafter⟩
    -- The run that holds the first number starts with it, or the number before were in the set.
    obtain ⟨p, hp, hle, hlt⟩ := (hS a).1 (hmem 0 hn)
    have hpa : p = a := by
      by_contra hne
      exact hbefore (a - 1) (by omega) ((hS _).2 ⟨p, hp, by omega, by omega⟩)
    subst hpa
    refine ⟨hp, Nat.le_antisymm ?_ ?_⟩
    · by_contra hlong
      obtain ⟨q, hq, hle, hlt⟩ := (hS _).1 (hmem length (by omega))
      have := hapart p hp q hq
      omega
    · by_contra hshort
      exact hafter ((hS _).2 ⟨p, hp, by omega, by omega⟩)
  · rintro ⟨ha, rfl⟩
    constructor
    · exact hpos
    · exact fun i hi => (hS _).2 ⟨a, ha, by omega, by omega⟩
    · intro b hb hmem
      obtain ⟨q, hq, hle, hlt⟩ := (hS b).1 hmem
      have := hapart a ha q hq
      omega
    · intro hmem
      obtain ⟨q, hq, hle, hlt⟩ := (hS _).1 hmem
      have := hapart a ha q hq
      omega

theorem MaximalRun.exists_end_eq (h : MaximalRun S a n) {runs : List (Nat × Nat)}
    (hS : numbersOf runs = S) : ∃ run ∈ runs, run.1 + run.2 = a + n := by
  have hpos := h.pos
  have hlast : a + (n - 1) ∈ numbersOf runs := hS ▸ h.mem (n - 1) (by omega)
  obtain ⟨run, hrun, hle, hlt⟩ := hlast
  refine ⟨run, hrun, ?_⟩
  by_contra hne
  exact h.notMem_after (hS ▸ ⟨run, hrun, by omega, by omega⟩)

theorem length_le_of_numbersOf (hstarts : starts.Pairwise fun p q => p + length < q)
    (hmaximal : ∀ p ∈ starts, MaximalRun S p length) {runs : List (Nat × Nat)}
    (hS : numbersOf runs = S) : starts.length ≤ runs.length := by
  have hnodup : (starts.map (· + length)).Nodup := by
    rw [List.nodup_iff_pairwise_ne, List.pairwise_map]
    exact hstarts.imp fun h => by omega
  have hsub : starts.map (· + length) ⊆ runs.map fun run => run.1 + run.2 := by
    intro e he
    obtain ⟨p, hp, rfl⟩ := List.mem_map.1 he
    obtain ⟨run, hrun, hend⟩ := (hmaximal p hp).exists_end_eq hS
    exact List.mem_map.2 ⟨run, hrun, hend⟩
  simpa using (List.subperm_of_subset hnodup hsub).length_le

theorem ncard_maximalRun (hstarts : starts.Pairwise fun p q => p + length < q)
    (hS : ∀ a n, MaximalRun S a n ↔ a ∈ starts ∧ n = length) :
    {run : Nat × Nat | MaximalRun S run.1 run.2}.ncard = starts.length := by
  have hset : {run : Nat × Nat | MaximalRun S run.1 run.2} =
      ((starts.map fun p => (p, length)).toFinset : Set (Nat × Nat)) := by
    ext ⟨a, n⟩
    simp [hS, eq_comm]
  have hnodup : (starts.map fun p => (p, length)).Nodup := by
    rw [List.nodup_iff_pairwise_ne, List.pairwise_map]
    refine hstarts.imp fun {p q} h heq => ?_
    obtain ⟨rfl, -⟩ := Prod.mk.inj heq
    omega
  rw [hset, Set.ncard_coe_finset, List.toFinset_card_of_nodup hnodup, List.length_map]

end Separated

namespace Region

section Unit

variable {ss : List Slice}

theorem span_add_one_lt_stride (h : ∀ s ∈ ss, s.Fits) (hstep : ∀ s ∈ ss, s.step = 1)
    (hskip : ∃ k ∈ (Partial.along ss).skips, 0 < k) :
    (Partial.along ss).span + 1 < (Partial.along ss).stride := by
  induction ss using List.reverseRecOn with
  | nil => obtain ⟨k, hk, -⟩ := hskip; cases hk
  | append_singleton ss s ih =>
    have hss : ∀ t ∈ ss, t.Fits := fun t ht => h t (by simp [ht])
    have hone : ∀ t ∈ ss, t.step = 1 := fun t ht => hstep t (by simp [ht])
    rw [Partial.along_concat] at hskip ⊢
    refine Partial.span_add_lt_stride_next (h s (by simp)) ?_
    obtain ⟨k, hk, hpos⟩ := hskip
    rcases List.mem_append.1 hk with hold | hlast
    · exact ih hss hone ⟨k, hold, hpos⟩
    · have hk := List.mem_singleton.1 hlast
      rw [hstep s (by simp), Nat.one_mul] at hk
      omega

theorem skips_pairwise (h : ∀ s ∈ ss, s.Fits) (hstep : ∀ s ∈ ss, s.step = 1) :
    (Partial.along ss).skips.Pairwise fun k m => 0 < k → 0 < m := by
  induction ss using List.reverseRecOn with
  | nil => exact .nil
  | append_singleton ss s ih =>
    have hss : ∀ t ∈ ss, t.Fits := fun t ht => h t (by simp [ht])
    have hone : ∀ t ∈ ss, t.step = 1 := fun t ht => hstep t (by simp [ht])
    rw [Partial.along_concat]
    refine List.pairwise_append.2 ⟨ih hss hone, List.pairwise_singleton _ _, ?_⟩
    intro k hk m hm hpos
    have hlt := span_add_one_lt_stride hss hone ⟨k, hk, hpos⟩
    rw [List.mem_singleton.1 hm, hstep s (by simp), Nat.one_mul]
    omega

theorem pos_of_mem_dropWhile {l : List Nat} (h : l.Pairwise fun k m => 0 < k → 0 < m) :
    ∀ k ∈ l.dropWhile (· = 0), 0 < k := by
  induction l with
  | nil => exact fun k hk => nomatch hk
  | cons k l ih =>
    obtain ⟨hk, hl⟩ := List.pairwise_cons.1 h
    rw [List.dropWhile_cons]
    split
    · exact ih hl
    · next hne =>
      have hpos : 0 < k := Nat.pos_of_ne_zero (by simpa using hne)
      exact List.forall_mem_cons.2 ⟨hpos, fun m hm => hk m hm hpos⟩

theorem exists_skip_of_mem_laps {r : Region} {lap : Lap} (h : lap ∈ r.laps 1) :
    ∃ k ∈ r.skips.dropWhile (· = 0), lap.gap = k + r.runLength := by
  have hdrop : r.skips.drop r.runDimensions = r.skips.dropWhile (· = 0) := by
    conv => lhs; rw [← List.takeWhile_append_dropWhile (p := (· = 0)) (l := r.skips)]
    exact List.drop_left
  rw [laps, List.mem_reverse] at h
  obtain ⟨i, hi, rfl⟩ := List.getElem_of_mem h
  rw [List.getElem_zipWith, Nat.mul_one]
  exact ⟨_, hdrop ▸ List.getElem_mem _, rfl⟩

theorem runStarts_pairwise (h : ∀ s ∈ ss, s.Fits) (hstep : ∀ s ∈ ss, s.step = 1) :
    (Partial.along ss).runStarts.Pairwise fun p q => p + (Partial.along ss).runLength < q := by
  apply Walk.pairwise_places
  intro lap hlap
  obtain ⟨k, hk, hgap⟩ := exists_skip_of_mem_laps hlap
  have := pos_of_mem_dropWhile (skips_pairwise h hstep) k hk
  omega

theorem maximalRun_iff (h : ∀ s ∈ ss, s.Fits) (hstep : ∀ s ∈ ss, s.step = 1) {a n : Nat} :
    MaximalRun (selectedOffsets ss) a n ↔
      a ∈ (Partial.along ss).runStarts ∧ n = (Partial.along ss).runLength :=
  maximalRun_iff_of_pairwise (runLength_pos h) (runStarts_pairwise h hstep) fun _ =>
    (mem_visits_iff h).symm.trans (mem_visits_iff_runStarts h)

end Unit

end Region

end Gridded
