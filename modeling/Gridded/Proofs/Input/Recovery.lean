import Gridded.Proofs.Input.Window
import Mathlib

namespace Gridded

inductive Call
  | seek (p : Fin wordLimit)
  | read (n : Nat)

namespace Call

variable {ι : Type} [Input ι]

def perform : Call → Action ι Bytes
  | .seek p => do
    Input.seek p.val
    return #[]
  | .read n => Input.read n

def transcript : List Call → ι → List (Call × Except SourceError Bytes)
  | [], _ => []
  | call :: calls, i =>
      (call, (call.perform.run.run i).1) :: transcript calls (call.perform.run.run i).2

variable {i : ι} {calls : List Call}

theorem exists_of_transcript_eq_append {I : ι → Prop}
    (step : ∀ (call : Call) i, I i → Ensures call.perform i (fun _ => I) fun _ => I) (h : I i)
    {before rest : List (Call × Except SourceError Bytes)}
    (ht : transcript calls i = before ++ rest) :
    ∃ calls' j, I j ∧ transcript calls' j = rest := by
  induction before generalizing calls i with
  | nil => exact ⟨calls, i, h, ht⟩
  | cons entry before ih =>
    cases calls with
    | nil => cases ht
    | cons call calls => exact ih (Ensures.state (step call i h)) (List.cons.inj ht).2

variable [FaithfulInput ι] {c : Contents}

theorem perform_seek (h : FaithfulInput.Over c i) (p : Fin wordLimit) :
    Ensures (perform (.seek p)) i (fun _ => FaithfulInput.At c p)
      fun _ => FaithfulInput.Over c := by
  simp only [perform, Ensures.bind_iff, Ensures.pure_iff]
  exact (FaithfulInput.seek h p.isLt).mono (fun _ _ hat => hat) fun _ _ he => he.1

theorem flatMap_of_transcript {p : Nat} (h : FaithfulInput.At c p i) {reads : List (Nat × Bytes)}
    {after : List (Call × Except SourceError Bytes)}
    (ht : transcript calls i = reads.map (fun r => (.read r.1, .ok r.2)) ++ after) :
    (reads.flatMap fun r => r.2.toList) =
        (c.bytes.extract p (p + (reads.map Prod.fst).sum)).toList ∧
      ∀ r ∈ reads, r.2.size = r.1 := by
  induction reads generalizing calls i p with
  | nil => simp
  | cons r reads ih =>
    obtain ⟨n, got⟩ := r
    cases calls with
    | nil => cases ht
    | cons call calls =>
      rw [List.map_cons, List.cons_append, transcript, List.cons.injEq, Prod.mk.injEq] at ht
      obtain ⟨⟨rfl, hr⟩, ht⟩ := ht
      obtain ⟨hgot, hsize, hnext⟩ :=
        Ensures.of_run_eq_ok (a := perform (.read n)) (FaithfulInput.read h) (Prod.ext hr rfl)
      obtain ⟨hrest, hsizes⟩ := ih hnext ht
      refine ⟨?_, List.forall_mem_cons.2 ⟨hsize, hsizes⟩⟩
      rw [List.flatMap_cons, List.map_cons, List.sum_cons, hrest, hgot, ← Array.toList_append,
        extract_append_extract_add, Nat.add_assoc]

end Call

inductive Fate
  /-- It passes. A read delivers one byte, unless at the end, and at most `more` after that. -/
  | pass (more : Nat)
  | fail (error : SourceError) (position : Option Nat)

/-- What a buffer counts on: a read that is interrupted has read nothing. -/
def Fate.Repeatable (fate : Fate) : Prop :=
  ∀ position, fate = .fail .interrupted position → position = none

structure Faulty where
  cursor : Cursor
  seeks : List Fate
  reads : List Fate

namespace Faulty

variable {α : Type} {bytes : Bytes}

def attempt (fate : Fate) (pass : Nat → Action Cursor α) : Action Faulty α :=
  match fate with
  | .pass more => (pass more).within Faulty.cursor fun c f => { f with cursor := c }
  | .fail e position => do
    modify fun f => { f with cursor := { f.cursor with
      position := position.getD f.cursor.position } }
    throw e

def attemptSeek (a : Action Cursor Unit) : Action Faulty Unit := do
  let f ← get
  set { f with seeks := f.seeks.tail }
  attempt (f.seeks.headD (.pass 0)) fun _ => a

def read (n : Nat) : Action Faulty Bytes := do
  let f ← get
  set { f with reads := f.reads.tail }
  attempt (f.reads.headD (.pass n)) fun more => Cursor.read (min n (more + 1))

theorem attempt_ensures {fate : Fate} {pass : Nat → Action Cursor α} {f : Faulty}
    {Q : α → Faulty → Prop} {E : SourceError → Faulty → Prop}
    (hpass : ∀ more, fate = .pass more → Ensures (pass more) f.cursor
      (fun x c => Q x { f with cursor := c }) fun e c => E e { f with cursor := c })
    (hfail : ∀ e position, fate = .fail e position → E e { f with cursor := { f.cursor with
      position := position.getD f.cursor.position } }) :
    Ensures (attempt fate pass) f Q E := by
  unfold attempt
  split
  · next more => simpa only [Ensures.within_iff] using hpass more rfl
  · next e position => exact hfail e position rfl

theorem fail_mem_of_headD {fates : List Fate} {n : Nat} {e : SourceError} {position : Option Nat}
    (h : fates.headD (.pass n) = .fail e position) : .fail e position ∈ fates := by
  cases fates with
  | nil => cases h
  | cons fate fates => exact h ▸ List.mem_cons_self

instance : Source Faulty where
  seek p := attemptSeek (Cursor.seek p)
  move offset := attemptSeek (Cursor.move offset)
  read := read
  interruptions f := f.reads.length
  read_interrupted n f := by
    simp only [read, Ensures.bind_iff, Ensures.get_iff, Ensures.set_iff]
    apply attempt_ensures
    · exact fun _ _ => trivial
    · intro e position hfate _
      have := List.length_pos_of_mem (fail_mem_of_headD hfate)
      simp only [List.length_tail]
      omega

structure Over (bytes : Bytes) (f : Faulty) : Prop where
  cursor : FaithfulSource.Over bytes f.cursor
  repeatable : ∀ fate ∈ f.reads, fate.Repeatable

theorem attemptSeek_ensures {a : Action Cursor Unit} {f : Faulty} {p : Nat} (h : f.Over bytes)
    (ha : Ensures a f.cursor (fun _ => FaithfulSource.At bytes p) fun e c =>
      FaithfulSource.Over bytes c ∧ FaithfulSource.Fails Cursor e) :
    Ensures (attemptSeek a) f (fun _ g => g.Over bytes ∧ FaithfulSource.At bytes p g.cursor)
      fun _ g => g.Over bytes ∧ True := by
  obtain ⟨⟨q, hq⟩, hreads⟩ := h
  simp only [attemptSeek, Ensures.bind_iff, Ensures.get_iff, Ensures.set_iff]
  apply attempt_ensures
  · intro _ _
    apply ha.mono
    · exact fun _ c hc => ⟨⟨FaithfulSource.over_of_at hc, hreads⟩, hc⟩
    · exact fun _ c hc => ⟨⟨hc.1, hreads⟩, trivial⟩
  · intro e position _
    refine ⟨⟨⟨position.getD q, ?_⟩, hreads⟩, trivial⟩
    simp only [hq]

theorem read_ensures {f : Faulty} {p : Nat} (h : f.Over bytes)
    (hat : FaithfulSource.At bytes p f.cursor) (n : Nat) :
    Ensures (read n) f
      (fun got g => SomeOf bytes p n got ∧ g.Over bytes ∧
        FaithfulSource.At bytes (p + got.size) g.cursor)
      fun e g => g.Over bytes ∧ (e = .interrupted → FaithfulSource.At bytes p g.cursor) := by
  have hreads : ∀ fate ∈ f.reads.tail, fate.Repeatable :=
    fun fate hfate => h.repeatable fate (List.mem_of_mem_tail hfate)
  simp only [read, Ensures.bind_iff, Ensures.get_iff, Ensures.set_iff]
  apply attempt_ensures
  · intro more _
    apply (FaithfulSource.read hat).mono
    · rintro got c ⟨hgot, hc⟩
      have hle := hgot.size_le
      refine ⟨⟨hgot.eq_extract, by omega, fun h0 => ?_⟩, ⟨FaithfulSource.over_of_at hc, hreads⟩, hc⟩
      have := hgot.at_end h0
      omega
    · exact fun _ _ he => he.2.elim
  · intro e position hfate
    obtain ⟨q, hq⟩ := h.cursor
    refine ⟨⟨⟨position.getD q, ?_⟩, hreads⟩, ?_⟩
    · simp only [hq]
    · rintro rfl
      obtain rfl := h.repeatable _ (fail_mem_of_headD hfate) position rfl
      exact hat

instance : FaithfulSource Faulty where
  Over := Over
  At bytes p f := f.Over bytes ∧ FaithfulSource.At bytes p f.cursor
  Fails _ := True
  over_of_at h := h.1
  seek h hp := attemptSeek_ensures h (FaithfulSource.seek h.cursor hp)
  move h hq hlimit := attemptSeek_ensures h.1 (FaithfulSource.move h.2 hq hlimit)
  read h := (read_ensures h.1 h.2 _).mono (fun _ _ hg => hg) fun _ _ he => ⟨he.1, trivial⟩
  interrupted h :=
    (read_ensures h.1 h.2 _).mono (fun _ _ _ => trivial) fun _ _ he hi => ⟨he.1, he.2 hi⟩

theorem read_over {f : Faulty} (n : Nat) (h : FaithfulSource.Over bytes f) :
    Ensures (Source.read n) f (fun _ => FaithfulSource.Over bytes)
      fun _ => FaithfulSource.Over bytes := by
  obtain ⟨q, hq⟩ := h.cursor
  exact (read_ensures h hq n).mono (fun _ _ hg => hg.2.1) fun _ _ he => he.1

end Faulty

namespace Window

variable {σ : Type} [Source σ] [FaithfulSource σ] {bytes : Bytes} {w : Window σ}

section Lost

variable (hread : ∀ {s : σ} (n : Nat), FaithfulSource.Over bytes s →
  Ensures (Source.read n) s (fun _ => FaithfulSource.Over bytes) fun _ => FaithfulSource.Over bytes)

include hread

theorem fill_over (h : w.Over bytes) :
    Ensures fill w (fun _ => Over bytes) fun _ => Over bytes := by
  simp only [fill, drop, onSource, Ensures.bind_iff, Ensures.get_iff]
  split
  · simp only [Ensures.bind_iff, Ensures.modify_iff, Ensures.within_iff]
    exact hread _ h
  · exact h

theorem readSome_over (h : w.Over bytes) (n : Nat) :
    Ensures (readSome n) w (fun _ => Over bytes) fun _ => Over bytes := by
  simp only [readSome, drop, onSource, Ensures.bind_iff, Ensures.get_iff]
  split
  · simp only [Ensures.bind_iff, Ensures.modify_iff, Ensures.within_iff]
    exact hread n h
  · simp only [Ensures.bind_iff]
    exact (fill_over hread h).mono (fun _ _ hv => hv) fun _ _ he => he

theorem readOn_over (h : w.Over bytes) (n : Nat) (got : Bytes) :
    Ensures (ExceptT.mk (readOn n got)) w (fun _ => Over bytes) fun _ => Over bytes := by
  simp only [Ensures, ExceptT.run_mk, StateT.run]
  fun_induction readOn n got w with
  | case1 got w => exact h
  | case2 n got w hn more v hrun h0 => exact (readSome_over hread h n).of_run_eq_ok hrun
  | case3 n got w hn more v hrun h0 ih =>
    exact ih ((readSome_over hread h n).of_run_eq_ok hrun)
  | case4 n got w hn v hrun ih => exact ih ((readSome_over hread h n).of_run_eq_error hrun)
  | case5 n got w hn e v _ hrun => exact (readSome_over hread h n).of_run_eq_error hrun

theorem read_over (h : w.Over bytes) (n : Nat) :
    Ensures (read n) w (fun _ => Over bytes) fun _ => Over bytes := by
  simp only [read, Ensures.bind_iff, Ensures.get_iff]
  split
  · exact h
  · exact readOn_over hread h n #[]

end Lost

end Window

namespace Buffered

variable {c : Contents}

theorem perform_over {b : Buffered Faulty} (h : FaithfulInput.Over c b) (call : Call) :
    Ensures call.perform b (fun _ => FaithfulInput.Over c) fun _ => FaithfulInput.Over c := by
  cases call with
  | seek p =>
    apply (Call.perform_seek h p).mono
    · exact fun _ _ hb => FaithfulInput.over_of_at hb
    · exact fun _ _ he => he
  | read n =>
    change Ensures (read n) b _ _
    simp only [read, onWindow, Ensures.bind_iff, Ensures.get_iff, Ensures.modify_iff,
      Ensures.within_iff, Ensures.pure_iff]
    rcases hp : b.position with _ | p
    · -- The window may hold anything, but it is not taken to have any position.
      apply (Window.read_over Faulty.read_over h.window n).mono
      · exact fun _ _ hw => h.lost hw
      · exact fun _ _ hw => h.lost hw
    · apply (Window.read_ensures (h.position hp) n).mono
      · exact fun _ _ hw => h.at_window hw.2.2
      · exact fun _ _ he => h.lost he.1

/--
Whatever became of the calls before and of the source meanwhile: after a seek that succeeds, the
reads that follow it deliver the bytes from there on, as long as they succeed. Reads of the source
may be cut short, interrupted, or fail with any part of the bytes consumed; only those that count as
interrupted, which are made again, must not have consumed any.
-/
theorem reads_eq_extract (bytes : Bytes) (start : Nat) (seekFates readFates : List Fate)
    (hreads : ∀ fate ∈ readFates, fate.Repeatable) (name : String) (order : ByteOrder)
    (capacity : Nat) {b : Buffered Faulty}
    (hb : ofSource name order capacity ⟨⟨bytes, start⟩, seekFates, readFates⟩ = .ok b)
    (calls : List Call) {before after : List (Call × Except SourceError Bytes)} {p : Fin wordLimit}
    {sought : Bytes} {reads : List (Nat × Bytes)}
    (h : Call.transcript calls b = before ++
      (.seek p, .ok sought) :: reads.map (fun r => (.read r.1, .ok r.2)) ++ after) :
    (reads.flatMap fun r => r.2.toList) =
        (bytes.extract p (p + (reads.map Prod.fst).sum)).toList ∧
      ∀ r ∈ reads, r.2.size = r.1 := by
  have hover : FaithfulInput.Over ⟨name, order, bytes⟩ b :=
    over_of_ofSource ⟨⟨start, rfl⟩, hreads⟩ hb
  rw [List.append_assoc] at h
  obtain ⟨calls', b', hb', ht⟩ :=
    Call.exists_of_transcript_eq_append (fun call _ hi => perform_over hi call) hover h
  cases calls' with
  | nil => cases ht
  | cons call calls' =>
    rw [List.cons_append, Call.transcript, List.cons.injEq, Prod.mk.injEq] at ht
    obtain ⟨⟨rfl, hsought⟩, ht⟩ := ht
    have hat := (Call.perform_seek hb' p).of_run_eq_ok (Prod.ext hsought rfl)
    exact Call.flatMap_of_transcript hat ht

theorem reads_eq_extract_moved :
    let bytes : Bytes := #[10, 11, 12, 13, 14, 15, 16, 17]
    let interrupted : Fate := .fail .interrupted none
    let readFates : List Fate :=
      [.fail (.other "lost") (some 7), .pass 1, .pass 0, .pass 1, interrupted, interrupted, .pass 1]
    let p : Fin wordLimit := ⟨1, by decide⟩
    let before : List (Call × Except SourceError Bytes) :=
      [(.read 3, .error (.other "lost")), (.read 2, .error .endOfData)]
    let reads : List (Nat × Bytes) := [(3, #[11, 12, 13]), (2, #[14, 15])]
    let after : List (Call × Except SourceError Bytes) := [(.read 9, .error .endOfData)]
    (∀ fate ∈ readFates, fate.Repeatable) ∧
    ∃ b : Buffered Faulty,
      ofSource "b" .big 4 ⟨⟨bytes, 5⟩, [], readFates⟩ = .ok b ∧
        Call.transcript [.read 3, .read 2, .seek p, .read 3, .read 2, .read 9] b =
          before ++ (.seek p, .ok #[]) :: reads.map (fun r => (.read r.1, .ok r.2)) ++ after ∧
        [11, 12, 13] ++ [14, 15] = (bytes.extract 1 6).toList := by
  intro bytes interrupted readFates p before reads after
  have hreads : ∀ fate ∈ readFates, fate.Repeatable := by
    simp [readFates, interrupted, Fate.Repeatable]
  obtain ⟨b, hb⟩ : ∃ b : Buffered Faulty,
      ofSource "b" .big 4 ⟨⟨bytes, 5⟩, [], readFates⟩ = .ok b := ⟨_, rfl⟩
  have ht : Call.transcript [.read 3, .read 2, .seek p, .read 3, .read 2, .read 9] b =
      before ++ (.seek p, .ok #[]) :: reads.map (fun r => (.read r.1, .ok r.2)) ++ after := by
    obtain rfl := Except.ok.inj hb
    cbv
  exact ⟨hreads, b, hb, ht, (reads_eq_extract bytes 5 [] readFates hreads "b" .big 4 hb _ ht).1⟩

/-- A read that has consumed a byte and counts as interrupted leaves a gap. -/
theorem transcript_consumed :
    let readFates : List Fate := [.pass 0, .fail .interrupted (some 2)]
    let p : Fin wordLimit := ⟨0, by decide⟩
    ∃ b : Buffered Faulty,
      ofSource "b" .big 0 ⟨⟨#[10, 11, 12], 0⟩, [], readFates⟩ = .ok b ∧
        Call.transcript [.seek p, .read 2] b = [(.seek p, .ok #[]), (.read 2, .ok #[10, 12])] := by
  intro readFates p
  refine ⟨_, rfl, ?_⟩
  cbv

end Buffered

end Gridded
