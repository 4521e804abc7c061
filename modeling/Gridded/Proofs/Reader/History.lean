import Gridded.Proofs.Input.Window
import Gridded.Proofs.Reader.Runs

namespace Gridded

namespace Reader

structure Request where
  kind : ElementKind
  region : Region

abbrev Outcome := Except StoreError.Kind Elements

section Answers

variable {ι : Type} [Input ι]

def answer (r : Reader) (q : Request) (i : ι) : Outcome × ι :=
  match ((r.readAs q.kind q.region).run.run i).result with
  | (.ok values, j) => (.ok ⟨q.kind, values⟩, j)
  | (.error e, j) => (.error e.kind, j)

def answers (r : Reader) : List Request → ι → List Outcome
  | [], _ => []
  | q :: qs, i => (r.answer q i).1 :: r.answers qs (r.answer q i).2

end Answers

def outcomeOf (r : Reader) (c : Contents) (q : Request) : Outcome := do
  return ⟨q.kind, ← r.valuesOf c q.kind q.region⟩

section Reliable

variable {ι : Type} [Input ι] [FaithfulInput ι] {c : Contents} {i : ι} {r : Reader}

theorem answer_eq (hf : ∀ e, ¬FaithfulInput.Fails ι e) (hi : FaithfulInput.Over c i)
    {q : Request} (hq : q.region.Selected) :
    (r.answer q i).1 = r.outcomeOf c q ∧ FaithfulInput.Over c (r.answer q i).2 := by
  have h := (readAs_follows hi hq.runLength_pos r q.kind).of_quiet
  unfold answer outcomeOf
  revert h
  rcases ((r.readAs q.kind q.region).run.run i).result with ⟨e | values, j⟩
  · rintro ⟨hj, he | ⟨s, -, hs⟩⟩
    · rw [he]
      exact ⟨rfl, hj⟩
    · exact absurd hs (hf s)
  · rintro ⟨hj, hvalues⟩
    rw [hvalues]
    exact ⟨rfl, hj⟩

theorem answers_eq_map (hf : ∀ e, ¬FaithfulInput.Fails ι e) (hi : FaithfulInput.Over c i)
    {requests : List Request} (h : ∀ q ∈ requests, q.region.Selected) :
    r.answers requests i = requests.map (r.outcomeOf c) := by
  induction requests generalizing i with
  | nil => rfl
  | cons q qs ih =>
    obtain ⟨hq, hqs⟩ := List.forall_mem_cons.1 h
    obtain ⟨heq, hover⟩ := answer_eq (r := r) hf hi hq
    simp only [answers, List.map_cons]
    rw [heq, ih hover hqs]

end Reliable

/--
A sequence of reads has the same outcomes over a buffered input of any capacity as over memory, and
each of them is that of the same read over an input that nothing was read from.
-/
theorem answers_independent (r : Reader) (m : Memory) (name : String) (capacity start : Nat)
    {requests : List Request} (h : ∀ q ∈ requests, q.region.Selected) :
    ∃ b : Buffered Cursor,
      Buffered.ofSource name m.order capacity { bytes := m.bytes, position := start } = .ok b ∧
        r.answers requests b = r.answers requests m ∧
        r.answers requests m = requests.map (fun q => (r.answer q { m with position := 0 }).1) ∧
        r.answers requests b = requests.map fun q => (r.answer q b).1 := by
  have hm (p : Nat) : FaithfulInput.Over ⟨m.name, m.order, m.bytes⟩ { m with position := p } :=
    ⟨p, rfl⟩
  have hmf : ∀ e, ¬FaithfulInput.Fails Memory e := fun _ he => he
  have hbf : ∀ e, ¬FaithfulInput.Fails (Buffered Cursor) e := fun _ he => he
  obtain ⟨b, hb⟩ : ∃ b : Buffered Cursor,
      Buffered.ofSource name m.order capacity { bytes := m.bytes, position := start } = .ok b :=
    ⟨_, rfl⟩
  have hover : FaithfulInput.Over ⟨name, m.order, m.bytes⟩ b :=
    Buffered.over_of_ofSource ⟨start, rfl⟩ hb
  refine ⟨b, hb, ?_, ?_, ?_⟩
  · rw [answers_eq_map hbf hover h]
    exact (answers_eq_map hmf (hm m.position) h).symm
  · rw [answers_eq_map hmf (hm m.position) h]
    exact List.map_congr_left fun q hq => (answer_eq hmf (hm 0) (h q hq)).1.symm
  · rw [answers_eq_map hbf hover h]
    exact List.map_congr_left fun q hq => (answer_eq hbf hover (h q hq)).1.symm

theorem answers_independent_jumps :
    let r : Reader := ⟨.byte, 0⟩
    let m : Memory := { name := "m", order := .big, bytes := #[1, 2, 3, 4, 5, 6] }
    let requests : List Request :=
      [⟨.byte, ⟨[3], [0], 2, 3⟩⟩, ⟨.byte, ⟨[9], [0], 0, 9⟩⟩, ⟨.short, ⟨[3], [0], 2, 3⟩⟩,
        ⟨.byte, ⟨[2], [0], 0, 2⟩⟩]
    (∀ q ∈ requests, q.region.Selected) ∧
      ∃ b : Buffered Cursor,
        Buffered.ofSource "b" .big 4 { bytes := m.bytes, position := 5 } = .ok b ∧
          r.answers requests b =
            [.ok ⟨.byte, #[3, 4, 5]⟩, .error (.source .unexpectedEnd), .error .content,
              .ok ⟨.byte, #[1, 2]⟩] := by
  intro r m requests
  have h : ∀ q ∈ requests, q.region.Selected := by
    simp only [requests, List.forall_mem_cons]
    exact ⟨⟨[9], [2], [5], [1], rfl⟩, ⟨[9], [0], [9], [1], rfl⟩, ⟨[9], [2], [5], [1], rfl⟩,
      ⟨[9], [0], [2], [1], rfl⟩, by simp⟩
  obtain ⟨b, hb, hagree, -⟩ := answers_independent r m "b" 4 5 h
  refine ⟨h, b, hb, hagree.trans ?_⟩
  cbv

end Reader

end Gridded
