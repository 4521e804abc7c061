import Gridded.Input.Buffered
import Gridded.Proofs.Input.Faithful

namespace Gridded

namespace Window

variable {σ : Type} [Source σ] [FaithfulSource σ]

def Over (bytes : Bytes) (w : Window σ) : Prop := FaithfulSource.Over bytes w.source

structure Holds (bytes : Bytes) (start : Nat) (w : Window σ) : Prop where
  index_le : w.index ≤ w.ahead.size
  ahead_eq : w.ahead = bytes.extract start (start + w.ahead.size)
  source_at : FaithfulSource.At bytes (start + w.ahead.size) w.source

def At (bytes : Bytes) (p : Nat) (w : Window σ) : Prop :=
  ∃ start, w.Holds bytes start ∧ start + w.index = p

variable {bytes : Bytes} {p : Nat} {w : Window σ}

theorem At.over (h : w.At bytes p) : w.Over bytes := by
  obtain ⟨start, h, _⟩ := h
  exact FaithfulSource.over_of_at h.source_at

theorem At.source_at (h : w.At bytes p) : FaithfulSource.At bytes (p + w.unread) w.source := by
  obtain ⟨start, h, rfl⟩ := h
  have hi := h.index_le
  have hp : start + w.index + w.unread = start + w.ahead.size := by unfold unread; omega
  rw [hp]
  exact h.source_at

theorem at_of_empty {s : σ} {capacity : Nat} (h : FaithfulSource.At bytes p s) :
    At bytes p { source := s, capacity } := by
  refine ⟨p, ⟨Nat.le_refl 0, ?_, h⟩, Nat.add_zero p⟩
  exact (Array.extract_empty_of_stop_le_start (Nat.le_refl p)).symm

theorem take_ensures (h : w.At bytes p) (n : Nat) :
    Ensures (take n) w
      (fun got v => got = bytes.extract p (p + got.size) ∧ got.size = min n w.unread ∧
        v.At bytes (p + got.size))
      fun _ _ => False := by
  obtain ⟨start, h, rfl⟩ := h
  have hi := h.index_le
  simp only [take, Ensures.bind_iff, Ensures.get_iff, Ensures.set_iff, Ensures.pure_iff]
  have hsize : (w.ahead.extract w.index (w.index + n)).size = min n w.unread := by
    rw [Array.size_extract, unread]
    omega
  refine ⟨?_, hsize, start, ⟨?_, h.ahead_eq, h.source_at⟩, ?_⟩
  · rw [hsize, unread]
    conv => lhs; rw [h.ahead_eq, Array.extract_extract]
    congr 1
    omega
  · simp only [hsize, unread]
    omega
  · exact (Nat.add_assoc ..).symm

theorem fill_ensures (h : w.At bytes p) :
    Ensures fill w
      (fun _ v => v.At bytes p ∧
        (v.unread = 0 → w.unread = 0 ∧ (w.capacity = 0 ∨ bytes.size ≤ p)))
      fun e v => (v.Over bytes ∧ FaithfulSource.Fails σ e) ∧
        (e = .interrupted → v.At bytes p) := by
  simp only [fill, drop, onSource, Ensures.bind_iff, Ensures.get_iff]
  split
  · next hempty =>
    have hs := h.source_at
    rw [hempty] at hs
    simp only [Ensures.bind_iff, Ensures.within_iff, Ensures.modify_iff]
    apply ((FaithfulSource.read hs).and (FaithfulSource.interrupted hs)).mono
    · rintro got t ⟨⟨hgot, ht⟩, -⟩
      refine ⟨⟨p, ⟨Nat.zero_le _, hgot.eq_extract, ht⟩, rfl⟩, ?_⟩
      exact fun h0 => ⟨hempty, hgot.at_end h0⟩
    · exact fun _ _ he => ⟨he.1, fun h => at_of_empty (he.2 h)⟩
  · next hunread => exact ⟨h, fun h0 => absurd h0 hunread⟩

theorem readSome_ensures (h : w.At bytes p) (n : Nat) :
    Ensures (readSome n) w (fun got v => SomeOf bytes p n got ∧ v.At bytes (p + got.size))
      fun e v => (v.Over bytes ∧ FaithfulSource.Fails σ e) ∧
        (e = .interrupted → v.At bytes p) := by
  simp only [readSome, Ensures.bind_iff, Ensures.get_iff]
  split
  · next hempty =>
    have hs := h.source_at
    rw [hempty.1] at hs
    simp only [drop, onSource, Ensures.bind_iff, Ensures.within_iff, Ensures.modify_iff]
    apply ((FaithfulSource.read hs).and (FaithfulSource.interrupted hs)).mono
    · rintro got t ⟨⟨hgot, ht⟩, -⟩
      exact ⟨hgot, at_of_empty ht⟩
    · exact fun _ _ he => ⟨he.1, fun h => at_of_empty (he.2 h)⟩
  · next hpass =>
    simp only [Ensures.bind_iff]
    apply (fill_ensures h).mono
    · rintro _ v ⟨hv, hend⟩
      apply (take_ensures hv n).mono
      · rintro got u ⟨hgot, hsize, hu⟩
        refine ⟨⟨hgot, hsize ▸ Nat.min_le_left .., fun h0 => ?_⟩, hu⟩
        -- Nothing came: nothing was asked for, or an empty window stayed empty.
        by_cases hn : n = 0
        · exact .inl hn
        · obtain ⟨hempty, hcapacity⟩ := hend (by omega)
          exact .inr (hcapacity.resolve_left fun h0 => hpass ⟨hempty, h0 ▸ Nat.zero_le n⟩)
      · exact fun _ _ he => he.elim
    · exact fun _ _ he => he

theorem readOn_ensures (h : w.At bytes p) (n : Nat) (got : Bytes) :
    Ensures (ExceptT.mk (readOn n got)) w
      (fun x v => x = got ++ bytes.extract p (p + n) ∧ x.size = got.size + n ∧ v.At bytes (p + n))
      fun e v => v.Over bytes ∧
        (FaithfulSource.Fails σ e ∨ e.kind = .unexpectedEnd ∧ bytes.size < p + n) := by
  simp only [Ensures, ExceptT.run_mk, StateT.run]
  fun_induction readOn n got w generalizing p with
  | case1 got w =>
    rw [Nat.add_zero, Array.extract_empty_of_stop_le_start (Nat.le_refl p), Array.append_empty]
    exact ⟨rfl, rfl, h⟩
  | case2 n got w hn more v hrun h0 =>
    obtain ⟨hmore, hv⟩ := (readSome_ensures h n).of_run_eq_ok hrun
    exact ⟨hv.over, .inr ⟨rfl, by have := hmore.at_end h0; omega⟩⟩
  | case3 n got w hn more v hrun h0 ih =>
    obtain ⟨hmore, hv⟩ := (readSome_ensures h n).of_run_eq_ok hrun
    have hp : p + more.size + (n - more.size) = p + n := by have := hmore.size_le; omega
    have hrest := ih hv
    rw [hp] at hrest
    revert hrest
    rcases readOn (n - more.size) (got ++ more) v with ⟨e | x, u⟩
    · exact id
    · rintro ⟨hx, hsize, hu⟩
      refine ⟨?_, ?_, hu⟩
      · rw [hx, Array.append_assoc]
        congr 1
        calc
          more ++ bytes.extract (p + more.size) (p + n)
            = bytes.extract p (p + more.size) ++ bytes.extract (p + more.size) (p + n) := by
              rw [← hmore.eq_extract]
          _ = bytes.extract p (p + n) := by rw [← hp, extract_append_extract_add]
      · rw [hsize, Array.size_append]
        have := hmore.size_le
        omega
  | case4 n got w hn v hrun ih =>
    -- What an interruption leaves behind is still at the same place, where the read is made again.
    exact ih (((readSome_ensures h n).of_run_eq_error hrun).2 rfl)
  | case5 n got w hn e v _ hrun =>
    obtain ⟨hover, hfails⟩ := ((readSome_ensures h n).of_run_eq_error hrun).1
    exact ⟨hover, .inl hfails⟩

theorem read_ensures (h : w.At bytes p) (n : Nat) :
    Ensures (read n) w
      (fun got v => got = bytes.extract p (p + n) ∧ got.size = n ∧ v.At bytes (p + n))
      fun e v => v.Over bytes ∧
        (FaithfulSource.Fails σ e ∨ e.kind = .unexpectedEnd ∧ bytes.size < p + n) := by
  simp only [read, Ensures.bind_iff, Ensures.get_iff]
  split
  · next hn =>
    apply (take_ensures h n).mono
    · rintro got v ⟨hgot, hsize, hv⟩
      rw [Nat.min_eq_left hn] at hsize
      rw [hsize] at hgot hv
      exact ⟨hgot, hsize, hv⟩
    · exact fun _ _ he => he.elim
  · simpa using readOn_ensures h n #[]

theorem seek_ensures (h : w.Over bytes) (hp : p < wordLimit) :
    Ensures (seek p) w (fun _ => At bytes p)
      fun e v => v.Over bytes ∧ FaithfulSource.Fails σ e := by
  simp only [seek, drop, onSource, Ensures.bind_iff, Ensures.within_iff, Ensures.modify_iff]
  exact (FaithfulSource.seek h hp).mono (fun _ _ ht => at_of_empty ht) fun _ _ he => he

theorem move_ensures (h : w.At bytes p) {q : Nat} {offset : Int} (hq : p + offset = q)
    (hlimit : q < wordLimit) :
    Ensures (move offset) w (fun _ => At bytes q)
      fun e v => v.Over bytes ∧ FaithfulSource.Fails σ e := by
  simp only [move, Ensures.bind_iff, Ensures.get_iff]
  split
  · next hin =>
    obtain ⟨start, h, rfl⟩ := h
    refine ⟨start, ⟨?_, h.ahead_eq, h.source_at⟩, ?_⟩
    · simp only
      omega
    · simp only
      omega
  · simp only [drop, onSource, Ensures.bind_iff, Ensures.within_iff, Ensures.modify_iff]
    apply (FaithfulSource.move h.source_at (by omega) hlimit).mono
    · exact fun _ _ ht => at_of_empty ht
    · exact fun _ _ he => he

end Window

namespace Buffered

variable {σ : Type} [Source σ]

theorem distance?_eq_some {start : Option Nat} {p : Nat} {offset : Int}
    (h : distance? start p = some offset) : ∃ q, start = some q ∧ q + offset = p := by
  unfold distance? at h
  split at h
  · next q =>
    split at h
    · exact ⟨q, rfl, by have := Option.some.inj h; omega⟩
    · cases h
  · cases h

variable [FaithfulSource σ]

structure Over (c : Contents) (b : Buffered σ) : Prop where
  name_eq : b.name = c.name
  order_eq : b.order = c.order
  window : b.window.Over c.bytes
  position {p : Nat} : b.position = some p → b.window.At c.bytes p

theorem Over.at_window {c : Contents} {b : Buffered σ} {w : Window σ} {p : Nat} (h : b.Over c)
    (hw : w.At c.bytes p) : Over c { b with window := w, position := some p } where
  name_eq := h.name_eq
  order_eq := h.order_eq
  window := hw.over
  position hp := Option.some.inj hp ▸ hw

theorem Over.lost {c : Contents} {b : Buffered σ} {w : Window σ} (h : b.Over c)
    (hw : w.Over c.bytes) : Over c { b with window := w, position := none } where
  name_eq := h.name_eq
  order_eq := h.order_eq
  window := hw
  position hp := nomatch hp

instance : FaithfulInput (Buffered σ) where
  Over := Over
  At c p b := b.Over c ∧ b.position = some p
  Fails := FaithfulSource.Fails σ
  over_of_at h := h.1
  name_eq h := h.name_eq
  order_eq h := h.order_eq
  seek {c b p} h hp := by
    change Ensures (seek p) _ _ _
    simp only [seek, onWindow, Ensures.bind_iff, Ensures.get_iff, Ensures.modify_iff]
    split
    · next h0 =>
      -- No distance to go: the window is left alone, and it is already at the position.
      obtain ⟨q, hq, hqp⟩ := distance?_eq_some h0
      obtain rfl : q = p := by omega
      exact ⟨h.at_window (h.position hq), rfl⟩
    · next offset _ hoffset =>
      obtain ⟨q, hq, hqp⟩ := distance?_eq_some hoffset
      rw [Ensures.bind_iff, Ensures.within_iff]
      apply (Window.move_ensures (h.position hq) hqp hp).mono
      · exact fun _ _ hw => ⟨h.at_window hw, rfl⟩
      · exact fun _ _ he => ⟨h.lost he.1, he.2⟩
    · rw [Ensures.bind_iff, Ensures.within_iff]
      apply (Window.seek_ensures h.window hp).mono
      · exact fun _ _ hw => ⟨h.at_window hw, rfl⟩
      · exact fun _ _ he => ⟨h.lost he.1, he.2⟩
  read {c b p n} h := by
    change Ensures (read n) _ _ _
    simp only [read, onWindow, Ensures.bind_iff, Ensures.get_iff, Ensures.modify_iff,
      Ensures.within_iff, Ensures.pure_iff]
    apply (Window.read_ensures (h.1.position h.2) n).mono
    · rintro got w ⟨hgot, hsize, hw⟩
      rw [h.2]
      exact ⟨hgot, hsize, h.1.at_window hw, rfl⟩
    · exact fun _ _ he => ⟨h.1.lost he.1, he.2⟩

theorem over_of_ofSource {name : String} {order : ByteOrder} {capacity : Nat} {bytes : Bytes}
    {source : σ} {b : Buffered σ} (hs : FaithfulSource.Over bytes source)
    (h : ofSource name order capacity source = .ok b) :
    FaithfulInput.Over ⟨name, order, bytes⟩ b := by
  have hseek := FaithfulSource.seek hs (show 0 < wordLimit by decide)
  unfold Ensures at hseek
  unfold ofSource at h
  split at h
  · next s hs' =>
    rw [hs'] at hseek
    obtain rfl := Except.ok.inj h
    have hw : Window.At bytes 0 { source := s, capacity } := Window.at_of_empty hseek
    exact ⟨rfl, rfl, hw.over, fun hp => Option.some.inj hp ▸ hw⟩
  · cases h

end Buffered

end Gridded
