import Gridded.Input.Basic
import Gridded.Input.Metered
import Gridded.Input.Window
import Gridded.Effect

/-!
Faithful inputs and sources: ones that deliver what some bytes hold. A failure may leave them
anywhere, but after a seek that succeeds it is known again where they stand. `Fails` tells which
failures there may be besides the end of the bytes.
-/

namespace Gridded

structure SomeOf (bytes : Bytes) (p n : Nat) (got : Bytes) : Prop where
  eq_extract : got = bytes.extract p (p + got.size)
  size_le : got.size ≤ n
  at_end : got.size = 0 → n = 0 ∨ bytes.size ≤ p

class FaithfulSource (σ : Type) [Source σ] where
  Over : Bytes → σ → Prop
  At : Bytes → Nat → σ → Prop
  Fails : SourceError → Prop
  over_of_at {bytes p s} : At bytes p s → Over bytes s
  seek {bytes s p} : Over bytes s → p < wordLimit →
    Ensures (Source.seek p) s (fun _ => At bytes p) fun e t => Over bytes t ∧ Fails e
  move {bytes s} {p q : Nat} {offset : Int} : At bytes p s → p + offset = q → q < wordLimit →
    Ensures (Source.move offset) s (fun _ => At bytes q) fun e t => Over bytes t ∧ Fails e
  read {bytes s p} {n : Nat} : At bytes p s →
    Ensures (Source.read n) s (fun got t => SomeOf bytes p n got ∧ At bytes (p + got.size) t)
      fun e t => Over bytes t ∧ Fails e
  /-- A read that is interrupted has read nothing, so that it can be made again. -/
  interrupted {bytes s p} {n : Nat} : At bytes p s →
    Ensures (Source.read n) s (fun _ _ => True) fun e t => e = .interrupted → At bytes p t

structure Contents where
  name : String
  order : ByteOrder
  bytes : Bytes

class FaithfulInput (ι : Type) [Input ι] where
  Over : Contents → ι → Prop
  At : Contents → Nat → ι → Prop
  Fails : SourceError → Prop
  over_of_at {c p i} : At c p i → Over c i
  name_eq {c i} : Over c i → Input.name i = c.name
  order_eq {c i} : Over c i → Input.order i = c.order
  seek {c i p} : Over c i → p < wordLimit →
    Ensures (Input.seek p) i (fun _ => At c p) fun e j => Over c j ∧ Fails e
  read {c i p} {n : Nat} : At c p i →
    Ensures (Input.read n) i
      (fun got j => got = c.bytes.extract p (p + n) ∧ got.size = n ∧ At c (p + n) j)
      fun e j => Over c j ∧ (Fails e ∨ e.kind = .unexpectedEnd ∧ c.bytes.size < p + n)

theorem size_extract_of_le {bytes : Bytes} {p n : Nat} (h : p + n ≤ bytes.size) :
    (bytes.extract p (p + n)).size = n := by
  rw [Array.size_extract]
  omega

theorem extract_append_extract_add (bytes : Bytes) (p n m : Nat) :
    bytes.extract p (p + n) ++ bytes.extract (p + n) (p + n + m) = bytes.extract p (p + n + m) := by
  rw [Array.extract_append_extract, Nat.min_eq_left (by omega), Nat.max_eq_right (by omega)]

theorem someOf_extract (bytes : Bytes) (p n : Nat) :
    SomeOf bytes p n (bytes.extract p (p + n)) := by
  have hsize : (bytes.extract p (p + n)).size = min (p + n) bytes.size - p := Array.size_extract
  constructor
  · rw [hsize]
    apply Array.ext
    · simp only [Array.size_extract]
      omega
    · intro i hi hj
      simp only [Array.getElem_extract]
  · omega
  · omega

instance : FaithfulSource Cursor where
  Over bytes c := ∃ position, c = { bytes, position }
  At bytes p c := c = { bytes, position := p }
  Fails _ := False
  over_of_at h := ⟨_, h⟩
  seek := by
    rintro bytes _ p ⟨q, rfl⟩ _
    rfl
  move := by
    rintro bytes _ p q offset rfl hq hlimit
    change Ensures (Cursor.move offset) _ _ _
    simp [Cursor.move, Cursor.seek, hq, hlimit]
  read := by
    rintro bytes _ p n rfl
    exact ⟨someOf_extract bytes p n, rfl⟩
  interrupted _ := trivial

instance : FaithfulInput Memory where
  Over c m := ∃ position, m = { name := c.name, order := c.order, bytes := c.bytes, position }
  At c p m := m = { name := c.name, order := c.order, bytes := c.bytes, position := p }
  Fails _ := False
  over_of_at h := ⟨_, h⟩
  name_eq := by
    rintro c _ ⟨p, rfl⟩
    rfl
  order_eq := by
    rintro c _ ⟨p, rfl⟩
    rfl
  seek := by
    rintro c _ p ⟨q, rfl⟩ _
    rfl
  read := by
    rintro c _ p n rfl
    change Ensures (Memory.read n) _ _ _
    simp only [Memory.read, Ensures.bind_iff, Ensures.get_iff]
    split
    · next h => exact ⟨rfl, size_extract_of_le h, rfl⟩
    · next h => exact ⟨⟨p, rfl⟩, .inr ⟨rfl, Nat.lt_of_not_le h⟩⟩

section Watched

variable {ι : Type} [Input ι] [FaithfulInput ι]

instance : FaithfulInput (Metered ι) where
  Over c m := FaithfulInput.Over c m.input
  At c p m := FaithfulInput.At c p m.input
  Fails := FaithfulInput.Fails ι
  over_of_at := FaithfulInput.over_of_at
  name_eq := FaithfulInput.name_eq
  order_eq := FaithfulInput.order_eq
  seek h hp := by
    simp only [Input.seek, Metered.onInput, Ensures.bind_iff, Ensures.within_iff,
      Ensures.modify_iff]
    exact FaithfulInput.seek h hp
  read h := by
    simp only [Input.read, Metered.onInput, Ensures.bind_iff, Ensures.within_iff,
      Ensures.modify_iff, Ensures.pure_iff]
    exact FaithfulInput.read h

instance : FaithfulInput (FaultInjecting ι) where
  Over c i := FaithfulInput.Over c i.input
  At c p i := FaithfulInput.At c p i.input
  Fails e := e = FaultInjecting.fault ∨ FaithfulInput.Fails ι e
  over_of_at := FaithfulInput.over_of_at
  name_eq := FaithfulInput.name_eq
  order_eq := FaithfulInput.order_eq
  seek h hp := by
    simp only [Input.seek, Ensures.bind_iff, Ensures.get_iff, Ensures.set_iff]
    split
    · exact ⟨h, .inl rfl⟩
    · simp only [FaultInjecting.onInput, Ensures.within_iff]
      apply (FaithfulInput.seek h hp).mono
      · exact fun _ _ ht => ht
      · exact fun _ _ ht => ⟨ht.1, .inr ht.2⟩
  read h := by
    simp only [Input.read, Ensures.bind_iff, Ensures.get_iff, Ensures.set_iff]
    split
    · exact ⟨FaithfulInput.over_of_at h, .inl (.inl rfl)⟩
    · simp only [FaultInjecting.onInput, Ensures.within_iff]
      apply (FaithfulInput.read h).mono
      · exact fun _ _ ht => ht
      · rintro e t ⟨ho, he | he⟩
        · exact ⟨ho, .inl (.inr he)⟩
        · exact ⟨ho, .inr he⟩

end Watched

end Gridded
