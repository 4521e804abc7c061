import Gridded.Convention.Range
import Gridded.Proofs.Binary.Integral
import Gridded.Proofs.Number.Widening

namespace Gridded

namespace Number

variable {x y z : Number} {k : NumberKind}

theorem compare_isLE_iff (h : x.kind = y.kind) : (x.compare y).isLE ↔ x.key ≤ y.key := by
  rw [compare_of_kind_eq h, Std.isLE_compare]

theorem compare_lt_iff (h : x.kind = y.kind) : x.compare y = .lt ↔ x.key < y.key := by
  rw [compare_of_kind_eq h, compare_lt_iff_lt]

theorem not_isLE_iff : ¬ (x.compare y).isLE ↔ y.compare x = .lt := by
  rw [compare_swap x]
  cases x.compare y <;> decide

theorem cast_compare (hx : x.kind < k) (hz : z.kind = k) :
    (x.cast k).compare z = x.compare z := by
  subst hz
  rw [compare_of_kind_eq (kind_cast x z.kind), compare, NumberKind.widest_of_lt hx,
    cast_of_kind_eq (x := z) rfl]

theorem compare_cast_right (hx : x.kind < k) (hz : z.kind = k) :
    z.compare (x.cast k) = z.compare x := by
  rw [compare_swap (x.cast k), cast_compare hx hz, ← compare_swap]

/--
One of three numbers is of a kind wider than those of both others, which are in one order on their
own and in another one in that kind, and there the number lies between them.
-/
inductive Parted (x y z : Number) : Prop
  | last : x.kind.widest y.kind < z.kind → (x.compare y).isLE →
      ((y.cast z.kind).compare z).isLE → z.compare (x.cast z.kind) = .lt → Parted x y z
  | first : y.kind.widest z.kind < x.kind → (y.compare z).isLE →
      (z.cast x.kind).compare x = .lt → (x.compare (y.cast x.kind)).isLE → Parted x y z
  | middle : x.kind.widest z.kind < y.kind → z.compare x = .lt →
      ((x.cast y.kind).compare y).isLE → (y.compare (z.cast y.kind)).isLE → Parted x y z

theorem compare_eq_of_not_lt (h : ¬ x.kind.widest y.kind < z.kind) :
    x.compare y = Ord.compare (x.cast ((x.kind.widest y.kind).widest z.kind)).key
      (y.cast ((x.kind.widest y.kind).widest z.kind)).key := by
  rw [NumberKind.widest_of_not_lt h, compare]

theorem compare_trans (h : ¬ Parted x y z) (hxy : (x.compare y).isLE)
    (hyz : (y.compare z).isLE) : (x.compare z).isLE := by
  by_contra hxz
  have hzx := not_isLE_iff.1 hxz
  by_cases hlast : x.kind.widest y.kind < z.kind
  · obtain ⟨hx, hy⟩ := NumberKind.widest_lt_iff.1 hlast
    rw [← cast_compare hy rfl] at hyz
    rw [← compare_cast_right hx rfl] at hzx
    exact h (.last hlast hxy hyz hzx)
  by_cases hfirst : y.kind.widest z.kind < x.kind
  · obtain ⟨hy, hz⟩ := NumberKind.widest_lt_iff.1 hfirst
    rw [← compare_cast_right hy rfl] at hxy
    rw [← cast_compare hz rfl] at hzx
    exact h (.first hfirst hyz hzx hxy)
  by_cases hmiddle : x.kind.widest z.kind < y.kind
  · obtain ⟨hx, hz⟩ := NumberKind.widest_lt_iff.1 hmiddle
    rw [← cast_compare hx rfl] at hxy
    rw [← compare_cast_right hz rfl] at hyz
    exact h (.middle hmiddle hzx hxy hyz)
  -- No kind is wider than the two others, so one kind serves for all three comparisons.
  rw [compare_eq_of_not_lt hlast] at hxy
  rw [compare_eq_of_not_lt hfirst, NumberKind.widest_rotate] at hyz
  rw [compare_eq_of_not_lt hmiddle, NumberKind.widest_right_comm] at hxz
  exact hxz (Std.TransOrd.isLE_trans hxy hyz)

theorem Parted.lt (h : Parted x y z) : z.compare x = .lt := by
  cases h with
  | last hk _ _ hzx => rwa [compare_cast_right (NumberKind.widest_lt_iff.1 hk).1 rfl] at hzx
  | first hk _ hzx _ => rwa [cast_compare (NumberKind.widest_lt_iff.1 hk).2 rfl] at hzx
  | middle _ hzx _ _ => exact hzx

theorem isLE_iff_not_parted (hxy : (x.compare y).isLE) (hyz : (y.compare z).isLE) :
    (x.compare z).isLE ↔ ¬ Parted x y z :=
  ⟨fun hxz h => not_isLE_iff.2 h.lt hxz, fun h => compare_trans h hxy hyz⟩

theorem isLE_cast (hx : x.kind < k) : (x.compare (x.cast k)).isLE := by
  rw [← cast_compare hx (kind_cast x k), compare_isLE_iff rfl]

theorem cast_isLE (hx : x.kind < k) : ((x.cast k).compare x).isLE := by
  rw [← compare_cast_right hx (kind_cast x k), compare_isLE_iff rfl]

section

variable (hk : x.kind.widest y.kind < k)
include hk

theorem keepsLE_iff_forall_last : KeepsLE k x y ↔ ∀ z, z.kind = k → ¬ Parted x y z := by
  obtain ⟨hx, hy⟩ := NumberKind.widest_lt_iff.1 hk
  constructor
  · rintro h z rfl (⟨-, hxy, hyz, hzx⟩ | ⟨hlt, -, -, -⟩ | ⟨hlt, -, -, -⟩)
    · have hcast := compare_cast_isLE.1 (h hxy)
      rw [compare_isLE_iff (kind_cast y _)] at hyz
      rw [compare_lt_iff (kind_cast x _).symm] at hzx
      omega
    · exact Nat.lt_asymm hx (NumberKind.widest_lt_iff.1 hlt).2
    · exact Nat.lt_asymm hy (NumberKind.widest_lt_iff.1 hlt).2
  · intro h hxy
    rw [cast_compare hx (kind_cast y k)]
    exact compare_trans (h _ (kind_cast y k)) hxy (isLE_cast hy)

theorem keepsLE_iff_forall_first : KeepsLE k x y ↔ ∀ z, z.kind = k → ¬ Parted z x y := by
  obtain ⟨hx, hy⟩ := NumberKind.widest_lt_iff.1 hk
  constructor
  · rintro h z rfl (⟨hlt, -, -, -⟩ | ⟨-, hxy, hyz, hzx⟩ | ⟨hlt, -, -, -⟩)
    · exact Nat.lt_asymm hy (NumberKind.widest_lt_iff.1 hlt).1
    · have hcast := compare_cast_isLE.1 (h hxy)
      rw [compare_lt_iff (kind_cast y _)] at hyz
      rw [compare_isLE_iff (kind_cast x _).symm] at hzx
      omega
    · exact Nat.lt_asymm hx (NumberKind.widest_lt_iff.1 hlt).1
  · intro h hxy
    rw [compare_cast_right hy (kind_cast x k)]
    exact compare_trans (h _ (kind_cast x k)) (cast_isLE hx) hxy

theorem reflectsLE_iff_forall_middle : ReflectsLE k x y ↔ ∀ z, z.kind = k → ¬ Parted x z y := by
  obtain ⟨hx, hy⟩ := NumberKind.widest_lt_iff.1 hk
  constructor
  · rintro h z rfl (⟨hlt, -, -, -⟩ | ⟨hlt, -, -, -⟩ | ⟨-, hyx, hxz, hzy⟩)
    · exact Nat.lt_asymm hy (NumberKind.widest_lt_iff.1 hlt).2
    · exact Nat.lt_asymm hx (NumberKind.widest_lt_iff.1 hlt).1
    · refine not_isLE_iff.2 hyx (h (compare_cast_isLE.2 ?_))
      rw [compare_isLE_iff (kind_cast x _)] at hxz
      rw [compare_isLE_iff (kind_cast y _).symm] at hzy
      exact hxz.trans hzy
  · intro h hxy
    rw [compare_cast_right hy (kind_cast x k)] at hxy
    exact compare_trans (h _ (kind_cast x k)) (isLE_cast hx) hxy

end

end Number

namespace NumberRange

theorem contains_iff (r : NumberRange) (x : Number) :
    r.contains x ↔ (r.minimum.compare x).isLE ∧ (x.compare r.maximum).isLE := by
  rw [contains, Number.compare_swap x]
  cases x.compare r.minimum <;> cases x.compare r.maximum <;> decide

theorem contains_iff_of_between {r : NumberRange} {u v w : Number} (hu : r.contains u)
    (hw : r.contains w) (huv : (u.compare v).isLE) (hvw : (v.compare w).isLE) :
    r.contains v ↔ ¬ Number.Parted r.minimum u v ∧ ¬ Number.Parted v w r.maximum := by
  rw [contains_iff] at hu hw ⊢
  rw [Number.isLE_iff_not_parted hu.1 huv, Number.isLE_iff_not_parted hvw hw.2]

end NumberRange

namespace Number

/--
The order reads the same from both sides. It is transitive, and a range has all that lies between
its members, except exactly where widening two numbers to the kind of a third one parts them and
leaves the third between them. For any two numbers there is no such third one exactly if widening
keeps their order, and this is so if it keeps their ties: always for two integers in the order that
they have on their own, and in both for numbers that no cast rounds.
-/
theorem compare_preorder :
    (∀ x y : Number, y.compare x = (x.compare y).swap) ∧
    (∀ x y z : Number, (x.compare y).isLE → (y.compare z).isLE →
      ((x.compare z).isLE ↔ ¬ Parted x y z)) ∧
    (∀ (r : NumberRange) (u v w : Number), r.contains u → r.contains w → (u.compare v).isLE →
      (v.compare w).isLE →
      (r.contains v ↔ ¬ Parted r.minimum u v ∧ ¬ Parted v w r.maximum)) ∧
    ∀ (k : NumberKind) (x y : Number), x.kind.widest y.kind < k →
      (KeepsLE k x y ↔ ∀ z, z.kind = k → ¬ Parted x y z) ∧
      (KeepsLE k x y ↔ ∀ z, z.kind = k → ¬ Parted z x y) ∧
      (ReflectsLE k x y ↔ ∀ z, z.kind = k → ¬ Parted x z y) ∧
      (x.integer?.isSome → y.integer?.isSome → KeepsLE k x y) ∧
      (x.isSignalling = false → y.isSignalling = false →
        ((x.compare y = .eq → (x.cast k).compare (y.cast k) = .eq) → KeepsLE k x y) ∧
        (((x.cast k).compare (y.cast k) = .eq → x.compare y = .eq) → ReflectsLE k x y) ∧
        ((∀ n ∈ [x, y], n.KeepsInteger (x.kind.widest y.kind) ∧ n.KeepsInteger k) →
          KeepsLE k x y ∧ ReflectsLE k x y)) := by
  refine ⟨compare_swap, fun _ _ _ => isLE_iff_not_parted,
    fun _ _ _ _ => NumberRange.contains_iff_of_between, fun k x y hk => ?_⟩
  obtain ⟨hx, hy⟩ := NumberKind.widest_lt_iff.1 hk
  refine ⟨keepsLE_iff_forall_last hk, keepsLE_iff_forall_first hk, reflectsLE_iff_forall_middle hk,
    fun hi hj => ?_, fun hquiet hquiet' => ?_⟩
  · obtain ⟨i, hi⟩ := Option.isSome_iff_exists.1 hi
    obtain ⟨j, hj⟩ := Option.isSome_iff_exists.1 hj
    exact keepsLE_of_integers hi hj hx hy
  · refine ⟨keepsLE_of_tie hx hy hquiet hquiet', reflectsLE_of_tie hx hy hquiet hquiet',
      fun hkeeps => ?_⟩
    have htie := KeepsTies.of_keepsInteger hk hquiet hquiet' hkeeps
    exact ⟨keepsLE_of_tie hx hy hquiet hquiet' htie.2,
      reflectsLE_of_tie hx hy hquiet hquiet' htie.1⟩

theorem compare_preorder_rounded :
    let w : Number := .long 9007199254740992
    let x : Number := .long 9007199254740993
    let y : Number := .double ⟨0x4340000000000001#64⟩
    let z : Number := .long 9007199254740995
    let tied : Number := .double ⟨0x4340000000000000#64⟩
    let huge : Number := .double ⟨0x7e37e43c8800759c#64⟩
    y.compare x = (x.compare y).swap ∧ (x.compare z).isLE
      ∧ (NumberRange.ofBounds .long x z).contains y
      ∧ (w.compare huge).isLE ∧ ¬ (x.compare w).isLE ∧ Parted x tied w
      ∧ (Number.compare (.byte 1) huge).isLE := by
  intro w x y z tied huge
  obtain ⟨hswap, htrans, hconvex, hpair⟩ := compare_preorder
  have hlongs (i j : Int64) := hpair .double (.long i) (.long j)
    (show NumberKind.long.widest .long < .double by decide)
  have hlast (i j : Int64) (c : Number) (hc : c.kind = .double) :
      ¬ Parted (.long i) (.long j) c :=
    (hlongs i j).1.1 ((hlongs i j).2.2.2.1 rfl rfl) c hc
  have hparted : Parted x tied w :=
    .middle (by decide) (by decide +kernel) (by decide +kernel) (by decide +kernel)
  refine ⟨hswap x y, ?_, ?_, ?_, ?_, hparted, ?_⟩
  · refine (htrans x y z (by decide +kernel) (by decide +kernel)).2 ?_
    exact (hlongs _ _).2.2.1.1 (fun _ => by decide +kernel) y rfl
  · refine (hconvex _ x y z (by decide +kernel) (by decide +kernel) (by decide +kernel)
      (by decide +kernel)).2 ⟨hlast _ _ y rfl, ?_⟩
    exact (hlongs _ _).2.1.1 ((hlongs _ _).2.2.2.1 rfl rfl) y rfl
  · exact (htrans w x huge (by decide +kernel) (by decide +kernel)).2 (hlast _ _ huge rfl)
  · intro hle
    exact (htrans x tied w (by decide +kernel) (by decide +kernel)).1 hle hparted
  · have hsingle : (Binary.ofInt .single 1).rational? = some ((1 : Int) : ℚ) :=
      (Binary.rational?_ofInt_iff Format.single_ample (by decide)).2 (by decide)
    have hdouble : (Binary.ofInt .double 1).rational? = some ((1 : Int) : ℚ) :=
      (Binary.rational?_ofInt_iff Format.double_ample (by decide)).2 (by decide)
    have hfloat (k : NumberKind) : KeepsInteger (.float ⟨0x3fc00000#32⟩) k := by
      intro i hi
      cases hi
    have hkeeps : KeepsLE .double (.byte 1) (.float ⟨0x3fc00000#32⟩) := by
      refine (((hpair .double _ _ (by decide)).2.2.2.2 rfl (by decide +kernel)).2.2 ?_).1
      refine List.forall_mem_cons.2 ⟨⟨?_, ?_⟩, List.forall_mem_singleton.2 ⟨hfloat _, hfloat _⟩⟩
      · intro i hi
        cases hi
        exact hsingle
      · intro i hi
        cases hi
        exact hdouble
    exact (htrans _ (.float ⟨0x3fc00000#32⟩) huge (by decide +kernel) (by decide +kernel)).2
      ((hpair .double _ _ (by decide)).1.1 hkeeps huge rfl)

/--
The range from one long number to itself contains a double that ties with it. A second long number
ties with that double, but is not in the range: it is less than the first one. A range from a quiet
not-a-number up contains a double above it, but not the signalling one that follows that double.
-/
theorem compare_not_transitive :
    let x : Number := .long 9007199254740993
    let y : Number := .double ⟨0x4340000000000000#64⟩
    let z : Number := .long 9007199254740992
    let quiet : Number := .float ⟨0x7fc00000#32⟩
    let between : Number := .double ⟨0x7ff8000010000000#64⟩
    let signalling : Number := .float ⟨0x7f800001#32⟩
    let last : Number := .float ⟨0x7fffffff#32⟩
    ((x.compare y).isLE ∧ (y.compare z).isLE ∧ ¬ (x.compare z).isLE)
      ∧ ((NumberRange.ofBounds .long x x).contains y ∧ (y.compare z).isLE ∧ (z.compare y).isLE
        ∧ ¬ (NumberRange.ofBounds .long x x).contains z)
      ∧ ((NumberRange.ofBounds .float quiet last).contains between
        ∧ (NumberRange.ofBounds .float quiet last).contains last
        ∧ (between.compare signalling).isLE ∧ (signalling.compare last).isLE
        ∧ ¬ (NumberRange.ofBounds .float quiet last).contains signalling) := by
  decide +kernel

end Number

end Gridded
