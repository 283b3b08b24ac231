import Mathlib

/-!
# Single-precision numbers

What a program that compares, clamps and adds `f32` values needs to know of them: which
operations give a number, how `clamp` bounds its result, and that `1 - x` stays between an eighth
and seven eighths when `x` does. The numbers are Lean's own `Float32`, whose logical model is the
IEEE 754 `binary32` arithmetic.
-/

set_option autoImplicit false

namespace F32

open Float.Model Float.Model.UnpackedFloat

/-! ## Operations of Rust's `f32` -/

/-- `f32::clamp`. A NaN is left as it is. -/
def clamp (x low high : Float32) : Float32 :=
  let x := if x < low then low else x
  if high < x then high else x

/-- `f32::max`. A NaN gives way to the other operand. -/
def max (x y : Float32) : Float32 :=
  if x.isNaN then y else if y.isNaN then x else if x < y then y else x

/-- `f32::EPSILON`, two to the power of -23. -/
def epsilon : Float32 := .ofBits 0x34000000

/-! ## Sign, mantissa and exponent -/

/-- A number's sign, mantissa and exponent. -/
def unpacked (x : Float32) : UnpackedFloat := x.toModel.unpack

/-- Bits whose exponent field is not all ones are a number. -/
theorem isNaN_unpack_packComponents {spec : Format} {s : Sign} {exponent mantissa}
    (h : exponent ≠ -1#_) :
    (UnpackedFloat.unpack spec (packComponents spec s exponent mantissa)).isNaN = false := by
  unfold UnpackedFloat.unpack
  simp only [unpackExponent_packComponents, unpackMantissa_packComponents, if_neg h]
  split
  · split <;> rfl
  · rfl

theorem isNaN_unpack_pack (f : UnpackedFloat) : (Float32.Model.pack f).unpack.isNaN = f.isNaN := by
  show (UnpackedFloat.unpack Format.binary32 (UnpackedFloat.pack Format.binary32 f)).isNaN = f.isNaN
  cases f with
  | notANumber => decide
  | infinity s => cases s <;> decide
  | zero s => cases s <;> decide
  | finite s m e h =>
      unfold UnpackedFloat.pack
      dsimp only
      split
      · cases s <;> rfl
      · rename_i hlt
        split
        · refine isNaN_unpack_packComponents fun heq => ?_
          have hbits := congrArg BitVec.toNat heq
          simp only [BitVec.toNat_ofNat, BitVec.toNat_neg] at hbits
          norm_num at hbits hlt
          omega
        · exact isNaN_unpack_packComponents (by decide)

/-- The implicit bit stands above the mantissa field. -/
theorem toNat_one_append {w : Nat} (v : BitVec w) : (1#1 ++ v).toNat = 2 ^ w + v.toNat := by
  rw [BitVec.toNat_append, ← Nat.shiftLeft_add_eq_or_of_lt v.isLt]
  simp [Nat.shiftLeft_eq]

theorem unpackSign_packComponents {spec : Format} {s : Sign} {exponent mantissa} :
    unpackSign (packComponents spec s exponent mantissa) = s.toBitVec := by
  ext i hi
  obtain rfl : i = 0 := Nat.lt_one_iff.mp hi
  simp [unpackSign, packComponents, BitVec.getLsbD_append, BitVec.getElem_append]

/-- A normal number is unpacked to what was packed. -/
theorem unpack_pack_normal {m : ℕ} {e : ℤ} {h} (hlo : 2 ^ 23 ≤ m) (hhi : m < 2 ^ 24)
    (helo : -149 ≤ e) (hehi : e ≤ 104) :
    (Float32.Model.pack (.finite .positive m e h)).unpack = .finite .positive m e h := by
  show UnpackedFloat.unpack Format.binary32 (UnpackedFloat.pack Format.binary32 _) = _
  have hlog : m.log2 = 23 := (Nat.log2_eq_iff (by omega)).mpr ⟨hlo, hhi⟩
  have hbias : (e + Format.binary32.exponentBias +
      Format.binary32.mantissaBitsWithoutImplicit).toNat
      = (e + 150).toNat := by
    show (e + (2 ^ (8 - 1) - 1 : Nat) + (23 : Nat)).toNat = (e + 150).toNat
    omega
  have hfield (b : BitVec 8) (hb : (e + 150).toNat % 256 ≠ b.toNat) :
      BitVec.ofNat 8 (e + 150).toNat ≠ b := by
    intro heq
    exact hb (by rw [← heq, BitVec.toNat_ofNat])
  rw [UnpackedFloat.pack]
  simp only [hlog, hbias]
  rw [if_neg (by omega), if_pos (by rfl), UnpackedFloat.unpack]
  simp only [unpackMantissa_packComponents, unpackExponent_packComponents,
    unpackSign_packComponents]
  rw [if_neg (hfield _ (by simp; omega)), if_neg (hfield _ (by simp; omega))]
  have hmant : (1#1 ++ BitVec.ofNat 23 m).toNat = m := by
    rw [toNat_one_append, BitVec.toNat_ofNat]
    omega
  have hexp : ((BitVec.ofNat 8 (e + 150).toNat).toNat : ℤ)
      - (Format.binary32.exponentBias + Format.binary32.mantissaBitsWithoutImplicit) = e := by
    show ((BitVec.ofNat 8 (e + 150).toNat).toNat : ℤ) - (127 + 23) = e
    rw [BitVec.toNat_ofNat]
    omega
  simp only [hmant, hexp]
  rfl

/-- A `binary32` mantissa has at most 24 bits, and all 24 of them unless the number is subnormal. -/
theorem mantissa_of_unpacked {x : Float32} {s m e h} (hx : unpacked x = .finite s m e h) :
    m < 2 ^ 24 ∧ (2 ^ 23 ≤ m ∨ e = -149) := by
  unfold unpacked Float32.Model.unpack UnpackedFloat.unpack at hx
  dsimp only at hx
  split at hx
  · split at hx <;> cases hx
  · split at hx
    · split at hx
      · cases hx
      · rename_i hexp hm
        simp only [UnpackedFloat.finite.injEq] at hx
        obtain ⟨-, rfl, rfl⟩ := hx
        refine ⟨?_, Or.inr ?_⟩
        · omega
        · rw [hexp]
          decide
    · simp only [UnpackedFloat.finite.injEq] at hx
      obtain ⟨-, rfl, -⟩ := hx
      have hm : (@unpackMantissa Format.binary32 x.toModel.toBits.toBitVec).toNat < 2 ^ 23 :=
        (unpackMantissa _).isLt
      have happ : (1#1 ++ @unpackMantissa Format.binary32 x.toModel.toBits.toBitVec).toNat
          = 2 ^ 23 + (@unpackMantissa Format.binary32 x.toModel.toBits.toBitVec).toNat :=
        toNat_one_append _
      constructor
      · omega
      · exact Or.inl (by omega)

/-! ## Order -/

theorem le_iff {x y : Float32} : x ≤ y ↔ (unpacked x).le (unpacked y) = true := by
  show (decide (x.toModel ≤ y.toModel)) = true ↔ _
  rw [decide_eq_true_iff]
  rfl

theorem lt_iff {x y : Float32} : x < y ↔ (unpacked x).lt (unpacked y) = true := by
  show (decide (x.toModel < y.toModel)) = true ↔ _
  rw [decide_eq_true_iff]
  rfl

theorem compare_sign_swap (s t : Sign) : compare t s = (compare s t).swap := by
  cases s <;> cases t <;> rfl

theorem compare_then_swap (e e' : ℤ) (m m' : ℕ) :
    (compare e' e).then (compare m' m) = ((compare e e').then (compare m m')).swap := by
  rw [Ordering.swap_then, Int.compare_swap, Nat.compare_swap]

theorem isLE_compare_then {e e' : ℤ} {m m' : ℕ} :
    ((compare e e').then (compare m m')).isLE = true ↔ e < e' ∨ (e = e' ∧ m ≤ m') := by
  rw [Ordering.isLE_then_iff_or, Int.compare_eq_lt, Int.compare_eq_eq, Nat.isLE_compare]

theorem compare_swap (a b : UnpackedFloat) :
    UnpackedFloat.compare b a = (UnpackedFloat.compare a b).map Ordering.swap := by
  cases a with
  | notANumber => cases b <;> rfl
  | infinity s =>
      cases b with
      | infinity t => simp only [UnpackedFloat.compare, Option.map_some, compare_sign_swap s t]
      | notANumber => rfl
      | zero t => cases s <;> rfl
      | finite t m e h => cases s <;> cases t <;> rfl
  | zero s =>
      cases b with
      | infinity t => cases t <;> rfl
      | notANumber => rfl
      | zero t => rfl
      | finite t m e h => cases t <;> rfl
  | finite s m e h =>
      cases b with
      | infinity t => cases s <;> cases t <;> rfl
      | notANumber => rfl
      | zero t => cases s <;> rfl
      | finite t m' e' h' =>
          cases s <;> cases t <;> simp [UnpackedFloat.compare, compare_then_swap e' e m' m]

theorem compare_of_isNaN {a b : UnpackedFloat} (ha : a.isNaN = false) (hb : b.isNaN = false) :
    ∃ o, UnpackedFloat.compare a b = some o := by
  fun_cases UnpackedFloat.compare a b
  case case1 => cases ha
  case case2 => cases hb
  all_goals exact ⟨_, rfl⟩

/-- Two numbers are ordered one way or the other. -/
theorem le_of_not_lt {x y : Float32} (hx : x.isNaN = false) (hy : y.isNaN = false)
    (h : ¬ x < y) : y ≤ x := by
  rw [lt_iff] at h
  rw [le_iff]
  unfold UnpackedFloat.lt at h
  unfold UnpackedFloat.le
  rw [compare_swap (unpacked x) (unpacked y)]
  obtain ⟨o, ho⟩ := compare_of_isNaN (show (unpacked x).isNaN = false from hx)
    (show (unpacked y).isNaN = false from hy)
  rw [ho] at h ⊢
  cases o with
  | lt => exact absurd rfl h
  | eq => rfl
  | gt => rfl

theorem not_le_of_lt {x y : Float32} (h : x < y) : ¬ y ≤ x := by
  rw [lt_iff, UnpackedFloat.lt, beq_iff_eq] at h
  rw [le_iff, UnpackedFloat.le, compare_swap (unpacked x) (unpacked y), h]
  exact Bool.false_ne_true

/-- What is at least one is positive. -/
theorem pos_of_one_le {x : Float32} (h : (1.0 : Float32) ≤ x) : (0.0 : Float32) < x := by
  have hone : unpacked (1.0 : Float32) = .finite .positive (2 ^ 23) (-23) (by decide) := rfl
  have hzero : unpacked (0.0 : Float32) = .zero .positive := rfl
  rw [le_iff, hone] at h
  rw [lt_iff, hzero]
  cases hx : unpacked x with
  | notANumber => rw [hx] at h; cases h
  | zero s => rw [hx] at h; cases h
  | infinity s => cases s <;> rw [hx] at h <;> first | rfl | cases h
  | finite s m e he => cases s <;> rw [hx] at h <;> first | rfl | cases h

theorem le_refl {x : Float32} (hx : x.isNaN = false) : x ≤ x :=
  le_of_not_lt hx hx fun h => by
    rw [lt_iff, UnpackedFloat.lt, beq_iff_eq] at h
    have hswap := compare_swap (unpacked x) (unpacked x)
    rw [h] at hswap
    cases hswap

theorem clamp_bounds {x low high : Float32} (hx : x.isNaN = false) (hl : low.isNaN = false)
    (hh : high.isNaN = false) (hle : low ≤ high) :
    low ≤ clamp x low high ∧ clamp x low high ≤ high := by
  unfold clamp
  dsimp only
  by_cases hlow : x < low
  · rw [if_pos hlow]
    split
    · exact ⟨hle, le_refl hh⟩
    · exact ⟨le_refl hl, hle⟩
  · rw [if_neg hlow]
    split
    · exact ⟨hle, le_refl hh⟩
    · rename_i hhigh
      exact ⟨le_of_not_lt hx hl hlow, le_of_not_lt hh hx hhigh⟩

/-- The numbers between two positive ones, by exponent and then by mantissa. -/
theorem between_iff {low high x : Float32} {ml mh el eh hl hh}
    (hlow : unpacked low = .finite .positive ml el hl)
    (hhigh : unpacked high = .finite .positive mh eh hh) : (low ≤ x ∧ x ≤ high) ↔
    ∃ m e h, unpacked x = .finite .positive m e h
      ∧ (el < e ∨ (el = e ∧ ml ≤ m)) ∧ (e < eh ∨ (e = eh ∧ m ≤ mh)) := by
  rw [le_iff, le_iff, hlow, hhigh]
  constructor
  · rintro ⟨hl, hh⟩
    cases hx : unpacked x with
    | notANumber => rw [hx] at hl; cases hl
    | zero s => rw [hx] at hl; cases hl
    | infinity s =>
        rw [hx] at hl hh
        cases s
        · cases hl
        · cases hh
    | finite s m e h =>
        rw [hx] at hl hh
        cases s with
        | negative => cases hl
        | positive => exact ⟨m, e, h, rfl, isLE_compare_then.mp hl, isLE_compare_then.mp hh⟩
  · rintro ⟨m, e, h, hx, hl, hh⟩
    rw [hx]
    exact ⟨isLE_compare_then.mpr hl, isLE_compare_then.mpr hh⟩

/-! ## Operations that give a number -/

theorem isNaN_roundWithAccuracy (spec : Format) (s : Sign) (m : Nat) (e : Int) (a : Accuracy) :
    (roundWithAccuracy spec s m e a).isNaN = false := by
  unfold roundWithAccuracy
  dsimp only
  split <;> rfl

theorem isNaN_normalize (spec : Format) (m e : Int) (s : Sign) :
    (UnpackedFloat.normalize spec m e s).isNaN = false := by
  unfold UnpackedFloat.normalize
  split
  · exact isNaN_roundWithAccuracy ..
  · rfl
  · exact isNaN_roundWithAccuracy ..

/-- A number added to a finite number. -/
theorem isNaN_add {x y : Float32} (hx : x.isFinite = true) (hy : y.isNaN = false) :
    (x + y).isNaN = false := by
  have hadd (a b : UnpackedFloat) (ha : a.isFinite = true) (hb : b.isNaN = false) :
      (UnpackedFloat.add Format.binary32 a b).isNaN = false := by
    cases a with
    | notANumber => cases ha
    | infinity => cases ha
    | zero s =>
        cases b with
        | notANumber => cases hb
        | infinity => rfl
        | zero s' =>
            unfold UnpackedFloat.add
            dsimp only
            split <;> rfl
        | finite => rfl
    | finite s m e h =>
        cases b with
        | notANumber => cases hb
        | infinity => rfl
        | zero s' => rfl
        | finite => exact isNaN_normalize ..
  show (Float32.Model.pack _).unpack.isNaN = false
  rw [isNaN_unpack_pack]
  exact hadd _ _ hx hy

/-- A finite number divided by a number that is at least another, positive one. -/
theorem isNaN_div {x y low : Float32} {m e h} (hx : x.isFinite = true)
    (hlow : unpacked low = .finite .positive m e h) (hy : low ≤ y) : (x / y).isNaN = false := by
  have hdiv (a b : UnpackedFloat) (ha : a.isFinite = true)
      (hb : (UnpackedFloat.finite .positive m e h).le b = true) :
      (UnpackedFloat.div Format.binary32 a b).isNaN = false := by
    cases b with
    | notANumber => cases hb
    | zero => cases hb
    | infinity s =>
        cases a with
        | notANumber => cases ha
        | infinity => cases ha
        | zero => rfl
        | finite => rfl
    | finite s m' e' h' =>
        cases a with
        | notANumber => cases ha
        | infinity => cases ha
        | zero => rfl
        | finite => exact isNaN_roundWithAccuracy ..
  show (Float32.Model.pack _).unpack.isNaN = false
  rw [isNaN_unpack_pack]
  rw [le_iff, hlow] at hy
  exact hdiv _ _ hx hy

theorem isNaN_neg {x : Float32} (hx : x.isNaN = false) : (-x).isNaN = false := by
  show (Float32.Model.pack (unpacked x).neg).unpack.isNaN = false
  rw [isNaN_unpack_pack]
  replace hx : (unpacked x).isNaN = false := hx
  revert hx
  cases unpacked x <;> exact id

theorem isNaN_of_isFinite {x : Float32} (hx : x.isFinite = true) : x.isNaN = false := by
  show (unpacked x).isNaN = false
  replace hx : (unpacked x).isFinite = true := hx
  revert hx
  cases unpacked x <;> first | exact fun _ => rfl | exact nofun

theorem le_max {x y : Float32} (hy : y.isNaN = false) : y ≤ max x y := by
  unfold max
  split
  · exact le_refl hy
  · rename_i hx
    rw [if_neg (by rw [hy]; exact Bool.false_ne_true)]
    split
    · exact le_refl hy
    · rename_i hlt
      exact le_of_not_lt (Bool.eq_false_iff.mpr hx) hy hlt

/-! ## Between an eighth and seven eighths -/

/-- From an eighth to seven eighths: `2 ^ 23 * 2 ^ -26` and `14680064 * 2 ^ -24`. -/
def Middle (x : Float32) : Prop := (0.125 : Float32) ≤ x ∧ x ≤ (0.875 : Float32)

/-- The exponent of a middle number is one of three, and its mantissa is bounded above in the
last. -/
theorem middle_iff {x : Float32} : Middle x ↔
    ∃ m e h, unpacked x = .finite .positive m e h
      ∧ (e = -26 ∨ e = -25 ∨ (e = -24 ∧ m ≤ 14680064)) := by
  have hlow : unpacked (0.125 : Float32) = .finite .positive (2 ^ 23) (-26) (by decide) := rfl
  have hhigh : unpacked (0.875 : Float32) = .finite .positive 14680064 (-24) (by decide) := rfl
  unfold Middle
  rw [between_iff hlow hhigh]
  constructor
  · rintro ⟨m, e, h, hx, hl, hh⟩
    exact ⟨m, e, h, hx, by omega⟩
  · rintro ⟨m, e, h, hx, he⟩
    have hm := mantissa_of_unpacked hx
    exact ⟨m, e, h, hx, by omega, by omega⟩

/-- What is clamped to a part of the middle is in the middle. -/
theorem Middle.of_bounds {x : Float32} (hlow : (0.2 : Float32) ≤ x) (hhigh : x ≤ (0.8 : Float32)) :
    Middle x := by
  have hl : unpacked (0.2 : Float32) = .finite .positive 13421773 (-26) (by decide) := rfl
  have hh : unpacked (0.8 : Float32) = .finite .positive 13421773 (-24) (by decide) := rfl
  obtain ⟨m, e, h, hx, hlx, hxh⟩ := (between_iff hl hh).mp ⟨hlow, hhigh⟩
  exact middle_iff.mpr ⟨m, e, h, hx, by omega⟩

/-- The middle lies well within a hundredth and ninety-nine hundredths. -/
theorem Middle.bounds {x : Float32} (h : Middle x) :
    x.isFinite = true ∧ (0.01 : Float32) ≤ x ∧ x ≤ (0.99 : Float32) := by
  have hl : unpacked (0.01 : Float32) = .finite .positive 10737418 (-30) (by decide) := rfl
  have hh : unpacked (0.99 : Float32) = .finite .positive 16609444 (-24) (by decide) := rfl
  obtain ⟨m, e, hm, hx, he⟩ := middle_iff.mp h
  have hbits := mantissa_of_unpacked hx
  refine ⟨?_, (between_iff hl hh).mpr ⟨m, e, hm, hx, by omega, by omega⟩⟩
  show (unpacked x).isFinite = true
  rw [hx]
  rfl

theorem log2_eq {n k : ℕ} (hlo : 2 ^ k ≤ n) (hhi : n < 2 ^ (k + 1)) : n.log2 = k :=
  (Nat.log2_eq_iff (by have := Nat.two_pow_pos k; omega)).mpr ⟨hlo, hhi⟩

/-- Bits past the twenty-fourth are shifted out and rounded. -/
theorem roundWithAccuracy_of_log2 {m k q : ℕ} {e : ℤ} (hlog : m.log2 = 23 + k) (he : -149 ≤ e)
    (hq : ((⟨m, false, false⟩ : ExtendedMantissa) >>> k).roundedMantissa = q)
    (hlo : 2 ^ 23 ≤ q) (hhi : q < 2 ^ 24) :
    roundWithAccuracy Format.binary32 .positive m e .exact
      = .finite .positive q (e + k) (by omega) := by
  have hfirst : (Format.binary32.targetExponent (totalExponent m e) - e).toNat = k := by
    show (Max.max ((m.log2 : ℤ) + 1 + e - 24) (-149) - e).toNat = k
    omega
  have hsecond :
      (Format.binary32.targetExponent (totalExponent q (e + k)) - (e + k)).toNat = 0 := by
    show (Max.max ((q.log2 : ℤ) + 1 + (e + k) - 24) (-149) - (e + k)).toNat = 0
    rw [log2_eq hlo hhi]
    omega
  unfold roundWithAccuracy shiftToTargetExponent shiftToExponent
    ExtendedMantissa.ofMantissaAndAccuracy
  simp only [hfirst, hq, hsecond]
  split
  · rename_i hzero
    exact absurd (show q = 0 from hzero) (by omega)
  · simp only [Nat.cast_zero, add_zero]
    rfl

/-- Rounding goes up by at most one, and not at all when nothing is lost. -/
theorem roundedMantissa_bounds (em : ExtendedMantissa) :
    em.mantissa ≤ em.roundedMantissa ∧ em.roundedMantissa ≤ em.mantissa + 1
      ∧ (em.roundBit = false → em.stickyBit = false → em.roundedMantissa = em.mantissa) := by
  obtain ⟨m, r, s⟩ := em
  cases r <;> cases s <;>
    simp [ExtendedMantissa.roundedMantissa, ExtendedMantissa.accuracy, Accuracy.roundToNearestEven]
  omega

/-- Fewer than 24 bits are shifted up to the full mantissa. -/
theorem round_of_log2_le {n : ℕ} {e : ℤ} (hn : 0 < n) (hlog : n.log2 ≤ 23)
    (he : -149 + 23 ≤ e) : ∃ h,
    round Format.binary32 .positive n e
      = .finite .positive (n * 2 ^ (23 - n.log2)) (e - (23 - n.log2 : ℕ)) h := by
  have hshift : (e - Format.binary32.targetExponent (totalExponent n e)).toNat = 23 - n.log2 := by
    show (e - Max.max ((n.log2 : ℤ) + 1 + e - 24) (-149)).toNat = 23 - n.log2
    omega
  have hpow : 2 ^ n.log2 * 2 ^ (23 - n.log2) = 2 ^ 23 := by
    rw [← Nat.pow_add]
    congr 1
    omega
  have hlo : 2 ^ 23 ≤ n * 2 ^ (23 - n.log2) := by
    rw [← hpow]
    exact Nat.mul_le_mul_right _ (Nat.log2_self_le (by omega))
  have hhi : n * 2 ^ (23 - n.log2) < 2 ^ 24 := by
    calc n * 2 ^ (23 - n.log2) < 2 ^ (n.log2 + 1) * 2 ^ (23 - n.log2) :=
          Nat.mul_lt_mul_of_pos_right Nat.lt_log2_self (Nat.two_pow_pos _)
      _ = 2 * (2 ^ n.log2 * 2 ^ (23 - n.log2)) := by ring
      _ = 2 ^ 24 := by rw [hpow]; rfl
  unfold UnpackedFloat.round decreaseExponent
  simp only [hshift, Nat.shiftLeft_eq]
  have hround := roundWithAccuracy_of_log2 (m := n * 2 ^ (23 - n.log2)) (k := 0) (log2_eq hlo hhi)
    (show -149 ≤ e - (23 - n.log2 : ℕ) by omega) (rfl : _ = n * 2 ^ (23 - n.log2)) hlo hhi
  simp only [Nat.cast_zero, add_zero] at hround
  exact ⟨Nat.mul_pos hn (Nat.two_pow_pos _), hround⟩

/-- More than 24 bits are rounded to 24. -/
theorem round_of_log2_ge {n k q : ℕ} {e : ℤ} (hlog : n.log2 = 23 + k) (he : -149 ≤ e)
    (hq : ((⟨n, false, false⟩ : ExtendedMantissa) >>> k).roundedMantissa = q)
    (hlo : 2 ^ 23 ≤ q) (hhi : q < 2 ^ 24) :
    round Format.binary32 .positive n e = .finite .positive q (e + k) (by omega) := by
  have hshift : (e - Format.binary32.targetExponent (totalExponent n e)).toNat = 0 := by
    show (e - Max.max ((n.log2 : ℤ) + 1 + e - 24) (-149)).toNat = 0
    omega
  unfold UnpackedFloat.round decreaseExponent
  simp only [hshift, Nat.shiftLeft_zero, Nat.cast_zero, sub_zero]
  exact roundWithAccuracy_of_log2 hlog he hq hlo hhi

/-- A full mantissa with a middle exponent is a middle number. -/
theorem middle_of_pack {x : Float32} {m : ℕ} {e : ℤ}
    {h} (hx : x.toModel = .pack (.finite .positive m e h))
    (hlo : 2 ^ 23 ≤ m) (hhi : m < 2 ^ 24) (he : e = -26 ∨ e = -25 ∨ (e = -24 ∧ m ≤ 14680064)) :
    Middle x := by
  refine middle_iff.mpr ⟨m, e, h, ?_, he⟩
  unfold unpacked
  rw [hx]
  exact unpack_pack_normal hlo hhi (by omega) (by omega)

theorem normalize_of_pos {m : ℤ} {n : ℕ} {e : ℤ} {s : Sign} (hm : m = n) (hn : 0 < n) :
    normalize Format.binary32 m e s = round Format.binary32 .positive n e := by
  subst hm
  unfold UnpackedFloat.normalize
  rw [Int.compare_eq_gt.mpr (by omega : (0 : ℤ) < n)]
  rfl

/-- The middle is closed under subtraction from one. -/
theorem Middle.one_sub {x : Float32} (h : Middle x) : Middle (1.0 - x) := by
  obtain ⟨m, e, hm, hx, he⟩ := middle_iff.mp h
  have hbits := mantissa_of_unpacked hx
  have hone : unpacked (1.0 : Float32) = .finite .positive (2 ^ 23) (-23) (by decide) := rfl
  have hsub : (1.0 - x).toModel
      = .pack (UnpackedFloat.sub Format.binary32 (unpacked 1.0) (unpacked x)) := rfl
  rw [hone, hx] at hsub
  rcases he with rfl | rfl | ⟨rfl, hmax⟩
  · -- below a quarter, two bits are rounded
    have hdiff : UnpackedFloat.sub Format.binary32 (.finite .positive (2 ^ 23) (-23) (by decide))
        (.finite .positive m (-26) hm)
        = normalize Format.binary32 ((2 ^ 26 : ℤ) - m) (-26) .positive := rfl
    obtain ⟨hge, hle, -⟩ :=
      roundedMantissa_bounds ((⟨2 ^ 26 - m, false, false⟩ : ExtendedMantissa) >>> 2)
    replace hge : (2 ^ 26 - m) / 2 / 2 ≤ _ := hge
    replace hle : _ ≤ (2 ^ 26 - m) / 2 / 2 + 1 := hle
    have hbound : ((⟨2 ^ 26 - m, false, false⟩ : ExtendedMantissa) >>> 2).roundedMantissa
        ≤ 14680064 := by
      by_cases hmin : m = 2 ^ 23
      · subst hmin
        decide
      · omega
    rw [hdiff, normalize_of_pos (n := 2 ^ 26 - m) (by omega) (by omega),
      round_of_log2_ge (k := 2) (log2_eq (by omega) (by omega)) (by omega) rfl (by omega)
        (by omega)] at hsub
    exact middle_of_pack hsub (by omega) (by omega) (Or.inr (Or.inr ⟨rfl, hbound⟩))
  · -- below a half, one bit is rounded
    have hdiff : UnpackedFloat.sub Format.binary32 (.finite .positive (2 ^ 23) (-23) (by decide))
        (.finite .positive m (-25) hm)
        = normalize Format.binary32 ((2 ^ 25 : ℤ) - m) (-25) .positive := rfl
    obtain ⟨hge, hle, -⟩ :=
      roundedMantissa_bounds ((⟨2 ^ 25 - m, false, false⟩ : ExtendedMantissa) >>> 1)
    replace hge : (2 ^ 25 - m) / 2 ≤ _ := hge
    replace hle : _ ≤ (2 ^ 25 - m) / 2 + 1 := hle
    rw [hdiff, normalize_of_pos (n := 2 ^ 25 - m) (by omega) (by omega),
      round_of_log2_ge (k := 1) (log2_eq (by omega) (by omega)) (by omega) rfl (by omega)
        (by omega)] at hsub
    exact middle_of_pack hsub (by omega) (by omega) (Or.inr (Or.inr ⟨rfl, by omega⟩))
  · -- from a half on, nothing is lost
    have hdiff : UnpackedFloat.sub Format.binary32 (.finite .positive (2 ^ 23) (-23) (by decide))
        (.finite .positive m (-24) hm)
        = normalize Format.binary32 ((2 ^ 24 : ℤ) - m) (-24) .positive := rfl
    obtain ⟨k, hk, hlo, hhi⟩ : ∃ k, (k = 21 ∨ k = 22 ∨ k = 23 ∧ 2 ^ 24 - m = 2 ^ 23)
        ∧ 2 ^ k ≤ 2 ^ 24 - m ∧ 2 ^ 24 - m < 2 ^ (k + 1) := by
      by_cases h22 : 2 ^ 24 - m < 2 ^ 22
      · exact ⟨21, Or.inl rfl, by omega, h22⟩
      · by_cases h23 : 2 ^ 24 - m < 2 ^ 23
        · exact ⟨22, Or.inr (Or.inl rfl), by omega, h23⟩
        · exact ⟨23, Or.inr (Or.inr ⟨rfl, by omega⟩), by omega, by omega⟩
    have hlog := log2_eq hlo hhi
    obtain ⟨hpos, hround⟩ := round_of_log2_le (n := 2 ^ 24 - m) (e := -24) (by omega)
      (by omega) (by omega)
    rw [hdiff, normalize_of_pos (n := 2 ^ 24 - m) (by omega) (by omega), hround] at hsub
    simp only [hlog] at hsub
    rcases hk with rfl | rfl | ⟨rfl, heq⟩
    · exact middle_of_pack hsub (by omega) (by omega) (Or.inl rfl)
    · exact middle_of_pack hsub (by omega) (by omega) (Or.inr (Or.inl rfl))
    · exact middle_of_pack hsub (by omega) (by omega) (Or.inr (Or.inr ⟨rfl, by omega⟩))

end F32
