import Cosim.Number.Shortest
import Mathlib.Tactic.Linarith
import Mathlib.Tactic.FieldSimp
import Mathlib.Tactic.Positivity
import Mathlib.Tactic.Ring
import Mathlib.Algebra.Order.Field.Rat

/-!
# Rounding to the nearest double

`Double.interval` gives the reals that round to a double.  The main result is
`Double.magnitudeOfRatio_eq`: every fraction in the interval of a finite double that is not zero
has the magnitude of that double as its nearest one.

A fraction is scaled to a power of two before it is rounded.  `Double.scaling_spec` says which power
that is, and the three cases of the main proof compare it with the exponent of the double.
-/

namespace Cosim.Double

/-! ## Doubles by their magnitude -/

theorem signBit_eq : signBit = 2 ^ 63 := by rfl

theorem infinityMagnitude_eq : infinityMagnitude = 2047 * 2 ^ 52 := by rfl

/-- A double is determined by its sign and its magnitude. -/
theorem ofMagnitude_self (x : Double) :
  ofMagnitude x.isNegative x.magnitude = x
  := by
  obtain ⟨bits⟩ := x
  have hbits : bits.toNat < 2 ^ 64 := bits.toNat_lt
  simp only [ofMagnitude, isNegative, magnitude, signBit_eq, mk.injEq]
  rw [← UInt64.toNat_inj, UInt64.toNat_ofNat']
  split
  · rename_i h
    simp only [decide_eq_true_eq] at h
    omega
  · rename_i h
    simp only [decide_eq_true_eq] at h
    omega

/-- The magnitude of a finite double from its exponent and its coefficient. -/
theorem magnitude_eq (x : Double) :
  x.magnitude = x.exponent * 2 ^ 52 + x.coefficient
  := by
  simp only [exponent, coefficient, Nat.pow_eq]
  split <;> omega

/-- A coefficient has at most 53 binary digits. -/
theorem coefficient_lt (x : Double) :
  x.coefficient < 2 ^ 53
  := by
  simp only [coefficient, Nat.pow_eq]
  split <;> omega

/-- Only the least exponent goes with coefficients of fewer than 53 bits. -/
theorem le_coefficient {x : Double} (h : 0 < x.exponent) :
  2 ^ 52 ≤ x.coefficient
  := by
  simp only [exponent, coefficient, Nat.pow_eq] at *
  split <;> omega

/-- A double other than zero has a coefficient other than zero. -/
theorem coefficient_pos {x : Double} (h : x.magnitude ≠ 0) :
  0 < x.coefficient
  := by
  simp only [coefficient, Nat.pow_eq]
  split <;> omega

/-- The exponent of a finite double is less than 2046. -/
theorem exponent_lt {x : Double} (h : x.magnitude < infinityMagnitude) :
  x.exponent < 2046
  := by
  simp only [exponent, Nat.pow_eq, infinityMagnitude_eq] at *
  omega

/-! ## Rounding to a natural number -/

/-- A fraction rounds to `n` if it is at most one half away from it, and nearer if `n` is odd. -/
theorem roundRatio_eq {a b n : Nat} (hlow : 2 * n * b ≤ 2 * a + b)
    (hhigh : 2 * a ≤ (2 * n + 1) * b)
    (hodd : n % 2 = 1 → 2 * n * b < 2 * a + b ∧ 2 * a < (2 * n + 1) * b) (hb : 0 < b) :
  roundRatio a b = n
  := by
  have hdiv : b * (a / b) + a % b = a := Nat.div_add_mod a b
  have hmod : a % b < b := Nat.mod_lt a hb
  simp only [roundRatio]
  generalize a / b = q at *
  generalize a % b = r at *
  subst hdiv
  -- the quotient is `n`, with a remainder of up to one half, or `n - 1`
  have hq : q = n ∨ q + 1 = n := by
    have hle : q < n + 1 := by
      by_contra hc
      have : (n + 1) * b ≤ q * b := Nat.mul_le_mul_right b (by omega)
      nlinarith
    have hge : n < q + 2 := by
      by_contra hc
      have : (q + 2) * b ≤ n * b := Nat.mul_le_mul_right b (by omega)
      nlinarith
    omega
  rcases hq with rfl | rfl
  · have hr : 2 * r ≤ b := by nlinarith
    have hr' : q % 2 = 1 → 2 * r < b := by
      intro h
      have := (hodd h).2
      nlinarith
    rw [if_neg]
    simp only [Bool.or_eq_true, Bool.and_eq_true, decide_eq_true_eq, beq_iff_eq]
    rintro (h | ⟨h, hq⟩)
    · omega
    · have := hr' hq
      omega
  · have hr : b ≤ 2 * r := by nlinarith
    have hr' : q % 2 = 0 → b < 2 * r := by
      intro h
      have := (hodd (by omega)).1
      nlinarith
    rw [if_pos]
    simp only [Bool.or_eq_true, Bool.and_eq_true, decide_eq_true_eq, beq_iff_eq]
    by_cases h : b < 2 * r
    · left
      apply h
    · right
      constructor
      · omega
      · by_contra hq
        have := hr' (by omega)
        omega

/-- Rounding depends on the value of the fraction alone. -/
theorem roundRatio_mul {a b k : Nat} (hk : 0 < k) :
  roundRatio (a * k) (b * k) = roundRatio a b
  := by
  have htwice : ∀ m n : Nat, (n * k < 2 * (m * k) ↔ n < 2 * m) ∧ (n * k = 2 * (m * k) ↔ n = 2 * m)
    := by
    intro m n
    rw [← Nat.mul_assoc]
    constructor
    · apply Nat.mul_lt_mul_right hk
    · apply Nat.mul_left_inj (by omega)
  simp only [roundRatio, Nat.mul_div_mul_right _ _ hk, Nat.mul_mod_mul_right, htwice,
    Bool.beq_eq_decide_eq]

/-! ## Scaling -/

/-- The least positive double is two to minus this. -/
@[irreducible]
def leastPlace : Nat := 1074

theorem leastPlace_eq :
  leastPlace = 1074
  := by rw [leastPlace]

/-- A numerator in units of the least positive double. -/
def units (num : Nat) : Nat := num * 2 ^ leastPlace

/-- What is not zero has units. -/
theorem units_pos {num : Nat} (h : 0 < num) :
  0 < units num
  := by
  rw [units]
  positivity

/-- A scaled fraction over a common numerator. -/
theorem exists_scaled (num den : Nat) {shift : Int} (h : -1074 ≤ shift) :
  ∃ k, 0 < k ∧ (scaled num den shift).1 * k = units num ∧
    (scaled num den shift).2 * k = den * 2 ^ (shift + 1074).toNat
  := by
  have hleast := leastPlace_eq
  by_cases hs : 0 ≤ shift
  · use 2 ^ leastPlace
    simp only [scaled, units, if_pos hs, Nat.pow_eq, Nat.mul_assoc, ← Nat.pow_add]
    refine ⟨by positivity, trivial, ?_⟩
    congr 2
    omega
  · use 2 ^ (shift + 1074).toNat
    simp only [scaled, units, if_neg hs, Nat.pow_eq, Nat.mul_assoc, ← Nat.pow_add]
    refine ⟨by positivity, ?_, trivial⟩
    congr 2
    omega

/-- The quotient of a scaled fraction. -/
theorem scaled_div (num den : Nat) {shift : Int} (h : -1074 ≤ shift) :
  (scaled num den shift).1 / (scaled num den shift).2
    = units num / (den * 2 ^ (shift + 1074).toNat)
  := by
  obtain ⟨k, hk, hnum, hden⟩ := exists_scaled num den h
  rw [← hnum, ← hden, Nat.mul_div_mul_right _ _ hk]

/-- A scaled ratio is rounded as the same ratio in units. -/
theorem roundRatio_scaled (num den : Nat) {shift : Int} (h : -1074 ≤ shift) :
  roundRatio (scaled num den shift).1 (scaled num den shift).2
    = roundRatio (units num) (den * 2 ^ (shift + 1074).toNat)
  := by
  obtain ⟨k, hk, hnum, hden⟩ := exists_scaled num den h
  rw [← hnum, ← hden, roundRatio_mul hk]

/-- The number of bits of a quotient of natural numbers, up to one. -/
theorem log2_bounds {num den : Nat} (hnum : 0 < num) (hden : 0 < den) :
  2 ^ num.log2 * den < num * 2 ^ (den.log2 + 1) ∧ num * 2 ^ den.log2 < 2 ^ (num.log2 + 1) * den
  := by
  have hnum₁ : 2 ^ num.log2 ≤ num := Nat.log2_self_le (by omega)
  have hnum₂ : num < 2 ^ (num.log2 + 1) := Nat.lt_log2_self
  have hden₁ : 2 ^ den.log2 ≤ den := Nat.log2_self_le (by omega)
  have hden₂ : den < 2 ^ (den.log2 + 1) := Nat.lt_log2_self
  constructor
  · calc 2 ^ num.log2 * den ≤ num * den := Nat.mul_le_mul_right _ hnum₁
      _ < num * 2 ^ (den.log2 + 1) := Nat.mul_lt_mul_of_pos_left hden₂ hnum
  · calc num * 2 ^ den.log2 ≤ num * den := Nat.mul_le_mul_left _ hden₁
      _ < 2 ^ (num.log2 + 1) * den := Nat.mul_lt_mul_of_pos_right hnum₂ hden

/-- The first guess at the scaling of a fraction leaves 53 or 54 bits before the point. -/
theorem guess_bounds {num den g m : Nat} (hnum : 0 < num) (hden : 0 < den)
    (hg : g + den.log2 = num.log2 + m) :
  2 ^ 52 * (den * 2 ^ g) < num * 2 ^ (m + 53) ∧ num * 2 ^ (m + 53) < 2 ^ 54 * (den * 2 ^ g)
  := by
  obtain ⟨hlow, hhigh⟩ := log2_bounds hnum hden
  have hpow : 2 ^ g * 2 ^ den.log2 = 2 ^ num.log2 * 2 ^ m := by
    rw [← Nat.pow_add, ← Nat.pow_add, hg]
  constructor
  · apply Nat.lt_of_mul_lt_mul_right (a := 2 ^ den.log2)
    calc 2 ^ 52 * (den * 2 ^ g) * 2 ^ den.log2
        = 2 ^ 52 * den * (2 ^ g * 2 ^ den.log2) := by ring
      _ = (2 ^ num.log2 * den) * 2 ^ (m + 52) := by rw [hpow]; ring
      _ < (num * 2 ^ (den.log2 + 1)) * 2 ^ (m + 52) :=
          Nat.mul_lt_mul_of_pos_right hlow (by positivity)
      _ = num * 2 ^ (m + 53) * 2 ^ den.log2 := by ring
  · apply Nat.lt_of_mul_lt_mul_right (a := 2 ^ den.log2)
    calc num * 2 ^ (m + 53) * 2 ^ den.log2
        = (num * 2 ^ den.log2) * 2 ^ (m + 53) := by ring
      _ < (2 ^ (num.log2 + 1) * den) * 2 ^ (m + 53) :=
          Nat.mul_lt_mul_of_pos_right hhigh (by positivity)
      _ = 2 ^ 54 * den * (2 ^ num.log2 * 2 ^ m) := by ring
      _ = 2 ^ 54 * (den * 2 ^ g) * 2 ^ den.log2 := by rw [← hpow]; ring

/-- A guess from the lengths in binary digits is right up to a factor of two on either side. -/
theorem guess_units {num den g : Nat} (hnum : 0 < num) (hden : 0 < den)
    (hg : g + den.log2 = num.log2 + 1021) :
  2 ^ 52 * (den * 2 ^ g) < units num ∧ units num < 2 ^ 54 * (den * 2 ^ g)
  := by
  have h := guess_bounds hnum hden hg
  rw [show 1021 + 53 = leastPlace from leastPlace_eq.symm] at h
  apply h

/-- A fraction far below one needs no scaling beyond the least one. -/
theorem lt_of_log2_lt {num den m : Nat} (hnum : 0 < num) (hden : 0 < den)
    (hlog : num.log2 + m < den.log2) :
  num * 2 ^ (m + 53) < 2 ^ 53 * den
  := by
  apply Nat.lt_of_mul_lt_mul_right (a := 2 ^ (num.log2 + 1))
  calc num * 2 ^ (m + 53) * 2 ^ (num.log2 + 1)
      = num * 2 ^ (num.log2 + m + 1) * 2 ^ 53 := by ring
    _ ≤ num * 2 ^ den.log2 * 2 ^ 53 := by
        apply Nat.mul_le_mul_right
        apply Nat.mul_le_mul_left
        apply Nat.pow_le_pow_right (by decide) hlog
    _ < 2 ^ (num.log2 + 1) * den * 2 ^ 53 :=
        Nat.mul_lt_mul_of_pos_right (log2_bounds hnum hden).2 (by positivity)
    _ = 2 ^ 53 * den * 2 ^ (num.log2 + 1) := by ring

/-- A small ratio has few units. -/
theorem units_lt {num den : Nat} (hnum : 0 < num) (hden : 0 < den)
    (hlog : num.log2 + 1021 < den.log2) :
  units num < 2 ^ 53 * den
  := by
  have h := lt_of_log2_lt hnum hden hlog
  rw [show 1021 + 53 = leastPlace from leastPlace_eq.symm] at h
  apply h

/-- The scaling of a fraction leaves at most 53 bits before the point, and exactly 53 unless it is
the least one. -/
theorem scaling_spec {num den : Nat} (hnum : 0 < num) (hden : 0 < den) :
  ∃ t : Nat, scaling num den = (t : Int) - 1074 ∧
    units num < 2 ^ 53 * (den * 2 ^ t) ∧ (t = 0 ∨ 2 ^ 52 * (den * 2 ^ t) ≤ units num)
  := by
  obtain ⟨g, hg⟩ : ∃ g : Nat, max (-1074) ((num.log2 : Int) - den.log2 - 53) = (g : Int) - 1074 :=
    ⟨(max (-1074) ((num.log2 : Int) - den.log2 - 53) + 1074).toNat, by omega⟩
  have htoNat : ((g : Int) - 1074 + 1074).toNat = g := by omega
  have hiff : units num / (den * 2 ^ g) < 2 ^ 53 ↔ units num < 2 ^ 53 * (den * 2 ^ g) :=
    Nat.div_lt_iff_lt_mul (by positivity)
  simp only [scaling, hg, scaled_div _ _ (show -1074 ≤ (g : Int) - 1074 by omega), htoNat,
    Nat.pow_eq, hiff]
  by_cases hsmall : units num < 2 ^ 53 * (den * 2 ^ g)
  · use g
    refine ⟨if_pos hsmall, hsmall, ?_⟩
    by_cases hzero : g = 0
    · left
      apply hzero
    · right
      apply Nat.le_of_lt (guess_units hnum hden (by omega)).1
  · use g + 1
    -- at the least scaling the guess would have been small enough
    have hguess : g + den.log2 = num.log2 + 1021 := by
      by_contra hne
      have hzero : g = 0 := by omega
      apply hsmall
      rw [hzero, Nat.pow_zero, Nat.mul_one]
      apply units_lt hnum hden
      omega
    have hhigh := (guess_units hnum hden hguess).2
    rw [if_neg hsmall]
    have hpow : den * 2 ^ (g + 1) = 2 * (den * 2 ^ g) := by ring
    omega

/-! ## Fractions in the interval of a double -/

/-- A real number that rounds to a double with a given interval. -/
def Interval.Holds (i : Interval) (r : ℚ) : Prop :=
  if i.closed then i.low ≤ r * i.denominator ∧ r * i.denominator ≤ i.high
  else i.low < r * i.denominator ∧ r * i.denominator < i.high

/-- The interval of a double is given in quarters of units. -/
theorem denominator_interval (x : Double) :
  x.interval.denominator = units 4
  := by
  have hplace : 1076 = leastPlace + 2 := by rw [leastPlace_eq]
  simp only [interval, units, hplace, Nat.pow_eq]
  ring

/-- A fraction in the interval of a double, in natural numbers. -/
theorem holds_div_iff {x : Double} {num den : Nat} (hden : 0 < den) :
  x.interval.Holds ((num : ℚ) / den) ↔
    if x.coefficient % 2 = 0 then
      x.interval.low * den ≤ 4 * (units num) ∧ 4 * (units num) ≤ x.interval.high * den
    else
      x.interval.low * den < 4 * (units num) ∧ 4 * (units num) < x.interval.high * den
  := by
  have hpos : (0 : ℚ) < den := by exact_mod_cast hden
  have hvalue : (num : ℚ) / den * x.interval.denominator = 4 * units num / den := by
    rw [denominator_interval, units, units]
    push_cast
    ring
  rw [Interval.Holds, hvalue, le_div_iff₀ hpos, div_le_iff₀ hpos, lt_div_iff₀ hpos,
    div_lt_iff₀ hpos]
  simp only [show x.interval.closed = (x.coefficient % 2 == 0) from rfl, beq_iff_eq]
  norm_cast

/-- The bounds of the interval of a double in units of a quarter of its last bit. -/
theorem interval_bounds (x : Double) :
  ∃ below, x.interval.low = (4 * x.coefficient - below) * 2 ^ x.exponent ∧
    x.interval.high = (4 * x.coefficient + 2) * 2 ^ x.exponent ∧
    (below = 2 ∨ (below = 1 ∧ x.coefficient = 2 ^ 52 ∧ 0 < x.exponent)) ∧
    (0 < x.exponent → x.coefficient = 2 ^ 52 → below = 1)
  := by
  refine ⟨_, rfl, rfl, ?_, ?_⟩
  · split
    · rename_i h
      right
      simpa [Nat.pow_eq] using h
    · left
      rfl
  · intro hexponent hcoefficient
    simp [hexponent, hcoefficient, Nat.pow_eq]

/-- A fraction in the interval of a double lies at most half its last bit away from it, and less
below a power of two. -/
theorem bounds_of_holds {x : Double} {num den : Nat} (hden : 0 < den)
    (h : x.interval.Holds ((num : ℚ) / den)) :
  let unit := den * 2 ^ x.exponent
  let n := units num
  2 * x.coefficient * unit ≤ 2 * n + unit ∧ 2 * n ≤ (2 * x.coefficient + 1) * unit ∧
    (x.coefficient % 2 = 1 →
      2 * x.coefficient * unit < 2 * n + unit ∧ 2 * n < (2 * x.coefficient + 1) * unit) ∧
    (0 < x.exponent → x.coefficient = 2 ^ 52 → (2 ^ 54 - 1) * unit ≤ 4 * n)
  := by
  intro unit n
  rw [holds_div_iff hden] at h
  obtain ⟨below, hlow, hhigh, hbelow, hpower⟩ := interval_bounds x
  have hlow' : x.interval.low * den = (4 * x.coefficient - below) * unit := by
    rw [hlow, Nat.mul_assoc, Nat.mul_comm (2 ^ _)]
  have hhigh' : x.interval.high * den = (4 * x.coefficient + 2) * unit := by
    rw [hhigh, Nat.mul_assoc, Nat.mul_comm (2 ^ _)]
  rw [hlow', hhigh'] at h
  have hweaken : (4 * x.coefficient - 2) * unit ≤ (4 * x.coefficient - below) * unit := by
    apply Nat.mul_le_mul_right
    omega
  have hsub : (4 * x.coefficient - 2) * unit + 2 * unit ≥ 4 * x.coefficient * unit := by
    rw [← Nat.add_mul]
    apply Nat.mul_le_mul_right
    omega
  have hle : (4 * x.coefficient - below) * unit ≤ 4 * n ∧ 4 * n ≤ (4 * x.coefficient + 2) * unit := by
    split at h
    · apply h
    · apply And.intro (Nat.le_of_lt h.1) (Nat.le_of_lt h.2)
  refine ⟨by linarith, by linarith, ?_, ?_⟩
  · intro hodd
    rw [if_neg (by omega)] at h
    change _ < 4 * n ∧ 4 * n < _ at h
    constructor
    · linarith
    · linarith
  · intro hexponent hcoefficient
    rw [hpower hexponent hcoefficient, hcoefficient] at hle
    apply hle.1

/-- A fraction in the interval of a double that is scaled by less than the exponent of the double
lies just below a power of two, and its rounding carries over. -/
theorem roundRatio_carry {x : Double} {n den t : Nat} (hden : 0 < den) (ht : t < x.exponent)
    (hlow : 2 * x.coefficient * (den * 2 ^ x.exponent) ≤ 2 * n + den * 2 ^ x.exponent)
    (hpower : 0 < x.exponent → x.coefficient = 2 ^ 52 →
      (2 ^ 54 - 1) * (den * 2 ^ x.exponent) ≤ 4 * n)
    (hupper : n < 2 ^ 53 * (den * 2 ^ t)) :
  t * 2 ^ 52 + roundRatio n (den * 2 ^ t) = x.magnitude
  := by
  have hpos : 0 < den * 2 ^ t := by positivity
  have hunit : ∀ k, t + k ≤ x.exponent → 2 ^ k * (den * 2 ^ t) ≤ den * 2 ^ x.exponent := by
    intro k hk
    calc 2 ^ k * (den * 2 ^ t) = den * 2 ^ (t + k) := by ring
      _ ≤ den * 2 ^ x.exponent :=
          Nat.mul_le_mul_left _ (Nat.pow_le_pow_right (by decide) hk)
  have hcoefficient : x.coefficient = 2 ^ 52 := by
    have := le_coefficient (x := x) (by omega)
    by_contra hne
    have h1 := hunit 1 ht
    have : (2 ^ 53 + 2) * (den * 2 ^ x.exponent) ≤ 2 * x.coefficient * (den * 2 ^ x.exponent) := by
      apply Nat.mul_le_mul_right
      omega
    omega
  have hexponent : x.exponent = t + 1 := by
    by_contra hne
    have h2 := hunit 2 (by omega)
    have := hpower (by omega) hcoefficient
    omega
  have hbelow := hpower (by omega) hcoefficient
  have hdouble : den * 2 ^ (t + 1) = 2 * (den * 2 ^ t) := by ring
  rw [hexponent, hdouble] at hbelow
  have hround : roundRatio n (den * 2 ^ t) = 2 ^ 53 := by
    apply roundRatio_eq
    · omega
    · omega
    · intro h
      norm_num at h
    · apply hpos
  rw [hround, magnitude_eq, hexponent, hcoefficient]
  ring

/-- A fraction in the interval of a double that is not zero has the magnitude of that double as its
nearest one. -/
theorem magnitudeOfRatio_eq {x : Double} {num den : Nat} (hfinite : x.isFinite)
    (hzero : x.magnitude ≠ 0) (hden : 0 < den) (h : x.interval.Holds ((num : ℚ) / den)) :
  magnitudeOfRatio num den = x.magnitude
  := by
  simp only [isFinite, decide_eq_true_eq] at hfinite
  obtain ⟨hlow, hhigh, hodd, hpower⟩ := bounds_of_holds hden h
  have hcoefficient := coefficient_lt x
  have hpositive := coefficient_pos hzero
  have hunit : 0 < den * 2 ^ x.exponent := by positivity
  have hnum : 0 < num := by
    apply Nat.pos_of_ne_zero
    rintro rfl
    rw [units, Nat.zero_mul] at hlow
    nlinarith
  obtain ⟨t, ht, hupper, hfull⟩ := scaling_spec hnum hden
  have htoNat : ((t : Int) - 1074 + 1074).toNat = t := by omega
  have hround : magnitudeOfRatio num den
      = min infinityMagnitude (t * 2 ^ 52 + roundRatio (units num) (den * 2 ^ t)) := by
    simp only [magnitudeOfRatio, ht, roundRatio_scaled _ _ (show -1074 ≤ (t : Int) - 1074 by omega),
      htoNat, beq_iff_eq, if_neg (Nat.ne_of_gt hnum), Nat.pow_eq]
  rw [hround]
  rcases Nat.lt_trichotomy t x.exponent with hlt | heq | hgt
  · rw [roundRatio_carry hden hlt hlow hpower hupper]
    apply Nat.min_eq_right (Nat.le_of_lt hfinite)
  · rw [heq, roundRatio_eq hlow hhigh hodd hunit, ← magnitude_eq]
    apply Nat.min_eq_right (Nat.le_of_lt hfinite)
  · -- scaled by more, the fraction would lie above all numbers of 53 bits with the exponent
    exfalso
    have hpow : 2 ^ (x.exponent + 1) ≤ 2 ^ t := Nat.pow_le_pow_right (by decide) hgt
    have hdouble : 2 * (den * 2 ^ x.exponent) ≤ den * 2 ^ t := by
      calc 2 * (den * 2 ^ x.exponent) = den * 2 ^ (x.exponent + 1) := by ring
        _ ≤ den * 2 ^ t := Nat.mul_le_mul_left _ hpow
    have hcap : (2 * x.coefficient + 1) * (den * 2 ^ x.exponent)
        ≤ (2 ^ 54 - 1) * (den * 2 ^ x.exponent) := by
      apply Nat.mul_le_mul_right
      omega
    have := hfull.resolve_left (by omega)
    omega

/-- Every fraction in the interval of a double rounds to it, up to the sign. -/
theorem ofRatio_eq {x : Double} {num den : Nat} (hfinite : x.isFinite) (hzero : x.magnitude ≠ 0)
    (hden : 0 < den) (h : x.interval.Holds ((num : ℚ) / den)) :
  ofRatio x.isNegative num den = x
  := by
  rw [ofRatio, magnitudeOfRatio_eq hfinite hzero hden h, ofMagnitude_self]

end Cosim.Double
