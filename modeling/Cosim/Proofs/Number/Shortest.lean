import Cosim.Proofs.Number.Rounding

/-!
# Shortest decimals round back

A decimal with seventeen digits lies in the interval of every finite double, so the search for a
shortest one succeeds (`Double.isNearest_shortest`), and every decimal in the interval is read as
that double again (`Double.ofDecimal_eq`).
-/

namespace Cosim

namespace Decimal

/-- The rational number that a decimal stands for. -/
def value (d : Decimal) : ℚ := d.digits * (10 : ℚ) ^ d.exponent

theorem zpow_eq_div (e : Int) :
  (10 : ℚ) ^ e = 10 ^ e.toNat / 10 ^ (-e).toNat
  := by
  rcases Int.le_total 0 e with h | h
  · have hneg : (-e).toNat = 0 := by omega
    rw [hneg, pow_zero, div_one, ← zpow_natCast, Int.toNat_of_nonneg h]
  · have hpos : e.toNat = 0 := by omega
    rw [hpos, pow_zero, one_div, ← zpow_natCast, Int.toNat_of_nonneg (by omega), zpow_neg, inv_inv]

theorem value_eq_div (d : Decimal) :
  d.value = ((d.digits * 10 ^ d.exponent.toNat : Nat) : ℚ) / ((10 ^ (-d.exponent).toNat : Nat) : ℚ)
  := by
  rw [value, zpow_eq_div]
  push_cast
  ring

theorem value_stripZeros (bound : Nat) (d : Decimal) :
  (stripZeros bound d).value = d.value
  := by
  induction bound generalizing d with
  | zero => rfl
  | succ bound ih =>
    rw [stripZeros]
    split
    · rename_i h
      simp only [Bool.and_eq_true, beq_iff_eq] at h
      obtain ⟨n, hn⟩ := Nat.dvd_of_mod_eq_zero h.1
      rw [ih, value, value, hn, Nat.mul_div_cancel_left _ (by decide), zpow_add_one₀ (by norm_num)]
      push_cast
      ring
    · rfl

end Decimal

namespace Double

/-! ## Decimals in an interval -/

theorem contains_iff {i : Interval} {d : Decimal} :
  i.contains d = true ↔ i.Holds d.value
  := by
  have hdown : (0 : ℚ) < 10 ^ (-d.exponent).toNat := by positivity
  have hvalue : d.value * i.denominator
      = d.digits * 10 ^ d.exponent.toNat * i.denominator / 10 ^ (-d.exponent).toNat := by
    rw [Decimal.value, Decimal.zpow_eq_div]
    ring
  rw [Interval.Holds, Interval.contains, hvalue, le_div_iff₀ hdown, div_le_iff₀ hdown,
    lt_div_iff₀ hdown, div_lt_iff₀ hdown]
  simp only [Nat.pow_eq]
  split
  · rw [Bool.and_eq_true, decide_eq_true_eq, decide_eq_true_eq]
    norm_cast
  · rw [Bool.and_eq_true, decide_eq_true_eq, decide_eq_true_eq]
    norm_cast

/-- A number strictly between the bounds is in the interval, whether these count or not. -/
theorem Interval.holds_of_lt {i : Interval} {r : ℚ} (hlow : i.low < r * i.denominator)
    (hhigh : r * i.denominator < i.high) :
  i.Holds r
  := by
  rw [Interval.Holds]
  split
  · apply And.intro hlow.le hhigh.le
  · apply And.intro hlow hhigh

theorem Interval.bounds {i : Interval} {r : ℚ} (h : i.Holds r) :
  i.low ≤ r * i.denominator ∧ r * i.denominator ≤ i.high
  := by
  rw [Interval.Holds] at h
  split at h
  · apply h
  · apply And.intro h.1.le h.2.le

/-! ## The search for a shortest decimal -/

/-- The bounds of the interval of a double that is not zero, as rational numbers. -/
theorem interval_rat {x : Double} (hzero : x.magnitude ≠ 0) :
  ∃ below last : ℚ, 1 ≤ last ∧ (x.interval.value : ℚ) = 4 * x.coefficient * last ∧
    (x.interval.low : ℚ) = x.interval.value - below * last ∧
    (x.interval.high : ℚ) = x.interval.value + 2 * last ∧
    (below = 2 ∨ (below = 1 ∧ x.coefficient = 2 ^ 52))
  := by
  obtain ⟨below, hlow, hhigh, hbelow, -⟩ := interval_bounds x
  have hpositive := coefficient_pos hzero
  have hsub : below ≤ 4 * x.coefficient := by omega
  have hvalue : (x.interval.value : ℚ) = 4 * x.coefficient * 2 ^ x.exponent := by
    simp only [interval, Nat.pow_eq]
    push_cast
    rfl
  use below, 2 ^ x.exponent
  refine ⟨one_le_pow₀ (by norm_num), hvalue, ?_, ?_, ?_⟩
  · rw [hlow, hvalue]
    push_cast [hsub]
    ring
  · rw [hhigh, hvalue]
    push_cast
    ring
  · rcases hbelow with rfl | ⟨rfl, h, -⟩
    · left
      norm_num
    · right
      exact ⟨by norm_num, h⟩

/-- A positive natural number is at least the power of ten of its leading digit. -/
theorem pow_length_toDigits_le {n : Nat} (h : 0 < n) :
  10 ^ ((Nat.toDigits 10 n).length - 1) ≤ n
  := by
  by_cases hone : (Nat.toDigits 10 n).length = 1
  · simpa [hone] using Nat.succ_le_of_lt h
  · by_contra hlt
    have hpos := Nat.length_toDigits_pos (b := 10) (n := n)
    have := (Nat.length_toDigits_le_iff (by decide) (by omega)).mpr (Nat.not_le.mp hlt)
    omega

/-- The least positive double has fewer than this number of zeros behind the point. -/
@[irreducible]
def leastDecimalPlace : Nat := 330

theorem leastDecimalPlace_eq :
  leastDecimalPlace = 330
  := by rw [leastDecimalPlace]

theorem units_le (n : Nat) :
  units n ≤ n * Nat.pow 10 leastDecimalPlace
  := by
  have h : (2 ^ 179) ^ 6 ≤ (10 ^ 55) ^ 6 := Nat.pow_le_pow_left (by norm_num) 6
  rw [← Nat.pow_mul, ← Nat.pow_mul, show 179 * 6 = leastPlace from leastPlace_eq.symm,
    show 55 * 6 = leastDecimalPlace from leastDecimalPlace_eq.symm] at h
  apply Nat.mul_le_mul_left _ h

theorem leading_le {value denominator k : Nat} (h : denominator ≤ value * Nat.pow 10 k)
    (hpos : 0 < denominator) {l : Nat}
    (hl : l = (Nat.toDigits 10 (value * Nat.pow 10 k / denominator)).length) :
  (10 : ℚ) ^ ((l : Int) - 1 - k) * denominator ≤ value
  := by
  have hpow := pow_length_toDigits_le (Nat.div_pos h hpos)
  have hlength : 0 < l := hl ▸ Nat.length_toDigits_pos
  rw [← hl, Nat.le_div_iff_mul_le hpos, Nat.pow_eq] at hpow
  have hexponent : (l : Int) - 1 = ((l - 1 : Nat) : Int) := by omega
  rw [hexponent, zpow_sub₀ (by norm_num), zpow_natCast, zpow_natCast, div_mul_eq_mul_div,
    div_le_iff₀ (by positivity)]
  exact_mod_cast hpow

/-- The leading digit of the value of an interval stands for at most that value. -/
theorem leading_spec {x : Double} (hzero : x.magnitude ≠ 0) :
  (10 : ℚ) ^ x.interval.leading * x.interval.denominator ≤ x.interval.value
  := by
  have hpositive := coefficient_pos hzero
  have hlast : 0 < 2 ^ x.exponent := by positivity
  have hlarge : x.interval.denominator ≤ x.interval.value * Nat.pow 10 leastDecimalPlace := by
    rw [denominator_interval]
    apply Nat.le_trans (units_le 4)
    apply Nat.mul_le_mul_right
    change 4 ≤ 4 * x.coefficient * 2 ^ x.exponent
    nlinarith
  have hpos : 0 < x.interval.denominator := by
    rw [denominator_interval]
    apply units_pos (by decide)
  have h := leading_le hlarge hpos rfl
  have hplace : (1 : Int) + leastDecimalPlace = 331 := by
    rw [leastDecimalPlace_eq]
    norm_num
  rw [sub_sub, hplace] at h
  simp only [Interval.leading, ← leastDecimalPlace_eq]
  apply h

/-- Seventeen digits tell doubles apart: the step from one such decimal to the next is less than
four times a quarter of the last bit. -/
theorem step_le {x : Double} (hzero : x.magnitude ≠ 0) :
  (10 : ℚ) ^ (x.interval.leading - 16) * x.interval.denominator * 10 ^ 16 ≤ x.interval.value
  := by
  have hleading := leading_spec hzero
  generalize (x.interval.denominator : ℚ) = d at *
  calc (10 : ℚ) ^ (x.interval.leading - 16) * d * 10 ^ 16
      = 10 ^ (x.interval.leading - 16) * 10 ^ (16 : Int) * d := by
        rw [mul_right_comm]
        norm_cast
    _ = 10 ^ x.interval.leading * d := by rw [← zpow_add₀ (by norm_num), sub_add_cancel]
    _ ≤ x.interval.value := hleading

/-- The lower neighbour and its distance from the value, in steps. -/
theorem neighbour_values {i : Interval} {e : Int} (hpos : 0 < i.denominator) :
  let lower := i.value * Nat.pow 10 (-e).toNat / (i.denominator * Nat.pow 10 e.toNat)
  let step := (10 : ℚ) ^ e * i.denominator
  lower * step ≤ i.value ∧ (i.value : ℚ) < (lower + 1) * step
  := by
  intro lower step
  have hup : (0 : ℚ) < 10 ^ e.toNat := by positivity
  have hdown : (0 : ℚ) < 10 ^ (-e).toNat := by positivity
  have hden : 0 < i.denominator * 10 ^ e.toNat := by positivity
  have hstep : step * 10 ^ (-e).toNat = i.denominator * 10 ^ e.toNat := by
    simp only [step]
    rw [Decimal.zpow_eq_div]
    field_simp
  have hlow : lower * (i.denominator * 10 ^ e.toNat) ≤ i.value * 10 ^ (-e).toNat :=
    Nat.div_mul_le_self _ _
  have hhigh : i.value * 10 ^ (-e).toNat < (lower + 1) * (i.denominator * 10 ^ e.toNat) :=
    (Nat.div_lt_iff_lt_mul hden).mp (Nat.lt_succ_self _)
  constructor
  · apply le_of_mul_le_mul_right _ hdown
    rw [mul_assoc, hstep]
    exact_mod_cast hlow
  · apply lt_of_mul_lt_mul_right _ hdown.le
    rw [mul_assoc, hstep]
    exact_mod_cast hhigh

/-- Of two neighbours that are closer to each other than the bounds are to the value, one lies
between the bounds. -/
theorem between_of_step {c last below step value low high lower : ℚ} (hc : c ≤ 2 ^ 53)
    (hlast : 1 ≤ last) (hvalue : value = 4 * c * last) (hlow : low = value - below * last)
    (hhigh : high = value + 2 * last) (hbelow : below = 2 ∨ (below = 1 ∧ c = 2 ^ 52))
    (hstep : step * 10 ^ 16 ≤ value) (hle : lower * step ≤ value)
    (hlt : value < (lower + 1) * step) :
  (low < lower * step ∧ lower * step < high) ∨
    (low < (lower + 1) * step ∧ (lower + 1) * step < high)
  := by
  -- half a step is less than the distance of either bound
  have hhalf : step < 2 * (below * last) ∧ step < 2 * (2 * last) := by
    rcases hbelow with rfl | ⟨rfl, hpower⟩
    · constructor
      · nlinarith
      · nlinarith
    · rw [hpower] at hvalue
      constructor
      · linarith
      · linarith
  by_cases hnear : value - lower * step ≤ step / 2
  · left
    constructor
    · linarith
    · linarith
  · right
    have hbelow : 0 < below * last := by
      rcases hbelow with rfl | ⟨rfl, -⟩
      · linarith
      · linarith
    constructor
    · linarith
    · linarith

/-- One of the two neighbours with seventeen digits is in the interval. -/
theorem neighbour_isSome {x : Double} (tie : Tie) (hzero : x.magnitude ≠ 0) :
  (x.interval.neighbour tie (x.interval.leading - 16)).isSome
  := by
  obtain ⟨below, last, hlast, hvalue, hlow, hhigh, hbelow⟩ := interval_rat hzero
  have hcoefficient : (x.coefficient : ℚ) ≤ 2 ^ 53 := by exact_mod_cast (coefficient_lt x).le
  have hpos : 0 < x.interval.denominator := by
    rw [denominator_interval]
    apply units_pos (by decide)
  have hbelow' : below = 2 ∨ (below = 1 ∧ (x.coefficient : ℚ) = 2 ^ 52) := by
    apply hbelow.imp_right
    intro h
    exact ⟨h.1, by exact_mod_cast h.2⟩
  obtain ⟨hle, hlt⟩ := neighbour_values (e := x.interval.leading - 16) hpos
  have hbetween := between_of_step hcoefficient hlast hvalue hlow hhigh hbelow' (step_le hzero) hle hlt
  simp only [Interval.neighbour]
  split
  · rfl
  · rfl
  · rfl
  · rename_i hlower hupper
    exfalso
    rw [Bool.eq_false_iff, ne_eq, contains_iff] at hlower hupper
    rcases hbetween with h | h
    · apply hlower
      apply Interval.holds_of_lt
      · rw [Decimal.value, mul_assoc]
        apply h.1
      · rw [Decimal.value, mul_assoc]
        apply h.2
    · apply hupper
      apply Interval.holds_of_lt
      · rw [Decimal.value, mul_assoc, Nat.cast_add_one]
        apply h.1
      · rw [Decimal.value, mul_assoc, Nat.cast_add_one]
        apply h.2

/-- A neighbour that is found is in the interval. -/
theorem holds_of_neighbour {i : Interval} {tie : Tie} {e : Int} {d : Decimal}
    (h : i.neighbour tie e = some d) :
  i.Holds d.value
  := by
  rw [← contains_iff]
  simp only [Interval.neighbour] at h
  split at h
  · simp only [Option.some.injEq] at h
    subst h
    split <;> assumption
  · simp only [Option.some.injEq] at h
    subst h
    assumption
  · simp only [Option.some.injEq] at h
    subst h
    assumption
  · cases h

/-- A finite double is the nearest one to a rational number, up to the sign. -/
def IsNearest (x : Double) (r : ℚ) : Prop :=
  if x.magnitude = 0 then r = 0 else x.interval.Holds r

/-- The shortest decimal of a double rounds to that double. -/
theorem isNearest_shortest (tie : Tie) (x : Double) :
  x.IsNearest (x.shortest tie).value
  := by
  by_cases hzero : x.magnitude = 0
  · have hs : x.shortest tie = ⟨0, 0⟩ := if_pos (by simpa [isZero] using hzero)
    rw [IsNearest, if_pos hzero, hs]
    simp [Decimal.value]
  · rw [IsNearest, if_neg hzero, show x.shortest tie = _ from if_neg (by simpa [isZero] using hzero)]
    simp only [Decimal.value_stripZeros]
    have hfound : ((List.range 17).findSome? fun (n : Nat) =>
        x.interval.neighbour tie (x.interval.leading - n)).isSome := by
      rw [List.findSome?_isSome_iff]
      exact ⟨16, by simp, neighbour_isSome tie hzero⟩
    obtain ⟨d, hd⟩ := Option.isSome_iff_exists.mp hfound
    rw [hd, Option.getD_some]
    obtain ⟨n, -, hn⟩ := List.exists_of_findSome?_eq_some hd
    apply holds_of_neighbour hn

/-! ## Reading decimals -/

/-- A decimal with digits lies between the powers of ten at its point. -/
theorem value_bounds {d : Decimal} (h : d.digits ≠ 0) :
  (10 : ℚ) ^ (d.point - 1) ≤ d.value ∧ d.value < 10 ^ d.point
  := by
  have hlength : 0 < d.digitList.length := Nat.length_toDigits_pos
  have hlow : 10 ^ (d.digitList.length - 1) ≤ d.digits :=
    pow_length_toDigits_le (Nat.pos_of_ne_zero h)
  have hhigh : d.digits < 10 ^ d.digitList.length :=
    (Nat.length_toDigits_le_iff (by decide) hlength).mp (Nat.le_refl _)
  have hpos : (0 : ℚ) < 10 ^ d.exponent := zpow_pos (by norm_num) _
  have hpoint : d.point - 1 = ((d.digitList.length - 1 : Nat) : Int) + d.exponent := by
    rw [Decimal.point]
    omega
  constructor
  · rw [hpoint, zpow_add₀ (by norm_num), zpow_natCast, Decimal.value]
    apply mul_le_mul_of_nonneg_right _ hpos.le
    exact_mod_cast hlow
  · rw [Decimal.point, zpow_add₀ (by norm_num), zpow_natCast, Decimal.value]
    apply mul_lt_mul_of_pos_right _ hpos
    exact_mod_cast hhigh

/-- The numbers that round to a finite double other than zero are neither as small nor as large as
those which are not even looked at. -/
theorem value_range {x : Double} {r : ℚ} (hfinite : x.isFinite) (hzero : x.magnitude ≠ 0)
    (h : x.interval.Holds r) :
  (10 : ℚ) ^ (-331 : Int) < r ∧ r < 10 ^ (310 : Int)
  := by
  obtain ⟨hlow, hhigh⟩ := Interval.bounds h
  obtain ⟨below, hlow', hhigh', hbelow, -⟩ := interval_bounds x
  have hpositive := coefficient_pos hzero
  have hcoefficient := coefficient_lt x
  simp only [isFinite, decide_eq_true_eq] at hfinite
  have hexponent := exponent_lt hfinite
  have hlast : 1 ≤ 2 ^ x.exponent := Nat.one_le_two_pow
  have hleast : 2 ≤ x.interval.low := by
    rw [hlow']
    have : 2 ≤ 4 * x.coefficient - below := by omega
    nlinarith
  rw [denominator_interval] at hlow hhigh
  have hunits : (units 4 : ℚ) = 4 * 2 ^ leastPlace := by
    rw [units]
    push_cast
    rfl
  have hscale : (0 : ℚ) < 2 ^ leastPlace := by positivity
  rw [hunits] at hlow hhigh
  constructor
  · have hplaces : (2 : ℚ) ^ leastPlace ≤ 10 ^ leastDecimalPlace := by
      have hle := units_le 1
      rw [units, Nat.one_mul, Nat.one_mul, Nat.pow_eq] at hle
      exact_mod_cast hle
    have hleast' : (2 : ℚ) ≤ r * (4 * 2 ^ leastPlace) := le_trans (by exact_mod_cast hleast) hlow
    have hpos : 0 < r := by
      by_contra hneg
      nlinarith
    have hplace : (-331 : Int) = -((leastDecimalPlace + 1 : Nat) : Int) := by
      rw [leastDecimalPlace_eq]
      norm_num
    rw [hplace, zpow_neg, zpow_natCast, inv_lt_iff_one_lt_mul₀ (by positivity), pow_succ]
    nlinarith
  · -- the exponent of the greatest finite double, counted from one on
    obtain ⟨k, hk⟩ : ∃ k : Nat, k = 971 := ⟨_, rfl⟩
    have hleast := leastPlace_eq
    have hpow : (2 : ℚ) ^ x.exponent ≤ 2 ^ leastPlace * 2 ^ k := by
      rw [← pow_add]
      apply pow_le_pow_right₀ (by norm_num)
      omega
    have hten : (2 : ℚ) ^ 55 * 2 ^ k ≤ 8 * (10 ^ 28) ^ 11 := by
      rw [← pow_add, show 55 + k = 3 + 93 * 11 by omega, pow_add, pow_mul]
      gcongr
      · norm_num
      · norm_num
    have hcoefficient' : (4 * x.coefficient + 2 : ℚ) < 2 ^ 55 := by
      have : 4 * x.coefficient + 2 < 2 ^ 55 := by omega
      exact_mod_cast this
    rw [show (310 : Int) = ((28 * 11 + 2 : Nat) : Int) from rfl, zpow_natCast, pow_add, pow_mul]
    rw [hhigh'] at hhigh
    push_cast at hhigh
    have hfinal : r * (4 * 2 ^ leastPlace) < 8 * (10 ^ 28) ^ 11 * 2 ^ leastPlace := by
      calc r * (4 * 2 ^ leastPlace) ≤ (4 * x.coefficient + 2) * 2 ^ x.exponent := hhigh
        _ < 2 ^ 55 * 2 ^ x.exponent := by
          apply mul_lt_mul_of_pos_right hcoefficient'
          positivity
        _ ≤ 2 ^ 55 * (2 ^ leastPlace * 2 ^ k) := by gcongr
        _ = 2 ^ 55 * 2 ^ k * 2 ^ leastPlace := by ring
        _ ≤ 8 * (10 ^ 28) ^ 11 * 2 ^ leastPlace := by gcongr
    generalize ((10 : ℚ) ^ 28) ^ 11 = ten at *
    nlinarith

/-- A decimal in the interval of a double is read as that double, up to the sign. -/
theorem ofDecimal_eq {x : Double} {d : Decimal} (hfinite : x.isFinite)
    (h : x.IsNearest d.value) :
  ofDecimal x.isNegative d.digits d.exponent = x
  := by
  by_cases hzero : x.magnitude = 0
  · rw [IsNearest, if_pos hzero, Decimal.value, mul_eq_zero, Nat.cast_eq_zero] at h
    have hdigits : d.digits = 0 := h.resolve_right (zpow_ne_zero _ (by norm_num))
    rw [ofDecimal, hdigits]
    simpa [hzero] using ofMagnitude_self x
  · rw [IsNearest, if_neg hzero] at h
    obtain ⟨hsmall, hlarge⟩ := value_range hfinite hzero h
    have hdigits : d.digits ≠ 0 := by
      intro hdigits
      rw [Decimal.value, hdigits, Nat.cast_zero, zero_mul] at hsmall
      have : (0 : ℚ) < 10 ^ (-331 : Int) := zpow_pos (by norm_num) _
      linarith
    obtain ⟨hlow, hhigh⟩ := value_bounds hdigits
    have hpoint : ¬ d.point < -330 := by
      intro hlt
      have : (10 : ℚ) ^ d.point ≤ 10 ^ (-331 : Int) :=
        zpow_le_zpow_right₀ (by norm_num) (by omega)
      linarith
    have hpoint' : ¬ 310 < d.point := by
      intro hlt
      have : (10 : ℚ) ^ (310 : Int) ≤ 10 ^ (d.point - 1) :=
        zpow_le_zpow_right₀ (by norm_num) (by omega)
      linarith
    have hplaces : ((Nat.toDigits 10 d.digits).length : Int) + d.exponent = d.point := rfl
    rw [ofDecimal]
    simp only [hplaces, hpoint, hpoint', decide_false, Bool.or_false, beq_iff_eq, hdigits, if_false,
      Nat.pow_eq]
    rw [Decimal.value_eq_div] at h
    split
    · rename_i hexponent
      apply ofRatio_eq hfinite hzero (by decide)
      simpa [show (-d.exponent).toNat = 0 by omega] using h
    · rename_i hexponent
      apply ofRatio_eq hfinite hzero (by positivity)
      simpa [show d.exponent.toNat = 0 by omega] using h

end Double

end Cosim
