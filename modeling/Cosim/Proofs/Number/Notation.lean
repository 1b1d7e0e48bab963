import Mathlib
import Cosim.Proofs.Number.Shortest
import Cosim.Number.Literal
import Cosim.Number.Notation

/-!
# Numbers read back

What the notations write is read as the same number: `Literal.int64?_intText` for integers, and
`Literal.real?_plain` and `Literal.real?_pointed` for finite doubles.  A pointed double is never
taken for an integer, and a plain one only for an integer that rounds to it.
-/

namespace Cosim

namespace Literal

/-! ## Digits -/

theorem isDigit_of_isDigit {c : Char} (h : c.isDigit) :
  isDigit c = true
  := by
  simp only [Char.isDigit, Bool.and_eq_true, decide_eq_true_eq] at h
  rw [isDigit, digit?, if_pos ⟨h.1, h.2⟩, Option.isSome_some]

/-- The decimal digits of a number are digits. -/
theorem isDigit_of_mem_toDigits {c : Char} {n : Nat} (h : c ∈ Nat.toDigits 10 n) :
  isDigit c = true
  := isDigit_of_isDigit (Nat.isDigit_of_mem_toDigits (by decide) (by decide) h)

/-- Digits lie between zero and nine. -/
theorem le_of_isDigit {c : Char} (h : isDigit c = true) :
  '0' ≤ c ∧ c ≤ '9'
  := by
  rw [isDigit, digit?] at h
  split at h
  · assumption
  · cases h

/-- The number of a list of digits is what the digits of a numeral stand for. -/
theorem digitsValue_eq {cs : List Char} (h : ∀ c ∈ cs, isDigit c = true) (acc : Nat) :
  digitsValue acc cs = Nat.ofDigitChars 10 cs acc
  := by
  induction cs generalizing acc with
  | nil => simp [digitsValue]
  | cons c cs ih =>
    rw [List.forall_mem_cons] at h
    rw [Nat.ofDigitChars_cons, ← ih h.2]
    simp [digitsValue, digit?, if_pos (le_of_isDigit h.1)]

/-- The decimal digits of a number stand for it. -/
theorem digitsValue_toDigits (n : Nat) :
  digitsValue 0 (Nat.toDigits 10 n) = n
  := by
  rw [digitsValue_eq (fun _ => isDigit_of_mem_toDigits), Nat.ofDigitChars_ten_toDigits]

/-- Digits are read on from the value of the digits before them. -/
theorem digitsValue_append (acc : Nat) (cs ds : List Char) :
  digitsValue acc (cs ++ ds) = digitsValue (digitsValue acc cs) ds
  := by
  simp [digitsValue]

/-- Each zero that follows multiplies by ten. -/
theorem digitsValue_zeros (acc n : Nat) :
  digitsValue acc (List.replicate n '0') = acc * 10 ^ n
  := by
  rw [digitsValue_eq, Nat.ofDigitChars_replicate_zero, Nat.mul_comm]
  intro c hc
  rw [List.eq_of_mem_replicate hc]
  decide

/-! ## Integers -/

/-- A natural number is read back from its digits. -/
theorem natural?_toDigits (n : Nat) :
  natural? (Nat.toDigits 10 n) = some n
  := by
  have hall : (Nat.toDigits 10 n).all isDigit = true := by
    rw [List.all_eq_true]
    intro c hc
    apply isDigit_of_mem_toDigits hc
  rw [natural?, if_neg, digitsValue_toDigits]
  simp [hall, Nat.toDigits_ne_nil]

/-- A text that starts with a digit has no sign. -/
theorem splitSign_of_isDigit {c : Char} {cs : List Char} (h : isDigit c = true) :
  splitSign (c :: cs) = (false, c :: cs)
  := by
  have hc := le_of_isDigit h
  rw [splitSign]
  · intro _ heq
    obtain ⟨rfl, -⟩ := List.cons.inj heq
    revert hc
    decide
  · intro _ heq
    obtain ⟨rfl, -⟩ := List.cons.inj heq
    revert hc
    decide

/-- The digits of a number begin with a digit. -/
theorem toDigits_eq_cons (n : Nat) :
  ∃ c cs, Nat.toDigits 10 n = c :: cs ∧ isDigit c = true
  := by
  obtain ⟨c, cs, hcs⟩ := List.exists_cons_of_ne_nil (Nat.toDigits_ne_nil (n := n) (b := 10))
  refine ⟨c, cs, hcs, ?_⟩
  apply isDigit_of_mem_toDigits (n := n)
  simp [hcs]

/-- The digits of a natural number read as an integer, with and without a minus. -/
theorem integer?_toDigits {low high : Int} {n : Nat} (negative : Bool)
    (hlow : low ≤ if negative then -(n : Int) else n)
    (hhigh : (if negative then -(n : Int) else n) ≤ high) :
  integer? low high (if negative then '-' :: Nat.toDigits 10 n else Nat.toDigits 10 n)
    = some (if negative then -(n : Int) else n)
  := by
  cases negative with
  | true =>
    simp only [if_true] at *
    simp [integer?, splitSign, natural?_toDigits, Option.filter, hlow, hhigh]
  | false =>
    simp only [Bool.false_eq_true, if_false] at *
    obtain ⟨c, cs, hcs, hc⟩ := toDigits_eq_cons n
    have hnatural := natural?_toDigits n
    rw [hcs] at hnatural ⊢
    simp [integer?, splitSign_of_isDigit hc, hnatural, Option.filter, hlow, hhigh]

/-- An integer is written as its digits, behind a minus sign if it is negative. -/
theorem toList_intText (i : Int) :
  (intText i).toList
    = if decide (i < 0) then '-' :: Nat.toDigits 10 i.natAbs else Nat.toDigits 10 i.natAbs
  := by
  rw [intText]
  by_cases h : i < 0
  · simp [h]
  · simp [h]

/-- An integer reads back within any bounds that it keeps. -/
theorem integer?_intText {low high i : Int} (hlow : low ≤ i) (hhigh : i ≤ high) :
  integer? low high (intText i).toList = some i
  := by
  have hi : (if decide (i < 0) = true then -(i.natAbs : Int) else i.natAbs) = i := by
    simp only [decide_eq_true_eq]
    split <;> omega
  rw [toList_intText, integer?_toDigits, hi]
  · rw [hi]
    apply hlow
  · rw [hi]
    apply hhigh

/-- An integer of 64 bits reads back. -/
theorem int64?_intText {i : Int} (hlow : -2 ^ 63 ≤ i) (hhigh : i < 2 ^ 63) :
  int64? (intText i).toList = some i
  := by
  apply integer?_intText
  · simpa [Nat.pow_eq] using hlow
  · simp only [Nat.pow_eq]
    omega

/-- An integer of 32 bits reads back. -/
theorem int32?_intText {i : Int} (hlow : -2 ^ 31 ≤ i) (hhigh : i < 2 ^ 31) :
  int32? (intText i).toList = some i
  := by
  apply integer?_intText
  · simpa [Nat.pow_eq] using hlow
  · simp only [Nat.pow_eq]
    omega

/-- An integer that is read fits into 64 bits. -/
theorem int64?_range {cs : List Char} {i : Int} (h : int64? cs = some i) :
  -2 ^ 63 ≤ i ∧ i < 2 ^ 63
  := by
  rw [int64?, integer?] at h
  have hrange := (Option.filter_eq_some_iff.mp h).2
  simp only [Nat.pow_eq, Bool.and_eq_true, decide_eq_true_eq] at hrange
  omega

/-! ## Reals -/

/-- Digits have no lower case. -/
theorem lower_of_isDigit {c : Char} (h : isDigit c = true) :
  lower c = c
  := by
  rw [lower, Char.toLower, dif_neg]
  rintro ⟨hupper, -⟩
  have hdigit : c.val ≤ '9'.val := (le_of_isDigit h).2
  apply absurd (UInt32.le_trans hupper hdigit)
  decide

/-- A text that starts with a digit is none of the special numbers. -/
theorem magnitude?_of_isDigit {c : Char} {cs : List Char} (negative : Bool)
    (h : isDigit c = true) :
  magnitude? negative (c :: cs) =
    let whole := (c :: cs).takeWhile isDigit
    let afterWhole := (c :: cs).dropWhile isDigit
    let (fraction, rest) := match afterWhole with
      | '.' :: more => (more.takeWhile isDigit, more.dropWhile isDigit)
      | _ => ([], afterWhole)
    (exponent? rest).map fun e =>
      Double.ofDecimal negative (digitsValue 0 (whole ++ fraction)) (e - fraction.length)
  := by
  have hne (d : Char) (ds : List Char) (hd : isDigit d = false) :
      ¬ (c :: cs).map lower = d :: ds := by
    rw [List.map_cons, lower_of_isDigit h, List.cons.injEq]
    rintro ⟨rfl, -⟩
    rw [h] at hd
    cases hd
  have hinf : ¬ ((c :: cs).map lower == "inf".toList ||
      (c :: cs).map lower == "infinity".toList) = true := by
    rw [Bool.or_eq_true, beq_iff_eq, beq_iff_eq, not_or]
    refine ⟨hne 'i' _ (by decide), hne 'i' _ (by decide)⟩
  have hnan : ¬ ((c :: cs).map lower == "nan".toList) = true := by
    rw [beq_iff_eq]
    apply hne 'n' _ (by decide)
  rw [magnitude?, if_neg hinf, if_neg hnan]
  apply if_neg
  rw [List.takeWhile_cons_of_pos h, List.isEmpty_cons, Bool.false_and]
  apply Bool.false_ne_true

/-- A text is cut at its first character that is not in a class. -/
theorem takeWhile_append_of_head {p : Char → Bool} (cs ds : List Char)
    (hcs : ∀ c ∈ cs, p c = true) (hds : ∀ c ∈ ds.head?, p c = false) :
  (cs ++ ds).takeWhile p = cs ∧ (cs ++ ds).dropWhile p = ds
  := by
  rw [List.takeWhile_append_of_pos hcs, List.dropWhile_append_of_pos hcs]
  cases ds with
  | nil => simp
  | cons d ds => simp [hds d rfl]

/-- Digits with a point and an exponent are read as a decimal. -/
theorem magnitude?_point {whole fraction rest : List Char} {e : Int} (negative : Bool)
    (hwhole : whole ≠ []) (hdigits : ∀ c ∈ whole, isDigit c = true)
    (hfraction : ∀ c ∈ fraction, isDigit c = true) (hrest : exponent? rest = some e)
    (hend : ∀ c ∈ rest.head?, isDigit c = false) :
  magnitude? negative (whole ++ '.' :: (fraction ++ rest)) =
    some (Double.ofDecimal negative (digitsValue 0 (whole ++ fraction)) (e - fraction.length))
  := by
  obtain ⟨c, cs, rfl⟩ := List.exists_cons_of_ne_nil hwhole
  obtain ⟨htake, hdrop⟩ := takeWhile_append_of_head _ ('.' :: (fraction ++ rest)) hdigits
    (by simp; decide)
  obtain ⟨htake', hdrop'⟩ := takeWhile_append_of_head _ _ hfraction hend
  rw [List.cons_append] at htake hdrop ⊢
  rw [magnitude?_of_isDigit negative (hdigits c (by simp)), htake, hdrop]
  simp only [htake', hdrop', hrest, Option.map_some]

/-- Digits with an exponent alone are read as a decimal. -/
theorem magnitude?_whole (negative : Bool) (whole rest : List Char) {e : Int} (hwhole : whole ≠ [])
    (hdigits : ∀ c ∈ whole, isDigit c = true) (hrest : exponent? rest = some e)
    (hend : ∀ c ∈ rest.head?, isDigit c = false ∧ c ≠ '.') :
  magnitude? negative (whole ++ rest) = some (Double.ofDecimal negative (digitsValue 0 whole) e)
  := by
  obtain ⟨c, cs, rfl⟩ := List.exists_cons_of_ne_nil hwhole
  obtain ⟨htake, hdrop⟩ := takeWhile_append_of_head _ rest hdigits (fun d hd => (hend d hd).1)
  have hpoint : (match rest with
      | '.' :: more => (more.takeWhile isDigit, more.dropWhile isDigit)
      | _ => ([], rest)) = ([], rest) := by
    split
    · apply absurd rfl (hend '.' rfl).2
    · rfl
  rw [List.cons_append] at htake hdrop ⊢
  rw [magnitude?_of_isDigit negative (hdigits c (by simp)), htake, hdrop]
  simp only [hpoint, hrest, Option.map_some, List.append_nil, List.length_nil, Nat.cast_zero,
    sub_zero]

/-- The text of a real number without its sign: whatever sign it gets, it is read as a decimal of
this value. -/
structure Stands (cs : List Char) (r : ℚ) : Prop where
  head : ∃ c rest, cs = c :: rest ∧ isDigit c = true
  read : ∀ negative, ∃ d : Decimal,
    d.value = r ∧ magnitude? negative cs = some (Double.ofDecimal negative d.digits d.exponent)

/-- Digits that stand for a number are read as the double nearest to it, with its sign. -/
theorem real?_of_stands {cs : List Char} {x : Double} {r : ℚ} (hfinite : x.isFinite)
    (hnearest : x.IsNearest r) (h : Stands cs r) :
  real? (x.withSign cs).toList = some x
  := by
  obtain ⟨d, rfl, hd⟩ := h.read x.isNegative
  obtain ⟨c, rest, rfl, hc⟩ := h.head
  rw [Double.withSign, String.toList_ofList]
  cases hneg : x.isNegative with
  | true =>
    rw [if_pos rfl, real?, splitSign]
    rw [hneg] at hd
    simp only [hd]
    rw [← hneg, Double.ofDecimal_eq hfinite hnearest]
  | false =>
    rw [if_neg (by decide), real?, splitSign_of_isDigit hc]
    rw [hneg] at hd
    simp only [hd]
    rw [← hneg, Double.ofDecimal_eq hfinite hnearest]

/-- Digits with a point stand for the number of all digits, scaled by those behind the point. -/
theorem stands_point (whole fraction rest : List Char) {e : Int} (hwhole : whole ≠ [])
    (hdigits : ∀ c ∈ whole, isDigit c = true) (hfraction : ∀ c ∈ fraction, isDigit c = true)
    (hrest : exponent? rest = some e) (hend : ∀ c ∈ rest.head?, isDigit c = false) :
  Stands (whole ++ '.' :: (fraction ++ rest))
    (Decimal.value ⟨digitsValue 0 (whole ++ fraction), e - fraction.length⟩)
  := by
  constructor
  · obtain ⟨c, cs, rfl⟩ := List.exists_cons_of_ne_nil hwhole
    exact ⟨c, _, rfl, hdigits c (by simp)⟩
  · intro negative
    exact ⟨_, rfl, magnitude?_point negative hwhole hdigits hfraction hrest hend⟩

/-- Digits without a point stand for their number, scaled by the exponent. -/
theorem stands_whole (whole rest : List Char) {e : Int} (hwhole : whole ≠ [])
    (hdigits : ∀ c ∈ whole, isDigit c = true) (hrest : exponent? rest = some e)
    (hend : ∀ c ∈ rest.head?, isDigit c = false ∧ c ≠ '.') :
  Stands (whole ++ rest) (Decimal.value ⟨digitsValue 0 whole, e⟩)
  := by
  constructor
  · obtain ⟨c, cs, rfl⟩ := List.exists_cons_of_ne_nil hwhole
    exact ⟨c, _, rfl, hdigits c (by simp)⟩
  · intro negative
    exact ⟨_, rfl, magnitude?_whole negative whole rest hwhole hdigits hrest hend⟩

/-- Zeros at the end of the digits count as much as the same number in the exponent. -/
theorem value_shift (digits k : Nat) (e : Int) :
  Decimal.value ⟨digits * 10 ^ k, e⟩ = Decimal.value ⟨digits, e + k⟩
  := by
  rw [Decimal.value, Decimal.value, zpow_add₀ (by norm_num), zpow_natCast]
  push_cast
  ring

/-- Zeros are digits. -/
theorem isDigit_of_mem_zeros {c : Char} {n : Nat} (h : c ∈ List.replicate n '0') :
  isDigit c = true
  := by
  rw [List.eq_of_mem_replicate h]
  decide

/-- The digits of a decimal are digits. -/
theorem isDigit_of_mem_digitList {c : Char} {d : Decimal} (h : c ∈ d.digitList) :
  isDigit c = true
  := isDigit_of_mem_toDigits h

/-- The digits of a decimal stand for its natural number. -/
theorem digitsValue_digitList (d : Decimal) :
  digitsValue 0 d.digitList = d.digits
  := digitsValue_toDigits d.digits

/-- A decimal has a digit. -/
theorem digitList_ne_nil (d : Decimal) :
  d.digitList ≠ []
  := Nat.toDigits_ne_nil

/-- The digits of a number of which a fraction of one zero may be written. -/
theorem stands_positional_whole {d : Decimal} (pointed : Bool) (h : 0 ≤ d.exponent) :
  Stands (d.digitList ++ List.replicate d.exponent.toNat '0' ++
    (if pointed then ['.', '0'] else [])) d.value
  := by
  have hall : ∀ c ∈ d.digitList ++ List.replicate d.exponent.toNat '0', isDigit c = true := by
    intro c hmem
    apply (List.mem_append.mp hmem).elim isDigit_of_mem_digitList isDigit_of_mem_zeros
  have hne : d.digitList ++ List.replicate d.exponent.toNat '0' ≠ [] := by
    simp [digitList_ne_nil]
  have hvalue : digitsValue 0 (d.digitList ++ List.replicate d.exponent.toNat '0')
      = d.digits * 10 ^ d.exponent.toNat := by
    rw [digitsValue_append, digitsValue_digitList, digitsValue_zeros]
  cases pointed with
  | true =>
    have hstands := stands_point _ ['0'] [] hne hall (by simp; decide) rfl
      (by simp)
    have htail := digitsValue_zeros (d.digits * 10 ^ d.exponent.toNat) 1
    rw [List.replicate_one] at htail
    rw [digitsValue_append, hvalue, htail, List.length_singleton, value_shift, value_shift] at hstands
    simpa [h] using hstands
  | false =>
    have hstands := stands_whole _ [] hne hall rfl (by simp)
    rw [hvalue, value_shift] at hstands
    simpa [h] using hstands

/-- A notation in place reads back, with and without the fraction that may follow a whole number. -/
theorem stands_positional (d : Decimal) (pointed : Bool) :
  Stands (d.positional (if pointed then ['.', '0'] else [])) d.value
  := by
  rw [Decimal.positional]
  split
  · apply stands_positional_whole
    assumption
  · have hlength : d.digitList.length = d.point - d.exponent := by
      rw [Decimal.point]
      omega
    split
    · rename_i hpoint
      have hwhole : d.digitList.take d.point.toNat ≠ [] := by
        rw [Ne, List.take_eq_nil_iff, not_or]
        exact ⟨by omega, digitList_ne_nil d⟩
      have hstands := stands_point _ (d.digitList.drop d.point.toNat) [] hwhole
        (fun c hmem => isDigit_of_mem_digitList (List.mem_of_mem_take hmem))
        (fun c hmem => isDigit_of_mem_digitList (List.mem_of_mem_drop hmem)) rfl (by simp)
      have hplaces : (0 : Int) - (d.digitList.drop d.point.toNat).length = d.exponent := by
        rw [List.length_drop]
        omega
      rw [List.take_append_drop, digitsValue_digitList, List.append_nil, hplaces] at hstands
      apply hstands
    · have hstands := stands_point ['0']
        (List.replicate (-d.point).toNat '0' ++ d.digitList) [] (by simp) (by simp; decide)
        (by
          intro c hmem
          apply (List.mem_append.mp hmem).elim isDigit_of_mem_zeros isDigit_of_mem_digitList)
        rfl (by simp)
      have hplaces : (0 : Int) - (List.replicate (-d.point).toNat '0' ++ d.digitList).length
          = d.exponent := by
        rw [List.length_append, List.length_replicate]
        omega
      have hzeros := digitsValue_zeros 0 (1 + (-d.point).toNat)
      rw [List.replicate_add, List.replicate_one, Nat.zero_mul] at hzeros
      rw [← List.append_assoc, digitsValue_append, hzeros, digitsValue_digitList, List.append_nil,
        hplaces] at hstands
      apply hstands

/-- An exponent is read back from its sign and its digits. -/
theorem exponent?_signed (i : Int) :
  exponent? ('e' :: (if i < 0 then '-' else '+') :: Nat.toDigits 10 i.natAbs) = some i
  := by
  by_cases h : i < 0
  · simp [exponent?, h, splitSign, natural?_toDigits, abs_of_neg h]
  · simp [exponent?, h, splitSign, natural?_toDigits, abs_of_nonneg (Int.not_lt.mp h)]

/-- The notation with an exponent reads back. -/
theorem stands_scientific (d : Decimal) :
  Stands d.scientific d.value
  := by
  have hdigits : ∀ c ∈ d.digitList, isDigit c = true := fun _ => isDigit_of_mem_digitList
  have hvalue := digitsValue_digitList d
  have hexponent := exponent?_signed (d.point - 1)
  obtain ⟨c, cs, hcs⟩ := List.exists_cons_of_ne_nil (digitList_ne_nil d)
  have hpoint : d.point - 1 - cs.length = d.exponent := by
    rw [Decimal.point, hcs, List.length_cons]
    omega
  rw [hcs] at hdigits hvalue
  rw [Decimal.scientific, hcs]
  simp only [List.take_succ_cons, List.take_zero, List.drop_succ_cons, List.drop_zero]
  cases cs with
  | nil =>
    have hstands := stands_whole [c] _ (by simp) hdigits hexponent (by simp; decide)
    rw [hvalue, show d.point - 1 = d.exponent by simpa using hpoint] at hstands
    rw [show d.point - 1 = d.exponent by simpa using hpoint]
    apply hstands
  | cons b bs =>
    have hfraction := (List.forall_mem_cons.mp hdigits).2
    have hstands := stands_point [c] _ _ (by simp) (by simpa using hdigits c (by simp))
      hfraction hexponent (by simp; decide)
    rw [List.singleton_append (l := b :: bs), hvalue, hpoint] at hstands
    apply hstands

/-- A finite double is written by its shortest digits in positional notation. -/
theorem plain_of_isFinite {x : Double} (hfinite : x.isFinite) :
  x.plain = x.withSign ((x.shortest .up).positional [])
  := by
  rw [Double.isFinite, decide_eq_true_eq] at hfinite
  rw [Double.plain, if_neg, if_neg]
  · rw [Double.isInfinite, beq_iff_eq]
    omega
  · rw [Double.isNaN, decide_eq_true_eq]
    omega

/-- A finite double reads back from its plain notation. -/
theorem real?_plain {x : Double} (hfinite : x.isFinite) :
  real? x.plain.toList = some x
  := by
  rw [plain_of_isFinite hfinite]
  apply real?_of_stands hfinite (Double.isNearest_shortest .up x)
  apply stands_positional _ false

/-- An infinite double is written by name. -/
theorem plain_of_isInfinite {x : Double} (h : x.isInfinite) :
  x.plain = if x.isNegative then "-inf" else "inf"
  := by
  have hmagnitude := h
  rw [Double.isInfinite, beq_iff_eq] at hmagnitude
  rw [Double.plain, if_neg, if_pos h]
  rw [Double.isNaN, decide_eq_true_eq]
  omega

/-- Every double but the not-a-numbers reads back from its plain notation. -/
theorem real?_plain_of_isNaN {x : Double} (h : x.isNaN = false) :
  real? x.plain.toList = some x
  := by
  by_cases hfinite : x.isFinite
  · apply real?_plain hfinite
  · have hinfinite : x.magnitude = Double.infinityMagnitude := by
      rw [Double.isNaN, decide_eq_false_iff_not] at h
      rw [Double.isFinite, decide_eq_true_eq] at hfinite
      omega
    have hself := Double.ofMagnitude_self x
    rw [hinfinite] at hself
    rw [plain_of_isInfinite (by rw [Double.isInfinite, hinfinite, beq_self_eq_true])]
    rw [← hself]
    cases x.isNegative with
    | true => rfl
    | false => rfl

/-- A finite double reads back from its pointed notation. -/
theorem real?_pointed {x : Double} (hfinite : x.isFinite) :
  real? x.pointed.toList = some x
  := by
  rw [Double.pointed]
  split
  · apply real?_of_stands hfinite (Double.isNearest_shortest .even x)
    apply stands_positional _ true
  · apply real?_of_stands hfinite (Double.isNearest_shortest .even x)
    apply stands_scientific

/-! ## Reals and integers -/

/-- A natural number is read from digits alone, and from at least one. -/
theorem natural?_eq_some {cs : List Char} {n : Nat} (h : natural? cs = some n) :
  cs ≠ [] ∧ (∀ c ∈ cs, isDigit c = true) ∧ digitsValue 0 cs = n
  := by
  rw [natural?] at h
  split at h
  · cases h
  · rename_i hcs
    simp only [Bool.or_eq_true, List.isEmpty_iff, Bool.not_eq_true', Bool.not_eq_false, not_or,
      List.all_eq_true] at hcs
    exact ⟨hcs.1, hcs.2, Option.some.inj h⟩

/-- The digits of a natural number that is not too large are read as the nearest double. -/
theorem magnitude?_of_natural? {cs : List Char} {n : Nat} (negative : Bool)
    (h : natural? cs = some n) (hn : n ≤ 2 ^ 63) :
  magnitude? negative cs = some (Double.ofRatio negative n 1)
  := by
  obtain ⟨hne, hdigits, rfl⟩ := natural?_eq_some h
  have hread := magnitude?_whole negative _ [] hne hdigits rfl (by simp)
  rw [List.append_nil] at hread
  rw [hread, Option.some.injEq, Double.ofDecimal]
  have hlength : (Nat.toDigits 10 (digitsValue 0 cs)).length ≤ 19 := by
    rw [Nat.length_toDigits_le_iff (by decide) (by decide)]
    omega
  by_cases hzero : digitsValue 0 cs = 0
  · simp [hzero, Double.ofRatio, Double.magnitudeOfRatio]
  · rw [if_neg (by simp [hzero]), if_neg (by omega), if_pos (by decide)]
    simp

/-- A text that reads as an integer and as a real number stands for the same number, except for a
negative zero. -/
theorem ofInt_eq_of_real? {cs : List Char} {i : Int} {x : Double} (hint : int64? cs = some i)
    (hreal : real? cs = some x) (hzero : x ≠ Double.zero.neg) :
  Double.ofInt i = x
  := by
  rw [int64?, integer?] at hint
  rw [real?] at hreal
  generalize splitSign cs = parts at hint hreal
  obtain ⟨negative, body⟩ := parts
  simp only [Option.filter_eq_some_iff, Option.map_eq_some_iff, Option.bind_eq_bind,
    Option.bind_eq_some_iff, Option.pure_def, Option.some.injEq] at hint hreal
  obtain ⟨⟨_, ⟨n, hn, rfl⟩, rfl⟩, hrange⟩ := hint
  have hle : n ≤ 2 ^ 63 := by
    simp only [Nat.pow_eq, Bool.and_eq_true, decide_eq_true_eq] at hrange
    split at hrange <;> omega
  rw [magnitude?_of_natural? negative hn hle, Option.some.injEq] at hreal
  subst hreal
  cases negative with
  | true =>
    have hpos : n ≠ 0 := by
      rintro rfl
      apply hzero
      decide
    simp [Double.ofInt, Nat.pos_of_ne_zero hpos]
  | false =>
    have hneg : ¬ (n : Int) < 0 := by omega
    simp [Double.ofInt, hneg]

/-- What holds something else than digits behind its sign is no integer. -/
theorem int64?_withSign {cs : List Char} {d : Char} (x : Double)
    (hhead : ∃ c rest, cs = c :: rest ∧ isDigit c = true) (hmem : d ∈ cs)
    (hd : isDigit d = false) :
  int64? (x.withSign cs).toList = none
  := by
  have hnatural : natural? cs = none := by
    rw [natural?, if_pos]
    rw [Bool.or_eq_true, Bool.not_eq_true']
    right
    rw [List.all_eq_false]
    exact ⟨d, hmem, by simp [hd]⟩
  obtain ⟨c, rest, rfl, hc⟩ := hhead
  rw [Double.withSign, String.toList_ofList, int64?, integer?]
  cases x.isNegative with
  | true => simp [splitSign, hnatural]
  | false => simp [splitSign_of_isDigit hc, hnatural]

/-- The pointed notation is never that of an integer. -/
theorem int64?_pointed (x : Double) :
  int64? x.pointed.toList = none
  := by
  rw [Double.pointed]
  split
  · have hhead := (stands_positional (x.shortest .even) true).head
    apply int64?_withSign (d := '.') x hhead _ (by decide)
    rw [Decimal.positional]
    split
    · simp
    · split <;> simp
  · have hhead := (stands_scientific (x.shortest .even)).head
    apply int64?_withSign (d := 'e') x hhead _ (by decide)
    simp [Decimal.scientific]

/-! ## The characters of numbers -/

/-- The characters that notations of finite numbers are made of. -/
def isNumeral (c : Char) : Bool := isDigit c || "+-.e".toList.contains c

/-- Digits may stand in numerals. -/
theorem isNumeral_of_isDigit {c : Char} (h : isDigit c = true) :
  isNumeral c = true
  := by
  rw [isNumeral, h, Bool.true_or]

/-- Integers are written as numerals. -/
theorem isNumeral_intText (i : Int) :
  ∀ c ∈ (intText i).toList, isNumeral c = true
  := by
  have hdigits : ∀ c ∈ Nat.toDigits 10 i.natAbs, isNumeral c = true :=
    fun c hc => isNumeral_of_isDigit (isDigit_of_mem_toDigits hc)
  rw [toList_intText]
  split
  · rw [List.forall_mem_cons]
    exact ⟨by decide, hdigits⟩
  · apply hdigits

/-- A numeral with a sign is a numeral. -/
theorem isNumeral_withSign {cs : List Char} (x : Double) (h : ∀ c ∈ cs, isNumeral c = true) :
  ∀ c ∈ (x.withSign cs).toList, isNumeral c = true
  := by
  rw [Double.withSign, String.toList_ofList]
  split
  · rw [List.forall_mem_cons]
    exact ⟨by decide, h⟩
  · apply h

/-- Positional notation is made of numerals. -/
theorem isNumeral_positional (d : Decimal) {whole : List Char}
    (h : ∀ c ∈ whole, isNumeral c = true) :
  ∀ c ∈ d.positional whole, isNumeral c = true
  := by
  have hdigits : ∀ c ∈ d.digitList, isNumeral c = true :=
    fun c hc => isNumeral_of_isDigit (isDigit_of_mem_digitList hc)
  have hzeros : ∀ n, ∀ c ∈ List.replicate n '0', isNumeral c = true :=
    fun n c hc => isNumeral_of_isDigit (isDigit_of_mem_zeros hc)
  intro c hc
  rw [Decimal.positional] at hc
  split at hc
  · simp only [List.mem_append] at hc
    obtain (hc | hc) | hc := hc
    · apply hdigits c hc
    · apply hzeros _ c hc
    · apply h c hc
  · split at hc
    · simp only [List.mem_append, List.mem_cons] at hc
      obtain hc | rfl | hc := hc
      · apply hdigits c (List.mem_of_mem_take hc)
      · decide
      · apply hdigits c (List.mem_of_mem_drop hc)
    · simp only [List.cons_append, List.mem_append, List.mem_cons] at hc
      obtain rfl | rfl | hc | hc := hc
      · decide
      · decide
      · apply hzeros _ c hc
      · apply hdigits c hc

/-- Scientific notation is made of numerals. -/
theorem isNumeral_scientific (d : Decimal) :
  ∀ c ∈ d.scientific, isNumeral c = true
  := by
  have hdigits : ∀ c ∈ d.digitList, isNumeral c = true :=
    fun c hc => isNumeral_of_isDigit (isDigit_of_mem_digitList hc)
  intro c hc
  simp only [Decimal.scientific, List.mem_append, List.mem_cons] at hc
  obtain (hc | hc) | rfl | rfl | hc := hc
  · apply hdigits c (List.mem_of_mem_take hc)
  · split at hc
    · cases hc
    · obtain rfl | hc := List.mem_cons.mp hc
      · decide
      · apply hdigits c (List.mem_of_mem_drop hc)
  · decide
  · split <;> decide
  · apply isNumeral_of_isDigit (isDigit_of_mem_toDigits hc)

/-- Finite doubles are written as numerals. -/
theorem isNumeral_plain {x : Double} (hfinite : x.isFinite) :
  ∀ c ∈ x.plain.toList, isNumeral c = true
  := by
  rw [plain_of_isFinite hfinite]
  apply isNumeral_withSign
  apply isNumeral_positional
  simp

/-- Doubles with a point are written as numerals. -/
theorem isNumeral_pointed (x : Double) :
  ∀ c ∈ x.pointed.toList, isNumeral c = true
  := by
  rw [Double.pointed]
  split
  · apply isNumeral_withSign
    apply isNumeral_positional
    simp
    decide
  · apply isNumeral_withSign
    apply isNumeral_scientific

end Literal

end Cosim
