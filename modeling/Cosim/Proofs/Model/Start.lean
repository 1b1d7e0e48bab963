import Cosim.Proofs.Number.Notation
import Cosim.System.Component

/-!
# Start values

A start value that was turned towards a data type is not turned any further, and it fits the type
unless it was left as it is.  A start value that is stored as a dictionary value is read again.
-/

namespace Cosim

namespace Start

/-! ## Data types -/

/-- What a text reads as is a value of the data type. -/
theorem fits_of_parse? {type : DataType} {s : String} {start : Start}
    (h : parse? type s = some start) :
  Component.fits start type = true
  := by
  cases type with
  | real =>
    obtain ⟨x, -, rfl⟩ := Option.map_eq_some_iff.mp h
    rfl
  | integer =>
    obtain ⟨i, -, rfl⟩ := Option.map_eq_some_iff.mp h
    rfl
  | enumeration =>
    obtain ⟨i, -, rfl⟩ := Option.map_eq_some_iff.mp h
    rfl
  | boolean =>
    simp only [parse?] at h
    split at h
    · cases h
      rfl
    · split at h
      · cases h
        rfl
      · cases h
  | string =>
    cases h
    rfl

/-- A value of its own data type is left as it is. -/
theorem coerce_of_fits {type : DataType} {start : Start} (h : Component.fits start type = true) :
  start.coerce type = start
  := by
  cases start <;> cases type <;> first | rfl | cases h

theorem fits_getD_parse? (type : DataType) (s : String) :
  Component.fits ((parse? type s).getD (.text s)) type = true ∨
    (parse? type s).getD (.text s) = .text s
  := by
  cases h : parse? type s with
  | none =>
    right
    rfl
  | some start =>
    left
    apply fits_of_parse? h

/-- A value is turned into one of the data type, or left as it is. -/
theorem fits_coerce (start : Start) (type : DataType) :
  Component.fits (start.coerce type) type = true ∨ start.coerce type = start
  := by
  cases start with
  | real x =>
    right
    cases type <;> rfl
  | bool b =>
    right
    cases type <;> rfl
  | int i =>
    cases type with
    | real =>
      left
      rfl
    | boolean =>
      simp only [coerce]
      split
      · left
        rfl
      · split
        · left
          rfl
        · right
          rfl
    | _ =>
      right
      rfl
  | text s =>
    cases type with
    | string =>
      left
      rfl
    | real => apply fits_getD_parse?
    | integer => apply fits_getD_parse?
    | boolean => apply fits_getD_parse?
    | enumeration => apply fits_getD_parse?

theorem coerce_coerce (start : Start) (type : DataType) :
  (start.coerce type).coerce type = start.coerce type
  := by
  obtain h | h := fits_coerce start type
  · apply coerce_of_fits h
  · rw [h, h]

/-! ## Dictionary values -/

/-- An integer start value has 64 bits, as those have that are read. -/
def IsStored (start : Start) : Prop := ∀ i, start = .int i → i < 2 ^ 63

theorem isStored_ofValue? {v : Value} {start : Start} (h : ofValue? v = some start) :
  start.IsStored
  := by
  rintro i rfl
  unfold ofValue? at h
  split at h
  · cases h
  · split at h
    · rename_i hi
      cases h
      simpa using hi
    · cases h
  · cases h
  · cases h
  · cases h

theorem isStored_of_parse? {type : DataType} {s : String} {start : Start}
    (h : parse? type s = some start) :
  start.IsStored
  := by
  rintro i rfl
  have hword (cs : List Char) (hint : (Literal.int64? cs).map Start.int = some (.int i)) :
      i < 2 ^ 63 := by
    obtain ⟨j, hj, heq⟩ := Option.map_eq_some_iff.mp hint
    cases heq
    apply (Literal.int64?_range hj).2
  cases type with
  | integer => apply hword _ h
  | enumeration => apply hword _ h
  | real =>
    obtain ⟨x, -, heq⟩ := Option.map_eq_some_iff.mp h
    cases heq
  | boolean =>
    simp only [parse?] at h
    split at h
    · cases h
    · split at h <;> cases h
  | string => cases h

theorem isStored_coerce {start : Start} (h : start.IsStored) (type : DataType) :
  (start.coerce type).IsStored
  := by
  have hother (other : Start) (hne : ∀ i, other ≠ .int i) : other.IsStored :=
    fun i hi => absurd hi (hne i)
  unfold coerce
  split
  · apply hother _ (by simp)
  · split
    · apply hother _ (by simp)
    · split
      · apply hother _ (by simp)
      · apply h
  · apply hother _ (by simp)
  · rename_i s _
    cases hparse : parse? type s with
    | none => apply hother _ (by simp)
    | some value => apply isStored_of_parse? hparse
  · apply h

/-- A stored value with a finite number is read again. -/
theorem ofValue?_toValue {start : Start} (hstored : start.IsStored)
    (hfinite : ∀ x, start = .real x → x.isFinite) :
  ofValue? start.toValue = some start
  := by
  cases start with
  | real x => rw [toValue, Value.ofReal, if_pos (hfinite x rfl), ofValue?]
  | int i =>
    have hi : i < (Nat.pow 2 63 : Nat) := by simpa using hstored i rfl
    rw [toValue, Value.ofInt, ofValue?, if_pos hi]
  | bool b => rfl
  | text s => rfl

end Start

end Cosim
