import Cosim.Dictionary.Value

/-!
# Records in dictionaries

A section of a dictionary with a fixed set of fields.  It is written as an object, in which unknown
keys are passed over, or as a list of the fields in order.  A list may end early only before fields
that have a default.
-/

namespace Cosim.Dictionary

/-- A field of a record. -/
structure Field where
  /-- the keys under which the field may stand -/
  keys : List String
  /-- whether a list may end before the field -/
  hasDefault : Bool

/-- A field that a list must hold. -/
def Field.plain (key : String) : Field := ⟨[key], false⟩

/-- A field that a list may leave out. -/
def Field.withDefault (keys : List String) : Field := ⟨keys, true⟩

/-- The value of a field of an object; two keys of one field clash. -/
def fieldOf? (es : Dictionary) (field : Field) : Option (Option Value) :=
  match field.keys.filterMap fun key => es.get? key with
  | [] => some none
  | [v] => some (some v)
  | _ => none

/-- Pairs the fields of a record with the items of a list. -/
def fieldsOfList? : List Field → List Value → Option (List (Option Value))
  | [], [] => some []
  | [], _ :: _ => none
  | _ :: fields, v :: vs => (fieldsOfList? fields vs).map (some v :: ·)
  | field :: fields, [] =>
    if field.hasDefault then (fieldsOfList? fields []).map (none :: ·) else none

/-- The values of the fields of a record, in their order, where they are given. -/
def record? (fields : List Field) : Value → Option (List (Option Value))
  | .object es => fields.mapM (fieldOf? es)
  | .list vs => fieldsOfList? fields vs
  | _ => none

/-! ## Field values

Each of these reads the value of a field, if it is given, and fails on a value of another kind. -/

/-- A text that must be given. -/
def textField? : Option Value → Option String
  | some (.text s) => some s
  | _ => none

/-- A text that may be missing or null. -/
def optionalText? : Option Value → Option (Option String)
  | none => some none
  | some .null => some none
  | some (.text s) => some (some s)
  | _ => none

/-- Any value; null counts as missing. -/
def optionalValue : Option Value → Option Value
  | some .null => none
  | v => v

/-- A boolean that is false where it is not given. -/
def flagField? : Option Value → Option Bool
  | none => some false
  | some (.bool b) => some b
  | _ => none

/-- An object whose values are read one by one; it is empty where it is not given. -/
def entriesField? {α : Type} (read? : Value → Option α) : Option Value → Option (Entries α)
  | none => some []
  | some (.object es) => es.mapM fun (key, v) => (read? v).map (key, ·)
  | _ => none

end Cosim.Dictionary
