import Cosim.Model.Start

/-!
# Variables

The scalar variables of a model.  A `Variable` also serves as an override of some of the fields of
another one: `Variable.overlay` copies the fields that are set.
-/

namespace Cosim

/-- The role of a variable at the boundary of its model. -/
inductive Causality where
  | parameter
  | calculatedParameter
  | input
  | output
  | inner
  | independent
  | structuralParameter
deriving DecidableEq

namespace Causality

def text : Causality → String
  | .parameter => "parameter"
  | .calculatedParameter => "calculatedParameter"
  | .input => "input"
  | .output => "output"
  | .inner => "local"
  | .independent => "independent"
  | .structuralParameter => "structuralParameter"

def all : List Causality :=
  [.parameter, .calculatedParameter, .input, .output, .inner, .independent, .structuralParameter]

def ofText? (s : String) : Option Causality := all.find? (·.text == s)

def ofText (s : String) : Except UnknownName Causality := named "causality" s (ofText? s)

end Causality

/-- When a variable may change. -/
inductive Variability where
  | constant
  | fixed
  | tunable
  | discrete
  | continuous
deriving DecidableEq

namespace Variability

def text : Variability → String
  | .constant => "constant"
  | .fixed => "fixed"
  | .tunable => "tunable"
  | .discrete => "discrete"
  | .continuous => "continuous"

def all : List Variability := [.constant, .fixed, .tunable, .discrete, .continuous]

def ofText? (s : String) : Option Variability := all.find? (·.text == s)

def ofText (s : String) : Except UnknownName Variability := named "variability" s (ofText? s)

end Variability

structure Variable where
  name : String
  dataType : Option DataType
  causality : Option Causality
  variability : Option Variability
  start : Option Start
  valueReference : Option Nat
  description : Option String
  quantity : Option String
  unit : Option String
  displayUnit : Option String
deriving DecidableEq

namespace Variable

/-- A variable of which nothing but the name is known. -/
def named (name : String) : Variable :=
  ⟨name, none, none, none, none, none, none, none, none, none⟩

/-- Sets the start value, and the data type too if there is none yet. -/
def setStart (v : Variable) (start : Start) : Variable :=
  { v with start := some start, dataType := some (v.dataType.getD start.dataType) }

/-- Sets the causality by its name; an unknown name changes nothing. -/
def setCausality (v : Variable) (name : String) : Variable :=
  { v with causality := (Causality.ofText? name).or v.causality }

/-- Sets the variability by its name; an unknown name changes nothing. -/
def setVariability (v : Variable) (name : String) : Variable :=
  { v with variability := (Variability.ofText? name).or v.variability }

/-- Sets the data type by its name; an unknown name changes nothing. -/
def setDataType (v : Variable) (name : String) : Variable :=
  { v with dataType := (DataType.ofText? name).or v.dataType }

/-- The causality, which is local where none is given. -/
def causalityOrLocal (v : Variable) : Causality := v.causality.getD .inner

/-- Copies every field that is set on another variable, except for the name. -/
def overlay (v other : Variable) : Variable where
  name := v.name
  dataType := other.dataType.or v.dataType
  causality := other.causality.or v.causality
  variability := other.variability.or v.variability
  start := other.start.or v.start
  valueReference := other.valueReference.or v.valueReference
  description := other.description.or v.description
  quantity := other.quantity.or v.quantity
  unit := other.unit.or v.unit
  displayUnit := other.displayUnit.or v.displayUnit

end Variable

end Cosim
