import Cosim.Osp.Model
import Cosim.System.Component

/-!
# The OSP model description of a component

The units of a component, and one group for each of its variables.  What is zero or default in a
unit is left out.
-/

namespace Cosim

/-- A number unless it is the default. -/
def unlessDefault (default x : Double) : Option Double :=
  if x.sameValue default then none else some x

def BaseUnit.toOsp (u : BaseUnit) : Osp.BaseUnit where
  exponents := u.exponents.map fun (_, n) => if n == 0 then none else some n
  factor := unlessDefault Double.one u.factor
  offset := unlessDefault Double.zero u.offset

def DisplayUnit.toOsp (u : DisplayUnit) : Osp.DisplayUnit where
  name := u.name
  factor := unlessDefault Double.one u.factor
  offset := unlessDefault Double.zero u.offset

def UnitDefinition.toOsp (u : UnitDefinition) : Osp.Unit where
  name := u.name
  base := u.base.map BaseUnit.toOsp
  display := u.display.map DisplayUnit.toOsp

/-- The group of a single variable, which is named after the quantity of the variable. -/
def Variable.group (v : Variable) : Osp.Group where
  name := v.quantity.getD Connector.unknown
  members := [⟨v.name, some (v.unit.getD Connector.unknown)⟩]

def Component.ospModel (c : Component) : Osp.Model :=
  .of (c.units.values.map UnitDefinition.toOsp) (c.scalarVariables.values.map Variable.group)

end Cosim
