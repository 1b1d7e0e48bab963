/-!
# Names of fixed sets

A value of a fixed set is read by its name; a text that names none of them is an error that says
what it should have named.
-/

namespace Cosim

/-- A text that names nothing of a kind. -/
structure UnknownName where
  kind : String
  name : String

def UnknownName.message (e : UnknownName) : String := s!"Invalid {e.kind}: {e.name}"

/-- The value of a kind that was found under a name. -/
def named {α : Type} (kind name : String) (found : Option α) : Except UnknownName α :=
  match found with
  | some a => .ok a
  | none => .error ⟨kind, name⟩

end Cosim
