import Cosim.Case

/-!
# Watch plans

The settings of a watch dictionary: the data columns of the sources, how tables are delimited, and
what is known about the simulation.
-/

namespace Cosim.Watch

open Dictionary (Field record? optionalText? optionalValue entriesField?)

structure Plan where
  /-- the data columns of sources; an empty list stands for all -/
  dataColumns : Entries (List Nat)
  delimiter : Char
  simulationName : String
  endTime : Option Double
  timeColumn : String

namespace Plan

/-- An index of 64 bits. -/
def index? : Value → Option Nat
  | .number (.int i) => if 0 ≤ i ∧ i < Nat.pow 2 64 then some i.toNat else none
  | _ => none

/-- The data columns of a source. -/
def columns? (v : Value) : Option (List Nat) := do
  match ← record? [.withDefault ["dataColumns"]] v with
  | [none] => pure []
  | [some (.list indices)] => indices.mapM index?
  | _ => none

/-- The name and the end time of the simulation. -/
def simulation? : Option Value → Option (Option String × Option Double)
  | none => some (none, none)
  | some v => do
    match ← record? [.plain "name", .plain "endTime"] v with
    | [name, endTime] =>
      pure (← optionalText? name, (optionalValue endTime).bind Value.asReal)
    | _ => none

/-- A text of a single byte is a delimiter, and a comma stands for any other. -/
def delimiterOf (s : Option String) : Char :=
  match s with
  | some s => if s.utf8ByteSize == 1 then s.toList.headD ',' else ','
  | none => ','

/-- The plan of a dictionary, unless its fields are of the wrong kind. -/
def ofDictionary? (d : Dictionary) (defaultName : String) : Option Plan := do
  let fields : List Field :=
    [.withDefault ["datasources"], .plain "delimiter", .withDefault ["simulation"],
      .plain "timeColumn"]
  match ← record? fields (.object d) with
  | [sources, delimiter, simulation, timeColumn] =>
    let (name, endTime) ← simulation? simulation
    pure {
      dataColumns := ← entriesField? columns? sources
      delimiter := delimiterOf (← optionalText? delimiter)
      simulationName := name.getD defaultName
      endTime := endTime
      timeColumn := (← optionalText? timeColumn).getD "Time" }
  | _ => none

/-- The plan of a dictionary, whose wrong form is a failure. -/
def ofDictionary (d : Dictionary) (defaultName : String) : Except Failure Plan :=
  match ofDictionary? d defaultName with
  | some plan => .ok plan
  | none => .error (.case .malformedWatch)

/-- Reads a watch dictionary.  A simulation without a name is named after the folder. -/
def load (path : String) : Action Plan := do
  let d ← Dictionary.load path
  let folderName := ((Path.parent? path).bind Path.fileName?).getD "simulation"
  Action.ofExcept (ofDictionary d folderName)

end Plan

end Cosim.Watch
