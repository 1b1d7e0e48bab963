import Cosim.Dictionary.Record
import Cosim.Names

/-!
# Simulation settings

The settings of a run as a case dictionary gives them in its section `run.simulation`.
-/

namespace Cosim

/-- How a co-simulation advances. -/
inductive Algorithm where
  | fixedStep
deriving DecidableEq

namespace Algorithm

def text : Algorithm → String
  | .fixedStep => "fixedStep"

def all : List Algorithm := [.fixedStep]

def ofText? (s : String) : Option Algorithm := all.find? (·.text == s)

def ofText (s : String) : Except UnknownName Algorithm := named "algorithm" s (ofText? s)

end Algorithm

structure Simulation where
  name : Option String
  startTime : Option Double
  stopTime : Option Double
  baseStepSize : Option Double
  algorithm : Option Algorithm
deriving DecidableEq

namespace Simulation

def fields : List Dictionary.Field :=
  ["name", "startTime", "stopTime", "baseStepSize", "algorithm"].map .plain

/-- Reads the settings of a section.  A time that is no number and an unknown algorithm are left
out; a section whose fields are of the wrong kind gives no settings. -/
def ofValue? (v : Value) : Option Simulation := do
  match ← Dictionary.record? fields v with
  | [name, startTime, stopTime, baseStepSize, algorithm] =>
    let algorithm ← Dictionary.optionalText? algorithm
    let real (time : Option Value) : Option Double :=
      (Dictionary.optionalValue time).bind Value.asReal
    pure {
      name := (Dictionary.optionalValue name).bind Value.asText
      startTime := real startTime
      stopTime := real stopTime
      baseStepSize := real baseStepSize
      algorithm := algorithm.bind Algorithm.ofText? }
  | _ => none

/-- The settings of a case dictionary. -/
def ofDictionary? (d : Dictionary) : Option Simulation :=
  (d.lookup "run.simulation").bind ofValue?

end Simulation

end Cosim
