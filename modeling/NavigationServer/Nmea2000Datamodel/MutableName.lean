/-
NavigationServer.Nmea2000Datamodel.MutableName — the NAME that a group function
changes.

An object of the class keeps the dictionary of its fields, the number that is
built from it and the bytes of that number. `modify_parameters` changes the
dictionary for each pair that it accepts, and builds the number once, at the
end.
-/
import NavigationServer.Lib.Words
import NavigationServer.Nmea2000Datamodel.Name
import NavigationServer.RouterCommon.Exceptions

namespace NavigationServer.Nmea2000Datamodel

open NavigationServer.Lib

/-- The fields that make up the number: all but the whole value. -/
def packedFields : List NameField := nameFields.take 10

/-- An object of `NMEA2000MutableName`. -/
structure MutableName where
  valueDict : NMEA2000MutableName
  value : Nat
  bytes : Bytes

namespace MutableName

/-- `build_value`. -/
def buildValue (valueDict : NMEA2000MutableName) : MutableName where
  valueDict
  value := valueDict.intValue
  bytes := toLE 8 valueDict.intValue

/-- The name of a field is known. -/
def knownField (key : String) : Bool := nameFields.any (fun f => f.name = key)

/-- `__init__`. A field that is not known is left out. -/
def init (kwargs : AList (fun _ : String => Nat)) : MutableName :=
  buildValue (kwargs.entries.foldl
    (fun dict entry => if knownField entry.1 then dict.insert entry.1 entry.2 else dict) ∅)

/-- `__getattr__`, which reads a field off the number. -/
def getattr (m : MutableName) (item : String) : Except Exn Nat :=
  match nameFields.find? (fun f => f.name = item) with
  | some field => .ok (field.extractField m.value)
  | none => .error .attributeError

/-- The field of a key of `parameter_set_table`. -/
def parameterField : Int → Option NameField
  | .ofNat number => NMEA2000MutableName.parameterSetTable number
  | .negSucc _ => none

/-- One turn of the loop of `modify_parameters`: the results, whether there is a
change, and the dictionary. -/
def modifyTurn (turn : List Nat × Bool × NMEA2000MutableName) (param : Int × Int) :
    List Nat × Bool × NMEA2000MutableName :=
  let (result, change, dict) := turn
  match parameterField param.1 with
  | none => (result ++ [1], change, dict)
  | some field =>
      if param.2 < 0 ∨ (field.mask : Int) < param.2 then (result ++ [3], change, dict)
      else (result ++ [0], true, dict.insert field.name param.2.toNat)

def modifyParameters (m : MutableName) (params : List (Int × Int)) : List Nat × MutableName :=
  let (result, change, dict) := params.foldl modifyTurn ([], false, m.valueDict)
  (result, if change then buildValue dict else m)

end MutableName

end NavigationServer.Nmea2000Datamodel
