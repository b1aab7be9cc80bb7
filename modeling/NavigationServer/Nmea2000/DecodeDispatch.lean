/-
NavigationServer.Nmea2000.DecodeDispatch — from a message to an object of a
generated class.

`generatedClasses` is the dictionary at the end of the generated file: the
generator writes an entry for each class, and of the entries with one key the
last one is kept. The dispatcher also takes dictionaries by manufacturer for its
entries; the generator writes none.
-/
import NavigationServer.CodeGeneration.PythonGen
import NavigationServer.Nmea2000Datamodel.PgnDefinition
import NavigationServer.RouterCore.Nmea2000Msg

namespace NavigationServer.Nmea2000

open NavigationServer.Lib NavigationServer.CodeGeneration NavigationServer.Nmea2000Datamodel
open NavigationServer.RouterCore

/-! ## 1. The dictionary -/

inductive ClassEntry where
  | generated (c : GeneratedClass)
  | byManufacturer (variants : List (Nat × GeneratedClass))
  deriving DecidableEq, Repr

abbrev ClassDictionary := List (Nat × ClassEntry)

/-- What `gen_classes` writes. -/
def generatedClasses (classes : List GeneratedClass) : ClassDictionary :=
  classes.map (fun c => (c.pgn, .generated c))

/-- The last entry of a key. -/
def ClassDictionary.find (d : ClassDictionary) (pgn : Nat) : Option ClassEntry :=
  (d.reverse.find? (fun entry => entry.1 = pgn)).map Prod.snd

/-! ## 2. Messages -/

variable {F : Type}

/-- The message of an object. -/
def message [PythonFloat F] (c : GeneratedClass) (o : Obj F) (prio sa da : Nat) : Except Exn NMEA2000Msg := do
  let payload ← c.encodePayload o
  return .of c.pgn prio sa da payload

/-- The class for a message. A dictionary cannot be called. -/
def classOf (entry : ClassEntry) (msg : NMEA2000Msg) : Except Exn GeneratedClass := do
  if ← isPgnProprietary msg.pgn then
    match entry with
    | .generated c => return c
    | .byManufacturer variants =>
        let mfgId ← msg.getManufacturer
        match variants.lookup mfgId with
        | some c => return c
        | none => throw .n2kMissingDecodeEncode
  else
    match entry with
    | .generated c => return c
    | .byManufacturer _ => throw .typeError

/-- `get_n2k_decoded_object`: an object, and its class. -/
def getN2kDecodedObject [PythonFloat F] (printable : Char → Bool) (classes : ClassDictionary) (msg : NMEA2000Msg) :
    Except Exn (GeneratedClass × Obj F) :=
  match classes.find msg.pgn with
  | none => .error .n2kMissingDecodeEncode
  | some entry => do
      let c ← classOf entry msg
      let o ← c.decodePayload printable msg.payload
      return (c, o)

end NavigationServer.Nmea2000
