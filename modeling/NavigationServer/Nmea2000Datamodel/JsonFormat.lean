/-
NavigationServer.Nmea2000Datamodel.JsonFormat — the messages as JSON.

`push_json` of `generated_base` writes the header of a message and has the
formatters of its class write the fields, with commas between them. A formatter
reads an attribute of the message and writes it by its kind. The formatter of a
counter writes the list of the repeated items behind the counter, with a comma
behind an item as long as the counter is not reached.

A class has its formatters in a tuple. Where it has one only, the generated text
is a formatter between parentheses and no tuple.
-/
import Mathlib.Data.NNRat.Defs
import NavigationServer.Lib.DateTime
import NavigationServer.Lib.Json
import NavigationServer.Lib.Round
import NavigationServer.RouterCommon.Exceptions

namespace NavigationServer.Nmea2000Datamodel

open NavigationServer.Lib
open NavigationServer.Lib.Json (quoted)

/-! ## 1. The stream -/

/-- What a call has written on the stream, and what it has raised. -/
structure Written where
  text : List Char
  raised : Option Exn

def write (text : List Char) : Written := ⟨text, none⟩

namespace Written

def andThen (w next : Written) : Written :=
  match w.raised with
  | none => ⟨w.text ++ next.text, next.raised⟩
  | some _ => w

end Written

/-- A value is used, or what it raises is raised. -/
def reading {α : Type} (x : Except Exn α) (f : α → Written) : Written :=
  match x with
  | .ok a => f a
  | .error e => ⟨[], some e⟩

/-- The formatters write one after the other, with a comma between two. -/
def outputAll {F : Type} (output : F → Written) : List F → Written
  | [] => write []
  | [fmt] => output fmt
  | fmt :: fmt' :: formatters =>
      (output fmt).andThen ((write [',']).andThen (outputAll output (fmt' :: formatters)))

/-! ## 2. Numbers -/

/-- `str(n)`. -/
def str (n : Int) : List Char := (if n < 0 then ['-'] else []) ++ Nat.toDigits 10 n.natAbs

/-- The digits of a number, with zeros in front. -/
def padded (width n : Nat) : List Char := (Nat.toDigits 10 n).leftpad width '0'

/-- A floating point number. -/
inductive PyFloat where
  | nan
  | infinite (negative : Bool)
  | finite (negative : Bool) (size : NNRat)

namespace PyFloat

def isnan : PyFloat → Bool
  | nan => true
  | _ => false

def isfinite : PyFloat → Bool
  | finite .. => true
  | _ => false

def sign (negative : Bool) : List Char := if negative then ['-'] else []

/-- `'{:.nf}'.format(value)`, with `n` decimals. -/
def fixed (places : Nat) : PyFloat → List Char
  | nan => ['n', 'a', 'n']
  | infinite negative => sign negative ++ ['i', 'n', 'f']
  | finite negative size =>
      let n := (roundHalfEven (size * 10 ^ places)).toNat
      sign negative ++ (Nat.toDigits 10 (n / 10 ^ places) ++
        if places = 0 then [] else '.' :: padded places (n % 10 ^ places))

end PyFloat

/-- The format of the numbers of a unit. The generator takes `None` for the
format of a unit that has no precision. -/
inductive FormatStr where
  | precision (places : Nat)
  | none

def FormatStr.format : FormatStr → PyFloat → List Char
  | precision places, value => value.fixed places
  | none, _ => ['N', 'o', 'n', 'e']

/-- `datetime.isoformat()`. -/
def isoformat (d : DateTime) : List Char :=
  padded 4 d.year ++ '-' :: padded 2 d.month ++ '-' :: padded 2 d.day ++ 'T' :: padded 2 d.hour ++
    ':' :: padded 2 d.minute ++ ':' :: padded 2 d.second ++
    if d.microsecond = 0 then [] else '.' :: padded 6 d.microsecond

/-! ## 3. Options and definitions -/

namespace FormattingOptions

def resolveEnum : Nat := 1
def removeInvalid : Nat := 2
def alternativeUnits : Nat := 4

/-- `option & flag != 0`. -/
def isSet (option flag : Nat) : Bool := option &&& flag != 0

end FormattingOptions

open FormattingOptions

/-- The values of an enumeration with their names. The definitions may leave a
name out. -/
abbrev EnumDef := List (Int × Option (List Char))

/-- What the formatters use that is not of the message: the global enumerations,
the value in another unit (`value * coefficient + offset`), and the local time. -/
structure Environment where
  getGlobalEnum : String → Except Exn EnumDef
  convert : PyFloat → PyFloat × PyFloat → PyFloat
  fromtimestamp : PyFloat → Except Exn DateTime

/-- The attributes of an object, of which some may not be set. -/
structure Attributes where
  int : String → Option Int
  float : String → Option PyFloat
  text : String → Option (List Char)

/-- `__getattribute__`. -/
def getattribute {α : Type} (value : Option α) : Except Exn α :=
  match value with
  | some v => .ok v
  | none => .error .attributeError

/-! ## 4. Formatters of a value -/

/-- `GenericFormatter`, `FloatFormatter`, `EnumFormatter` and `TextFormatter`. -/
inductive FieldFormatter where
  | generic (attr : String) (fieldName : List Char) (invalidMask : Int)
  | float (attr : String) (fieldName : List Char) (formatStr : FormatStr)
      (scale : Option (PyFloat × PyFloat))
  | enum (attr : String) (fieldName : List Char) (invalidMask : Int) (enumDef : Option EnumDef)
      (globalRef : Option String)
  | text (attr : String) (fieldName : List Char)

/-- `FloatFormatter(attribute, field_name, format_str, alternative)`. -/
def floatFormatter (attr : String) (fieldName : List Char) (formatStr : FormatStr)
    (alternative : Option (PyFloat × PyFloat × FormatStr)) : FieldFormatter :=
  match alternative with
  | some (coefficient, offset, formatStr) =>
      .float attr fieldName formatStr (some (coefficient, offset))
  | none => .float attr fieldName formatStr none

/-- `_enum_def`, which a reference to a global enumeration sets. -/
def enumDefinition (env : Environment) (fieldName : List Char) (enumDef : Option EnumDef)
    (globalRef : Option String) : Except Exn EnumDef :=
  match enumDef, globalRef with
  | some enumDef, _ => .ok enumDef
  | none, some ref => env.getGlobalEnum ref
  | none, none => .error (.n2kDecode ("No Enum definition for " ++ String.ofList fieldName))

/-- The name of a value. A name that is left out cannot be written. -/
def enumText (enumDef : EnumDef) (value : Int) : Except Exn (List Char) :=
  match enumDef.lookup value with
  | some (some name) => .ok name
  | some none => .error .typeError
  | none => .ok ("Value out of range ".toList ++ str value)

/-- The value of a floating point field in the units asked for. -/
def shown (env : Environment) (option : Nat) (scale : Option (PyFloat × PyFloat)) (value : PyFloat) :
    PyFloat :=
  match scale with
  | some scale => if isSet option alternativeUnits then env.convert value scale else value
  | none => value

namespace FieldFormatter

def fieldName : FieldFormatter → List Char
  | generic _ fieldName _ => fieldName
  | float _ fieldName _ _ => fieldName
  | enum _ fieldName _ _ _ => fieldName
  | text _ fieldName => fieldName

def checkValid (o : Attributes) : FieldFormatter → Except Exn Bool
  | generic attr _ invalidMask => do return (← getattribute (o.int attr)) != invalidMask
  | float attr .. => do return !(← getattribute (o.float attr)).isnan
  | enum attr _ invalidMask _ _ => do return (← getattribute (o.int attr)) != invalidMask
  | text .. => .ok true

def format (env : Environment) (option : Nat) (o : Attributes) : FieldFormatter → Written
  | generic attr _ _ => reading (getattribute (o.int attr)) fun value => write (str value)
  | float attr _ formatStr scale =>
      reading (getattribute (o.float attr)) fun value =>
        if value.isnan then write (quoted ['n', 'a', 'n'])
        else write (formatStr.format (shown env option scale value))
  | enum attr fieldName _ enumDef globalRef =>
      if isSet option resolveEnum then
        reading (enumDefinition env fieldName enumDef globalRef) fun enumDef =>
          reading (getattribute (o.int attr)) fun value =>
            (write ['"']).andThen ((reading (enumText enumDef value) write).andThen (write ['"']))
      else reading (getattribute (o.int attr)) fun value => write (str value)
  | text attr _ =>
      (write ['"']).andThen
        ((reading (getattribute (o.text attr)) write).andThen (write ['"']))

def outputValid (env : Environment) (option : Nat) (o : Attributes) (fmt : FieldFormatter) : Written :=
  (write (quoted fmt.fieldName ++ [':'])).andThen (fmt.format env option o)

end FieldFormatter

/-- The formatters of which the values are valid. -/
def validFormatters {F : Type} (checkValid : F → Except Exn Bool) : List F → Except Exn (List F)
  | [] => .ok []
  | fmt :: formatters => do
      let valid ← checkValid fmt
      let kept ← validFormatters checkValid formatters
      return if valid then fmt :: kept else kept

/-- All formatters, or the valid ones. -/
def selected {F : Type} (option : Nat) (checkValid : F → Except Exn Bool) (formatters : List F) :
    Except Exn (List F) :=
  if isSet option removeInvalid then validFormatters checkValid formatters else .ok formatters

/-! ## 5. Repeated items -/

/-- `_json_format`: a formatter between parentheses, or a tuple. -/
inductive JsonFormat (F : Type) where
  | single (fmt : F)
  | tuple (formatters : List F)

/-- A formatter has no length, and nothing runs over it. -/
def JsonFormat.formatters {F : Type} : JsonFormat F → Except Exn (List F)
  | single _ => .error .typeError
  | tuple formatters => .ok formatters

/-- An object of a nested class. -/
structure Item where
  attributes : Attributes
  jsonFormat : JsonFormat FieldFormatter

/-- An item between its braces. -/
def writeItem (env : Environment) (option : Nat) (formatters : List FieldFormatter) (attr : Item) :
    Written :=
  (write ['{']).andThen
    ((reading (selected option (FieldFormatter.checkValid attr.attributes) formatters) fun kept =>
      outputAll (FieldFormatter.outputValid env option attr.attributes) kept).andThen (write ['}']))

/-- The items, with a comma behind an item while `items_written < nb_items`. -/
def writeItems (env : Environment) (option : Nat) (formatters : List FieldFormatter) (nbItems : Int) :
    Nat → List Item → Written
  | _, [] => write []
  | itemsWritten, attr :: repeatedAttr =>
      (writeItem env option formatters attr).andThen
        ((write (if ((itemsWritten + 1 : Nat) : Int) < nbItems then [','] else [])).andThen
          (writeItems env option formatters nbItems (itemsWritten + 1) repeatedAttr))

/-! ## 6. Messages -/

/-- A formatter of a value, or `RepeatedFormatter`. -/
inductive Formatter where
  | field (fmt : FieldFormatter)
  | repeated (attr : String) (fieldName : List Char) (listAttr : String)

/-- An object of a generated class. -/
structure DecodedMsg where
  timestamp : PyFloat
  priority : Int
  sa : Int
  da : Int
  pgn : Int
  name : List Char
  attributes : Attributes
  lists : String → Option (List Item)
  jsonFormat : JsonFormat Formatter

namespace Formatter

/-- The mask of a counter is 0. -/
def checkValid (msg : DecodedMsg) : Formatter → Except Exn Bool
  | field fmt => fmt.checkValid msg.attributes
  | repeated attr _ _ => do return (← getattribute (msg.attributes.int attr)) != 0

/-- The list behind a counter. The formatters are those of the first item. -/
def outputList (env : Environment) (option : Nat) (msg : DecodedMsg) (listAttr : String)
    (nbItems : Int) : Written :=
  (write (',' :: quoted ['l', 'i', 's', 't'] ++ [':', '['])).andThen
    (reading (getattribute (msg.lists listAttr)) fun repeatedAttr =>
      reading (item repeatedAttr 0) fun first =>
        reading first.jsonFormat.formatters fun formatters =>
          if formatters.length = 0 then ⟨[], some .assertionError⟩
          else (writeItems env option formatters nbItems 0 repeatedAttr).andThen (write [']']))

def outputValid (env : Environment) (option : Nat) (msg : DecodedMsg) : Formatter → Written
  | field fmt => fmt.outputValid env option msg.attributes
  | repeated attr fieldName listAttr =>
      (write (quoted fieldName ++ [':'])).andThen
        (reading (getattribute (msg.attributes.int attr)) fun nbItems =>
          (write (str nbItems)).andThen
            (if 0 < nbItems then outputList env option msg listAttr nbItems else write []))

end Formatter

namespace DecodedMsg

/-- `active_header`. -/
def activeHeader (timestamp : List Char) (priority sa da pgn : Int) (name : List Char) : List Char :=
  '{' :: quoted "timestamp:".toList ++ ':' :: quoted timestamp ++
    ',' :: quoted "prio".toList ++ ':' :: str priority ++
    ',' :: quoted "navigation_server".toList ++ ':' :: str sa ++
    ',' :: quoted "dst".toList ++ ':' :: str da ++
    ',' :: quoted "pgn".toList ++ ':' :: str pgn ++
    ',' :: quoted "description".toList ++ ':' :: quoted name ++
    ',' :: ' ' :: quoted "fields".toList ++ [':', '{']

def formatters (msg : DecodedMsg) (option : Nat) : Except Exn (List Formatter) := do
  selected option (Formatter.checkValid msg) (← msg.jsonFormat.formatters)

def pushJson (env : Environment) (msg : DecodedMsg) (option : Nat) : Written :=
  (reading (env.fromtimestamp msg.timestamp) fun timestamp =>
    write (activeHeader (isoformat timestamp) msg.priority msg.sa msg.da msg.pgn msg.name)).andThen
    (reading (msg.formatters option) fun formatters =>
      if formatters.length = 0 then ⟨[], some .assertionError⟩
      else (outputAll (Formatter.outputValid env option msg) formatters).andThen (write ['}', '}']))

end DecodedMsg

end NavigationServer.Nmea2000Datamodel
