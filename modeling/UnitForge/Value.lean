import UnitForge.Binary64.Text
import UnitForge.Files.Path
import UnitForge.Image
import UnitForge.Text.Quoted

/-! # Values

The values that fields and parameters hold. A unit that was defined has an identity of its own,
which two units of one name do not share; the same holds for every instance. -/
set_option autoImplicit false
namespace UnitForge

abbrev LoaderId := Nat

/-- A unit that a loader has defined. Names in its code are looked up by `resolver`. -/
structure UnitType where
  id : Nat
  image : UnitImage
  origin : Option Path
  resolver : LoaderId
  deriving Repr

namespace UnitType

def name (unit : UnitType) : String := unit.image.name

def simpleName (unit : UnitType) : String := Name.simple unit.name

def package (unit : UnitType) : String := Name.package unit.name

def fields (unit : UnitType) : List FieldDecl := unit.image.fields

def constructors (unit : UnitType) : List ConstructorDecl := unit.image.constructors

def inspect (unit : UnitType) : String :=
  let origin := match unit.origin with
    | some path => s!"Some({Text.quotedPath path.text})"
    | none => "None"
  s!"UnitType \x7b name: {Text.quoted unit.name}, origin: {origin}, " ++
    s!"fields: {unit.fields.length}, constructors: {unit.constructors.length} \x7d"

end UnitType

/-- A value. An object is an instance with its identity, its unit and the values of the fields. -/
inductive Value where
  | null
  | int (value : Int64)
  | float (value : Binary64)
  | bool (value : Bool)
  | str (value : String)
  | object (id : Nat) (unit : UnitType) (fields : List Value)
  deriving Repr, Inhabited

structure Instance where
  id : Nat
  unit : UnitType
  fields : List Value
  deriving Repr

def Instance.toValue (object : Instance) : Value :=
  .object object.id object.unit object.fields

namespace Value

/-- The type of a value; only null has none. -/
def type? : Value → Option TypeRef
  | null => none
  | int _ => some .int
  | float _ => some .float
  | bool _ => some .bool
  | str _ => some .str
  | object _ unit _ => some (.unit unit.name)

def isNull : Value → Bool
  | null => true
  | _ => false

def instance? : Value → Option Instance
  | object id unit fields => some { id, unit, fields }
  | _ => none

def equal : Value → Value → Bool
  | null, null => true
  | int a, int b => a = b
  | float a, float b => a.equal b
  | bool a, bool b => a = b
  | str a, str b => a = b
  | object a _ _, object b _ _ => a = b
  | _, _ => false

mutual

def text : Value → String
  | null => "null"
  | int value => toString value.toInt
  | float value => value.display
  | bool value => if value then "true" else "false"
  | str value => value
  | object _ unit fields =>
    let last := if fields.isEmpty then "\x7d" else " \x7d"
    unit.simpleName ++ " \x7b" ++ fieldTexts "" unit.fields fields ++ last

/-- The values of fields, each with its name; texts are quoted. -/
def fieldTexts (separator : String) : List FieldDecl → List Value → String
  | decl :: decls, value :: values =>
    let written := match value with
      | str s => Text.quoted s
      | _ => text value
    separator ++ " " ++ decl.name ++ ": " ++ written ++ fieldTexts "," decls values
  | _, _ => ""

end

mutual

def inspect : Value → String
  | null => "Null"
  | int value => s!"Int({value.toInt})"
  | float value => s!"Float({value.debug})"
  | bool value => if value then "Bool(true)" else "Bool(false)"
  | str value => s!"Str({Text.quoted value})"
  | object _ unit fields =>
    "Object(Instance \x7b unit: " ++ unit.inspect ++ ", fields: [" ++ inspectAll fields ++
      "] \x7d)"

def inspectAll : List Value → String
  | [] => ""
  | [value] => inspect value
  | value :: rest => inspect value ++ ", " ++ inspectAll rest

end

mutual

def units : Value → List UnitType
  | object _ unit fields => unit :: unitsOfAll fields
  | _ => []

def unitsOfAll : List Value → List UnitType
  | [] => []
  | value :: rest => units value ++ unitsOfAll rest

end

end Value

namespace Instance

def get? (object : Instance) (field : String) : Option Value :=
  (object.unit.image.fieldIndex? field).bind (object.fields[·]?)

def text (object : Instance) : String :=
  object.toValue.text

def inspect (object : Instance) : String :=
  s!"Instance \x7b unit: {object.unit.inspect}, fields: [{Value.inspectAll object.fields}] \x7d"

end Instance

end UnitForge
