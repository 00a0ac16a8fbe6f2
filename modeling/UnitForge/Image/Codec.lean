import UnitForge.Image
import UnitForge.Image.Fault

/-! # Image bytes

An image is written as a magic number, a format version and a payload. In the payload a natural
number takes one byte below 251 and else a tag and two, four or eight bytes; signed numbers are
folded into natural ones first, texts and lists are preceded by their lengths, and a choice is
preceded by the number of the alternative. Reading accepts any of the widths. -/
set_option autoImplicit false
namespace UnitForge.Codec

def magic : Bytes := [0x4D, 0x45, 0x4D, 0x55]

def formatVersion : Nat := 1

/-! ## Writing -/

def littleEndian : Nat → Nat → Bytes
  | 0, _ => []
  | count + 1, n => n.toUInt8 :: littleEndian count (n / 256)

def writeNat (n : Nat) : Bytes :=
  if n < 251 then [n.toUInt8]
  else if n < 2 ^ 16 then 251 :: littleEndian 2 n
  else if n < 2 ^ 32 then 252 :: littleEndian 4 n
  else 253 :: littleEndian 8 n

/-- Integers in the order 0, -1, 1, -2, 2 and so on. -/
def toZigzag (i : Int) : Nat :=
  if 0 ≤ i then 2 * i.toNat else 2 * (-i).toNat - 1

def ofZigzag (n : Nat) : Int :=
  if n % 2 = 0 then (n / 2 : Nat) else -((n / 2 + 1 : Nat) : Int)

def writeInt (i : Int64) : Bytes :=
  writeNat (toZigzag i.toInt)

def writeFloat (x : Binary64) : Bytes :=
  littleEndian 8 x.bits.toNat

def writeBool (b : Bool) : Bytes :=
  [if b then 1 else 0]

def writeText (s : String) : Bytes :=
  let bytes := Text.utf8 s
  writeNat bytes.length ++ bytes

def writeList {α : Type} (write : α → Bytes) (items : List α) : Bytes :=
  writeNat items.length ++ items.flatMap write

def writeType : TypeRef → Bytes
  | .int => writeNat 0
  | .float => writeNat 1
  | .bool => writeNat 2
  | .str => writeNat 3
  | .unit name => writeNat 4 ++ writeText name

def unaryIndex : UnaryOp → Nat
  | .neg => 0
  | .not => 1

def binaryIndex : BinaryOp → Nat
  | .add => 0
  | .sub => 1
  | .mul => 2
  | .div => 3
  | .rem => 4
  | .concat => 5
  | .eq => 6
  | .ne => 7
  | .lt => 8
  | .le => 9
  | .gt => 10
  | .ge => 11
  | .and => 12
  | .or => 13

mutual

def writeExpr : Expr → Bytes
  | .null => writeNat 0
  | .int value => writeNat 1 ++ writeInt value
  | .float value => writeNat 2 ++ writeFloat value
  | .bool value => writeNat 3 ++ writeBool value
  | .str value => writeNat 4 ++ writeText value
  | .slot index => writeNat 5 ++ writeNat index.toNat
  | .unary op operand => writeNat 6 ++ (writeNat (unaryIndex op) ++ writeExpr operand)
  | .binary op left right =>
    writeNat 7 ++ (writeNat (binaryIndex op) ++ (writeExpr left ++ writeExpr right))
  | .cast operand type => writeNat 8 ++ (writeExpr operand ++ writeType type)
  | .toText operand => writeNat 9 ++ writeExpr operand
  | .length operand => writeNat 10 ++ writeExpr operand
  | .construct unit constructor args =>
    writeNat 11 ++ (writeText unit ++ (writeText constructor ++
      (writeNat args.length ++ writeExprs args)))

def writeExprs : List Expr → Bytes
  | [] => []
  | first :: rest => writeExpr first ++ writeExprs rest

end

def writeStmt (stmt : Stmt) : Bytes :=
  writeNat 0 ++ (writeNat stmt.slot.toNat ++ writeExpr stmt.value)

def writeField (field : FieldDecl) : Bytes :=
  writeText field.name ++ writeType field.type

def writeParam (param : ParamDecl) : Bytes :=
  writeText param.name ++ writeType param.type

def writeConstructor (ctor : ConstructorDecl) : Bytes :=
  writeText ctor.name ++ (writeList writeParam ctor.params ++ (writeNat ctor.locals.toNat ++
    (writeList writeStmt ctor.body ++ (writeNat ctor.init.length ++ writeExprs ctor.init))))

def writePayload (image : UnitImage) : Bytes :=
  writeText image.name ++ (writeText image.source ++ (writeList writeField image.fields ++
    writeList writeConstructor image.constructors))

def header : Bytes :=
  magic ++ littleEndian 2 formatVersion

/-! ## Reading -/

abbrev Reader (α : Type) := Bytes → Except WireFault (α × Bytes)

def take (count : Nat) : Reader Bytes := fun bytes =>
  if bytes.length < count then .error (.unexpectedEnd (count - bytes.length))
  else .ok (bytes.take count, bytes.drop count)

def natOfLittleEndian : Bytes → Nat
  | [] => 0
  | b :: rest => b.toNat + 256 * natOfLittleEndian rest

def readFixed (count : Nat) : Reader Nat := fun bytes => do
  let (taken, rest) ← take count bytes
  return (natOfLittleEndian taken, rest)

/-- What a tag means: the number itself, a width in bytes, or a number too wide or none at all. -/
inductive Tag where
  | small (n : Nat)
  | wide (count : Nat)
  | tooWide
  | reserved
  deriving DecidableEq, Repr

def tagOf (b : UInt8) : Tag :=
  let n := b.toNat
  if n < 251 then .small n
  else if n = 251 then .wide 2
  else if n = 252 then .wide 4
  else if n = 253 then .wide 8
  else if n = 254 then .tooWide
  else .reserved

/-- The integer types that a fault in a number names: for a number of 64 bits the narrower type
once the eight bytes that could follow the tag are there. -/
structure WireNames where
  expected : WireInteger
  expectedAhead : WireInteger
  tooWide : WireInteger
  deriving DecidableEq, Repr

def WireNames.wanted (names : WireNames) (rest : Bytes) : WireInteger :=
  if rest.length < 8 then names.expected else names.expectedAhead

def readNat (width : Nat) (names : WireNames) : Reader Nat := fun bytes =>
  match bytes with
  | [] => .error (.unexpectedEnd 1)
  | b :: rest =>
    match tagOf b with
    | .small n => .ok (n, rest)
    | .wide count =>
      if count ≤ width then readFixed count rest
      else .error (.invalidInteger (names.wanted rest) .u64)
    | .tooWide => .error (.invalidInteger (names.wanted rest) names.tooWide)
    | .reserved => .error (.invalidInteger (names.wanted rest) .reserved)

/-- A number of at most 32 bits; the numbers of alternatives are read alike. -/
def readU32 : Reader Nat := readNat 4 ⟨.u32, .u32, .u128⟩

def readLength : Reader Nat := readNat 8 ⟨.u64, .u32, .u128⟩

def readInt : Reader Int64 := fun bytes => do
  let (n, rest) ← readNat 8 ⟨.i64, .i32, .i128⟩ bytes
  return (Int64.ofInt (ofZigzag n), rest)

def readFloat : Reader Binary64 := fun bytes => do
  let (n, rest) ← readFixed 8 bytes
  return (⟨n.toUInt64⟩, rest)

def readBool : Reader Bool := fun bytes =>
  match bytes with
  | [] => .error (.unexpectedEnd 1)
  | b :: rest =>
    if b.toNat = 0 then .ok (false, rest)
    else if b.toNat = 1 then .ok (true, rest)
    else .error (.invalidBool b.toNat)

/-- A text; its bytes are looked at once they are all there. -/
def readText : Reader String := fun bytes => do
  let (length, rest) ← readLength bytes
  let (taken, rest) ← take length rest
  match Text.ofUtf8 taken with
  | .ok s => return (s, rest)
  | .error fault => .error (.invalidText fault)

def readMany {α : Type} (read : Reader α) : Nat → Reader (List α)
  | 0, bytes => .ok ([], bytes)
  | count + 1, bytes => do
    let (first, rest) ← read bytes
    let (others, rest) ← readMany read count rest
    return (first :: others, rest)

def readList {α : Type} (read : Reader α) : Reader (List α) := fun bytes => do
  let (length, rest) ← readLength bytes
  readMany read length rest

def readType : Reader TypeRef := fun bytes => do
  let (index, rest) ← readU32 bytes
  match index with
  | 0 => return (.int, rest)
  | 1 => return (.float, rest)
  | 2 => return (.bool, rest)
  | 3 => return (.str, rest)
  | 4 =>
    let (name, rest) ← readText rest
    return (.unit name, rest)
  | other => .error (.unexpectedVariant "TypeRef" 4 other)

def readUnaryOp : Reader UnaryOp := fun bytes => do
  let (index, rest) ← readU32 bytes
  match index with
  | 0 => return (.neg, rest)
  | 1 => return (.not, rest)
  | other => .error (.unexpectedVariant "UnaryOp" 1 other)

def readBinaryOp : Reader BinaryOp := fun bytes => do
  let (index, rest) ← readU32 bytes
  match index with
  | 0 => return (.add, rest)
  | 1 => return (.sub, rest)
  | 2 => return (.mul, rest)
  | 3 => return (.div, rest)
  | 4 => return (.rem, rest)
  | 5 => return (.concat, rest)
  | 6 => return (.eq, rest)
  | 7 => return (.ne, rest)
  | 8 => return (.lt, rest)
  | 9 => return (.le, rest)
  | 10 => return (.gt, rest)
  | 11 => return (.ge, rest)
  | 12 => return (.and, rest)
  | 13 => return (.or, rest)
  | other => .error (.unexpectedVariant "BinaryOp" 13 other)

/-- An expression, of which at most `fuel` levels are read. Each level takes a byte at least, so
with as much fuel as there are bytes the answer without fuel is the answer without bytes. -/
def readExpr : Nat → Reader Expr
  | 0, _ => .error (.unexpectedEnd 1)
  | fuel + 1, bytes => do
    let (index, rest) ← readU32 bytes
    match index with
    | 0 => return (.null, rest)
    | 1 =>
      let (value, rest) ← readInt rest
      return (.int value, rest)
    | 2 =>
      let (value, rest) ← readFloat rest
      return (.float value, rest)
    | 3 =>
      let (value, rest) ← readBool rest
      return (.bool value, rest)
    | 4 =>
      let (value, rest) ← readText rest
      return (.str value, rest)
    | 5 =>
      let (slot, rest) ← readU32 rest
      return (.slot slot.toUInt32, rest)
    | 6 =>
      let (op, rest) ← readUnaryOp rest
      let (operand, rest) ← readExpr fuel rest
      return (.unary op operand, rest)
    | 7 =>
      let (op, rest) ← readBinaryOp rest
      let (left, rest) ← readExpr fuel rest
      let (right, rest) ← readExpr fuel rest
      return (.binary op left right, rest)
    | 8 =>
      let (operand, rest) ← readExpr fuel rest
      let (type, rest) ← readType rest
      return (.cast operand type, rest)
    | 9 =>
      let (operand, rest) ← readExpr fuel rest
      return (.toText operand, rest)
    | 10 =>
      let (operand, rest) ← readExpr fuel rest
      return (.length operand, rest)
    | 11 =>
      let (unit, rest) ← readText rest
      let (constructor, rest) ← readText rest
      let (args, rest) ← readList (readExpr fuel) rest
      return (.construct unit constructor args, rest)
    | other => .error (.unexpectedVariant "Expr" 11 other)

def readStmt : Reader Stmt := fun bytes => do
  let (index, rest) ← readU32 bytes
  match index with
  | 0 =>
    let (slot, rest) ← readU32 rest
    let (value, rest) ← readExpr rest.length rest
    return ({ slot := slot.toUInt32, value }, rest)
  | other => .error (.unexpectedVariant "Stmt" 0 other)

def readField : Reader FieldDecl := fun bytes => do
  let (name, rest) ← readText bytes
  let (type, rest) ← readType rest
  return ({ name, type }, rest)

def readParam : Reader ParamDecl := fun bytes => do
  let (name, rest) ← readText bytes
  let (type, rest) ← readType rest
  return ({ name, type }, rest)

def readConstructor : Reader ConstructorDecl := fun bytes => do
  let (name, rest) ← readText bytes
  let (params, rest) ← readList readParam rest
  let (locals, rest) ← readU32 rest
  let (body, rest) ← readList readStmt rest
  let (init, rest) ← readList (fun bytes => readExpr bytes.length bytes) rest
  return ({ name, params, locals := locals.toUInt32, body, init }, rest)

def readPayload : Reader UnitImage := fun bytes => do
  let (name, rest) ← readText bytes
  let (source, rest) ← readText rest
  let (fields, rest) ← readList readField rest
  let (constructors, rest) ← readList readConstructor rest
  return ({ name, source, fields, constructors }, rest)

end UnitForge.Codec

namespace UnitForge.UnitImage

def encode (image : UnitImage) : Bytes :=
  Codec.header ++ Codec.writePayload image

/-- The image of the unit `name` that bytes hold, with nothing behind it. -/
def decode (name : String) (bytes : Bytes) : Except Malformation UnitImage :=
  if bytes.length < Codec.header.length ∨ bytes.take Codec.magic.length ≠ Codec.magic then
    .error .missingHeader
  else
    let version :=
      Codec.natOfLittleEndian ((bytes.drop Codec.magic.length).take 2)
    if version ≠ Codec.formatVersion then
      .error (.unsupportedVersion version Codec.formatVersion)
    else match Codec.readPayload (bytes.drop Codec.header.length) with
      | .error fault => .error (.unreadable fault)
      | .ok (image, rest) =>
        if rest ≠ [] then .error (.trailingBytes rest.length)
        else if image.name ≠ name then .error (.otherName image.name)
        else .ok image

end UnitForge.UnitImage
