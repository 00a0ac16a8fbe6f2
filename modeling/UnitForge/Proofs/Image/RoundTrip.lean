import UnitForge.Image.Codec
import UnitForge.Proofs.Text.Utf8

/-! # Image round trip

Reading takes back what was written and leaves whatever follows. Lengths are written in 64 bits at
most, so that the texts and lists of an image must not be longer than that can tell. -/
set_option autoImplicit false
namespace UnitForge.Codec

variable {α β : Type}

theorem ok_bind {ε : Type} (value : α) (next : α → Except ε β) :
    (Except.ok value >>= next) = next value :=
  rfl

/-! ## Numbers -/

theorem length_littleEndian (count n : Nat) : (littleEndian count n).length = count := by
  induction count generalizing n with
  | zero => rfl
  | succ count ih => rw [littleEndian, List.length_cons, ih]

theorem natOfLittleEndian_littleEndian {count n : Nat} (fits : n < 256 ^ count) :
    natOfLittleEndian (littleEndian count n) = n := by
  induction count generalizing n with
  | zero =>
      rw [Nat.pow_zero] at fits
      exact (Nat.lt_one_iff.mp fits).symm
  | succ count ih =>
      have higher : n / 256 < 256 ^ count := by
        rw [Nat.pow_succ] at fits
        exact Nat.div_lt_of_lt_mul (by rwa [Nat.mul_comm] at fits)
      have byte : n.toUInt8.toNat = n % 256 := UInt8.toNat_ofNat'
      rw [littleEndian, natOfLittleEndian, ih higher, byte]
      exact Nat.mod_add_div n 256

theorem take_append (bytes rest : Bytes) : take bytes.length (bytes ++ rest) = .ok (bytes, rest) := by
  have enough : ¬(bytes ++ rest).length < bytes.length := by simp
  rw [take, if_neg enough, List.take_left, List.drop_left]

theorem readFixed_littleEndian {count n : Nat} (fits : n < 256 ^ count) (rest : Bytes) :
    readFixed count (littleEndian count n ++ rest) = .ok (n, rest) := by
  have taken := take_append (littleEndian count n) rest
  rw [length_littleEndian] at taken
  rw [readFixed, taken, ok_bind]
  dsimp only
  rw [natOfLittleEndian_littleEndian fits]
  rfl

theorem readNat_wide {tag : UInt8} {count width n : Nat} {names : WireNames}
    (meant : tagOf tag = .wide count) (enough : count ≤ width) (fits : n < 256 ^ count)
    (rest : Bytes) : readNat width names (tag :: littleEndian count n ++ rest) = .ok (n, rest) := by
  rw [List.cons_append, readNat]
  simp only [meant, if_pos enough]
  exact readFixed_littleEndian fits rest

theorem readNat_writeNat {width n : Nat} (fits : n < 2 ^ 32 ∧ 4 ≤ width ∨ n < 2 ^ 64 ∧ 8 ≤ width)
    (names : WireNames) (rest : Bytes) :
    readNat width names (writeNat n ++ rest) = .ok (n, rest) := by
  unfold writeNat
  split
  · rename_i small
    have byte : n.toUInt8.toNat = n := Text.toNat_toUInt8 (by omega)
    simp only [List.cons_append, List.nil_append, readNat, tagOf, byte, if_pos small]
  split
  · rename_i two
    exact readNat_wide rfl (by omega) (by omega) rest
  split
  · rename_i four
    exact readNat_wide rfl (by omega) (by omega) rest
  · exact readNat_wide rfl (by omega) (by omega) rest

theorem readU32_writeNat {n : Nat} (fits : n < 2 ^ 32) (rest : Bytes) :
    readU32 (writeNat n ++ rest) = .ok (n, rest) :=
  readNat_writeNat (.inl ⟨fits, le_rfl⟩) _ rest

theorem readLength_writeNat {n : Nat} (fits : n < 2 ^ 64) (rest : Bytes) :
    readLength (writeNat n ++ rest) = .ok (n, rest) :=
  readNat_writeNat (.inr ⟨fits, le_rfl⟩) _ rest

theorem ofZigzag_toZigzag (i : Int) : ofZigzag (toZigzag i) = i := by
  unfold toZigzag ofZigzag
  split <;> split <;> omega

theorem readInt_writeInt (i : Int64) (rest : Bytes) :
    readInt (writeInt i ++ rest) = .ok (i, rest) := by
  have low := i.le_toInt
  have high := i.toInt_lt
  have fits : toZigzag i.toInt < 2 ^ 64 := by
    unfold toZigzag
    split <;> omega
  rw [readInt, writeInt, readNat_writeNat (.inr ⟨fits, le_rfl⟩), ok_bind]
  simp only [ofZigzag_toZigzag, Int64.ofInt_toInt]
  rfl

theorem readFloat_writeFloat (x : Binary64) (rest : Bytes) :
    readFloat (writeFloat x ++ rest) = .ok (x, rest) := by
  have fits : x.bits.toNat < 256 ^ 8 := x.bits.toNat_lt
  rw [readFloat, writeFloat, readFixed_littleEndian fits, ok_bind]
  simp only [Nat.toUInt64, UInt64.ofNat_toNat]
  rfl

theorem readBool_writeBool (b : Bool) (rest : Bytes) :
    readBool (writeBool b ++ rest) = .ok (b, rest) := by
  cases b <;> rfl

/-! ## Texts and lists -/

/-- The length of a text can be written. -/
def TextFits (s : String) : Prop :=
  (Text.utf8 s).length < 2 ^ 64

theorem readText_writeText {s : String} (fits : TextFits s) (rest : Bytes) :
    readText (writeText s ++ rest) = .ok (s, rest) := by
  unfold readText writeText
  dsimp only
  rw [List.append_assoc, readLength_writeNat fits, ok_bind, take_append, ok_bind, Text.ofUtf8_utf8]
  rfl

theorem readMany_flatMap {read : Reader α} {write : α → Bytes} {items : List α}
    (each : ∀ item ∈ items, ∀ rest, read (write item ++ rest) = .ok (item, rest)) (rest : Bytes) :
    readMany read items.length (items.flatMap write ++ rest) = .ok (items, rest) := by
  induction items with
  | nil => rfl
  | cons first others ih =>
      have later := ih fun item member => each item (List.mem_cons_of_mem _ member)
      rw [List.length_cons, readMany, List.flatMap_cons, List.append_assoc,
        each first List.mem_cons_self, ok_bind]
      dsimp only
      rw [later]
      rfl

theorem readList_writeList {read : Reader α} {write : α → Bytes} {items : List α}
    (fits : items.length < 2 ^ 64)
    (each : ∀ item ∈ items, ∀ rest, read (write item ++ rest) = .ok (item, rest)) (rest : Bytes) :
    readList read (writeList write items ++ rest) = .ok (items, rest) := by
  unfold readList writeList
  rw [List.append_assoc, readLength_writeNat fits, ok_bind]
  exact readMany_flatMap each rest

end UnitForge.Codec

namespace UnitForge

open Codec

/-! ## What can be written -/

def TypeRef.Fits : TypeRef → Prop
  | .unit name => TextFits name
  | _ => True

mutual

def Expr.Fits : Expr → Prop
  | .str value => TextFits value
  | .unary _ operand => operand.Fits
  | .binary _ left right => left.Fits ∧ right.Fits
  | .cast operand type => operand.Fits ∧ type.Fits
  | .toText operand => operand.Fits
  | .length operand => operand.Fits
  | .construct unit constructor args =>
    TextFits unit ∧ TextFits constructor ∧ args.length < 2 ^ 64 ∧ Expr.FitAll args
  | _ => True

def Expr.FitAll : List Expr → Prop
  | [] => True
  | first :: rest => first.Fits ∧ Expr.FitAll rest

end

structure ConstructorDecl.Fits (ctor : ConstructorDecl) : Prop where
  name : TextFits ctor.name
  params : ctor.params.length < 2 ^ 64
  param : ∀ param ∈ ctor.params, TextFits param.name ∧ param.type.Fits
  body : ctor.body.length < 2 ^ 64
  step : ∀ step ∈ ctor.body, step.value.Fits
  init : ctor.init.length < 2 ^ 64
  value : Expr.FitAll ctor.init

/-- The texts and lists in an image can be written. -/
structure UnitImage.Fits (image : UnitImage) : Prop where
  name : TextFits image.name
  source : TextFits image.source
  fields : image.fields.length < 2 ^ 64
  field : ∀ field ∈ image.fields, TextFits field.name ∧ field.type.Fits
  constructors : image.constructors.length < 2 ^ 64
  constructor : ∀ ctor ∈ image.constructors, ctor.Fits

section Decisions

instance (s : String) : Decidable (TextFits s) :=
  Nat.decLt _ _

instance : ∀ type : TypeRef, Decidable type.Fits
  | .unit name => inferInstanceAs (Decidable (TextFits name))
  | .int | .float | .bool | .str => inferInstanceAs (Decidable True)

mutual

def Expr.decideFits : ∀ code : Expr, Decidable code.Fits
  | .str value => inferInstanceAs (Decidable (TextFits value))
  | .unary _ operand | .toText operand | .length operand => operand.decideFits
  | .binary _ left right =>
    have := left.decideFits
    have := right.decideFits
    inferInstanceAs (Decidable (left.Fits ∧ right.Fits))
  | .cast operand type =>
    have := operand.decideFits
    inferInstanceAs (Decidable (operand.Fits ∧ type.Fits))
  | .construct unit constructor args =>
    have := Expr.decideFitAll args
    inferInstanceAs (Decidable
      (TextFits unit ∧ TextFits constructor ∧ args.length < 2 ^ 64 ∧ Expr.FitAll args))
  | .null | .int _ | .float _ | .bool _ | .slot _ => inferInstanceAs (Decidable True)

def Expr.decideFitAll : ∀ codes : List Expr, Decidable (Expr.FitAll codes)
  | [] => inferInstanceAs (Decidable True)
  | first :: rest =>
    have := first.decideFits
    have := Expr.decideFitAll rest
    inferInstanceAs (Decidable (first.Fits ∧ Expr.FitAll rest))

end

instance : DecidablePred Expr.Fits := Expr.decideFits

instance : DecidablePred Expr.FitAll := Expr.decideFitAll

instance (ctor : ConstructorDecl) : Decidable ctor.Fits :=
  decidable_of_iff
    (TextFits ctor.name ∧ ctor.params.length < 2 ^ 64 ∧
      (∀ param ∈ ctor.params, TextFits param.name ∧ param.type.Fits) ∧
      ctor.body.length < 2 ^ 64 ∧ (∀ step ∈ ctor.body, step.value.Fits) ∧
      ctor.init.length < 2 ^ 64 ∧ Expr.FitAll ctor.init)
    ⟨fun ⟨name, params, param, body, step, init, value⟩ =>
      ⟨name, params, param, body, step, init, value⟩,
    fun ⟨name, params, param, body, step, init, value⟩ =>
      ⟨name, params, param, body, step, init, value⟩⟩

instance (image : UnitImage) : Decidable image.Fits :=
  decidable_of_iff
    (TextFits image.name ∧ TextFits image.source ∧ image.fields.length < 2 ^ 64 ∧
      (∀ field ∈ image.fields, TextFits field.name ∧ field.type.Fits) ∧
      image.constructors.length < 2 ^ 64 ∧ ∀ ctor ∈ image.constructors, ctor.Fits)
    ⟨fun ⟨name, source, fields, field, constructors, constructor⟩ =>
      ⟨name, source, fields, field, constructors, constructor⟩,
    fun ⟨name, source, fields, field, constructors, constructor⟩ =>
      ⟨name, source, fields, field, constructors, constructor⟩⟩

end Decisions

namespace Codec

theorem readType_writeType {type : TypeRef} (fits : type.Fits) (rest : Bytes) :
    readType (writeType type ++ rest) = .ok (type, rest) := by
  cases type with
  | unit name =>
      rw [readType, writeType, List.append_assoc, readU32_writeNat (by decide), ok_bind]
      dsimp only
      rw [readText_writeText fits]
      rfl
  | _ =>
      rw [readType, writeType, readU32_writeNat (by decide)]
      rfl

theorem readUnaryOp_writeNat (op : UnaryOp) (rest : Bytes) :
    readUnaryOp (writeNat (unaryIndex op) ++ rest) = .ok (op, rest) := by
  cases op <;>
    rw [readUnaryOp, unaryIndex, readU32_writeNat (by decide)] <;> rfl

theorem readBinaryOp_writeNat (op : BinaryOp) (rest : Bytes) :
    readBinaryOp (writeNat (binaryIndex op) ++ rest) = .ok (op, rest) := by
  cases op <;>
    rw [readBinaryOp, binaryIndex, readU32_writeNat (by decide)] <;> rfl

/-! ## Code -/

theorem writeNat_length_pos (n : Nat) : 0 < (writeNat n).length := by
  unfold writeNat
  split
  · exact Nat.one_pos
  split
  · exact Nat.succ_pos _
  split <;> exact Nat.succ_pos _

theorem readExpr_tagged {index fuel : Nat} (small : index < 2 ^ 32) {bytes : Bytes}
    (enough : (writeNat index ++ bytes).length ≤ fuel) : ∃ left, fuel = left + 1 ∧
      bytes.length ≤ left ∧ ∀ rest, readU32 (writeNat index ++ bytes ++ rest) =
        .ok (index, bytes ++ rest) := by
  have tag := writeNat_length_pos index
  rw [List.length_append] at enough
  refine ⟨fuel - 1, by omega, by omega, ?_⟩
  intro rest
  rw [List.append_assoc, readU32_writeNat small]

mutual

/-- Code is read back with as much fuel as it has bytes. -/
theorem readExpr_writeExpr : ∀ (code : Expr), code.Fits → ∀ {fuel : Nat},
    (writeExpr code).length ≤ fuel → ∀ rest, readExpr fuel (writeExpr code ++ rest) =
      .ok (code, rest)
  | .null, _, fuel, enough, rest => by
    rw [writeExpr, ← List.append_nil (writeNat 0)] at enough ⊢
    obtain ⟨left, rfl, -, tag⟩ := readExpr_tagged (by decide) enough
    rw [readExpr, tag]
    rfl
  | .int value, _, fuel, enough, rest => by
    obtain ⟨left, rfl, -, tag⟩ := readExpr_tagged (by decide) enough
    rw [readExpr, writeExpr, tag, ok_bind]
    dsimp only
    rw [readInt_writeInt]
    rfl
  | .float value, _, fuel, enough, rest => by
    obtain ⟨left, rfl, -, tag⟩ := readExpr_tagged (by decide) enough
    rw [readExpr, writeExpr, tag, ok_bind]
    dsimp only
    rw [readFloat_writeFloat]
    rfl
  | .bool value, _, fuel, enough, rest => by
    obtain ⟨left, rfl, -, tag⟩ := readExpr_tagged (by decide) enough
    rw [readExpr, writeExpr, tag, ok_bind]
    dsimp only
    rw [readBool_writeBool]
    rfl
  | .str value, fits, fuel, enough, rest => by
    obtain ⟨left, rfl, -, tag⟩ := readExpr_tagged (by decide) enough
    rw [readExpr, writeExpr, tag, ok_bind]
    dsimp only
    rw [readText_writeText fits]
    rfl
  | .slot index, _, fuel, enough, rest => by
    obtain ⟨left, rfl, -, tag⟩ := readExpr_tagged (by decide) enough
    rw [readExpr, writeExpr, tag, ok_bind]
    dsimp only
    rw [readU32_writeNat index.toNat_lt, ok_bind]
    simp only [Nat.toUInt32, UInt32.ofNat_toNat]
    rfl
  | .unary op operand, fits, fuel, enough, rest => by
    obtain ⟨left, rfl, enough, tag⟩ := readExpr_tagged (by decide) enough
    rw [List.length_append] at enough
    rw [readExpr, writeExpr, tag, ok_bind]
    dsimp only
    rw [List.append_assoc, readUnaryOp_writeNat, ok_bind]
    dsimp only
    rw [readExpr_writeExpr operand fits (by omega)]
    rfl
  | .binary op left right, fits, fuel, enough, rest => by
    obtain ⟨fuel, rfl, enough, tag⟩ := readExpr_tagged (by decide) enough
    rw [List.length_append, List.length_append] at enough
    rw [readExpr, writeExpr, tag, ok_bind]
    dsimp only
    rw [List.append_assoc, readBinaryOp_writeNat, ok_bind]
    dsimp only
    rw [List.append_assoc, readExpr_writeExpr left fits.1 (by omega), ok_bind]
    dsimp only
    rw [readExpr_writeExpr right fits.2 (by omega)]
    rfl
  | .cast operand type, fits, fuel, enough, rest => by
    obtain ⟨left, rfl, enough, tag⟩ := readExpr_tagged (by decide) enough
    rw [List.length_append] at enough
    rw [readExpr, writeExpr, tag, ok_bind]
    dsimp only
    rw [List.append_assoc, readExpr_writeExpr operand fits.1 (by omega), ok_bind]
    dsimp only
    rw [readType_writeType fits.2]
    rfl
  | .toText operand, fits, fuel, enough, rest => by
    obtain ⟨left, rfl, enough, tag⟩ := readExpr_tagged (by decide) enough
    rw [readExpr, writeExpr, tag, ok_bind]
    dsimp only
    rw [readExpr_writeExpr operand fits enough]
    rfl
  | .length operand, fits, fuel, enough, rest => by
    obtain ⟨left, rfl, enough, tag⟩ := readExpr_tagged (by decide) enough
    rw [readExpr, writeExpr, tag, ok_bind]
    dsimp only
    rw [readExpr_writeExpr operand fits enough]
    rfl
  | .construct unit constructor args, fits, fuel, enough, rest => by
    obtain ⟨left, rfl, enough, tag⟩ := readExpr_tagged (by decide) enough
    simp only [List.length_append] at enough
    obtain ⟨unitFits, constructorFits, countFits, argsFit⟩ := fits
    rw [readExpr, writeExpr, tag, ok_bind]
    change (readText _ >>= _) = _
    rw [List.append_assoc, readText_writeText unitFits, ok_bind]
    dsimp only
    rw [List.append_assoc, readText_writeText constructorFits, ok_bind]
    dsimp only
    rw [readList, List.append_assoc, readLength_writeNat countFits, ok_bind]
    dsimp only
    rw [readMany_writeExprs args argsFit (by omega)]
    rfl

theorem readMany_writeExprs : ∀ (args : List Expr), Expr.FitAll args → ∀ {fuel : Nat},
    (writeExprs args).length ≤ fuel → ∀ rest,
      readMany (readExpr fuel) args.length (writeExprs args ++ rest) = .ok (args, rest)
  | [], _, _, _, _ => rfl
  | first :: others, fits, fuel, enough, rest => by
    rw [writeExprs, List.length_append] at enough
    rw [List.length_cons, readMany, writeExprs, List.append_assoc,
      readExpr_writeExpr first fits.1 (by omega), ok_bind]
    dsimp only
    rw [readMany_writeExprs others fits.2 (by omega)]
    rfl

end

theorem readExpr_self {code : Expr} (fits : code.Fits) (rest : Bytes) :
    readExpr (writeExpr code ++ rest).length (writeExpr code ++ rest) = .ok (code, rest) := by
  refine readExpr_writeExpr code fits ?_ rest
  rw [List.length_append]
  exact Nat.le_add_right _ _

/-! ## Images -/

theorem readStmt_writeStmt {step : Stmt} (fits : step.value.Fits) (rest : Bytes) :
    readStmt (writeStmt step ++ rest) = .ok (step, rest) := by
  rw [readStmt, writeStmt, List.append_assoc, readU32_writeNat (by decide), ok_bind]
  dsimp only
  rw [List.append_assoc, readU32_writeNat step.slot.toNat_lt, ok_bind]
  dsimp only
  rw [readExpr_self fits, ok_bind]
  simp only [Nat.toUInt32, UInt32.ofNat_toNat]
  rfl

theorem readField_writeField {field : FieldDecl} (fits : TextFits field.name ∧ field.type.Fits)
    (rest : Bytes) : readField (writeField field ++ rest) = .ok (field, rest) := by
  rw [readField, writeField, List.append_assoc, readText_writeText fits.1, ok_bind]
  dsimp only
  rw [readType_writeType fits.2]
  rfl

theorem readParam_writeParam {param : ParamDecl} (fits : TextFits param.name ∧ param.type.Fits)
    (rest : Bytes) : readParam (writeParam param ++ rest) = .ok (param, rest) := by
  rw [readParam, writeParam, List.append_assoc, readText_writeText fits.1, ok_bind]
  dsimp only
  rw [readType_writeType fits.2]
  rfl

theorem writeExprs_eq (codes : List Expr) : writeExprs codes = codes.flatMap writeExpr := by
  induction codes with
  | nil => rfl
  | cons first rest ih => rw [writeExprs, ih, List.flatMap_cons]

theorem fits_of_fitAll {codes : List Expr} (fits : Expr.FitAll codes) :
    ∀ code ∈ codes, code.Fits := by
  induction codes with
  | nil => exact nofun
  | cons first rest ih =>
      intro code member
      rcases List.mem_cons.mp member with rfl | later
      · exact fits.1
      · exact ih fits.2 code later

theorem readConstructor_writeConstructor {ctor : ConstructorDecl} (fits : ctor.Fits)
    (rest : Bytes) : readConstructor (writeConstructor ctor ++ rest) = .ok (ctor, rest) := by
  have init : writeNat ctor.init.length ++ writeExprs ctor.init = writeList writeExpr ctor.init := by
    rw [writeList, writeExprs_eq]
  rw [readConstructor, writeConstructor, init, List.append_assoc, readText_writeText fits.name,
    ok_bind]
  dsimp only
  rw [List.append_assoc, readList_writeList fits.params fun param member =>
    readParam_writeParam (fits.param param member), ok_bind]
  dsimp only
  rw [List.append_assoc, readU32_writeNat ctor.locals.toNat_lt, ok_bind]
  dsimp only
  rw [List.append_assoc, readList_writeList fits.body fun step member =>
    readStmt_writeStmt (fits.step step member), ok_bind]
  dsimp only
  rw [readList_writeList fits.init fun code member =>
    readExpr_self (fits_of_fitAll fits.value code member), ok_bind]
  simp only [Nat.toUInt32, UInt32.ofNat_toNat]
  rfl

theorem readPayload_writePayload {image : UnitImage} (fits : image.Fits) (rest : Bytes) :
    readPayload (writePayload image ++ rest) = .ok (image, rest) := by
  rw [readPayload, writePayload, List.append_assoc, readText_writeText fits.name, ok_bind]
  dsimp only
  rw [List.append_assoc, readText_writeText fits.source, ok_bind]
  dsimp only
  rw [List.append_assoc, readList_writeList fits.fields fun field member =>
    readField_writeField (fits.field field member), ok_bind]
  dsimp only
  rw [readList_writeList fits.constructors fun ctor member =>
    readConstructor_writeConstructor (fits.constructor ctor member)]
  rfl

end Codec

namespace UnitImage

theorem decode_header (name : String) (payload : Bytes) :
    decode name (header ++ payload) = match readPayload payload with
      | .error fault => .error (.unreadable fault)
      | .ok (image, rest) =>
        if rest ≠ [] then .error (.trailingBytes rest.length)
        else if image.name ≠ name then .error (.otherName image.name)
        else .ok image := by
  have longer : ¬(header ++ payload).length < header.length := by simp
  have started : (header ++ payload).take magic.length = magic := rfl
  have version : natOfLittleEndian (((header ++ payload).drop magic.length).take 2) =
      formatVersion := rfl
  have behind : (header ++ payload).drop header.length = payload := rfl
  have headed : ¬((header ++ payload).length < header.length ∨
      (header ++ payload).take magic.length ≠ magic) :=
    not_or.mpr ⟨longer, not_not_intro started⟩
  unfold decode
  rw [if_neg headed]
  dsimp only
  rewrite [version, if_neg (not_not_intro rfl), behind]
  rfl

theorem name_of_decode {name : String} {bytes : Bytes} {image : UnitImage}
    (decoded : decode name bytes = .ok image) : image.name = name := by
  unfold decode at decoded
  grind

theorem decode_encode {image : UnitImage} (fits : image.Fits) :
    decode image.name image.encode = .ok image := by
  have back := readPayload_writePayload fits []
  rw [List.append_nil] at back
  rw [encode, decode_header, back]
  dsimp only
  rw [if_neg (not_not_intro rfl), if_neg (not_not_intro rfl)]

end UnitImage

end UnitForge
