import UnitForge.Proofs.Image.RoundTrip

/-! # Where an image ends

What is read from bytes is read alike when more bytes follow, and they are left. So no encoding of
an image is the beginning of another one: bytes that were cut off, or that go on behind the image,
are never taken for an image. -/
set_option autoImplicit false
namespace UnitForge.Codec

variable {α β : Type}

/-- The outcome of reading when more bytes follow: the same value, and the bytes left as well.
Nothing is said of faults, which may turn into values. -/
def GoesOn (more : Bytes) (before after : Except WireFault (α × Bytes)) : Prop :=
  ∀ value rest, before = .ok (value, rest) → after = .ok (value, rest ++ more)

def Reader.Stable (read : Reader α) : Prop :=
  ∀ more bytes, GoesOn more (read bytes) (read (bytes ++ more))

section Outcomes
variable {more : Bytes}

theorem GoesOn.ok (value : α) (rest : Bytes) :
    GoesOn more (.ok (value, rest)) (.ok (value, rest ++ more)) := by
  intro found left same
  cases same
  rfl

theorem GoesOn.error (fault : WireFault) (after : Except WireFault (α × Bytes)) :
    GoesOn more (.error fault) after :=
  fun _ _ => nofun

theorem GoesOn.bind {before after : Except WireFault (α × Bytes)}
    {next next' : α × Bytes → Except WireFault (β × Bytes)} (first : GoesOn more before after)
    (others : ∀ value rest, GoesOn more (next (value, rest)) (next' (value, rest ++ more))) :
    GoesOn more (before >>= next) (after >>= next') := by
  cases before with
  | error fault => exact .error fault _
  | ok found =>
      obtain ⟨value, rest⟩ := found
      rw [first value rest rfl]
      exact others value rest

end Outcomes

/-! ## Numbers and texts -/

theorem take_stable (count : Nat) : (take count).Stable := by
  intro more bytes
  unfold take
  by_cases short : bytes.length < count
  · rw [if_pos short]
    exact .error _ _
  · have enough : count ≤ bytes.length := Nat.le_of_not_lt short
    have still : ¬(bytes ++ more).length < count := by
      rw [List.length_append]
      omega
    rw [if_neg short, if_neg still, List.take_append_of_le_length enough,
      List.drop_append_of_le_length enough]
    exact .ok _ _

theorem readFixed_stable (count : Nat) : (readFixed count).Stable := by
  intro more bytes
  exact .bind (take_stable count more bytes) fun _ _ => .ok _ _

theorem readNat_stable (width : Nat) (names : WireNames) : (readNat width names).Stable := by
  intro more bytes
  cases bytes with
  | nil => exact .error _ _
  | cons first rest =>
      simp only [readNat, List.cons_append]
      cases tagOf first with
      | small n => exact .ok n rest
      | wide count =>
          dsimp only
          by_cases narrow : count ≤ width
          · rw [if_pos narrow, if_pos narrow]
            exact readFixed_stable count more rest
          · rw [if_neg narrow]
            exact .error _ _
      | tooWide => exact .error _ _
      | reserved => exact .error _ _

theorem readU32_stable : readU32.Stable :=
  readNat_stable _ _

theorem readLength_stable : readLength.Stable :=
  readNat_stable _ _

theorem readInt_stable : readInt.Stable := by
  intro more bytes
  exact .bind (readNat_stable _ _ more bytes) fun _ _ => .ok _ _

theorem readFloat_stable : readFloat.Stable := by
  intro more bytes
  exact .bind (readFixed_stable 8 more bytes) fun _ _ => .ok _ _

theorem readBool_stable : readBool.Stable := by
  intro more bytes
  cases bytes with
  | nil => exact .error _ _
  | cons first rest =>
      simp only [readBool, List.cons_append]
      split
      · exact .ok false rest
      split
      · exact .ok true rest
      · exact .error _ _

theorem readText_stable : readText.Stable := by
  intro more bytes
  apply (readLength_stable more bytes).bind
  intro length rest
  apply (take_stable length more rest).bind
  intro taken left
  dsimp only
  cases Text.ofUtf8 taken with
  | ok s => exact .ok s left
  | error fault => exact .error _ _

/-! ## Lists

The reader of the items may be another one once more bytes follow: how many levels of code are read
depends on the number of bytes. -/

section Lists
variable {read read' : Reader α} {more : Bytes}
  (each : ∀ bytes, GoesOn more (read bytes) (read' (bytes ++ more)))
include each

theorem readMany_goesOn (count : Nat) (bytes : Bytes) :
    GoesOn more (readMany read count bytes) (readMany read' count (bytes ++ more)) := by
  induction count generalizing bytes with
  | zero => exact .ok [] bytes
  | succ count ih =>
      apply (each bytes).bind
      intro first rest
      exact .bind (ih rest) fun _ _ => .ok _ _

theorem readList_goesOn (bytes : Bytes) :
    GoesOn more (readList read bytes) (readList read' (bytes ++ more)) :=
  .bind (readLength_stable more bytes) fun length rest => readMany_goesOn each length rest

end Lists

theorem readList_stable {read : Reader α} (each : read.Stable) : (readList read).Stable :=
  fun more bytes => readList_goesOn (each more) bytes

/-! ## Types and code -/

theorem readType_stable : readType.Stable := by
  intro more bytes
  apply (readU32_stable more bytes).bind
  intro index rest
  match index with
  | 0 | 1 | 2 | 3 => exact .ok _ _
  | 4 => exact .bind (readText_stable more rest) fun _ _ => .ok _ _
  | _ + 5 => exact .error _ _

theorem readUnaryOp_stable : readUnaryOp.Stable := by
  intro more bytes
  apply (readU32_stable more bytes).bind
  intro index rest
  match index with
  | 0 | 1 => exact .ok _ _
  | _ + 2 => exact .error _ _

theorem readBinaryOp_stable : readBinaryOp.Stable := by
  intro more bytes
  apply (readU32_stable more bytes).bind
  intro index rest
  match index with
  | 0 | 1 | 2 | 3 | 4 | 5 | 6 | 7 | 8 | 9 | 10 | 11 | 12 | 13 => exact .ok _ _
  | _ + 14 => exact .error _ _

theorem readExpr_goesOn (more : Bytes) {fuel enough : Nat} (le : fuel ≤ enough) (bytes : Bytes) :
    GoesOn more (readExpr fuel bytes) (readExpr enough (bytes ++ more)) := by
  induction fuel generalizing enough bytes with
  | zero => exact .error _ _
  | succ fuel ih =>
      obtain ⟨enough, rfl⟩ : ∃ left, enough = left + 1 := ⟨enough - 1, by omega⟩
      have operand (bytes : Bytes) :
          GoesOn more (readExpr fuel bytes) (readExpr enough (bytes ++ more)) :=
        ih (Nat.le_of_succ_le_succ le) bytes
      rw [readExpr, readExpr]
      apply (readU32_stable more bytes).bind
      intro index rest
      match index with
      | 0 => exact .ok _ _
      | 1 => exact .bind (readInt_stable more rest) fun _ _ => .ok _ _
      | 2 => exact .bind (readFloat_stable more rest) fun _ _ => .ok _ _
      | 3 => exact .bind (readBool_stable more rest) fun _ _ => .ok _ _
      | 4 => exact .bind (readText_stable more rest) fun _ _ => .ok _ _
      | 5 => exact .bind (readU32_stable more rest) fun _ _ => .ok _ _
      | 6 =>
          apply (readUnaryOp_stable more rest).bind
          intro op rest
          exact .bind (operand rest) fun _ _ => .ok _ _
      | 7 =>
          apply (readBinaryOp_stable more rest).bind
          intro op rest
          apply (operand rest).bind
          intro left rest
          exact .bind (operand rest) fun _ _ => .ok _ _
      | 8 =>
          apply (operand rest).bind
          intro code rest
          exact .bind (readType_stable more rest) fun _ _ => .ok _ _
      | 9 => exact .bind (operand rest) fun _ _ => .ok _ _
      | 10 => exact .bind (operand rest) fun _ _ => .ok _ _
      | 11 =>
          apply (readText_stable more rest).bind
          intro unit rest
          apply (readText_stable more rest).bind
          intro constructor rest
          exact .bind (readList_goesOn operand rest) fun _ _ => .ok _ _
      | _ + 12 => exact .error _ _

theorem readCode_stable : Reader.Stable fun bytes => readExpr bytes.length bytes := by
  intro more bytes
  refine readExpr_goesOn more ?_ bytes
  rw [List.length_append]
  exact Nat.le_add_right _ _

/-! ## Images -/

theorem readStmt_stable : readStmt.Stable := by
  intro more bytes
  apply (readU32_stable more bytes).bind
  intro index rest
  match index with
  | 0 =>
      apply (readU32_stable more rest).bind
      intro slot rest
      exact .bind (readCode_stable more rest) fun _ _ => .ok _ _
  | _ + 1 => exact .error _ _

theorem readField_stable : readField.Stable := by
  intro more bytes
  apply (readText_stable more bytes).bind
  intro name rest
  exact .bind (readType_stable more rest) fun _ _ => .ok _ _

theorem readParam_stable : readParam.Stable := by
  intro more bytes
  apply (readText_stable more bytes).bind
  intro name rest
  exact .bind (readType_stable more rest) fun _ _ => .ok _ _

theorem readConstructor_stable : readConstructor.Stable := by
  intro more bytes
  apply (readText_stable more bytes).bind
  intro name rest
  apply (readList_stable readParam_stable more rest).bind
  intro params rest
  apply (readU32_stable more rest).bind
  intro locals rest
  apply (readList_stable readStmt_stable more rest).bind
  intro body rest
  exact .bind (readList_stable readCode_stable more rest) fun _ _ => .ok _ _

theorem readPayload_stable : readPayload.Stable := by
  intro more bytes
  apply (readText_stable more bytes).bind
  intro name rest
  apply (readText_stable more rest).bind
  intro source rest
  apply (readList_stable readField_stable more rest).bind
  intro fields rest
  exact .bind (readList_stable readConstructor_stable more rest) fun _ _ => .ok _ _

theorem readPayload_truncated {image : UnitImage} (fits : image.Fits) {bytes more : Bytes}
    (whole : bytes ++ more = writePayload image) (cut : more ≠ []) :
    ∃ fault, readPayload bytes = .error fault := by
  cases read : readPayload bytes with
  | error fault => exact ⟨fault, rfl⟩
  | ok found =>
      obtain ⟨other, rest⟩ := found
      have same := readPayload_stable more bytes other rest read
      have back := readPayload_writePayload fits []
      rw [List.append_nil, ← whole, same] at back
      have none : rest ++ more = [] := (Prod.mk.inj (Except.ok.inj back)).2
      exact absurd (List.append_eq_nil_iff.mp none).2 cut

end UnitForge.Codec

namespace UnitForge.UnitImage

open UnitForge.Codec

variable {image : UnitImage}

theorem decode_encode_of_name (fits : image.Fits) (name : String) :
    decode name image.encode =
      if name = image.name then .ok image else .error (.otherName image.name) := by
  have back := readPayload_writePayload fits []
  rw [List.append_nil] at back
  rw [encode, decode_header, back]
  dsimp only
  rw [if_neg (not_not_intro rfl)]
  by_cases same : name = image.name
  · rw [if_pos same, if_neg (not_not_intro same.symm)]
  · rw [if_neg same, if_pos fun other => same other.symm]

theorem decode_encode_append (fits : image.Fits) (name : String) {more : Bytes}
    (longer : more ≠ []) :
    decode name (image.encode ++ more) = .error (.trailingBytes more.length) := by
  rw [encode, List.append_assoc, decode_header, readPayload_writePayload fits more]
  dsimp only
  rw [if_pos longer]

theorem decode_short (name : String) {bytes : Bytes} (short : bytes.length < header.length) :
    decode name bytes = .error .missingHeader := by
  unfold decode
  rw [if_pos (.inl short)]

theorem decode_truncated (fits : image.Fits) (name : String) {bytes : Bytes}
    (cut : bytes <+: image.encode) (shorter : bytes ≠ image.encode) :
    ∃ fault, decode name bytes = .error fault := by
  by_cases short : bytes.length < header.length
  · exact ⟨_, decode_short name short⟩
  · obtain ⟨more, whole⟩ := cut
    have missing : more ≠ [] := by
      intro none
      rw [none, List.append_nil] at whole
      exact shorter whole
    -- the cut is behind the header, so it is the payload that is cut off
    have begins : header <+: bytes :=
      List.prefix_of_prefix_length_le (List.prefix_append header _) ⟨more, whole⟩
        (Nat.le_of_not_lt short)
    obtain ⟨payload, rfl⟩ := begins
    rw [encode, List.append_assoc] at whole
    obtain ⟨fault, read⟩ := readPayload_truncated fits (List.append_cancel_left whole) missing
    refine ⟨.unreadable fault, ?_⟩
    rw [decode_header, read]

theorem eq_of_encode_prefix {other : UnitImage} (fits : image.Fits) (fits' : other.Fits)
    (begins : image.encode <+: other.encode) : image = other := by
  by_cases same : image.encode = other.encode
  · have first := decode_encode fits
    have second := decode_encode_of_name fits' image.name
    rw [same, second] at first
    by_cases named : image.name = other.name
    · rw [if_pos named] at first
      exact (Except.ok.inj first).symm
    · rw [if_neg named] at first
      cases first
  · obtain ⟨fault, failed⟩ := decode_truncated fits' image.name begins same
    rw [decode_encode fits] at failed
    cases failed

/-- The bytes of an image are read back as that image under its own name and refused under every
other one. Cut off anywhere, or with anything behind them, they are refused under every name. So
different images have different bytes, and the bytes of none begin those of another. -/
theorem encode_delimits (fits : image.Fits) :
    (∀ name, decode name image.encode =
      if name = image.name then .ok image else .error (.otherName image.name)) ∧
    (∀ name bytes, bytes <+: image.encode → bytes ≠ image.encode →
      ∃ fault, decode name bytes = .error fault) ∧
    (∀ name bytes, image.encode <+: bytes → bytes ≠ image.encode →
      ∃ fault, decode name bytes = .error fault) ∧
    ∀ other : UnitImage, other.Fits →
      (image.encode = other.encode ↔ image = other) ∧
      (image.encode <+: other.encode → image = other) := by
  refine ⟨decode_encode_of_name fits, fun name bytes => decode_truncated fits name, ?_, ?_⟩
  · intro name bytes begins longer
    obtain ⟨more, rfl⟩ := begins
    have extra : more ≠ [] := by
      intro none
      rw [none, List.append_nil] at longer
      exact longer rfl
    exact ⟨_, decode_encode_append fits name extra⟩
  · intro other fits'
    refine ⟨⟨?_, congrArg encode⟩, eq_of_encode_prefix fits fits'⟩
    intro same
    exact eq_of_encode_prefix fits fits' (same ▸ List.prefix_rfl)

/-- An image whose numbers are at the ends of their ranges, with a number that is none, texts of
more than one byte a character, and code in code. -/
def extremes : UnitImage where
  name := "demo.Ümlaut"
  source := "memo:///demo/Ümlaut.rs"
  fields := [{ name := "n", type := .int }, { name := "next", type := .unit "demo.Ümlaut" }]
  constructors := [{
    name := "of"
    params := [{ name := "x", type := .float }]
    locals := 65536
    body := [{ slot := 65535, value := .unary .neg (.cast (.float ⟨0x7FF8000000000001⟩) .int) }]
    init := [.binary .add (.int Int64.minValue) (.length (.toText (.slot 250))),
      .construct "demo.Ümlaut" "of" [.float ⟨0⟩, .construct "demo.P" "new" [.str "€", .null]]] }]

theorem encode_delimits_extremes :
    decode "demo.Ümlaut" extremes.encode = .ok extremes ∧
    decode "demo.Umlaut" extremes.encode = .error (.otherName "demo.Ümlaut") ∧
    (∃ fault, decode "demo.Ümlaut" extremes.encode.dropLast = .error fault) ∧
    ∃ fault, decode "demo.Ümlaut" (extremes.encode ++ [0]) = .error fault := by
  have fits : extremes.Fits := by decide +kernel
  obtain ⟨named, cut, longer, -⟩ := encode_delimits fits
  have other : ¬"demo.Umlaut" = extremes.name := by decide
  refine ⟨named extremes.name, ?_, cut _ _ (List.dropLast_prefix _) ?_,
    longer _ _ (List.prefix_append _ _) ?_⟩
  · rw [named, if_neg other]
    rfl
  · have size : 0 < extremes.encode.length := by
      rw [encode, List.length_append]
      exact Nat.add_pos_left (by decide) _
    intro same
    have shorter := congrArg List.length same
    rw [List.length_dropLast] at shorter
    omega
  · intro same
    have extra := congrArg List.length same
    rw [List.length_append, List.length_singleton] at extra
    omega

end UnitForge.UnitImage
