import UnitForge.Proofs.Lowering.Elaboration

/-! # Types of code

The types that code has by itself, without the source that it comes from. Slots are typed in the
order in which they are filled. Code that an expression stands for has the type of the
expression. -/
set_option autoImplicit false
namespace UnitForge

/-- Code of a type, where the constructors of other units are known by their images. -/
inductive Typed (image? : String → Option UnitImage) (types : List TypeRef) :
    Expr → TypeRef → Prop
  | null {name : String} : Typed image? types .null (.unit name)
  | int {value : Int64} : Typed image? types (.int value) .int
  | float {value : Binary64} : Typed image? types (.float value) .float
  | bool {value : Bool} : Typed image? types (.bool value) .bool
  | str {value : String} : Typed image? types (.str value) .str
  | slot {index : UInt32} {type : TypeRef} : types[index.toNat]? = some type →
      Typed image? types (.slot index) type
  | neg {code : Expr} {type : TypeRef} : Lower.isNumeric type = true →
      Typed image? types code type → Typed image? types (.unary .neg code) type
  | not {code : Expr} {type : TypeRef} : type = .bool ∨ type = .int →
      Typed image? types code type → Typed image? types (.unary .not code) type
  | logical {op : BinaryOp} {left right : Expr} : op.isLogical = true →
      Typed image? types left .bool → Typed image? types right .bool →
      Typed image? types (.binary op left right) .bool
  | comparison {op : BinaryOp} {left right : Expr} {type : TypeRef} : op.isComparison = true →
      type.isPrimitive = true → Typed image? types left type → Typed image? types right type →
      Typed image? types (.binary op left right) .bool
  | concat {left right : Expr} : Typed image? types left .str → Typed image? types right .str →
      Typed image? types (.binary .concat left right) .str
  | arithmetic {op : BinaryOp} {left right : Expr} {type : TypeRef} : op.isArithmetic = true →
      Lower.isNumeric type = true → Typed image? types left type →
      Typed image? types right type → Typed image? types (.binary op left right) type
  | cast {code : Expr} {type target : TypeRef} : type.castsTo target = true →
      Typed image? types code type → Typed image? types (.cast code target) target
  | toText {code : Expr} {type : TypeRef} : type.isPrimitive = true →
      Typed image? types code type → Typed image? types (.toText code) .str
  | length {code : Expr} : Typed image? types code .str → Typed image? types (.length code) .int
  | construct {unit function : String} {image : UnitImage} {ctor : ConstructorDecl}
      {args : List (Expr × TypeRef)} : image? unit = some image →
      image.constructor? function = some ctor → ctor.paramTypes = args.map Prod.snd →
      (∀ arg ∈ args, Typed image? types arg.1 arg.2) →
      Typed image? types (.construct unit function (args.map Prod.fst)) (.unit unit)

inductive BodyTyped (image? : String → Option UnitImage) :
    List TypeRef → List Stmt → List TypeRef → Prop
  | nil {types : List TypeRef} : BodyTyped image? types [] types
  | cons {types last : List TypeRef} {step : Stmt} {body : List Stmt} {type : TypeRef} :
      step.slot.toNat = types.length → Typed image? types step.value type →
      BodyTyped image? (types ++ [type]) body last → BodyTyped image? types (step :: body) last

structure ConstructorDecl.WellTyped (image? : String → Option UnitImage) (fields : List FieldDecl)
    (ctor : ConstructorDecl) : Prop where
  parts : ∃ last, BodyTyped image? ctor.paramTypes ctor.body last ∧
    last.length ≤ ctor.locals.toNat ∧
    List.Forall₂ (fun code field => Typed image? last code field.type) ctor.init fields

def UnitImage.WellTyped (image? : String → Option UnitImage) (image : UnitImage) : Prop :=
  ∀ ctor ∈ image.constructors, ctor.WellTyped image? image.fields

/-- A constructor whose slots have numbers of 32 bits. -/
def ConstructorDecl.Numbered (ctor : ConstructorDecl) : Prop :=
  ctor.params.length + ctor.body.length < 2 ^ 32

instance (ctor : ConstructorDecl) : Decidable ctor.Numbered :=
  Nat.decLt _ _

/-! ## Types of elaborated code -/

variable {refs : References} {locals last : Locals}

theorem typed_constant {image? : String → Option UnitImage} {types : List TypeRef} {value : Value}
    {type : TypeRef} (known : value.type? = some type) (primitive : type.isPrimitive = true) :
    Typed image? types (.constant value) type := by
  cases value with
  | null => cases known
  | int value => cases known; exact .int
  | float value => cases known; exact .float
  | bool value => cases known; exact .bool
  | str value => cases known; exact .str
  | object id unit fields => cases known; cases primitive

theorem primitive_of_literal {negated : Bool} {value : Source.Literal} {type : TypeRef}
    (known : (literalValue negated value).type? = some type) : type.isPrimitive = true := by
  unfold literalValue at known
  cases value with
  | int value suffix =>
      dsimp only at known
      split at known <;> cases known <;> rfl
  | float digits suffix => cases known; rfl
  | bool value => cases known; rfl
  | str value => cases known; rfl
  | other => cases known

theorem toNat_slot {n : Nat} (small : n < 2 ^ 32) : n.toUInt32.toNat = n := by
  change (UInt32.ofNat n).toNat = n
  rw [UInt32.toNat_ofNat']
  exact Nat.mod_eq_of_lt small

theorem Elab.typed {tree : Source.ExprTree} {code : Expr} {type : TypeRef}
    (small : locals.length ≤ 2 ^ 32) (elab_ : Elab refs locals tree code type) :
    Typed refs.image? locals.types code type := by
  induction elab_ with
  | literal known => exact typed_constant known (primitive_of_literal known)
  | minusLiteral known => exact typed_constant known (primitive_of_literal known)
  | paren _ ih => exact ih
  | name _ found =>
      have typed := Locals.types_of_find? found
      have within := (List.getElem?_eq_some_iff.mp typed).1
      rw [Locals.length_types] at within
      refine .slot ?_
      rwa [toNat_slot (Nat.lt_of_lt_of_le within small)]
  | minus _ numeric _ ih => exact .neg numeric ih
  | not admitted _ ih => exact .not admitted ih
  | logical _ isLogical _ _ left right => exact .logical isLogical left right
  | comparison _ isComparison primitive _ _ left right =>
      exact .comparison isComparison primitive left right
  | concat _ _ _ left right => exact .concat left right
  | arithmetic _ isArithmetic numeric _ _ left right =>
      exact .arithmetic isArithmetic numeric left right
  | cast _ casts _ ih => exact .cast casts ih
  | toText _ primitive _ ih => exact .toText primitive ih
  | identity _ _ ih => exact ih
  | length _ _ ih => exact .length ih
  | emptyText => exact .str
  | textFrom _ _ _ ih => exact ih
  | @construct _ _ _ _ unit function image ctor args _ _ _ _ seen found types _ ih =>
      have typed : Typed refs.image? locals.types (.construct unit function
          ((args.map fun arg => (arg.code, arg.type)).map Prod.fst)) (.unit unit) := by
        refine .construct seen found (by rw [types, List.map_map]; rfl) ?_
        intro pair member
        obtain ⟨arg, given, rfl⟩ := List.mem_map.mp member
        exact ih arg given
      rwa [List.map_map] at typed
  | reference _ ih => exact ih

theorem ElabBody.length {trees : List Source.StmtTree} {body : List Stmt}
    (elab_ : ElabBody refs locals trees body last) :
    last.length = locals.length + body.length := by
  induction elab_ with
  | nil => rfl
  | cons _ _ ih =>
      rw [ih, List.length_cons, List.length_cons]
      omega

theorem ElabBody.typed {trees : List Source.StmtTree} {body : List Stmt}
    (small : locals.length + body.length < 2 ^ 32)
    (elab_ : ElabBody refs locals trees body last) :
    BodyTyped refs.image? locals.types body last.types := by
  induction elab_ with
  | nil => exact .nil
  | @cons locals last _ _ _ _ _ _ type _ body value _ ih =>
      rw [List.length_cons] at small
      refine .cons ?_ (value.typed (by omega)) ?_
      · rw [Locals.length_types]
        exact toNat_slot (by omega)
      · rw [← Locals.types_cons]
        apply ih
        rw [List.length_cons]
        omega

theorem types_paramLocals (params : List ParamDecl) :
    (paramLocals params).types = params.map (·.type) := by
  unfold Locals.types paramLocals
  rw [List.map_reverse, List.reverse_reverse, List.map_map]
  rfl

/-! ## Types of elaborated constructors -/

variable {owner : UnitSig}

theorem forall₂_fieldDecls {α : Type} {R : FieldSig → α → Prop} {Q : α → FieldDecl → Prop}
    {fields : List FieldSig} {found : List α} {decls : List FieldDecl}
    (related : List.Forall₂ R fields found)
    (declared : List.Forall₂ (fun (field : FieldSig) decl =>
      (field.type.map fun type => { name := field.name, type : FieldDecl }) = some decl)
      fields decls)
    (each : ∀ field value type, R field value → field.type = some type →
      Q value { name := field.name, type }) : List.Forall₂ Q found decls := by
  induction related generalizing decls with
  | nil =>
      cases declared
      exact .nil
  | cons first _ ih =>
      cases declared with
      | cons given others =>
          obtain ⟨type, known, rfl⟩ := Option.map_eq_some_iff.mp given
          exact .cons (each _ _ type first known) (ih others)

theorem ElabFinal.typed {tree : Source.ExprTree} {init : List Expr} {decls : List FieldDecl}
    (small : locals.length ≤ 2 ^ 32) (declared : owner.fieldDecls = some decls)
    (elab_ : ElabFinal refs locals owner.fields tree init) :
    List.Forall₂ (fun code field => Typed refs.image? locals.types code field.type) init decls := by
  have declared := mapM_eq_some_iff.mp declared
  generalize owner.fields = fields at declared elab_
  cases elab_ with
  | bare none =>
      subst none
      cases declared
      exact .nil
  | literal values =>
      apply forall₂_fieldDecls values declared
      intro field code type coded typed
      obtain ⟨value, found, -, same, elab_⟩ := coded
      cases same.symm.trans typed
      exact elab_.typed small

theorem typed_defaultOf (image? : String → Option UnitImage) (types : List TypeRef)
    (type : TypeRef) : Typed image? types (Lower.defaultOf type) type := by
  cases type with
  | int => exact .int
  | float => exact .float
  | bool => exact .bool
  | str => exact .str
  | unit name => exact .null

theorem wellTyped_implicit {ctor : ConstructorDecl} {decls : List FieldDecl}
    (image? : String → Option UnitImage) (declared : owner.fieldDecls = some decls)
    (same : Lower.implicitConstructor owner = some ctor) : ctor.WellTyped image? decls := by
  obtain ⟨init, defaults, rfl⟩ := Option.map_eq_some_iff.mp same
  refine ⟨[], .nil, Nat.zero_le _, ?_⟩
  apply forall₂_fieldDecls (mapM_eq_some_iff.mp defaults) (mapM_eq_some_iff.mp declared)
  intro field code type given typed
  rw [typed] at given
  cases given
  exact typed_defaultOf _ _ _

theorem ElabFunction.wellTyped {sig : ConstructorSig} {function : Source.FunctionTree}
    {ctor : ConstructorDecl} {decls : List FieldDecl} (numbered : ctor.Numbered)
    (declared : owner.fieldDecls = some decls)
    (elab_ : ElabFunction refs owner sig function ctor) : ctor.WellTyped refs.image? decls := by
  obtain ⟨tree, last, -, body, final, locals⟩ := elab_.parts
  have params : (paramLocals ctor.params).length = ctor.params.length := by simp [paramLocals]
  have total := body.length
  rw [params] at total
  have small : last.length < 2 ^ 32 := by
    rw [total]
    exact numbered
  refine ⟨last.types, ?_, ?_, final.typed (Nat.le_of_lt small) declared⟩
  · have typed := body.typed (by rw [params]; exact numbered)
    rwa [types_paramLocals] at typed
  · have size : last.types.length = ctor.locals.toNat := by
      rw [locals, toNat_slot small, Locals.length_types]
    exact Nat.le_of_eq size

theorem ElabUnit.wellTyped {image : UnitImage}
    (numbered : ∀ ctor ∈ image.constructors, ctor.Numbered) (elab_ : ElabUnit refs owner image) :
    image.WellTyped refs.image? := by
  intro ctor member
  obtain ⟨sig, -, coded⟩ := exists_of_forall₂ elab_.constructors ctor member
  cases coded with
  | implicit same => exact wellTyped_implicit _ elab_.fields same
  | function given coded => exact coded.wellTyped (numbered ctor member) elab_.fields

end UnitForge
