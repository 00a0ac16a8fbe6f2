import UnitForge.Dialect.Signature
import UnitForge.Proofs.Dialect.Collection

/-! # Signatures without errors

Where no error was delivered, every field and every parameter has a type, and every constructor
function of a struct has a signature. -/
set_option autoImplicit false
namespace UnitForge

open Source

variable {σ : Type}

/-- Every type in a signature is known, and only the implicit constructor has no function. -/
structure UnitSig.Known (sig : UnitSig) : Prop where
  fields : ∀ field ∈ sig.fields, field.type.isSome = true
  params : ∀ ctor ∈ sig.constructors, ∀ param ∈ ctor.params, param.type.isSome = true
  implicit : ∀ ctor ∈ sig.constructors, ctor.function = none → ctor = .implicit

namespace UnitSig

open Step

variable {manager : FileManager σ} {decls : Declarations}

theorem fieldSigs_run {owner : String} {fields : List FieldTree} {known found : List FieldSig}
    {before after : Session σ}
    (run : fieldSigs manager decls owner known fields before = (found, after)) :
    before.Extends manager after ∧ (decls.Resolved → after.Clean →
      (∀ field ∈ known, field.type.isSome = true) → ∀ field ∈ found, field.type.isSome = true) := by
  induction fields generalizing known before with
  | nil =>
      cases run
      exact ⟨.refl _, fun _ _ all => all⟩
  | cons field rest ih =>
      unfold fieldSigs at run
      dsimp only at run
      split at run
      · obtain ⟨_, middle, complained, run⟩ := bind_run run
        obtain ⟨grown, all⟩ := ih run
        exact ⟨((Declarations.complain_extends _ _).of_run complained).trans grown, all⟩
      · obtain ⟨type, middle, resolved, run⟩ := bind_run run
        obtain ⟨grown, all⟩ := ih run
        refine ⟨((Declarations.resolveType_extends _ _).of_run resolved).trans grown, ?_⟩
        intro imports clean earlier
        apply all imports clean
        intro field member
        rcases List.mem_append.mp member with old | new
        · exact earlier field old
        · rw [List.mem_singleton.mp new]
          cases type with
          | some type => rfl
          | none =>
              exact absurd (grown.clean clean) (Declarations.resolveType_known resolved imports)

theorem paramSigs_run {owner : String} {params : List ParamTree} {known : List ParamSig}
    {found : Option (List ParamSig)} {before after : Session σ}
    (run : paramSigs manager decls owner known params before = (found, after)) :
    before.Extends manager after ∧ (decls.Resolved → after.Clean →
      (∀ param ∈ known, param.type.isSome = true) →
        ∃ sigs, found = some sigs ∧ ∀ param ∈ sigs, param.type.isSome = true) := by
  induction params generalizing known before with
  | nil =>
      cases run
      exact ⟨.refl _, fun _ _ all => ⟨known, rfl, all⟩⟩
  | cons param rest ih =>
      unfold paramSigs at run
      cases pattern : param.pattern with
      | ident pos plain ident =>
          cases plain with
          | true =>
              simp only [pattern] at run
              split at run
              · obtain ⟨_, middle, complained, run⟩ := bind_run run
                obtain ⟨grown, all⟩ := ih run
                exact ⟨((Declarations.complain_extends _ _).of_run complained).trans grown, all⟩
              · obtain ⟨type, middle, resolved, run⟩ := bind_run run
                obtain ⟨grown, all⟩ := ih run
                refine ⟨((Declarations.resolveType_extends _ _).of_run resolved).trans grown, ?_⟩
                intro imports clean earlier
                apply all imports clean
                intro param member
                rcases List.mem_append.mp member with old | new
                · exact earlier param old
                · rw [List.mem_singleton.mp new]
                  cases type with
                  | some type => rfl
                  | none =>
                      exact absurd (grown.clean clean)
                        (Declarations.resolveType_known resolved imports)
          | false =>
              simp only [pattern] at run
              obtain ⟨grown, _, reported⟩ := Declarations.refuse_run run
              exact ⟨grown, fun _ clean => absurd clean (reported rfl)⟩
      | openRange pos dots =>
          simp only [pattern] at run
          obtain ⟨grown, _, reported⟩ := Declarations.refuse_run run
          exact ⟨grown, fun _ clean => absurd clean (reported rfl)⟩
      | other pos =>
          simp only [pattern] at run
          obtain ⟨grown, _, reported⟩ := Declarations.refuse_run run
          exact ⟨grown, fun _ clean => absurd clean (reported rfl)⟩

theorem constructorSig_run {owner : String} {function : FunctionTree}
    {found : Option ConstructorSig} {before after : Session σ}
    (run : constructorSig manager decls owner function before = (found, after)) :
    before.Extends manager after ∧ (decls.Resolved → after.Clean →
      ∃ params, found = some { name := function.ident.name, params, function := some function } ∧
        ∀ param ∈ params, param.type.isSome = true) := by
  unfold constructorSig at run
  split at run
  · obtain ⟨grown, _, reported⟩ := Declarations.refuse_run run
    exact ⟨grown, fun _ clean => absurd clean (reported rfl)⟩
  · cases receiver : function.receiver with
    | some pos =>
        simp only [receiver] at run
        obtain ⟨grown, _, reported⟩ := Declarations.refuse_run run
        exact ⟨grown, fun _ clean => absurd clean (reported rfl)⟩
    | none =>
        simp only [receiver] at run
        split at run
        · obtain ⟨grown, _, reported⟩ := Declarations.refuse_run run
          exact ⟨grown, fun _ clean => absurd clean (reported rfl)⟩
        · obtain ⟨params, middle, resolved, run⟩ := bind_run run
          cases run
          obtain ⟨grown, all⟩ := paramSigs_run resolved
          refine ⟨grown, ?_⟩
          intro imports clean
          obtain ⟨sigs, rfl, known⟩ := all imports clean nofun
          exact ⟨sigs, rfl, known⟩

theorem warnOfTwins_extends (earlier later : List ConstructorSig) :
    Check.Extends manager (warnOfTwins (σ := σ) decls earlier later) := by
  induction later generalizing earlier with
  | nil => exact .pure _
  | cons first rest ih =>
      unfold warnOfTwins
      dsimp only
      split
      · exact .bind (Declarations.complain_extends _ _) fun _ => ih _
      · exact ih _

/-! ## Structs -/

theorem ofStruct_run {struct : DeclaredStruct} {sig : UnitSig} {before after : Session σ}
    (run : ofStruct manager decls struct before = (sig, after)) :
    before.Extends manager after ∧ sig.name = struct.name ∧ sig.fullName = struct.fullName ∧
      (decls.Resolved → after.Clean → sig.Known) := by
  obtain ⟨fields, first, run₁, run⟩ := bind_run run
  obtain ⟨found, second, run₂, run⟩ := bind_run run
  obtain ⟨_, third, run₃, run⟩ := bind_run run
  cases run
  obtain ⟨fieldsGrown, fieldsKnown⟩ := fieldSigs_run run₁
  have constructors := filterMapM_induct (f := constructorSig manager decls struct.name)
    (P := fun _ found session => first.Extends manager session ∧ (decls.Resolved → session.Clean →
      ∀ ctor ∈ found, ctor.function ≠ none ∧ ∀ param ∈ ctor.params, param.type.isSome = true))
    ?step struct.functions ⟨.refl first, fun _ _ => nofun⟩
  case step =>
    rintro _ found function state ⟨grown, known⟩
    obtain ⟨more, last⟩ := constructorSig_run
      (run_eta (constructorSig manager decls struct.name function) state)
    refine ⟨grown.trans more, ?_⟩
    intro imports clean ctor member
    rcases List.mem_append.mp member with old | new
    · exact known imports (more.clean clean) ctor old
    · obtain ⟨params, same, typed⟩ := last imports clean
      rw [same] at new
      cases List.mem_singleton.mp new
      exact ⟨nofun, typed⟩
  rw [run₂] at constructors
  have twins : second.Extends manager after := (warnOfTwins_extends _ _).of_run run₃
  refine ⟨(fieldsGrown.trans constructors.1).trans twins, rfl, rfl, ?_⟩
  intro imports clean
  have middle : second.Clean := twins.clean clean
  have known := constructors.2 imports middle
  refine ⟨fieldsKnown imports (constructors.1.clean middle) nofun, ?_, ?_⟩
  · intro ctor member param given
    dsimp only at member
    split at member
    · rw [List.mem_singleton.mp member] at given
      cases given
    · exact (known ctor member).2 param given
  · intro ctor member none
    dsimp only at member
    split at member
    · exact List.mem_singleton.mp member
    · exact absurd none (known ctor member).1

theorem ofDeclarations_run {sigs : List UnitSig} {before after : Session σ}
    (run : ofDeclarations manager decls before = (sigs, after)) :
    before.Extends manager after ∧
      sigs.map UnitSig.name = decls.structs.map DeclaredStruct.name ∧
      sigs.map UnitSig.fullName = decls.structs.map DeclaredStruct.fullName ∧
      (decls.Resolved → after.Clean → ∀ sig ∈ sigs, sig.Known) := by
  have all := mapM_induct (f := ofStruct manager decls)
    (P := fun done sigs session => before.Extends manager session ∧
      sigs.map UnitSig.name = done.map DeclaredStruct.name ∧
      sigs.map UnitSig.fullName = done.map DeclaredStruct.fullName ∧
      (decls.Resolved → session.Clean → ∀ sig ∈ sigs, sig.Known))
    ?step decls.structs ⟨.refl before, rfl, rfl, fun _ _ => nofun⟩
  case step =>
    rintro done sigs struct state ⟨grown, names, fullNames, known⟩
    obtain ⟨more, name, fullName, last⟩ := ofStruct_run
      (run_eta (ofStruct manager decls struct) state)
    refine ⟨grown.trans more, ?_, ?_, ?_⟩
    · simp only [List.map_append, names, List.map_cons, name, List.map_nil]
    · simp only [List.map_append, fullNames, List.map_cons, fullName, List.map_nil]
    · intro imports clean sig member
      rcases List.mem_append.mp member with old | new
      · exact known imports (more.clean clean) sig old
      · rw [List.mem_singleton.mp new]
        exact last imports clean
  have run : decls.structs.mapM (ofStruct manager decls) before = (sigs, after) := run
  rwa [run] at all

end UnitSig

end UnitForge
