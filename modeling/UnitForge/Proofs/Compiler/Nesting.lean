import UnitForge.Files.Standard
import UnitForge.Proofs.Compiler.Elaborated
import UnitForge.Proofs.Compiler.Reports
import UnitForge.Proofs.Lowering.Limit
import UnitForge.Proofs.Lowering.Shallow

/-! # The limit of a compilation

Expressions that nest too deeply are told of once for each constructor, and no image that is written
has code beyond the limit. -/
set_option autoImplicit false
namespace UnitForge

open Source Step

variable {σ : Type} {manager : FileManager σ}

namespace UnitCompiler

/-! ## Images -/

theorem Analysed.shallow {unit : SourceUnit} {images : List UnitImage} {last : Session σ}
    (analysed : Analysed manager unit images last) (clean : last.Clean) :
    ∀ image ∈ images, ∀ code ∈ image.exprs, code.depth ≤ maxExprDepth := by
  intro image member code inside
  obtain ⟨owner, declared, reached, lowered, later⟩ :=
    exists_of_forall₂ analysed.lowered image member
  obtain ⟨ctor, coded, holds⟩ := List.mem_flatMap.mp inside
  obtain ⟨sig, known, before, after, run, grown⟩ :=
    exists_of_forall₂ lowered.constructors ctor coded
  have kept := grown.trans later
  have quiet : after.errors = before.errors := by
    have ended : after.errors = 0 := kept.clean clean
    have started := ((UnitSig.lowerConstructor_extends sig).of_run run).errors_le
    omega
  exact UnitSig.lowerConstructor_shallow run quiet
    (UnitSig.lowerConstructor_elab (analysed.sees owner) (analysed.known owner declared) known run
      (kept.seenIn .rfl)) code holds

theorem EmitsAll.written {images : List (SourceUnit × UnitImage)} {requests : List FileRequest}
    (all : EmitsAll images requests) {bytes : List UInt8} (member : .write bytes ∈ requests) :
    ∃ pair ∈ images, bytes = pair.2.encode := by
  induction all with
  | nil => cases member
  | @cons unit image rest first others emits _ ih =>
      rcases List.mem_append.mp member with here | later
      · have asked := emits.2.subset here
        simp only [emission, List.mem_cons, List.not_mem_nil, or_false, reduceCtorEq, false_or,
          FileRequest.write.injEq] at asked
        exact ⟨_, List.mem_cons_self, asked⟩
      · obtain ⟨pair, known, same⟩ := ih later
        exact ⟨pair, List.mem_cons_of_mem _ known, same⟩

/-- Whatever a compilation writes is an image that keeps to the limit. -/
theorem compile_shallow (task : CompilationTask) (files : σ) {bytes : List UInt8}
    (member : .write bytes ∈ (compile manager.watched task (files, [])).2.2) :
    ∃ image : UnitImage, bytes = image.encode ∧
      ∀ code ∈ image.exprs, code.depth ≤ maxExprDepth := by
  rcases preparing : prepare manager.watched task (.start (files, [])) with ⟨found, prepared⟩
  obtain ⟨fails, writes⟩ := carryOut_outputs preparing
  obtain ⟨looks, same, only⟩ := prepare_looks preparing
  have looked : .write bytes ∉ prepared.files.2 := by
    intro asked
    rw [same] at asked
    cases only _ asked
  change .write bytes ∈ (carryOut manager.watched task (.start (files, []))).2.files.2 at member
  by_cases clean : prepared.Clean
  · obtain ⟨analysed, -, all, requests, emits, asked, -⟩ := writes clean
    have written : .write bytes ∈ requests := by
      rw [asked] at member
      simpa [looked] using member
    obtain ⟨⟨unit, image⟩, known, rfl⟩ := emits.written written
    obtain ⟨answer, given, imaged⟩ := List.mem_flatMap.mp known
    obtain ⟨_, contained, same⟩ := List.mem_map.mp imaged
    cases same
    obtain ⟨_, -, -, ⟨source⟩⟩ := exists_of_forall₂ all answer given
    exact ⟨image, rfl, source.shallow clean image contained⟩
  · rw [fails clean] at member
    exact absurd member looked

/-! ## The limit -/

/-- A constructor without an error but the depth of its expressions is told of it once if an
initialiser has more levels than the limit, and of no error otherwise. Every expression of an image
that is written keeps to the limit. -/
theorem limits_nesting (manager : FileManager σ) :
    (∀ (decls : Declarations) (sigs : List UnitSig) (owner : UnitSig) (sig : ConstructorSig)
      (function : FunctionTree) (found : Option ConstructorDecl) (before after : Session σ),
      sig.function = some function → before.policy.deny = false →
      UnitSig.lowerConstructor manager decls sigs owner sig before = (found, after) →
      Lower.DepthOnly (UnitSig.context manager decls sigs owner) sig function before after →
      ∃ pos, before.errorsBetween after =
        if ∃ value ∈ Lower.initialisers function, maxExprDepth < value.levels
          then [depthReport decls.uri pos] else []) ∧
    ∀ (task : CompilationTask) (files : σ) (bytes : List UInt8),
      .write bytes ∈ (compile manager.watched task (files, [])).2.2 → ∃ image : UnitImage,
        bytes = image.encode ∧ ∀ code ∈ image.exprs, code.depth ≤ maxExprDepth := by
  constructor
  · intro decls sigs owner sig function found before after given mild run depthOnly
    obtain ⟨stop, lowered, rfl⟩ := UnitSig.lowerConstructor_function given run
    obtain ⟨told⟩ := Lower.constructor_told lowered
    exact told.errors_depth mild depthOnly
  · intro task files bytes member
    exact compile_shallow task files member

/-! The constructor `fn nested() -> Nested`, whose body binds a name to a number in parentheses and
ends in a literal that has the name for its field. -/

namespace Parens

def bound : Ident :=
  { name := "bound", raw := false, pos := ⟨1, 1⟩, proper := by decide }

def value : Nat → ExprTree
  | 0 => .literal ⟨1, 1⟩ ⟨1, 1⟩ (.int 1 "")
  | n + 1 => .paren ⟨1, 1⟩ ⟨1, 1⟩ (value n)

def function (n : Nat) : FunctionTree where
  pos := ⟨1, 1⟩
  ident := { name := "nested", raw := false, pos := ⟨1, 1⟩, proper := by decide }
  isPlain := true
  receiver := none
  params := []
  output := none
  body := [
    .binding ⟨1, 1⟩ (.ident ⟨1, 1⟩ true bound) none (some (value n)) none,
    .expr (.structLiteral ⟨1, 1⟩ false
      (.ofIdent { name := "Nested", raw := false, pos := ⟨1, 1⟩, proper := by decide })
      [("bound", ⟨1, 1⟩, .path ⟨1, 1⟩ false (.ofIdent bound))] none) false]
  closing := ⟨1, 1⟩

def sig (n : Nat) : ConstructorSig where
  name := "nested"
  params := []
  function := some (function n)

def owner (n : Nat) : UnitSig where
  name := "Nested"
  fullName := "Nested"
  fields := [⟨"bound", some .int⟩]
  constructors := [sig n]

def context (n : Nat) : LoweringContext StandardFiles :=
  UnitSig.context StandardFiles.manager
    { package := "", uri := "Nested.rs", structs := [], imports := [] } [owner n] (owner n)

def before : Session StandardFiles :=
  .start (.ofTree .empty)

def after (n : Nat) : Session StandardFiles :=
  (UnitSig.lowerConstructor StandardFiles.manager (context n).decls [owner n] (owner n) (sig n)
    before).2

theorem depthOnly {n : Nat}
    (asked : ((after n).units.isEmpty && (after n).packages.isEmpty) = true)
    (asked' : ((Lower.unlimited (context n) (sig n) (function n) before).units.isEmpty &&
      (Lower.unlimited (context n) (sig n) (function n) before).packages.isEmpty) = true)
    (quiet : (Lower.unlimited (context n) (sig n) (function n) before).errors = before.errors) :
    Lower.DepthOnly (context n) (sig n) (function n) before (after n) := by
  have nothing {session : Session StandardFiles}
      (asked : (session.units.isEmpty && session.packages.isEmpty) = true) :
      session.SeenIn { units := [], packages := [] } := by
    obtain ⟨units, packages⟩ := Bool.and_eq_true_iff.mp asked
    rw [List.isEmpty_iff] at units packages
    constructor
    · simp [units]
    · simp [packages]
  exact .unlimited (nothing asked) (nothing asked') quiet

theorem levels_value (n : Nat) : (value n).levels = n + 1 := by
  induction n with
  | zero => rfl
  | succ n ih => rw [value, ExprTree.levels, ih]

theorem deep_iff (n : Nat) : (∃ value ∈ Lower.initialisers (function n),
    maxExprDepth < value.levels) ↔ 256 ≤ n := by
  have inits : Lower.initialisers (function n) = [value n, .path ⟨1, 1⟩ false (.ofIdent bound)] := rfl
  have leaf : (ExprTree.path ⟨1, 1⟩ false (.ofIdent bound)).levels = 1 := rfl
  simp only [inits, List.mem_cons, List.not_mem_nil, or_false, exists_eq_or_imp, exists_eq_left,
    levels_value, leaf, maxExprDepth]
  omega

def isWrite : FileRequest → Bool
  | .write _ => true
  | _ => false

def plain : CompilationTask where
  options := ["-d", "/"]
  units := [{ name := "P", text := "pub struct P;" }]

end Parens

/-- With 255 parentheses the number lies on the last level, and with one more behind it. A
compilation that does not come near the limit writes an image. -/
theorem limits_nesting_parens :
    Parens.before.errorsBetween (Parens.after 255) = [] ∧
    (∃ pos, Parens.before.errorsBetween (Parens.after 256) = [depthReport "Nested.rs" pos]) ∧
    ∃ bytes image, .write bytes ∈ (compile StandardFiles.manager.watched Parens.plain
        (.ofTree .empty, [])).2.2 ∧ bytes = UnitImage.encode image ∧
      ∀ code ∈ image.exprs, code.depth ≤ maxExprDepth := by
  have limits (n : Nat) := (limits_nesting StandardFiles.manager).1 (Parens.context n).decls
    [Parens.owner n] (Parens.owner n) (Parens.sig n) (Parens.function n) _ Parens.before
    (Parens.after n) rfl rfl rfl
  refine ⟨?_, ?_, ?_⟩
  · obtain ⟨pos, told⟩ := limits 255
      (Parens.depthOnly (by decide +kernel) (by decide +kernel) (by decide +kernel))
    rwa [if_neg (by rw [Parens.deep_iff]; omega)] at told
  · obtain ⟨pos, told⟩ := limits 256
      (Parens.depthOnly (by decide +kernel) (by decide +kernel) (by decide +kernel))
    rw [if_pos (by rw [Parens.deep_iff])] at told
    exact ⟨pos, told⟩
  · have writes : ((compile StandardFiles.manager.watched Parens.plain
        (.ofTree .empty, [])).2.2.any Parens.isWrite) = true := by
      decide +kernel
    obtain ⟨request, member, written⟩ := List.any_eq_true.mp writes
    cases request with
    | write bytes =>
        obtain ⟨image, same, shallow⟩ := (limits_nesting StandardFiles.manager).2 _ _ bytes member
        exact ⟨bytes, image, member, same, shallow⟩
    | _ => cases written

end UnitCompiler

end UnitForge
