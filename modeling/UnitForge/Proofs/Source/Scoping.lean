import UnitForge.Source.Tree

/-! # Names and what they refer to

Which names occur in a body as values, in the order in which they are written, and which of its
bindings they refer to. An occurrence sees the bindings that were made before it; the value of a
binding therefore does not see the binding itself. -/
set_option autoImplicit false
namespace UnitForge.Source

/-! ## Occurrences in expressions -/

mutual

def ExprTree.occurrences : ExprTree → List String
  | .path _ qualified names => if qualified then [] else (names.ident?.map Ident.name).toList
  | .paren _ _ inner => inner.occurrences
  | .unary _ _ _ operand => operand.occurrences
  | .binary _ _ _ left right => left.occurrences ++ right.occurrences
  | .cast _ _ operand _ => operand.occurrences
  | .methodCall _ receiver _ _ args => receiver.occurrences ++ ExprTree.occurrencesAll args
  | .call _ _ function args => function.occurrences ++ ExprTree.occurrencesAll args
  | .reference _ _ _ operand => operand.occurrences
  | .structLiteral _ _ _ fields base =>
    ExprTree.occurrencesIn fields ++ ExprTree.occurrencesOf base
  | .literal .. | .other .. => []

def ExprTree.occurrencesAll : List ExprTree → List String
  | [] => []
  | first :: rest => first.occurrences ++ ExprTree.occurrencesAll rest

def ExprTree.occurrencesIn : List (String × Position × ExprTree) → List String
  | [] => []
  | (_, _, value) :: rest => value.occurrences ++ ExprTree.occurrencesIn rest

def ExprTree.occurrencesOf : Option ExprTree → List String
  | none => []
  | some base => base.occurrences

end

def StmtTree.occurrences : StmtTree → List String
  | .binding _ _ _ (some init) _ => init.occurrences
  | .expr value _ => value.occurrences
  | _ => []

/-- The names that the final expression of a body has as values. A bare `Self` is a keyword. -/
def ExprTree.finalOccurrences : ExprTree → List String
  | .path pos qualified names =>
    if names.ident?.any (·.is "Self") then [] else (ExprTree.path pos qualified names).occurrences
  | tree => tree.occurrences

/-! ## Bindings -/

structure Binder where
  name : String
  pos : Position
  deriving DecidableEq, Repr

def StmtTree.binder? : StmtTree → Option Binder
  | .binding _ (.ident _ _ ident) _ _ _ => some { name := ident.name, pos := ident.pos }
  | _ => none

/-- A name that occurs as a value where the first `visible` bindings of a body have been made. -/
structure Occurrence where
  name : String
  visible : Nat
  deriving DecidableEq, Repr

def StmtTree.occurrencesFrom (visible : Nat) : List StmtTree → List Occurrence
  | [] => []
  | first :: rest => first.occurrences.map (fun name => { name, visible }) ++
      StmtTree.occurrencesFrom (visible + first.binder?.toList.length) rest

/-- An occurrence refers to the latest binding of its name that was made before it. -/
structure Occurrence.RefersTo (occurrence : Occurrence) (binders : List Binder) (index : Nat) :
    Prop where
  visible : index < occurrence.visible
  name : (binders.map Binder.name)[index]? = some occurrence.name
  latest : ∀ later < occurrence.visible, index < later →
    (binders.map Binder.name)[later]? ≠ some occurrence.name

instance (occurrence : Occurrence) (binders : List Binder) (index : Nat) :
    Decidable (occurrence.RefersTo binders index) :=
  decidable_of_iff (index < occurrence.visible ∧
      (binders.map Binder.name)[index]? = some occurrence.name ∧
      ∀ later < occurrence.visible, index < later →
        (binders.map Binder.name)[later]? ≠ some occurrence.name)
    ⟨fun ⟨visible, name, latest⟩ => ⟨visible, name, latest⟩,
      fun refers => ⟨refers.visible, refers.name, refers.latest⟩⟩

/-- The bindings to which no occurrence refers, apart from those named with an underscore in
front. -/
def unreferred (binders : List Binder) (occurrences : List Occurrence) : List Binder :=
  (binders.zipIdx.filter fun (binder, index) => binder.name.toList.head? ≠ some '_' ∧
    ∀ occurrence ∈ occurrences, ¬occurrence.RefersTo binders index).map Prod.fst

theorem Occurrence.refersTo_append {occurrence : Occurrence} {binders : List Binder}
    (before : occurrence.visible ≤ binders.length) (more : List Binder) (index : Nat) :
    occurrence.RefersTo (binders ++ more) index ↔ occurrence.RefersTo binders index := by
  have same {place : Nat} (visible : place < occurrence.visible) :
      ((binders ++ more).map Binder.name)[place]? = (binders.map Binder.name)[place]? := by
    rw [List.map_append, List.getElem?_append_left]
    rw [List.length_map]
    omega
  constructor
  · intro ⟨visible, name, latest⟩
    refine ⟨visible, same visible ▸ name, ?_⟩
    intro later within behind
    rw [← same within]
    exact latest later within behind
  · intro ⟨visible, name, latest⟩
    refine ⟨visible, (same visible).trans name, ?_⟩
    intro later within behind
    rw [same within]
    exact latest later within behind

end UnitForge.Source
