import UnitForge.Proofs.Dialect.Repetition
import UnitForge.Proofs.Lowering.Depths
import UnitForge.Proofs.Lowering.Tracing

/-! # Expressions with a limit and without

The lowering of an expression is compared with one of the same expression that has no limit. What is
cut off has an unknown type, which silences whatever depends on it; every type that the limited
lowering knows is the one that the other lowering knows too. If the unlimited lowering therefore
meets nothing to report, the limited one reports nothing but the depth. -/
set_option autoImplicit false
namespace UnitForge

open Source Step

variable {σ : Type}

/-- A type that is unknown, or the same as another one. -/
def Vaguer (type other : Option TypeRef) : Prop :=
  type = none ∨ type = other

theorem Vaguer.refl (type : Option TypeRef) : Vaguer type type :=
  .inr rfl

theorem Vaguer.all {type other : Option TypeRef} (vaguer : Vaguer type other) {p : TypeRef → Bool}
    (holds : other.all p = true) : type.all p = true := by
  rcases vaguer with rfl | rfl
  · exact Option.all_none
  · exact holds

def Scope.Vaguer (scope other : Scope) : Prop :=
  List.Forall₂ (fun here there => here.1 = there.1 ∧ UnitForge.Vaguer here.2 there.2)
    scope.locals other.locals

namespace Scope.Vaguer

variable {scope other : Scope}

theorem names (vaguer : scope.Vaguer other) :
    scope.map Binding.name = other.map Binding.name := by
  have same : List.Forall₂ Eq (scope.locals.map Prod.fst) (other.locals.map Prod.fst) :=
    List.forall₂_map_left_iff.mpr (List.forall₂_map_right_iff.mpr (vaguer.imp fun _ _ => And.left))
  have equal := List.forall₂_eq_eq_eq ▸ same
  rwa [Scope.locals, Scope.locals, List.map_map, List.map_map] at equal

theorem find? (vaguer : scope.Vaguer other) {name : String} {slot : Nat} {binding : Binding}
    (found : other.find? name = some (slot, binding)) :
    ∃ here, scope.find? name = some (slot, here) ∧ UnitForge.Vaguer here.type binding.type := by
  obtain ⟨slot', looked, rest⟩ := Option.bind_eq_some_iff.mp found
  obtain ⟨there, reached, same⟩ := Option.bind_eq_some_iff.mp rest
  cases same
  obtain ⟨lengths, each⟩ := List.forall₂_iff_get.mp vaguer
  obtain ⟨within, rfl⟩ := List.getElem?_eq_some_iff.mp reached
  rw [Scope.locals, Scope.locals, List.length_map, List.length_map] at lengths
  have bound : slot < scope.length := by omega
  have type := (each slot (by simpa [Scope.locals]) (by simpa [Scope.locals])).2
  refine ⟨scope[slot], ?_, by simpa [Scope.locals] using type⟩
  rw [Scope.find?, Scope.slot?_congr vaguer.names, looked]
  simp [bound]

theorem concat (vaguer : scope.Vaguer other) {here there : Binding} (name : here.name = there.name)
    (type : UnitForge.Vaguer here.type there.type) :
    (scope ++ [here]).Vaguer (other ++ [there]) := by
  rw [Scope.Vaguer, Scope.locals, Scope.locals, List.map_append, List.map_append]
  exact List.rel_append vaguer (.cons ⟨name, type⟩ .nil)

end Scope.Vaguer

def Session.TellsDepth (uri : String) (before after : Session σ) : Prop :=
  ∃ told, after.delivered = before.delivered ++ told ∧
    ∀ diagnostic ∈ told, isDepthReport uri diagnostic = true

theorem Session.Silent.tellsDepth {uri : String} {before after : Session σ}
    (silent : before.Silent after) : before.TellsDepth uri after :=
  ⟨[], by rw [silent, List.append_nil], List.forall_mem_nil _⟩

theorem Session.TellsDepth.trans {uri : String} {before middle after : Session σ}
    (h : before.TellsDepth uri middle) (k : middle.TellsDepth uri after) :
    before.TellsDepth uri after := by
  obtain ⟨earlier, same, each⟩ := h
  obtain ⟨later, same', each'⟩ := k
  refine ⟨earlier ++ later, ?_, List.forall_mem_append.mpr ⟨each, each'⟩⟩
  rw [same', same, List.append_assoc]

namespace Lower

variable {α β α' β' : Type} {context : LoweringContext σ} {view : ClassPathView}
  {P : α' → β' → Prop} {Q : α → β → Prop}

/-! ## Operators on numbers, type by type -/

section Arithmetic
variable (op : BinaryOp) (symbol : String) (place rightPos : Position) (left right : Expr)

theorem arithmetic_unknown : arithmetic context op symbol place rightPos ⟨left, none⟩
    ⟨right, none⟩ = pure ⟨.binary op left right, none⟩ := by
  simp [arithmetic]

theorem arithmetic_right (r : TypeRef) :
    arithmetic context op symbol place rightPos ⟨left, none⟩ ⟨right, some r⟩ =
      if op = .add ∧ r = .str then pure (.known (.binary .concat left right) .str)
      else pure ⟨.binary op left right, (some r).filter isNumeric⟩ := by
  cases r <;> simp [arithmetic]

theorem arithmetic_left (l : TypeRef) :
    arithmetic context op symbol place rightPos ⟨left, some l⟩ ⟨right, none⟩ =
      if op = .add ∧ l = .str then pure (.known (.binary .concat left right) .str)
      else if isNumeric l then pure (.known (.binary op left right) l)
      else fail context place (.binaryOperand symbol l.text) := by
  cases l <;> simp [arithmetic]

theorem arithmetic_same (type : TypeRef) :
    arithmetic context op symbol place rightPos ⟨left, some type⟩ ⟨right, some type⟩ =
      if op = .add ∧ type = .str then pure (.known (.binary .concat left right) .str)
      else if isNumeric type then pure (.known (.binary op left right) type)
      else fail context place (.binaryOperand symbol type.text) := by
  cases type <;> simp [arithmetic]

theorem arithmetic_other {l r : TypeRef} (other : r ≠ l) :
    arithmetic context op symbol place rightPos ⟨left, some l⟩ ⟨right, some r⟩ = do
      expect context rightPos (some l) (some r)
      return .unknown := by
  cases l <;> cases r <;> simp_all [arithmetic]

end Arithmetic

/-! ## Steps that report an error -/

def Refuses (step : Lower σ α) : Prop :=
  ∀ before : Lowering σ, before.session.errors < (step before).2.session.errors

namespace Refuses

theorem complain {pos : Position} {problem : Problem} (grave : problem.severity = .error) :
    Refuses (Lower.complain context pos problem) := by
  intro before
  have told : (Lower.complain context pos problem before).2.session.errors =
      before.session.errors + 1 :=
    Session.errors_report grave before.session
  omega

theorem andThen (context : LoweringContext σ) {step : Lower σ α'} {next : α' → Lower σ α}
    (refuses : Refuses step)
    (onward : ∀ value, Onward context (next value)) : Refuses (step >>= next) := by
  intro before
  have first := refuses before
  have rest := (onward (step before).1 (step before).2).session.errors_le
  exact Nat.lt_of_lt_of_le first rest

theorem fail {pos : Position} {problem : Problem} (grave : problem.severity = .error) :
    Refuses (Lower.fail context pos problem) :=
  .andThen context (complain grave) fun _ => .pure _

theorem expect {expected : TypeRef} {found : Option TypeRef} (pos : Position)
    (differs : ¬found.all (· = expected) = true) :
    Refuses (Lower.expect context pos (some expected) found) := by
  cases found with
  | none => exact absurd Option.all_none differs
  | some type =>
      have other : expected ≠ type := by
        rintro rfl
        simp at differs
      rw [Lower.expect, if_pos other]
      exact complain rfl

end Refuses

/-! ## Two runs -/

/-- If the second step meets no error, the first one tells nothing but the depth, and what it gives
and binds is vaguer at most. -/
def Shadows (context : LoweringContext σ) (view : ClassPathView) (step : Lower σ α)
    (other : Lower σ β) (Q : α → β → Prop) : Prop :=
  ∀ first second : Lowering σ, first.scope.Vaguer second.scope →
    (step first).2.session.SeenIn view → (other second).2.session.SeenIn view →
    (other second).2.session.errors = second.session.errors →
      first.session.TellsDepth context.decls.uri (step first).2.session ∧
        (step first).2.scope.Vaguer (other second).2.scope ∧ Q (step first).1 (other second).1

namespace Shadows

theorem pure {value : α} {found : β} (holds : Q value found) :
    Shadows context view (Pure.pure value) (Pure.pure found) Q :=
  fun _ _ scopes _ _ _ => ⟨Session.Silent.tellsDepth rfl, scopes, holds⟩

theorem bind {step : Lower σ α'} {other : Lower σ β'} {next : α' → Lower σ α}
    {next' : β' → Lower σ β} (onward : ∀ value, Onward context (next value))
    (onward' : ∀ value, Onward context (next' value)) (keeps : Onward context other)
    (first : Shadows context view step other P)
    (rest : ∀ value found, P value found → Shadows context view (next value) (next' found) Q) :
    Shadows context view (step >>= next) (other >>= next') Q := by
  intro s t scopes seen seen' quiet
  rcases ran : step s with ⟨value, middle⟩
  rcases ran' : other t with ⟨found, middle'⟩
  rw [bind_of_run ran] at seen ⊢
  rw [bind_of_run ran'] at seen' quiet ⊢
  have later := (onward value middle).session
  have later' := (onward' found middle').session
  have started := (keeps.of_run ran').session.errors_le
  have ended := later'.errors_le
  have told := first s t scopes
  rw [ran, ran'] at told
  obtain ⟨tells, scopes, holds⟩ :=
    told (later.seenIn seen) (later'.seenIn seen') (by dsimp only; omega)
  obtain ⟨tells', scopes, holds⟩ := rest value found holds middle middle' scopes seen seen'
    (by omega)
  exact ⟨tells.trans tells', scopes, holds⟩

/-- What is only made of the results at the end tells nothing. -/
theorem ending {step : Lower σ α'} {other : Lower σ β'} {f : α' → α} {g : β' → β}
    (keeps : Onward context other) (first : Shadows context view step other P)
    (holds : ∀ value found, P value found → Q (f value) (g found)) :
    Shadows context view (do return f (← step)) (do return g (← other)) Q := by
  have onward (value : α') : Onward context (Pure.pure (f value) : Lower σ α) := .pure _
  have onward' (found : β') : Onward context (Pure.pure (g found) : Lower σ β) := .pure _
  apply bind onward onward' keeps first
  intro value found known
  exact pure (holds value found known)

theorem refused {step : Lower σ α} {other : Lower σ β} (refuses : Refuses other) :
    Shadows context view step other Q := by
  intro first second _ _ _ quiet
  have told := refuses second
  omega

theorem given {value : α} {other : Lower σ β} (keeps : Keeps context other)
    (holds : ∀ before, (other before).2.session.errors = before.session.errors →
      Q value (other before).1) : Shadows context view (Pure.pure value) other Q := by
  intro first second scopes _ _ quiet
  refine ⟨Session.Silent.tellsDepth rfl, ?_, holds second quiet⟩
  change first.scope.Vaguer (other second).2.scope
  rw [Scope.Vaguer, (keeps second).locals]
  exact scopes

theorem ite {condition : Prop} [Decidable condition] {yes no : Lower σ α} {yes' no' : Lower σ β}
    (whenTrue : Shadows context view yes yes' Q) (whenFalse : Shadows context view no no' Q) :
    Shadows context view (if condition then yes else no) (if condition then yes' else no') Q := by
  by_cases holds : condition
  · rw [if_pos holds, if_pos holds]
    exact whenTrue
  · rw [if_neg holds, if_neg holds]
    exact whenFalse

theorem get_bind {next : Lowering σ → Lower σ α} {next' : Lowering σ → Lower σ β}
    (rest : ∀ first second : Lowering σ, first.scope.Vaguer second.scope →
      Shadows context view (next first) (next' second) Q) :
    Shadows context view (get >>= next) (get >>= next') Q :=
  fun first second scopes => rest first second scopes first second scopes

theorem check {step : Check σ α} (repeats : Repeats context.manager view step) :
    Shadows context view (Lower.check step) (Lower.check step) Eq := by
  intro first second scopes seen seen' quiet
  obtain ⟨silent, same⟩ := repeats.again first.session second.session seen seen' quiet
  exact ⟨silent.tellsDepth, scopes, same⟩

abbrev Fades (context : LoweringContext σ) (view : ClassPathView)
    (step other : Lower σ TypedCode) : Prop :=
  Shadows context view step other fun typed found => Vaguer typed.type found.type

theorem unknown {value : TypedCode} {other : Lower σ TypedCode} (unknown : value.type = none)
    (keeps : Keeps context other) : Fades context view (Pure.pure value) other :=
  given keeps fun _ _ => .inl unknown

theorem giveUp : Shadows context view (Lower.giveUp (σ := σ)) Lower.giveUp fun _ _ => True :=
  fun _ _ scopes _ _ _ => ⟨Session.Silent.tellsDepth rfl, scopes, trivial⟩

theorem expect {found other : Option TypeRef} (pos : Position) (expected : Option TypeRef)
    (vaguer : Vaguer found other) :
    Shadows context view (Lower.expect context pos expected found)
      (Lower.expect context pos expected other) fun _ _ => True := by
  rcases vaguer with rfl | rfl
  · cases expected with
    | none => exact given (expect_keeps _ _ _) fun _ _ => trivial
    | some expected => exact given (expect_keeps _ _ _) fun _ _ => trivial
  · unfold Lower.expect
    split
    · exact ite (refused (.complain rfl)) (pure trivial)
    · exact pure trivial

/-! ## Leaves -/

theorem literal (negated : Bool) (place : Position) (value : Literal) :
    Fades context view (Lower.literal context negated place value)
      (Lower.literal context negated place value) := by
  have fails {problem : Problem} (grave : problem.severity = .error) :
      Fades context view (Lower.fail context place problem) (Lower.fail context place problem) :=
    refused (.fail grave)
  unfold Lower.literal
  cases value with
  | int value suffix => exact ite (pure (.refl _)) (ite (pure (.refl _)) (fails rfl))
  | float digits suffix => exact ite (pure (.refl _)) (fails rfl)
  | bool value => exact ite (fails rfl) (pure (.refl _))
  | str value => exact ite (fails rfl) (pure (.refl _))
  | other => exact fails rfl

theorem use (slot : Nat) :
    Shadows context view (modify fun state : Lowering σ =>
      { state with scope := state.scope.use slot }) (modify fun state : Lowering σ =>
      { state with scope := state.scope.use slot }) fun _ _ => True := by
  intro first second scopes _ _ _
  refine ⟨Session.Silent.tellsDepth rfl, ?_, trivial⟩
  change (first.scope.use slot).Vaguer (second.scope.use slot)
  rw [Scope.Vaguer, locals_use, locals_use]
  exact scopes

theorem namedValue (pos : Position) (qualified : Bool) (names : NamePath) :
    Fades context view (Lower.namedValue context pos qualified names)
      (Lower.namedValue context pos qualified names) := by
  unfold Lower.namedValue
  cases qualified with
  | true => exact refused (.fail rfl)
  | false =>
      cases names.ident? with
      | none => exact refused (.fail rfl)
      | some ident =>
          apply get_bind
          intro first second scopes
          cases found : second.scope.find? ident.name with
          | none => exact refused (.fail rfl)
          | some place =>
              obtain ⟨slot, there⟩ := place
              obtain ⟨here, found', type⟩ := scopes.find? found
              rw [found']
              apply ending (use_keeps slot).onward (use slot)
              intro _ _ _
              exact type

/-! ## Operators -/

variable {left right left' right' : TypedCode}

theorem unary (pos : Position) (op : UnaryOp) {operand other : TypedCode}
    (vaguer : Vaguer operand.type other.type) :
    Fades context view (Lower.unary context pos op operand)
      (Lower.unary context pos op other) := by
  rcases vaguer with none | same
  · have quiet : Lower.unary context pos op operand =
        Pure.pure { operand with code := .unary op operand.code } := by
      unfold Lower.unary
      rw [none]
    rw [quiet]
    exact unknown none (unary_keeps _ _ _)
  · unfold Lower.unary
    rw [same]
    split
    split
    · exact ite (pure (.refl _)) (refused (.fail rfl))
    · exact pure (.refl _)

theorem logical (op : BinaryOp) (leftPos rightPos : Position)
    (leftVaguer : Vaguer left.type left'.type) (rightVaguer : Vaguer right.type right'.type) :
    Fades context view (Lower.logical context op leftPos rightPos left right)
      (Lower.logical context op leftPos rightPos left' right') := by
  have goesOn (typed : TypedCode) (value : Expr) : Onward context (do
      Lower.expect context rightPos (some .bool) typed.type
      return TypedCode.known value .bool) :=
    Keeps.onward (.bind (expect_keeps _ _ _) fun _ => .pure _)
  apply bind (fun _ => goesOn right _) (fun _ => goesOn right' _) (expect_keeps _ _ _).onward
    (expect leftPos _ leftVaguer)
  intro _ _ _
  apply ending (expect_keeps _ _ _).onward (expect rightPos _ rightVaguer)
  intro _ _ _
  exact .refl _

theorem comparison (op : BinaryOp) (symbol : String) (place rightPos : Position)
    (leftVaguer : Vaguer left.type left'.type) (rightVaguer : Vaguer right.type right'.type) :
    Fades context view (Lower.comparison context op symbol place rightPos left right)
      (Lower.comparison context op symbol place rightPos left' right') := by
  have quietly (none : left.type = none ∨ right.type = none) :
      Lower.comparison context op symbol place rightPos left right =
        Pure.pure (TypedCode.known (.binary op left.code right.code) .bool) := by
    unfold Lower.comparison
    rcases none with none | none
    · rw [none]
    · rw [none]
      cases left.type <;> rfl
  by_cases none : left.type = none ∨ right.type = none
  · rw [quietly none]
    unfold Lower.comparison
    dsimp only
    split
    · split
      · exact refused (.andThen context (.complain rfl) fun _ => .pure _)
      · split
        · exact refused (.andThen context (.complain rfl) fun _ => .pure _)
        · exact pure (.refl _)
    · exact pure (.refl _)
  · rw [not_or] at none
    unfold Lower.comparison
    rw [leftVaguer.resolve_left none.1, rightVaguer.resolve_left none.2]
    dsimp only
    split
    · refine ite (refused (.andThen context (.complain rfl) ?_))
        (ite (refused (.andThen context (.complain ?_) ?_)) (pure (.refl _)))
      · intro _
        exact .pure _
      · rfl
      · intro _
        exact .pure _
    · exact pure (.refl _)

theorem arithmetic (op : BinaryOp) (symbol : String) (place rightPos : Position)
    (leftVaguer : Vaguer left.type left'.type) (rightVaguer : Vaguer right.type right'.type) :
    Fades context view (Lower.arithmetic context op symbol place rightPos left right)
      (Lower.arithmetic context op symbol place rightPos left' right') := by
  obtain ⟨leftCode, l⟩ := left
  obtain ⟨rightCode, r⟩ := right
  obtain ⟨leftCode', l'⟩ := left'
  obtain ⟨rightCode', r'⟩ := right'
  have differ {l r : TypeRef} (other : r ≠ l) : Refuses (Lower.arithmetic context op symbol place
      rightPos ⟨leftCode', some l⟩ ⟨rightCode', some r⟩) := by
    rw [arithmetic_other _ _ _ _ _ _ other]
    exact .andThen context (.expect rightPos (by simpa using other)) fun _ => .pure _
  cases l with
  | none =>
      cases r with
      | none =>
          rw [arithmetic_unknown]
          exact unknown rfl (arithmetic_keeps _ _ _ _ _ _)
      | some r =>
          obtain rfl : some r = r' := rightVaguer.resolve_left (Option.some_ne_none r)
          rw [arithmetic_right]
          cases l' with
          | none =>
              rw [arithmetic_right]
              exact ite (pure (.refl _)) (pure (.refl _))
          | some l =>
              by_cases same : r = l
              · subst same
                rw [arithmetic_same]
                apply ite (pure (.refl _))
                cases numeric : isNumeric r with
                | true => exact pure (.inr (by simp [numeric, TypedCode.known]))
                | false => exact refused (.fail rfl)
              · exact refused (differ same)
  | some l =>
      obtain rfl : some l = l' := leftVaguer.resolve_left (Option.some_ne_none l)
      cases r with
      | none =>
          rw [arithmetic_left]
          cases r' with
          | none =>
              rw [arithmetic_left]
              exact ite (pure (.refl _)) (ite (pure (.refl _)) (refused (.fail rfl)))
          | some r =>
              by_cases same : r = l
              · subst same
                rw [arithmetic_same]
                exact ite (pure (.refl _)) (ite (pure (.refl _)) (refused (.fail rfl)))
              · exact refused (differ same)
      | some r =>
          obtain rfl : some r = r' := rightVaguer.resolve_left (Option.some_ne_none r)
          by_cases same : r = l
          · subst same
            rw [arithmetic_same, arithmetic_same]
            exact ite (pure (.refl _)) (ite (pure (.refl _)) (refused (.fail rfl)))
          · exact refused (differ same)

theorem binary (op : BinaryOp) (symbol : String) (place leftPos rightPos : Position)
    (leftVaguer : Vaguer left.type left'.type) (rightVaguer : Vaguer right.type right'.type) :
    Fades context view (Lower.binary context op symbol place leftPos rightPos left right)
      (Lower.binary context op symbol place leftPos rightPos left' right') := by
  unfold Lower.binary
  split
  all_goals first
    | exact logical _ _ _ leftVaguer rightVaguer
    | exact comparison _ _ _ _ leftVaguer rightVaguer
    | exact arithmetic _ _ _ _ leftVaguer rightVaguer

theorem cast (pos : Position) {operand other : TypedCode} (type : TypeTree)
    (vaguer : Vaguer operand.type other.type) :
    Fades context view (Lower.cast context pos operand type)
      (Lower.cast context pos other type) := by
  unfold Lower.cast
  dsimp only
  split
  · rename_i unnamed
    rw [unnamed]
    exact refused (.fail rfl)
  · rename_i target source named
    rw [named]
    dsimp only
    apply ite (refused (.fail rfl))
    rcases vaguer with none | same
    · rw [none]
      dsimp only
      split
      · exact pure (.refl _)
      · exact pure (.refl _)
      · exact pure (.refl _)
      · split
        · exact pure (.refl _)
        · exact refused (.fail rfl)
      · exact refused (.fail rfl)
    · rw [same]
      split
      · exact pure (.refl _)
      · exact pure (.refl _)
      · exact pure (.refl _)
      · exact ite (pure (.refl _)) (refused (.fail rfl))
      · exact refused (.fail rfl)

theorem method {receiver other : TypedCode} (ident : Ident)
    (vaguer : Vaguer receiver.type other.type) :
    Fades context view (Lower.method context receiver ident)
      (Lower.method context other ident) := by
  rcases vaguer with none | same
  · have pure_ : Lower.method context receiver ident = Pure.pure .unknown := by
      rw [Lower.method, none]
    rw [pure_]
    exact unknown rfl (method_keeps _ _)
  · unfold Lower.method
    rw [same]
    split
    · exact pure (.refl _)
    · refine ite (pure (.refl _)) (ite (pure (.inr ?_)) (ite (pure (.inr ?_))
        (ite (pure (.refl _)) (refused (.fail rfl)))))
      · exact same
      · exact same

/-! ## Calls -/

def ArgsVaguer (args others : List (Position × TypedCode)) : Prop :=
  List.Forall₂ (fun here there => here.1 = there.1 ∧ Vaguer here.2.type there.2.type) args others

variable {args others : List (Position × TypedCode)}

theorem expectArguments (types : List (Option TypeRef)) (vaguer : ArgsVaguer args others) :
    Shadows context view (Lower.expectArguments context types args)
      (Lower.expectArguments context types others) fun _ _ => True := by
  induction types generalizing args others with
  | nil => exact pure trivial
  | cons expected types ih =>
      cases vaguer with
      | nil => exact pure trivial
      | @cons here there args others first rest =>
          obtain ⟨pos, typed⟩ := here
          obtain ⟨pos', found⟩ := there
          obtain ⟨rfl, type⟩ := first
          have goesOn (args : List (Position × TypedCode)) :
              Onward context (Lower.expectArguments context types args) :=
            (expectArguments_keeps _ _).onward
          apply bind (fun _ => goesOn args) (fun _ => goesOn others) (expect_keeps _ _ _).onward
            (expect pos expected type)
          intro _ _ _
          exact ih rest

theorem textCall (pos : Position) (function : String) (vaguer : ArgsVaguer args others) :
    Fades context view (Lower.textCall context pos function args)
      (Lower.textCall context pos function others) := by
  unfold Lower.textCall
  have fails {problem : Problem} (grave : problem.severity = .error) :
      Fades context view (Lower.fail context pos problem) (Lower.fail context pos problem) :=
    refused (.fail grave)
  dsimp only
  rw [vaguer.length_eq]
  cases vaguer with
  | nil => exact ite (pure (.refl _)) (ite (fails rfl) (fails rfl))
  | @cons here there args others first rest =>
      cases rest with
      | nil =>
          obtain ⟨pos, typed⟩ := here
          obtain ⟨pos', found⟩ := there
          obtain ⟨rfl, type⟩ := first
          refine ite (fails rfl) (ite ?_ (fails rfl))
          dsimp only at type ⊢
          by_cases text : found.type.all (· = .str) = true
          · rw [if_pos text, if_pos (type.all text)]
            exact pure (.refl _)
          · rw [if_neg text]
            exact refused (.andThen context (.expect pos text) fun _ => .pure _)
      | cons second rest => exact ite (fails rfl) (ite (fails rfl) (fails rfl))

/-- A question whose answer may make the second run report an error. -/
theorem check_unless {step : Check σ α'} {next : α' → Lower σ α} {next' : α' → Lower σ β}
    (good : α' → Prop) (grows : Check.Extends context.manager step)
    (again : ∀ first second : Session σ, (step first).2.SeenIn view →
      (step second).2.SeenIn view → (step first).1 = (step second).1 ∧
        (good (step first).1 → first.Silent (step first).2))
    (onward : ∀ value, Onward context (next value))
    (onward' : ∀ value, Onward context (next' value))
    (refuses : ∀ value, ¬good value → Refuses (next' value))
    (rest : ∀ value, good value → Shadows context view (next value) (next' value) Q) :
    Shadows context view (Lower.check step >>= next) (Lower.check step >>= next') Q := by
  intro s t scopes seen seen' quiet
  rcases ran : step s.session with ⟨value, after⟩
  rcases ran' : step t.session with ⟨found, after'⟩
  have first : Lower.check step s = (value, { s with session := after }) := by
    rw [Lower.check, ran]
  have second : Lower.check step t = (found, { t with session := after' }) := by
    rw [Lower.check, ran']
  rw [bind_of_run first] at seen ⊢
  rw [bind_of_run second] at seen' quiet ⊢
  have later := (onward value { s with session := after }).session
  have later' := (onward' found { t with session := after' }).session
  have started := (grows.of_run ran').errors_le
  have ended := later'.errors_le
  have told := again s.session t.session
  rw [ran, ran'] at told
  obtain ⟨same, silent⟩ := told (later.seenIn seen) (later'.seenIn seen')
  cases same
  by_cases known : good value
  · obtain ⟨tells, scopes, holds⟩ := rest value known { s with session := after }
      { t with session := after' } scopes seen seen' (by dsimp only at ended ⊢; omega)
    exact ⟨(silent known).tellsDepth.trans tells, scopes, holds⟩
  · have refused := refuses value known { t with session := after' }
    dsimp only at refused
    omega

/-- Two sessions know the same constructors of a unit, and nothing is reported of one that has
any. -/
theorem constructorsOf_again (unit : String) (first second : Session σ)
    (seen : (constructorsOf context unit first).2.SeenIn view)
    (seen' : (constructorsOf context unit second).2.SeenIn view) :
    (constructorsOf context unit first).1 = (constructorsOf context unit second).1 ∧
      ((constructorsOf context unit first).1 ≠ [] →
        first.Silent (constructorsOf context unit first).2) := by
  unfold constructorsOf at seen seen' ⊢
  cases own : context.sigs.find? (·.fullName = unit) with
  | some sig => exact ⟨rfl, fun _ => rfl⟩
  | none =>
      simp only [own] at seen seen' ⊢
      rcases asked : Session.classPathUnit context.manager unit first with ⟨answer, after⟩
      rcases asked' : Session.classPathUnit context.manager unit second with ⟨answer', after'⟩
      rw [bind_of_run asked] at seen ⊢
      rw [bind_of_run asked'] at seen' ⊢
      obtain ⟨-, known⟩ := Session.classPathUnit_run asked
      obtain ⟨-, known'⟩ := Session.classPathUnit_run asked'
      have same : some answer = some answer' :=
        (seen.units _ _ known).symm.trans (seen'.units _ _ known')
      cases same
      refine ⟨rfl, ?_⟩
      intro any
      cases answer with
      | none => exact absurd rfl any
      | some image => exact Session.classPathUnit_found asked

theorem constructorCall (pos functionPos : Position) (unit function : String)
    (vaguer : ArgsVaguer args others) :
    Fades context view (Lower.constructorCall context pos functionPos unit function args)
      (Lower.constructorCall context pos functionPos unit function others) := by
  apply check_unless (· ≠ []) (constructorsOf_extends unit) (constructorsOf_again unit)
  case onward | onward' =>
    intro constructors
    split
    · exact (fail_keeps rfl).onward
    · exact .ite (fail_keeps rfl).onward
        (.bind (expectArguments_keeps _ _).onward fun _ => .pure _)
  case refuses =>
    intro constructors none
    rw [not_not.mp none]
    exact .fail rfl
  case rest =>
    intro constructors any
    cases constructors.lookup function with
    | none => exact refused (.fail rfl)
    | some params =>
        dsimp only
        rw [vaguer.length_eq]
        apply ite (refused (.fail rfl))
        apply ending (expectArguments_keeps _ _).onward (expectArguments params vaguer)
        intro _ _ _
        exact .refl _

theorem call (pos functionPos : Position) (names : List String)
    (vaguer : ArgsVaguer args others) :
    Fades context view (Lower.call context pos functionPos names args)
      (Lower.call context pos functionPos names others) := by
  unfold Lower.call
  dsimp only
  split
  · exact refused (.fail rfl)
  · exact textCall _ _ vaguer
  · apply bind
    case onward | onward' =>
      intro unit
      cases unit with
      | none => exact .bind giveUp_onward fun _ => .pure _
      | some unit => exact (constructorCall_keeps _ _ _ _ _).onward
    case keeps => exact (check_keeps (Declarations.resolveUnit_extends _ _ _)).onward
    case first => exact check (Declarations.resolveUnit_repeats _ _ _)
    case rest =>
      intro unit found same
      subst same
      cases unit with
      | none =>
          apply ending giveUp_onward giveUp
          intro _ _ _
          exact .refl _
      | some unit => exact constructorCall _ _ _ _ vaguer

/-! ## Expressions -/

theorem atLimit (tree : ExprTree) {other : Lower σ TypedCode} (keeps : Keeps context other) :
    Fades context view (Lower.atLimit context tree) other := by
  intro ⟨session, scope, reportedDepth, complete⟩ second scopes _ _ _
  have vaguer : scope.Vaguer (other second).2.scope := by
    rw [Scope.Vaguer, (keeps second).locals]
    exact scopes
  cases reportedDepth with
  | true => exact ⟨Session.Silent.tellsDepth rfl, vaguer, .inl rfl⟩
  | false =>
      refine ⟨⟨[depthReport context.decls.uri (headPos tree)], ?_, ?_⟩, vaguer, .inl rfl⟩
      · exact Session.delivered_report rfl session
      · intro diagnostic member
        rw [List.mem_singleton.mp member]
        exact isDepthReport_iff.mpr ⟨_, rfl⟩

def Unlimited (context : LoweringContext σ) (view : ClassPathView) (depth : Nat)
    (tree : ExprTree) : Prop :=
  ∀ deeper, maxExprDepth < deeper →
    Fades context view (Lower.expr context depth tree) (Lower.expr context deeper tree)

def UnlimitedAll (context : LoweringContext σ) (view : ClassPathView) (depth : Nat)
    (trees : List ExprTree) : Prop :=
  ∀ deeper, maxExprDepth < deeper → Shadows context view (Lower.exprs context depth trees)
    (Lower.exprs context deeper trees) ArgsVaguer

theorem operand {depth deeper : Nat} {tree : ExprTree} {next next' : TypedCode → Lower σ TypedCode}
    (ih : Unlimited context view (depth + 1) tree) (below : maxExprDepth < deeper)
    (onward : ∀ typed, Onward context (next typed))
    (onward' : ∀ typed, Onward context (next' typed))
    (rest : ∀ typed found : TypedCode, Vaguer typed.type found.type →
      Fades context view (next typed) (next' found)) :
    Fades context view (do next (← Lower.expr context (depth + 1) tree))
      (do next' (← Lower.expr context (deeper + 1) tree)) :=
  bind onward onward' (expr_keeps (deeper + 1) tree).onward
    (ih (deeper + 1) (Nat.lt_succ_of_lt below)) rest

theorem expr_exprs : (∀ depth tree, Unlimited context view depth tree) ∧
    ∀ depth trees, UnlimitedAll context view depth trees := by
  apply expr_exprs_induct
    (P := fun _ tree step => ∀ deeper, maxExprDepth < deeper →
      Fades context view step (Lower.expr context deeper tree))
    (Q := fun _ trees step => ∀ deeper, maxExprDepth < deeper →
      Shadows context view step (Lower.exprs context deeper trees) ArgsVaguer)
  case limit =>
    intro tree deeper below
    exact atLimit tree (expr_keeps deeper tree)
  case refused =>
    intro depth above tree pos problem form deeper below
    rw [expr_refused (Nat.ne_of_gt below) form]
    exact refused (.fail form.severity)
  case literal =>
    intro depth above pos place value deeper below
    rw [Lower.expr, if_neg (Nat.ne_of_gt below)]
    exact literal _ _ _
  case minusLiteral =>
    intro depth above pos place start literalPlace value deeper below
    rw [Lower.expr, if_neg (Nat.ne_of_gt below)]
    exact literal _ _ _
  case paren =>
    intro depth above pos opening inner ih deeper below
    rw [Lower.expr, if_neg (Nat.ne_of_gt below)]
    exact ih (deeper + 1) (by omega)
  case path =>
    intro depth above pos qualified names deeper below
    rw [Lower.expr, if_neg (Nat.ne_of_gt below)]
    exact namedValue _ _ _
  case minus =>
    intro depth above pos place operand_ other ih deeper below
    rw [expr_minus (Nat.ne_of_gt below) other]
    apply operand ih below
    case onward | onward' => exact fun _ => (unary_keeps _ _ _).onward
    case rest =>
      intro typed found vaguer
      exact unary _ _ vaguer
  case not =>
    intro depth above pos place operand_ ih deeper below
    rw [Lower.expr, if_neg (Nat.ne_of_gt below)]
    apply operand ih below
    case onward | onward' => exact fun _ => (unary_keeps _ _ _).onward
    case rest =>
      intro typed found vaguer
      exact unary _ _ vaguer
  case binary =>
    intro depth above pos place op left right found symbol known ihLeft ihRight deeper below
    rw [Lower.expr, if_neg (Nat.ne_of_gt below), known]
    apply operand ihLeft below
    case onward | onward' =>
      intro leftCode
      exact .bind (expr_keeps _ _).onward fun _ => (binary_keeps _ _ _ _ _ _ _).onward
    case rest =>
      intro leftCode leftCode' leftVaguer
      apply operand ihRight below
      case onward | onward' => exact fun _ => (binary_keeps _ _ _ _ _ _ _).onward
      case rest =>
        intro rightCode rightCode' rightVaguer
        exact binary _ _ _ _ _ leftVaguer rightVaguer
  case cast =>
    intro depth above pos place operand_ type ih deeper below
    rw [Lower.expr, if_neg (Nat.ne_of_gt below)]
    apply operand ih below
    case onward | onward' => exact fun _ => (cast_keeps _ _ _).onward
    case rest =>
      intro typed found vaguer
      exact cast _ _ vaguer
  case method =>
    intro depth above pos receiver ident ih deeper below
    rw [Lower.expr, if_neg (Nat.ne_of_gt below), if_neg Bool.false_ne_true]
    apply operand ih below
    case onward | onward' => exact fun _ => (method_keeps _ _).onward
    case rest =>
      intro typed found vaguer
      exact method _ vaguer
  case methodArguments =>
    intro depth above pos receiver ident first rest ih deeper below
    rw [Lower.expr, if_neg (Nat.ne_of_gt below), if_neg Bool.false_ne_true]
    apply operand ih below
    case onward | onward' => exact fun _ => (fail_keeps rfl).onward
    case rest =>
      intro _ _ _
      exact refused (.fail rfl)
  case call =>
    intro depth above pos opening functionPos names args ih deeper below
    rw [Lower.expr, if_neg (Nat.ne_of_gt below)]
    apply bind
    case onward | onward' =>
      intro found
      split
      · exact .bind giveUp_onward fun _ => .pure _
      · exact .bind (exprs_keeps _ _).onward fun _ => (call_keeps _ _ _ _).onward
    case keeps => exact (check_keeps (Declarations.plainNames_extends names)).onward
    case first => exact check (Declarations.plainNames_repeats names)
    case rest =>
      intro found found' same
      subst same
      cases found with
      | none =>
          apply ending giveUp_onward giveUp
          intro _ _ _
          exact .refl _
      | some names =>
          apply bind
          case onward | onward' => exact fun _ => (call_keeps _ _ _ _).onward
          case keeps => exact (exprs_keeps _ _).onward
          case first => exact ih (deeper + 1) (by omega)
          case rest =>
            intro args others vaguer
            exact call _ _ _ vaguer
  case reference =>
    intro depth above pos place operand_ ih deeper below
    rw [Lower.expr, if_neg (Nat.ne_of_gt below)]
    apply operand ih below
    case onward | onward' => exact fun _ => .ite (.pure _) (fail_keeps rfl).onward
    case rest =>
      intro typed found vaguer
      by_cases text : found.type.all (· = .str) = true
      · rw [if_pos text, if_pos (vaguer.all text)]
        exact pure vaguer
      · rw [if_neg text]
        exact refused (.fail rfl)
  case nil =>
    intro depth deeper below
    exact pure .nil
  case cons =>
    intro depth first rest ih ihRest deeper below
    rw [Lower.exprs]
    apply bind
    case onward | onward' => exact fun _ => .bind (exprs_keeps _ _).onward fun _ => .pure _
    case keeps => exact (expr_keeps _ _).onward
    case first => exact ih deeper below
    case rest =>
      intro typed found vaguer
      apply ending (exprs_keeps _ _).onward (ihRest deeper below)
      intro args others same
      exact .cons ⟨rfl, vaguer⟩ same

end Shadows

end Lower

end UnitForge
