import UnitForge.Proofs.Evaluation.Soundness

/-! # The limit on nested constructors

An evaluation under one limit is compared with one under a larger limit. The second one is written
down with the depth of each constructor that it starts, counted from the outside in: as long as no
depth is beyond the smaller limit the two do the same, and the first one fails for its limit where
the second one starts a constructor beyond it. -/
set_option autoImplicit false
namespace UnitForge.Evaluation

open UnitForge.Step

/-! ## Evaluation with a record of depths -/

/-- A step that also writes down the depths of the constructors it starts. -/
abbrev Recorded (α : Type) : Type :=
  ExceptT Error (StateM (World × List Nat)) α

namespace Recorded

def quietly {α : Type} (step : Action α) : Recorded α :=
  ExceptT.mk fun (world, depths) => ((step world).1, (step world).2, depths)

def enter (depth : Nat) : Recorded Unit :=
  modify fun (world, depths) => (world, depths ++ [depth])

abbrev Runner := UnitType → ConstructorDecl → List Value → Recorded Instance

mutual

def eval (run : Runner) (frame : Frame) : Expr → Recorded Value
  | .unary op operand => do quietly (lift (unary op (← eval run frame operand)))
  | .binary .and left right => do
    match ← eval run frame left with
    | .bool false => return .bool false
    | .bool true => eval run frame right
    | other => throw (.execution (.operandType "&&" other.type?))
  | .binary .or left right => do
    match ← eval run frame left with
    | .bool true => return .bool true
    | .bool false => eval run frame right
    | other => throw (.execution (.operandType "||" other.type?))
  | .binary op left right => do
    let a ← eval run frame left
    let b ← eval run frame right
    quietly (lift (binary op a b))
  | .cast operand type => do quietly (lift (cast (← eval run frame operand) type))
  | .toText operand => do quietly (lift (toText (← eval run frame operand)))
  | .length operand => do quietly (lift (length (← eval run frame operand)))
  | .construct unit constructor args => do
    let target ← quietly (unitFor frame.unit unit)
    let ctor ← quietly (callee target unit constructor args.length)
    let values ← evalAll run frame args
    return (← run target ctor values).toValue
  | .null => return .null
  | .int value => return .int value
  | .float value => return .float value
  | .bool value => return .bool value
  | .str value => return .str value
  | .slot index =>
    match frame.slots[index.toNat]? with
    | some value => return value
    | none => throw (.execution (.slotOutOfRange index))

def evalAll (run : Runner) (frame : Frame) : List Expr → Recorded (List Value)
  | [] => return []
  | first :: rest => do
    let value ← eval run frame first
    return value :: (← evalAll run frame rest)

end

def runBody (run : Runner) (unit : UnitType) : List Stmt → List Value → Recorded (List Value)
  | [], slots => return slots
  | step :: rest, slots => do
    let value ← eval run { unit, slots } step.value
    if step.slot.toNat < slots.length then
      runBody run unit rest (slots.set step.slot.toNat value)
    else throw (.execution (.slotOutOfRange step.slot))

def start (run : Runner) : Runner := fun unit ctor args => do
  if ctor.init.length ≠ unit.fields.length then
    throw (.malformedArtifact unit.name
      (.missingInit ctor.name ctor.init.length unit.fields.length))
  let slots ← runBody run unit ctor.body (initialSlots ctor args)
  let fields ← evalAll run { unit, slots } ctor.init
  quietly (Action.newInstance unit fields)

/-- Runs a constructor at a depth, and what it calls one deeper. -/
def runAt (limit depth : Nat) : Runner := fun unit ctor args =>
  if limit < depth then throw (.execution (.nestedTooDeeply limit unit.simpleName ctor.name))
  else do
    enter depth
    start (runAt limit (depth + 1)) unit ctor args
termination_by limit + 1 - depth

end Recorded

/-- The depths at which constructors are active while one is run, which is itself at depth zero. -/
def activeDepths (limit : Nat) (unit : UnitType) (ctor : ConstructorDecl) (args : List Value)
    (world : World) : List Nat :=
  (Recorded.runAt limit 0 unit ctor args (world, [])).2.2

def Exceeds {α : Type} (limit : Nat) (outcome : Except Error α) : Prop :=
  ∃ unit constructor, outcome = .error (.execution (.nestedTooDeeply limit unit constructor))

/-! ## What a limit cuts off -/

/-- The second step does what the first one does, and stays within the limit; or it goes beyond it,
and the first one fails. Never does it go beyond a larger limit. -/
def CutsOff {α : Type} (limit larger : Nat) (short : Action α) (long : Recorded α) : Prop :=
  ∀ world depths, ∃ more,
    (long (world, depths)).2.2 = depths ++ more ∧ (∀ depth ∈ more, depth ≤ larger) ∧
      ((∀ depth ∈ more, depth ≤ limit) ∧
          long (world, depths) = ((short world).1, (short world).2, depths ++ more) ∨
        (∃ depth ∈ more, limit < depth) ∧ Exceeds limit (short world).1)

namespace CutsOff

variable {α β : Type} {limit larger : Nat}

theorem quietly (step : Action α) : CutsOff limit larger step (Recorded.quietly step) := by
  intro world depths
  refine ⟨[], ?_, List.forall_mem_nil _, .inl ⟨List.forall_mem_nil _, ?_⟩⟩
  · rw [List.append_nil]
    rfl
  · rw [List.append_nil]
    rfl

theorem pure (value : α) :
    CutsOff limit larger (Pure.pure value : Action α) (Pure.pure value : Recorded α) :=
  quietly (Pure.pure value)

theorem throw (fault : Error) :
    CutsOff limit larger (MonadExcept.throw fault : Action α)
      (MonadExcept.throw fault : Recorded α) :=
  quietly (MonadExcept.throw fault)

theorem bind {short : Action α} {long : Recorded α} {next : α → Action β}
    {next' : α → Recorded β} (first : CutsOff limit larger short long)
    (rest : ∀ value, CutsOff limit larger (next value) (next' value)) :
    CutsOff limit larger (short >>= next) (long >>= next') := by
  intro world depths
  obtain ⟨more, record, bounded, same | ⟨beyond, unit, constructor, exceeded⟩⟩ := first world depths
  · obtain ⟨within, same⟩ := same
    rcases run : short world with ⟨fault | value, middle⟩
    · rw [run] at same
      refine ⟨more, ?_, bounded, .inl ⟨within, ?_⟩⟩
      · rw [except_bind_error same]
      · rw [except_bind_error same, except_bind_error run]
    · rw [run] at same
      obtain ⟨others, record', bounded', rest⟩ := rest value middle (depths ++ more)
      refine ⟨more ++ others, ?_, List.forall_mem_append.mpr ⟨bounded, bounded'⟩, ?_⟩
      · rw [except_bind_ok same, record', List.append_assoc]
      · rw [except_bind_ok same, except_bind_ok run, ← List.append_assoc]
        rcases rest with ⟨within', same'⟩ | ⟨⟨depth, member, beyond⟩, exceeded⟩
        · exact .inl ⟨List.forall_mem_append.mpr ⟨within, within'⟩, same'⟩
        · exact .inr ⟨⟨depth, List.mem_append_right _ member, beyond⟩, exceeded⟩
  · -- The first step failed for the limit; whatever the second one goes on to do is not compared.
    have stopped : Exceeds limit ((short >>= next : Action β) world).1 := by
      rw [except_bind_error (Prod.ext exceeded rfl)]
      exact ⟨unit, constructor, rfl⟩
    obtain ⟨depth, member, beyond⟩ := beyond
    rcases run : long (world, depths) with ⟨fault | value, middle, known⟩
    · rw [run] at record
      refine ⟨more, ?_, bounded, .inr ⟨⟨depth, member, beyond⟩, stopped⟩⟩
      rw [except_bind_error run]
      exact record
    · rw [run] at record
      obtain ⟨others, record', bounded', -⟩ := rest value middle known
      refine ⟨more ++ others, ?_, List.forall_mem_append.mpr ⟨bounded, bounded'⟩,
        .inr ⟨⟨depth, List.mem_append_left _ member, beyond⟩, stopped⟩⟩
      rw [except_bind_ok run, record', ← List.append_assoc]
      exact congrArg (· ++ others) record

theorem ite {condition : Prop} [Decidable condition] {yes no : Action α} {yes' no' : Recorded α}
    (whenTrue : CutsOff limit larger yes yes') (whenFalse : CutsOff limit larger no no') :
    CutsOff limit larger (if condition then yes else no) (if condition then yes' else no') := by
  by_cases holds : condition
  · rw [if_pos holds, if_pos holds]
    exact whenTrue
  · rw [if_neg holds, if_neg holds]
    exact whenFalse

end CutsOff

/-! ## Code -/

def Runner.CutsOff (limit larger : Nat) (short : Runner) (long : Recorded.Runner) : Prop :=
  ∀ unit ctor args, Evaluation.CutsOff limit larger (short unit ctor args) (long unit ctor args)

section Code
variable {limit larger : Nat} {short : Runner} {long : Recorded.Runner}

theorem recorded_binary {frame : Frame} {op : BinaryOp} (notLogical : op.isLogical = false)
    (left right : Expr) : Recorded.eval long frame (.binary op left right) = (do
      let a ← Recorded.eval long frame left
      let b ← Recorded.eval long frame right
      Recorded.quietly (lift (binary op a b))) := by
  cases op <;> first | rfl | cases notLogical

mutual

theorem eval_cutsOff (runs : short.CutsOff limit larger long) (frame : Frame) (code : Expr) :
    CutsOff limit larger (eval short frame code) (Recorded.eval long frame code) := by
  cases code with
  | null | int | float | bool | str =>
      rw [eval, Recorded.eval]
      exact .pure _
  | slot index =>
      rw [eval, Recorded.eval]
      cases frame.slots[index.toNat]? with
      | none => exact .throw _
      | some value => exact .pure _
  | unary op operand =>
      rw [eval, Recorded.eval]
      exact .bind (eval_cutsOff runs frame operand) fun value => .quietly _
  | binary op left right =>
      have first := eval_cutsOff runs frame left
      have second := eval_cutsOff runs frame right
      by_cases logical : op.isLogical = true
      · cases op with
        | and =>
            rw [eval, Recorded.eval]
            apply first.bind
            intro value
            rcases value with _ | _ | _ | (_ | _) | _ | _
            case bool.false => exact .pure _
            case bool.true => exact second
            all_goals exact .throw _
        | or =>
            rw [eval, Recorded.eval]
            apply first.bind
            intro value
            rcases value with _ | _ | _ | (_ | _) | _ | _
            case bool.false => exact second
            case bool.true => exact .pure _
            all_goals exact .throw _
        | _ => cases logical
      · rw [eval_binary (Bool.eq_false_iff.mpr logical),
          recorded_binary (Bool.eq_false_iff.mpr logical)]
        exact .bind first fun a => .bind second fun b => .quietly _
  | cast operand type =>
      rw [eval, Recorded.eval]
      exact .bind (eval_cutsOff runs frame operand) fun value => .quietly _
  | toText operand =>
      rw [eval, Recorded.eval]
      exact .bind (eval_cutsOff runs frame operand) fun value => .quietly _
  | length operand =>
      rw [eval, Recorded.eval]
      exact .bind (eval_cutsOff runs frame operand) fun value => .quietly _
  | construct unit constructor args =>
      rw [eval, Recorded.eval]
      refine .bind (.quietly _) ?_
      intro target
      refine .bind (.quietly _) ?_
      intro ctor
      apply (evalAll_cutsOff runs frame args).bind
      intro values
      exact .bind (runs target ctor values) fun object => .pure _

theorem evalAll_cutsOff (runs : short.CutsOff limit larger long) (frame : Frame)
    (codes : List Expr) :
    CutsOff limit larger (evalAll short frame codes) (Recorded.evalAll long frame codes) := by
  cases codes with
  | nil => exact .pure _
  | cons first rest =>
      rw [evalAll, Recorded.evalAll]
      apply (eval_cutsOff runs frame first).bind
      intro value
      exact .bind (evalAll_cutsOff runs frame rest) fun values => .pure _

end

theorem runBody_cutsOff (runs : short.CutsOff limit larger long) (unit : UnitType)
    (body : List Stmt) (slots : List Value) :
    CutsOff limit larger (runBody short unit body slots)
      (Recorded.runBody long unit body slots) := by
  induction body generalizing slots with
  | nil => exact .pure _
  | cons step rest ih =>
      rw [runBody, Recorded.runBody]
      apply (eval_cutsOff runs _ _).bind
      intro value
      exact .ite (ih _) (.throw _)

end Code

/-! ## Constructors -/

section Constructors
variable {limit larger levels depth : Nat} {unit : UnitType} {ctor : ConstructorDecl}
  {args : List Value}

theorem start_cutsOff {long : Recorded.Runner}
    (runs : (runWithin limit levels).CutsOff limit larger long) :
    (runWithin limit (levels + 1)).CutsOff limit larger (Recorded.start long) := by
  intro unit ctor args
  by_cases count : ctor.init.length = unit.fields.length
  · have checked : Recorded.start long unit ctor args = (do
        let slots ← Recorded.runBody long unit ctor.body (initialSlots ctor args)
        let fields ← Recorded.evalAll long { unit, slots } ctor.init
        Recorded.quietly (Action.newInstance unit fields)) := by
      rw [Recorded.start, if_neg (not_not_intro count)]
    rw [runWithin_succ count, checked]
    apply (runBody_cutsOff runs _ _ _).bind
    intro slots
    exact .bind (evalAll_cutsOff runs _ _) fun fields => .quietly _
  · rw [runWithin, Recorded.start]
    dsimp only
    rw [if_pos count, if_pos count]
    exact .throw _

theorem recorded_runAt (within : depth ≤ limit) :
    Recorded.runAt limit depth unit ctor args = (do
      Recorded.enter depth
      Recorded.start (Recorded.runAt limit (depth + 1)) unit ctor args) := by
  rw [Recorded.runAt, if_neg (Nat.not_lt.mpr within)]

theorem enter_bind_run {α : Type} (rest : Recorded α) (world : World) (depths : List Nat) :
    (Recorded.enter depth >>= fun _ => rest : Recorded α) (world, depths) =
      rest (world, depths ++ [depth]) :=
  rfl

theorem CutsOff.enter {short : Action Instance} {long : Recorded Instance}
    (within : depth ≤ limit) (order : limit ≤ larger) (rest : CutsOff limit larger short long) :
    CutsOff limit larger short (do Recorded.enter depth; long) := by
  intro world depths
  obtain ⟨more, record, bounded, same⟩ := rest world (depths ++ [depth])
  rw [List.append_assoc] at record same
  refine ⟨[depth] ++ more, ?_, ?_, ?_⟩
  · rw [enter_bind_run]
    exact record
  · rw [List.singleton_append, List.forall_mem_cons]
    exact ⟨Nat.le_trans within order, bounded⟩
  · rw [enter_bind_run]
    rcases same with ⟨others, same⟩ | ⟨⟨deep, member, beyond⟩, exceeded⟩
    · left
      rw [List.singleton_append, List.forall_mem_cons]
      exact ⟨⟨within, others⟩, same⟩
    · exact .inr ⟨⟨deep, List.mem_append_right _ member, beyond⟩, exceeded⟩

theorem CutsOff.beyond {other : Action Instance} {long : Recorded Instance}
    (deeper : limit < depth) (within : depth ≤ larger) (unit constructor : String)
    (rest : CutsOff larger larger other long) :
    CutsOff limit larger (MonadExcept.throw (.execution (.nestedTooDeeply limit unit constructor)))
      (do Recorded.enter depth; long) := by
  intro world depths
  obtain ⟨more, record, bounded, -⟩ := rest world (depths ++ [depth])
  rw [List.append_assoc] at record
  refine ⟨[depth] ++ more, ?_, ?_, .inr ⟨⟨depth, ?_, deeper⟩, unit, constructor, rfl⟩⟩
  · rw [enter_bind_run]
    exact record
  · rw [List.singleton_append, List.forall_mem_cons]
    exact ⟨within, bounded⟩
  · exact List.mem_append_left _ (List.mem_singleton_self depth)

/-- The levels that are left count the depth from the other end; what happens at the first depth
beyond the limit decides. -/
theorem runAt_cutsOff_of_bottom (order : limit ≤ larger)
    (bottom : (runWithin limit 0).CutsOff limit larger (Recorded.runAt larger (limit + 1)))
    (whole : depth + levels = limit + 1) :
    (runWithin limit levels).CutsOff limit larger (Recorded.runAt larger depth) := by
  induction levels generalizing depth with
  | zero =>
      obtain rfl : depth = limit + 1 := by omega
      exact bottom
  | succ levels ih =>
      intro unit ctor args
      have shift : depth + 1 + levels = limit + 1 := by omega
      have deeper := ih shift
      have within : depth ≤ limit := by omega
      rw [recorded_runAt (by omega)]
      exact .enter within order (start_cutsOff deeper unit ctor args)

theorem runAt_cutsOff_self (whole : depth + levels = limit + 1) :
    (runWithin limit levels).CutsOff limit limit (Recorded.runAt limit depth) := by
  apply runAt_cutsOff_of_bottom (Nat.le_refl limit) _ whole
  intro unit ctor args
  rw [runWithin, Recorded.runAt, if_pos (Nat.lt_succ_self limit)]
  exact .throw _

theorem runAt_cutsOff (order : limit ≤ larger) :
    (run limit).CutsOff limit larger (Recorded.runAt larger 0) := by
  rcases Nat.eq_or_lt_of_le order with rfl | smaller
  · exact runAt_cutsOff_self (Nat.zero_add _)
  · apply runAt_cutsOff_of_bottom order _ (Nat.zero_add _)
    intro unit ctor args
    have rest : (runWithin larger (larger - (limit + 1))).CutsOff larger larger
        (Recorded.runAt larger (limit + 2)) := runAt_cutsOff_self (by omega)
    rw [runWithin, recorded_runAt (by omega)]
    exact .beyond (Nat.lt_succ_self limit) smaller _ _ (start_cutsOff rest unit ctor args)

end Constructors

/-- The record does not change what is evaluated, and has no depth beyond the limit. -/
theorem runAt_record (limit : Nat) (unit : UnitType) (ctor : ConstructorDecl) (args : List Value)
    (world : World) :
    Recorded.runAt limit 0 unit ctor args (world, []) = ((run limit unit ctor args world).1,
      (run limit unit ctor args world).2, activeDepths limit unit ctor args world) ∧
      ∀ depth ∈ activeDepths limit unit ctor args world, depth ≤ limit := by
  obtain ⟨more, record, bounded, ⟨-, same⟩ | ⟨⟨depth, member, beyond⟩, -⟩⟩ :=
    runAt_cutsOff (Nat.le_refl limit) unit ctor args world []
  · have depths : activeDepths limit unit ctor args world = more := record
    rw [depths]
    exact ⟨same, bounded⟩
  · have within := bounded depth member
    omega

/-- Under a larger limit either no constructor is active beyond the limit, and nothing changes, or
one is, and the limit is exceeded. -/
theorem activeDepths_split {limit larger : Nat} (order : limit ≤ larger) (unit : UnitType)
    (ctor : ConstructorDecl) (args : List Value) (world : World) :
    (∀ depth ∈ activeDepths larger unit ctor args world, depth ≤ limit) ∧
        run larger unit ctor args world = run limit unit ctor args world ∨
      (∃ depth ∈ activeDepths larger unit ctor args world, limit < depth) ∧
        Exceeds limit (run limit unit ctor args world).1 := by
  obtain ⟨more, record, -, split⟩ := runAt_cutsOff order unit ctor args world []
  have depths : activeDepths larger unit ctor args world = more := record
  rw [depths]
  rcases split with ⟨within, same⟩ | exceeded
  · left
    rw [(runAt_record larger unit ctor args world).1, Prod.mk.injEq, Prod.mk.injEq] at same
    exact ⟨within, Prod.ext same.1 same.2.1⟩
  · exact .inr exceeded

/-! ## Choosing a constructor -/

/-- The second step is the first one, unless that one fails for its limit. -/
def Keeps {α : Type} (limit : Nat) (short long : Action α) : Prop :=
  ∀ world, ¬Exceeds limit (short world).1 → long world = short world

namespace Keeps

variable {limit larger : Nat}

theorem refl {α : Type} (step : Action α) : Keeps limit step step :=
  fun _ _ => rfl

theorem bind {α β : Type} (step : Action α) {next next' : α → Action β}
    (rest : ∀ value, Keeps limit (next value) (next' value)) :
    Keeps limit (step >>= next) (step >>= next') := by
  intro world settled
  rcases run : step world with ⟨fault | value, middle⟩
  · rw [except_bind_error run, except_bind_error run]
  · rw [except_bind_ok run] at settled ⊢
    rw [except_bind_ok run]
    exact rest value middle settled

theorem run (order : limit ≤ larger) (unit : UnitType) (ctor : ConstructorDecl)
    (args : List Value) :
    Keeps limit (run limit unit ctor args) (Evaluation.run larger unit ctor args) := by
  intro world settled
  obtain ⟨-, same⟩ | ⟨-, exceeded⟩ := activeDepths_split order unit ctor args world
  · exact same
  · exact absurd exceeded settled

end Keeps

theorem construct_keeps {limit larger : Nat} (order : limit ≤ larger) (unit : UnitType)
    (args : List Value) : Keeps limit (construct limit unit args) (construct larger unit args) := by
  unfold construct
  refine .bind _ ?_
  intro types
  refine .bind _ ?_
  intro found
  rcases found with _ | ⟨ctor, _ | ⟨second, others⟩⟩
  · dsimp only
    exact .refl _
  · exact .run order unit ctor args
  · dsimp only
    exact .refl _

theorem constructWith_keeps {limit larger : Nat} (order : limit ≤ larger) (unit : UnitType)
    (name : String) (args : List Value) :
    Keeps limit (constructWith limit unit name args) (constructWith larger unit name args) := by
  unfold constructWith
  cases unit.image.constructor? name with
  | none => exact .refl _
  | some ctor =>
      refine .bind _ ?_
      intro admitted
      cases admitted with
      | false =>
          rw [if_neg Bool.false_ne_true, if_neg Bool.false_ne_true]
          exact .refl _
      | true =>
          rw [if_pos rfl, if_pos rfl]
          exact .run order unit ctor args

/-- What a limit does to the evaluation of a unit's constructors in a world. -/
structure OnlyCutsOff (limit : Nat) (unit : UnitType) (args : List Value) (world : World) :
    Prop where
  /-- The evaluation that keeps a record is the evaluation itself. -/
  recorded : ∀ ctor, Recorded.runAt limit 0 unit ctor args (world, []) =
    ((run limit unit ctor args world).1, (run limit unit ctor args world).2,
      activeDepths limit unit ctor args world)
  bounded : ∀ ctor, ∀ depth ∈ activeDepths limit unit ctor args world, depth ≤ limit
  /-- A larger limit makes a difference only if the limit was exceeded. -/
  run : ∀ ctor, ¬Exceeds limit (run limit unit ctor args world).1 → ∀ larger, limit ≤ larger →
    Evaluation.run larger unit ctor args world = run limit unit ctor args world
  construct : ¬Exceeds limit (construct limit unit args world).1 → ∀ larger, limit ≤ larger →
    Evaluation.construct larger unit args world = construct limit unit args world
  constructWith : ∀ name, ¬Exceeds limit (constructWith limit unit name args world).1 →
    ∀ larger, limit ≤ larger →
      Evaluation.constructWith larger unit name args world = constructWith limit unit name args world
  /-- It is exceeded where a larger limit lets a constructor be active beyond it. -/
  exceeded : ∀ ctor larger, limit ≤ larger →
    (∃ depth ∈ activeDepths larger unit ctor args world, limit < depth) →
      Exceeds limit (Evaluation.run limit unit ctor args world).1

/-- The limit on nested constructors only cuts off: no constructor is active beyond it, and what
does not end at it ends the same under every larger one. -/
theorem limit_only_cuts_off (limit : Nat) (unit : UnitType) (args : List Value) (world : World) :
    OnlyCutsOff limit unit args world where
  recorded ctor := (runAt_record limit unit ctor args world).1
  bounded ctor := (runAt_record limit unit ctor args world).2
  run ctor settled larger order := Keeps.run order unit ctor args world settled
  construct settled larger order := construct_keeps order unit args world settled
  constructWith name settled larger order :=
    constructWith_keeps order unit name args world settled
  exceeded ctor larger order beyond := by
    rcases activeDepths_split order unit ctor args world with ⟨within, -⟩ | ⟨-, exceeded⟩
    · obtain ⟨depth, member, deeper⟩ := beyond
      have shallow := within depth member
      omega
    · exact exceeded

/-- A unit with a constructor that calls another one, and one that calls itself. -/
def nested : UnitType where
  id := 0
  image := {
    name := "demo.A"
    source := ""
    fields := [{ name := "next", type := .unit "demo.A" }]
    constructors :=
      [{ name := "leaf", params := [], locals := 0, body := [], init := [.null] },
        { name := "one", params := [], locals := 0, body := [],
          init := [.construct "demo.A" "leaf" []] },
        { name := "loop", params := [], locals := 0, body := [],
          init := [.construct "demo.A" "loop" []] }] }
  origin := none
  resolver := 0

def nestedWorld : World where
  loaders := []
  nextUnit := 1
  nextInstance := 0

/-- One level is enough for the second constructor, whatever the limit is; no number of levels is
enough for the third. -/
theorem nested_cut_off :
    ¬Exceeds 1 (constructWith 1 nested "one" [] nestedWorld).1 ∧
      constructWith maxConstructDepth nested "one" [] nestedWorld =
        constructWith 1 nested "one" [] nestedWorld ∧
      Exceeds 2 (constructWith 2 nested "loop" [] nestedWorld).1 := by
  have settled : ¬Exceeds 1 (constructWith 1 nested "one" [] nestedWorld).1 := by
    rintro ⟨unit, constructor, exceeded⟩
    cases exceeded
  have kept := (limit_only_cuts_off 1 nested [] nestedWorld).constructWith "one" settled
  exact ⟨settled, kept maxConstructDepth (by decide), _, _, rfl⟩

end UnitForge.Evaluation
