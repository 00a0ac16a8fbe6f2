import UnitForge.Files.Standard

/-! # Recorded file managers

A standard file manager that keeps a record of the calls on it, and of which single operations can
be told what to answer. With it one sees what a toolchain asks for, and what becomes of its
failures. -/
set_option autoImplicit false
namespace UnitForge

inductive FileCall where
  | handleOption (option : String) (values : List String)
  | list (location : Location) (package : String)
  | input (location : Location) (name : String)
  | output (location : Location) (name : String) (sibling : Option String)
  | flush
  | close
  deriving DecidableEq, Repr

inductive OptionAnswer where
  | accept
  | refuse
  | fail (message : String)
  deriving DecidableEq, Repr

structure FileScript where
  arities : List (String × Nat)
  options : List (String × OptionAnswer)
  listError : Option String
  inputError : Option String
  outputError : Option String
  writeError : Option String
  flushError : Option String
  closeError : Option String
  deriving DecidableEq, Repr

def FileScript.none : FileScript :=
  { arities := [], options := [], listError := .none, inputError := .none, outputError := .none,
    writeError := .none, flushError := .none, closeError := .none }

structure RecordedFiles where
  files : StandardFiles
  calls : List FileCall
  deriving Repr

namespace RecordedFiles

def ofTree (tree : FileTree) : RecordedFiles :=
  { files := .ofTree tree, calls := [] }

def record (call : FileCall) : FileOp RecordedFiles Unit :=
  modify fun recorded => { recorded with calls := recorded.calls ++ [call] }

def standard {α : Type} (op : FileOp StandardFiles α) : FileOp RecordedFiles α :=
  op.within files fun files recorded => { recorded with files }

def ask {α : Type} (query : FileQuery StandardFiles α) : FileQuery RecordedFiles α :=
  query.within files fun files recorded => { recorded with files }

def failIf (message : Option String) : FileOp RecordedFiles Unit :=
  match message with
  | some message => throw (.explained message)
  | none => pure ()

def sink (inner : Sink StandardFiles) : Sink RecordedFiles where
  write chunk := standard (inner.write chunk)
  flush := standard inner.flush

def manager (script : FileScript) : FileManager RecordedFiles where
  arityOf option :=
    match script.arities.lookup option with
    | some count => return some count
    | none => ask (StandardFiles.manager.arityOf option)
  handleOption option values := do
    record (.handleOption option values)
    match script.options.lookup option with
    | some .accept => return true
    | some .refuse => return false
    | some (.fail message) => throw (.explained message)
    | none => standard (StandardFiles.manager.handleOption option values)
  offers location := ask (StandardFiles.manager.offers location)
  list location package kinds recurse := do
    record (.list location package)
    failIf script.listError
    standard (StandardFiles.manager.list location package kinds recurse)
  nameOf location file := ask (StandardFiles.manager.nameOf location file)
  isSame a b := ask (StandardFiles.manager.isSame a b)
  input location name kind := do
    record (.input location name)
    failIf script.inputError
    standard (StandardFiles.manager.input location name kind)
  read file := standard (StandardFiles.manager.read file)
  output location name kind sibling := do
    record (.output location name (sibling.map SourceUnit.uri))
    failIf script.outputError
    match script.writeError with
    | some message => return { write := fun _ => throw (.explained message), flush := pure () }
    | none => sink <$> standard (StandardFiles.manager.output location name kind sibling)
  flush := do
    record .flush
    failIf script.flushError
  close := do
    record .close
    failIf script.closeError

end RecordedFiles

end UnitForge
