import UnitForge.Artifact
import UnitForge.Binary64.Basic
import UnitForge.Binary64.Text
import UnitForge.ClassPath
import UnitForge.Compilation.Attempt
import UnitForge.Compilation.Prepared
import UnitForge.Compilation.Toolchain
import UnitForge.Config
import UnitForge.Diagnostic
import UnitForge.Dialect.Compiler
import UnitForge.Dialect.Declarations
import UnitForge.Dialect.Lowering
import UnitForge.Dialect.Problem
import UnitForge.Dialect.Session
import UnitForge.Dialect.Signature
import UnitForge.Error
import UnitForge.Evaluation.Construct
import UnitForge.Evaluation.Operators
import UnitForge.Files.Manager
import UnitForge.Files.Memory
import UnitForge.Files.Path
import UnitForge.Files.Recorded
import UnitForge.Files.Standard
import UnitForge.Files.Tree
import UnitForge.Holdings
import UnitForge.Image
import UnitForge.Image.Codec
import UnitForge.Image.Fault
import UnitForge.Loading.World
import UnitForge.Name
import UnitForge.Source.Grammar.Cursor
import UnitForge.Source.Grammar.Expressions
import UnitForge.Source.Grammar.Items
import UnitForge.Source.Grammar.Patterns
import UnitForge.Source.Grammar.Types
import UnitForge.Source.Numeral
import UnitForge.Source.Quotation
import UnitForge.Source.Scan
import UnitForge.Source.Token
import UnitForge.Source.Tree
import UnitForge.Text.CharRange
import UnitForge.Text.Hexadecimal
import UnitForge.Text.Identifier
import UnitForge.Text.Printable
import UnitForge.Text.Quoted
import UnitForge.Text.Split
import UnitForge.Text.Utf8
import UnitForge.Value
import UnitForge.Workspace
import UnitForge.Proofs.Evaluation.Identity
import UnitForge.Proofs.Evaluation.Independence
import UnitForge.Proofs.Evaluation.Unmixed
import UnitForge.Proofs.Facade
import UnitForge.Proofs.Compiler.Warnings
import UnitForge.Proofs.Evaluation.Arithmetic
import UnitForge.Proofs.Files.Artifacts
import UnitForge.Proofs.Files.Discovery
import UnitForge.Proofs.Lowering.Tracing
import UnitForge.Proofs.Files.Forwarding
import UnitForge.Proofs.Image.Framing
import UnitForge.Proofs.Loading.Definitions
import UnitForge.Proofs.Loading.Failure
import UnitForge.Proofs.Meaning.Preservation
import UnitForge.Proofs.Dialect.Agreement
import UnitForge.Proofs.Lowering.Agreement
import UnitForge.Proofs.Dialect.Policy
import UnitForge.Proofs.Files.Untouched
import UnitForge.Proofs.Files.Containment
import UnitForge.Proofs.Compiler.Ambiguity
import UnitForge.Proofs.Compiler.Persistence
import UnitForge.Proofs.Compiler.Recorded
import UnitForge.Proofs.Compiler.Reordering
import UnitForge.Proofs.Compiler.Spelling
import UnitForge.Proofs.Lowering.Bodies
import UnitForge.Proofs.Lowering.Unused
import UnitForge.Proofs.Dialect.Repetition
import UnitForge.Proofs.Lowering.Unlimited
import UnitForge.Proofs.Compiler.Nesting
import UnitForge.Proofs.Compiler.Remerging
import UnitForge.Proofs.Evaluation.CutOff
import UnitForge.Proofs.Compiler.Numbers
import UnitForge.Proofs.Evaluation.Naming
import UnitForge.Proofs.Compiler.Consultations
