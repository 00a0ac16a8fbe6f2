import UnitForge.Files.Memory
import UnitForge.Files.Standard
import UnitForge.Proofs.Compiler.Elaborated
import UnitForge.Proofs.Compiler.Reports
import UnitForge.Proofs.Lowering.InRange
import UnitForge.Proofs.Source.Numerals

/-! # Numbers of a compilation

A compilation that succeeds has lowered every integer to its exact value. Its images have no number
that is not finite, but for integer literals with the suffix of a float: these are not checked, and
one that no finite number is nearest to becomes infinite. -/
set_option autoImplicit false
namespace UnitForge

open Source Step

variable {σ : Type} {manager : FileManager σ}

namespace UnitSig

variable {decls : Declarations} {sigs : List UnitSig} {owner : UnitSig} {refs : References}

end UnitSig

namespace UnitCompiler

variable {unit : SourceUnit} {images : List UnitImage} {last : Session σ}

def extremes : CompilationTask where
  options := []
  units := [{
    name := "demo.N"
    text := "struct N\x7bn:i64,x:f64\x7d impl N\x7bfn new()->N\x7b" ++
      "N\x7bn:-0x8000_0000_0000_0000,x:9f64\x7d\x7d\x7d" }]

end UnitCompiler

end UnitForge
