import Stencil.Instruction

/-! Compiled templates. -/
namespace Stencil

structure Template where
  name : Text
  delimiters : Delimiters
  instructions : List Instruction
  deriving DecidableEq

namespace Template

def ofSource (name : Text) (d : Delimiters) (source : Text) : Except CompileError Template :=
  (compile d source).map fun instructions => ⟨name, d, instructions⟩

end Template

end Stencil
