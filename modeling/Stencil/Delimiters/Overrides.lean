import Stencil.Delimiters

/-! Delimiters in layers: each override given replaces one member, and only the whole is checked. -/
namespace Stencil

structure Overrides where
  start : Option Text := none
  stop : Option Text := none
  /-- Every character is a marker. -/
  markers : Option Text := none
  deriving DecidableEq

namespace Delimiters

def override (d : Delimiters) (o : Overrides) : Delimiters where
  start := o.start.getD d.start
  stop := o.stop.getD d.stop
  markers := (o.markers.map Markers.ofList).getD d.markers

def resolve (d : Delimiters) (o : Overrides) : Except CompileError { d : Delimiters // d.Valid } :=
  (d.override o).validate

end Delimiters

end Stencil
