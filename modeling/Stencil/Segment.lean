import Stencil.Delimiters

/-! The spans of a template: text that is written as it stands, and code. -/
namespace Stencil

inductive Segment
  | text (content : Text)
  /-- Code whose value is written, under the marker that asks for it. -/
  | eval (marker : Char) (code : Text)
  | raw (code : Text)
  deriving DecidableEq

namespace Segment

/-- The span of the source that a segment stands for. -/
def sourceText (d : Delimiters) : Segment → Text
  | text content => content
  | eval marker code => d.start ++ marker :: code ++ d.stop
  | raw code => d.start ++ code ++ d.stop

/-- Reads code up to the first end delimiter, and the delimiter; none if there is no such
delimiter. -/
def readCode? (d : Delimiters) (make : Text → Segment) (s : Text) : Option (Segment × Text) :=
  let (code, rest) := s.breakAt d.stop
  (Text.dropPrefix? rest d.stop).map fun rest => (make code, rest)

/-- Reads the code region whose start delimiter stands before `s`. -/
def readRegion? (d : Delimiters) : Text → Option (Segment × Text)
  | [] => none
  | c :: s => if c ∈ d.markers then readCode? d (eval c) s else readCode? d raw (c :: s)

end Segment

end Stencil
