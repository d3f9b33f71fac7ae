import Stencil.Delimiters

/-! Delimiters that are allowed and still scan in a surprising way. -/
namespace Stencil

inductive Ambiguity
  | sameDelimiters (delimiter : Text)
  | overlappingDelimiters (start stop : Text)
  | markerStartsStop (marker : Char) (stop : Text)
  deriving DecidableEq

namespace Ambiguity

def message : Ambiguity → Text
  | sameDelimiters d => "start and end delimiter are both `" ++ d ++ "`"
  | overlappingDelimiters start stop =>
    "`" ++ start ++ "` and `" ++ stop ++ "` are prefixes of one another; the first match wins"
  | markerStartsStop m stop =>
    "eval marker `" ++ m :: "` also starts the end delimiter `" ++ stop ++ "`"

end Ambiguity

namespace Delimiters

def sharedBeginning? (d : Delimiters) : Option Ambiguity :=
  if d.start = d.stop then some (.sameDelimiters d.start)
  else if d.start.isPrefixOf d.stop || d.stop.isPrefixOf d.start then
    some (.overlappingDelimiters d.start d.stop)
  else none

def markerClash? (d : Delimiters) : Option Ambiguity :=
  match d.stop with
  | [] => none
  | c :: _ => if c ∈ d.markers then some (.markerStartsStop c d.stop) else none

def ambiguities (d : Delimiters) : List Ambiguity :=
  d.sharedBeginning?.toList ++ d.markerClash?.toList

end Delimiters

end Stencil
