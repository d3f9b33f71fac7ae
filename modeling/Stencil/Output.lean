import Stencil.Execution

/-! Output in memory, with the results of chosen markers escaped for HTML. -/
namespace Stencil

structure Output where
  /-- What has been written, the last piece first. -/
  pieces : List Text := []
  escaped : Markers := .empty

namespace Output

def text (o : Output) : Text := o.pieces.reverse.flatten

def escapeChar : Char → Text
  | '&' => "&amp;"
  | '<' => "&lt;"
  | '>' => "&gt;"
  | '"' => "&quot;"
  | '\'' => "&#39;"
  | c => [c]

def escapeHtml (s : Text) : Text := s.flatMap escapeChar

/-- Only the results of expressions are escaped, never static text. -/
def contribution (escaped : Markers) (content : Text) : Option Char → Text
  | some m => if m ∈ escaped then escapeHtml content else content
  | none => content

def write (o : Output) (content : Text) (marker : Option Char) : Output :=
  { o with pieces := contribution o.escaped content marker :: o.pieces }

def escaping (o : Output) (marker : Char) : Output := { o with escaped := o.escaped.insert marker }

/-- The sink that writes into an output; it never fails. -/
def sink {ε : Type} : Sink Output ε := ⟨fun content marker o => (.ok (), o.write content marker)⟩

end Output

end Stencil
