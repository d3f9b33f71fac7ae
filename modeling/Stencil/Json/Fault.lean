import Stencil.Json.Mismatch

/-! Why the reading of a JSON document stopped, and where. -/
namespace Stencil.Json

inductive Problem
  | endInValue
  | endInObject
  | endInList
  | endInString
  | expectedValue
  | expectedIdent
  | expectedColon
  | expectedCommaOrBrace
  | expectedCommaOrBracket
  | keyNotString
  | trailingComma
  | trailingCharacters
  | invalidNumber
  | numberOutOfRange
  | invalidEscape
  | unfinishedSurrogatePair
  | loneSurrogate
  | controlCharacter
  | tooDeep
  | mismatch (m : Mismatch)
  deriving DecidableEq

def Problem.message : Problem → Text
  | endInValue => "EOF while parsing a value"
  | endInObject => "EOF while parsing an object"
  | endInList => "EOF while parsing a list"
  | endInString => "EOF while parsing a string"
  | expectedValue => "expected value"
  | expectedIdent => "expected ident"
  | expectedColon => "expected `:`"
  | expectedCommaOrBrace => "expected `,` or `\x7d`"
  | expectedCommaOrBracket => "expected `,` or `]`"
  | keyNotString => "key must be a string"
  | trailingComma => "trailing comma"
  | trailingCharacters => "trailing characters"
  | invalidNumber => "invalid number"
  | numberOutOfRange => "number out of range"
  | invalidEscape => "invalid escape"
  | unfinishedSurrogatePair => "unexpected end of hex escape"
  | loneSurrogate => "lone leading surrogate in hex escape"
  | controlCharacter => "control character (\\u0000-\\u001F) found while parsing a string"
  | tooDeep => "recursion limit exceeded"
  | mismatch m => m.message

/-- A problem, and how many bytes of the document had not been looked at when it showed. -/
structure Fault where
  problem : Problem
  unread : Nat
  deriving DecidableEq

/-- The problem shows before anything of `s` is looked at. -/
def Fault.before (p : Problem) (s : Text) : Fault := ⟨p, s.byteSize⟩

/-- The problem is the first byte of `s`, or that nothing is left. -/
def Fault.at (p : Problem) (s : Text) : Fault := ⟨p, s.byteSize - 1⟩

/-- Lines are counted from one; the column is the number of bytes read of the line. -/
structure Position where
  line : Nat
  column : Nat
  deriving DecidableEq

/-- The position after `n` more bytes of `s`. -/
def Position.advance (p : Position) (n : Nat) : Text → Position
  | [] => p
  | c :: s =>
    if n < c.utf8Size then { p with column := p.column + n }
    else if c = '\n' then Position.advance ⟨p.line + 1, 0⟩ (n - 1) s
    else Position.advance { p with column := p.column + c.utf8Size } (n - c.utf8Size) s

def Fault.position (document : Text) (f : Fault) : Position :=
  Position.advance ⟨1, 0⟩ (document.byteSize - f.unread) document

def Fault.message (document : Text) (f : Fault) : Text :=
  let p := f.position document
  f.problem.message ++ " at line " ++ Text.ofNat p.line ++ " column " ++ Text.ofNat p.column

end Stencil.Json
