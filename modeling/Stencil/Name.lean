import Stencil.Text

/-! Names of templates: identifiers of the language of the generated code, in ASCII. -/
namespace Stencil.Name

/-- The words that are not names: keywords in use and reserved ones. -/
def keywords : List Text := List.map String.toList [
  "abstract", "as", "async", "await", "become", "box", "break", "const", "continue", "crate",
  "do", "dyn", "else", "enum", "extern", "false", "final", "fn", "for", "gen", "if", "impl",
  "in", "let", "loop", "macro", "match", "mod", "move", "mut", "override", "priv", "pub",
  "ref", "return", "self", "Self", "static", "struct", "super", "trait", "true", "try",
  "type", "typeof", "unsafe", "unsized", "use", "virtual", "where", "while", "yield"]

def isKeyword (s : Text) : Bool := keywords.contains s

/-- ASCII letters, digits and the underscore. -/
def isNameChar (c : Char) : Bool := c.isAlphanum || c = '_'

def isFirstChar (c : Char) : Bool := c.isAlpha || c = '_'

/-- An identifier that is neither a keyword nor the underscore alone. -/
def isName (s : Text) : Bool :=
  match s with
  | [] => false
  | c :: r => isFirstChar c && s != ['_'] && !isKeyword s && r.all isNameChar

/-- Every other character becomes an underscore. -/
def plain (stem : Text) : Text := stem.map fun c => if isNameChar c then c else '_'

/-- A leading underscore where the text could not begin a name. -/
def guardFirst (s : Text) : Text :=
  match s with
  | [] => ['_']
  | c :: _ => if c.isDigit then '_' :: s else s

/-- A trailing underscore where the text is a keyword. -/
def guardKeyword (s : Text) : Text := if isKeyword s then s ++ ['_'] else s

/-- The name that a file stem suggests. -/
def ofStem (stem : Text) : Text := guardKeyword (guardFirst (plain stem))

end Stencil.Name
