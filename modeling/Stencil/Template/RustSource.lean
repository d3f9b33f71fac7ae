import Stencil.Template
import Stencil.Text.Quoted

/-!
A compiled template as the source of a Rust function. Literals become byte strings in their encoded
form, evaluated expressions are formatted, and spliced code stands between the writes as it is.
-/
namespace Stencil.Template

def defaultContextType : Text := "Context"

/-- The markers as Rust shows a set of characters. -/
def markersText (m : Markers) : Text :=
  '{' :: List.intercalate ", ".toList (m.toList.map Text.quotedChar) ++ ['}']

def headerLine (d : Delimiters) : Text :=
  "// delimiters: " ++ Text.quoted d.start ++ " … " ++ Text.quoted d.stop ++ ", eval markers: " ++
    markersText d.markers

def lines (ls : List Text) : Text := ls.flatMap (· ++ ['\n'])

/-- All before the first instruction. The macro refuses literals that are not UTF-8 when the source
is compiled. -/
def preamble (name : Text) (d : Delimiters) (contextType : Text) : Text :=
  lines [
    "// Auto-generated by tmplc – DO NOT EDIT",
    headerLine d,
    "",
    "#[allow(unused_variables, unused_braces, clippy::all)]",
    "pub fn " ++ name ++ "<E>(",
    "    ctx: &" ++ contextType ++ ",",
    "    write: &mut dyn FnMut(&str, Option<char>) -> Result<(), E>,",
    ") -> Result<(), E> \x7b",
    "    macro_rules! __literal \x7b",
    "        ($bytes:literal) => \x7b\x7b",
    "            const S: &str = match ::core::str::from_utf8($bytes) \x7b",
    "                Ok(s) => s,",
    "                Err(_) => panic!(\"template literal is not valid UTF-8\"),",
    "            \x7d;",
    "            S",
    "        \x7d\x7d;",
    "    \x7d"]

/-- The lines of an instruction; code may bring line breaks of its own. -/
def block : Instruction → Text
  | .emitLiteral bytes => lines ["    write(__literal!(b\"" ++ bytes.encoded ++ "\"), None)?;"]
  | .emitEvaluated expr marker =>
    lines [
      "    write(&::std::format!(\"\x7b\x7d\", \x7b",
      expr,
      "    \x7d), Some('" ++ Text.charLiteralBody marker ++ "'))?;"]
  | .splice code => lines [code]

def closing : Text := lines ["    Ok(())", "\x7d"]

def rustSource (t : Template) (contextType : Text) : Text :=
  preamble t.name t.delimiters contextType ++ t.instructions.flatMap block ++ closing

end Stencil.Template
