import Stencil.Delimiters.Document
import Stencil.Instruction.Document
import Stencil.Json.Printer
import Stencil.Template

/-! Compiled templates as JSON documents, from which their instructions can be loaded again. -/
namespace Stencil.Template

open Json (Fault Mismatch)

def toJson (t : Template) : Json :=
  .object [("name", .string t.name), ("config", t.delimiters.toJson),
    ("instructions", .array (t.instructions.map Instruction.toJson))]

/-- The document of a template, which ends without a line break. -/
def artifact (t : Template) : Text := t.toJson.render Json.indented 0

inductive LoadError
  | fault (document : Text) (f : Fault)
  | noInstructions
  | mismatch (m : Mismatch)

def LoadError.message : LoadError → Text
  | fault document f => f.message document
  | noInstructions => "artifact has no `instructions` array"
  | mismatch m => m.message

def loadInstructions (document : Text) : Except LoadError (List Instruction) :=
  match Json.ofText document with
  | .error f => .error (.fault document f)
  | .ok (.object members) =>
    match Json.member? "instructions" members with
    | none => .error .noInstructions
    | some v => (Instruction.listOfJson v).mapError .mismatch
  | .ok _ => .error .noInstructions

end Stencil.Template
