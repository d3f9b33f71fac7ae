import Stencil.Instruction
import Stencil.Json.Mismatch

/-! Instructions as JSON: objects, or lists, that start with the name of the operation. -/
namespace Stencil.Instruction

open Json (Mismatch)

inductive Operation
  | emitLiteral
  | emitEvaluated
  | splice
  deriving DecidableEq

namespace Operation

def name : Operation → Text
  | emitLiteral => "emit_literal"
  | emitEvaluated => "emit_evaluated"
  | splice => "splice"

def all : List Operation := [emitLiteral, emitEvaluated, splice]

def ofJson : Json → Except Mismatch Operation
  | .string s =>
    match all.find? (·.name = s) with
    | some op => .ok op
    | none => .error (.unknownVariant s (all.map name))
  | v => .error (.invalidType v.found "variant identifier")

/-- The form of an instruction in lists. -/
def form : Operation → Text
  | emitLiteral => "struct variant Instruction::EmitLiteral with 1 element"
  | emitEvaluated => "struct variant Instruction::EmitEvaluated with 2 elements"
  | splice => "struct variant Instruction::Splice with 1 element"

end Operation

def toJson : Instruction → Json
  | emitLiteral bytes =>
    .object [("op", .string Operation.emitLiteral.name), ("bytes", .string bytes.encoded)]
  | emitEvaluated expr marker =>
    .object [("op", .string Operation.emitEvaluated.name), ("expr", .string expr),
      ("marker", .string [marker])]
  | splice code => .object [("op", .string Operation.splice.name), ("code", .string code)]

variable {α : Type}

/-- A member of the right type, if there is one of the name. -/
def field? (read : Json → Except Mismatch α) (name : Text) (members : List (Text × Json)) :
    Except Mismatch (Option α) :=
  match Json.member? name members with
  | none => .ok none
  | some v => (read v).map some

def require (name : Text) : Option α → Except Mismatch α
  | some v => .ok v
  | none => .error (.missingField name)

/-- Members of a wrong type are found before missing ones. -/
def ofMembers (members : List (Text × Json)) : Operation → Except Mismatch Instruction
  | .emitLiteral => do
    let bytes ← field? Json.asText "bytes" members
    return emitLiteral ⟨← require "bytes" bytes⟩
  | .emitEvaluated => do
    let expr ← field? Json.asText "expr" members
    let marker ← field? Json.asChar "marker" members
    return emitEvaluated (← require "expr" expr) (← require "marker" marker)
  | .splice => do
    let code ← field? Json.asText "code" members
    return splice (← require "code" code)

def ofItems : Operation → List Json → Except Mismatch Instruction
  | .emitLiteral, [bytes] => do return emitLiteral ⟨← bytes.asText⟩
  | .emitEvaluated, [expr, marker] => do return emitEvaluated (← expr.asText) (← marker.asChar)
  | .splice, [code] => do return splice (← code.asText)
  | op, [] => .error (.invalidLength 0 op.form)
  | .emitEvaluated, [expr] => do
    let _ ← expr.asText
    throw (.invalidLength 1 Operation.emitEvaluated.form)
  | .emitEvaluated, expr :: marker :: more => do
    let _ ← expr.asText
    let _ ← marker.asChar
    throw (.invalidLength (more.length + 2) "2 elements in sequence")
  | _, v :: more => do
    let _ ← v.asText
    throw (.invalidLength (more.length + 1) "1 element in sequence")

def ofJson : Json → Except Mismatch Instruction
  | .object members =>
    match Json.member? "op" members with
    | none => .error (.missingField "op")
    | some op => do ofMembers members (← Operation.ofJson op)
  | .array [] => .error (.missingField "op")
  | .array (op :: items) => do ofItems (← Operation.ofJson op) items
  | v => .error (.invalidType v.found "internally tagged enum Instruction")

def listOfJson : Json → Except Mismatch (List Instruction)
  | .array items => items.mapM ofJson
  | v => .error (.invalidType v.found "a sequence")

end Stencil.Instruction
