import Stencil.Proofs.Delimiters.Document
import Stencil.Template.Artifact

/-! The instructions of a template come back from its artifact. -/
namespace Stencil

open Json (Plain sorted)

theorem Instruction.plain_toJson {depth : Nat} (i : Instruction) : Plain (depth + 1) i.toJson := by
  cases i with
  | emitLiteral _ | emitEvaluated _ _ | splice _ =>
    apply Plain.object
    simp [Plain.string]

theorem Instruction.ofJson_sorted_toJson (i : Instruction) : ofJson (sorted i.toJson) = .ok i := by
  cases i with
  | emitLiteral bytes => rfl
  | emitEvaluated expr marker => rfl
  | splice code => rfl

theorem Instruction.listOfJson_sorted (instructions : List Instruction) :
    listOfJson (sorted (.array (instructions.map toJson))) = .ok instructions := by
  rw [sorted, Json.sortedItems_eq_map, listOfJson]
  induction instructions with
  | nil => rfl
  | cons i instructions ih =>
    rw [List.map_cons, List.map_cons, List.mapM_cons, ofJson_sorted_toJson, ih]
    rfl

theorem Delimiters.plain_toJson {depth : Nat} (d : Delimiters) : Plain (depth + 2) d.toJson :=
  plain_entries [.start d.start, .stop d.stop, .markers d.markers.toList] depth

namespace Template

/-- An artifact nests three containers at most. -/
theorem plain_toJson {depth : Nat} (t : Template) : Plain (depth + 3) t.toJson := by
  apply Plain.object
  intro m hm
  simp only [List.mem_cons, List.not_mem_nil, or_false] at hm
  rcases hm with rfl | rfl | rfl
  · exact Plain.string _
  · exact t.delimiters.plain_toJson
  · apply Plain.array
    intro x hx
    obtain ⟨i, -, rfl⟩ := List.mem_map.mp hx
    exact i.plain_toJson

theorem ofText_artifact (t : Template) : Json.ofText t.artifact = .ok (sorted t.toJson) :=
  Json.ofText_render Json.indented_blank (t.plain_toJson : Plain (124 + 3) t.toJson)

/-- The members that the reader of JSON finds in an artifact. -/
theorem artifact_members (t : Template) :
    ∃ members, Json.ofText t.artifact = .ok (.object members) ∧
      Json.member? "config" members = some (Json.sorted t.delimiters.toJson) ∧
      Json.member? "instructions" members =
        some (Json.sorted (.array (t.instructions.map Instruction.toJson))) := by
  refine ⟨_, t.ofText_artifact, ?_, ?_⟩
  · simp [Json.sortedMembers, Json.member?_insertMember]
  · simp [Json.sortedMembers, Json.member?_insertMember]

theorem load_artifact (t : Template) : loadInstructions t.artifact = .ok t.instructions := by
  obtain ⟨members, htext, -, hinstructions⟩ := t.artifact_members
  rw [loadInstructions, htext]
  simp only [hinstructions, Instruction.listOfJson_sorted]
  rfl

/-- The artifact gives the instructions back, and name and delimiters have no say in that. -/
theorem loadInstructions_artifact (t : Template) :
    loadInstructions t.artifact = .ok t.instructions ∧
      ∀ name d, loadInstructions (artifact { t with name := name, delimiters := d }) =
        loadInstructions t.artifact := by
  refine ⟨t.load_artifact, ?_⟩
  intro name d
  rw [load_artifact, load_artifact]

end Template

end Stencil
