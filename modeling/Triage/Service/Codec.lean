import Triage.Json.Decode
import Triage.Service.Request

/-!
# Requests and assessments as JSON

What a request does not set is not written, and may be missing or null where it is read. An
assessment without usage has none.
-/

namespace Triage.Service

open Json

def halfWord? (v : Value) : Option UInt32 := (v.natUpTo? maxHalfWord).map UInt32.ofNat

def ofHalfWord (n : UInt32) : Value := .nat n.toNat

/-- A member that is written only when it is set. -/
def memberIfSet {α : Type} (name : String) (write : α → Value) (x : Option α) :
    List (String × Value) :=
  match x with
  | some a => [(name, write a)]
  | none => []

namespace Request

def toValue (r : Request) : Value :=
  .ofMembers (("prompt", .text r.prompt) :: memberIfSet "model" .text r.model ++
    memberIfSet "max_tokens" ofHalfWord r.maxTokens ++
    memberIfSet "temperature" .ofSingle r.temperature)

def ofValue? (v : Value) : Option Request := do
  match ← v.slots? ["prompt", "model", "max_tokens", "temperature"] with
  | [prompt, model, maxTokens, temperature] =>
    return ⟨← prompt.required? Value.string?, ← model.optional? Value.string?,
      ← maxTokens.optional? halfWord?, ← temperature.optional? Value.single?⟩
  | _ => none

end Request

namespace Usage

def toValue (u : Usage) : Value :=
  .ofMembers [("input_tokens", ofHalfWord u.inputTokens),
    ("output_tokens", ofHalfWord u.outputTokens)]

def ofValue? (v : Value) : Option Usage := do
  match ← v.slots? ["input_tokens", "output_tokens"] with
  | [input, output] => return ⟨← input.required? halfWord?, ← output.required? halfWord?⟩
  | _ => none

end Usage

namespace Assessment

def toValue (a : Assessment) : Value :=
  .ofMembers [("text", .text a.text), ("model", .text a.model), ("usage", a.usage.toValue)]

def ofValue? (v : Value) : Option Assessment := do
  match ← v.slots? ["text", "model", "usage"] with
  | [text, model, usage] =>
    return ⟨← text.required? Value.string?, ← model.required? Value.string?,
      ← usage.defaulted? Usage.ofValue? {}⟩
  | _ => none

end Assessment

end Triage.Service
