import Triage.Number.Single
import Triage.Text.Blank

/-!
# Requests and assessments

What is asked of the analysis service and what it answers, whichever service it is.
-/

namespace Triage.Service

open Number

/-- A single prompt, answered once. What is not set is up to the service. -/
structure Request where
  prompt : String
  model : Option String := none
  maxTokens : Option UInt32 := none
  temperature : Option Single := none
deriving DecidableEq, Repr, Inhabited

structure Usage where
  inputTokens : UInt32 := 0
  outputTokens : UInt32 := 0
deriving DecidableEq, Repr, Inhabited

/-- All tokens, unless they are too many for 32 bits. -/
def Usage.total? (u : Usage) : Option UInt32 :=
  if u.inputTokens.toNat + u.outputTokens.toNat < UInt32.size then
    some (u.inputTokens + u.outputTokens)
  else none

structure Assessment where
  text : String
  /-- The model that wrote the text. -/
  model : String
  usage : Usage := {}
deriving DecidableEq, Repr, Inhabited

/-- An assessment without white space around its text. -/
def Assessment.trimmed (text model : String) (usage : Usage) : Assessment :=
  ⟨Text.trim text, model, usage⟩

end Triage.Service
