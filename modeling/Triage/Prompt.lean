/-!
# The prompt

What the service is asked: an instruction, and the text of a report.
-/

namespace Triage

/-- The instruction in front of every report. -/
def instruction : String :=
  "As a security expert, find vulnerabilities in the following report:\n"

def promptOf (reportText : String) : String := instruction ++ reportText

end Triage
