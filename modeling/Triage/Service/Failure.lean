/-!
# Failures of the analysis service

A failure says why there is no assessment, in a text for people. Only trouble on the network is
worth another attempt.
-/

namespace Triage.Service

inductive Failure where
  /-- The credentials were refused. -/
  | auth (detail : String)
  /-- Requests came too fast. -/
  | rateLimited (detail : String)
  /-- The service broke down. -/
  | server (detail : String)
  /-- Any other answer that is no success. -/
  | backend (detail : String)
  /-- The request or its answer was lost. -/
  | network (detail : String)
  /-- The answer could not be read. -/
  | serialization (detail : String)
  /-- The answer has no text. -/
  | emptyResponse (detail : String)
  /-- The client is not set up. -/
  | config (detail : String)
deriving DecidableEq, Repr, Inhabited

namespace Failure

def message : Failure → String
  | auth d => "Authentication failed: " ++ d
  | rateLimited d => "Rate limit exceeded: " ++ d
  | server d => "Server error: " ++ d
  | backend d => "Backend error: " ++ d
  | network d => "Network error: " ++ d
  | serialization d => "Serialization error: " ++ d
  | emptyResponse d => "Empty response from " ++ d
  | config d => "Configuration error: " ++ d

/-- Whether another attempt may go better. -/
def isTransient : Failure → Bool
  | network _ => true
  | _ => false

end Failure

end Triage.Service
