import Triage.Json.Printer
import Triage.Json.Reader
import Triage.Service.Backend
import Triage.Service.Codec
import Triage.Service.Retry
import Triage.Service.Status
import Triage.Text.Utf8

/-!
# The chat completions service

A request is sent as one message of a user, and the first choice of the answer is the assessment.
An answer that was delivered is final, whatever its status; only what was lost is sent again.
-/

namespace Triage.Service

open Json

/-- How the service is reached. -/
structure ServiceSettings where
  apiKey : String
  baseUrl : String := "https://api.openai.com"
  /-- The model for requests that name none. -/
  model : String := "gpt-4o"
  timeout : Duration := .ofSeconds 300
  maxRetries : UInt32 := 0
  /-- The first pause between tries. -/
  backoff : Duration := .ofMilliseconds 500
deriving DecidableEq, Repr, Inhabited

def apiKeyVariable : String := "OPENAI_API_KEY"

def ServiceSettings.ofEnvironment (value : Option String) : Except Failure ServiceSettings :=
  match value with
  | some key => .ok { apiKey := key }
  | none => .error (.config (apiKeyVariable ++ " environment variable not set"))

structure Post where
  url : String
  authorization : String
  contentType : String
  body : String
deriving DecidableEq, Repr, Inhabited

/-- What became of a request that was sent. -/
inductive Delivery where
  /-- No answer came. -/
  | lost
  /-- An answer with a status; its body may break off. -/
  | answered (status : Nat) (body : Option (List UInt8))
deriving DecidableEq, Repr, Inhabited

/-- How requests leave this machine. -/
structure Transport (σ : Type) where
  /-- Whether there can be such a request: its URL and its header are of use. -/
  builds : Post → Bool
  send : Post → σ → Delivery × σ

namespace Chat

/-- Where completions are asked for. -/
def completionsUrl (s : ServiceSettings) : String :=
  String.ofList (s.baseUrl.toList.reverse.dropWhile (· == '/')).reverse ++ "/v1/chat/completions"

def bearer (s : ServiceSettings) : String := "Bearer " ++ s.apiKey

def bodyValue (s : ServiceSettings) (r : Request) : Value :=
  .ofMembers ([("model", .text (r.model.getD s.model)),
      ("messages", .array [.ofMembers [("role", .text "user"), ("content", .text r.prompt)]])] ++
    memberIfSet "max_completion_tokens" ofHalfWord r.maxTokens ++
    memberIfSet "temperature" .ofSingle r.temperature)

def post (s : ServiceSettings) (r : Request) : Post :=
  ⟨completionsUrl s, bearer s, "application/json", (bodyValue s r).print .compact⟩

/-- The answer of the service. -/
structure Reply where
  /-- The texts of the choices; a refusal has none. -/
  choices : List (Option String)
  model : String
  usage : Option Usage
deriving DecidableEq, Repr, Inhabited

def messageContent? (v : Value) : Option (Option String) := do
  match ← v.slots? ["content"] with
  | [content] => content.optional? Value.string?
  | _ => none

def choice? (v : Value) : Option (Option String) := do
  match ← v.slots? ["message"] with
  | [message] => message.required? messageContent?
  | _ => none

def usage? (v : Value) : Option Usage := do
  match ← v.slots? ["prompt_tokens", "completion_tokens"] with
  | [prompt, completion] =>
    return ⟨← prompt.required? halfWord?, ← completion.required? halfWord?⟩
  | _ => none

def Reply.ofValue? (v : Value) : Option Reply := do
  match ← v.slots? ["choices", "model", "usage"] with
  | [choices, model, usage] =>
    return ⟨← choices.required? (Value.list? choice?), ← model.required? Value.string?,
      ← usage.defaulted? (Value.nullable? usage?) none⟩
  | _ => none

def Reply.ofText? (body : String) : Option Reply := do ofValue? (← read? body)

/-- The assessment of the first choice, unless it says nothing. -/
def Reply.assessment (r : Reply) : Outcome :=
  match Text.nonBlank? (r.choices.head?.join) with
  | some content => .ok (.trimmed content r.model (r.usage.getD {}))
  | none => .error (.emptyResponse "openai")

def errorMessage? (v : Value) : Option String := do
  match ← v.slots? ["error"] with
  | [e] =>
    e.required? fun body => do
      match ← body.slots? ["message"] with
      | [message] => message.required? Value.string?
      | _ => none
  | _ => none

/-- What an answer that is no success has to say. -/
def errorText (status : Nat) (body : String) : String :=
  ((read? body).bind errorMessage?).getD ("HTTP " ++ statusText status ++ ": " ++ body)

/-- The failure that a status stands for. -/
def statusFailure (status : Nat) (detail : String) : Failure :=
  if status = 401 then .auth detail
  else if status = 429 then .rateLimited detail
  else if 500 ≤ status ∧ status ≤ 599 then .server detail
  else .backend detail

/-- The text of a body, whatever bytes it has. -/
def bodyText (bytes : List UInt8) : String := String.ofList (Text.decodeLossy bytes)

/-- The outcome of a request that was sent. -/
def outcomeOf : Delivery → Outcome
  | .lost => .error (.network "error sending request")
  | .answered status body =>
    if isSuccess status then
      match body with
      | none => .error (.network "error decoding response body")
      | some bytes =>
        match Reply.ofText? (bodyText bytes) with
        | some reply => reply.assessment
        | none => .error (.serialization "the body is no completion")
    else .error (statusFailure status (errorText status (bodyText (body.getD []))))

variable {σ : Type}

/-- One try; a request that cannot be built is not sent. -/
def attempt (t : Transport σ) (p : Post) (s : σ) : Outcome × σ :=
  if t.builds p then
    let (d, s) := t.send p s
    (outcomeOf d, s)
  else (.error (.network "builder error"), s)

/-- All tries of a request. -/
def analyze (settings : ServiceSettings) (t : Transport σ) (r : Request) (s : σ) :
    Attempts σ Assessment :=
  retry (attempt t (post settings r)) settings.maxRetries.toNat settings.backoff s

/-- The service as a backend; it must have a key. -/
def backend (settings : ServiceSettings) (t : Transport σ) : Except Failure (Backend σ) :=
  if settings.apiKey.isEmpty then .error (.config "API key is empty")
  else
    .ok ⟨"openai", fun r s =>
      let a := analyze settings t r s
      (a.result, a.state)⟩

def noClient (reason : String) : Failure := .config ("Failed to create HTTP client: " ++ reason)

end Chat

end Triage.Service
