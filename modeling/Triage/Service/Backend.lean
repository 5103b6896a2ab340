import Triage.Service.Failure
import Triage.Service.Request

/-!
# Backends

A backend answers requests one after the other. Whatever it remembers, or does to the world, is
its state.
-/

namespace Triage.Service

/-- An assessment, or why there is none. -/
abbrev Outcome := Except Failure Assessment

structure Backend (σ : Type) where
  name : String
  /-- The answer to a request and the state after it. No answer means that the program broke off
  before it had one. -/
  answer : Request → σ → Option Outcome × σ

namespace Backend

variable {σ : Type}

/-- The answers to requests in turn, and the state after them. -/
def answers (b : Backend σ) : List Request → σ → List (Option Outcome) × σ
  | [], s => ([], s)
  | r :: rs, s =>
    let (o, s) := b.answer r s
    let (os, s) := answers b rs s
    (o :: os, s)

end Backend

/-- What is known of a request that was answered. -/
structure Exchange where
  request : Request
  outcome : Option Outcome
deriving Inhabited

/-- A backend that also notes down every exchange. -/
def Backend.logging {σ : Type} (b : Backend σ) : Backend (σ × List Exchange) where
  name := "logging(" ++ b.name ++ ")"
  answer r s :=
    let (o, inner) := b.answer r s.1
    (o, inner, s.2 ++ [⟨r, o⟩])

/-- The state of a backend that plays back outcomes. -/
structure Playback where
  /-- Outcomes yet to be given. -/
  queue : List Outcome := []
  /-- Requests so far. -/
  requests : List Request := []
deriving Inhabited

namespace Playback

def ofOutcomes (os : List Outcome) : Playback := ⟨os, []⟩

def ofText (text : String) : Playback :=
  ofOutcomes [.ok (.trimmed text "mock-model" ⟨10, 20⟩)]

def ofFailure (f : Failure) : Playback := ofOutcomes [.error f]

/-- The outcome when none is left. -/
def exhausted : Outcome := .error (.backend "MockBackend: no more responses available")

def requestCount (p : Playback) : Nat := p.requests.length

/-- The next outcome, and the state after it. -/
def next (r : Request) (p : Playback) : Outcome × Playback :=
  (p.queue.head?.getD exhausted, ⟨p.queue.tail, p.requests ++ [r]⟩)

end Playback

/-- A backend that plays back outcomes in order and remembers the requests. -/
def Backend.mock : Backend Playback where
  name := "mock"
  answer r p :=
    let (o, p) := p.next r
    (some o, p)

end Triage.Service
