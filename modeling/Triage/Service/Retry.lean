import Triage.Service.Failure

/-!
# Trying again

An action that fails for a passing reason is tried again after a pause, and each pause is twice as
long as the one before it.
-/

namespace Triage.Service

structure Duration where
  nanoseconds : Nat
deriving DecidableEq, Repr, Inhabited

namespace Duration

def ofSeconds (n : UInt64) : Duration := ⟨n.toNat * 1000000000⟩

def ofMilliseconds (n : UInt64) : Duration := ⟨n.toNat * 1000000⟩

def seconds (d : Duration) : Nat := d.nanoseconds / 1000000000

def milliseconds (d : Duration) : Nat := d.nanoseconds / 1000000

/-- The time that seconds of 64 bits do not reach. -/
def limit : Nat := UInt64.size * 1000000000

/-- Twice the time, as long as it is within reach. -/
def double? (d : Duration) : Option Duration :=
  if 2 * d.nanoseconds < limit then some ⟨2 * d.nanoseconds⟩ else none

end Duration

/-- What came of trying. -/
structure Attempts (σ α : Type) where
  /-- How often the action was tried. -/
  calls : Nat
  /-- The pauses between the tries. -/
  pauses : List Duration
  state : σ
  /-- The last result; none when the next pause was out of reach and everything stopped. -/
  result : Option (Except Failure α)

variable {σ α : Type}

def Attempts.after (a : Attempts σ α) (pause : Duration) : Attempts σ α :=
  { a with calls := a.calls + 1, pauses := pause :: a.pauses }

/-- Try, and try again up to `retries` times for as long as failures may pass. -/
def retry (act : σ → Except Failure α × σ) : Nat → Duration → σ → Attempts σ α
  | 0, _, s =>
    let (r, s) := act s
    ⟨1, [], s, some r⟩
  | retries + 1, pause, s =>
    match act s with
    | (.ok a, s) => ⟨1, [], s, some (.ok a)⟩
    | (.error f, s) =>
      if f.isTransient then
        match pause.double? with
        | some next => (retry act retries next s).after pause
        | none => ⟨1, [pause], s, none⟩
      else ⟨1, [], s, some (.error f)⟩

end Triage.Service
