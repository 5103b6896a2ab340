/-!
# Bytes as text

Strict decoding refuses bytes that are no UTF-8. Lenient decoding puts U+FFFD in the place of each
longest run of bytes that begins a character and breaks off, or of a single byte that begins none.
-/

namespace Triage.Text

def replacement : Char := '\ufffd'

/-- How many bytes a character with the given first byte has; zero when none begins so. -/
def widthOf (b : Nat) : Nat :=
  if b < 0x80 then 1
  else if b < 0xc2 then 0
  else if b < 0xe0 then 2
  else if b < 0xf0 then 3
  else if b < 0xf5 then 4
  else 0

/-- The second bytes that may follow the given first byte. -/
def secondRange (b : Nat) : Nat × Nat :=
  if b = 0xe0 then (0xa0, 0xbf)
  else if b = 0xed then (0x80, 0x9f)
  else if b = 0xf0 then (0x90, 0xbf)
  else if b = 0xf4 then (0x80, 0x8f)
  else (0x80, 0xbf)

def isContinuation (b : Nat) : Bool := 0x80 ≤ b && b ≤ 0xbf

/-- The bytes at the front that go together: the first one, the second one if it may follow, and
continuation bytes up to the width. -/
def leadingRun (bs : List UInt8) : List UInt8 :=
  match bs with
  | [] => []
  | b :: rest =>
    let width := widthOf b.toNat
    if width ≤ 1 then [b]
    else
      let (low, high) := secondRange b.toNat
      match rest with
      | [] => [b]
      | c :: more =>
        if low ≤ c.toNat ∧ c.toNat ≤ high then
          b :: c :: (more.take (width - 2)).takeWhile (isContinuation ·.toNat)
        else [b]

/-- The character of a complete run. -/
def charOfRun? (run : List UInt8) : Option Char :=
  match run.map UInt8.toNat with
  | [a] => if a < 0x80 then some (Char.ofNat a) else none
  | [a, b] => if widthOf a = 2 then some (Char.ofNat ((a - 0xc0) * 64 + (b - 0x80))) else none
  | [a, b, c] =>
    if widthOf a = 3 then
      some (Char.ofNat ((a - 0xe0) * 4096 + (b - 0x80) * 64 + (c - 0x80)))
    else none
  | [a, b, c, d] =>
    if widthOf a = 4 then
      some (Char.ofNat
        ((a - 0xf0) * 262144 + (b - 0x80) * 4096 + (c - 0x80) * 64 + (d - 0x80)))
    else none
  | _ => none

theorem leadingRun_length_pos (b : UInt8) (bs : List UInt8) :
    0 < (leadingRun (b :: bs)).length := by
  unfold leadingRun
  dsimp only
  split
  · simp
  · split
    · simp
    · split <;> simp

/-- The text of the bytes, with replacement characters where they are no UTF-8. -/
def decodeLossy : List UInt8 → List Char
  | [] => []
  | b :: bs =>
    let run := leadingRun (b :: bs)
    (charOfRun? run).getD replacement :: decodeLossy ((b :: bs).drop run.length)
termination_by bs => bs.length
decreasing_by
  have := leadingRun_length_pos b bs
  simp only [List.length_drop, List.length_cons]
  omega

def decode? (bytes : ByteArray) : Option String := String.fromUTF8? bytes

end Triage.Text
