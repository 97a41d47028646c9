/-!
# UTF-8

Bytes are cut into the characters that they spell. Where they spell none, a run of bytes is cut off that
is as long as it could still begin one.
-/

namespace Approval.Text.Utf8

/-- Read the last `n` bytes of a character of which the bytes before say `code`; the next byte lies from
`low` to `high`. A byte that does not belong stays. -/
def finish (code low high : Nat) : Nat → List UInt8 → Option Char × List UInt8
  | 0, bs => (some (Char.ofNat code), bs)
  | _ + 1, [] => (none, [])
  | n + 1, b :: bs =>
    if low ≤ b.toNat ∧ b.toNat ≤ high then finish (64 * code + (b.toNat - 0x80)) 0x80 0xBF n bs
    else (none, b :: bs)

/-- What the first byte of a character says: the first bits of its code, the range of the second byte, and
how many bytes follow. -/
structure Lead where
  code : Nat
  low : Nat := 0x80
  high : Nat := 0xBF
  tails : Nat

/-- What a byte says as the first one of a character. -/
def lead? (b : Nat) : Option Lead :=
  if b ≤ 0x7F then some { code := b, tails := 0 }
  else if 0xC2 ≤ b ∧ b ≤ 0xDF then some { code := b - 0xC0, tails := 1 }
  else if b = 0xE0 then some { code := 0, low := 0xA0, tails := 2 }
  else if b = 0xED then some { code := 0xD, high := 0x9F, tails := 2 }
  else if 0xE1 ≤ b ∧ b ≤ 0xEF then some { code := b - 0xE0, tails := 2 }
  else if b = 0xF0 then some { code := 0, low := 0x90, tails := 3 }
  else if 0xF1 ≤ b ∧ b ≤ 0xF3 then some { code := b - 0xF0, tails := 3 }
  else if b = 0xF4 then some { code := 4, high := 0x8F, tails := 3 }
  else none

/-- Read a character whose first byte is `b`. -/
def next (b : UInt8) (bs : List UInt8) : Option Char × List UInt8 :=
  match lead? b.toNat with
  | some l => finish l.code l.low l.high l.tails bs
  | none => (none, bs)

theorem finish_length_le (code low high n : Nat) (bs : List UInt8) :
    (finish code low high n bs).2.length ≤ bs.length := by
  induction n generalizing code low high bs with
  | zero => simp [finish]
  | succ n ih =>
    cases bs with
    | nil => simp [finish]
    | cons b bs =>
      simp only [finish]
      split
      · exact Nat.le_succ_of_le (ih _ _ _ bs)
      · exact Nat.le_refl _

theorem next_length_le (b : UInt8) (bs : List UInt8) : (next b bs).2.length ≤ bs.length := by
  unfold next
  split
  · exact finish_length_le ..
  · exact Nat.le_refl _

/-- The characters that bytes spell, with none where they spell no character. -/
def scan : List UInt8 → List (Option Char)
  | [] => []
  | b :: bs =>
    let r := next b bs
    r.1 :: scan r.2
termination_by bs => bs.length
decreasing_by exact Nat.lt_succ_of_le (next_length_le b bs)

/-- The text that bytes spell, if they spell characters everywhere. -/
def decode? (bs : List UInt8) : Option String := ((scan bs).mapM id).map String.ofList

/-- The text that bytes spell, with a replacement character where they spell none. -/
def decodeLossily (bs : List UInt8) : String :=
  String.ofList ((scan bs).map fun c => c.getD '\uFFFD')

end Approval.Text.Utf8
