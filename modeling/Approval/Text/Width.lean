import Approval.Text.MarkTable

/-!
# Display width

How many columns a text takes in a grid of fixed width.
-/

namespace Approval.Text

/-- Columns of one character: none for a mark, two for a wide character, one otherwise. -/
def charWidth (c : Char) : Nat :=
  let code := c.toNat
  if code < 0x300 then 1
  else if inRuns markRuns code then 0
  else if (0x200B ≤ code ∧ code ≤ 0x200F) ∨ (0x2060 ≤ code ∧ code ≤ 0x2064) ∨ code = 0xFEFF then 0
  else if 0x1160 ≤ code ∧ code ≤ 0x11FF then 0
  else if inRuns wideRuns code then 2
  else 1

def width (s : String) : Nat := s.toList.foldl (fun columns c => columns + charWidth c) 0

end Approval.Text
