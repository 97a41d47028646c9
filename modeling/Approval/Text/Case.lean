import Approval.Text.CaseTable

/-!
# Upper and lower case

Case mapping by the Unicode rules: character by character, a character may become several
(`ß` becomes `SS`), and a capital sigma at the end of a word becomes the final small sigma.
-/

namespace Approval.Text

/-- The image of a code point under a table of runs, if some run holds it. -/
def CaseRun.image (runs : List CaseRun) (code : Nat) : Option Nat :=
  runs.findSome? fun (first, last, step, shift) =>
    if first ≤ code ∧ code ≤ last ∧ (code - first) % step = 0 then
      some ((code : Int) + shift).toNat
    else none

/-- The upper case of one character. -/
def upperChar (c : Char) : List Char :=
  match upperExpansions.lookup c.toNat with
  | some codes => codes.map Char.ofNat
  | none => [((CaseRun.image upperRuns c.toNat).map Char.ofNat).getD c]

/-- The lower case of one character, outside the rule for the final sigma. -/
def lowerChar (c : Char) : List Char :=
  match lowerExpansions.lookup c.toNat with
  | some codes => codes.map Char.ofNat
  | none => [((CaseRun.image lowerRuns c.toNat).map Char.ofNat).getD c]

def upper (s : String) : String := String.ofList (s.toList.flatMap upperChar)

def isCased (c : Char) : Bool := upperChar c != [c] || lowerChar c != [c]

/-- The marks that the rule for the final sigma looks through. -/
def isCaseIgnorable (c : Char) : Bool :=
  ['\'', '.', ':', '^', '\u0060', '\u00A8', '\u00AD', '\u00AF', '\u00B4', '\u00B7', '\u2018', '\u2019'].contains c
    || (0x300 ≤ c.toNat && c.toNat ≤ 0x36F)

/-- The nearest character of the list that is not looked through has a case. -/
def leadsToCased (cs : List Char) : Bool := ((cs.dropWhile isCaseIgnorable).head?.map isCased).getD false

/-- Lower case of the second list, where the first one holds what stands before it, nearest first. -/
def lowerAfter (before : List Char) : List Char → List Char
  | [] => []
  | c :: rest =>
    let image :=
      if c = 'Σ' ∧ leadsToCased before ∧ ¬ leadsToCased rest then ['ς'] else lowerChar c
    image ++ lowerAfter (c :: before) rest

def lower (s : String) : String := String.ofList (lowerAfter [] s.toList)

end Approval.Text
