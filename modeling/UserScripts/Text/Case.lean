import UserScripts.Text.CaseTable

/-!
# Letter case

Lower-casing of a whole text and comparison of single letters without regard to case. The two differ: a text is lower-cased
with the context rule of the capital sigma and with the one letter that becomes two, while letters are compared one by one.
-/

namespace UserScripts.Text

/-- Whether a code point lies in one of the ranges. -/
def inRanges (ranges : List (Nat × Nat)) (n : Nat) : Bool :=
  ranges.any fun (lo, hi) => lo ≤ n && n ≤ hi

/-- Whether a run holds a code point. -/
def CaseRun.holds (r : CaseRun) (n : Nat) : Bool :=
  r.first ≤ n && n ≤ r.last && (n - r.first) % r.step == 0

/-- The lower case of a single letter; every other character is its own. -/
def lowerChar (c : Char) : Char :=
  let n := c.toNat
  if n < 0x80 then
    if 0x41 ≤ n && n ≤ 0x5A then Char.ofNat (n + 32) else c
  else match caseRuns.find? (·.holds n) with
    | some r => Char.ofNat ((n : Int) + r.shift).toNat
    | none => c

/-- The first character that is not looked through, if it carries case. -/
def meetsCased (s : List Char) : Bool :=
  match s.find? fun c => !inRanges caseIgnorableRanges c.toNat with
  | some c => inRanges casedRanges c.toNat
  | none => false

/-- The lower case of a character between the text before it, read backwards, and the text after it. A capital sigma that ends
a word takes its final form, and the capital dotted I keeps its dot as a character of its own. -/
def lowerAt (before : List Char) (c : Char) (after : List Char) : List Char :=
  if c = 'Σ' then [if meetsCased before && !meetsCased after then 'ς' else 'σ']
  else if c = '\u0130' then ['i', '\u0307']
  else [lowerChar c]

/-- The lower case of a text, given the text before it read backwards. -/
def lowerFrom (before : List Char) : List Char → List Char
  | [] => []
  | c :: rest => lowerAt before c rest ++ lowerFrom (c :: before) rest

/-- The lower case of a text. -/
def lower (s : String) : String :=
  String.ofList (lowerFrom [] s.toList)

/-- The representative of the letters that are equal to `c` but for case. -/
def foldChar (c : Char) : Char :=
  let l := lowerChar c
  if l.toNat < 0x80 then l
  else match sameLetterGroups.find? (·.contains l.toNat) with
    | some (n :: _) => Char.ofNat n
    | _ => l

/-- Whether two letters are equal but for case. -/
def sameLetter (a b : Char) : Bool :=
  foldChar a == foldChar b

end UserScripts.Text
