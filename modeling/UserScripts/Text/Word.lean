import UserScripts.Text.Case
import UserScripts.Text.WordTable

/-!
# Word characters

Letters, numbers and the low line make words; a marker or a host name that is followed by one of them is a longer word.
-/

namespace UserScripts.Text

/-- Whether a character can stand inside a word. -/
def isWord (c : Char) : Bool :=
  let n := c.toNat
  if n < 0x80 then c.isAlphanum || c == '_' else inRanges alphanumericRanges n

/-- Whether a word that has just been read ends before the given text. -/
def wordEnds : List Char → Bool
  | [] => true
  | c :: _ => !isWord c

end UserScripts.Text
