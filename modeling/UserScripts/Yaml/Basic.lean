/-!
# YAML texts

What all parts of the reading of YAML share: why a text is refused, and the classes of characters. Line breaks of every
spelling are made one before anything else is read; the two separators of Unicode stay what they are.
-/

namespace UserScripts.Yaml

/-- Why a text is not read. -/
inductive Malformed where
  /-- A character that no text may hold. -/
  | character
  /-- A token does not have the form it should have, or stands where no token of its kind may start. -/
  | token
  /-- The tokens do not fit together. -/
  | layout
  /-- An alias stands for nothing, or an anchor is set twice. -/
  | reference
  /-- There is a second document. -/
  | documents
  /-- A value does not have the form that its tag asks for, or there is no such tag. -/
  | kind
  /-- There is no such number, or no such moment. -/
  | number
  /-- There is no such truth value. -/
  | truth
  /-- A number has no digits at all. -/
  | nothing
  /-- A moment does not have the form of one. -/
  | moment
  /-- Lists and maps are nested deeper than is accepted. -/
  | depth
deriving DecidableEq, Repr

/-- The text with every line break written as a line feed, the separators U+2028 and U+2029 aside. -/
def unifyBreaks : List Char → List Char
  | [] => []
  | '\r' :: '\n' :: s => '\n' :: unifyBreaks s
  | c :: s => (if c = '\r' || c = '\u0085' then '\n' else c) :: unifyBreaks s

/-- Whether a text may hold a character: control characters other than tabs and line breaks are left out, and so are the last
two code points of the first plane. -/
def isPrintable (c : Char) : Bool :=
  let n := c.toNat
  n == 9 || n == 10 || n == 13 || (0x20 ≤ n && n ≤ 0x7E) || n == 0x85 || (0xA0 ≤ n && n ≤ 0xFFFD) || 0x10000 ≤ n

/-- Whether a character separates words on a line. -/
def isSpace (c : Char) : Bool :=
  c == ' ' || c == '\t'

/-- Whether a character ends a line. -/
def isBreak (c : Char) : Bool :=
  c == '\n' || c == '\u2028' || c == '\u2029'

/-- Whether the line ends here or a space comes. A tab does not count. -/
def spaceOrEnd : List Char → Bool
  | [] => true
  | c :: _ => c == ' ' || isBreak c

/-- Whether the line ends here or a space or a tab comes. -/
def gapHere : List Char → Bool
  | [] => true
  | c :: _ => isSpace c || isBreak c

/-- Whether a line that starts here separates documents. -/
def separatorHere (s : List Char) : Bool :=
  ((s.take 3 == ['-', '-', '-']) || (s.take 3 == ['.', '.', '.'])) && gapHere (s.drop 3)

/-- Whether a character belongs to the name of an anchor or of a directive. -/
def isNameChar (c : Char) : Bool :=
  c.isAlphanum || c == '-' || c == '_'

/-- Whether a character opens, closes or divides a flow collection. -/
def isFlowMark (c : Char) : Bool :=
  c == ',' || c == '[' || c == ']' || c == '\x7b' || c == '\x7d'

/-- What follows the spaces. -/
def dropSpaces (s : List Char) : List Char :=
  s.dropWhile (· == ' ')

/-- What follows on the next lines, or here if a comment does not start here. -/
def dropComment (s : List Char) : List Char :=
  match s with
  | '#' :: _ => s.dropWhile fun c => !isBreak c
  | _ => s

/-- What follows the end of a line on which only a comment may be left. -/
def restOfLine (s : List Char) : Except Malformed (List Char) :=
  match dropComment (dropSpaces s) with
  | [] => .ok []
  | c :: s => if isBreak c then .ok s else .error .token

end UserScripts.Yaml
