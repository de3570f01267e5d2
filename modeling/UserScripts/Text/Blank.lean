/-!
# Blank characters

Which characters count as blank, and the texts without the blanks around them. The same class serves the statement grammar,
the markers of a wrapper, host names and the names of locks.
-/

namespace UserScripts.Text

/-- The blank characters: the white space of Unicode together with the four separators U+001C to U+001F. The zero-width
characters U+200B and U+FEFF are not among them. -/
def isBlank (c : Char) : Bool :=
  let n := c.toNat
  (9 ≤ n && n ≤ 13) || (28 ≤ n && n ≤ 32) || n == 0x85 || n == 0xA0 || n == 0x1680 || (0x2000 ≤ n && n ≤ 0x200A) ||
    n == 0x2028 || n == 0x2029 || n == 0x202F || n == 0x205F || n == 0x3000

/-- What follows the leading blanks. -/
def dropBlank (s : List Char) : List Char :=
  s.dropWhile isBlank

/-- The leading blanks. -/
def takeBlank (s : List Char) : List Char :=
  s.takeWhile isBlank

/-- What precedes the trailing blanks. -/
def dropEndBlank (s : List Char) : List Char :=
  (s.reverse.dropWhile isBlank).reverse

/-- A text without the blanks around it. -/
def trim (s : String) : String :=
  String.ofList (dropEndBlank (dropBlank s.toList))

/-- Whether a text is empty or holds blanks only. -/
def isBlankLine (s : String) : Bool :=
  s.toList.all isBlank

/-- The characters of white space proper: the blank characters without the separators U+001C to U+001F. -/
def isWhite (c : Char) : Bool :=
  isBlank c && !(28 ≤ c.toNat && c.toNat ≤ 31)

/-- What lies between the white space on both sides. -/
def trimWhite (s : List Char) : List Char :=
  ((s.dropWhile isWhite).reverse.dropWhile isWhite).reverse

/-- A text without any of its blanks. -/
def removeBlank (s : String) : String :=
  String.ofList (s.toList.filter fun c => !isBlank c)

/-- A text that is neither missing nor empty. -/
def given (s : Option String) : Option String :=
  s.filter (· != "")

theorem takeBlank_append_dropBlank (s : List Char) : takeBlank s ++ dropBlank s = s :=
  List.takeWhile_append_dropWhile

end UserScripts.Text
