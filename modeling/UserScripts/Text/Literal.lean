/-!
# Escapes

The texts that stand inside other texts: the contents of a single-quoted script literal, of a script comment, and of a pattern
in which most punctuation has a meaning of its own.
-/

namespace UserScripts.Text

/-- How a character is written inside a single-quoted literal: backslash, quote and the four line breaks are escaped. -/
def literalChar : Char → List Char
  | '\\' => ['\\', '\\']
  | '\'' => ['\\', '\'']
  | '\r' => ['\\', 'r']
  | '\n' => ['\\', 'n']
  | '\u2028' => ['\\', 'u', '2', '0', '2', '8']
  | '\u2029' => ['\\', 'u', '2', '0', '2', '9']
  | c => [c]

/-- The contents of the single-quoted literal for a text. -/
def toLiteral (s : List Char) : List Char :=
  s.flatMap literalChar

/-- The text that the contents of a literal stand for. Only the escapes of quotes, backslash and line breaks are undone; any
other backslash stays where it is. -/
def ofLiteral : List Char → List Char
  | [] => []
  | '\\' :: 'u' :: '2' :: '0' :: '2' :: '8' :: s => '\u2028' :: ofLiteral s
  | '\\' :: 'u' :: '2' :: '0' :: '2' :: '9' :: s => '\u2029' :: ofLiteral s
  | '\\' :: '"' :: s => '"' :: ofLiteral s
  | '\\' :: '\'' :: s => '\'' :: ofLiteral s
  | '\\' :: '\\' :: s => '\\' :: ofLiteral s
  | '\\' :: 'n' :: s => '\n' :: ofLiteral s
  | '\\' :: 'r' :: s => '\r' :: ofLiteral s
  | c :: s => c :: ofLiteral s

/-- The contents of a comment for a text: no line break and no end of a block comment is left in it. -/
def toComment : List Char → List Char
  | [] => []
  | '*' :: '/' :: s => '*' :: '\\' :: '/' :: toComment s
  | c :: s =>
    (match c with
      | '\\' => ['\\', '\\']
      | '\r' => ['\\', 'r']
      | '\n' => ['\\', 'n']
      | '\u2028' => ['\\', 'u', '2', '0', '2', '8']
      | '\u2029' => ['\\', 'u', '2', '0', '2', '9']
      | c => [c]) ++ toComment s

/-- The characters that have a meaning of their own in a pattern. -/
def patternMarks : List Char :=
  "()[]\x7b\x7d?*+-|^$\\.&~# \t\n\r\x0b\x0c".toList

/-- The pattern that matches a text and nothing else. -/
def toPattern (s : List Char) : List Char :=
  s.flatMap fun c => if patternMarks.contains c then ['\\', c] else [c]

/-- The literal contents for a text. -/
def escapeLiteral (s : String) : String :=
  String.ofList (toLiteral s.toList)

/-- The text behind literal contents. -/
def unescapeLiteral (s : String) : String :=
  String.ofList (ofLiteral s.toList)

/-- The comment contents for a text. -/
def escapeComment (s : String) : String :=
  String.ofList (toComment s.toList)

/-- The pattern that matches a text and nothing else. -/
def escapePattern (s : String) : String :=
  String.ofList (toPattern s.toList)

end UserScripts.Text
