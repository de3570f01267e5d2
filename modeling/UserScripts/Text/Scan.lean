import UserScripts.Text.Blank
import UserScripts.Text.Case

/-!
# Scanning

The small readers from which the grammars of this library are built. A reader takes the characters ahead and gives what
follows the part it has read, or nothing.
-/

namespace UserScripts.Text

/-- What follows `word`, letter for letter. -/
def after? : (word s : List Char) → Option (List Char)
  | [], s => some s
  | _ :: _, [] => none
  | w :: ws, c :: s => if w = c then after? ws s else none

/-- What follows `word`, without regard to case. -/
def afterFold? : (word s : List Char) → Option (List Char)
  | [], s => some s
  | _ :: _, [] => none
  | w :: ws, c :: s => if sameLetter w c then afterFold? ws s else none

/-- What follows a list of tokens, blanks being allowed before each of them. -/
def tokens? : List String → List Char → Option (List Char)
  | [], s => some s
  | token :: more, s => (after? token.toList (dropBlank s)).bind (tokens? more)

/-- The number that a list of decimal digits is. -/
def natOfDigits (digits : List Char) : Nat :=
  digits.foldl (fun n c => 10 * n + (c.toNat - 48)) 0

/-- The end of a text, or the place before a line feed that ends it. -/
def atEnd : List Char → Bool
  | [] => true
  | ['\n'] => true
  | _ => false

/-- The answer at the first place of a text, its end included, where `read` has one. -/
def firstPlace (read : List Char → Option α) : List Char → Option α
  | [] => read []
  | c :: s =>
    match read (c :: s) with
    | some a => some a
    | none => firstPlace read s

/-- Substitutes in a text from left to right. Where `read` gives a length and a replacement, that many characters give way to
it; the first `skip` characters have given way to a replacement that is already written. -/
def substituteFrom (read : List Char → Option (Nat × List Char)) : (skip : Nat) → List Char → List Char
  | _, [] => []
  | skip + 1, _ :: s => substituteFrom read skip s
  | 0, c :: s =>
    match read (c :: s) with
    | some (length + 1, new) => new ++ substituteFrom read length s
    | _ => c :: substituteFrom read 0 s

/-- Substitutes in a text from left to right: where `read` gives a length and a replacement, that many characters give way to
it. -/
def substitute (read : List Char → Option (Nat × List Char)) (s : List Char) : List Char :=
  substituteFrom read 0 s

/-- Replaces the first occurrence of a text. -/
def replaceFirst (old new : List Char) : List Char → List Char
  | [] => []
  | c :: s =>
    match after? old (c :: s) with
    | some rest => new ++ rest
    | none => c :: replaceFirst old new s

/-- The pieces of a text between the occurrences of a character. -/
def splitOn (mark : Char) : List Char → List (List Char)
  | [] => [[]]
  | c :: rest =>
    if c = mark then [] :: splitOn mark rest
    else match splitOn mark rest with
      | [] => [[c]]
      | piece :: more => (c :: piece) :: more

/-- Pieces put together, with a character between any two. -/
def joinWith (mark : Char) : List (List Char) → List Char
  | [] => []
  | [piece] => piece
  | piece :: next :: more => piece ++ mark :: joinWith mark (next :: more)

/-- The text before and after the first occurrence of a character. -/
def cutAt? (mark : Char) : List Char → Option (List Char × List Char)
  | [] => none
  | c :: s => if c = mark then some ([], s) else (cutAt? mark s).map fun (a, b) => (c :: a, b)

theorem splitOn_ne_nil (mark : Char) (s : List Char) : splitOn mark s ≠ [] := by
  cases s with
  | nil => simp [splitOn]
  | cons c rest =>
    rw [splitOn]
    split
    · simp
    · split <;> simp

/-- Splitting loses nothing. -/
theorem joinWith_splitOn (mark : Char) (s : List Char) : joinWith mark (splitOn mark s) = s := by
  induction s with
  | nil => rfl
  | cons c rest ih =>
    rw [splitOn]
    split
    · next h =>
      cases hs : splitOn mark rest with
      | nil => exact absurd hs (splitOn_ne_nil mark rest)
      | cons l ls => rw [hs] at ih; simp [joinWith, ih, h]
    · split
      · next hs => exact absurd hs (splitOn_ne_nil mark rest)
      · next l ls hs =>
        rw [hs] at ih
        cases ls with
        | nil => simpa [joinWith] using ih
        | cons m ms => simpa [joinWith] using ih

end UserScripts.Text
