import Mathlib.Tactic.Common
import UserScripts.Proofs.Text.Scan
import UserScripts.Text.Literal

/-!
# Facts about escapes

What the contents of a literal and of a comment may hold, and what is read back from them. Main statements: `ofLiteral_toLiteral`,
`unbroken_toLiteral`, `unbroken_toComment` and `unescaping_undoes_escaping`.
-/

namespace UserScripts.Text

/-- The four characters that end a line of a script. -/
def isLineBreak (c : Char) : Bool :=
  c = '\n' || c = '\r' || c = '\u2028' || c = '\u2029'

/-- A text without line breaks. -/
def Unbroken (s : List Char) : Prop :=
  ∀ c ∈ s, isLineBreak c = false

instance (s : List Char) : Decidable (Unbroken s) :=
  decidableForallMem (isLineBreak · = false) s

/-- The empty text has no line break. -/
theorem unbroken_nil : Unbroken [] := by
  simp [Unbroken]

/-- A text in two parts is without line breaks if both of them are. -/
theorem unbroken_append {s t : List Char} : Unbroken (s ++ t) ↔ Unbroken s ∧ Unbroken t := by
  simp [Unbroken, or_imp, forall_and]

/-- A text is without line breaks if its first character is none and the rest is without. -/
theorem unbroken_cons {c : Char} {s : List Char} : Unbroken (c :: s) ↔ isLineBreak c = false ∧ Unbroken s := by
  simp [Unbroken]

/-- The characters that are written as themselves inside a literal. -/
def isLiteralPlain (c : Char) : Bool :=
  c != '\\' && c != '\'' && !isLineBreak c

/-- A plain character is written as itself. -/
theorem literalChar_of_plain {c : Char} (h : isLiteralPlain c = true) : literalChar c = [c] := by
  simp only [isLiteralPlain, isLineBreak, Bool.and_eq_true, bne_iff_ne, Bool.not_eq_true', Bool.or_eq_false_iff,
    decide_eq_false_iff_not] at h
  rw [literalChar.eq_def]
  split <;> simp_all

/-- The six characters that a literal escapes. -/
theorem not_isLiteralPlain {c : Char} (h : isLiteralPlain c ≠ true) :
    c = '\\' ∨ c = '\'' ∨ c = '\n' ∨ c = '\r' ∨ c = '\u2028' ∨ c = '\u2029' := by
  by_contra hc
  simp only [not_or] at hc
  exact h (by simp [isLiteralPlain, isLineBreak, hc])

@[simp]
theorem toLiteral_nil : toLiteral [] = [] := rfl

@[simp]
theorem toLiteral_cons (c : Char) (s : List Char) : toLiteral (c :: s) = literalChar c ++ toLiteral s := rfl

/-- Texts are written one after the other. -/
@[simp]
theorem toLiteral_append (s t : List Char) : toLiteral (s ++ t) = toLiteral s ++ toLiteral t :=
  List.flatMap_append

/-- The contents of a literal hold no line break. -/
theorem unbroken_toLiteral (s : List Char) : Unbroken (toLiteral s) := by
  intro c h
  obtain ⟨d, -, hd⟩ := List.mem_flatMap.mp h
  by_cases hp : isLiteralPlain d = true
  · rw [literalChar_of_plain hp, List.mem_singleton] at hd
    subst hd
    simp only [isLiteralPlain, Bool.and_eq_true, Bool.not_eq_true'] at hp
    exact hp.2
  · rcases not_isLiteralPlain hp with rfl | rfl | rfl | rfl | rfl | rfl <;>
      simp only [literalChar, List.mem_cons, List.not_mem_nil, or_false] at hd <;> revert hd <;>
      rintro (rfl | rfl | rfl | rfl | rfl | rfl) <;> decide

/-- A character other than a backslash is read as itself. -/
theorem ofLiteral_cons {c : Char} (h : c ≠ '\\') (s : List Char) : ofLiteral (c :: s) = c :: ofLiteral s := by
  rw [ofLiteral.eq_def]
  split <;> simp_all

/-- Reading undoes writing, whatever follows. -/
theorem ofLiteral_toLiteral_append (s t : List Char) : ofLiteral (toLiteral s ++ t) = s ++ ofLiteral t := by
  induction s with
  | nil => rfl
  | cons c s ih =>
    by_cases hp : isLiteralPlain c = true
    · have hc : c ≠ '\\' := by
        rintro rfl
        exact absurd hp (by decide)
      rw [toLiteral_cons, literalChar_of_plain hp, List.append_assoc, List.singleton_append, ofLiteral_cons hc, ih,
        List.cons_append]
    · rcases not_isLiteralPlain hp with rfl | rfl | rfl | rfl | rfl | rfl <;>
        simp [literalChar, ofLiteral, ih]

/-- What is written is read back. -/
theorem ofLiteral_toLiteral (s : List Char) : ofLiteral (toLiteral s) = s := by
  simpa [ofLiteral] using ofLiteral_toLiteral_append s []

/-! ## Contents that are written -/

/-- The escapes that are written: those of the backslash, of the single quote and of the four line breaks. -/
def literalEscapes : List (List Char) :=
  ["\\\\".toList, "\\'".toList, "\\r".toList, "\\n".toList, "\\u2028".toList, "\\u2029".toList]

/-- Contents of a literal that are put together from escapes that are written and from characters that are written as themselves. -/
inductive IsWritten : List Char → Prop
  | nil : IsWritten []
  | escape {e s : List Char} : e ∈ literalEscapes → IsWritten s → IsWritten (e ++ s)
  | plain {c : Char} {s : List Char} : isLiteralPlain c = true → IsWritten s → IsWritten (c :: s)

/-- A character that is not plain is written as an escape. -/
theorem literalChar_mem_literalEscapes {c : Char} (h : isLiteralPlain c ≠ true) : literalChar c ∈ literalEscapes := by
  rcases not_isLiteralPlain h with rfl | rfl | rfl | rfl | rfl | rfl <;> decide

/-- Each of the escapes stands for what is written with it. -/
theorem toLiteral_ofLiteral_of_mem_literalEscapes : ∀ e ∈ literalEscapes, toLiteral (ofLiteral e) = e := by
  decide

/-- What is written consists of plain characters and escapes. -/
theorem isWritten_toLiteral (s : List Char) : IsWritten (toLiteral s) := by
  induction s with
  | nil => exact .nil
  | cons c s ih =>
    rw [toLiteral_cons]
    by_cases hp : isLiteralPlain c = true
    · rw [literalChar_of_plain hp]
      exact .plain hp ih
    · exact .escape (literalChar_mem_literalEscapes hp) ih

/-- What consists of plain characters and escapes is written for some text. -/
theorem IsWritten.exists_toLiteral {s : List Char} (h : IsWritten s) : ∃ t, toLiteral t = s := by
  induction h with
  | nil => exact ⟨[], rfl⟩
  | @escape e _ he _ ih =>
    obtain ⟨t, rfl⟩ := ih
    exact ⟨ofLiteral e ++ t, by rw [toLiteral_append, toLiteral_ofLiteral_of_mem_literalEscapes e he]⟩
  | @plain c _ hc _ ih =>
    obtain ⟨t, rfl⟩ := ih
    exact ⟨c :: t, by rw [toLiteral_cons, literalChar_of_plain hc, List.singleton_append]⟩

/-- What is written comes back if it is read and written again, and nothing else does. -/
theorem isWritten_iff {s : List Char} : IsWritten s ↔ toLiteral (ofLiteral s) = s := by
  constructor
  · intro h
    obtain ⟨t, rfl⟩ := h.exists_toLiteral
    rw [ofLiteral_toLiteral]
  · intro h
    rw [← h]
    exact isWritten_toLiteral _

/-- Escaping goes by characters. -/
theorem toList_escapeLiteral (s : String) : (escapeLiteral s).toList = toLiteral s.toList :=
  String.toList_ofList

/-- Unescaping goes by characters. -/
theorem toList_unescapeLiteral (s : String) : (unescapeLiteral s).toList = ofLiteral s.toList :=
  String.toList_ofList

/-- Unescaping undoes escaping of any text, and escaping undoes unescaping of just the contents that are put together from escapes
that are written and from characters other than those that are escaped. -/
theorem unescaping_undoes_escaping (t s : String) :
    unescapeLiteral (escapeLiteral t) = t ∧ (IsWritten s.toList ↔ escapeLiteral (unescapeLiteral s) = s) := by
  constructor
  · rw [← String.toList_inj, toList_unescapeLiteral, toList_escapeLiteral, ofLiteral_toLiteral]
  · rw [isWritten_iff, ← String.toList_inj, toList_escapeLiteral, toList_unescapeLiteral]

/-- An escaped backslash before a letter is no escape of a line break, and the escape of a double quote is read but never written. -/
example : unescapeLiteral "\\\\n" = "\\n" ∧ escapeLiteral (unescapeLiteral "\\\"") = "\"" := by decide

/-! ## Comments -/

/-- A character of a comment that does not start an end mark is written on its own, without line breaks. -/
theorem exists_toComment_cons {c : Char} {s : List Char} (h : ∀ t, c = '*' → s = '/' :: t → False) :
    ∃ written, toComment (c :: s) = written ++ toComment s ∧ Unbroken written := by
  by_cases h₁ : c = '\\'
  · subst h₁; exact ⟨_, toComment.eq_3 s, by decide⟩
  by_cases h₂ : c = '\r'
  · subst h₂; exact ⟨_, toComment.eq_4 s, by decide⟩
  by_cases h₃ : c = '\n'
  · subst h₃; exact ⟨_, toComment.eq_5 s, by decide⟩
  by_cases h₄ : c = '\u2028'
  · subst h₄; exact ⟨_, toComment.eq_6 s, by decide⟩
  by_cases h₅ : c = '\u2029'
  · subst h₅; exact ⟨_, toComment.eq_7 s, by decide⟩
  refine ⟨[c], toComment.eq_8 c s h h₁ h₂ h₃ h₄ h₅, ?_⟩
  intro x hx
  rw [List.mem_singleton] at hx
  subst hx
  simp [isLineBreak, h₂, h₃, h₄, h₅]

/-- The contents of a comment hold no line break. -/
theorem unbroken_toComment (s : List Char) : Unbroken (toComment s) := by
  intro c h
  induction s using toComment.induct with
  | case1 => simp [toComment] at h
  | case2 s ih =>
    simp only [toComment, List.mem_cons] at h
    rcases h with rfl | rfl | rfl | h
    · decide
    · decide
    · decide
    · exact ih h
  | case3 d s hd ih =>
    obtain ⟨written, hw, hb⟩ := exists_toComment_cons hd
    rw [hw, List.mem_append] at h
    rcases h with h | h
    · exact hb c h
    · exact ih h

end UserScripts.Text
