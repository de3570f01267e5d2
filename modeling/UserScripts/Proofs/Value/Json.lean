import Mathlib.Tactic.Common
import UserScripts.Value.Json

/-!
# Facts about JSON

Main statements: `string?_quote`, the notation of a string is read as that string, `guarded_quotedBody`, every quote inside the
notation has a backslash right before it, and `read_ne_unset`, no text is the notation of an unset field.
-/

namespace UserScripts.Json

open UserScripts.Text

/-- What stands between the quotes of the notation of a text. -/
def quotedBody (s : List Char) : List Char :=
  s.flatMap quotedChar

/-- The notation of a text is its body between quotes. -/
theorem quote_toList (s : String) : (quote s).toList = '"' :: (quotedBody s.toList ++ ['"']) := by
  simp [quote, quotedBody]

@[simp]
theorem quotedBody_nil : quotedBody [] = [] := rfl

@[simp]
theorem quotedBody_cons (c : Char) (s : List Char) : quotedBody (c :: s) = quotedChar c ++ quotedBody s := rfl

/-- How a character is written: as an escape of one letter, as an escape of its number, or as itself. -/
theorem quotedChar_cases (c : Char) :
    (∃ e, quotedChar c = ['\\', e] ∧ e ≠ 'u' ∧ e ≠ '\n' ∧ shortEscape? e = some c) ∨
      (c.toNat < 0x20 ∧ quotedChar c = ['\\', 'u', '0', '0', hexChar (c.toNat / 16), hexChar (c.toNat % 16)]) ∨
        (quotedChar c = [c] ∧ c ≠ '"' ∧ c ≠ '\\' ∧ ¬c.toNat < 0x20) := by
  by_cases h₁ : c = '"'
  · subst h₁; exact Or.inl ⟨'"', by decide⟩
  by_cases h₂ : c = '\\'
  · subst h₂; exact Or.inl ⟨'\\', by decide⟩
  by_cases h₃ : c = '\n'
  · subst h₃; exact Or.inl ⟨'n', by decide⟩
  by_cases h₄ : c = '\r'
  · subst h₄; exact Or.inl ⟨'r', by decide⟩
  by_cases h₅ : c = '\t'
  · subst h₅; exact Or.inl ⟨'t', by decide⟩
  by_cases h₆ : c = '\x08'
  · subst h₆; exact Or.inl ⟨'b', by decide⟩
  by_cases h₇ : c = '\x0c'
  · subst h₇; exact Or.inl ⟨'f', by decide⟩
  right
  by_cases h₈ : c.toNat < 0x20
  · exact Or.inl ⟨h₈, by simp [quotedChar, h₁, h₂, h₃, h₄, h₅, h₆, h₇, h₈]⟩
  · exact Or.inr ⟨by simp [quotedChar, h₁, h₂, h₃, h₄, h₅, h₆, h₇, h₈], h₁, h₂, h₈⟩

/-- The two digits of a control character are read as its number. -/
theorem codeUnit?_control {n : Nat} (h : n < 0x20) :
    codeUnit? '0' '0' (hexChar (n / 16)) (hexChar (n % 16)) = some n := by
  revert n
  decide

/-- A written character is read as that character. -/
theorem stringUnits_quotedChar (c : Char) (t : List Char) :
    stringUnits (quotedChar c ++ t) = (stringUnits t).map fun (units, rest) => (c.toNat :: units, rest) := by
  rcases quotedChar_cases c with ⟨e, hc, hu, -, he⟩ | ⟨hn, hc⟩ | ⟨hc, hq, hb, hn⟩
  · rw [hc, List.cons_append, List.cons_append, List.nil_append, stringUnits.eq_4 _ _ (fun _ _ _ _ _ h _ => hu h), he]
    cases stringUnits t <;> rfl
  · rw [hc]
    simp only [List.cons_append, List.nil_append, stringUnits, codeUnit?_control hn]
    cases stringUnits t <;> rfl
  · rw [hc, List.singleton_append, stringUnits.eq_5 _ _ (fun h => hq h) (fun _ _ _ _ _ h _ => hb h) (fun _ _ h _ => hb h),
      if_neg (by simp [hn, hb])]
    cases stringUnits t <;> rfl

/-- The body of the notation of a text is read as the units of that text. -/
theorem stringUnits_quotedBody (s rest : List Char) :
    stringUnits (quotedBody s ++ '"' :: rest) = some (s.map Char.toNat, rest) := by
  induction s with
  | nil => rfl
  | cons c s ih => rw [quotedBody_cons, List.append_assoc, stringUnits_quotedChar, ih]; rfl

/-- No character is a surrogate. -/
theorem not_surrogate (c : Char) : ¬(0xD800 ≤ c.toNat ∧ c.toNat ≤ 0xDFFF) := by
  have hv : c.toNat < 0xD800 ∨ 0xDFFF < c.toNat ∧ c.toNat < 0x110000 := c.valid
  omega

/-- The units of a text are read as the text. -/
theorem unitsText_map_toNat (s : List Char) : unitsText (s.map Char.toNat) = s := by
  induction s with
  | nil => rfl
  | cons c s ih =>
    have hc : (if 0xD800 ≤ c.toNat && c.toNat ≤ 0xDFFF then replacement else Char.ofNat c.toNat) = c := by
      rw [if_neg (by simpa using not_surrogate c), Char.ofNat_toNat]
    cases s with
    | nil => rw [List.map_cons, List.map_nil, unitsText, hc]
    | cons d s =>
      have hd : ¬(0xD800 ≤ c.toNat && c.toNat ≤ 0xDBFF && 0xDC00 ≤ d.toNat && d.toNat ≤ 0xDFFF) = true := by
        have := not_surrogate c
        simp only [Bool.and_eq_true, decide_eq_true_eq]
        omega
      rw [List.map_cons, List.map_cons, unitsText, if_neg hd, hc, ← List.map_cons, ih]

/-- The notation of a string is read as that string. -/
theorem string?_quote (s : String) : string? (quote s).toList = some s := by
  rw [quote_toList]
  simp [string?, stringBody?, stringUnits_quotedBody, unitsText_map_toNat]

/-- Every quote in a text has a backslash right before it. -/
def Guarded (s : List Char) : Prop :=
  ∀ a b, s = a ++ '"' :: b → ∃ a', a = a' ++ ['\\']

/-- A text without quotes is guarded. -/
theorem guarded_of_not_mem {s : List Char} (h : '"' ∉ s) : Guarded s := by
  rintro a b rfl
  simp at h

/-- Guarded texts are guarded one after the other. -/
theorem Guarded.append {s t : List Char} (hs : Guarded s) (ht : Guarded t) : Guarded (s ++ t) := by
  intro a b h
  rcases List.append_eq_append_iff.mp h with ⟨u, rfl, hu⟩ | ⟨u, hu, hb⟩
  · obtain ⟨u', rfl⟩ := ht u b hu
    exact ⟨s ++ u', by simp⟩
  · cases u with
    | nil =>
      obtain ⟨u', hu'⟩ := ht [] b (by simpa using hb.symm)
      simp at hu'
    | cons x u =>
      rw [List.cons_append, List.cons.injEq] at hb
      exact hs a u (by rw [hu, ← hb.1])

/-- The notation of a character is guarded. -/
theorem guarded_quotedChar (c : Char) : Guarded (quotedChar c) := by
  rcases quotedChar_cases c with ⟨e, hc, -⟩ | ⟨hn, hc⟩ | ⟨hc, hq, -⟩
  · rw [hc]
    intro a b h
    match a with
    | [] => simp at h
    | [x] => simp only [List.cons_append, List.nil_append, List.cons.injEq] at h; exact ⟨[], by rw [← h.1]; rfl⟩
    | x :: y :: a => simp at h
  · refine guarded_of_not_mem ?_
    rw [hc]
    have hdigits : ∀ n < 0x20, '"' ∉ ['\\', 'u', '0', '0', hexChar (n / 16), hexChar (n % 16)] := by decide
    exact hdigits _ hn
  · refine guarded_of_not_mem ?_
    rw [hc, List.mem_singleton]
    exact Ne.symm hq

/-- Every quote inside the notation of a string is escaped. -/
theorem guarded_quotedBody (s : List Char) : Guarded (quotedBody s) := by
  induction s with
  | nil => exact guarded_of_not_mem (by simp)
  | cons c s ih => exact (guarded_quotedChar c).append ih

/-- The notation of a string has no line feed. -/
theorem newline_not_mem_quotedBody (s : List Char) : '\n' ∉ quotedBody s := by
  intro h
  obtain ⟨c, -, hc⟩ := List.mem_flatMap.mp h
  rcases quotedChar_cases c with ⟨e, he, -, hn, -⟩ | ⟨hn, he⟩ | ⟨he, -, -, hn⟩
  · rw [he] at hc
    simp only [List.mem_cons, List.not_mem_nil, or_false] at hc
    rcases hc with hc | hc
    · exact absurd hc (by decide)
    · exact hn hc.symm
  · have hdigits : ∀ n < 0x20, '\n' ∉ ['\\', 'u', '0', '0', hexChar (n / 16), hexChar (n % 16)] := by decide
    exact hdigits _ hn (he ▸ hc)
  · rw [he, List.mem_singleton] at hc
    subst hc
    exact hn (by decide)

/-! ## What is read -/

section Read

variable {limits : Limits} {s rest : List Char} {v : Value}

/-- No number is read as the mark of an unset field. -/
theorem unsigned_ne_unset {negative : Bool} (h : unsigned limits negative s = .ok (v, rest)) : v ≠ .unset := by
  unfold unsigned at h
  rintro rfl
  grind

/-- No simple value is read as the mark of an unset field. -/
theorem simple_ne_unset (h : simple limits s = .ok (v, rest)) : v ≠ .unset := by
  unfold simple at h
  split at h
  · next result hfound =>
    obtain ⟨⟨word, w⟩, hmem, hword⟩ := List.exists_of_findSome?_eq_some hfound
    obtain ⟨_, -, rfl⟩ := Option.map_eq_some_iff.mp hword
    obtain ⟨rfl, -⟩ := Prod.mk.inj (Except.ok.inj h)
    rintro rfl
    simp [words] at hmem
  · split at h <;> exact unsigned_ne_unset h

/-- No value is read as the mark of an unset field. -/
theorem value_ne_unset {fuel levels : Nat} (h : value limits fuel levels s = .ok (v, rest)) : v ≠ .unset := by
  cases fuel with
  | zero =>
    rw [value] at h
    cases h
  | succ fuel =>
    unfold value at h
    rintro rfl
    split at h
    · split at h <;> cases h
    · cases h
    · cases h
    · split at h
      · cases h
      · revert h
        cases items limits fuel _ _ <;> rintro ⟨⟩
    · split at h
      · cases h
      · revert h
        cases members limits fuel _ _ <;> rintro ⟨⟩
    · exact simple_ne_unset h rfl

/-- No text is the notation of an unset field. -/
theorem read_ne_unset (h : read limits s = .ok v) : v ≠ .unset := by
  unfold read at h
  cases hvalue : value limits (s.length + 1) limits.levels (dropSpace s) with
  | error fault =>
    rw [hvalue] at h
    cases h
  | ok result =>
    obtain ⟨w, rest⟩ := result
    have hw := value_ne_unset hvalue
    rw [hvalue] at h
    dsimp only [bind, Except.bind] at h
    split at h
    · obtain rfl : w = v := Except.ok.inj h
      exact hw
    · cases h

end Read

end UserScripts.Json
