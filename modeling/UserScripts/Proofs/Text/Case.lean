import Mathlib.Tactic.Common
import UserScripts.Proofs.Text.Scan

/-!
# Facts about letter case

Marks, the printable characters of ASCII that are no letters, are not touched by lower-casing and are compared as they are. So
texts that are equal but for case have the same marks. Main statements: `countP_lower` and `countP_of_afterFold?`.
-/

namespace UserScripts.Text

/-! ## Letter case -/

/-- The printable characters of ASCII that are no letters. -/
def isMark (c : Char) : Bool :=
  0x20 ≤ c.toNat && c.toNat < 0x80 && !c.isAlpha

/-- Beyond ASCII only the dotted I and the Kelvin sign have a lower case in ASCII. -/
theorem shift_of_mem_caseRuns : ∀ r ∈ caseRuns, r.last < 0x80 ∨ 0x80 ≤ (r.first : Int) + r.shift ∨
    (r.first = r.last ∧ ((r.first : Int) + r.shift = 0x69 ∨ (r.first : Int) + r.shift = 0x6B)) := by
  decide +kernel

/-- A number is that of its character, or there is no such character. -/
theorem toNat_ofNat_cases (n : Nat) : (Char.ofNat n).toNat = n ∨ Char.ofNat n = '\x00' := by
  by_cases h : n.isValidChar
  · left
    rw [Char.ofNat, dif_pos h]
    rfl
  · right
    rw [Char.ofNat, dif_neg h]
    rfl

/-- Among the characters of ASCII the capital letters have a lower case, and no others. -/
theorem lowerChar_of_lt {c : Char} (h : c.toNat < 0x80) :
    lowerChar c = if 0x41 ≤ c.toNat ∧ c.toNat ≤ 0x5A then Char.ofNat (c.toNat + 32) else c := by
  rw [lowerChar, if_pos h]
  split <;> split <;> simp_all

/-- The lower case of a character beyond ASCII. -/
theorem lowerChar_of_le {c : Char} (h : 0x80 ≤ c.toNat) :
    0x80 ≤ (lowerChar c).toNat ∨ lowerChar c = 'i' ∨ lowerChar c = 'k' ∨ lowerChar c = '\x00' := by
  rw [lowerChar, if_neg (by omega)]
  split
  · next r hr =>
    have hmem : r ∈ caseRuns := List.mem_of_find?_eq_some hr
    have hholds := List.find?_some hr
    simp only [CaseRun.holds, Bool.and_eq_true, decide_eq_true_eq] at hholds
    obtain ⟨⟨hfirst, hlast⟩, -⟩ := hholds
    rcases shift_of_mem_caseRuns r hmem with hr | hr | ⟨hsingle, hr | hr⟩
    · omega
    · rcases toNat_ofNat_cases ((c.toNat : Int) + r.shift).toNat with hn | hn
      · left
        rw [hn]
        omega
      · exact Or.inr (Or.inr (Or.inr hn))
    · right; left
      rw [show ((c.toNat : Int) + r.shift).toNat = 0x69 by omega]
    · right; right; left
      rw [show ((c.toNat : Int) + r.shift).toNat = 0x6B by omega]
  · exact Or.inl h

/-- A capital of ASCII and its lower case are letters. -/
theorem isMark_capital : ∀ n < 0x80, 0x41 ≤ n ∧ n ≤ 0x5A →
    isMark (Char.ofNat n) = false ∧ isMark (Char.ofNat (n + 32)) = false := by
  decide

/-- A mark is the lower case of nothing but itself. -/
theorem lowerChar_eq_mark {c m : Char} (hm : isMark m = true) : lowerChar c = m ↔ c = m := by
  have hlt : m.toNat < 0x80 := by
    simp only [isMark, Bool.and_eq_true, decide_eq_true_eq] at hm
    exact hm.1.2
  by_cases hc : c.toNat < 0x80
  · rw [lowerChar_of_lt hc]
    by_cases hcap : 0x41 ≤ c.toNat ∧ c.toNat ≤ 0x5A
    · obtain ⟨h₁, h₂⟩ := isMark_capital c.toNat hc hcap
      rw [Char.ofNat_toNat] at h₁
      rw [if_pos hcap]
      constructor
      · rintro rfl
        rw [hm] at h₂
        nomatch h₂
      · rintro rfl
        rw [hm] at h₁
        nomatch h₁
    · rw [if_neg hcap]
  · have hne : c ≠ m := by
      rintro rfl
      omega
    refine iff_of_false ?_ hne
    rintro rfl
    rcases lowerChar_of_le (c := c) (by omega) with h | h | h | h
    · omega
    · rw [h] at hm
      exact absurd hm (by decide)
    · rw [h] at hm
      exact absurd hm (by decide)
    · rw [h] at hm
      exact absurd hm (by decide)

/-- The representatives of letters that differ in no way but case are letters. -/
theorem head_of_mem_sameLetterGroups : ∀ g ∈ sameLetterGroups, ∀ n ∈ g.head?, isMark (Char.ofNat n) = false := by
  decide

/-- A mark represents nothing but itself. -/
theorem foldChar_eq_mark {c m : Char} (hm : isMark m = true) : foldChar c = m ↔ c = m := by
  rw [foldChar]
  by_cases hl : (lowerChar c).toNat < 0x80
  · rw [if_pos hl]
    exact lowerChar_eq_mark hm
  · have hne : lowerChar c ≠ m := by
      rintro rfl
      simp only [isMark, Bool.and_eq_true, decide_eq_true_eq] at hm
      exact hl hm.1.2
    rw [if_neg hl]
    refine iff_of_false ?_ fun hc => hne ((lowerChar_eq_mark hm).mpr hc)
    split
    · next n g hg =>
      rintro rfl
      rw [head_of_mem_sameLetterGroups _ (List.mem_of_find?_eq_some hg) n rfl] at hm
      nomatch hm
    · exact hne

/-- A mark is the same letter as nothing but itself. -/
theorem eq_of_sameLetter {w c : Char} (h : sameLetter w c = true) (hm : isMark w = true ∨ isMark c = true) : c = w := by
  rw [sameLetter, beq_iff_eq] at h
  rcases hm with hm | hm
  · exact (foldChar_eq_mark hm).mp (h.symm.trans ((foldChar_eq_mark hm).mpr rfl))
  · exact ((foldChar_eq_mark hm).mp (h.trans ((foldChar_eq_mark hm).mpr rfl))).symm

/-! ## Blanks -/

/-- The blank characters one by one. -/
def blanks : List Char :=
  ([9, 10, 11, 12, 13, 28, 29, 30, 31, 32, 0x85, 0xA0, 0x1680] ++ (List.range 11).map (· + 0x2000) ++
    [0x2028, 0x2029, 0x202F, 0x205F, 0x3000]).map Char.ofNat

/-- The list of blanks is complete. -/
theorem mem_blanks {c : Char} (h : isBlank c = true) : c ∈ blanks := by
  have hn : c.toNat ∈ [9, 10, 11, 12, 13, 28, 29, 30, 31, 32, 0x85, 0xA0, 0x1680] ++ (List.range 11).map (· + 0x2000) ++
    [0x2028, 0x2029, 0x202F, 0x205F, 0x3000] := by
    simp only [isBlank, Bool.or_eq_true, Bool.and_eq_true, decide_eq_true_eq, beq_iff_eq] at h
    simp only [List.mem_append, List.mem_map, List.mem_range, List.mem_cons, List.not_mem_nil, or_false]
    rcases h with (((((((((h | h) | h) | h) | h) | h) | h) | h) | h) | h) | h
    · left; left; omega
    · left; left; omega
    · left; left; omega
    · left; left; omega
    · left; left; omega
    · left; right; exact ⟨c.toNat - 0x2000, by omega, by omega⟩
    all_goals (right; omega)
  exact List.mem_map.mpr ⟨c.toNat, hn, Char.ofNat_toNat c⟩

/-- Blanks have no case, and no letter is equal to one but for case. -/
theorem fold_of_blank {c : Char} (h : isBlank c = true) : lowerChar c = c ∧ foldChar c = c := by
  have hall : ∀ c ∈ blanks, lowerChar c = c ∧ foldChar c = c := by decide
  exact hall c (mem_blanks h)
/-! ## Counting -/

section

variable {p : Char → Bool}

/-- A predicate of marks does not tell a character from its lower case. -/
theorem countP_lowerAt (hp : ∀ c, p c = true → isMark c = true) (before : List Char) (c : Char) (after : List Char) :
    (lowerAt before c after).countP p = [c].countP p := by
  have hno : ∀ d, isMark d = false → p d = false := by
    intro d hd
    by_contra h
    rw [hp d (by simpa using h)] at hd
    nomatch hd
  rw [lowerAt]
  by_cases h₁ : c = 'Σ'
  · subst h₁
    rw [if_pos rfl, List.countP_singleton, List.countP_singleton, hno 'Σ' (by decide)]
    split <;> simp [hno 'ς' (by decide), hno 'σ' (by decide)]
  by_cases h₂ : c = '\u0130'
  · subst h₂
    rw [if_neg (by decide), if_pos rfl]
    simp [hno 'i' (by decide), hno '\u0307' (by decide), hno '\u0130' (by decide)]
  rw [if_neg h₁, if_neg h₂, List.countP_singleton, List.countP_singleton]
  have heq : p (lowerChar c) = p c := by
    rw [Bool.eq_iff_iff]
    constructor
    · intro h
      rwa [← (lowerChar_eq_mark (hp _ h)).mp rfl] at h
    · intro h
      rwa [(lowerChar_eq_mark (hp _ h)).mpr rfl]
  rw [heq]

/-- Taking lower case leaves the number of marks. -/
theorem countP_lowerFrom (hp : ∀ c, p c = true → isMark c = true) (before s : List Char) :
    (lowerFrom before s).countP p = s.countP p := by
  induction s generalizing before with
  | nil => rfl
  | cons c s ih =>
    rw [lowerFrom, List.countP_append, countP_lowerAt hp, ih, ← List.countP_append]
    rfl

/-- Lower-casing neither gains nor loses a mark. -/
theorem countP_lower (hp : ∀ c, p c = true → isMark c = true) (s : String) :
    (lower s).toList.countP p = s.toList.countP p := by
  rw [lower, String.toList_ofList, countP_lowerFrom hp]

/-! ## Words -/

/-- A word that is read without regard to case is as long as the word and has the same marks. -/
theorem afterFold?_eq_some {word s rest : List Char} (h : afterFold? word s = some rest) :
    ∃ taken, s = taken ++ rest ∧ List.Forall₂ (fun w c => sameLetter w c = true) word taken := by
  induction word generalizing s with
  | nil =>
    obtain rfl := Option.some.inj h
    exact ⟨[], rfl, .nil⟩
  | cons w word ih =>
    cases s with
    | nil => nomatch h
    | cons c s =>
      rw [afterFold?] at h
      split at h
      · next hw =>
        obtain ⟨taken, rfl, htaken⟩ := ih h
        exact ⟨c :: taken, rfl, .cons hw htaken⟩
      · nomatch h

/-- Texts that agree but for case have the same number of marks. -/
theorem countP_of_forall₂_sameLetter (hp : ∀ c, p c = true → isMark c = true) {word taken : List Char}
    (h : List.Forall₂ (fun w c => sameLetter w c = true) word taken) : taken.countP p = word.countP p := by
  induction h with
  | nil => rfl
  | @cons w c word taken hw _ ih =>
    have heq : p c = p w := by
      rw [Bool.eq_iff_iff]
      constructor
      · intro h
        rwa [eq_of_sameLetter hw (Or.inr (hp c h))] at h
      · intro h
        rwa [eq_of_sameLetter hw (Or.inl (hp w h))]
    rw [List.countP_cons, List.countP_cons, ih, heq]

/-- What is read as a word has the marks of the word. -/
theorem countP_of_afterFold? (hp : ∀ c, p c = true → isMark c = true) {word s rest : List Char}
    (h : afterFold? word s = some rest) : s.countP p = word.countP p + rest.countP p := by
  obtain ⟨taken, rfl, htaken⟩ := afterFold?_eq_some h
  rw [List.countP_append, countP_of_forall₂_sameLetter hp htaken]

/-- A character that is none of its letters ends a word. -/
theorem afterFold?_append_cons {word : List Char} {c : Char} (hc : ∀ w ∈ word, sameLetter w c = false) (s t : List Char) :
    afterFold? word (s ++ c :: t) = (afterFold? word s).map (· ++ c :: t) := by
  induction word generalizing s with
  | nil => rfl
  | cons w word ih =>
    cases s with
    | nil =>
      have hw := hc w List.mem_cons_self
      simp [afterFold?, hw]
    | cons d s =>
      rw [List.cons_append, afterFold?, afterFold?]
      split
      · exact ih (fun w' hw' => hc w' (List.mem_cons_of_mem _ hw')) s
      · rfl

end

/-! ## Texts without a capital sigma -/

/-- Only the capital sigma looks at the text around it. -/
theorem lowerAt_of_ne {c : Char} (hc : c ≠ 'Σ') (before after : List Char) : lowerAt before c after = lowerAt [] c [] := by
  rw [lowerAt, lowerAt, if_neg hc, if_neg hc]

/-- Without a sigma, lower case is taken in two parts. -/
theorem lowerFrom_append {s : List Char} (hs : 'Σ' ∉ s) {t : List Char} (ht : 'Σ' ∉ t) (before before' : List Char) :
    lowerFrom before (s ++ t) = lowerFrom before s ++ lowerFrom before' t := by
  have hall : ∀ {u : List Char}, 'Σ' ∉ u → ∀ before, lowerFrom before u = u.flatMap fun c => lowerAt [] c [] := by
    intro u hu
    induction u with
    | nil => exact fun _ => rfl
    | cons c u ih =>
      rw [List.mem_cons, not_or] at hu
      intro before
      rw [lowerFrom, lowerAt_of_ne (Ne.symm hu.1), ih hu.2]
      rfl
  rw [hall hs, hall ht, hall (by simp [hs, ht]), List.flatMap_append]

/-- The parts of a text are lower-cased one by one. -/
theorem lower_append {s t : String} (hs : 'Σ' ∉ s.toList) (ht : 'Σ' ∉ t.toList) : lower (s ++ t) = lower s ++ lower t := by
  rw [lower, lower, lower, ← String.ofList_append, String.toList_append, lowerFrom_append hs ht [] []]

/-- Lower-casing gains no mark. -/
theorem mem_lower {s : String} {c : Char} (hc : isMark c = true) : c ∈ (lower s).toList ↔ c ∈ s.toList := by
  have hcount : ∀ t : List Char, c ∈ t ↔ 0 < t.countP (· == c) := by
    intro t
    rw [List.countP_pos_iff]
    simp
  rw [hcount, hcount, countP_lower fun d hd => by rw [beq_iff_eq.mp hd]; exact hc]

/-! ## The ends of a text -/

/-- A blank has no lower case. -/
theorem lowerAt_of_blank {c : Char} (hc : isBlank c = true) (before after : List Char) : lowerAt before c after = [c] := by
  have h₁ : c ≠ 'Σ' := by rintro rfl; exact absurd hc (by decide)
  have h₂ : c ≠ '\u0130' := by rintro rfl; exact absurd hc (by decide)
  rw [lowerAt, if_neg h₁, if_neg h₂, (fold_of_blank hc).1]

/-- A character without case at the start of a text stays there in lower case. -/
theorem head?_lower {s : String} {c : Char} (hc : ∀ before after, lowerAt before c after = [c])
    (hs : s.toList.head? = some c) : (lower s).toList.head? = some c := by
  obtain ⟨rest, hrest⟩ := List.head?_eq_some_iff.mp hs
  rw [lower, String.toList_ofList, hrest, lowerFrom, hc]
  rfl

/-- A last character that lower case leaves is the last one after it. -/
theorem getLast?_lowerFrom {s : List Char} {c : Char} (hc : ∀ before after, lowerAt before c after = [c])
    (before : List Char) (hs : s.getLast? = some c) : (lowerFrom before s).getLast? = some c := by
  induction s generalizing before with
  | nil => nomatch hs
  | cons d s ih =>
    rw [lowerFrom]
    cases s with
    | nil =>
      rw [List.getLast?_singleton] at hs
      obtain rfl := Option.some.inj hs
      rw [hc]
      rfl
    | cons e s =>
      rw [List.getLast?_cons_cons] at hs
      rw [List.getLast?_append, ih (d :: before) hs]
      rfl

/-- A character without case at the end of a text stays there in lower case. -/
theorem getLast?_lower {s : String} {c : Char} (hc : ∀ before after, lowerAt before c after = [c])
    (hs : s.toList.getLast? = some c) : (lower s).toList.getLast? = some c := by
  rw [lower, String.toList_ofList]
  exact getLast?_lowerFrom hc [] hs

/-! ## Words in lower case -/

/-- A text whose lower case is a word of ASCII is read as that word without regard to case. -/
theorem afterFold?_of_lowerFrom {word : List Char} (hword : ∀ w ∈ word, w.toNat < 0x80 ∧ foldChar w = w) {before s : List Char}
    (h : lowerFrom before s = word) : afterFold? word s = some [] := by
  induction s generalizing before word with
  | nil =>
    rw [← h]
    rfl
  | cons c s ih =>
    rw [lowerFrom] at h
    have hsigma : c ≠ 'Σ' := by
      rintro rfl
      have hascii : (if meetsCased before && !meetsCased s then 'ς' else 'σ').toNat < 0x80 := by
        refine (hword _ ?_).1
        rw [← h, lowerAt, if_pos rfl]
        exact List.mem_cons_self
      split at hascii <;> exact absurd hascii (by decide)
    have hdotted : c ≠ '\u0130' := by
      rintro rfl
      have hascii : '\u0307'.toNat < 0x80 := by
        refine (hword _ ?_).1
        rw [← h, lowerAt, if_neg hsigma, if_pos rfl]
        simp
      exact absurd hascii (by decide)
    rw [lowerAt, if_neg hsigma, if_neg hdotted, List.singleton_append] at h
    subst h
    obtain ⟨hascii, hfold⟩ := hword _ List.mem_cons_self
    have hsame : sameLetter (lowerChar c) c = true := by
      rw [sameLetter, hfold, beq_iff_eq, foldChar]
      exact (if_pos hascii).symm
    rw [afterFold?, if_pos hsame]
    exact ih (fun w hw => hword w (List.mem_cons_of_mem _ hw)) rfl

end UserScripts.Text
