import Mathlib.Algebra.GroupWithZero.Nat
import UserScripts.Proofs.Text.Case

/-!
# The capital sigma

Only the capital sigma looks at the text around it when it is lower-cased, and only at whether the next character on either side carries
case, the ignorable ones aside. So a text has the same lower case behind another text as it has alone, except for a sigma that ends a
word at the very start of the text. Main statements: `lowerFrom_of_meetsCased` and `lower_trim_append_iff`.
-/

namespace UserScripts.Text

/-- Whether a character carries case. -/
def isCased (c : Char) : Bool :=
  inRanges casedRanges c.toNat

/-- Whether a character is looked through for the next one that carries case. -/
def isIgnorable (c : Char) : Bool :=
  inRanges caseIgnorableRanges c.toNat

/-- Whether a text begins, ignorable characters aside, with a capital sigma after which nothing carries case. -/
def startsFinal : List Char → Bool
  | [] => false
  | c :: s => if isIgnorable c then startsFinal s else c == 'Σ' && !meetsCased s

variable {c : Char} {s t before before' after after' : List Char}

theorem startsFinal_cons (c : Char) (s : List Char) :
    startsFinal (c :: s) = if isIgnorable c then startsFinal s else c == 'Σ' && !meetsCased s := rfl

theorem lowerFrom_cons (before : List Char) (c : Char) (s : List Char) :
    lowerFrom before (c :: s) = lowerAt before c s ++ lowerFrom (c :: before) s := rfl

theorem lowerAt_sigma (before after : List Char) :
    lowerAt before 'Σ' after = [if meetsCased before && !meetsCased after then 'ς' else 'σ'] := rfl

/-! ## The tables -/

/-- The code points of some ranges, as the bits of a number. -/
def bitsOf (ranges : List (Nat × Nat)) : Nat :=
  ranges.foldr (fun a bits => (2 ^ (a.2 + 1 - a.1) - 1) <<< a.1 ||| bits) 0

/-- The bits of a table of ranges tell its code points. -/
theorem testBit_bitsOf (ranges : List (Nat × Nat)) (n : Nat) : (bitsOf ranges).testBit n = inRanges ranges n := by
  induction ranges with
  | nil => exact Nat.zero_testBit n
  | cons a ranges ih =>
    have hcons : inRanges (a :: ranges) n = (decide (a.1 ≤ n ∧ n ≤ a.2) || inRanges ranges n) := by simp [inRanges]
    have hbits : ((2 ^ (a.2 + 1 - a.1) - 1) <<< a.1).testBit n = decide (a.1 ≤ n ∧ n ≤ a.2) := by
      rw [Nat.testBit_shiftLeft, Nat.testBit_two_pow_sub_one, ← Bool.decide_and]
      exact decide_eq_decide.mpr (by omega)
    rw [hcons, ← hbits, ← ih, bitsOf, List.foldr_cons, Nat.testBit_or, bitsOf]

/-- Whether the letters of a run carry case once they are moved `d` code points on. Most runs lie inside a range with all that is
between their letters, and are not looked at letter by letter. -/
def CaseRun.isCasedAt (r : CaseRun) (d : Int) : Bool :=
  let whole := bitsOf [(((r.first : Int) + d).toNat, ((r.last : Int) + d).toNat)]
  whole &&& bitsOf casedRanges == whole ||
    (List.range ((r.last - r.first) / r.step + 1)).all fun k => (bitsOf casedRanges).testBit ((r.first + k * r.step : Nat) + d : Int).toNat

/-- What the tables say. -/
@[mk_iff]
structure TableFacts : Prop where
  /-- No character that carries case is ignorable. -/
  disjoint : bitsOf casedRanges &&& bitsOf caseIgnorableRanges = 0
  /-- The letters of a run carry case, and so do their lower cases. -/
  runs : (caseRuns.all fun r => r.isCasedAt 0 && r.isCasedAt r.shift) = true
  /-- What carries case is a character. -/
  valid : ∀ a ∈ casedRanges, a.2 < 0xD800 ∨ 0xDFFF < a.1 ∧ a.2 < 0x110000
  blank : ∀ c ∈ blanks, (bitsOf caseIgnorableRanges ||| bitsOf casedRanges).testBit c.toNat = false
  /-- The letters that `lowerAt` names carry case. -/
  letter : ∀ c ∈ ['Σ', 'σ', 'ς', '\u0130', 'i'], isCased c = true
  colon : isIgnorable ':' = true

instance : Decidable TableFacts :=
  decidable_of_iff _ (Iff.symm tableFacts_iff)

/-- The tables of letters fit together as `TableFacts` says. -/
theorem tableFacts : TableFacts := by decide +kernel

/-- The table of cases begins with the letters of ASCII. -/
theorem head_caseRuns : caseRuns.head? = some ⟨0x41, 0x5A, 1, 32⟩ := rfl

/-- What carries case is not looked through. -/
theorem isIgnorable_of_isCased (h : isCased c = true) : isIgnorable c = false := by
  have hbit := congrArg (Nat.testBit · c.toNat) (TableFacts.disjoint tableFacts)
  simp only [Nat.testBit_and, testBit_bitsOf, Nat.zero_testBit] at hbit
  rw [isCased] at h
  rwa [h, Bool.true_and] at hbit

/-- A blank is not looked through and carries no case. -/
theorem isCased_of_blank (h : isBlank c = true) : isIgnorable c = false ∧ isCased c = false := by
  have hbit := TableFacts.blank tableFacts c (mem_blanks h)
  rw [Nat.testBit_or, testBit_bitsOf, testBit_bitsOf] at hbit
  exact Bool.or_eq_false_iff.mp hbit

/-- A letter of a run carries case once it is moved, if the check of the run says so. -/
theorem inRanges_of_isCasedAt {r : CaseRun} {n : Nat} {d : Int} (h : r.isCasedAt d = true) (hn : r.holds n = true) :
    inRanges casedRanges (n + d : Int).toNat = true := by
  simp only [CaseRun.holds, Bool.and_eq_true, decide_eq_true_eq, beq_iff_eq] at hn
  obtain ⟨⟨hfirst, hlast⟩, hstep⟩ := hn
  rw [CaseRun.isCasedAt, Bool.or_eq_true, beq_iff_eq] at h
  rw [← testBit_bitsOf]
  rcases h with hwhole | hletters
  · have hbit := congrArg (Nat.testBit · (n + d : Int).toNat) hwhole
    have hin : inRanges [(((r.first : Int) + d).toNat, ((r.last : Int) + d).toNat)] (n + d : Int).toNat = true := by
      simp only [inRanges, List.any_cons, List.any_nil, Bool.or_false, Bool.and_eq_true, decide_eq_true_eq]
      omega
    simpa only [Nat.testBit_and, testBit_bitsOf _ _, hin, Bool.true_and] using hbit
  · have hk : (n - r.first) / r.step < (r.last - r.first) / r.step + 1 := Nat.lt_succ_of_le (Nat.div_le_div_right (by omega))
    have hletter : r.first + (n - r.first) / r.step * r.step = n := by
      rw [Nat.div_mul_cancel (Nat.dvd_of_mod_eq_zero hstep)]
      omega
    have hbit := List.all_eq_true.mp hletters _ (List.mem_range.mpr hk)
    rwa [hletter] at hbit

/-- A number among those that carry case is that of a character that does. -/
theorem isCased_ofNat {n : Nat} (h : inRanges casedRanges n = true) : isCased (Char.ofNat n) = true := by
  obtain ⟨a, ha, hin⟩ := List.any_eq_true.mp h
  have hvalid : n.isValidChar := by
    have := TableFacts.valid tableFacts a ha
    simp only [Bool.and_eq_true, decide_eq_true_eq] at hin
    simp only [Nat.isValidChar]
    omega
  rw [isCased, Char.ofNat, dif_pos hvalid]
  exact h

/-- A letter of a run carries case, and so does its lower case. -/
theorem isCased_of_holds {r : CaseRun} (hr : r ∈ caseRuns) (h : r.holds c.toNat = true) :
    isCased c = true ∧ isCased (Char.ofNat ((c.toNat : Int) + r.shift).toNat) = true := by
  have hruns := List.all_eq_true.mp (TableFacts.runs tableFacts) r hr
  rw [Bool.and_eq_true] at hruns
  refine ⟨?_, isCased_ofNat (inRanges_of_isCasedAt hruns.2 h)⟩
  have hself := inRanges_of_isCasedAt hruns.1 h
  rwa [Int.add_zero, Int.toNat_natCast] at hself

/-- A letter that is not its own lower case carries case, and so does its lower case. -/
theorem lowerChar_cases (c : Char) : lowerChar c = c ∨ isCased c = true ∧ isCased (lowerChar c) = true := by
  by_cases hc : c.toNat < 0x80
  · rw [lowerChar_of_lt hc]
    split
    · next hcapital =>
      have hholds : (CaseRun.mk 0x41 0x5A 1 32).holds c.toNat = true := by simp [CaseRun.holds, hcapital, Nat.mod_one]
      have hshift : ((c.toNat : Int) + 32).toNat = c.toNat + 32 := by omega
      have hcased := isCased_of_holds (List.mem_of_mem_head? head_caseRuns) hholds
      rw [hshift] at hcased
      exact Or.inr hcased
    · exact Or.inl rfl
  · rw [lowerChar, if_neg hc]
    split
    · next r hr =>
      have hholds := List.find?_some hr
      exact Or.inr (isCased_of_holds (List.mem_of_find?_eq_some hr) hholds)
    · exact Or.inl rfl

/-! ## What carries case on either side -/

/-- The next character that carries case is looked for beyond ignorable ones. -/
theorem meetsCased_cons (c : Char) (s : List Char) :
    meetsCased (c :: s) = if isIgnorable c then meetsCased s else isCased c := by
  unfold meetsCased isIgnorable isCased
  rw [List.find?_cons]
  cases inRanges caseIgnorableRanges c.toNat <;> rfl

/-- An ignorable character makes no difference to whether case is met. -/
theorem meetsCased_cons_of_ignorable (h : isIgnorable c = true) (s : List Char) : meetsCased (c :: s) = meetsCased s := by
  rw [meetsCased_cons, if_pos h]

/-- A character that is not ignorable tells whether case is met. -/
theorem meetsCased_cons_of_not_ignorable (h : isIgnorable c = false) (s : List Char) : meetsCased (c :: s) = isCased c := by
  rw [meetsCased_cons, h, if_neg Bool.false_ne_true]

/-- A character that carries case is met. -/
theorem meetsCased_cons_of_cased (h : isCased c = true) (s : List Char) : meetsCased (c :: s) = true := by
  rw [meetsCased_cons_of_not_ignorable (isIgnorable_of_isCased h), h]

/-- Whether case is met beyond one more character depends on whether it is met without. -/
theorem meetsCased_cons_congr (h : meetsCased s = meetsCased t) (c : Char) : meetsCased (c :: s) = meetsCased (c :: t) := by
  rw [meetsCased_cons, meetsCased_cons, h]

/-- Whether case is met beyond further text depends on whether it is met without. -/
theorem meetsCased_append_congr (h : meetsCased s = meetsCased t) (u : List Char) : meetsCased (u ++ s) = meetsCased (u ++ t) := by
  induction u with
  | nil => exact h
  | cons c u ih => exact meetsCased_cons_congr ih c

/-- No case is met among blanks. -/
theorem meetsCased_of_blank (h : ∀ c ∈ s, isBlank c = true) : meetsCased s = false := by
  cases s with
  | nil => rfl
  | cons c s =>
    obtain ⟨hignorable, hcased⟩ := isCased_of_blank (h c List.mem_cons_self)
    rw [meetsCased_cons_of_not_ignorable hignorable, hcased]

/-! ## A text behind another one -/

/-- The lower case of a character depends on whether case is met before it and after it alone. -/
theorem lowerAt_congr (hb : meetsCased before = meetsCased before') (ha : meetsCased after = meetsCased after') (c : Char) :
    lowerAt before c after = lowerAt before' c after' := by
  rw [lowerAt, lowerAt, hb, ha]

/-- The lower case of a text depends on whether case is met before it alone. -/
theorem lowerFrom_congr (h : meetsCased before = meetsCased before') (s : List Char) : lowerFrom before s = lowerFrom before' s := by
  induction s generalizing before before' with
  | nil => rfl
  | cons c s ih => rw [lowerFrom_cons, lowerFrom_cons, lowerAt_congr h rfl c, ih (meetsCased_cons_congr h c)]

/-- An ignorable character has no lower case. -/
theorem lowerAt_of_ignorable (h : isIgnorable c = true) (before after : List Char) : lowerAt before c after = [c] := by
  have hcased : isCased c = false := by
    cases hcased : isCased c with
    | false => rfl
    | true => rw [isIgnorable_of_isCased hcased] at h; nomatch h
  have hletters : c ∉ ['Σ', 'σ', 'ς', '\u0130', 'i'] := fun hc => by
    rw [TableFacts.letter tableFacts c hc] at hcased
    nomatch hcased
  simp only [List.mem_cons, not_or] at hletters
  rw [lowerAt, if_neg hletters.1, if_neg hletters.2.2.2.1]
  rcases lowerChar_cases c with h | ⟨h, -⟩
  · rw [h]
  · rw [hcased] at h
    nomatch h

/-- Lower-casing changes nothing in what carries case. -/
theorem meetsCased_lowerFrom (before s : List Char) : meetsCased (lowerFrom before s) = meetsCased s := by
  induction s generalizing before with
  | nil => rfl
  | cons c s ih =>
    rw [lowerFrom_cons]
    cases hignorable : isIgnorable c with
    | true =>
      rw [lowerAt_of_ignorable hignorable, List.singleton_append, meetsCased_cons_of_ignorable hignorable,
        meetsCased_cons_of_ignorable hignorable, ih]
    | false =>
      rw [lowerAt, meetsCased_cons_of_not_ignorable hignorable]
      split
      · next hc =>
        subst hc
        rw [TableFacts.letter tableFacts 'Σ' (by simp)]
        split <;> exact meetsCased_cons_of_cased (TableFacts.letter tableFacts _ (by simp)) _
      · split
        · next hc =>
          subst hc
          rw [TableFacts.letter tableFacts '\u0130' (by simp)]
          exact meetsCased_cons_of_cased (TableFacts.letter tableFacts 'i' (by simp)) _
        · rw [List.singleton_append]
          rcases lowerChar_cases c with hself | ⟨hcased, hlower⟩
          · rw [hself, meetsCased_cons_of_not_ignorable hignorable]
          · rw [meetsCased_cons_of_cased hlower, hcased]

/-- The start of a text knows of the rest only whether it starts with case. -/
theorem exists_lowerFrom_append (before s t : List Char) :
    ∃ p, ∀ u, meetsCased u = meetsCased t → lowerFrom before (s ++ u) = p ++ lowerFrom (s.reverse ++ before) u := by
  induction s generalizing before with
  | nil => exact ⟨[], fun _ _ => rfl⟩
  | cons c s ih =>
    obtain ⟨p, hp⟩ := ih (c :: before)
    refine ⟨lowerAt before c (s ++ t) ++ p, fun u hu => ?_⟩
    rw [List.cons_append, lowerFrom_cons, hp u hu, lowerAt_congr rfl (meetsCased_append_congr hu s) c, List.append_assoc, List.reverse_cons,
      List.append_assoc, List.singleton_append]

/-- The first sigma that a text begins with takes its final form behind a text that ends with case; nothing else changes. -/
theorem lowerFrom_of_meetsCased (hb : meetsCased before = true) (hb' : meetsCased before' = false) (s : List Char) :
    lowerFrom before s = if startsFinal s then (lowerFrom before' s).replace 'σ' 'ς' else lowerFrom before' s := by
  induction s generalizing before before' with
  | nil => rfl
  | cons c s ih =>
    rw [lowerFrom_cons, lowerFrom_cons, startsFinal_cons]
    cases hignorable : isIgnorable c with
    | true =>
      have hc : 'σ' ≠ c := by
        rintro rfl
        rw [isIgnorable_of_isCased (TableFacts.letter tableFacts _ (by simp))] at hignorable
        nomatch hignorable
      have hskip := meetsCased_cons_of_ignorable hignorable
      rw [lowerAt_of_ignorable hignorable, lowerAt_of_ignorable hignorable, ih ((hskip _).trans hb) ((hskip _).trans hb'), if_pos rfl,
        List.singleton_append, List.singleton_append, List.replace_cons, beq_eq_false_iff_ne.mpr hc]
      split <;> rfl
    | false =>
      have hrest : lowerFrom (c :: before) s = lowerFrom (c :: before') s :=
        lowerFrom_congr (by rw [meetsCased_cons_of_not_ignorable hignorable, meetsCased_cons_of_not_ignorable hignorable]) s
      rw [hrest, if_neg Bool.false_ne_true]
      by_cases hc : c = 'Σ'
      · subst hc
        rw [lowerAt_sigma, lowerAt_sigma, hb, hb']
        cases meetsCased s <;> rfl
      · rw [lowerAt_of_ne hc before, lowerAt_of_ne hc before', beq_eq_false_iff_ne.mpr hc]
        rfl

/-- The lower case of a text that begins with a final sigma depends on whether case is met before it. -/
theorem lowerFrom_ne (hb : meetsCased before = true) (hb' : meetsCased before' = false) (h : startsFinal s = true) :
    lowerFrom before s ≠ lowerFrom before' s := by
  induction s generalizing before before' with
  | nil => nomatch h
  | cons c s ih =>
    rw [lowerFrom_cons, lowerFrom_cons]
    rw [startsFinal_cons] at h
    cases hignorable : isIgnorable c with
    | true =>
      rw [hignorable, if_pos rfl] at h
      have hskip := meetsCased_cons_of_ignorable hignorable
      rw [lowerAt_of_ignorable hignorable, lowerAt_of_ignorable hignorable]
      exact fun heq => ih ((hskip _).trans hb) ((hskip _).trans hb') h (List.cons.inj heq).2
    | false =>
      rw [hignorable, if_neg Bool.false_ne_true, Bool.and_eq_true, beq_iff_eq, Bool.not_eq_true'] at h
      obtain ⟨rfl, hafter⟩ := h
      rw [lowerAt_sigma, lowerAt_sigma, hb, hb', hafter]
      exact fun heq => absurd (List.cons.inj heq).1 (by decide)

/-- Texts with one lower case have one lower case behind a text as well, unless one of them begins with a sigma that takes its final
form there and the other does not. -/
theorem lowerFrom_eq_iff (h : lowerFrom [] s = lowerFrom [] t) :
    lowerFrom before s = lowerFrom before t ↔ (meetsCased before = true → startsFinal s = startsFinal t) := by
  have hnil : meetsCased [] = false := rfl
  cases hb : meetsCased before with
  | false =>
    refine iff_of_true ?_ fun hfalse => nomatch hfalse
    rw [lowerFrom_congr (hb.trans hnil.symm), lowerFrom_congr (hb.trans hnil.symm), h]
  | true =>
    have hs := lowerFrom_of_meetsCased hb hnil s
    have ht := lowerFrom_of_meetsCased hb hnil t
    refine ⟨fun heq _ => ?_, fun hfinal => ?_⟩
    · cases hfs : startsFinal s <;> cases hft : startsFinal t
      · rfl
      · rw [hfs, if_neg Bool.false_ne_true, h, heq] at hs
        exact absurd hs (lowerFrom_ne hb hnil hft)
      · rw [hft, if_neg Bool.false_ne_true, ← h, ← heq] at ht
        exact absurd ht (lowerFrom_ne hb hnil hfs)
      · rfl
    · rw [hs, ht, hfinal rfl, h]

/-! ## Blanks at the end -/

/-- Blanks at the end of a text are those at the end of its lower case. -/
theorem lowerFrom_append_blank {b : List Char} (hb : ∀ c ∈ b, isBlank c = true) (before s : List Char) :
    lowerFrom before (s ++ b) = lowerFrom before s ++ b := by
  have hblank : ∀ before, lowerFrom before b = b := by
    induction b with
    | nil => exact fun _ => rfl
    | cons c b ih =>
      intro before
      rw [lowerFrom_cons, lowerAt_of_blank (hb c List.mem_cons_self), ih fun d hd => hb d (List.mem_cons_of_mem _ hd)]
      rfl
  obtain ⟨p, hp⟩ := exists_lowerFrom_append before s []
  rw [hp b (meetsCased_of_blank hb), hblank]
  have hnil := hp [] rfl
  rw [List.append_nil] at hnil
  rw [hnil, lowerFrom, List.append_nil]

/-- Blanks at the end make no difference to a final sigma at the start. -/
theorem startsFinal_append_blank {b : List Char} (hb : ∀ c ∈ b, isBlank c = true) (s : List Char) :
    startsFinal (s ++ b) = startsFinal s := by
  induction s with
  | nil =>
    cases b with
    | nil => rfl
    | cons c b =>
      have hc := hb c List.mem_cons_self
      have hne : c ≠ 'Σ' := by rintro rfl; exact absurd hc (by decide)
      rw [List.nil_append, startsFinal_cons, (isCased_of_blank hc).1, if_neg Bool.false_ne_true, beq_eq_false_iff_ne.mpr hne]
      rfl
  | cons c s ih =>
    have hmeets : meetsCased (s ++ b) = meetsCased s := by
      have := meetsCased_append_congr (s := b) (t := []) (meetsCased_of_blank hb) s
      rwa [List.append_nil] at this
    rw [List.cons_append, startsFinal_cons, startsFinal_cons, ih, hmeets]

/-- Blanks that are dropped at the end make no difference to a final sigma at the start. -/
theorem startsFinal_dropEndBlank (s : List Char) : startsFinal (dropEndBlank s) = startsFinal s := by
  have hs : dropEndBlank s ++ s.rtakeWhile isBlank = s := List.rdropWhile_append_rtakeWhile
  conv_rhs => rw [← hs, startsFinal_append_blank fun c hc => List.mem_rtakeWhile_imp hc]

/-- What is no blank ends with what is no blank in lower case. -/
theorem exists_lowerAt_eq_concat (h : isBlank c = false) (before after : List Char) :
    ∃ q d, lowerAt before c after = q ++ [d] ∧ isBlank d = false := by
  rw [lowerAt]
  split
  · exact ⟨[], _, rfl, by split <;> rfl⟩
  · split
    · exact ⟨['i'], '\u0307', rfl, rfl⟩
    · refine ⟨[], lowerChar c, rfl, ?_⟩
      rcases lowerChar_cases c with hself | ⟨-, hcased⟩
      · rw [hself, h]
      · rw [← Bool.not_eq_true]
        intro hblank
        rw [(isCased_of_blank hblank).2] at hcased
        cases hcased

/-- A text loses the same blanks before and after it is lower-cased. -/
theorem dropEndBlank_lowerFrom (before s : List Char) : dropEndBlank (lowerFrom before s) = lowerFrom before (dropEndBlank s) := by
  induction s using List.reverseRecOn with
  | nil => rfl
  | append_singleton s c ih =>
    cases hc : isBlank c with
    | true =>
      rw [lowerFrom_append_blank (by simpa using hc), dropEndBlank_eq, dropEndBlank_eq, List.rdropWhile_concat_pos _ _ _ hc,
        List.rdropWhile_concat_pos _ _ _ hc]
      exact ih
    | false =>
      obtain ⟨p, hp⟩ := exists_lowerFrom_append before s [c]
      obtain ⟨q, d, hq, hd⟩ := exists_lowerAt_eq_concat hc (s.reverse ++ before) []
      rw [dropEndBlank_eq, dropEndBlank_eq, List.rdropWhile_concat_neg _ _ _ (by simp [hc]), hp [c] rfl, lowerFrom_cons, hq, lowerFrom,
        List.append_nil, ← List.append_assoc, List.rdropWhile_concat_neg _ _ _ (by simp [hd])]

/-! ## A text behind a name -/

/-- Blanks that are dropped at the start make no difference to whether case is met from the end on. -/
theorem meetsCased_reverse_dropBlank (s : List Char) : meetsCased (dropBlank s).reverse = meetsCased s.reverse := by
  obtain ⟨b, hs, hb⟩ := exists_blank_append_dropBlank s
  have hblank : meetsCased b.reverse = meetsCased [] := meetsCased_of_blank fun c hc => hb c (List.mem_reverse.mp hc)
  have hcongr := meetsCased_append_congr hblank (dropBlank s).reverse
  rw [List.append_nil, ← List.reverse_append, ← hs] at hcongr
  exact hcongr.symm

/-- A key of two names around a colon is trimmed at its two ends. -/
theorem toList_trim_append (t a : String) :
    (trim (t ++ ":" ++ a)).toList = dropBlank t.toList ++ [':'] ++ dropEndBlank a.toList := by
  have htext : (t ++ ":" ++ a).toList = t.toList ++ ':' :: a.toList := by simp
  rw [trim, String.toList_ofList, htext, dropBlank_append_cons rfl, dropEndBlank_append_cons rfl, List.append_assoc, List.singleton_append]

/-- Behind a name and a colon, two texts that are equal but for case stay equal but for case, unless one of them begins with a sigma that
ends a word there and the other does not. -/
theorem lower_trim_append_iff {a b : String} (h : lower a = lower b) (t : String) :
    lower (trim (t ++ ":" ++ a)) = lower (trim (t ++ ":" ++ b)) ↔
      (meetsCased t.toList.reverse = true → startsFinal a.toList = startsFinal b.toList) := by
  have hfrom : lowerFrom [] a.toList = lowerFrom [] b.toList := String.ofList_injective h
  have hend : lowerFrom [] (dropEndBlank a.toList) = lowerFrom [] (dropEndBlank b.toList) := by
    rw [← dropEndBlank_lowerFrom, ← dropEndBlank_lowerFrom, hfrom]
  have hmeets : meetsCased (dropEndBlank a.toList) = meetsCased (dropEndBlank b.toList) := by
    rw [← meetsCased_lowerFrom [], hend, meetsCased_lowerFrom]
  obtain ⟨p, hp⟩ := exists_lowerFrom_append [] (dropBlank t.toList ++ [':']) (dropEndBlank b.toList)
  have hbefore : meetsCased ((dropBlank t.toList ++ [':']).reverse ++ []) = meetsCased t.toList.reverse := by
    rw [List.append_nil, List.reverse_append, List.reverse_singleton, List.singleton_append,
      meetsCased_cons_of_ignorable (TableFacts.colon tableFacts), meetsCased_reverse_dropBlank]
  rw [lower, lower, toList_trim_append, toList_trim_append, hp _ hmeets, hp _ rfl, String.ofList_inj, List.append_cancel_left_eq,
    lowerFrom_eq_iff hend, hbefore, startsFinal_dropEndBlank, startsFinal_dropEndBlank]

end UserScripts.Text
