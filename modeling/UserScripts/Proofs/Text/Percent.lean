import Mathlib.Algebra.GroupWithZero.Nat
import UserScripts.Proofs.Text.Case
import UserScripts.Text.Percent

/-!
# Facts about percent encoding

Decoding can lose characters but gains none that is counted along with the percent sign, since every byte that is not written as
a character is written with a percent sign. Main statements: `countP_percentDecode_le`, `percentDecode_eq_nil` and
`percentDecode_append_cons`.
-/

namespace UserScripts.Text

/-! ## Pending characters -/

/-- A pending character goes on with bytes beyond ASCII only, and the character that it becomes lies beyond ASCII. -/
def Pending.High (pending : Option Pending) : Prop :=
  ∀ x ∈ pending, 0x80 ≤ x.low ∧ 2 ≤ 64 * x.bits + (x.low - 0x80) ∧ (x.missing ≤ 1 → 0x80 ≤ 64 * x.bits + (x.low - 0x80))

/-- The character that a first byte begins lies beyond ASCII. -/
theorem high_firstByte (b : Nat) : Pending.High (firstByte b).2 := by
  intro x hx
  unfold firstByte at hx
  split_ifs at hx with _ h₂ h₃ _ _ h₄ <;> simp only [Option.mem_def, Option.some.injEq, reduceCtorEq] at hx <;> subst hx <;>
    simp_all <;> omega

/-- A pending character stays one beyond ASCII with every unit. -/
theorem high_readUnit {pending : Option Pending} (hp : Pending.High pending) (u : Unit8) :
    Pending.High (readUnit pending u).2 := by
  cases u with
  | char c => exact fun x hx => nomatch hx
  | byte b =>
    cases pending with
    | none => exact high_firstByte b
    | some x =>
      obtain ⟨hlow, hbits, -⟩ := hp x rfl
      unfold readUnit
      dsimp only
      split_ifs with hin hlast
      · exact fun x hx => nomatch hx
      · intro y hy
        obtain rfl := Option.some.inj hy
        simp only [Bool.and_eq_true, decide_eq_true_eq] at hin
        refine ⟨Nat.le_refl _, ?_, fun _ => ?_⟩ <;> dsimp only <;> omega
      · exact high_firstByte b

/-- A first byte of ASCII is a character. -/
theorem firstByte_of_lt {b : Nat} (h : b < 0x80) : firstByte b = ([Char.ofNat b], none) := by
  rw [firstByte, if_pos h]

/-- A first byte beyond ASCII gives no character of its own. -/
theorem firstByte_of_le {b : Nat} (h : 0x80 ≤ b) : (firstByte b).1 = [] ∨ (firstByte b).1 = [replacement] := by
  rw [firstByte, if_neg (by omega)]
  split
  · exact Or.inl rfl
  · split
    · exact Or.inl rfl
    · split
      · exact Or.inl rfl
      · exact Or.inr rfl

/-! ## Counting -/

section

variable {p : Char → Bool}

/-- How many of the characters that are counted a unit can add. -/
def weight (p : Char → Bool) : Unit8 → Nat
  | .byte b => if b < 0x80 then [Char.ofNat b].countP p else 0
  | .char c => [c].countP p

/-- A byte adds one of the counted characters at most. -/
theorem weight_byte_le (b : Nat) : weight p (.byte b) ≤ 1 := by
  rw [weight]
  split
  · exact List.countP_le_length
  · exact Nat.zero_le 1

/-- A character adds itself if it is counted. -/
theorem weight_ofChar (c : Char) : weight p (.ofChar c) = [c].countP p := by
  rw [Unit8.ofChar]
  split
  · next h => rw [weight, if_pos h, Char.ofNat_toNat]
  · rfl

/-- A percent sign without two hexadecimal digits after it stands for itself. -/
theorem percentUnits_of_not_escape {a b : Char} {s : List Char}
    (h : ∀ x y, hexDigit? a = some x → hexDigit? b = some y → False) :
    percentUnits ('%' :: a :: b :: s) = .ofChar '%' :: percentUnits (a :: b :: s) := by
  rw [percentUnits.eq_3]
  split
  · next x y hx hy => exact absurd hy (h x y hx)
  · rfl

/-- Reading escapes adds none of the counted characters. -/
theorem sum_weight_percentUnits_le (hpercent : p '%' = true) (s : List Char) :
    ((percentUnits s).map (weight p)).sum ≤ s.countP p := by
  induction s using percentUnits.induct with
  | case1 => simp [percentUnits]
  | case2 c =>
    rw [percentUnits, show (.byte 0x25 : Unit8) = .ofChar '%' from rfl]
    simp [weight_ofChar, List.countP_cons]
    omega
  | case3 a b s x y hb ha ih =>
    have hbyte := weight_byte_le (p := p) (16 * x + y)
    rw [percentUnits.eq_3, hb, ha]
    simp only [List.map_cons, List.sum_cons, List.countP_cons, hpercent, if_true]
    omega
  | case4 a b s hab ih =>
    rw [percentUnits_of_not_escape hab, List.map_cons, List.sum_cons, weight_ofChar,
      show '%' :: a :: b :: s = ['%'] ++ a :: b :: s from rfl, List.countP_append]
    omega
  | case5 c s h₁ h₂ ih =>
    rw [percentUnits.eq_4 c s h₁ h₂, List.map_cons, List.sum_cons, weight_ofChar, show c :: s = [c] ++ s from rfl,
      List.countP_append]
    omega

variable (hp : ∀ c, p c = true → isMark c = true)

include hp

/-- What is counted lies within ASCII. -/
theorem countP_beyond {n : Nat} (h : 0x80 ≤ n) : p (Char.ofNat n) = false := by
  by_contra hmark
  have hm := hp _ (by simpa using hmark)
  rcases toNat_ofNat_cases n with hn | hn
  · simp only [isMark, hn, Bool.and_eq_true, decide_eq_true_eq] at hm
    omega
  · rw [hn] at hm
    exact absurd hm (by decide)

/-- The replacement is not counted. -/
theorem countP_replacement (s : List Char) : (replacement :: s).countP p = s.countP p := by
  rw [List.countP_cons, if_neg, Nat.add_zero]
  intro h
  exact absurd (hp _ h) (by decide)

/-- A pending character that is cut short adds none of the counted characters. -/
theorem countP_cutShort (pending : Option Pending) : (cutShort pending).countP p = 0 := by
  cases pending with
  | none => rfl
  | some x => exact countP_replacement hp []

/-- A first byte adds no more than its weight. -/
theorem countP_firstByte_le (b : Nat) : (firstByte b).1.countP p ≤ weight p (.byte b) := by
  by_cases h : b < 0x80
  · rw [firstByte_of_lt h, weight, if_pos h]
  · rcases firstByte_of_le (b := b) (by omega) with hb | hb
    · rw [hb]
      exact Nat.zero_le _
    · rw [hb, countP_replacement hp]
      exact Nat.zero_le _

/-- Reading a unit adds no more than the weight of the unit. -/
theorem countP_readUnit_le {pending : Option Pending} (hpending : Pending.High pending) (u : Unit8) :
    (readUnit pending u).1.countP p ≤ weight p u := by
  cases u with
  | char c =>
    rw [readUnit, List.countP_append, countP_cutShort hp, weight]
    omega
  | byte b =>
    cases pending with
    | none => exact countP_firstByte_le hp b
    | some x =>
      obtain ⟨hlow, -, hend⟩ := hpending x rfl
      unfold readUnit
      dsimp only
      split_ifs with hin hlast
      · simp only [Bool.and_eq_true, decide_eq_true_eq] at hin
        have hbits := hend hlast
        rw [List.countP_singleton, countP_beyond hp (by omega)]
        exact Nat.zero_le _
      · exact Nat.zero_le _
      · rw [countP_replacement hp]
        exact countP_firstByte_le hp b

/-- The text of units has no more of the counted characters than their weights add up to. -/
theorem countP_unitsText_le {pending : Option Pending} (hpending : Pending.High pending) (units : List Unit8) :
    (unitsText pending units).countP p ≤ (units.map (weight p)).sum := by
  induction units generalizing pending with
  | nil =>
    rw [unitsText, countP_cutShort hp]
    exact Nat.zero_le _
  | cons u units ih =>
    have hunit := countP_readUnit_le hp hpending u
    have hrest := ih (high_readUnit hpending u)
    rw [unitsText, List.countP_append, List.map_cons, List.sum_cons]
    omega

/-- Decoding gains no mark that is counted along with the percent sign. -/
theorem countP_percentDecode_le (hpercent : p '%' = true) (s : List Char) : (percentDecode s).countP p ≤ s.countP p := by
  have hnone : Pending.High none := fun x hx => nomatch hx
  exact Nat.le_trans (countP_unitsText_le hp hnone (percentUnits s)) (sum_weight_percentUnits_le hpercent s)

/-! ## Escapes -/

omit hp in
/-- Whether a percent sign of a text has two hexadecimal digits after it. -/
def hasEscape : List Char → Bool
  | '%' :: a :: b :: s => ((hexDigit? a).isSome && (hexDigit? b).isSome) || hasEscape (a :: b :: s)
  | _ :: s => hasEscape s
  | [] => false

omit hp in
/-- The hexadecimal digits up to seven are digits. -/
theorem isDigit_of_hexDigit? {c : Char} {x : Nat} (h : hexDigit? c = some x) (hx : x ≤ 7) : c.isDigit = true := by
  have hle : ∀ a b : Char, a ≤ b ↔ a.toNat ≤ b.toNat := fun a b => UInt32.le_iff_toNat_le
  unfold hexDigit? at h
  split_ifs at h with h₁ h₂ h₃
  · simp only [Bool.and_eq_true, decide_eq_true_eq] at h₁
    simp only [Char.isDigit, Bool.and_eq_true, decide_eq_true_eq]
    exact h₁
  · simp only [Bool.and_eq_true, decide_eq_true_eq, hle] at h₂
    have h97 : 'a'.toNat = 97 := rfl
    have := Option.some.inj h
    omega
  · simp only [Bool.and_eq_true, decide_eq_true_eq, hle] at h₃
    have h65 : 'A'.toNat = 65 := rfl
    have := Option.some.inj h
    omega

omit hp in
/-- An escape that does not begin with the first character stands in the rest. -/
theorem hasEscape_cons_of_ne {c : Char} {s : List Char} (h : ∀ a b v, c = '%' → s = a :: b :: v → False) :
    hasEscape (c :: s) = hasEscape s := by
  rw [hasEscape.eq_def]
  split
  · next a b v heq =>
    obtain ⟨rfl, rfl⟩ := List.cons.inj heq
    exact (h a b v rfl rfl).elim
  · next heq =>
    obtain ⟨-, rfl⟩ := List.cons.inj heq
    rfl
  · next heq => nomatch heq

omit hp in
/-- An escape has more of the characters that are counted than the byte that it stands for. -/
theorem sum_weight_percentUnits_lt (hpercent : p '%' = true) (hdigit : ∀ c, c.isDigit = true → p c = true) {s : List Char}
    (h : hasEscape s = true) : ((percentUnits s).map (weight p)).sum < s.countP p := by
  induction s using percentUnits.induct with
  | case1 => nomatch h
  | case2 c => simp [hasEscape] at h
  | case3 a b s x y hb ha ih =>
    have hrest := sum_weight_percentUnits_le hpercent s
    have hbyte := weight_byte_le (p := p) (16 * x + y)
    rw [percentUnits.eq_3, hb, ha]
    simp only [List.map_cons, List.sum_cons, List.countP_cons, hpercent, if_true]
    by_cases hx : x ≤ 7
    · rw [if_pos (hdigit a (isDigit_of_hexDigit? ha hx))]
      omega
    · have hzero : weight p (.byte (16 * x + y)) = 0 := if_neg (by omega)
      omega
  | case4 a b s hab ih =>
    have hescape : hasEscape (a :: b :: s) = true := by
      rw [hasEscape, Bool.or_eq_true, Bool.and_eq_true, Option.isSome_iff_exists, Option.isSome_iff_exists] at h
      rcases h with ⟨⟨x, hx⟩, y, hy⟩ | h
      · exact (hab x y hx hy).elim
      · exact h
    have hlt := ih hescape
    rw [percentUnits_of_not_escape hab, List.map_cons, List.sum_cons, weight_ofChar,
      show '%' :: a :: b :: s = ['%'] ++ a :: b :: s from rfl, List.countP_append]
    omega
  | case5 c s h₁ h₂ ih =>
    rw [hasEscape_cons_of_ne h₂] at h
    have hlt := ih h
    rw [percentUnits.eq_4 c s h₁ h₂, List.map_cons, List.sum_cons, weight_ofChar, show c :: s = [c] ++ s from rfl,
      List.countP_append]
    omega

/-- Decoding a text with an escape loses a mark that is counted, if the digits are counted along with the percent sign. -/
theorem countP_percentDecode_lt (hpercent : p '%' = true) (hdigit : ∀ c, c.isDigit = true → p c = true) {s : List Char}
    (h : hasEscape s = true) : (percentDecode s).countP p < s.countP p := by
  have hnone : Pending.High none := fun x hx => nomatch hx
  exact Nat.lt_of_le_of_lt (countP_unitsText_le hp hnone (percentUnits s)) (sum_weight_percentUnits_lt hpercent hdigit h)

end

/-! ## Texts without escapes -/

/-- A text with an escape has a percent sign. -/
theorem percent_of_hasEscape {s : List Char} (h : hasEscape s = true) : '%' ∈ s := by
  induction s with
  | nil => nomatch h
  | cons c s ih =>
    by_cases hc : c = '%'
    · rw [hc]
      exact List.mem_cons_self
    · rw [hasEscape_cons_of_ne (fun _ _ _ heq _ => hc heq)] at h
      exact List.mem_cons_of_mem _ (ih h)

/-- A text without escapes is read character by character. -/
theorem percentUnits_eq_map {s : List Char} (h : hasEscape s = false) : percentUnits s = s.map .ofChar := by
  induction s using percentUnits.induct with
  | case1 => rfl
  | case2 c => rfl
  | case3 a b s x y hb ha ih => simp [hasEscape, ha, hb] at h
  | case4 a b s hab ih =>
    rw [hasEscape, Bool.or_eq_false_iff] at h
    rw [percentUnits_of_not_escape hab, ih h.2]
    rfl
  | case5 c s h₁ h₂ ih =>
    rw [hasEscape_cons_of_ne h₂] at h
    rw [percentUnits.eq_4 c s h₁ h₂, ih h]
    rfl

/-- A character is its own text if nothing is pending. -/
theorem readUnit_ofChar (c : Char) : readUnit none (.ofChar c) = ([c], none) := by
  rw [Unit8.ofChar]
  split
  · next h => rw [readUnit, firstByte_of_lt h, Char.ofNat_toNat]
  · rfl

/-- A text without escapes stands for itself. -/
theorem percentDecode_eq_self {s : List Char} (h : hasEscape s = false) : percentDecode s = s := by
  rw [percentDecode, percentUnits_eq_map h]
  clear h
  induction s with
  | nil => rfl
  | cons c s ih => rw [List.map_cons, unitsText, readUnit_ofChar, ih, List.singleton_append]

/-! ## Empty texts -/

/-- Every unit is written or pending. -/
theorem readUnit_ne (pending : Option Pending) (u : Unit8) : readUnit pending u ≠ ([], none) := by
  have hfirst : ∀ b, firstByte b ≠ ([], none) := by
    intro b h
    unfold firstByte at h
    split_ifs at h <;> simp at h
  intro h
  cases u with
  | char c => simp [readUnit] at h
  | byte b =>
    cases pending with
    | none => exact hfirst b h
    | some x =>
      unfold readUnit at h
      dsimp only at h
      split_ifs at h <;> simp at h

/-- Units without text are none at all, and nothing is pending. -/
theorem unitsText_eq_nil {pending : Option Pending} {units : List Unit8} (h : unitsText pending units = []) :
    pending = none ∧ units = [] := by
  induction units generalizing pending with
  | nil =>
    cases pending with
    | none => exact ⟨rfl, rfl⟩
    | some x => simp [unitsText, cutShort] at h
  | cons u units ih =>
    rw [unitsText, List.append_eq_nil_iff] at h
    obtain ⟨hnone, -⟩ := ih h.2
    exact absurd (Prod.ext h.1 hnone) (readUnit_ne pending u)

/-- Only the empty text is decoded to nothing. -/
theorem percentDecode_eq_nil {s : List Char} (h : percentDecode s = []) : s = [] := by
  obtain ⟨-, hunits⟩ := unitsText_eq_nil h
  cases s with
  | nil => rfl
  | cons c s =>
    unfold percentUnits at hunits
    split at hunits
    · next heq => nomatch heq
    · nomatch hunits
    · split at hunits <;> nomatch hunits
    · nomatch hunits

/-! ## Texts in pieces -/

section

variable {m : Char} (hhex : hexDigit? m = none) (hpercent : m ≠ '%')

include hpercent

/-- A character that is no percent sign stands for itself. -/
theorem percentUnits_cons_of_ne (s : List Char) : percentUnits (m :: s) = .ofChar m :: percentUnits s :=
  percentUnits.eq_4 m s (fun _ h _ => hpercent h) fun _ _ _ h _ => hpercent h

include hhex

/-- A character that is no digit of an escape leaves the one before it as it is. -/
theorem percentUnits_cons_cons (c : Char) (s : List Char) : percentUnits (c :: m :: s) = .ofChar c :: percentUnits (m :: s) := by
  by_cases hc : c = '%'
  · subst hc
    cases s with
    | nil => rw [percentUnits.eq_2, percentUnits_cons_of_ne hpercent]; rfl
    | cons d s => exact percentUnits_of_not_escape fun x y hx _ => by rw [hhex] at hx; cases hx
  · exact percentUnits_cons_of_ne hc (m :: s)

/-- A text can be cut before a character that is no digit of an escape. -/
theorem percentUnits_append_cons (s t : List Char) : percentUnits (s ++ m :: t) = percentUnits s ++ percentUnits (m :: t) := by
  induction s using percentUnits.induct with
  | case1 => rfl
  | case2 c =>
    rw [List.cons_append, List.cons_append, List.nil_append]
    have hnone : ∀ x y, hexDigit? c = some x → hexDigit? m = some y → False := fun x y _ hy => by rw [hhex] at hy; cases hy
    rw [percentUnits_of_not_escape hnone, percentUnits_cons_cons hhex hpercent]
    rfl
  | case3 a b s x y hb ha ih =>
    simp only [List.cons_append]
    rw [percentUnits.eq_3, percentUnits.eq_3, ha, hb, ih]
    rfl
  | case4 a b s hab ih =>
    simp only [List.cons_append]
    rw [percentUnits_of_not_escape hab, percentUnits_of_not_escape hab]
    exact congrArg (_ :: ·) ih
  | case5 c s h₁ h₂ ih =>
    by_cases hc : c = '%'
    · have hs : s = [] := by
        rcases s with _ | ⟨a, _ | ⟨b, s⟩⟩
        · rfl
        · exact (h₁ a hc rfl).elim
        · exact (h₂ a b s hc rfl).elim
      rw [hs, List.cons_append, List.nil_append, percentUnits_cons_cons hhex hpercent, hc]
      rfl
    · rw [List.cons_append, percentUnits_cons_of_ne hc, percentUnits_cons_of_ne hc, ih]
      rfl

omit hhex hpercent in
/-- A character of ASCII starts anew, whatever is pending. -/
theorem unitsText_append_byte {n : Nat} (hn : n < 0x80) {pending : Option Pending} (hpending : Pending.High pending)
    (units more : List Unit8) :
    unitsText pending (units ++ .byte n :: more) = unitsText pending units ++ Char.ofNat n :: unitsText none more := by
  induction units generalizing pending with
  | nil =>
    have hread : readUnit pending (.byte n) = (cutShort pending ++ [Char.ofNat n], none) := by
      cases pending with
      | none => exact firstByte_of_lt hn
      | some x =>
        have hlow := (hpending x rfl).1
        unfold readUnit
        dsimp only
        rw [if_neg (by simp; omega), firstByte_of_lt hn]
        rfl
    rw [List.nil_append, unitsText.eq_2, hread, List.append_assoc]
    rfl
  | cons u units ih => rw [List.cons_append, unitsText, unitsText, ih (high_readUnit hpending u), List.append_assoc]

/-- A text can be decoded in two pieces if a character of ASCII stands between them that is no digit of an escape. -/
theorem percentDecode_append_cons (hascii : m.toNat < 0x80) (s t : List Char) :
    percentDecode (s ++ m :: t) = percentDecode s ++ m :: percentDecode t := by
  have hnone : Pending.High none := fun x hx => nomatch hx
  have hunit : Unit8.ofChar m = .byte m.toNat := if_pos hascii
  rw [percentDecode, percentUnits_append_cons hhex hpercent, percentUnits_cons_of_ne hpercent, hunit,
    unitsText_append_byte hascii hnone, Char.ofNat_toNat]
  rfl

end

end UserScripts.Text
