import Mathlib.Data.List.DropRight
import UserScripts.Entry.Statement
import UserScripts.Proofs.Statement.Address
import UserScripts.Proofs.Text.Escape
import UserScripts.Proofs.Text.Scan

/-!
# How the grammar reads a written literal

The grammar of statements does not know about escapes: a literal ends at the first quote of its kind after which the call can
end, and the blanks around it are dropped. `readBack` is the text that comes back when a text is written into a single-quoted
literal and read by that grammar. Main statements: `literal?_toLiteral`,
`readBack_of_closesEarly` and `readBack_of_not_closesEarly`.
-/

namespace UserScripts

open UserScripts.Text

namespace Statement

/-! ## What is read back -/

/-- The blanks that stand in a literal as they are. -/
def isSpace (c : Char) : Bool :=
  isBlank c && isLiteralPlain c

/-- A text without the blanks at its start that a literal keeps as they are. -/
def dropSpace (s : List Char) : List Char :=
  s.dropWhile isSpace

/-- What follows a media type, a double quote and the parenthesis that closes the call. -/
def afterType? (s : List Char) : Option (List Char) :=
  mediaTypes.findSome? fun name => do
    let s ← after? name.toList (dropSpace s)
    let s ← after? ['"'] (dropSpace s)
    after? [')'] (dropSpace s)

/-- Whether a media type between double quotes and the parenthesis that closes the call are ahead. -/
def namesType (s : List Char) : Bool :=
  match dropSpace s with
  | '"' :: rest => (afterType? rest).isSome
  | _ => false

/-- Whether a load call can end with the given text once its literal is closed. -/
def canEnd (s : List Char) : Bool :=
  match dropSpace s with
  | ')' :: _ => true
  | ',' :: rest => namesType rest
  | _ => false

/-- Whether a text holds a quote after which the call that it is written into can end. -/
def ClosesEarly (s : List Char) : Prop :=
  ∃ a b, s = a ++ '\'' :: b ∧ canEnd b = true

/-- The text before the first quote after which a call can end. -/
def cutEarly? : List Char → Option (List Char)
  | [] => none
  | c :: s => if c = '\'' && canEnd s then some [] else (cutEarly? s).map (c :: ·)

/-- A text without the spaces around it, but for the last of them if there is nothing else. -/
def strip (s : List Char) : List Char :=
  if dropSpace s = [] then s.getLast?.toList else (dropSpace s).rdropWhile isSpace

/-- What is read from the literal for a text. -/
def readBack (s : List Char) : List Char :=
  match cutEarly? (dropSpace s) with
  | some a => a ++ ['\\']
  | none => strip s

/-- No text is cut exactly if no quote in it closes it early. -/
theorem cutEarly?_eq_none {s : List Char} : cutEarly? s = none ↔ ¬ ClosesEarly s := by
  induction s with
  | nil => simp [cutEarly?, ClosesEarly]
  | cons c s ih =>
    rw [cutEarly?]
    by_cases hc : (c = '\'' && canEnd s) = true
    · rw [if_pos hc]
      simp only [Bool.and_eq_true, decide_eq_true_eq] at hc
      simp only [reduceCtorEq, false_iff, not_not]
      exact ⟨[], s, by rw [hc.1, List.nil_append], hc.2⟩
    · rw [if_neg hc, Option.map_eq_none_iff, ih, not_iff_not]
      refine ⟨fun ⟨a, b, hs, hb⟩ => ⟨c :: a, b, by rw [hs, List.cons_append], hb⟩, ?_⟩
      rintro ⟨a, b, hs, hb⟩
      cases a with
      | nil =>
        obtain ⟨rfl, rfl⟩ := List.cons.inj hs
        exact absurd hb (by simpa using hc)
      | cons d a =>
        obtain ⟨rfl, rfl⟩ := List.cons.inj hs
        exact ⟨a, b, rfl, hb⟩

/-- The text is cut at the first quote after which the call can end. -/
theorem cutEarly?_eq_some {s a : List Char} (h : cutEarly? s = some a) :
    ∃ b, s = a ++ '\'' :: b ∧ canEnd b = true ∧ ∀ a' b', s = a' ++ '\'' :: b' → canEnd b' = true → a <+: a' := by
  induction s generalizing a with
  | nil => nomatch h
  | cons c s ih =>
    rw [cutEarly?] at h
    by_cases hc : (c = '\'' && canEnd s) = true
    · rw [if_pos hc] at h
      obtain rfl := Option.some.inj h
      simp only [Bool.and_eq_true, decide_eq_true_eq] at hc
      exact ⟨s, by rw [hc.1, List.nil_append], hc.2, fun a' _ _ _ => List.nil_prefix⟩
    · rw [if_neg hc, Option.map_eq_some_iff] at h
      obtain ⟨a, ha, rfl⟩ := h
      obtain ⟨b, hs, hb, hfirst⟩ := ih ha
      refine ⟨b, by rw [hs, List.cons_append], hb, ?_⟩
      intro a' b' hs' hb'
      cases a' with
      | nil =>
        obtain ⟨rfl, rfl⟩ := List.cons.inj hs'
        exact absurd hb' (by simpa using hc)
      | cons d a' =>
        obtain ⟨rfl, heq⟩ := List.cons.inj hs'
        exact List.cons_prefix_cons.mpr ⟨rfl, hfirst a' b' heq hb'⟩

/-! ## Reading what is written -/

/-- A space is a blank that a literal keeps as it is. -/
theorem isSpace_iff {c : Char} : isSpace c = true ↔ isBlank c = true ∧ isLiteralPlain c = true := by
  rw [isSpace, Bool.and_eq_true]

/-- What follows the leading spaces does not start with a space. -/
theorem isSpace_head_dropSpace {s rest : List Char} {c : Char} (h : dropSpace s = c :: rest) : isSpace c = false := by
  have hs : s.dropWhile isSpace = c :: rest := h
  have hd := List.head_dropWhile_not isSpace (l := s) (by simp [hs])
  simpa [hs] using hd

/-- A character that is not written as itself is written with a backslash first. -/
theorem literalChar_eq_cons {c : Char} (h : isLiteralPlain c ≠ true) :
    ∃ d rest, literalChar c = '\\' :: d :: rest ∧ (d = '\'' ↔ c = '\'') ∧ (d = '\'' → rest = []) ∧
      (∀ x ∈ rest, x ≠ '\'') ∧ ∀ x ∈ d :: rest, isBlank x = false := by
  rcases not_isLiteralPlain h with rfl | rfl | rfl | rfl | rfl | rfl
  · exact ⟨'\\', [], rfl, by decide⟩
  · exact ⟨'\'', [], rfl, by decide⟩
  · exact ⟨'n', [], rfl, by decide⟩
  · exact ⟨'r', [], rfl, by decide⟩
  · exact ⟨'u', ['2', '0', '2', '8'], rfl, by decide⟩
  · exact ⟨'u', ['2', '0', '2', '9'], rfl, by decide⟩

/-- Only spaces are skipped in written text. -/
theorem dropBlank_toLiteral (s t : List Char) :
    dropBlank (toLiteral s ++ '\'' :: t) = toLiteral (dropSpace s) ++ '\'' :: t := by
  induction s with
  | nil => exact dropBlank_cons_of_not_blank (by decide) t
  | cons c s ih =>
    rw [dropSpace, List.dropWhile_cons, ← dropSpace]
    by_cases hp : isLiteralPlain c = true
    · rw [toLiteral_cons, literalChar_of_plain hp, List.singleton_append, List.cons_append]
      by_cases hb : isBlank c = true
      · rw [dropBlank_cons_of_blank hb, if_pos (isSpace_iff.mpr ⟨hb, hp⟩), ih]
      · have hs : ¬ isSpace c = true := fun h => hb (isSpace_iff.mp h).1
        rw [dropBlank_cons_of_not_blank (by simpa using hb), if_neg hs, toLiteral_cons, literalChar_of_plain hp]
        rfl
    · have hs : ¬ isSpace c = true := fun h => hp (isSpace_iff.mp h).2
      obtain ⟨d, rest, hd, -⟩ := literalChar_eq_cons hp
      rw [if_neg hs, toLiteral_cons, hd]
      exact dropBlank_cons_of_not_blank (by decide) _

/-- A word without escapes is read in written text where it stands in the text. -/
theorem after?_toLiteral {word : List Char} (h : ∀ c ∈ word, isLiteralPlain c = true) (s t : List Char) :
    after? word (toLiteral s ++ '\'' :: t) = (after? word s).map fun rest => toLiteral rest ++ '\'' :: t := by
  induction word generalizing s with
  | nil => rfl
  | cons w word ih =>
    have hw : isLiteralPlain w = true := h w List.mem_cons_self
    have hq : w ≠ '\'' := by rintro rfl; exact absurd hw (by decide)
    have hb : w ≠ '\\' := by rintro rfl; exact absurd hw (by decide)
    cases s with
    | nil => exact after?_cons_of_ne hq word t
    | cons c s =>
      by_cases hp : isLiteralPlain c = true
      · rw [toLiteral_cons, literalChar_of_plain hp, List.singleton_append, List.cons_append, after?, after?]
        by_cases hwc : w = c
        · rw [if_pos hwc, if_pos hwc, ih (fun d hd => h d (List.mem_cons_of_mem _ hd))]
        · rw [if_neg hwc, if_neg hwc]
          rfl
      · have hwc : w ≠ c := by rintro rfl; exact hp hw
        obtain ⟨d, rest, hd, -⟩ := literalChar_eq_cons hp
        rw [after?_cons_of_ne hwc, toLiteral_cons, hd]
        exact after?_cons_of_ne hb word _

/-- A word without escapes after spaces. -/
theorem after?_dropBlank_toLiteral {word : List Char} (h : ∀ c ∈ word, isLiteralPlain c = true) (s t : List Char) :
    after? word (dropBlank (toLiteral s ++ '\'' :: t)) =
      (after? word (dropSpace s)).map fun rest => toLiteral rest ++ '\'' :: t := by
  rw [dropBlank_toLiteral, after?_toLiteral h]

/-- Whether one member of a list is found depends on which members are found alone. -/
theorem isSome_findSome?_congr {α β γ : Type} {f : α → Option β} {g : α → Option γ} {l : List α}
    (h : ∀ a ∈ l, (f a).isSome = (g a).isSome) : (l.findSome? f).isSome = (l.findSome? g).isSome := by
  rw [Bool.eq_iff_iff, List.findSome?_isSome_iff, List.findSome?_isSome_iff]
  exact ⟨fun ⟨a, ha, hf⟩ => ⟨a, ha, h a ha ▸ hf⟩, fun ⟨a, ha, hg⟩ => ⟨a, ha, (h a ha).symm ▸ hg⟩⟩

/-- Media types are written as they are. -/
theorem plain_of_mem_mediaTypes {name : String} (h : name ∈ mediaTypes) : ∀ c ∈ name.toList, isLiteralPlain c = true := by
  revert h name
  decide

/-- What can follow the quote that closes a written literal: nothing that looks like a media type of its own. -/
def Closing (t : List Char) : Prop :=
  ∀ name ∈ mediaTypes, after? name.toList (dropBlank t) = none

/-- Reads the name of a media type, the quote after it and the closing parenthesis. -/
def typeFrom? (quote : Char) (s : List Char) : Option (String × List Char) :=
  mediaTypes.findSome? fun name => do
    let rest ← after? name.toList (dropBlank s)
    let rest ← after? [quote] (dropBlank rest)
    let rest ← after? [')'] (dropBlank rest)
    return (name, dropSemicolon rest)

/-- A media type begins with the first character that is not blank, if that is a quote. -/
theorem mediaType?_of_dropBlank {s rest : List Char} {c : Char} (h : dropBlank s = c :: rest) :
    mediaType? s = if c = '\'' || c = '"' then typeFrom? c rest else none := by
  rw [mediaType?, h]
  rfl

/-- No media type is read where nothing looks like one. -/
theorem typeFrom?_of_closing {t : List Char} (ht : Closing t) (quote : Char) : typeFrom? quote t = none := by
  rw [typeFrom?, List.findSome?_eq_none_iff]
  intro name hname
  rw [ht name hname]
  rfl

/-- The name of a media type is read in written text where it stands in the text. -/
theorem typeFrom?_toLiteral (s t : List Char) :
    (typeFrom? '"' (toLiteral s ++ '\'' :: t)).isSome = (afterType? s).isSome := by
  refine isSome_findSome?_congr ?_
  intro name hname
  rw [after?_dropBlank_toLiteral (plain_of_mem_mediaTypes hname)]
  cases after? name.toList (dropSpace s) with
  | none => rfl
  | some s₁ =>
    simp only [Option.map_some, Option.bind_eq_bind, Option.bind_some]
    rw [after?_dropBlank_toLiteral (by decide)]
    cases after? ['"'] (dropSpace s₁) with
    | none => rfl
    | some s₂ =>
      simp only [Option.map_some, Option.bind_some]
      rw [after?_dropBlank_toLiteral (by decide)]
      cases after? [')'] (dropSpace s₂) <;> rfl

/-- A media type is read in written text where it stands in the text. -/
theorem mediaType?_toLiteral {t : List Char} (ht : Closing t) (s : List Char) :
    (mediaType? (toLiteral s ++ '\'' :: t)).isSome = namesType s := by
  have hdrop := dropBlank_toLiteral s t
  rw [namesType]
  cases hs : dropSpace s with
  | nil =>
    rw [hs, toLiteral_nil, List.nil_append] at hdrop
    rw [mediaType?_of_dropBlank hdrop, typeFrom?_of_closing ht]
    rfl
  | cons c s' =>
    by_cases hp : isLiteralPlain c = true
    · rw [hs, toLiteral_cons, literalChar_of_plain hp, List.singleton_append, List.cons_append] at hdrop
      have hq : c ≠ '\'' := by rintro rfl; exact absurd hp (by decide)
      rw [mediaType?_of_dropBlank hdrop]
      by_cases hc : c = '"'
      · subst hc
        exact typeFrom?_toLiteral s' t
      · rw [if_neg (by simp [hq, hc])]
        split
        · next heq => exact absurd (List.cons.inj heq).1 hc
        · rfl
    · obtain ⟨d, rest, hd, -⟩ := literalChar_eq_cons hp
      have hc : c ≠ '"' := by rintro rfl; exact hp (by decide)
      rw [hs, toLiteral_cons, hd] at hdrop
      rw [mediaType?_of_dropBlank hdrop, if_neg (by decide)]
      split
      · next heq => exact absurd (List.cons.inj heq).1 hc
      · rfl

/-- The quote that closes a written literal, or one inside it: the call ends after it if it can. -/
theorem close?_toLiteral {t : List Char} (ht : Closing t) (s : List Char) :
    (close? .load '\'' ('\'' :: (toLiteral s ++ '\'' :: t))).isSome = canEnd s := by
  have hdrop := dropBlank_toLiteral s t
  have hquote : after? ['\''] (dropBlank ('\'' :: (toLiteral s ++ '\'' :: t))) = some (toLiteral s ++ '\'' :: t) := rfl
  rw [close?, hquote, Option.bind_eq_bind, Option.bind_some, canEnd]
  cases hs : dropSpace s with
  | nil =>
    rw [hs, toLiteral_nil, List.nil_append] at hdrop
    rw [hdrop]
    rfl
  | cons c s' =>
    by_cases hp : isLiteralPlain c = true
    · rw [hs, toLiteral_cons, literalChar_of_plain hp, List.singleton_append, List.cons_append] at hdrop
      rw [hdrop]
      by_cases h₁ : c = ')'
      · subst h₁
        rfl
      · by_cases h₂ : c = ','
        · subst h₂
          exact (Option.isSome_map).trans (mediaType?_toLiteral ht s')
        · split <;> split <;> simp_all
    · obtain ⟨d, rest, hd, -⟩ := literalChar_eq_cons hp
      have h₁ : c ≠ ')' := by rintro rfl; exact hp (by decide)
      have h₂ : c ≠ ',' := by rintro rfl; exact hp (by decide)
      rw [hs, toLiteral_cons, hd] at hdrop
      rw [hdrop]
      split <;> split <;> simp_all

/-- Blanks before the quote that closes a literal make no difference. -/
theorem close?_append_of_blank {callee : Callee} {quote : Char} {b : List Char} (hb : ∀ c ∈ b, isBlank c = true)
    (s : List Char) : close? callee quote (b ++ s) = close? callee quote s := by
  rw [close?, close?, dropBlank_append_of_blank hb]

/-- A call can end only at a quote. -/
theorem close?_eq_none {callee : Callee} {quote : Char} {s : List Char} (h : ∀ rest, dropBlank s ≠ quote :: rest) :
    close? callee quote s = none := by
  have hnone : after? [quote] (dropBlank s) = none := by
    rw [Option.eq_none_iff_forall_ne_some]
    intro rest hrest
    exact h rest (after?_eq_some.mp hrest)
  rw [close?, hnone]
  rfl

/-! ## Quotes in written text -/

/-- Every quote in written text is one of the text, after a backslash. -/
theorem quote_toLiteral {s u v : List Char} (h : toLiteral s = u ++ '\'' :: v) :
    ∃ a b, s = a ++ '\'' :: b ∧ u = toLiteral a ++ ['\\'] ∧ v = toLiteral b := by
  induction s generalizing u with
  | nil => exact absurd h (by simp)
  | cons c s ih =>
    rw [toLiteral_cons] at h
    by_cases hp : isLiteralPlain c = true
    · rw [literalChar_of_plain hp, List.singleton_append] at h
      cases u with
      | nil =>
        obtain ⟨rfl, -⟩ := List.cons.inj h
        exact absurd hp (by decide)
      | cons e u =>
        obtain ⟨rfl, hs⟩ := List.cons.inj h
        obtain ⟨a, b, rfl, rfl, rfl⟩ := ih hs
        exact ⟨c :: a, b, rfl, by rw [toLiteral_cons, literalChar_of_plain hp]; rfl, rfl⟩
    · obtain ⟨d, rest, hd, hquote, hend, hrest, -⟩ := literalChar_eq_cons hp
      rw [hd] at h
      cases u with
      | nil => exact absurd (List.cons.inj h).1 (by decide)
      | cons e u =>
        obtain ⟨rfl, hs⟩ := List.cons.inj h
        cases u with
        | nil =>
          obtain ⟨rfl, rfl⟩ := List.cons.inj hs
          rw [hend rfl]
          exact ⟨[], s, by rw [hquote.mp rfl, List.nil_append], rfl, rfl⟩
        | cons e u =>
          obtain ⟨rfl, htail⟩ := List.cons.inj hs
          -- The rest of an escape has no quote, so the quote stands in what follows.
          rcases List.append_eq_append_iff.mp (show rest ++ toLiteral s = u ++ '\'' :: v from htail) with
            ⟨u', rfl, hnext⟩ | ⟨r, hr, hnext⟩
          · obtain ⟨a, b, rfl, rfl, rfl⟩ := ih hnext
            exact ⟨c :: a, b, rfl, by rw [toLiteral_cons, hd]; simp, rfl⟩
          · cases r with
            | nil =>
              obtain ⟨a, b, -, hu, -⟩ := ih (show toLiteral s = [] ++ '\'' :: v by simpa using hnext.symm)
              exact absurd hu (by simp)
            | cons x r =>
              obtain ⟨rfl, -⟩ := List.cons.inj hnext
              exact absurd rfl (hrest '\'' (by rw [hr]; simp))

/-- Written text has no line feed in it. -/
theorem newline_not_mem_toLiteral (s : List Char) : '\n' ∉ toLiteral s := by
  intro h
  exact absurd (unbroken_toLiteral s '\n' h) (by decide)

/-- The literal of a text that is not empty is not empty. -/
theorem toLiteral_ne_nil {s : List Char} (h : s ≠ []) : toLiteral s ≠ [] := by
  obtain ⟨c, s, rfl⟩ := List.exists_cons_of_ne_nil h
  rw [toLiteral_cons]
  by_cases hp : isLiteralPlain c = true
  · rw [literalChar_of_plain hp]
    simp
  · obtain ⟨d, rest, hd, -⟩ := literalChar_eq_cons hp
    rw [hd]
    simp

/-- Written text does not end with a blank if the text does not end with a space. -/
theorem isBlank_getLast_toLiteral {s : List Char} {c d : Char} (hc : isSpace c = false)
    (hd : (toLiteral (s ++ [c])).getLast? = some d) : isBlank d = false := by
  rw [toLiteral_append, toLiteral_cons, toLiteral_nil, List.append_nil] at hd
  by_cases hp : isLiteralPlain c = true
  · rw [literalChar_of_plain hp, List.getLast?_concat] at hd
    obtain rfl := Option.some.inj hd
    by_contra hb
    rw [isSpace_iff.mpr ⟨by simpa using hb, hp⟩] at hc
    nomatch hc
  · obtain ⟨e, rest, he, -, -, -, hblank⟩ := literalChar_eq_cons hp
    rw [he, List.getLast?_append_of_ne_nil _ (by simp), List.getLast?_cons_cons] at hd
    exact hblank d (List.mem_of_getLast? hd)

/-- Before the end of a written text no call can end, unless it can end after one of the quotes of the text. -/
theorem close?_inside {s q r w t : List Char} (ht : Closing t) (hs : toLiteral s = q ++ r ++ w)
    (hr : ∃ c ∈ r, isBlank c = false)
    (hnone : ∀ a b, s = a ++ '\'' :: b → (toLiteral a).length + 1 < (q ++ r).length → canEnd b = false) :
    close? .load '\'' (r ++ (w ++ '\'' :: t)) = none := by
  obtain ⟨blanks, hblanks, hall⟩ := exists_blank_append_dropBlank r
  cases hd : dropBlank r with
  | nil =>
    obtain ⟨c, hc, hcb⟩ := hr
    rw [dropBlank_eq_nil.mp hd c hc] at hcb
    nomatch hcb
  | cons c r' =>
    rw [hd] at hblanks
    have hcb : isBlank c = false := isBlank_head_dropBlank hd
    rw [hblanks, List.append_assoc, close?_append_of_blank hall]
    by_cases hc : c = '\''
    · subst hc
      have hquote : toLiteral s = (q ++ blanks) ++ '\'' :: (r' ++ w) := by rw [hs, hblanks]; simp
      obtain ⟨a, b, rfl, ha, hb⟩ := quote_toLiteral hquote
      have hlength : (toLiteral a).length + 1 < (q ++ r).length := by
        have := congrArg List.length ha
        simp only [List.length_append, hblanks, List.length_cons] at this ⊢
        rw [List.length_nil] at this
        omega
      have hend := close?_toLiteral ht b
      rw [hnone a b rfl hlength, Option.isSome_eq_false_iff, Option.isNone_iff_eq_none] at hend
      rw [← List.append_assoc, List.cons_append, hb]
      exact hend
    · refine close?_eq_none ?_
      intro rest hrest
      rw [List.cons_append, dropBlank_cons_of_not_blank hcb] at hrest
      exact hc (List.cons.inj hrest).1

/-- A literal is cut at the first quote after which the call can end. -/
theorem shortest_toLiteral_of_cutEarly {s a t : List Char} (ht : Closing t) (h : cutEarly? s = some a) :
    ∃ result, Address.shortest (close? .load '\'') (toLiteral s ++ '\'' :: t) = some (toLiteral a ++ ['\\'], result) := by
  obtain ⟨b, rfl, hb, hfirst⟩ := cutEarly?_eq_some h
  obtain ⟨result, hresult⟩ := Option.isSome_iff_exists.mp ((close?_toLiteral ht b).trans hb)
  refine ⟨result, ?_⟩
  have hsplit : toLiteral (a ++ '\'' :: b) ++ '\'' :: t =
      (toLiteral a ++ ['\\']) ++ '\'' :: (toLiteral b ++ '\'' :: t) := by
    rw [toLiteral_append, toLiteral_cons, show literalChar '\'' = ['\\', '\''] from rfl]
    simp
  rw [hsplit]
  refine Address.shortest_append (by simp) ?_ ?_ hresult
  · rw [List.mem_append, not_or]
    exact ⟨newline_not_mem_toLiteral a, by decide⟩
  · intro q r hqr _ hr
    have hlast : '\\' ∈ r := by
      have hl := congrArg List.getLast? hqr
      rw [List.getLast?_concat, List.getLast?_append_of_ne_nil q hr] at hl
      exact List.mem_of_getLast? hl.symm
    have hinside := close?_inside (s := a ++ '\'' :: b) (q := q) (r := r) (w := '\'' :: toLiteral b) ht
      (by rw [← hqr, toLiteral_append, toLiteral_cons, show literalChar '\'' = ['\\', '\''] from rfl]; simp)
      ⟨'\\', hlast, by decide⟩ ?_
    · rwa [List.cons_append] at hinside
    · intro a' b' hab hlength
      by_contra hcan
      obtain ⟨rest, rfl⟩ := hfirst a' b' hab (by simpa using hcan)
      rw [← hqr, toLiteral_append] at hlength
      simp only [List.length_append, List.length_singleton] at hlength
      omega

/-- A literal that is not cut is read without the spaces at its end. -/
theorem shortest_toLiteral {c : Char} {s t : List Char} {result : Option String × List Char} (ht : Closing t)
    (h : ¬ ClosesEarly (c :: s)) (hc : isSpace c = false) (hresult : close? .load '\'' ('\'' :: t) = some result) :
    Address.shortest (close? .load '\'') (toLiteral (c :: s) ++ '\'' :: t) =
      some (toLiteral ((c :: s).rdropWhile isSpace), result) := by
  have hsplit : (c :: s).rdropWhile isSpace ++ (c :: s).rtakeWhile isSpace = c :: s := List.rdropWhile_append_rtakeWhile
  have hne : (c :: s).rdropWhile isSpace ≠ [] := by
    rw [ne_eq, List.rdropWhile_eq_nil_iff]
    intro hall
    rw [hall c List.mem_cons_self] at hc
    nomatch hc
  have hspaces : ∀ d ∈ toLiteral ((c :: s).rtakeWhile isSpace), isBlank d = true := by
    intro d hd
    obtain ⟨e, he, hde⟩ := List.mem_flatMap.mp hd
    have hspace := isSpace_iff.mp (List.mem_rtakeWhile_imp he)
    rw [literalChar_of_plain hspace.2, List.mem_singleton] at hde
    rw [hde]
    exact hspace.1
  have hlast : isSpace (((c :: s).rdropWhile isSpace).getLast hne) = false := by
    simpa using List.rdropWhile_last_not isSpace _ hne
  generalize (c :: s).rtakeWhile isSpace = spaces at *
  generalize (c :: s).rdropWhile isSpace = kept at *
  rw [← hsplit, toLiteral_append, List.append_assoc]
  refine Address.shortest_append (toLiteral_ne_nil hne) (newline_not_mem_toLiteral _) ?_ ?_
  · intro q r hqr _ hr
    refine close?_inside (s := c :: s) ht (by rw [← hsplit, toLiteral_append, hqr]) ?_ ?_
    · refine ⟨r.getLast hr, List.getLast_mem hr, isBlank_getLast_toLiteral hlast (s := kept.dropLast) ?_⟩
      rw [List.dropLast_append_getLast, hqr, List.getLast?_append_of_ne_nil q hr, List.getLast?_eq_some_getLast hr]
    · intro a b hab _
      by_contra hcan
      exact h ⟨a, b, hab, by simpa using hcan⟩
  · rw [close?_append_of_blank hspaces, hresult]

/-! ## The whole literal -/

/-- A literal that does not begin with a blank is the shortest text up to its closing quote. -/
theorem literal?_cons_of_not_blank {α : Type} {next : List Char → Option α} {c : Char} (hc : isBlank c = false) (s : List Char) :
    literal? next (c :: s) = Address.shortest next (c :: s) := by
  rw [literal?, if_neg (by simp [hc])]

/-- Blanks before a literal are skipped. -/
theorem literal?_cons_of_some {α : Type} {next : List Char → Option α} {c : Char} {s : List Char} {result : List Char × α}
    (hc : isBlank c = true) (h : literal? next s = some result) : literal? next (c :: s) = some result := by
  rw [literal?, if_pos hc, h]

/-- The spaces at the start of a literal are dropped if anything follows them. -/
theorem literal?_of_dropSpace {α : Type} {next : List Char → Option α} {s t : List Char} {result : List Char × α}
    (hs : dropSpace s ≠ []) (h : Address.shortest next (toLiteral (dropSpace s) ++ '\'' :: t) = some result) :
    literal? next (toLiteral s ++ '\'' :: t) = some result := by
  induction s with
  | nil => exact absurd rfl hs
  | cons c s ih =>
    rw [dropSpace, List.dropWhile_cons, ← dropSpace] at hs h
    by_cases hc : isSpace c = true
    · rw [if_pos hc] at hs h
      have hspace := isSpace_iff.mp hc
      rw [toLiteral_cons, literalChar_of_plain hspace.2]
      exact literal?_cons_of_some hspace.1 (ih hs h)
    · rw [if_neg hc] at h
      rw [← h]
      by_cases hp : isLiteralPlain c = true
      · have hb : isBlank c = false := by
          by_contra hb
          exact hc (isSpace_iff.mpr ⟨by simpa using hb, hp⟩)
        rw [toLiteral_cons, literalChar_of_plain hp]
        exact literal?_cons_of_not_blank hb _
      · obtain ⟨d, rest, hd, -⟩ := literalChar_eq_cons hp
        rw [toLiteral_cons, hd]
        exact literal?_cons_of_not_blank (by decide) _

/-- Of a literal of spaces the last one is read. -/
theorem literal?_of_spaces {α : Type} {next : List Char → Option α} {s t : List Char} {a : α} (hs : s ≠ [])
    (hspaces : ∀ c ∈ s, isSpace c = true) (hnone : Address.shortest next ('\'' :: t) = none)
    (ha : next ('\'' :: t) = some a) : literal? next (toLiteral s ++ '\'' :: t) = some (s.getLast?.toList, a) := by
  induction s with
  | nil => exact absurd rfl hs
  | cons c s ih =>
    have hspace := isSpace_iff.mp (hspaces c List.mem_cons_self)
    rw [toLiteral_cons, literalChar_of_plain hspace.2]
    by_cases h0 : s = []
    · subst h0
      have hc : c ≠ '\n' := by rintro rfl; exact absurd hspace.2 (by decide)
      rw [toLiteral_nil, List.append_nil, List.singleton_append, literal?, if_pos hspace.1,
        literal?_cons_of_not_blank (by decide), hnone]
      exact Address.shortest_cons_of_some hc ha
    · obtain ⟨d, s', rfl⟩ := List.exists_cons_of_ne_nil h0
      rw [List.getLast?_cons_cons]
      exact literal?_cons_of_some hspace.1 (ih h0 fun d hd => hspaces d (List.mem_cons_of_mem _ hd))

/-- Whether a text is closed early does not depend on the spaces at its start. -/
theorem closesEarly_dropSpace {s : List Char} : ClosesEarly (dropSpace s) ↔ ClosesEarly s := by
  induction s with
  | nil => rfl
  | cons c s ih =>
    rw [dropSpace, List.dropWhile_cons, ← dropSpace]
    by_cases hc : isSpace c = true
    · rw [if_pos hc, ih]
      refine ⟨fun ⟨a, b, hs, hb⟩ => ⟨c :: a, b, by rw [hs, List.cons_append], hb⟩, ?_⟩
      rintro ⟨a, b, hs, hb⟩
      cases a with
      | nil =>
        obtain ⟨rfl, -⟩ := List.cons.inj hs
        exact absurd hc (by decide)
      | cons d a =>
        obtain ⟨rfl, rfl⟩ := List.cons.inj hs
        exact ⟨a, b, rfl, hb⟩
    · rw [if_neg hc]

/-- A text that is not closed early is read without the spaces around it. -/
theorem readBack_of_not_closesEarly {s : List Char} (h : ¬ ClosesEarly s) : readBack s = strip s := by
  rw [readBack, cutEarly?_eq_none.mpr (fun hs => h (closesEarly_dropSpace.mp hs))]

/-- A text that is cut loses its first quote after which a call can end, and all that follows. -/
theorem readBack_of_closesEarly {s : List Char} (h : ClosesEarly s) :
    ∃ spaces a b, s = spaces ++ (a ++ '\'' :: b) ∧ (∀ c ∈ spaces, isSpace c = true) ∧ readBack s = a ++ ['\\'] := by
  cases hcut : cutEarly? (dropSpace s) with
  | none => exact absurd (closesEarly_dropSpace.mpr h) (cutEarly?_eq_none.mp hcut)
  | some a =>
    obtain ⟨b, hs, -⟩ := cutEarly?_eq_some hcut
    refine ⟨s.takeWhile isSpace, a, b, ?_, fun c hc => List.mem_takeWhile_imp hc, by rw [readBack, hcut]⟩
    rw [← hs]
    exact List.takeWhile_append_dropWhile.symm

/-- Something is left of a text that is not empty. -/
theorem strip_ne_nil {s : List Char} (h : s ≠ []) : strip s ≠ [] := by
  rw [strip]
  by_cases h0 : dropSpace s = []
  · rw [if_pos h0, List.getLast?_eq_some_getLast h]
    simp
  · rw [if_neg h0, ne_eq, List.rdropWhile_eq_nil_iff]
    intro hall
    obtain ⟨c, rest, hc⟩ := List.exists_cons_of_ne_nil h0
    have hhead := isSpace_head_dropSpace hc
    rw [hall c (by rw [hc]; exact List.mem_cons_self)] at hhead
    nomatch hhead

/-- A text that neither starts nor ends with a space is not changed. -/
theorem strip_eq_self {s : List Char} (hs : ∀ c ∈ s.head?, isSpace c = false) (he : ∀ c ∈ s.getLast?, isSpace c = false) :
    strip s = s := by
  cases s with
  | nil => rfl
  | cons c s =>
    have hc : ¬ isSpace c = true := by simpa using hs c rfl
    have hdrop : dropSpace (c :: s) = c :: s := by rw [dropSpace, List.dropWhile_cons, if_neg hc]
    rw [strip, hdrop, if_neg (by simp), List.rdropWhile_eq_self_iff]
    intro hne
    simp [he _ (List.getLast?_eq_some_getLast hne)]

/-- Something is read back of a text that is not empty. -/
theorem readBack_ne_nil {s : List Char} (h : s ≠ []) : readBack s ≠ [] := by
  rw [readBack]
  split
  · simp
  · exact strip_ne_nil h

/-- The literal that is written for a text is read, and `readBack` says what is read. -/
theorem literal?_toLiteral {s t : List Char} {result : Option String × List Char} (hs : s ≠ []) (ht : Closing t)
    (hresult : close? .load '\'' ('\'' :: t) = some result)
    (hspaces : (∀ c ∈ s, isSpace c = true) → Address.shortest (close? .load '\'') ('\'' :: t) = none) :
    ∃ body result', literal? (close? .load '\'') (toLiteral s ++ '\'' :: t) = some (body, result') ∧
      ofLiteral body = readBack s := by
  cases hcut : cutEarly? (dropSpace s) with
  | some a =>
    obtain ⟨result', hshort⟩ := shortest_toLiteral_of_cutEarly ht hcut
    have hne : dropSpace s ≠ [] := by
      intro h0
      rw [h0] at hcut
      nomatch hcut
    refine ⟨_, result', literal?_of_dropSpace hne hshort, ?_⟩
    rw [ofLiteral_toLiteral_append, readBack, hcut]
    rfl
  | none =>
    have hread : readBack s = strip s := by rw [readBack, hcut]
    rw [hread, strip]
    cases hd : dropSpace s with
    | nil =>
      have hall : ∀ c ∈ s, isSpace c = true := List.dropWhile_eq_nil_iff.mp hd
      refine ⟨_, result, literal?_of_spaces hs hall (hspaces hall) hresult, ?_⟩
      rw [if_pos rfl, List.getLast?_eq_some_getLast hs]
      have hb : s.getLast hs ≠ '\\' := by
        intro heq
        have hspace := hall _ (List.getLast_mem hs)
        rw [heq] at hspace
        exact absurd hspace (by decide)
      exact ofLiteral_cons hb []
    | cons c x =>
      have hc : isSpace c = false := isSpace_head_dropSpace hd
      rw [hd] at hcut
      have hshort := shortest_toLiteral ht (cutEarly?_eq_none.mp hcut) hc hresult
      rw [← hd] at hshort
      refine ⟨_, result, literal?_of_dropSpace (by rw [hd]; simp) hshort, ?_⟩
      rw [if_neg (by simp), ofLiteral_toLiteral, hd]

end Statement

end UserScripts
