import Mathlib.Data.List.DropRight
import UserScripts.Text.Scan

/-!
# Facts about readers

What the small readers say about the text that they read, in terms of how the text is put together.
-/

namespace UserScripts.Text

/-- What is said of each character of a text is decided along the text. (There are finitely many characters, so the
statement could be decided for all of them, at a price.) -/
instance decidableForallMem (p : Char → Prop) [DecidablePred p] (s : List Char) : Decidable (∀ c ∈ s, p c) :=
  List.decidableBAll p s

/-! ## Words -/

/-- What follows a word is found after it. -/
theorem after?_append (word s : List Char) : after? word (word ++ s) = some s := by
  induction word with
  | nil => rfl
  | cons w word ih => rw [List.cons_append, after?, if_pos rfl, ih]

/-- What follows a word is found exactly if the text begins with it. -/
theorem after?_eq_some {word s rest : List Char} : after? word s = some rest ↔ s = word ++ rest := by
  refine ⟨fun h => ?_, fun h => h ▸ after?_append word rest⟩
  induction word generalizing s with
  | nil => exact Option.some.inj h
  | cons w word ih =>
    cases s with
    | nil => nomatch h
    | cons c s =>
      rw [after?] at h
      split at h
      · next hw => rw [hw, ih h, List.cons_append]
      · nomatch h

/-- Nothing follows a word whose first character is not ahead. -/
theorem after?_cons_of_ne {w c : Char} (h : w ≠ c) (word s : List Char) : after? (w :: word) (c :: s) = none := by
  rw [after?, if_neg h]

/-- A text is cut at a mark that stands in it. -/
theorem cutAt?_eq_some {mark : Char} {s a b : List Char} (h : cutAt? mark s = some (a, b)) : s = a ++ mark :: b := by
  induction s generalizing a with
  | nil => nomatch h
  | cons c s ih =>
    rw [cutAt?] at h
    split at h
    · next hc =>
      obtain ⟨rfl, rfl⟩ := Prod.mk.inj (Option.some.inj h)
      rw [hc, List.nil_append]
    · rw [Option.map_eq_some_iff] at h
      obtain ⟨⟨a', b'⟩, hcut, heq⟩ := h
      obtain ⟨rfl, rfl⟩ := Prod.mk.inj heq
      rw [ih hcut, List.cons_append]

/-! ## Blanks -/

@[simp]
theorem dropBlank_nil : dropBlank [] = [] := rfl

/-- A blank at the start is dropped. -/
theorem dropBlank_cons_of_blank {c : Char} (h : isBlank c = true) (s : List Char) : dropBlank (c :: s) = dropBlank s := by
  rw [dropBlank, List.dropWhile_cons, if_pos h, dropBlank]

/-- Nothing is dropped from a text that does not begin with a blank. -/
theorem dropBlank_cons_of_not_blank {c : Char} (h : isBlank c = false) (s : List Char) : dropBlank (c :: s) = c :: s := by
  rw [dropBlank, List.dropWhile_cons, if_neg (by simp [h])]

/-- Blanks at the start are dropped. -/
theorem dropBlank_append_of_blank {b : List Char} (h : ∀ c ∈ b, isBlank c = true) (s : List Char) :
    dropBlank (b ++ s) = dropBlank s := by
  induction b with
  | nil => rfl
  | cons c b ih =>
    rw [List.cons_append, dropBlank_cons_of_blank (h c List.mem_cons_self), ih fun d hd => h d (List.mem_cons_of_mem _ hd)]

/-- Blanks are dropped up to a character that is none. -/
theorem dropBlank_append_cons {c : Char} (hc : isBlank c = false) (s t : List Char) : dropBlank (s ++ c :: t) = dropBlank s ++ c :: t := by
  induction s with
  | nil => exact dropBlank_cons_of_not_blank hc t
  | cons d s ih =>
    rw [List.cons_append]
    cases hd : isBlank d with
    | true => rw [dropBlank_cons_of_blank hd, dropBlank_cons_of_blank hd, ih]
    | false => rw [dropBlank_cons_of_not_blank hd, dropBlank_cons_of_not_blank hd, List.cons_append]

/-- Blanks are dropped from the end up to the last character that is none. -/
theorem dropEndBlank_append_cons {c : Char} (hc : isBlank c = false) (s t : List Char) :
    dropEndBlank (s ++ c :: t) = s ++ c :: dropEndBlank t := by
  have hreverse : (s ++ c :: t).reverse = t.reverse ++ c :: s.reverse := by simp
  have hdrop := dropBlank_append_cons hc t.reverse s.reverse
  rw [dropBlank, dropBlank] at hdrop
  rw [dropEndBlank, dropEndBlank, hreverse, hdrop]
  simp

/-- What is taken from the start are blanks. -/
theorem isBlank_of_mem_takeBlank {s : List Char} {c : Char} (h : c ∈ takeBlank s) : isBlank c = true :=
  List.mem_takeWhile_imp h

/-- A text is its leading blanks and what follows. -/
theorem exists_blank_append_dropBlank (s : List Char) : ∃ b, s = b ++ dropBlank s ∧ ∀ c ∈ b, isBlank c = true :=
  ⟨takeBlank s, (takeBlank_append_dropBlank s).symm, fun _ => isBlank_of_mem_takeBlank⟩

/-- What follows the leading blanks does not start with a blank. -/
theorem isBlank_head_dropBlank {s rest : List Char} {c : Char} (h : dropBlank s = c :: rest) : isBlank c = false := by
  have hs : s.dropWhile isBlank = c :: rest := h
  have hd := List.head_dropWhile_not isBlank (l := s) (by simp [hs])
  simpa [hs] using hd

/-- A text that does not begin with a blank stays as it is. -/
theorem dropBlank_eq_self {s : List Char} (h : ∀ c ∈ s.head?, isBlank c = false) : dropBlank s = s := by
  cases s with
  | nil => rfl
  | cons c s => exact dropBlank_cons_of_not_blank (h c rfl) s

/-- No text that starts with a blank starts what is stripped of blanks. -/
theorem isBlank_head_of_starts {w u s t : List Char} (ht : ∀ c ∈ t.head?, isBlank c = false) (h : w ++ u <+: dropBlank s ++ t) :
    ∀ c ∈ w.head?, isBlank c = false := by
  intro c hc
  obtain ⟨w, rfl⟩ := List.head?_eq_some_iff.mp hc
  obtain ⟨v, hv⟩ := h
  cases hdrop : dropBlank s with
  | nil =>
    rw [hdrop, List.nil_append] at hv
    exact ht c (by rw [← hv]; rfl)
  | cons d rest =>
    rw [hdrop] at hv
    obtain ⟨rfl, -⟩ := List.cons.inj hv
    exact isBlank_head_dropBlank hdrop

/-- Nothing is left exactly if all characters are blank. -/
theorem dropBlank_eq_nil {s : List Char} : dropBlank s = [] ↔ ∀ c ∈ s, isBlank c = true :=
  List.dropWhile_eq_nil_iff

theorem dropEndBlank_eq (s : List Char) : dropEndBlank s = s.rdropWhile isBlank := rfl

/-- A text that neither starts nor ends with a blank is trimmed already. -/
theorem trim_eq_self {s : String} (hs : ∀ c ∈ s.toList.head?, isBlank c = false)
    (he : ∀ c ∈ s.toList.getLast?, isBlank c = false) : trim s = s := by
  have h₁ : dropBlank s.toList = s.toList := dropBlank_eq_self hs
  have h₂ : dropEndBlank s.toList = s.toList := by
    rw [dropEndBlank_eq, List.rdropWhile_eq_self_iff]
    intro hne
    simp [he _ (List.getLast?_eq_some_getLast hne)]
  rw [trim, h₁, h₂, String.ofList_toList]

/-- A trimmed text does not end with a blank. -/
theorem isBlank_getLast_of_trim {s : String} (h : trim s = s) {c : Char} (hc : c ∈ s.toList.getLast?) : isBlank c = false := by
  have hl : (dropBlank s.toList).rdropWhile isBlank = s.toList := by
    rw [← dropEndBlank_eq]
    have := congrArg String.toList h
    rwa [trim, String.toList_ofList] at this
  have hne : (dropBlank s.toList).rdropWhile isBlank ≠ [] := by
    rw [hl]
    rintro h0
    rw [h0] at hc
    nomatch hc
  have hlast := List.rdropWhile_last_not isBlank _ hne
  simp only [hl] at hlast
  rw [List.getLast?_eq_some_getLast (hl ▸ hne), Option.mem_some_iff] at hc
  rw [← hc]
  simpa using hlast

/-! ## Places -/

/-- What is read at the start is the first that can be read. -/
theorem firstPlace_of_some {α : Type} {read : List Char → Option α} {s : List Char} {a : α} (h : read s = some a) :
    firstPlace read s = some a := by
  cases s with
  | nil => exact h
  | cons c s => simp only [firstPlace, h]

/-- A place at which nothing is read is passed by. -/
theorem firstPlace_cons_of_none {α : Type} {read : List Char → Option α} {c : Char} {s : List Char}
    (h : read (c :: s) = none) : firstPlace read (c :: s) = firstPlace read s := by
  simp only [firstPlace, h]

/-- What is found stands at some place of the text. -/
theorem exists_of_firstPlace_eq_some {α : Type} {read : List Char → Option α} {s : List Char} {a : α}
    (h : firstPlace read s = some a) : ∃ p t, s = p ++ t ∧ read t = some a := by
  induction s with
  | nil => exact ⟨[], [], rfl, h⟩
  | cons c s ih =>
    cases hr : read (c :: s) with
    | some b => exact ⟨[], c :: s, rfl, by rw [hr]; rwa [firstPlace_of_some hr] at h⟩
    | none =>
      rw [firstPlace_cons_of_none hr] at h
      obtain ⟨p, t, hs, ht⟩ := ih h
      exact ⟨c :: p, t, by rw [hs, List.cons_append], ht⟩

/-- Nothing is found if no place of a text has an answer. -/
theorem firstPlace_eq_none {α : Type} {read : List Char → Option α} {s : List Char}
    (h : ∀ p t, s = p ++ t → read t = none) : firstPlace read s = none := by
  induction s with
  | nil => exact h [] [] rfl
  | cons c s ih =>
    rw [firstPlace_cons_of_none (h [] (c :: s) rfl)]
    exact ih fun p t hp => h (c :: p) t (by rw [hp, List.cons_append])

/-! ## Tokens -/

/-- A text that consists of tokens, with blanks before any of them. -/
inductive Spells : List String → List Char → Prop
  | nil : Spells [] []
  | cons {token : String} {more : List String} {b s : List Char} (blank : ∀ c ∈ b, isBlank c = true) (rest : Spells more s) :
      Spells (token :: more) (b ++ token.toList ++ s)

/-- Tokens are spelled one after the other, each after blanks. -/
theorem spells_cons {token : String} {more : List String} {text : List Char} :
    Spells (token :: more) text ↔ ∃ b s, text = b ++ token.toList ++ s ∧ (∀ c ∈ b, isBlank c = true) ∧ Spells more s := by
  constructor
  · intro h
    cases h with
    | cons blank rest => exact ⟨_, _, rfl, blank, rest⟩
  · rintro ⟨b, s, rfl, blank, rest⟩
    exact .cons blank rest

/-- A token can be told from the blanks before it. -/
def IsToken (token : String) : Prop :=
  ∃ c ∈ token.toList.head?, isBlank c = false

/-- A token begins with a character that is not blank. -/
theorem isToken_iff {token : String} : IsToken token ↔ ∃ c word, token.toList = c :: word ∧ isBlank c = false := by
  constructor
  · rintro ⟨c, hc, hblank⟩
    obtain ⟨word, hword⟩ := List.head?_eq_some_iff.mp hc
    exact ⟨c, word, hword, hblank⟩
  · rintro ⟨c, word, hword, hblank⟩
    exact ⟨c, by rw [hword]; rfl, hblank⟩

/-- A token that follows blanks is told from them. -/
theorem dropBlank_eq_append {token : String} (h : IsToken token) {s rest : List Char} :
    dropBlank s = token.toList ++ rest ↔ ∃ b, s = b ++ token.toList ++ rest ∧ ∀ c ∈ b, isBlank c = true := by
  obtain ⟨c, word, hword, hc⟩ := isToken_iff.mp h
  constructor
  · intro hs
    obtain ⟨b, hb, hblank⟩ := exists_blank_append_dropBlank s
    exact ⟨b, by rw [List.append_assoc, ← hs, ← hb], hblank⟩
  · rintro ⟨b, rfl, hblank⟩
    rw [List.append_assoc, dropBlank_append_of_blank hblank, hword, List.cons_append, dropBlank_cons_of_not_blank hc]

/-- Tokens are read exactly where a text starts with them. -/
theorem tokens?_eq_some {tokens : List String} (h : ∀ token ∈ tokens, IsToken token) {s rest : List Char} :
    tokens? tokens s = some rest ↔ ∃ text, s = text ++ rest ∧ Spells tokens text := by
  induction tokens generalizing s with
  | nil =>
    rw [tokens?]
    constructor
    · intro hs
      exact ⟨[], Option.some.inj hs, .nil⟩
    · rintro ⟨_, rfl, ⟨⟩⟩
      rfl
  | cons token more ih =>
    rw [List.forall_mem_cons] at h
    simp only [tokens?, Option.bind_eq_some_iff, after?_eq_some, dropBlank_eq_append h.1, ih h.2]
    constructor
    · rintro ⟨_, ⟨b, rfl, hblank⟩, text, rfl, hspells⟩
      exact ⟨b ++ token.toList ++ text, (List.append_assoc _ _ _).symm, .cons hblank hspells⟩
    · rintro ⟨_, rfl, hspells⟩
      obtain ⟨b, text, rfl, hblank, hspells⟩ := spells_cons.mp hspells
      exact ⟨text ++ rest, ⟨b, List.append_assoc _ _ _, hblank⟩, text, rfl, hspells⟩

/-- Tokens are read exactly if the text begins with a spelling of them. -/
theorem isSome_tokens? {tokens : List String} {s : List Char} (h : ∀ token ∈ tokens, IsToken token) :
    (tokens? tokens s).isSome = true ↔ ∃ text more, s = text ++ more ∧ Spells tokens text := by
  rw [Option.isSome_iff_exists]
  simp only [tokens?_eq_some h]
  exact ⟨fun ⟨more, text, hs⟩ => ⟨text, more, hs⟩, fun ⟨text, more, hs⟩ => ⟨more, text, hs⟩⟩

/-- A token of one character is read exactly if it comes first after the blanks. -/
theorem isSome_tokens?_singleton (c : Char) (more : List String) {d : Char} {s rest : List Char} (h : dropBlank s = d :: rest) :
    (tokens? (String.singleton c :: more) s).isSome = true ↔ c = d ∧ (tokens? more rest).isSome = true := by
  rw [tokens?, h, String.toList_singleton, after?]
  split
  · next hc =>
    rw [and_iff_right hc]
    rfl
  · next hc => exact iff_of_false (by simp) fun h => hc h.1

/-- No token is read from a text of blanks. -/
theorem tokens?_of_dropBlank_eq_nil {token : String} (htoken : IsToken token) (more : List String) {s : List Char} (h : dropBlank s = []) :
    tokens? (token :: more) s = none := by
  obtain ⟨c, word, hword, -⟩ := isToken_iff.mp htoken
  rw [tokens?, h, hword]
  rfl

/-- Tokens in two parts are read one part after the other. -/
theorem tokens?_bind (a b : List String) (s : List Char) : tokens? (a ++ b) s = (tokens? a s).bind (tokens? b) := by
  induction a generalizing s with
  | nil => rfl
  | cons token a ih =>
    rw [List.cons_append, tokens?, tokens?, Option.bind_assoc]
    exact congrArg _ (funext ih)

/-- Blanks at the start are dropped once. -/
theorem dropBlank_dropBlank (s : List Char) : dropBlank (dropBlank s) = dropBlank s :=
  List.dropWhile_idempotent isBlank s

/-- Blanks before the first token make no difference. -/
theorem tokens?_dropBlank {token : String} {more : List String} {s : List Char} :
    tokens? (token :: more) (dropBlank s) = tokens? (token :: more) s := by
  rw [tokens?, tokens?, dropBlank_dropBlank]

end UserScripts.Text
