import UserScripts.Proofs.Statement.Literal

/-!
# The documented grammar of statements

A statement is a call of one of the two functions, with a string literal as its argument: a text between two equal quotes in which that
quote stands only behind an odd number of backslashes. Blanks may stand before any token. The grammar is stated as a relation and as a
reader, and each line has at most one reading. Main statements: `opens_iff`, `closes_iff`, `content?_eq_some` and `grammar?_eq_some`.
-/

namespace UserScripts

open UserScripts.Text

/-- The tokens of a call up to its literal. -/
def Callee.tokens : Callee → List String
  | .importScript => ["importScript", "("]
  | .load => ["mw", ".", "loader", ".", "load", "("]

namespace Statement

/-- The two quotes. -/
def quotes : List Char :=
  ['\'', '"']

/-- The start of a line up to the quote that opens its literal, and what is ahead then. -/
def Opens (line : List Char) (disabled : Bool) (callee : Callee) (quote : Char) (ahead : List Char) : Prop :=
  quote ∈ quotes ∧ ∃ text, line = text ++ ahead ∧
    Spells ((if disabled then ["//"] else []) ++ callee.tokens ++ [String.singleton quote]) text

/-- The end of a call after the quote that closes its literal. A load call may name a media type. Anything may follow. -/
def Closes (callee : Callee) (rest : List Char) : Prop :=
  ∃ text more, rest = text ++ more ∧
    (Spells [")"] text ∨ callee = .load ∧ ∃ name ∈ mediaTypes, ∃ quote ∈ quotes,
      Spells [",", String.singleton quote, name, String.singleton quote, ")"] text)

/-- A quote ahead after which the call can end, told by the text before it. -/
def Ends (callee : Callee) (quote : Char) (ahead content : List Char) : Prop :=
  ∃ rest, ahead = content ++ quote :: rest ∧ Closes callee rest

/-! ## The literal -/

/-- The number of backslashes at the end of a text. -/
def backslashes (s : List Char) : Nat :=
  (s.reverse.takeWhile (· = '\\')).length

/-- What may stand between two quotes: that quote stands in it only behind an odd number of backslashes, and the quote that closes it
does not. -/
structure IsContent (quote : Char) (content : List Char) : Prop where
  escaped : ∀ a b, content = a ++ quote :: b → backslashes a % 2 = 1
  closed : backslashes content % 2 = 0

/-- A line declares a script as the grammar says: the title or URL is what its literal stands for, without the blanks around it. -/
def Declares (line : List Char) (disabled : Bool) (callee : Callee) (argument : String) : Prop :=
  ∃ quote ahead content, Opens line disabled callee quote ahead ∧ Ends callee quote ahead content ∧ IsContent quote content ∧
    argument = unescapeLiteral (trim (String.ofList content))

/-! ## The grammar as a reader -/

/-- Reads the name of one of the two functions, and the parenthesis after it. -/
def callee? (s : List Char) : Option (Callee × List Char) :=
  match tokens? Callee.importScript.tokens s with
  | some rest => some (.importScript, rest)
  | none => (tokens? Callee.load.tokens s).map (.load, ·)

/-- Reads the quote that opens a literal. -/
def quote? (s : List Char) : Option (Char × List Char) :=
  match dropBlank s with
  | quote :: rest => if quote = '\'' || quote = '"' then some (quote, rest) else none
  | [] => none

/-- Reads the start of a line up to the quote that opens its literal. -/
def opening? (line : List Char) : Option (Bool × Callee × Char × List Char) :=
  (callee? (dropSlashes line).2).bind fun (callee, s) => (quote? s).map fun (quote, ahead) => ((dropSlashes line).1, callee, quote, ahead)

/-- Reads the end of a call after the quote that closes its literal. -/
def ending? (callee : Callee) (s : List Char) : Option (Option String × List Char) :=
  match dropBlank s with
  | ')' :: rest => some (none, dropSemicolon rest)
  | ',' :: rest => if callee = .load then (mediaType? rest).map fun (name, rest) => (some name, rest) else none
  | _ => none

/-- Reads what stands before the quote that closes a literal, and what follows that quote. -/
def content? (quote : Char) : List Char → Option (List Char × List Char)
  | [] => none
  | '\\' :: c :: s => (content? quote s).map fun (content, rest) => ('\\' :: c :: content, rest)
  | c :: s => if c = quote then some ([], s) else (content? quote s).map fun (content, rest) => (c :: content, rest)

/-- Reads a line as the grammar says. -/
def grammar? (line : List Char) : Option (Bool × Callee × String) :=
  (opening? line).bind fun (disabled, callee, quote, ahead) => (content? quote ahead).bind fun (content, rest) =>
    if (ending? callee rest).isSome then some (disabled, callee, unescapeLiteral (trim (String.ofList content))) else none

/-! ## Openings -/

variable {line s rest ahead content : List Char} {disabled : Bool} {callee : Callee} {quote c : Char} {argument : String}

/-- The quotes are the single one and the double one. -/
theorem mem_quotes : quote ∈ quotes ↔ quote = '\'' ∨ quote = '"' := by
  simp [quotes]

/-- No quote is blank. -/
theorem isBlank_of_mem_quotes (h : quote ∈ quotes) : isBlank quote = false := by
  rcases mem_quotes.mp h with rfl | rfl <;> rfl

/-- A quote is a token. -/
theorem isToken_quote (h : quote ∈ quotes) : IsToken (String.singleton quote) :=
  isToken_iff.mpr ⟨quote, [], String.toList_singleton quote, isBlank_of_mem_quotes h⟩

/-- The words and marks of a call are tokens. -/
theorem isToken_of_mem_callee {token : String} (h : token ∈ callee.tokens) : IsToken token := by
  cases callee
  all_goals
    revert token
    simp only [Callee.tokens, List.forall_mem_cons, List.not_mem_nil, false_implies, implies_true, and_true, isToken_iff]
    and_intros <;> exact ⟨_, _, rfl, rfl⟩

/-- A quote is read as a token. -/
theorem quote?_eq_some : quote? s = some (quote, ahead) ↔ quote ∈ quotes ∧ tokens? [String.singleton quote] s = some ahead := by
  have htokens : tokens? [String.singleton quote] s = some ahead ↔ dropBlank s = quote :: ahead := by
    rw [tokens?, Option.bind_eq_some_iff]
    simp [tokens?, after?_eq_some]
  rw [htokens, quote?, mem_quotes]
  cases hs : dropBlank s with
  | nil => simp
  | cons c rest =>
    simp only [Bool.or_eq_true, decide_eq_true_eq, List.cons.injEq]
    split
    · next hc =>
      rw [Option.some.injEq, Prod.mk.injEq]
      constructor
      · rintro ⟨rfl, rfl⟩
        exact ⟨hc, rfl, rfl⟩
      · exact And.right
    · next hc =>
      refine iff_of_false (Option.some_ne_none _).symm ?_
      rintro ⟨hquote, rfl, -⟩
      exact hc hquote

/-- No text starts with both names. -/
theorem tokens?_load_of_importScript (h : tokens? Callee.importScript.tokens s = some rest) : tokens? Callee.load.tokens s = none := by
  rw [Callee.tokens, tokens?, Option.bind_eq_some_iff] at h
  obtain ⟨_, hname, -⟩ := h
  rw [after?_eq_some] at hname
  rw [Callee.tokens, tokens?, hname]
  rfl

/-- A callee is read as its tokens. -/
theorem callee?_eq_some : callee? s = some (callee, rest) ↔ tokens? callee.tokens s = some rest := by
  rw [callee?]
  cases himport : tokens? Callee.importScript.tokens s with
  | some rest' =>
    cases callee with
    | importScript => simp [himport]
    | load => simp [tokens?_load_of_importScript himport]
  | none =>
    cases callee with
    | importScript => simp [himport]
    | load => simp

/-- A statement opens where its tokens are read one after the other. -/
theorem opens_iff_tokens : Opens line disabled callee quote ahead ↔ quote ∈ quotes ∧
    ((tokens? (if disabled then ["//"] else []) line).bind (tokens? callee.tokens)).bind (tokens? [String.singleton quote]) = some ahead := by
  refine and_congr_right fun hquote => ?_
  rw [← tokens?_eq_some, tokens?_bind, tokens?_bind]
  intro token htoken
  rcases List.mem_append.mp htoken with htoken | htoken
  · rcases List.mem_append.mp htoken with htoken | htoken
    · cases disabled with
      | true =>
        rw [List.mem_singleton.mp htoken]
        exact isToken_iff.mpr ⟨'/', ['/'], rfl, rfl⟩
      | false => nomatch htoken
    · exact isToken_of_mem_callee htoken
  · rw [List.mem_singleton.mp htoken]
    exact isToken_quote hquote

/-- The slashes are dropped whenever they are there: no name of a function starts with one. -/
theorem tokens?_dropSlashes : (dropSlashes line).1 = disabled ∧ tokens? callee.tokens (dropSlashes line).2 = some rest ↔
    (tokens? (if disabled then ["//"] else []) line).bind (tokens? callee.tokens) = some rest := by
  by_cases hslashes : ∃ s, dropBlank line = '/' :: '/' :: s
  · obtain ⟨s, hs⟩ := hslashes
    have hdrop : dropSlashes line = (true, s) := by
      rw [dropSlashes, hs]
      rfl
    rw [hdrop]
    cases disabled with
    | true =>
      have htokens : tokens? ["//"] line = some s := by
        rw [tokens?, hs]
        rfl
      rw [if_pos rfl, htokens, Option.bind_some]
      exact and_iff_right rfl
    | false =>
      have htokens : tokens? callee.tokens line = none := by
        cases callee <;> rw [Callee.tokens, tokens?, hs] <;> rfl
      rw [if_neg Bool.false_ne_true, tokens?, Option.bind_some, htokens]
      simp
  · have hdrop : dropSlashes line = (false, dropBlank line) := by
      unfold dropSlashes
      split
      · next s hs => exact absurd ⟨s, hs⟩ hslashes
      · rfl
    rw [hdrop]
    cases disabled with
    | true =>
      have htokens : tokens? ["//"] line = none := by
        rw [tokens?, Option.bind_eq_none_iff]
        intro s hs
        exact absurd ⟨s, after?_eq_some.mp hs⟩ hslashes
      rw [if_pos rfl, htokens]
      simp
    | false =>
      have htokens : tokens? callee.tokens (dropBlank line) = tokens? callee.tokens line := by
        cases callee <;> exact tokens?_dropBlank
      rw [if_neg Bool.false_ne_true, tokens?, Option.bind_some, htokens]
      exact and_iff_right rfl

/-- A statement opens exactly as the reader of openings says. -/
theorem opens_iff : Opens line disabled callee quote ahead ↔ opening? line = some (disabled, callee, quote, ahead) := by
  rw [opens_iff_tokens, Option.bind_eq_some_iff, opening?, Option.bind_eq_some_iff]
  simp only [← tokens?_dropSlashes, Option.map_eq_some_iff, Prod.exists, callee?_eq_some, quote?_eq_some]
  constructor
  · rintro ⟨hquote, rest, ⟨rfl, hcallee⟩, hahead⟩
    exact ⟨callee, rest, hcallee, quote, ahead, ⟨hquote, hahead⟩, rfl⟩
  · rintro ⟨callee, rest, hcallee, quote, ahead, ⟨hquote, hahead⟩, heq⟩
    obtain ⟨rfl, rfl, rfl, rfl⟩ := by simpa using heq
    exact ⟨hquote, rest, ⟨rfl, hcallee⟩, hahead⟩

/-! ## Endings -/

/-- The media types are tokens. -/
theorem isToken_of_mem_mediaTypes {name : String} (h : name ∈ mediaTypes) : IsToken name := by
  revert h
  revert name
  simp only [mediaTypes, List.forall_mem_cons, List.not_mem_nil, false_implies, implies_true, and_true, isToken_iff]
  and_intros <;> exact ⟨_, _, rfl, rfl⟩

/-- A media type is read up to the parenthesis exactly if the tokens of one of them are. -/
theorem isSome_typeFrom? : (typeFrom? quote s).isSome = true ↔
    ∃ name ∈ mediaTypes, (tokens? [name, String.singleton quote, ")"] s).isSome = true := by
  rw [typeFrom?, List.findSome?_isSome_iff]
  refine exists_congr fun name => and_congr_right fun _ => ?_
  simp only [tokens?, String.toList_singleton]
  cases after? name.toList (dropBlank s) with
  | none => rfl
  | some s₁ =>
    simp only [Option.bind_eq_bind, Option.bind_some]
    cases after? [quote] (dropBlank s₁) with
    | none => rfl
    | some s₂ =>
      simp only [Option.bind_some]
      cases hclose : after? [')'] (dropBlank s₂) with
      | none => simp [hclose]
      | some s₃ => simp [hclose]

/-- A media type between quotes is read exactly if its tokens are, for one of the quotes. -/
theorem isSome_mediaType? : (mediaType? s).isSome = true ↔ ∃ name ∈ mediaTypes, ∃ quote ∈ quotes,
    (tokens? [String.singleton quote, name, String.singleton quote, ")"] s).isSome = true := by
  cases hs : dropBlank s with
  | nil =>
    refine iff_of_false (by simp [mediaType?, hs]) ?_
    rintro ⟨name, -, quote, hquote, hsome⟩
    rw [tokens?_of_dropBlank_eq_nil (isToken_quote hquote) _ hs] at hsome
    cases hsome
  | cons c rest =>
    simp only [mediaType?_of_dropBlank hs, isSome_tokens?_singleton _ _ hs]
    split
    · next hc =>
      rw [isSome_typeFrom?]
      refine exists_congr fun name => and_congr_right fun _ => ⟨fun h => ⟨c, mem_quotes.mpr (by simpa using hc), rfl, h⟩, ?_⟩
      rintro ⟨_, -, rfl, h⟩
      exact h
    · next hc =>
      refine iff_of_false Bool.false_ne_true ?_
      rintro ⟨name, -, _, hquote, rfl, -⟩
      exact hc (by simpa using mem_quotes.mp hquote)

/-- A call ends where its tokens are read: a parenthesis, or a media type before it. -/
theorem closes_iff_tokens : Closes callee s ↔ (tokens? [")"] s).isSome = true ∨ callee = .load ∧ ∃ name ∈ mediaTypes, ∃ quote ∈ quotes,
    (tokens? [",", String.singleton quote, name, String.singleton quote, ")"] s).isSome = true := by
  have hclose : ∀ token ∈ [")"], IsToken token := by
    intro token h
    rw [List.mem_singleton.mp h]
    exact isToken_iff.mpr ⟨')', [], rfl, rfl⟩
  have hcomma : ∀ name ∈ mediaTypes, ∀ quote ∈ quotes, ∀ token ∈ [",", String.singleton quote, name, String.singleton quote, ")"],
      IsToken token := by
    intro name hname quote hquote
    simp only [List.forall_mem_cons] at hclose ⊢
    exact ⟨isToken_iff.mpr ⟨',', [], rfl, rfl⟩, isToken_quote hquote, isToken_of_mem_mediaTypes hname, isToken_quote hquote, hclose⟩
  rw [isSome_tokens? hclose]
  constructor
  · rintro ⟨text, more, hs, h | ⟨hload, name, hname, quote, hquote, h⟩⟩
    · exact Or.inl ⟨text, more, hs, h⟩
    · exact Or.inr ⟨hload, name, hname, quote, hquote, (isSome_tokens? (hcomma name hname quote hquote)).mpr ⟨text, more, hs, h⟩⟩
  · rintro (⟨text, more, hs, h⟩ | ⟨hload, name, hname, quote, hquote, h⟩)
    · exact ⟨text, more, hs, Or.inl h⟩
    · obtain ⟨text, more, hs, h⟩ := (isSome_tokens? (hcomma name hname quote hquote)).mp h
      exact ⟨text, more, hs, Or.inr ⟨hload, name, hname, quote, hquote, h⟩⟩

/-- A call ends exactly where the reader of endings says. -/
theorem closes_iff : Closes callee s ↔ (ending? callee s).isSome = true := by
  rw [closes_iff_tokens]
  cases hs : dropBlank s with
  | nil =>
    have hnone : ∀ (c : Char) (more : List String), isBlank c = false → ¬(tokens? (String.singleton c :: more) s).isSome = true := by
      intro c more hc
      rw [tokens?_of_dropBlank_eq_nil (isToken_iff.mpr ⟨c, [], String.toList_singleton c, hc⟩) more hs]
      exact Bool.false_ne_true
    refine iff_of_false ?_ (by simp [ending?, hs])
    rintro (h | ⟨-, name, -, quote, -, h⟩)
    · exact hnone ')' [] rfl h
    · exact hnone ',' _ rfl h
  | cons c rest =>
    have hclose : (tokens? [")"] s).isSome = true ↔ ')' = c ∧ (tokens? [] rest).isSome = true := isSome_tokens?_singleton ')' [] hs
    have hcomma : ∀ more, (tokens? ("," :: more) s).isSome = true ↔ ',' = c ∧ (tokens? more rest).isSome = true :=
      fun more => isSome_tokens?_singleton ',' more hs
    simp only [hclose, hcomma, ending?, hs]
    split
    · next heq =>
      obtain ⟨rfl, rfl⟩ := List.cons.inj heq
      simp [tokens?]
    · next heq =>
      obtain ⟨rfl, rfl⟩ := List.cons.inj heq
      cases callee with
      | importScript => simp
      | load => simp [isSome_mediaType?]
    · next hparen hcomma =>
      refine iff_of_false ?_ Bool.false_ne_true
      rintro (⟨rfl, -⟩ | ⟨-, _, -, _, -, rfl, -⟩)
      · exact hparen _ rfl
      · exact hcomma _ rfl

/-! ## Contents -/

/-- The number of backslashes at the end, when a text goes on after some. -/
def backslashesFrom (n : Nat) (s : List Char) : Nat :=
  s.foldl (fun n c => if c = '\\' then n + 1 else 0) n

/-- The backslashes at the end are counted from the start. -/
theorem backslashes_eq (s : List Char) : backslashes s = backslashesFrom 0 s := by
  induction s using List.reverseRecOn with
  | nil => rfl
  | append_singleton s c ih =>
    have hfrom : backslashesFrom 0 (s ++ [c]) = if c = '\\' then backslashesFrom 0 s + 1 else 0 := List.foldl_append
    rw [hfrom, ← ih, backslashes, List.reverse_append, List.reverse_singleton, List.singleton_append, List.takeWhile_cons, backslashes]
    by_cases hc : c = '\\' <;> simp [hc]

/-- Whether an odd number of backslashes stands at the end depends on that of the ones before alone. -/
theorem backslashesFrom_parity {n m : Nat} (h : n % 2 = m % 2) (s : List Char) : backslashesFrom n s % 2 = backslashesFrom m s % 2 := by
  induction s generalizing n m with
  | nil => exact h
  | cons c s ih =>
    rw [backslashesFrom, backslashesFrom, List.foldl_cons, List.foldl_cons]
    refine ih ?_
    split
    · omega
    · rfl

/-- A character that is no backslash adds none. -/
theorem backslashes_cons (hc : c ≠ '\\') (s : List Char) : backslashes (c :: s) = backslashes s := by
  rw [backslashes_eq, backslashes_eq, backslashesFrom, List.foldl_cons, if_neg hc, backslashesFrom]

/-- What is escaped makes no difference to what follows. -/
theorem backslashes_escape (c : Char) (s : List Char) : backslashes ('\\' :: c :: s) % 2 = backslashes s % 2 := by
  rw [backslashes_eq, backslashes_eq, backslashesFrom, List.foldl_cons, List.foldl_cons]
  refine backslashesFrom_parity ?_ s
  by_cases hc : c = '\\' <;> simp [hc]

/-- There may be nothing between two quotes. -/
theorem isContent_nil (quote : Char) : IsContent quote [] :=
  ⟨fun _ _ h => absurd h (by simp), rfl⟩

/-- A character that is no backslash may begin a content unless it is the quote. -/
theorem isContent_cons (hc : c ≠ '\\') : IsContent quote (c :: s) ↔ c ≠ quote ∧ IsContent quote s := by
  constructor
  · intro h
    refine ⟨fun hquote => ?_, fun a b hs => ?_, ?_⟩
    · have := h.escaped [] s (by rw [hquote, List.nil_append])
      nomatch this
    · have := h.escaped (c :: a) b (by rw [hs, List.cons_append])
      rwa [backslashes_cons hc] at this
    · rw [← backslashes_cons hc]
      exact h.closed
  · rintro ⟨hquote, h⟩
    refine ⟨fun a b hs => ?_, by rw [backslashes_cons hc, h.closed]⟩
    cases a with
    | nil => exact absurd (List.cons.inj hs).1 hquote
    | cons d a =>
      obtain ⟨rfl, rfl⟩ := List.cons.inj hs
      rw [backslashes_cons hc, h.escaped a b rfl]

/-- An escaped character may begin every content. -/
theorem isContent_escape (hquote : quote ≠ '\\') : IsContent quote ('\\' :: c :: s) ↔ IsContent quote s := by
  constructor
  · intro h
    refine ⟨fun a b hs => ?_, by rw [← backslashes_escape c, h.closed]⟩
    rw [← backslashes_escape c]
    exact h.escaped ('\\' :: c :: a) b (by rw [hs, List.cons_append, List.cons_append])
  · intro h
    refine ⟨fun a b hs => ?_, by rw [backslashes_escape, h.closed]⟩
    match a, hs with
    | [], hs => exact absurd (List.cons.inj hs).1.symm hquote
    | [d], hs =>
      obtain ⟨rfl, -⟩ := List.cons.inj hs
      rfl
    | d :: e :: a, hs =>
      obtain ⟨hd, hs⟩ := List.cons.inj hs
      obtain ⟨-, hs⟩ := List.cons.inj hs
      rw [← hd, backslashes_escape, h.escaped a b hs]

/-- A single backslash is no content: it would escape the quote. -/
theorem not_isContent_backslash (quote : Char) : ¬IsContent quote ['\\'] :=
  fun h => absurd h.closed (by decide)

/-- A quote that is not escaped closes the content at once. -/
theorem closes_at_quote (hquote : quote ≠ '\\') :
    quote :: s = content ++ quote :: rest ∧ IsContent quote content ↔ content = [] ∧ s = rest := by
  constructor
  · rintro ⟨hs, h⟩
    cases content with
    | nil => exact ⟨rfl, (List.cons.inj hs).2⟩
    | cons d a =>
      rw [← (List.cons.inj hs).1] at h
      exact absurd rfl ((isContent_cons hquote).mp h).1
  · rintro ⟨rfl, rfl⟩
    exact ⟨rfl, isContent_nil quote⟩

/-- A plain character belongs to the content. -/
theorem closes_after_plain (hslash : c ≠ '\\') (hc : c ≠ quote) : c :: s = content ++ quote :: rest ∧ IsContent quote content ↔
    ∃ a, content = c :: a ∧ s = a ++ quote :: rest ∧ IsContent quote a := by
  constructor
  · rintro ⟨hs, h⟩
    cases content with
    | nil => exact absurd (List.cons.inj hs).1 hc
    | cons d a =>
      obtain ⟨rfl, htail⟩ := List.cons.inj hs
      exact ⟨a, rfl, htail, ((isContent_cons hslash).mp h).2⟩
  · rintro ⟨a, rfl, rfl, h⟩
    exact ⟨rfl, (isContent_cons hslash).mpr ⟨hc, h⟩⟩

/-- A backslash and the character after it belong to the content. -/
theorem closes_after_escape (hquote : quote ≠ '\\') : '\\' :: c :: s = content ++ quote :: rest ∧ IsContent quote content ↔
    ∃ a, content = '\\' :: c :: a ∧ s = a ++ quote :: rest ∧ IsContent quote a := by
  constructor
  · rintro ⟨hs, h⟩
    match content, hs with
    | [], hs => exact absurd (List.cons.inj hs).1.symm hquote
    | [d], hs =>
      rw [← (List.cons.inj hs).1] at h
      exact absurd h (not_isContent_backslash quote)
    | d :: e :: a, hs =>
      obtain ⟨hd, hs⟩ := List.cons.inj hs
      obtain ⟨he, hs⟩ := List.cons.inj hs
      rw [← hd, ← he] at h ⊢
      exact ⟨a, rfl, hs, (isContent_escape hquote).mp h⟩
  · rintro ⟨a, rfl, rfl, h⟩
    exact ⟨rfl, (isContent_escape hquote).mpr h⟩

/-- What is read when characters come before. -/
theorem map_content?_eq_some (before : List Char → List Char) :
    ((content? quote s).map fun (content, rest) => (before content, rest)) = some (content, rest) ↔
      ∃ a, content = before a ∧ content? quote s = some (a, rest) := by
  simp only [Option.map_eq_some_iff, Prod.exists, Prod.mk.injEq]
  constructor
  · rintro ⟨a, _, h, rfl, rfl⟩
    exact ⟨a, rfl, h⟩
  · rintro ⟨a, rfl, h⟩
    exact ⟨a, rest, h, rfl, rfl⟩

/-- A literal is read up to the first quote that closes it. -/
theorem content?_eq_some (hquote : quote ≠ '\\') :
    content? quote s = some (content, rest) ↔ s = content ++ quote :: rest ∧ IsContent quote content := by
  fun_induction content? quote s generalizing content with
  | case1 => simp
  | case2 c s ih =>
    rw [closes_after_escape hquote, map_content?_eq_some fun content => '\\' :: c :: content]
    simp only [ih]
  | case3 s hne =>
    rw [closes_at_quote hquote, Option.some.injEq, Prod.mk.injEq, @eq_comm _ [] content]
  | case4 c s hne hc ih =>
    by_cases hslash : c = '\\'
    -- A backslash at the end escapes nothing and is no quote.
    · have hs : s = [] := by
        cases s with
        | nil => rfl
        | cons d s => exact absurd rfl (hne d s hslash)
      rw [hs]
      refine iff_of_false nofun ?_
      rintro ⟨hs, -⟩
      cases content with
      | nil => exact hc (List.cons.inj hs).1
      | cons d a => exact absurd (List.cons.inj hs).2 (by simp)
    · rw [closes_after_plain hslash hc, map_content?_eq_some (c :: ·)]
      simp only [ih]

/-! ## The grammar -/

/-- No quote is a backslash. -/
theorem ne_backslash_of_mem_quotes (h : quote ∈ quotes) : quote ≠ '\\' := by
  rcases mem_quotes.mp h with rfl | rfl <;> decide

/-- The reader and the relation say the same, so a line has one reading at most. -/
theorem grammar?_eq_some : grammar? line = some (disabled, callee, argument) ↔ Declares line disabled callee argument := by
  simp only [grammar?, Option.bind_eq_some_iff, Prod.exists, ← opens_iff]
  constructor
  · rintro ⟨_, _, quote, ahead, hopens, content, rest, hcontent, hsome⟩
    rw [content?_eq_some (ne_backslash_of_mem_quotes hopens.1)] at hcontent
    obtain ⟨rfl, hcontent⟩ := hcontent
    split at hsome
    · next hends =>
      simp only [Option.some.injEq, Prod.mk.injEq] at hsome
      obtain ⟨rfl, rfl, rfl⟩ := hsome
      exact ⟨quote, _, content, hopens, ⟨rest, rfl, closes_iff.mpr hends⟩, hcontent, rfl⟩
    · nomatch hsome
  · rintro ⟨quote, _, content, hopens, ⟨rest, rfl, hcloses⟩, hcontent, rfl⟩
    refine ⟨disabled, callee, quote, _, hopens, content, rest, ?_, if_pos (closes_iff.mp hcloses)⟩
    exact (content?_eq_some (ne_backslash_of_mem_quotes hopens.1)).mpr ⟨rfl, hcontent⟩

/-- A line has one opening at most. -/
theorem Opens.unique {disabled' : Bool} {callee' : Callee} {quote' : Char} {ahead' : List Char}
    (h : Opens line disabled callee quote ahead) (h' : Opens line disabled' callee' quote' ahead') :
    disabled = disabled' ∧ callee = callee' ∧ quote = quote' ∧ ahead = ahead' := by
  rw [opens_iff] at h h'
  simpa using h.symm.trans h'

/-- A text has one literal at its start at most. -/
theorem IsContent.unique (hquote : quote ∈ quotes) {content' rest' : List Char} (h : IsContent quote content)
    (h' : IsContent quote content') (hsame : content ++ quote :: rest = content' ++ quote :: rest') : content = content' ∧ rest = rest' := by
  have hread : content? quote (content ++ quote :: rest) = some (content, rest) :=
    (content?_eq_some (ne_backslash_of_mem_quotes hquote)).mpr ⟨rfl, h⟩
  have hread' := (content?_eq_some (ne_backslash_of_mem_quotes hquote)).mpr ⟨hsame, h'⟩
  simpa using hread.symm.trans hread'

end Statement

end UserScripts
