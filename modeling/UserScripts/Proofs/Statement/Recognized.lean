import UserScripts.Proofs.Statement.Grammar

/-!
# What is recognized as a statement

The reader of statements takes a literal up to the first quote after which the call can end, whatever stands before that quote. It
agrees with the grammar unless that is not where the literal ends, or the literal is blank, or a line feed is in it. Main statement:
`follows_grammar_iff`.
-/

namespace UserScripts

open UserScripts.Text

namespace Statement

variable {line ahead content content' : List Char} {disabled : Bool} {callee : Callee} {quote : Char}

/-- A text without the blanks around it. -/
def trimmed (s : List Char) : List Char :=
  dropEndBlank (dropBlank s)

/-- A line that is recognized exactly if it is a statement by the grammar, and of which the title or URL that the grammar says is
handed on. -/
structure FollowsGrammar (line : String) : Prop where
  accepts : ∀ target, (Entry.ofLine? line target).isSome = true ↔ ∃ disabled callee argument, Declares line.toList disabled callee argument
  hands : ∀ s, ofLine? line.toList = some s → Declares line.toList s.disabled s.callee s.argument

/-- The first quote ahead that is not blank up to there and after which the call can end. -/
structure EndsFirst (callee : Callee) (quote : Char) (ahead content : List Char) : Prop where
  ends : Ends callee quote ahead content
  shown : ∃ c ∈ content, isBlank c = false
  least : ∀ content', Ends callee quote ahead content' → (∃ c ∈ content', isBlank c = false) → content.length ≤ content'.length

/-- A line of which something else is read than the grammar says: a blank literal, a literal with a line feed, or a text that is no
literal, up to a quote after which the call can end. -/
inductive Misread (line : List Char) : Prop
  | blank {disabled : Bool} {callee : Callee} {quote : Char} {ahead content : List Char} (opens : Opens line disabled callee quote ahead)
      (ends : Ends callee quote ahead content) (blank : ∀ c ∈ content, isBlank c = true) : Misread line
  | broken {disabled : Bool} {callee : Callee} {quote : Char} {ahead content : List Char} (opens : Opens line disabled callee quote ahead)
      (ends : Ends callee quote ahead content) (literal : IsContent quote content) (feed : '\n' ∈ trimmed content) : Misread line
  | cut {disabled : Bool} {callee : Callee} {quote : Char} {ahead content : List Char} (opens : Opens line disabled callee quote ahead)
      (ends : EndsFirst callee quote ahead content) (notLiteral : ¬IsContent quote content) (noFeed : '\n' ∉ trimmed content) :
      Misread line

/-! ## Where a call can end -/

/-- The closing of a call is a quote, blanks before it aside, and an ending. -/
theorem close?_eq_bind (callee : Callee) (quote : Char) (s : List Char) :
    close? callee quote s = (after? [quote] (dropBlank s)).bind (ending? callee) := rfl

/-- A closing can be read exactly if, after blanks, the call ends. -/
theorem isSome_close? (hquote : quote ∈ quotes) {s : List Char} : (close? callee quote s).isSome = true ↔
    ∃ b, (∀ c ∈ b, isBlank c = true) ∧ Ends callee quote s b := by
  rw [close?_eq_bind]
  constructor
  · intro h
    cases hs : after? [quote] (dropBlank s) with
    | none =>
      rw [hs] at h
      nomatch h
    | some rest =>
      rw [hs, Option.bind_some] at h
      rw [after?_eq_some, List.singleton_append] at hs
      obtain ⟨b, hb, hblank⟩ := exists_blank_append_dropBlank s
      rw [hs] at hb
      exact ⟨b, hblank, rest, hb, closes_iff.mpr h⟩
  · rintro ⟨b, hblank, rest, rfl, hcloses⟩
    rw [dropBlank_append_of_blank hblank, dropBlank_cons_of_not_blank (isBlank_of_mem_quotes hquote), after?, if_pos rfl]
    exact closes_iff.mp hcloses

/-- A call is read as its literal and what closes it. -/
theorem call?_eq_some {s : List Char} {st : Statement} : call? disabled callee s = some st ↔
    st.disabled = disabled ∧ st.callee = callee ∧ ∃ quote ahead, quote? s = some (quote, ahead) ∧
      literal? (close? callee quote) ahead = some (st.body, st.mediaType, st.rest) := by
  unfold call? quote?
  cases dropBlank s with
  | nil => simp
  | cons quote ahead =>
    simp only
    split
    · split
      · next body mediaType rest hread =>
        simp only [Option.some.injEq, Prod.mk.injEq]
        constructor
        · rintro rfl
          exact ⟨rfl, rfl, quote, ahead, ⟨rfl, rfl⟩, hread⟩
        · rintro ⟨rfl, rfl, _, _, ⟨rfl, rfl⟩, hread'⟩
          have hsame := hread.symm.trans hread'
          simp only [Option.some.injEq, Prod.mk.injEq] at hsame
          obtain ⟨rfl, rfl, rfl⟩ := hsame
          rfl
      · next hread =>
        refine iff_of_false nofun ?_
        rintro ⟨-, -, _, _, heq, hread'⟩
        obtain ⟨rfl, rfl⟩ := Prod.mk.inj (Option.some.inj heq)
        rw [hread] at hread'
        nomatch hread'
    · simp

/-- A line is read as its callee, the slashes before it aside, and a call. -/
theorem ofLine?_eq_bind (line : List Char) :
    ofLine? line = (callee? (dropSlashes line).2).bind fun (callee, s) => call? (dropSlashes line).1 callee s := by
  rw [ofLine?, callee?]
  cases himport : tokens? ["importScript", "("] (dropSlashes line).2 with
  | some rest => simp [Callee.tokens, himport]
  | none =>
    cases hload : tokens? ["mw", ".", "loader", ".", "load", "("] (dropSlashes line).2 with
    | some rest => simp [Callee.tokens, himport, hload]
    | none => simp [Callee.tokens, himport, hload]

/-- A statement is read from a line that opens its literal and from what is read as the literal then. -/
theorem ofLine?_eq_some {st : Statement} : ofLine? line = some st ↔ ∃ quote ahead, Opens line st.disabled st.callee quote ahead ∧
    literal? (close? st.callee quote) ahead = some (st.body, st.mediaType, st.rest) := by
  simp only [ofLine?_eq_bind, opens_iff, opening?, Option.bind_eq_some_iff, Option.map_eq_some_iff, Prod.exists, call?_eq_some,
    Prod.mk.injEq]
  constructor
  · rintro ⟨_, s, hcallee, hdisabled, rfl, quote, ahead, hquote, hread⟩
    exact ⟨quote, ahead, ⟨_, s, hcallee, quote, ahead, hquote, hdisabled.symm, rfl, rfl, rfl⟩, hread⟩
  · rintro ⟨_, _, ⟨_, s, hcallee, quote, ahead, hquote, hdisabled, rfl, rfl, rfl⟩, hread⟩
    exact ⟨_, s, hcallee, hdisabled.symm, rfl, quote, ahead, hquote, hread⟩

/-! ## Blanks around a literal -/

/-- Trimming goes by characters. -/
theorem trim_ofList (s : List Char) : trim (String.ofList s) = String.ofList (trimmed s) := by
  rw [trim, String.toList_ofList, trimmed]

/-- A blank in front makes no difference to a trimmed text. -/
theorem trimmed_cons_of_blank {c : Char} (hc : isBlank c = true) (s : List Char) : trimmed (c :: s) = trimmed s := by
  rw [trimmed, dropBlank_cons_of_blank hc, trimmed]

/-- Blanks at the end are dropped. -/
theorem dropEndBlank_append_of_blank {b : List Char} (hb : ∀ c ∈ b, isBlank c = true) (s : List Char) :
    dropEndBlank (s ++ b) = dropEndBlank s := by
  rw [dropEndBlank, dropEndBlank, List.reverse_append, List.dropWhile_append_of_pos fun c hc => hb c (List.mem_reverse.mp hc)]

/-- A text that starts with a character that is not blank loses the blanks at its end only. -/
theorem exists_trimmed_append {c : Char} (hc : isBlank c = false) (s : List Char) :
    ∃ b, c :: s = trimmed (c :: s) ++ b ∧ (∀ d ∈ b, isBlank d = true) ∧ trimmed (c :: s) ≠ [] ∧
      ∀ d ∈ (trimmed (c :: s)).getLast?, isBlank d = false := by
  have htrim : trimmed (c :: s) = (c :: s).rdropWhile isBlank := by
    rw [trimmed, dropBlank_cons_of_not_blank hc, dropEndBlank_eq]
  rw [htrim]
  have hne : (c :: s).rdropWhile isBlank ≠ [] := by
    rw [Ne, List.rdropWhile_eq_nil_iff]
    intro hall
    rw [hall c List.mem_cons_self] at hc
    nomatch hc
  refine ⟨(c :: s).rtakeWhile isBlank, List.rdropWhile_append_rtakeWhile.symm, fun d hd => List.mem_rtakeWhile_imp hd, hne, ?_⟩
  intro d hd
  rw [List.getLast?_eq_some_getLast hne, Option.mem_some_iff] at hd
  rw [← hd]
  simpa using List.rdropWhile_last_not isBlank _ hne

/-- An ending goes character by character. -/
theorem ends_cons_cons {c d : Char} {s : List Char} :
    Ends callee quote (c :: s) (d :: content) ↔ d = c ∧ Ends callee quote s content := by
  constructor
  · rintro ⟨rest, hs, hcloses⟩
    obtain ⟨rfl, rfl⟩ := List.cons.inj hs
    exact ⟨rfl, rest, rfl, hcloses⟩
  · rintro ⟨rfl, rest, rfl, hcloses⟩
    exact ⟨rest, rfl, hcloses⟩

/-- The first ending may be looked for after a blank. -/
theorem endsFirst_cons {c : Char} (hc : isBlank c = true) {s : List Char} :
    EndsFirst callee quote (c :: s) (c :: content) ↔ EndsFirst callee quote s content := by
  have hshown : ∀ {t}, (∃ d ∈ c :: t, isBlank d = false) ↔ ∃ d ∈ t, isBlank d = false := by
    intro t
    simp [hc]
  constructor
  · rintro ⟨hends, hsome, hleast⟩
    refine ⟨(ends_cons_cons.mp hends).2, hshown.mp hsome, fun content' hends' hsome' => ?_⟩
    have := hleast (c :: content') (ends_cons_cons.mpr ⟨rfl, hends'⟩) (hshown.mpr hsome')
    simpa using this
  · rintro ⟨hends, hsome, hleast⟩
    refine ⟨ends_cons_cons.mpr ⟨rfl, hends⟩, hshown.mpr hsome, fun content' hends' hsome' => ?_⟩
    cases content' with
    | nil => simp at hsome'
    | cons d content' =>
      obtain ⟨rfl, htail⟩ := ends_cons_cons.mp hends'
      simpa using hleast content' htail (hshown.mp hsome')

/-! ## What is read as the literal -/

/-- The blanks before a closing quote do not count. -/
theorem close?_of_closes (hquote : quote ∈ quotes) {b rest : List Char} (hblank : ∀ c ∈ b, isBlank c = true)
    (hcloses : Closes callee rest) :
    ∃ result, close? callee quote (b ++ quote :: rest) = some result :=
  Option.isSome_iff_exists.mp ((isSome_close? hquote).mpr ⟨b, hblank, rest, rfl, hcloses⟩)

/-- A text that starts with a character that is not blank is read up to the first quote after which the call can end. -/
theorem shortest_of_endsFirst (hquote : quote ∈ quotes) {c : Char} (hc : isBlank c = false) {s : List Char}
    (h : EndsFirst callee quote (c :: s) (c :: content)) (hfeed : '\n' ∉ trimmed (c :: content)) :
    ∃ result, Address.shortest (close? callee quote) (c :: s) = some (trimmed (c :: content), result) := by
  obtain ⟨rest, hs, hcloses⟩ := h.ends
  obtain ⟨b, hb, hblank, hne, hlast⟩ := exists_trimmed_append hc content
  obtain ⟨result, hresult⟩ := close?_of_closes hquote hblank hcloses
  have hahead : c :: s = trimmed (c :: content) ++ (b ++ quote :: rest) := by rw [hs, ← List.append_assoc, ← hb]
  rw [hahead]
  refine ⟨result, Address.shortest_append hne hfeed (fun q r hqr hq hr => ?_) hresult⟩
  -- A quote among blanks that comes earlier would come before the first one.
  by_contra hsome
  obtain ⟨b', hblank', rest', heq, hcloses'⟩ := (isSome_close? hquote).mp (Option.isSome_iff_ne_none.mpr hsome)
  have hends' : Ends callee quote (c :: s) (q ++ b') :=
    ⟨rest', by rw [hahead, hqr, List.append_assoc, heq, List.append_assoc], hcloses'⟩
  have hshown : ∃ d ∈ q ++ b', isBlank d = false := by
    rw [hqr] at hb
    obtain ⟨d, q, rfl⟩ := List.exists_cons_of_ne_nil hq
    obtain ⟨rfl, -⟩ := List.cons.inj hb
    exact ⟨c, by simp, hc⟩
  have hlength := h.least _ hends' hshown
  rw [hb, hqr, List.length_append, List.length_append, List.length_append] at hlength
  have hinside : r <+: b' := List.prefix_of_prefix_length_le ⟨b ++ quote :: rest, rfl⟩ ⟨quote :: rest', heq.symm⟩ (by omega)
  have hend := hlast (r.getLast hr) (by rw [hqr, List.getLast?_append_of_ne_nil _ hr, List.getLast?_eq_some_getLast hr]; rfl)
  rw [hblank' _ (hinside.subset (List.getLast_mem hr))] at hend
  cases hend

/-- The literal is read up to the first quote after which the call can end, if no line feed comes before. -/
theorem literal?_of_endsFirst (hquote : quote ∈ quotes) (h : EndsFirst callee quote ahead content) (hfeed : '\n' ∉ trimmed content) :
    ∃ result, literal? (close? callee quote) ahead = some (trimmed content, result) := by
  induction ahead generalizing content with
  | nil =>
    obtain ⟨rest, hs, -⟩ := h.ends
    exact absurd hs (by simp)
  | cons c s ih =>
    cases content with
    | nil =>
      obtain ⟨c, hc, -⟩ := h.shown
      cases hc
    | cons d content =>
      obtain ⟨rfl, -⟩ := ends_cons_cons.mp h.ends
      cases hd : isBlank d with
      | true =>
        rw [trimmed_cons_of_blank hd] at hfeed ⊢
        obtain ⟨result, hread⟩ := ih ((endsFirst_cons hd).mp h) hfeed
        exact ⟨result, literal?_cons_of_some hd hread⟩
      | false =>
        rw [literal?_cons_of_not_blank hd]
        exact shortest_of_endsFirst hquote hd h hfeed

/-- What is read ends with no blank, since the blanks at its end could be left out. -/
theorem trimmed_of_shortest (hquote : quote ∈ quotes) {c : Char} (hc : isBlank c = false) {s body b rest : List Char}
    {result : Option String × List Char} (h : Address.shortest (close? callee quote) (c :: s) = some (c :: body, result))
    (hs : s = body ++ (b ++ quote :: rest)) (hblank : ∀ d ∈ b, isBlank d = true) (hcloses : Closes callee rest) :
    trimmed (c :: body) = c :: body := by
  obtain ⟨b', hb, hblank', hne, -⟩ := exists_trimmed_append hc body
  by_contra hlt
  have hahead : c :: s = trimmed (c :: body) ++ (b' ++ b ++ quote :: rest) := by
    rw [hs, List.append_assoc, ← List.append_assoc _ b', ← hb, List.cons_append]
  have hpos : 0 < b'.length := by
    rw [List.length_pos_iff]
    rintro rfl
    exact hlt (by rw [List.append_nil] at hb; exact hb.symm)
  have hlength := congrArg List.length hb
  rw [List.length_append] at hlength
  have hblanks : ∀ d ∈ b' ++ b, isBlank d = true := fun d hd => (List.mem_append.mp hd).elim (hblank' d) (hblank d)
  obtain ⟨result', hresult⟩ := close?_of_closes hquote hblanks hcloses
  exact Option.some_ne_none _ (hresult.symm.trans (Address.shortest_least h hahead hne (by omega)))

/-- What is read from a text that starts with a character that is not blank goes up to the first quote after which the call can
end. -/
theorem endsFirst_of_shortest (hquote : quote ∈ quotes) {c : Char} (hc : isBlank c = false) {s body : List Char}
    {result : Option String × List Char} (h : Address.shortest (close? callee quote) (c :: s) = some (body, result)) :
    ∃ content, EndsFirst callee quote (c :: s) content ∧ '\n' ∉ trimmed content ∧ body = trimmed content := by
  obtain ⟨t, hs, hne, hfeed, ht⟩ := Address.shortest_eq_some h
  obtain ⟨b, hblank, rest, rfl, hcloses⟩ := (isSome_close? hquote).mp (Option.isSome_of_eq_some ht)
  obtain ⟨d, body, rfl⟩ := List.exists_cons_of_ne_nil hne
  obtain ⟨rfl, htail⟩ : c = d ∧ s = body ++ (b ++ quote :: rest) := List.cons.inj hs
  have hbody := trimmed_of_shortest hquote hc h htail hblank hcloses
  have htrimmed : trimmed (c :: body ++ b) = c :: body := by
    rw [trimmed, dropBlank_cons_of_not_blank hc] at hbody
    rw [trimmed, List.cons_append, dropBlank_cons_of_not_blank hc, ← List.cons_append, dropEndBlank_append_of_blank hblank, hbody]
  have hahead : c :: s = (c :: body ++ b) ++ quote :: rest := by rw [htail, List.append_assoc, List.cons_append]
  refine ⟨c :: body ++ b, ⟨⟨rest, hahead, hcloses⟩, ⟨c, by simp, hc⟩, fun content' hends' hshown' => ?_⟩, by rwa [htrimmed],
    htrimmed.symm⟩
  obtain ⟨rest', hahead', hcloses'⟩ := hends'
  by_contra hlt
  rcases Nat.lt_or_ge content'.length (c :: body).length with hshort | hge
  · have hne' : content' ≠ [] := by
      rintro rfl
      obtain ⟨_, h, -⟩ := hshown'
      cases h
    obtain ⟨result', hresult⟩ := close?_of_closes hquote (List.forall_mem_nil _) hcloses'
    exact Option.some_ne_none _ (hresult.symm.trans (Address.shortest_least h hahead' hne' hshort))
  -- The quote would be one of the blanks.
  · rw [List.length_append] at hlt
    have hat := congrArg (fun l : List Char => l[content'.length]?) (hahead'.symm.trans hahead)
    simp only [List.getElem?_append_right (Nat.le_refl _), Nat.sub_self, List.getElem?_cons_zero, List.append_assoc] at hat
    rw [List.getElem?_append_right hge, List.getElem?_append_left (by omega)] at hat
    have := hblank quote (List.mem_of_getElem? hat.symm)
    rw [isBlank_of_mem_quotes hquote] at this
    cases this

/-- A literal is read where a text up to its closing quote is found. -/
theorem literal?_of_shortest {α : Type} {next : List Char → Option α} {s : List Char} (h : (Address.shortest next s).isSome = true) :
    (literal? next s).isSome = true := by
  cases s with
  | nil => nomatch h
  | cons c s =>
    rw [literal?]
    split
    · split
      · rfl
      · exact h
    · exact h

/-- What is read as a literal goes up to the first quote after which the call can end, or the literal is blank. -/
theorem exists_ends_of_literal? (hquote : quote ∈ quotes) {body : List Char} {result : Option String × List Char}
    (h : literal? (close? callee quote) ahead = some (body, result)) : ∃ content, Ends callee quote ahead content ∧
      ((∀ c ∈ content, isBlank c = true) ∨ EndsFirst callee quote ahead content ∧ '\n' ∉ trimmed content ∧ body = trimmed content) := by
  induction ahead with
  | nil => cases h
  | cons c s ih =>
    cases hc : isBlank c with
    | false =>
      rw [literal?_cons_of_not_blank hc] at h
      obtain ⟨content, hfirst, hread⟩ := endsFirst_of_shortest hquote hc h
      exact ⟨content, hfirst.ends, Or.inr ⟨hfirst, hread⟩⟩
    | true =>
      cases hrest : literal? (close? callee quote) s with
      | some result' =>
        rw [literal?_cons_of_some hc hrest, ← hrest] at h
        obtain ⟨content, hends, hcases⟩ := ih h
        refine ⟨c :: content, ends_cons_cons.mpr ⟨rfl, hends⟩, hcases.imp ?_ ?_⟩
        · intro hblank
          simpa [hc] using hblank
        · rintro ⟨hfirst, hfeed, hbody⟩
          rw [trimmed_cons_of_blank hc]
          exact ⟨(endsFirst_cons hc).mpr hfirst, hfeed, hbody⟩
      | none =>
        rw [literal?, if_pos hc, hrest] at h
        cases hnext : close? callee quote s with
        | some a =>
          obtain ⟨b, hblank, hends⟩ := (isSome_close? hquote).mp (Option.isSome_of_eq_some hnext)
          exact ⟨c :: b, ends_cons_cons.mpr ⟨rfl, hends⟩, Or.inl (by simpa [hc] using hblank)⟩
        | none =>
          have hsome : (Address.shortest (close? callee quote) s).isSome = true := by
            simp only at h
            by_cases hfeed : c = '\n'
            · rw [Address.shortest, if_pos hfeed] at h
              cases h
            · rw [Address.shortest_cons_of_none hfeed hnext, Option.map_eq_some_iff] at h
              obtain ⟨_, hread, -⟩ := h
              exact Option.isSome_of_eq_some hread
          have := literal?_of_shortest hsome
          rw [hrest] at this
          cases this

/-! ## What is handed on -/

/-- Undoing escapes neither adds nor takes away a quote. -/
theorem count_ofLiteral (hquote : quote ∈ quotes) (s : List Char) : (ofLiteral s).count quote = s.count quote := by
  rcases mem_quotes.mp hquote with rfl | rfl
  all_goals fun_induction ofLiteral s <;> simp_all [List.count_cons]

/-- Trimming drops no quote. -/
theorem count_trimmed (hquote : quote ∈ quotes) (s : List Char) : (trimmed s).count quote = s.count quote := by
  have hdrop : ∀ s : List Char, (s.dropWhile isBlank).count quote = s.count quote := by
    intro s
    have hnone : (s.takeWhile isBlank).count quote = 0 := by
      rw [List.count_eq_zero]
      intro hmem
      have := List.mem_takeWhile_imp hmem
      rw [isBlank_of_mem_quotes hquote] at this
      nomatch this
    have hsplit := congrArg (List.count quote) (List.takeWhile_append_dropWhile (p := isBlank) (l := s))
    rw [List.count_append, hnone, Nat.zero_add] at hsplit
    exact hsplit
  rw [trimmed, dropEndBlank, List.count_reverse, hdrop, List.count_reverse, dropBlank, hdrop]

/-- Of two texts up to a quote, the longer one goes on with that quote. -/
theorem Ends.eq_or_append (h : Ends callee quote ahead content) (h' : Ends callee quote ahead content')
    (hle : content.length ≤ content'.length) : content' = content ∨ ∃ more, content' = content ++ quote :: more := by
  obtain ⟨rest, rfl, -⟩ := h
  obtain ⟨rest', hahead, -⟩ := h'
  obtain ⟨t, rfl⟩ := List.prefix_of_prefix_length_le ⟨_, hahead⟩ (List.prefix_append content' _) hle
  cases t with
  | nil => exact Or.inl (List.append_nil _)
  | cons d t =>
    rw [List.append_assoc, List.append_cancel_left_eq] at hahead
    obtain ⟨rfl, -⟩ := List.cons.inj hahead
    exact Or.inr ⟨t, rfl⟩

/-- Texts up to different quotes stand for different texts. -/
theorem content_eq_of_argument (hquote : quote ∈ quotes) (h : Ends callee quote ahead content) (h' : Ends callee quote ahead content')
    (hargument : unescapeLiteral (trim (String.ofList content)) = unescapeLiteral (trim (String.ofList content'))) :
    content = content' := by
  have hcount := congrArg (fun s => s.toList.count quote) hargument
  simp only [unescapeLiteral, trim_ofList, String.toList_ofList] at hcount
  rw [count_ofLiteral hquote, count_ofLiteral hquote, count_trimmed hquote, count_trimmed hquote] at hcount
  rcases Nat.le_total content.length content'.length with hle | hle
  · obtain rfl | ⟨more, rfl⟩ := h.eq_or_append h' hle
    · rfl
    · rw [List.count_append, List.count_cons_self] at hcount
      omega
  · obtain rfl | ⟨more, rfl⟩ := h'.eq_or_append h hle
    · rfl
    · rw [List.count_append, List.count_cons_self] at hcount
      omega

/-- The argument of a statement depends on its body without the blanks around it. -/
theorem argument_eq_of_body {st : Statement} (h : st.body = trimmed content) :
    st.argument = unescapeLiteral (trim (String.ofList content)) := by
  rw [argument, h, unescapeLiteral, trim_ofList, String.toList_ofList]

/-- A blank text may stand between quotes. -/
theorem isContent_of_blank (hquote : quote ∈ quotes) (h : ∀ c ∈ content, isBlank c = true) : IsContent quote content := by
  refine ⟨fun a b hab => ?_, ?_⟩
  · have := h quote (by rw [hab]; simp)
    rw [isBlank_of_mem_quotes hquote] at this
    nomatch this
  · have hnone : content.reverse.takeWhile (· = '\\') = [] := by
      rw [List.takeWhile_eq_nil_iff]
      intro hlt hslash
      have hblank := h _ (List.mem_reverse.mp (List.get_mem content.reverse ⟨0, hlt⟩))
      rw [of_decide_eq_true hslash] at hblank
      nomatch hblank
    rw [backslashes, hnone, List.length_nil]

/-- Nothing is left of a text of blanks. -/
theorem trimmed_of_blank (h : ∀ c ∈ content, isBlank c = true) : trimmed content = [] := by
  rw [trimmed, dropBlank_eq_nil.mpr h]
  rfl

/-- A line feed that is read in a text up to one quote is read in the text up to a later one. -/
theorem mem_trimmed_append {c : Char} (hquote : quote ∈ quotes) (more : List Char) (h : c ∈ trimmed content) :
    c ∈ trimmed (content ++ quote :: more) := by
  have hblank : isBlank quote = false := isBlank_of_mem_quotes hquote
  rw [trimmed, dropBlank_append_cons hblank, dropEndBlank_append_cons hblank]
  exact List.mem_append_left _ ((List.rdropWhile_prefix isBlank _).subset h)

/-- Some quote is the first after which the call can end. -/
theorem exists_endsFirst (h : Ends callee quote ahead content) (hshown : ∃ c ∈ content, isBlank c = false) :
    ∃ content', EndsFirst callee quote ahead content' := by
  induction hlength : content.length using Nat.strong_induction_on generalizing content with
  | _ n ih =>
    by_cases hless : ∃ content', Ends callee quote ahead content' ∧ (∃ c ∈ content', isBlank c = false) ∧ content'.length < n
    · obtain ⟨content', hends', hshown', hlt⟩ := hless
      exact ih _ hlt hends' hshown' rfl
    · refine ⟨content, h, hshown, fun content' hends' hshown' => ?_⟩
      by_contra hlt
      exact hless ⟨content', hends', hshown', by omega⟩

/-! ## Main statement -/

/-- Whether a line is a statement does not depend on the target. -/
theorem isSome_ofLine? (line target : String) : (Entry.ofLine? line target).isSome = (ofLine? line.toList).isSome := by
  rw [Entry.ofLine?, Option.isSome_map]

/-- A statement is read from every line of which the first quote after which the call can end closes a literal without a line feed. -/
theorem exists_ofLine?_of_endsFirst (hopens : Opens line disabled callee quote ahead) (h : EndsFirst callee quote ahead content)
    (hfeed : '\n' ∉ trimmed content) : ∃ st, ofLine? line = some st ∧ st.disabled = disabled ∧ st.callee = callee ∧
      st.body = trimmed content := by
  obtain ⟨⟨mediaType, rest⟩, hread⟩ := literal?_of_endsFirst hopens.1 h hfeed
  exact ⟨⟨disabled, callee, trimmed content, mediaType, rest, literal?_ne_nil hread⟩, ofLine?_eq_some.mpr ⟨quote, ahead, hopens, hread⟩,
    rfl, rfl, rfl⟩

/-- A line that is not misread is read as the grammar says. -/
theorem followsGrammar_of_not_misread {line : String} (h : ¬Misread line.toList) : FollowsGrammar line := by
  have hands : ∀ s, ofLine? line.toList = some s → Declares line.toList s.disabled s.callee s.argument := by
    intro s hs
    obtain ⟨quote, ahead, hopens, hread⟩ := ofLine?_eq_some.mp hs
    obtain ⟨content, hends, hblank | ⟨hfirst, hfeed, hbody⟩⟩ := exists_ends_of_literal? hopens.1 hread
    · exact absurd (.blank hopens hends hblank) h
    · by_cases hliteral : IsContent quote content
      · exact ⟨quote, ahead, content, hopens, hends, hliteral, argument_eq_of_body hbody⟩
      · exact absurd (.cut hopens hfirst hliteral hfeed) h
  refine ⟨fun target => ?_, hands⟩
  rw [isSome_ofLine?]
  constructor
  · intro hsome
    obtain ⟨s, hs⟩ := Option.isSome_iff_exists.mp hsome
    exact ⟨_, _, _, hands s hs⟩
  · rintro ⟨disabled, callee, argument, quote, ahead, content, hopens, hends, hliteral, rfl⟩
    have hshown : ∃ c ∈ content, isBlank c = false := by
      by_contra hnone
      refine h (.blank hopens hends fun c hc => ?_)
      by_contra hblank
      exact hnone ⟨c, hc, Bool.eq_false_iff.mpr hblank⟩
    have hfeed : '\n' ∉ trimmed content := fun hmem => h (.broken hopens hends hliteral hmem)
    obtain ⟨first, hfirst⟩ := exists_endsFirst hends hshown
    have hfeed' : '\n' ∉ trimmed first := by
      obtain rfl | ⟨more, rfl⟩ := hfirst.ends.eq_or_append hends (hfirst.least content hends hshown)
      · exact hfeed
      · exact fun hmem => hfeed (mem_trimmed_append hopens.1 more hmem)
    obtain ⟨s, hs, -⟩ := exists_ofLine?_of_endsFirst hopens hfirst hfeed'
    rw [hs]
    rfl

/-- A line of which something else is read does not follow the grammar. -/
theorem not_followsGrammar_of_misread {line : String} (h : Misread line.toList) : ¬FollowsGrammar line := by
  intro hfollows
  -- What is handed on is what the grammar says, and only one thing can be.
  have hread : ∀ {disabled callee argument}, Declares line.toList disabled callee argument →
      ∃ s, ofLine? line.toList = some s ∧ s.argument = argument := by
    intro disabled callee argument hdeclares
    have hsome := (hfollows.accepts "").mpr ⟨_, _, _, hdeclares⟩
    rw [isSome_ofLine?] at hsome
    obtain ⟨s, hs⟩ := Option.isSome_iff_exists.mp hsome
    have hsame := (grammar?_eq_some.mpr (hfollows.hands s hs)).symm.trans (grammar?_eq_some.mpr hdeclares)
    simp only [Option.some.injEq, Prod.mk.injEq] at hsame
    exact ⟨s, hs, hsame.2.2⟩
  cases h with
  | @blank _ _ quote _ content opens ends blank =>
    obtain ⟨s, -, hargument⟩ := hread ⟨quote, _, content, opens, ends, isContent_of_blank opens.1 blank, rfl⟩
    rw [unescapeLiteral, trim_ofList, String.toList_ofList, trimmed_of_blank blank] at hargument
    exact s.argument_ne_empty hargument
  | @broken _ _ quote _ content opens ends literal feed =>
    obtain ⟨s, hs, hargument⟩ := hread ⟨quote, _, content, opens, ends, literal, rfl⟩
    obtain ⟨quote', ahead', opens', hbody⟩ := ofLine?_eq_some.mp hs
    obtain ⟨rfl, rfl, rfl, rfl⟩ := opens.unique opens'
    obtain ⟨content', ends', blank | ⟨-, noFeed, hbody⟩⟩ := exists_ends_of_literal? opens.1 hbody
    · obtain ⟨rest, hahead, -⟩ := ends
      obtain ⟨rest', hahead', -⟩ := ends'
      obtain ⟨rfl, -⟩ := literal.unique opens.1 (isContent_of_blank opens.1 blank) (hahead.symm.trans hahead')
      rw [trimmed_of_blank blank] at feed
      nomatch feed
    · rw [argument_eq_of_body hbody] at hargument
      obtain rfl := content_eq_of_argument opens.1 ends' ends hargument
      exact noFeed feed
  | @cut _ _ quote _ content opens ends notLiteral noFeed =>
    obtain ⟨s, hs, rfl, rfl, hbody⟩ := exists_ofLine?_of_endsFirst opens ends noFeed
    obtain ⟨quote', ahead', content', opens', ends', literal, hargument⟩ := hfollows.hands s hs
    obtain ⟨-, -, rfl, rfl⟩ := opens.unique opens'
    rw [argument_eq_of_body hbody] at hargument
    obtain rfl := content_eq_of_argument opens.1 ends.ends ends' hargument
    exact notLiteral literal

/-- A line is recognized exactly if it is a statement by the documented grammar, and what is handed on of it is the title or URL for
which its literal stands, unless the line is misread. -/
theorem follows_grammar_iff (line : String) : FollowsGrammar line ↔ ¬Misread line.toList :=
  ⟨fun h hmisread => not_followsGrammar_of_misread hmisread h, followsGrammar_of_not_misread⟩

/-- Two literals that are put together are read as one, quotes and all. -/
theorem concatenation_is_read_as_a_literal :
    Entry.ofLine? "importScript('User:A/' + 'x.js');" "common" =
        some (Entry.ofPage "User:A/' + 'x.js" (by decide) none "common" false) ∧
      (∀ disabled callee argument, ¬Declares "importScript('User:A/' + 'x.js');".toList disabled callee argument) ∧
      ¬FollowsGrammar "importScript('User:A/' + 'x.js');" := by
  have hread : Entry.ofLine? "importScript('User:A/' + 'x.js');" "common" =
      some (Entry.ofPage "User:A/' + 'x.js" (by decide) none "common" false) := by decide +kernel
  have hgrammar : grammar? "importScript('User:A/' + 'x.js');".toList = none := by decide +kernel
  have hnone : ∀ disabled callee argument, ¬Declares "importScript('User:A/' + 'x.js');".toList disabled callee argument := by
    intro disabled callee argument hdeclares
    rw [grammar?_eq_some.mpr hdeclares] at hgrammar
    nomatch hgrammar
  refine ⟨hread, hnone, fun h => ?_⟩
  obtain ⟨disabled, callee, argument, hdeclares⟩ := (h.accepts "common").mp (by rw [hread]; rfl)
  exact hnone disabled callee argument hdeclares

end Statement

end UserScripts
