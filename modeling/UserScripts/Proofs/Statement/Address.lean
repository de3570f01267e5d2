import UserScripts.Entry.Address
import UserScripts.Proofs.Text.Percent
import UserScripts.Proofs.Text.Scan
import UserScripts.Proofs.Text.Substitute

/-!
# Facts about page addresses

How the shortest text up to a place is found, where the wiki and the page that a URL names stand in it, and what decoding makes
of them. Main statements: `parts?_eq_some` and `countP_page?_le`.
-/

namespace UserScripts

open UserScripts.Text

namespace Address

/-! ## The shortest text -/

/-- The shortest text before what is looked for is one character if that is ahead of it. -/
theorem shortest_cons_of_some {α : Type} {next : List Char → Option α} {c : Char} {s : List Char} {a : α} (hc : c ≠ '\n')
    (h : next s = some a) : shortest next (c :: s) = some ([c], a) := by
  rw [shortest, if_neg hc, h]

/-- The shortest text before what is looked for goes on where that is not ahead. -/
theorem shortest_cons_of_none {α : Type} {next : List Char → Option α} {c : Char} {s : List Char} (hc : c ≠ '\n')
    (h : next s = none) : shortest next (c :: s) = (shortest next s).map fun (text, a) => (c :: text, a) := by
  rw [shortest, if_neg hc, h]

/-- The shortest text is the one after which `next` can go on for the first time. -/
theorem shortest_append {α : Type} {next : List Char → Option α} {p s : List Char} {a : α} (hp : p ≠ []) (hline : '\n' ∉ p)
    (hnone : ∀ q r, p = q ++ r → q ≠ [] → r ≠ [] → next (r ++ s) = none) (h : next s = some a) :
    shortest next (p ++ s) = some (p, a) := by
  induction p with
  | nil => exact absurd rfl hp
  | cons c p ih =>
    rw [List.mem_cons, not_or] at hline
    have hc : c ≠ '\n' := Ne.symm hline.1
    by_cases h0 : p = []
    · subst h0
      exact shortest_cons_of_some hc h
    · have hfirst : next (p ++ s) = none := hnone [c] p rfl (by simp) h0
      have hrest : shortest next (p ++ s) = some (p, a) := by
        refine ih h0 hline.2 ?_
        intro q r hqr hq hr
        exact hnone (c :: q) r (by rw [hqr, List.cons_append]) (by simp) hr
      rw [List.cons_append, shortest_cons_of_none hc hfirst, hrest]
      rfl

/-- A shortest text stands at the start of the text, is not empty and has no line feed in it, and `next` goes on after it. -/
theorem shortest_eq_some {α : Type} {next : List Char → Option α} {s p : List Char} {a : α}
    (h : shortest next s = some (p, a)) : ∃ t, s = p ++ t ∧ p ≠ [] ∧ '\n' ∉ p ∧ next t = some a := by
  induction s generalizing p with
  | nil => nomatch h
  | cons c s ih =>
    by_cases hc : c = '\n'
    · rw [shortest, if_pos hc] at h
      nomatch h
    · cases hn : next s with
      | some b =>
        rw [shortest_cons_of_some hc hn] at h
        obtain ⟨rfl, rfl⟩ := Prod.mk.inj (Option.some.inj h)
        exact ⟨s, rfl, by simp, by simpa using Ne.symm hc, hn⟩
      | none =>
        rw [shortest_cons_of_none hc hn, Option.map_eq_some_iff] at h
        obtain ⟨⟨q, b⟩, hq, heq⟩ := h
        obtain ⟨rfl, rfl⟩ := Prod.mk.inj heq
        obtain ⟨t, hs, -, hline, ht⟩ := ih hq
        refine ⟨t, by rw [hs, List.cons_append], by simp, ?_, ht⟩
        rw [List.mem_cons, not_or]
        exact ⟨Ne.symm hc, hline⟩

/-- After less than a shortest text `next` cannot go on. -/
theorem shortest_least {α : Type} {next : List Char → Option α} {s p : List Char} {a : α} (h : shortest next s = some (p, a))
    {q t : List Char} (hs : s = q ++ t) (hq : q ≠ []) (hlt : q.length < p.length) : next t = none := by
  induction s generalizing p q with
  | nil => exact absurd (List.append_eq_nil_iff.mp hs.symm).1 hq
  | cons c s ih =>
    obtain ⟨d, q, rfl⟩ := List.exists_cons_of_ne_nil hq
    rw [List.cons_append, List.cons.injEq] at hs
    obtain ⟨rfl, rfl⟩ := hs
    by_cases hc : c = '\n'
    · rw [shortest, if_pos hc] at h
      nomatch h
    · cases hn : next (q ++ t) with
      | some b =>
        rw [shortest_cons_of_some hc hn] at h
        obtain ⟨rfl, rfl⟩ := Prod.mk.inj (Option.some.inj h)
        simp at hlt
      | none =>
        rw [shortest_cons_of_none hc hn, Option.map_eq_some_iff] at h
        obtain ⟨⟨p, b⟩, hp, heq⟩ := h
        obtain ⟨rfl, rfl⟩ := Prod.mk.inj heq
        by_cases hnil : q = []
        · rw [← hn, hnil, List.nil_append]
        · exact ih hp rfl hnil (by simpa using hlt)

/-! ## The parts of an address -/

/-- What is found somewhere in a text is ahead at some place of it. -/
theorem exists_of_somewhere_eq_some {α : Type} {next : List Char → Option α} {s : List Char} {a : α}
    (h : somewhere next s = some a) : ∃ p t, s = p ++ t ∧ next t = some a := by
  induction s with
  | nil => exact ⟨[], [], rfl, h⟩
  | cons c s ih =>
    cases hn : next (c :: s) with
    | some b =>
      rw [somewhere, hn] at h
      exact ⟨[], c :: s, rfl, hn.trans h⟩
    | none =>
      rw [somewhere, hn] at h
      dsimp only at h
      split at h
      · nomatch h
      · obtain ⟨p, t, rfl, ht⟩ := ih h
        exact ⟨c :: p, t, rfl, ht⟩

/-- The value of a parameter stands at the start of what follows its name, and it is not empty. -/
theorem parameterText_eq_some {s value : List Char} (h : parameterText s = some value) :
    ∃ rest, s = value ++ rest ∧ value ≠ [] := by
  rw [parameterText, Option.map_eq_some_iff] at h
  obtain ⟨⟨text, mark⟩, hshort, rfl⟩ := h
  obtain ⟨t, rfl, hne, -, hend⟩ := shortest_eq_some hshort
  have hvalue : text ++ mark ≠ [] := fun h0 => hne (List.append_eq_nil_iff.mp h0).1
  unfold parameterEnd at hend
  split at hend
  · next rest =>
    obtain rfl := Option.some.inj hend
    exact ⟨rest, by simp, hvalue⟩
  · split at hend
    · obtain rfl := Option.some.inj hend
      exact ⟨t, by simp, hvalue⟩
    · nomatch hend

/-- What is dropped as a scheme is one of the two schemes, or nothing. -/
theorem exists_scheme (s : List Char) : ∃ scheme, s = scheme ++ dropScheme s ∧
    (scheme = [] ∨ scheme = "https:".toList ∨ scheme = "http:".toList) := by
  rw [dropScheme]
  cases h₁ : after? "https:".toList s with
  | some rest => exact ⟨_, after?_eq_some.mp h₁, Or.inr (Or.inl rfl)⟩
  | none =>
    cases h₂ : after? "http:".toList s with
    | some rest => exact ⟨_, after?_eq_some.mp h₂, Or.inr (Or.inr rfl)⟩
    | none => exact ⟨[], rfl, Or.inl rfl⟩

/-- The wiki that a URL names stands before the first of the fixed parts of an address that has a title behind it. -/
theorem exists_query_of_parts? {url wiki page : List Char} (h : parts? url = some (wiki, page)) :
    ∃ scheme query, url = scheme ++ "//".toList ++ wiki ++ ".org/w/index.php?".toList ++ query ∧
      (scheme = [] ∨ scheme = "https:".toList ∨ scheme = "http:".toList) ∧ wiki ≠ [] ∧ '\n' ∉ wiki ∧
        somewhere (fun t => do parameterText (← after? "title=".toList t)) query = some page := by
  obtain ⟨scheme, hscheme, hkind⟩ := exists_scheme url
  rw [parts?, Option.bind_eq_bind, Option.bind_eq_some_iff] at h
  obtain ⟨s, hs, hshort⟩ := h
  obtain ⟨t, rfl, hwiki, hline, hnext⟩ := shortest_eq_some hshort
  rw [Option.bind_eq_bind, Option.bind_eq_some_iff] at hnext
  obtain ⟨query, hquery, hsome⟩ := hnext
  refine ⟨scheme, query, ?_, hkind, hwiki, hline, hsome⟩
  rw [hscheme, after?_eq_some.mp hs, after?_eq_some.mp hquery]
  simp

/-- The wiki and the page that a URL names stand in it one after the other, between the fixed parts of an address. -/
theorem parts?_eq_some {url wiki page : List Char} (h : parts? url = some (wiki, page)) :
    ∃ scheme query rest, url = scheme ++ "//".toList ++ wiki ++ ".org/w/index.php?".toList ++ query ++ "title=".toList ++
      page ++ rest ∧ (scheme = [] ∨ scheme = "https:".toList ∨ scheme = "http:".toList) ∧ wiki ≠ [] ∧ '\n' ∉ wiki := by
  obtain ⟨scheme, s, hurl, hkind, hwiki, hline, hsome⟩ := exists_query_of_parts? h
  obtain ⟨query, u, rfl, hvalue⟩ := exists_of_somewhere_eq_some hsome
  rw [Option.bind_eq_bind, Option.bind_eq_some_iff] at hvalue
  obtain ⟨v, hv, hparameter⟩ := hvalue
  obtain ⟨rest, rfl, -⟩ := parameterText_eq_some hparameter
  refine ⟨scheme, query, rest, ?_, hkind, hwiki, hline⟩
  rw [hurl, after?_eq_some.mp hv]
  simp

/-! ## Decoded parts -/

/-- Where a part of a URL has an ampersand at its end. -/
def finalMark (s : List Char) : Option (Nat × List Char) :=
  match s with
  | '&' :: rest => if atEnd rest then some (1, []) else none
  | _ => none

/-- A part of a URL is decoded without the ampersand at its end. -/
theorem decodePart_eq (s : List Char) : decodePart s = percentDecode (substitute finalMark s) := rfl

/-- The ampersand at the end of a part stands before its end. -/
theorem finalMark_eq_some {s new : List Char} {n : Nat} (h : finalMark s = some (n, new)) :
    ∃ rest, s = '&' :: rest ∧ atEnd rest = true ∧ n = 1 ∧ new = [] := by
  unfold finalMark at h
  split at h
  · next rest =>
    split at h
    · next hend =>
      obtain ⟨rfl, rfl⟩ := Prod.mk.inj (Option.some.inj h)
      exact ⟨rest, rfl, hend, rfl, rfl⟩
    · nomatch h
  · nomatch h

/-- Decoding a part of a URL gains nothing that is counted along with the percent sign. -/
theorem countP_decodePart_le {p : Char → Bool} (hp : ∀ c, p c = true → isMark c = true) (hpercent : p '%' = true)
    (s : List Char) : (decodePart s).countP p ≤ s.countP p := by
  refine Nat.le_trans (countP_percentDecode_le hp hpercent _) (countP_substitute_le ?_ s)
  intro s n new h
  obtain ⟨-, -, -, -, rfl⟩ := finalMark_eq_some h
  exact Nat.zero_le _

/-- A part on one line is empty when it is decoded only if there is nothing in it but an ampersand. -/
theorem decodePart_eq_nil {s : List Char} (hs : s ≠ []) (hline : '\n' ∉ s) (h : decodePart s = []) : s = ['&'] := by
  obtain ⟨c, s, rfl⟩ := List.exists_cons_of_ne_nil hs
  have hnil := percentDecode_eq_nil ((decodePart_eq _).symm.trans h)
  cases hread : finalMark (c :: s) with
  | none =>
    rw [substitute_cons_of_none hread] at hnil
    nomatch hnil
  | some found =>
    obtain ⟨n, new⟩ := found
    obtain ⟨rest, heq, hend, -, -⟩ := finalMark_eq_some hread
    obtain ⟨rfl, rfl⟩ := List.cons.inj heq
    unfold atEnd at hend
    split at hend
    · rfl
    · exact absurd (by simp) hline
    · nomatch hend

/-- A URL names no more of the characters that are counted along with the percent sign than it has. -/
theorem countP_page?_le {p : Char → Bool} (hp : ∀ c, p c = true → isMark c = true) (hpercent : p '%' = true)
    {url wiki page : String} (h : page? url = some (wiki, page)) : wiki.toList.countP p + page.toList.countP p ≤ url.toList.countP p := by
  rw [page?, Option.map_eq_some_iff] at h
  obtain ⟨⟨wiki', page'⟩, hparts, heq⟩ := h
  obtain ⟨rfl, rfl⟩ := Prod.mk.inj heq
  obtain ⟨scheme, query, rest, hurl, -⟩ := parts?_eq_some hparts
  have hwiki := countP_decodePart_le hp hpercent wiki'
  have hpage := countP_decodePart_le hp hpercent page'
  rw [String.toList_ofList, String.toList_ofList, hurl]
  simp only [List.countP_append]
  omega

/-- The wiki that a URL names is empty only if the URL has an ampersand in its place. -/
theorem ampersand_of_empty_wiki {url page : String} (h : page? url = some ("", page)) :
    ∃ scheme rest, url.toList = scheme ++ '/' :: '/' :: '&' :: rest ∧
      (scheme = [] ∨ scheme = "https:".toList ∨ scheme = "http:".toList) := by
  rw [page?, Option.map_eq_some_iff] at h
  obtain ⟨⟨wiki', page'⟩, hparts, heq⟩ := h
  have hempty : String.ofList (decodePart wiki') = "" := (Prod.mk.inj heq).1
  obtain ⟨scheme, query, rest, hurl, hkind, hne, hline⟩ := parts?_eq_some hparts
  have hdecoded : decodePart wiki' = [] := by
    have hlist := congrArg String.toList hempty
    rwa [String.toList_ofList] at hlist
  rw [decodePart_eq_nil hne hline hdecoded] at hurl
  exact ⟨scheme, _, by rw [hurl]; simp; rfl, hkind⟩

/-- Nothing but an ampersand is the one at the end of a part. -/
theorem finalMark_of_not_ampersand {c : Char} (hc : c ≠ '&') (s : List Char) : finalMark (c :: s) = none := by
  rw [Option.eq_none_iff_forall_ne_some]
  rintro ⟨n, new⟩ h
  obtain ⟨rest, heq, -⟩ := finalMark_eq_some h
  exact hc (List.cons.inj heq).1

/-- The ampersand after a part is not part of it. -/
theorem decodePart_append_ampersand (s : List Char) : decodePart (s ++ ['&']) = percentDecode s := by
  have hsubstitute : substitute finalMark (s ++ ['&']) = s := by
    induction s with
    | nil => rfl
    | cons c s ih =>
      have hnone : finalMark (c :: (s ++ ['&'])) = none := by
        rw [Option.eq_none_iff_forall_ne_some]
        rintro ⟨n, new⟩ h
        obtain ⟨rest, heq, hend, -⟩ := finalMark_eq_some h
        obtain ⟨-, rfl⟩ := List.cons.inj heq
        rcases s with _ | ⟨d, _ | ⟨e, s⟩⟩ <;> simp [atEnd] at hend
      rw [List.cons_append, substitute_cons_of_none hnone, ih]
  rw [decodePart_eq, hsubstitute]

/-- A part without ampersands is decoded as it is. -/
theorem decodePart_of_not_mem {s : List Char} (h : '&' ∉ s) : decodePart s = percentDecode s := by
  have hsubstitute : substitute finalMark s = s := by
    refine substitute_eq_self ?_
    rintro p t rfl ht
    obtain ⟨c, t, rfl⟩ := List.exists_cons_of_ne_nil ht
    refine finalMark_of_not_ampersand ?_ t
    rintro rfl
    exact h (by simp)
  rw [decodePart_eq, hsubstitute]

/-- A part without ampersands and percent signs stands for itself. -/
theorem decodePart_eq_self {s : List Char} (hampersand : '&' ∉ s) (hpercent : '%' ∉ s) : decodePart s = s := by
  rw [decodePart_of_not_mem hampersand, percentDecode_eq_self]
  rw [← Bool.not_eq_true]
  exact fun h => hpercent (percent_of_hasEscape h)

/-! ## Plain addresses -/

/-- What is ahead is found. -/
theorem somewhere_of_some {α : Type} {next : List Char → Option α} {s : List Char} {a : α} (h : next s = some a) :
    somewhere next s = some a := by
  cases s with
  | nil => exact h
  | cons c s => rw [somewhere, h]

/-- The value of a parameter ends at the first ampersand after its first character. -/
theorem parameterText_ampersand {c : Char} {s : List Char} (hc : c ≠ '\n') (hs : '&' ∉ s) (hline : '\n' ∉ s)
    (rest : List Char) : parameterText (c :: s ++ '&' :: rest) = some (c :: s ++ ['&']) := by
  have hshort : shortest parameterEnd (c :: s ++ '&' :: rest) = some (c :: s, ['&']) := by
    refine shortest_append (by simp) ?_ ?_ rfl
    · rw [List.mem_cons, not_or]
      exact ⟨Ne.symm hc, hline⟩
    · intro q r hqr hq hr
      obtain ⟨d, q, rfl⟩ := List.exists_cons_of_ne_nil hq
      obtain ⟨-, rfl⟩ := List.cons.inj hqr
      obtain ⟨d, r, rfl⟩ := List.exists_cons_of_ne_nil hr
      have hd : d ≠ '&' := by rintro rfl; exact hs (by simp)
      unfold parameterEnd
      split
      · next heq => exact absurd (List.cons.inj heq).1 hd
      · refine if_neg ?_
        cases r <;> simp [atEnd]
  rw [parameterText, hshort]
  rfl

/-- A plain address names the wiki up to the first `.org` and the page up to the first ampersand after its first character. -/
theorem parts?_plain {wiki s : List Char} {c : Char} (hwiki : wiki ≠ []) (hslash : '/' ∉ wiki) (hhost : '\n' ∉ wiki)
    (hc : c ≠ '\n') (hs : '&' ∉ s) (hline : '\n' ∉ s) (rest : List Char) :
    parts? ("//".toList ++ (wiki ++ (".org/w/index.php?".toList ++ ("title=".toList ++ (c :: s ++ '&' :: rest))))) =
      some (wiki, c :: s ++ ['&']) := by
  have hpage : somewhere (fun t => do parameterText (← after? "title=".toList t))
      ("title=".toList ++ (c :: s ++ '&' :: rest)) = some (c :: s ++ ['&']) := by
    refine somewhere_of_some ?_
    rw [after?_append]
    exact parameterText_ampersand hc hs hline rest
  have hscheme : after? "//".toList (dropScheme ("//".toList ++ (wiki ++ (".org/w/index.php?".toList ++ ("title=".toList ++
      (c :: s ++ '&' :: rest)))))) = some (wiki ++ (".org/w/index.php?".toList ++ ("title=".toList ++
      (c :: s ++ '&' :: rest)))) := rfl
  rw [parts?, hscheme, Option.bind_eq_bind, Option.bind_some]
  refine shortest_append hwiki hhost ?_ ?_
  · intro q r hqr _ hr
    -- The first slash shows where the fixed part starts.
    have hnone : after? ".org/w/index.php?".toList
        (r ++ (".org/w/index.php?".toList ++ ("title=".toList ++ (c :: s ++ '&' :: rest)))) = none := by
      rw [Option.eq_none_iff_forall_ne_some]
      intro found hfound
      have hslashes := congrArg (List.takeWhile (· != '/')) (after?_eq_some.mp hfound)
      have hr' : ∀ d ∈ r, (d != '/') = true := by
        intro d hd
        rw [bne_iff_ne]
        rintro rfl
        exact hslash (hqr ▸ List.mem_append_right q hd)
      rw [List.takeWhile_append_of_pos hr'] at hslashes
      have hlength := congrArg List.length hslashes
      have hdot : ∀ x : List Char, (".org/w/index.php?".toList ++ x).takeWhile (· != '/') = ".org".toList := fun x => rfl
      rw [hdot, hdot, List.length_append] at hlength
      exact hr (List.eq_nil_of_length_eq_zero (by omega))
    rw [hnone]
    rfl
  · rw [after?_append]
    exact hpage

end Address

end UserScripts
