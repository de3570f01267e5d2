import UserScripts.Proofs.Statement.RoundTrip

/-!
# Statements that stay as they are

When printing an entry, reading the statement and printing what was read gives the same text again. For a page on a plain wiki that
is so if its statement leads back to it and its link is the one of that page; for a URL, if nothing of it is lost. Main statements:
`settled_page_iff` and `settled_address_iff`.
-/

namespace UserScripts

open UserScripts.Text

namespace Entry

variable {e e' : Entry} {s : Settings} {text : String}

/-- The entry that is read from the statement of an entry. -/
def reread (e : Entry) (s : Settings) : Entry :=
  ofAddress (e.readBack s) (e.readBack_ne_empty s) e.target e.disabled

/-- Whether the entry that is read from the statement has the same statement. -/
def Settled (e : Entry) (s : Settings) : Prop :=
  (e.reread s).statement s = e.statement s

/-- Reading a statement back leaves its switch. -/
theorem disabled_reread (e : Entry) (s : Settings) : (e.reread s).disabled = e.disabled :=
  (target_ofAddress _ _ _ _).2

/-! ## Parts of a statement -/

/-- A quote that is not escaped ends what is written for a URL, so two literals with the same text have the same URL. -/
theorem toLiteral_inj {a b t u : List Char} (h : toLiteral a ++ '\'' :: t = toLiteral b ++ '\'' :: u) : a = b ∧ t = u := by
  have hread := ScriptLiteral.read_toLiteral a t
  rw [h, ScriptLiteral.read_toLiteral] at hread
  obtain ⟨-, rfl⟩ := Prod.mk.inj (Option.some.inj hread)
  have hlist := congrArg ofLiteral (List.append_cancel_right h)
  rw [ofLiteral_toLiteral, ofLiteral_toLiteral] at hlist
  exact ⟨hlist, rfl⟩

/-- Two entries with the same statement agree in all that is written. -/
theorem statement_inj (hdisabled : e.disabled = e'.disabled) (h : e.statement s = .ok text) (h' : e'.statement s = .ok text) :
    e.loaderUrl s.serverName = e'.loaderUrl s.serverName ∧ e.backlink s = e'.backlink s := by
  obtain ⟨call, hcall, htext⟩ := statement_eq h
  obtain ⟨call', hcall', htext'⟩ := statement_eq h'
  obtain ⟨css, -, hlist⟩ := loadCall_eq hcall
  obtain ⟨css', -, hlist'⟩ := loadCall_eq hcall'
  have hboth := congrArg String.toList (htext.symm.trans htext')
  simp only [String.toList_append, hdisabled, List.append_assoc] at hboth
  have hcalls := List.append_cancel_left hboth
  simp only [hlist, hlist', List.append_assoc, List.cons_append] at hcalls
  obtain ⟨hurl, hrest⟩ := toLiteral_inj (List.append_cancel_left hcalls)
  refine ⟨String.toList_injective hurl, String.toList_injective ?_⟩
  cases css <;> cases css'
  · exact List.append_cancel_left (List.append_cancel_left hrest)
  · exact absurd (List.cons.inj hrest).1 (by decide)
  · exact absurd (List.cons.inj hrest).1 (by decide)
  · exact List.append_cancel_left (List.append_cancel_left hrest)

/-- The statement of an entry depends on its switch, its URL, its media type and its link. -/
theorem statement_congr (hdisabled : e.disabled = e'.disabled) (hurl : e.loaderUrl s.serverName = e'.loaderUrl s.serverName)
    (hcss : e.isCss = e'.isCss) (hlink : e.backlink s = e'.backlink s) : e.statement s = e'.statement s := by
  rw [statement, statement, loadCall, loadCall, hdisabled, hurl, hcss, hlink]

/-- Every page is linked to. -/
theorem backlink_ne_empty (h : ∀ url, e.source ≠ .address url) (s : Settings) : e.backlink s ≠ "" := by
  have hlink : e.backlink s = " // " ++ e.linkLabel s ++ " [[" ++ escapeComment (e.linkTitle s) ++ "]]" := by
    rw [backlink]
    cases hs : e.source with
    | own page => rfl
    | «foreign» wiki page => rfl
    | address url => exact absurd hs (h url)
  rw [hlink]
  intro hempty
  have hlist := congrArg String.toList hempty
  simp at hlist

/-- An entry that is named by a URL has no link back. -/
theorem backlink_of_address {url : String} (h : e.source = .address url) (s : Settings) : e.backlink s = "" := by
  rw [backlink, h]

/-- Whether a page is a style sheet is told by the end of its title. -/
theorem isCss_of_page (h : ∀ url, e.source ≠ .address url) : e.isCss = .ok (endsWithCss e.displayName.toList) := by
  rw [isCss, displayName]
  cases hs : e.source with
  | own page => rfl
  | «foreign» wiki page => rfl
  | address url => exact absurd hs (h url)

/-! ## Pages -/

section

variable {p : Char → Bool} (hp : ∀ c, p c = true → isMark c = true) (hdot : p '.' = false) (hslash : p '/' = false)

include hp hdot hslash in
/-- Two titles with the same URL have the same marks. -/
theorem countP_eq_of_addressOf {wiki page page' : String} (h : addressOf wiki page s = addressOf wiki page' s) :
    page.toList.countP p = page'.toList.countP p := by
  have hletter : ∀ c, c.isAlpha = true → p c = false := fun c hc => Wiki.countP_letter hp hc
  have hmedia : ∀ css : Bool, (if css then "text/css" else "text/javascript").toList.countP p = 0 := by
    intro css
    cases css <;> simp [hletter, hslash]
  have hcount := congrArg (fun url => url.toList.countP p) h
  simp only [addressOf, String.toList_ofList, countP_servedMediaWiki hp hdot, pageUrl_toList, List.countP_append, hmedia] at hcount
  omega

end

/-- An entry of a plain wiki whose host stands as it is has the address of its page. -/
theorem loaderUrl_eq_addressOf {wiki : String} (h : e.OnPlainWiki s wiki) (hfixed : Wiki.normalizeHost (wiki ++ ".org") = wiki ++ ".org") :
    e.loaderUrl s.serverName = addressOf wiki e.displayName s := by
  rw [loaderUrl_eq h.page, addressOf, if_neg h.ne_empty, pageUrl, pageUrl, h.host, hfixed]

/-- A title that stands in the URL as it is comes back. -/
theorem named?_of_keepsTitle {wiki : String} (h : e.OnPlainWiki s wiki) (hline : '\n' ∉ e.displayName.toList)
    (keeps : KeepsTitle e.displayName) : named? (e.loaderUrl s.serverName) = some (wiki, e.displayName) := by
  obtain ⟨hampersand, hescape, hsite⟩ := keeps
  obtain ⟨rest, hplain⟩ := loaderUrl_of_plainWiki h
  obtain ⟨c, t, ht⟩ := List.exists_cons_of_ne_nil (show e.displayName.toList ≠ [] by simpa using displayName_ne_empty h.page)
  rw [hsite, ht] at hplain
  rw [ht, List.mem_cons, not_or] at hline
  rw [ht, List.tail_cons] at hampersand
  rw [named?_of_plainWiki h (Ne.symm hline.1) hampersand hline.2 hplain, ← ht, percentDecode_eq_self hescape, String.ofList_toList]

/-- The page that comes back from the URL of a page on a plain wiki has the same URL only if its title stands there as it is. -/
theorem keepsTitle_of_addressOf {wiki wiki' page : String} (h : e.OnPlainWiki s wiki)
    (hfixed : Wiki.normalizeHost (wiki ++ ".org") = wiki ++ ".org") (hline : '\n' ∉ e.displayName.toList)
    (hsite : servedMediaWiki e.displayName.toList = e.displayName.toList)
    (hnamed : named? (e.loaderUrl s.serverName) = some (wiki', page)) (hurl : addressOf wiki' page s = e.loaderUrl s.serverName) :
    KeepsTitle e.displayName := by
  rw [loaderUrl_eq_addressOf h hfixed] at hurl
  obtain ⟨rest, hplain⟩ := loaderUrl_of_plainWiki h
  obtain ⟨c, t, ht⟩ := List.exists_cons_of_ne_nil (show e.displayName.toList ≠ [] by simpa using displayName_ne_empty h.page)
  rw [hsite, ht] at hplain
  rw [ht, List.mem_cons, not_or] at hline
  have hampersand : '&' ∉ t := by
    intro hmem
    obtain ⟨u, v, rfl, hu⟩ := List.eq_append_cons_of_mem hmem
    have hfound := named?_of_plainWiki h (Ne.symm hline.1) hu (fun hmem => hline.2 (List.mem_append_left _ hmem))
      (show _ = _ ++ (_ ++ (_ ++ (_ ++ (c :: u ++ '&' :: (v ++ '&' :: rest))))) by rw [hplain]; simp)
    obtain ⟨rfl, rfl⟩ := Prod.mk.inj (Option.some.inj (hnamed.symm.trans hfound))
    have hcount := countP_eq_of_addressOf isMark_of_isTitleEnd (by decide) (by decide) hurl
    have hdecoded := countP_percentDecode_le isMark_of_isTitleEnd (by decide) (c :: u)
    have hmark : isTitleEnd '&' = true := by decide
    rw [String.toList_ofList, ht, ← List.cons_append, List.countP_append, List.countP_cons (a := '&'), if_pos hmark] at hcount
    omega
  have hfound := named?_of_plainWiki h (Ne.symm hline.1) hampersand hline.2 hplain
  obtain ⟨rfl, rfl⟩ := Prod.mk.inj (Option.some.inj (hnamed.symm.trans hfound))
  have hcount := countP_eq_of_addressOf isMark_of_isEscapeSign (by decide) (by decide) hurl
  refine ⟨by rw [ht]; exact hampersand, ?_, hsite⟩
  by_contra hescape
  have hlost := countP_percentDecode_lt isMark_of_isEscapeSign (by decide) (fun c hc => by simp [isEscapeSign, hc])
    (by simpa using hescape)
  rw [String.toList_ofList, ← ht] at hcount
  omega

/-- A page on a plain wiki stays as it is exactly if no quote of its URL closes the literal, its title stands in the URL as it is,
and its link is that of the page on the named wiki. The host of the wiki has to be in its final form, and a title that spells the
MediaWiki site without its `www` is left aside. -/
theorem settled_page_iff {wiki : String} (h : e.OnPlainWiki s wiki) (hfixed : Wiki.normalizeHost (wiki ++ ".org") = wiki ++ ".org")
    (hline : '\n' ∉ e.displayName.toList) (hsite : servedMediaWiki e.displayName.toList = e.displayName.toList)
    (htext : e.statement s = .ok text) :
    e.Settled s ↔ ¬ Statement.ClosesEarly (e.loaderUrl s.serverName).toList ∧ KeepsTitle e.displayName ∧
      (ofPage e.displayName (displayName_ne_empty h.page) (some wiki) e.target e.disabled).backlink s = e.backlink s := by
  constructor
  · intro settled
    obtain ⟨hurl, hlink⟩ := statement_inj (disabled_reread e s) (settled.trans htext) htext
    cases hnamed : named? (e.readBack s) with
    | none =>
      rw [reread, ofAddress_of_not_named hnamed, backlink_of_address (source_ofUrl _ _ _)] at hlink
      exact absurd hlink.symm (backlink_ne_empty h.page s)
    | some found =>
      obtain ⟨wiki', page⟩ := found
      obtain ⟨hp, hreread⟩ := ofAddress_of_named (e.readBack_ne_empty s) hnamed e.target e.disabled
      rw [reread, hreread] at hlink
      rw [reread, hreread, loaderUrl_ofPage] at hurl
      have hopen : ¬ Statement.ClosesEarly (e.loaderUrl s.serverName).toList := by
        intro hclosed
        have hpage := (Option.filter_eq_some_iff.mp hnamed).1
        refine not_addressOf_of_closesEarly (s := s) hclosed hpage ?_ (by rw [hurl])
        rintro rfl
        exact not_prefix_of_plainWiki h (ampersand_of_readBack h.page hclosed hpage)
      rw [readBack_of_page h.page hopen] at hnamed
      have keeps := keepsTitle_of_addressOf h hfixed hline hsite hnamed hurl
      obtain ⟨rfl, rfl⟩ := Prod.mk.inj (Option.some.inj (hnamed.symm.trans (named?_of_keepsTitle h hline keeps)))
      exact ⟨hopen, keeps, hlink⟩
  · rintro ⟨hopen, keeps, hlink⟩
    have hnamed := named?_of_keepsTitle h hline keeps
    rw [← readBack_of_page h.page hopen] at hnamed
    obtain ⟨hp, hreread⟩ := ofAddress_of_named (e.readBack_ne_empty s) hnamed e.target e.disabled
    have hpage := source_ofPage_ne hp (some wiki) e.target e.disabled
    rw [Settled, reread, hreread]
    refine statement_congr rfl ?_ ?_ hlink
    · rw [loaderUrl_ofPage, loaderUrl_eq_addressOf h hfixed]
    · rw [isCss_of_page hpage, isCss_of_page h.page, displayName_ofPage]

/-! ## URLs -/

/-- What a text loses at its ends is spaces only. -/
theorem countP_strip {p : Char → Bool} (hp : ∀ c, Statement.isSpace c = true → p c = false) (url : List Char) :
    (Statement.strip url).countP p = url.countP p := by
  have hspaces : ∀ {taken : List Char}, (∀ c ∈ taken, Statement.isSpace c = true) → taken.countP p = 0 := by
    intro taken h
    rw [List.countP_eq_zero]
    exact fun c hc => by simp [hp c (h c hc)]
  have hstart : (url.takeWhile Statement.isSpace).countP p = 0 := hspaces fun c hc => List.mem_takeWhile_imp hc
  have hdrop : (Statement.dropSpace url).countP p = url.countP p := by
    nth_rewrite 2 [← List.takeWhile_append_dropWhile (p := Statement.isSpace) (l := url)]
    rw [List.countP_append, hstart, Nat.zero_add]
    rfl
  rw [Statement.strip]
  split
  · next hnone =>
    rw [hnone] at hdrop
    rw [← hdrop, List.countP_nil, List.countP_eq_zero]
    intro c hc hpc
    have hpos := List.countP_pos_iff.mpr ⟨c, List.mem_of_getLast? (Option.mem_toList.mp hc), hpc⟩
    rw [← hdrop] at hpos
    exact absurd hpos (Nat.lt_irrefl 0)
  · have hend : ((Statement.dropSpace url).rtakeWhile Statement.isSpace).countP p = 0 :=
      hspaces fun c hc => List.mem_rtakeWhile_imp hc
    rw [← hdrop]
    nth_rewrite 2 [← List.rdropWhile_append_rtakeWhile (p := Statement.isSpace) (l := Statement.dropSpace url)]
    rw [List.countP_append, hend, Nat.add_zero]

/-- A URL that names no page stays as it is exactly if no quote of it closes the literal and there are no spaces around it. A URL
that spells the MediaWiki site without its `www` is left aside. -/
theorem settled_address_iff {url : String} (h : e.source = .address url) (hnamed : named? url = none)
    (hsite : servedMediaWiki url.toList = url.toList) (htext : e.statement s = .ok text) :
    e.Settled s ↔ ¬ Statement.ClosesEarly url.toList ∧ Statement.strip url.toList = url.toList := by
  have hread : e.readBack s = String.ofList (Statement.readBack url.toList) := by
    rw [readBack, loaderUrl_of_address h, String.toList_ofList, hsite]
  have hloader : (e.loaderUrl s.serverName).toList = url.toList := by rw [loaderUrl_of_address h, String.toList_ofList, hsite]
  rw [← readBack_eq_self, ← hread]
  constructor
  · intro settled
    obtain ⟨hurl, hlink⟩ := statement_inj (disabled_reread e s) (settled.trans htext) htext
    have hback : named? (e.readBack s) = none := by
      by_contra hpage
      obtain ⟨⟨wiki, page⟩, hfound⟩ := Option.ne_none_iff_exists'.mp hpage
      obtain ⟨hp, hreread⟩ := ofAddress_of_named (e.readBack_ne_empty s) hfound e.target e.disabled
      rw [reread, hreread, backlink_of_address h] at hlink
      exact backlink_ne_empty (source_ofPage_ne hp (some wiki) e.target e.disabled) s hlink
    have hserved : servedMediaWiki (e.readBack s).toList = url.toList := by
      rw [reread, ofAddress_of_not_named hback, loaderUrl_of_address (source_ofUrl _ _ _)] at hurl
      rw [← hloader, ← hurl, String.toList_ofList]
    have hopen : ¬ Statement.ClosesEarly url.toList := by
      intro hclosed
      have hlost := countP_readBack_lt (p := isQuoteSign) (by decide) (by decide) hclosed
      have hcount := countP_servedMediaWiki isMark_of_isQuoteSign (by decide) (e.readBack s).toList
      rw [hserved, hread, String.toList_ofList] at hcount
      omega
    -- Spaces are no full stops, so after stripping there is nothing to be rewritten either.
    have hdots : (servedMediaWiki (e.readBack s).toList).countP (· == '.') = (e.readBack s).toList.countP (· == '.') := by
      rw [hserved, hread, String.toList_ofList, Statement.readBack_of_not_closesEarly hopen]
      refine (countP_strip (fun c hc => ?_) url.toList).symm
      rw [beq_eq_false_iff_ne]
      rintro rfl
      exact absurd hc (by decide)
    rw [servedMediaWiki_eq_self_of_countP hdots] at hserved
    exact String.toList_injective hserved
  · intro hsame
    have hback : named? (e.readBack s) = none := by rw [hsame, hnamed]
    have hsource : (e.reread s).source = .address url := by
      rw [reread, ofAddress_of_not_named hback, source_ofUrl, hsame]
    refine statement_congr (disabled_reread e s) ?_ ?_ ?_
    · rw [loaderUrl_of_address hsource, loaderUrl_of_address h]
    · rw [isCss, isCss, hsource, h]
    · rw [backlink_of_address hsource, backlink_of_address h]

end Entry

end UserScripts
