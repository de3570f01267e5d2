import UserScripts.Proofs.Statement.Reparse
import UserScripts.Proofs.Wiki.Host

/-!
# Which entries survive

`Entry.Survives` in terms of the page, the wiki and the URL of an entry.
-/

namespace UserScripts

open UserScripts.Text

/-! ## Lost quotes -/

/-- The quote that can close a literal, and the percent sign that can stand for one. -/
def isQuoteSign (c : Char) : Bool :=
  c == '\'' || c == '%'

/-- The signs of a quote are marks. -/
theorem isMark_of_isQuoteSign (c : Char) (h : isQuoteSign c = true) : isMark c = true := by
  rw [isQuoteSign, Bool.or_eq_true, beq_iff_eq, beq_iff_eq] at h
  rcases h with rfl | rfl <;> decide

namespace Entry

/-- The URL of a page has the quotes and percent signs of its host and its page. -/
theorem countP_pageUrl (host page : String) : (servedMediaWiki (pageUrl host page).toList).countP isQuoteSign =
    (Wiki.normalizeHost host).toList.countP isQuoteSign + page.toList.countP isQuoteSign := by
  have hfixed : "//".toList.countP isQuoteSign = 0 ∧ "/w/index.php?title=".toList.countP isQuoteSign = 0 ∧
      "&action=raw&ctype=".toList.countP isQuoteSign = 0 ∧
      ∀ css : Bool, (if css then "text/css" else "text/javascript").toList.countP isQuoteSign = 0 := by
    decide
  obtain ⟨h₁, h₂, h₃, h₄⟩ := hfixed
  rw [countP_servedMediaWiki isMark_of_isQuoteSign (by decide), pageUrl_toList]
  simp only [List.countP_append, h₁, h₂, h₃, h₄]
  omega

/-- The URL of a page has no quotes and percent signs but those of its wiki and its page. -/
theorem countP_loaderUrl_le {e : Entry} {s : Settings} (h : ∀ url, e.source ≠ .address url) :
    (e.loaderUrl s.serverName).toList.countP isQuoteSign ≤
      (e.sourceWiki s).toList.countP isQuoteSign + e.displayName.toList.countP isQuoteSign := by
  have hgiven : ∀ url, given e.url ≠ some url := by
    intro url hurl
    exact h url (by rw [source, hurl])
  rw [loaderUrl, sourceWiki, displayName, source]
  cases hurl : given e.url with
  | some url => exact absurd hurl (hgiven url)
  | none =>
    cases hwiki : given e.wiki with
    | none =>
      dsimp only
      rw [String.toList_ofList, countP_pageUrl, Option.getD_none, Settings.currentWiki,
        Wiki.countP_fragment isMark_of_isQuoteSign (by decide)]
    | some wiki =>
      dsimp only
      have hhost := Wiki.countP_normalizeHost_le isMark_of_isQuoteSign (by decide) (wiki ++ ".org")
      have horg : ".org".toList.countP isQuoteSign = 0 := by decide
      rw [String.toList_append, List.countP_append, horg] at hhost
      rw [String.toList_ofList, countP_pageUrl, Option.getD_some]
      omega

/-- The page that a URL names in place of the URL of a page that is cut is another one, unless no wiki is named. -/
theorem not_loadsPage_of_closesEarly {e : Entry} {s : Settings} {wiki page : String} (h : ∀ url, e.source ≠ .address url)
    (hclosed : Statement.ClosesEarly (e.loaderUrl s.serverName).toList)
    (hpage : Address.page? (e.readBack s) = some (wiki, page)) (hwiki : wiki ≠ "") : ¬ e.LoadsPage wiki page s := by
  rintro ⟨hlower, hfragment⟩
  rw [if_neg hwiki] at hfragment
  have hpages := congrArg (fun t => t.toList.countP isQuoteSign) hlower
  have hwikis := congrArg (fun t => t.toList.countP isQuoteSign) hfragment
  simp only [countP_lower isMark_of_isQuoteSign, Wiki.countP_plainFragment isMark_of_isQuoteSign (by decide)] at hpages hwikis
  have hnamed := Address.countP_page?_le isMark_of_isQuoteSign (by decide) hpage
  have hlost := countP_readBack_lt (p := isQuoteSign) (by decide) (by decide) hclosed
  have hloader := countP_loaderUrl_le (s := s) h
  rw [readBack, String.toList_ofList] at hnamed
  omega

/-- What is left of the URL of a page that is cut starts as the URL does. -/
theorem prefix_of_readBack {e : Entry} {s : Settings} (h : ∀ url, e.source ≠ .address url)
    (hclosed : Statement.ClosesEarly (e.loaderUrl s.serverName).toList) :
    ∃ a, '/' :: a <+: (e.loaderUrl s.serverName).toList ∧ (e.readBack s).toList = '/' :: a ++ ['\\'] := by
  obtain ⟨rest, hslash⟩ := loaderUrl_slash h s.serverName
  obtain ⟨spaces, a, b, hs, hspaces, hread⟩ := Statement.readBack_of_closesEarly hclosed
  rw [readBack, String.toList_ofList, hread, hs]
  rw [hs] at hslash
  cases spaces with
  | cons c spaces =>
    obtain ⟨rfl, -⟩ := List.cons.inj hslash
    exact absurd (hspaces '/' List.mem_cons_self) (by decide)
  | nil =>
    cases a with
    | nil => exact absurd (List.cons.inj hslash).1 (by decide)
    | cons c a =>
      obtain ⟨rfl, -⟩ := List.cons.inj hslash
      exact ⟨a, List.prefix_append _ _, rfl⟩

/-- If the URL of a page closes its literal early and a page of the own wiki is read back, then it has an ampersand right after
the slashes. -/
theorem ampersand_of_readBack {e : Entry} {s : Settings} {page : String} (h : ∀ url, e.source ≠ .address url)
    (hclosed : Statement.ClosesEarly (e.loaderUrl s.serverName).toList)
    (hpage : Address.page? (e.readBack s) = some ("", page)) : "//&".toList <+: (e.loaderUrl s.serverName).toList := by
  obtain ⟨a, ha, hread⟩ := prefix_of_readBack h hclosed
  obtain ⟨scheme, rest, hurl, hkind⟩ := Address.ampersand_of_empty_wiki hpage
  rw [hread] at hurl
  rcases hkind with rfl | rfl | rfl
  · refine List.IsPrefix.trans ?_ ha
    rcases a with _ | ⟨c, _ | ⟨d, a⟩⟩
    · exact absurd (congrArg List.length hurl) (by simp)
    · exact absurd hurl (by simp)
    · simp only [List.cons_append, List.nil_append, List.cons.injEq] at hurl
      obtain ⟨-, rfl, rfl, -⟩ := hurl
      exact List.prefix_append _ a
  · exact absurd (List.cons.inj hurl).1 (by decide)
  · exact absurd (List.cons.inj hurl).1 (by decide)

/-- The statement of a page leads back to it exactly if its URL is not cut and names no other page. A wiki whose host starts with
an ampersand is left aside: its URL can name a page without a wiki. -/
theorem survives_page_iff {e : Entry} {s : Settings} (h : ∀ url, e.source ≠ .address url)
    (hhost : ¬ "//&".toList <+: (e.loaderUrl s.serverName).toList) : e.Survives s ↔
      ¬ Statement.ClosesEarly (e.loaderUrl s.serverName).toList ∧
        ∀ wiki page, named? (e.loaderUrl s.serverName) = some (wiki, page) → e.LoadsPage wiki page s := by
  rw [survives_of_page h]
  by_cases hclosed : Statement.ClosesEarly (e.loaderUrl s.serverName).toList
  · refine iff_of_false ?_ fun hboth => hboth.1 hclosed
    cases hnamed : named? (e.readBack s) with
    | none => exact fun hopen => hopen hclosed
    | some found =>
      obtain ⟨wiki, page⟩ := found
      have hpage := (Option.filter_eq_some_iff.mp hnamed).1
      refine not_loadsPage_of_closesEarly h hclosed hpage ?_
      rintro rfl
      exact hhost (ampersand_of_readBack h hclosed hpage)
  · rw [readBack_of_page h hclosed]
    cases hnamed : named? (e.loaderUrl s.serverName) with
    | none => simp [hclosed]
    | some found =>
      obtain ⟨wiki, page⟩ := found
      refine ⟨fun hloads => ⟨hclosed, ?_⟩, fun hboth => hboth.2 wiki page rfl⟩
      rintro _ _ ⟨rfl, rfl⟩
      exact hloads

/-! ## URLs -/

/-- A URL that does not begin with an h has no scheme. -/
theorem dropScheme_of_head {url : String} {c : Char} (h : url.toList.head? = some c) (hc : sameLetter 'h' c = false) :
    dropScheme url = url := by
  obtain ⟨rest, hrest⟩ := List.head?_eq_some_iff.mp h
  have hhttps : afterFold? "https:".toList url.toList = none := by
    rw [hrest]
    exact if_neg (Bool.eq_false_iff.mp hc)
  have hhttp : afterFold? "http:".toList url.toList = none := by
    rw [hrest]
    exact if_neg (Bool.eq_false_iff.mp hc)
  rw [dropScheme, hhttps, hhttp]
  exact String.ofList_toList

/-- What is left without a scheme is the end of the URL. -/
theorem dropScheme_suffix (url : String) : (dropScheme url).toList <:+ url.toList := by
  have htaken : ∀ {word rest : List Char}, afterFold? word url.toList = some rest → rest <:+ url.toList := by
    intro word rest h
    obtain ⟨taken, hs, -⟩ := afterFold?_eq_some h
    exact ⟨taken, hs.symm⟩
  rw [dropScheme, String.toList_ofList]
  cases h₁ : afterFold? "https:".toList url.toList with
  | some rest => exact htaken h₁
  | none =>
    cases h₂ : afterFold? "http:".toList url.toList with
    | some rest => exact htaken h₂
    | none => exact List.suffix_refl _

/-- What the URL of a page starts and ends with, scheme and case aside. -/
theorem ends_addressOf (wiki page : String) (s : Settings) :
    (lower (dropScheme (addressOf wiki page s))).toList.head? = some '/' ∧
      ∃ c, (lower (dropScheme (addressOf wiki page s))).toList.getLast? = some c ∧ isBlank c = false := by
  have hlist : (addressOf wiki page s).toList =
      servedMediaWiki (pageUrl (if wiki = "" then s.serverName else wiki ++ ".org") page).toList := by
    rw [addressOf, String.toList_ofList]
  generalize (if wiki = "" then s.serverName else wiki ++ ".org") = host at hlist
  have hhead : (addressOf wiki page s).toList.head? = some '/' := by
    rw [hlist, pageUrl_toList]
    obtain ⟨rest, hrest⟩ := exists_servedMediaWiki_slash (_ : List Char)
    exact congrArg List.head? hrest
  rw [dropScheme_of_head hhead (by decide)]
  refine ⟨head?_lower (fun _ _ => rfl) hhead, ?_⟩
  rw [servedMediaWiki_pageUrl] at hlist
  cases hcss : endsWithCss page.toList with
  | true =>
    refine ⟨'s', getLast?_lower (fun _ _ => rfl) ?_, by decide⟩
    rw [hlist, hcss, List.getLast?_append]
    rfl
  | false =>
    refine ⟨'t', getLast?_lower (fun _ _ => rfl) ?_, by decide⟩
    rw [hlist, hcss, List.getLast?_append]
    rfl

/-- A URL with a space at its start or its end is no URL of a page. -/
theorem strip_of_addressOf {url wiki page : String} {s : Settings}
    (h : lower (dropScheme url) = lower (dropScheme (addressOf wiki page s))) : Statement.strip url.toList = url.toList := by
  obtain ⟨hhead, last, hlast, hblank⟩ := ends_addressOf wiki page s
  rw [← h] at hhead hlast
  refine Statement.strip_eq_self ?_ ?_
  · intro c hc
    by_contra hspace
    have hb := (Statement.isSpace_iff.mp (by simpa using hspace)).1
    have hsame : sameLetter 'h' c = false := by
      rw [sameLetter, (fold_of_blank hb).2, beq_eq_false_iff_ne]
      rintro heq
      rw [← heq] at hb
      exact absurd hb (by decide)
    rw [dropScheme_of_head hc hsame, head?_lower (lowerAt_of_blank hb) hc] at hhead
    rw [Option.some.inj hhead] at hb
    exact absurd hb (by decide)
  · intro c hc
    by_contra hspace
    have hb := (Statement.isSpace_iff.mp (by simpa using hspace)).1
    have hdrop : (dropScheme url).toList.getLast? = some c := by
      obtain ⟨scheme, hscheme⟩ := dropScheme_suffix url
      have hne : (dropScheme url).toList ≠ [] := by
        intro h0
        rw [String.toList_eq_nil_iff.mp h0] at hhead
        cases hhead
      rwa [← hscheme, List.getLast?_append_of_ne_nil scheme hne] at hc
    rw [getLast?_lower (lowerAt_of_blank hb) hdrop] at hlast
    rw [Option.some.inj hlast, hblank] at hb
    cases hb

/-- The page that a cut URL names is not loaded from the URL. -/
theorem not_addressOf_of_closesEarly {url page : String} {wiki : String} {s : Settings}
    (hclosed : Statement.ClosesEarly url.toList)
    (hpage : Address.page? (String.ofList (Statement.readBack url.toList)) = some (wiki, page)) (hwiki : wiki ≠ "") :
    lower (dropScheme url) ≠ lower (dropScheme (addressOf wiki page s)) := by
  intro hloads
  have hcount := congrArg (fun t => t.toList.countP isQuoteSign) hloads
  simp only [countP_lower_dropScheme isMark_of_isQuoteSign (by decide)] at hcount
  rw [addressOf, String.toList_ofList, countP_pageUrl, if_neg hwiki] at hcount
  have hhost := Wiki.countP_normalizeHost_le isMark_of_isQuoteSign (by decide) (wiki ++ ".org")
  have horg : ".org".toList.countP isQuoteSign = 0 := by decide
  rw [String.toList_append, List.countP_append, horg] at hhost
  have hnamed := Address.countP_page?_le isMark_of_isQuoteSign (by decide) hpage
  have hlost := countP_readBack_lt (p := isQuoteSign) (by decide) (by decide) hclosed
  rw [String.toList_ofList] at hnamed
  omega

/-- A cut URL names a page without a wiki only if it could name one itself. -/
theorem ampersand_of_closesEarly {url page : String} (hclosed : Statement.ClosesEarly url.toList)
    (hpage : Address.page? (String.ofList (Statement.readBack url.toList)) = some ("", page)) :
    "//&".toList <:+: url.toList := by
  obtain ⟨spaces, a, b, hs, -, hread⟩ := Statement.readBack_of_closesEarly hclosed
  obtain ⟨scheme, rest, hurl, -⟩ := Address.ampersand_of_empty_wiki hpage
  rw [String.toList_ofList, hread] at hurl
  -- The backslash that is left of the quote is not part of the mark.
  have hlast : rest ≠ [] := by
    rintro rfl
    have hends := congrArg List.getLast? hurl
    rw [List.getLast?_concat, List.getLast?_append] at hends
    exact absurd (Option.some.inj hends) (by decide)
  have ha : a = scheme ++ '/' :: '/' :: '&' :: rest.dropLast := by
    have hinit := congrArg List.dropLast hurl
    rw [List.dropLast_concat, List.dropLast_append_of_ne_nil (by simp)] at hinit
    rw [hinit]
    simp [List.dropLast_cons_of_ne_nil, hlast]
  refine ⟨spaces ++ scheme, rest.dropLast ++ '\'' :: b, ?_⟩
  rw [hs, ha]
  simp

/-- A URL is read back as it is exactly if it is not closed early and has no spaces around it. -/
theorem readBack_eq_self {url : String} : String.ofList (Statement.readBack url.toList) = url ↔
    ¬ Statement.ClosesEarly url.toList ∧ Statement.strip url.toList = url.toList := by
  rw [← String.toList_inj, String.toList_ofList]
  constructor
  · intro heq
    have hopen : ¬ Statement.ClosesEarly url.toList := by
      intro hclosed
      have hlost := countP_readBack_lt (p := isQuoteSign) (by decide) (by decide) hclosed
      rw [heq] at hlost
      omega
    exact ⟨hopen, (Statement.readBack_of_not_closesEarly hopen).symm.trans heq⟩
  · rintro ⟨hopen, hstrip⟩
    rw [Statement.readBack_of_not_closesEarly hopen, hstrip]

/-- The statement of a URL that names no page leads back to it exactly if the URL is neither cut nor stripped. A URL that spells the
MediaWiki site without its `www` is left aside, since printing changes it, and so is one that can name a page without a wiki. -/
theorem survives_address_iff {e : Entry} {s : Settings} {url : String} (h : e.source = .address url) (hnamed : named? url = none)
    (hsite : servedMediaWiki url.toList = url.toList) (hhost : ¬ "//&".toList <:+: url.toList) :
    e.Survives s ↔ ¬ Statement.ClosesEarly url.toList ∧ Statement.strip url.toList = url.toList := by
  have hread : e.readBack s = String.ofList (Statement.readBack url.toList) := by
    rw [readBack, loaderUrl_of_address h, String.toList_ofList, hsite]
  have hwhole : e.readBack s = url ↔ ¬ Statement.ClosesEarly url.toList ∧ Statement.strip url.toList = url.toList := by
    rw [hread]
    exact readBack_eq_self
  rw [Survives, h]
  cases hback : named? (e.readBack s) with
  | none => exact hwhole
  | some found =>
    obtain ⟨wiki, page⟩ := found
    rw [← hwhole]
    refine iff_of_false ?_ ?_
    · intro hloads
      by_cases hclosed : Statement.ClosesEarly url.toList
      · rw [hread] at hback
        have hpage := (Option.filter_eq_some_iff.mp hback).1
        refine not_addressOf_of_closesEarly hclosed hpage ?_ hloads
        rintro rfl
        exact hhost (ampersand_of_closesEarly hclosed hpage)
      · have hsame := hwhole.mpr ⟨hclosed, strip_of_addressOf hloads⟩
        rw [hsame, hnamed] at hback
        cases hback
    · intro heq
      rw [heq, hnamed] at hback
      cases hback

end Entry

end UserScripts
