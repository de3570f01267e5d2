import UserScripts.Proofs.Statement.Survival

/-!
# Which titles survive

On a wiki with a plain host the statement of a page leads back to the page exactly if its title is one that can stand in a URL as it
is. Main statement: `survives_title_iff`.
-/

namespace UserScripts

open UserScripts.Text

namespace Entry

/-- The text that names the host from which a page is loaded. -/
def host (e : Entry) (s : Settings) : String :=
  match e.source with
  | .own _ => s.serverName
  | .foreign wiki _ => wiki ++ ".org"
  | .address _ => ""

/-- A page entry whose wiki stands in URLs as it is. -/
structure OnPlainWiki (e : Entry) (s : Settings) (wiki : String) : Prop where
  page : ∀ url, e.source ≠ .address url
  host : Wiki.normalizeHost (e.host s) = wiki ++ ".org"
  same : Wiki.plainFragment wiki = Wiki.plainFragment (e.sourceWiki s)
  ne_empty : wiki ≠ ""
  plain : ∀ c ∈ wiki.toList, c ≠ '/' ∧ c ≠ '&' ∧ c ≠ '%' ∧ c ≠ '\n'
  served : servedMediaWiki ("//" ++ wiki ++ ".org/w/index.php?title").toList = ("//" ++ wiki ++ ".org/w/index.php?title").toList

/-- Whether a title stands in the URL of its page as it is: it has no ampersand after its first character, no escape, and nothing
that the MediaWiki site would be recognised by. -/
def KeepsTitle (page : String) : Prop :=
  '&' ∉ page.toList.tail ∧ hasEscape page.toList = false ∧ servedMediaWiki page.toList = page.toList

/-- The title of a page is not empty. -/
theorem displayName_ne_empty {e : Entry} (h : ∀ url, e.source ≠ .address url) : e.displayName ≠ "" := by
  have hurl : given e.url = none := by
    rw [Option.eq_none_iff_forall_ne_some]
    intro url hurl
    exact h url (by rw [source, hurl])
  have hor := e.page_or_url
  rw [hurl] at hor
  obtain ⟨page, hpage⟩ := Option.ne_none_iff_exists'.mp (show given e.page ≠ none by simpa using hor)
  obtain ⟨hp, hne⟩ := Option.filter_eq_some_iff.mp hpage
  have hname : e.displayName = page := by
    rw [displayName, source, hurl, hp]
    cases given e.wiki <;> rfl
  rw [hname]
  simpa using hne

/-- A page is loaded from the served form of its URL. -/
theorem loaderUrl_eq {e : Entry} (h : ∀ url, e.source ≠ .address url) (s : Settings) :
    e.loaderUrl s.serverName = String.ofList (servedMediaWiki (pageUrl (e.host s) e.displayName).toList) := by
  rw [loaderUrl, host, displayName]
  cases hs : e.source with
  | own page => rfl
  | «foreign» wiki page => rfl
  | address url => exact absurd hs (h url)

/-- On a plain wiki a page is loaded from a plain address. -/
theorem loaderUrl_of_plainWiki {e : Entry} {s : Settings} {wiki : String} (h : e.OnPlainWiki s wiki) :
    ∃ rest, (e.loaderUrl s.serverName).toList = "//".toList ++ (wiki.toList ++ (".org/w/index.php?".toList ++ ("title=".toList ++
      (servedMediaWiki e.displayName.toList ++ '&' :: rest)))) := by
  have hfront : servedMediaWiki ("//".toList ++ (Wiki.normalizeHost (e.host s)).toList ++ "/w/index.php?title=".toList ++
      e.displayName.toList) =
      ("//" ++ wiki ++ ".org/w/index.php?title").toList ++ '=' :: servedMediaWiki e.displayName.toList := by
    rw [← h.served, ← servedMediaWiki_append_cons (c := '=') (by decide), h.host]
    simp
  refine ⟨("action=raw&ctype=" ++ if endsWithCss e.displayName.toList then "text/css" else "text/javascript").toList, ?_⟩
  rw [loaderUrl_eq h.page, String.toList_ofList, servedMediaWiki_pageUrl, hfront]
  cases endsWithCss e.displayName.toList <;> simp

/-- The URL of a page of a plain wiki has no ampersand right after the slashes. -/
theorem not_prefix_of_plainWiki {e : Entry} {s : Settings} {wiki : String} (h : e.OnPlainWiki s wiki) :
    ¬ "//&".toList <+: (e.loaderUrl s.serverName).toList := by
  obtain ⟨rest, hurl⟩ := loaderUrl_of_plainWiki h
  obtain ⟨d, w, hd⟩ := List.exists_cons_of_ne_nil (show wiki.toList ≠ [] by simpa using h.ne_empty)
  rintro ⟨v, hv⟩
  rw [hurl, hd] at hv
  have hampersand : '&' = d := (List.cons.inj (List.cons.inj (List.cons.inj hv).2).2).1
  exact (h.plain d (by rw [hd]; exact List.mem_cons_self)).2.1 hampersand.symm

/-- The page that a plain address names is its title up to the first ampersand after its first character, decoded. -/
theorem named?_of_plainWiki {e : Entry} {s : Settings} {wiki : String} {c : Char} {t rest : List Char}
    (h : e.OnPlainWiki s wiki) (hc : c ≠ '\n') (ht : '&' ∉ t) (hline : '\n' ∉ t)
    (hurl : (e.loaderUrl s.serverName).toList = "//".toList ++ (wiki.toList ++ (".org/w/index.php?".toList ++
      ("title=".toList ++ (c :: t ++ '&' :: rest))))) :
    named? (e.loaderUrl s.serverName) = some (wiki, String.ofList (percentDecode (c :: t))) := by
  have hwiki : wiki.toList ≠ [] := by simpa using h.ne_empty
  have hparts : Address.parts? (e.loaderUrl s.serverName).toList = some (wiki.toList, c :: t ++ ['&']) := by
    rw [hurl]
    exact Address.parts?_plain hwiki (fun hmem => (h.plain _ hmem).1 rfl) (fun hmem => (h.plain _ hmem).2.2.2 rfl) hc ht hline rest
  have hdecoded : Address.decodePart wiki.toList = wiki.toList :=
    Address.decodePart_eq_self (fun hmem => (h.plain _ hmem).2.1 rfl) (fun hmem => (h.plain _ hmem).2.2.1 rfl)
  have hpage : String.ofList (percentDecode (c :: t)) ≠ "" := by
    intro h0
    have hlist := congrArg String.toList h0
    rw [String.toList_ofList] at hlist
    exact absurd (percentDecode_eq_nil hlist) (by simp)
  rw [named?, Address.page?, hparts, Option.map_some]
  dsimp only
  rw [hdecoded, Address.decodePart_append_ampersand, String.ofList_toList, Option.filter_some, if_pos (by simpa using hpage)]

/-- The ampersand, which ends a title, and the percent sign, which can stand for one. -/
def isTitleEnd (c : Char) : Bool :=
  c == '&' || c == '%'

/-- The ends of a title are marks. -/
theorem isMark_of_isTitleEnd (c : Char) (h : isTitleEnd c = true) : isMark c = true := by
  rw [isTitleEnd, Bool.or_eq_true, beq_iff_eq, beq_iff_eq] at h
  rcases h with rfl | rfl <;> decide

/-- A title that is cut at an ampersand is another title. -/
theorem not_loadsPage_of_ampersand {e : Entry} {s : Settings} {wiki : String} {u v : List Char}
    (h : servedMediaWiki e.displayName.toList = u ++ '&' :: v) :
    ¬ e.LoadsPage wiki (String.ofList (percentDecode u)) s := by
  rintro ⟨hlower, -⟩
  have hcount := congrArg (fun t => t.toList.countP isTitleEnd) hlower
  simp only [countP_lower isMark_of_isTitleEnd] at hcount
  have hdecoded := countP_percentDecode_le isMark_of_isTitleEnd (by decide) u
  have hserved := countP_servedMediaWiki isMark_of_isTitleEnd (by decide) e.displayName.toList
  have hampersand : isTitleEnd '&' = true := by decide
  rw [h, List.countP_append, List.countP_cons, if_pos hampersand] at hserved
  rw [String.toList_ofList] at hcount
  omega

/-- The percent sign and the digits, of which every escape has more than what it stands for. -/
def isEscapeSign (c : Char) : Bool :=
  c == '%' || c.isDigit

/-- The signs of an escape are marks. -/
theorem isMark_of_isEscapeSign (c : Char) (h : isEscapeSign c = true) : isMark c = true := by
  have hdigits : ∀ n < 58, 48 ≤ n → isMark (Char.ofNat n) = true := by decide
  rw [isEscapeSign, Bool.or_eq_true, beq_iff_eq] at h
  rcases h with rfl | h
  · decide
  · simp only [Char.isDigit, Bool.and_eq_true, decide_eq_true_eq] at h
    have hlow : 48 ≤ c.toNat := UInt32.le_iff_toNat_le.mp h.1
    have hhigh : c.toNat ≤ 57 := UInt32.le_iff_toNat_le.mp h.2
    have hmark := hdigits c.toNat (by omega) hlow
    rwa [Char.ofNat_toNat] at hmark

/-- A title comes back if it has no escape and nothing is substituted in it, and otherwise it does not. -/
theorem lower_decoded_iff {title : String} :
    lower (String.ofList (percentDecode (servedMediaWiki title.toList))) = lower title ↔
      hasEscape title.toList = false ∧ servedMediaWiki title.toList = title.toList := by
  constructor
  · intro hlower
    have hplain : hasEscape (servedMediaWiki title.toList) = false := by
      by_contra hescape
      have hcount := congrArg (fun t => t.toList.countP isEscapeSign) hlower
      simp only [countP_lower isMark_of_isEscapeSign] at hcount
      have hlost := countP_percentDecode_lt isMark_of_isEscapeSign (by decide) (fun c hc => by simp [isEscapeSign, hc])
        (by simpa using hescape)
      rw [countP_servedMediaWiki isMark_of_isEscapeSign (by decide)] at hlost
      rw [String.toList_ofList] at hcount
      omega
    rw [percentDecode_eq_self hplain] at hlower
    have hmark : ∀ c, (c == '.') = true → isMark c = true := by
      intro c hc
      rw [beq_iff_eq.mp hc]
      decide
    have hdots := congrArg (fun t => t.toList.countP (· == '.')) hlower
    simp only [countP_lower hmark, String.toList_ofList] at hdots
    have hsame := servedMediaWiki_eq_self_of_countP hdots
    rw [hsame] at hplain
    exact ⟨hplain, hsame⟩
  · rintro ⟨hplain, hsame⟩
    rw [hsame, percentDecode_eq_self hplain, String.ofList_toList]

/-- On a plain wiki the statement of a page leads back to it exactly if its URL is not cut at a quote and its title keeps. -/
theorem survives_title_iff {e : Entry} {s : Settings} {wiki : String} (h : e.OnPlainWiki s wiki)
    (hline : '\n' ∉ e.displayName.toList) :
    e.Survives s ↔ ¬ Statement.ClosesEarly (e.loaderUrl s.serverName).toList ∧ KeepsTitle e.displayName := by
  obtain ⟨rest, hurl⟩ := loaderUrl_of_plainWiki h
  rw [survives_page_iff h.page (not_prefix_of_plainWiki h)]
  refine and_congr_right fun _ => ?_
  have hne : servedMediaWiki e.displayName.toList ≠ [] :=
    servedMediaWiki_ne_nil (by simpa using displayName_ne_empty h.page)
  have hline' : '\n' ∉ servedMediaWiki e.displayName.toList := by
    intro hmem
    rcases mem_of_mem_servedMediaWiki hmem with hmem | hmem
    · exact hline hmem
    · exact absurd hmem (by decide)
  obtain ⟨c, t, ht⟩ := List.exists_cons_of_ne_nil hne
  rw [ht, List.mem_cons, not_or] at hline'
  rw [ht] at hurl
  by_cases hampersand : '&' ∈ t
  · obtain ⟨u, v, rfl, hu⟩ := List.eq_append_cons_of_mem hampersand
    have hlineu : '\n' ∉ u := fun hmem => hline'.2 (List.mem_append_left _ hmem)
    have hnamed := named?_of_plainWiki h (Ne.symm hline'.1) hu hlineu
      (show _ = _ ++ (_ ++ (_ ++ (_ ++ (c :: u ++ '&' :: (v ++ '&' :: rest))))) by rw [hurl]; simp)
    refine iff_of_false ?_ ?_
    · intro hloads
      exact not_loadsPage_of_ampersand (u := c :: u) (v := v) ht (hloads _ _ hnamed)
    · rintro ⟨htitle, -, hsame⟩
      rw [← hsame, ht] at htitle
      exact htitle hampersand
  · have hnamed := named?_of_plainWiki h (Ne.symm hline'.1) hampersand hline'.2 hurl
    rw [← ht] at hnamed
    have hfragment : Wiki.plainFragment (if wiki = "" then s.currentWiki else wiki) = Wiki.plainFragment (e.sourceWiki s) := by
      rw [if_neg h.ne_empty]
      exact h.same
    constructor
    · intro hloads
      obtain ⟨hplain, hsame⟩ := lower_decoded_iff.mp (hloads _ _ hnamed).1
      refine ⟨?_, hplain, hsame⟩
      rw [← hsame, ht]
      exact hampersand
    · rintro ⟨-, hplain, hsame⟩ wiki' page' hnamed'
      rw [hnamed] at hnamed'
      obtain ⟨rfl, rfl⟩ := Prod.mk.inj (Option.some.inj hnamed')
      exact ⟨lower_decoded_iff.mpr ⟨hplain, hsame⟩, hfragment⟩

end Entry

end UserScripts
