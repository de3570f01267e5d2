import UserScripts.Proofs.Statement.Address
import UserScripts.Proofs.Statement.Return

/-!
# The entry that comes back

Printing an entry and reading the statement does not always give the same script. `Survives` says for every entry, in terms of the
text that is read back, whether it does. Main statement: `sameScript_ofAddress_readBack`.
-/

namespace UserScripts

open UserScripts.Text

namespace Entry

/-! ## The entry of a URL -/

/-- The wiki and the page that a URL names, if it names a page. -/
def named? (url : String) : Option (String × String) :=
  (Address.page? url).filter (·.2 ≠ "")

/-- A URL that names a page gives the entry of that page. -/
theorem ofAddress_of_named {url wiki page : String} (nonempty : url ≠ "") (h : named? url = some (wiki, page)) (target : String)
    (disabled : Bool) : ∃ hp, ofAddress url nonempty target disabled = ofPage page hp (some wiki) target disabled := by
  obtain ⟨hpage, hp⟩ := Option.filter_eq_some_iff.mp h
  have hne : page ≠ "" := by simpa using hp
  refine ⟨hne, ?_⟩
  rw [ofAddress, hpage]
  exact dif_neg hne

/-- A URL that names no page gives the entry of the URL. -/
theorem ofAddress_of_not_named {url : String} {nonempty : url ≠ ""} (h : named? url = none) (target : String) (disabled : Bool) :
    ofAddress url nonempty target disabled = ofUrl url nonempty target disabled := by
  rw [ofAddress]
  cases hpage : Address.page? url with
  | none => rfl
  | some found =>
    obtain ⟨wiki, page⟩ := found
    rw [named?, hpage] at h
    have hp : page = "" := by simpa using h
    exact dif_pos hp

/-- The entry for a URL has the target and the switch that it is given. -/
theorem target_ofAddress (url : String) (nonempty : url ≠ "") (target : String) (disabled : Bool) :
    (ofAddress url nonempty target disabled).target = target ∧ (ofAddress url nonempty target disabled).disabled = disabled := by
  cases h : named? url with
  | none =>
    rw [ofAddress_of_not_named h]
    exact ⟨rfl, rfl⟩
  | some found =>
    obtain ⟨wiki, page⟩ := found
    obtain ⟨hp, heq⟩ := ofAddress_of_named nonempty h target disabled
    rw [heq]
    exact ⟨rfl, rfl⟩

/-- The source of the entry of a URL is that URL. -/
theorem source_ofUrl {url : String} (nonempty : url ≠ "") (target : String) (disabled : Bool) :
    (ofUrl url nonempty target disabled).source = .address url := by
  rw [source, ofUrl, given_some nonempty]

/-- What a page entry loads: a page of the given wiki, and of the wiki of the statement if that is missing or empty. -/
theorem source_ofPage {page : String} (nonempty : page ≠ "") (wiki : Option String) (target : String) (disabled : Bool) :
    (ofPage page nonempty wiki target disabled).source =
      match given wiki with
      | some wiki => .foreign wiki page
      | none => .own page := by
  rw [source, ofPage, given_none]
  rfl

/-- The entry of a page is displayed by its title. -/
theorem displayName_ofPage {page : String} (nonempty : page ≠ "") (wiki : Option String) (target : String) (disabled : Bool) :
    (ofPage page nonempty wiki target disabled).displayName = page := by
  rw [displayName, source_ofPage]
  cases given wiki <;> rfl

/-! ## Entries that survive -/

/-- The URL from which a session loads a page of a wiki, its own one if the name of the wiki is empty. -/
def addressOf (wiki page : String) (s : Settings) : String :=
  String.ofList (servedMediaWiki (pageUrl (if wiki = "" then s.serverName else wiki ++ ".org") page).toList)

/-- Whether an entry loads the given page of a wiki, the wiki of the session if its name is empty. -/
def LoadsPage (e : Entry) (wiki page : String) (s : Settings) : Prop :=
  lower page = lower e.displayName ∧
    Wiki.plainFragment (if wiki = "" then s.currentWiki else wiki) = Wiki.plainFragment (e.sourceWiki s)

/-- Whether the statement of an entry leads back to its script. If the text that is read back names a page, it has to be the page
of the entry, or for a URL entry the page that is loaded from its URL. Otherwise nothing may be lost. -/
def Survives (e : Entry) (s : Settings) : Prop :=
  match e.source with
  | .address url =>
    match named? (e.readBack s) with
    | some (wiki, page) => lower (dropScheme url) = lower (dropScheme (addressOf wiki page s))
    | none => e.readBack s = url
  | _ =>
    match named? (e.readBack s) with
    | some (wiki, page) => e.LoadsPage wiki page s
    | none => ¬ Statement.ClosesEarly (e.loaderUrl s.serverName).toList

/-- Whether the statement of a page survives is told by the page that the text read back names. -/
theorem survives_of_page {e : Entry} {s : Settings} (h : ∀ url, e.source ≠ .address url) : e.Survives s ↔
    match named? (e.readBack s) with
    | some (wiki, page) => e.LoadsPage wiki page s
    | none => ¬ Statement.ClosesEarly (e.loaderUrl s.serverName).toList := by
  rw [Survives]
  cases hs : e.source with
  | own page => rfl
  | «foreign» wiki page => rfl
  | address url => exact absurd hs (h url)

/-! ## Text that is lost -/

/-- The quotes of a text, in lower case or not and with a scheme or not. -/
theorem countP_lower_dropScheme {p : Char → Bool} (hp : ∀ c, p c = true → isMark c = true) (hcolon : p ':' = false)
    (url : String) : (lower (dropScheme url)).toList.countP p = url.toList.countP p := by
  have hno : ∀ c, c.isAlpha = true → p c = false := by
    intro c hc
    by_contra h
    have hmark := hp c (by simpa using h)
    simp [isMark, hc] at hmark
  have hword : "https:".toList.countP p = 0 ∧ "http:".toList.countP p = 0 := by
    simp [hno, hcolon]
  rw [countP_lower hp, dropScheme, String.toList_ofList]
  cases h₁ : afterFold? "https:".toList url.toList with
  | some rest =>
    rw [countP_of_afterFold? hp h₁, hword.1, Nat.zero_add]
    rfl
  | none =>
    cases h₂ : afterFold? "http:".toList url.toList with
    | some rest =>
      rw [countP_of_afterFold? hp h₂, hword.2, Nat.zero_add]
      rfl
    | none => rfl

/-- A text that is cut has fewer quotes afterwards, percent signs counted as well. -/
theorem countP_readBack_lt {p : Char → Bool} {s : List Char} (hquote : p '\'' = true) (hslash : p '\\' = false)
    (h : Statement.ClosesEarly s) : (Statement.readBack s).countP p < s.countP p := by
  obtain ⟨spaces, a, b, hs, -, hread⟩ := Statement.readBack_of_closesEarly h
  rw [hread, hs]
  simp only [List.countP_append, List.countP_cons, hquote, hslash, if_true, List.countP_nil]
  simp
  omega

/-- The URL of a page comes back whole if it is not cut. -/
theorem readBack_of_page {e : Entry} {s : Settings} (h : ∀ url, e.source ≠ .address url)
    (hclosed : ¬ Statement.ClosesEarly (e.loaderUrl s.serverName).toList) : e.readBack s = e.loaderUrl s.serverName := by
  obtain ⟨host, page, hloader⟩ := loaderUrl_of_page h s.serverName
  have hstrip : Statement.strip (e.loaderUrl s.serverName).toList = (e.loaderUrl s.serverName).toList := by
    refine Statement.strip_eq_self ?_ ?_
    · obtain ⟨rest, hrest⟩ := loaderUrl_slash h s.serverName
      intro c hc
      rw [hrest] at hc
      rw [← Option.some.inj hc]
      decide
    · intro c hc
      have hlist : (e.loaderUrl s.serverName).toList = servedMediaWiki (pageUrl host page).toList := by
        rw [hloader, String.toList_ofList]
      rw [hlist, servedMediaWiki_pageUrl] at hc
      revert hc
      generalize endsWithCss page.toList = css
      cases css <;> intro hc <;> rw [String.toList_append, ← List.append_assoc, List.getLast?_append] at hc <;>
        rw [← Option.some.inj hc] <;> decide
  rw [readBack, Statement.readBack_of_not_closesEarly hclosed, hstrip, String.ofList_toList]

/-- A text that does not name a page is the URL of a page entry exactly if it is not cut. -/
theorem urlLoads_readBack {e : Entry} {s : Settings} (h : ∀ url, e.source ≠ .address url) :
    urlLoads (e.readBack s) e s = true ↔ ¬ Statement.ClosesEarly (e.loaderUrl s.serverName).toList := by
  rw [urlLoads, beq_iff_eq]
  constructor
  · intro heq hclosed
    have hcount := congrArg (fun t => t.toList.countP (· == '\'')) heq
    have hmark : ∀ c, (c == '\'') = true → isMark c = true := by
      intro c hc
      rw [beq_iff_eq.mp hc]
      decide
    simp only [countP_lower_dropScheme hmark (by decide)] at hcount
    have hlt := countP_readBack_lt (p := (· == '\'')) (by decide) (by decide) hclosed
    rw [readBack, String.toList_ofList] at hcount
    omega
  · intro hclosed
    rw [readBack_of_page h hclosed]

/-! ## The entry that comes back -/

/-- The wiki of the entry of a page is the one that is given, or that of the session. -/
theorem sourceWiki_ofPage {page : String} (nonempty : page ≠ "") (wiki : String) (target : String) (disabled : Bool)
    (s : Settings) : (ofPage page nonempty (some wiki) target disabled).sourceWiki s =
      if wiki = "" then s.currentWiki else wiki := by
  rw [sourceWiki, ofPage]
  by_cases hw : wiki = ""
  · subst hw
    rfl
  · rw [given_some hw, if_neg hw]
    rfl

/-- The entry of a page is loaded from the URL of that page. -/
theorem loaderUrl_ofPage {page : String} (nonempty : page ≠ "") (wiki : String) (target : String) (disabled : Bool)
    (s : Settings) : (ofPage page nonempty (some wiki) target disabled).loaderUrl s.serverName = addressOf wiki page s := by
  rw [loaderUrl, source_ofPage, addressOf]
  by_cases hw : wiki = ""
  · subst hw
    rfl
  · rw [given_some hw, if_neg hw]

/-- A page entry loads no bare URL. -/
theorem source_ofPage_ne {page : String} (nonempty : page ≠ "") (wiki : Option String) (target : String) (disabled : Bool)
    (url : String) : (ofPage page nonempty wiki target disabled).source ≠ .address url := by
  rw [source_ofPage]
  cases given wiki <;> simp

/-- Two page entries load the same script if their pages and their wikis are the same. -/
theorem sameScript_of_pages {a b : Entry} {s : Settings} (ha : ∀ url, a.source ≠ .address url)
    (hb : ∀ url, b.source ≠ .address url) : a.sameScript b s = true ↔ lower a.displayName = lower b.displayName ∧
      Wiki.plainFragment (a.sourceWiki s) = Wiki.plainFragment (b.sourceWiki s) := by
  rw [sameScript]
  cases hsa : a.source with
  | address url => exact absurd hsa (ha url)
  | own page =>
    cases hsb : b.source with
    | address url => exact absurd hsb (hb url)
    | own page' => simp
    | «foreign» wiki page' => simp
  | «foreign» wiki page =>
    cases hsb : b.source with
    | address url => exact absurd hsb (hb url)
    | own page' => simp
    | «foreign» wiki' page' => simp

/-- A URL and a page are the same script if the URL loads that page. -/
theorem sameScript_of_address_left {a b : Entry} {s : Settings} {url : String} (ha : a.source = .address url)
    (hb : ∀ url, b.source ≠ .address url) : a.sameScript b s = urlLoads url b s := by
  rw [sameScript, ha]
  cases hs : b.source with
  | own page => rfl
  | «foreign» wiki page => rfl
  | address url => exact absurd hs (hb url)

/-- A page and a URL are the same script if the URL loads that page. -/
theorem sameScript_of_address_right {a b : Entry} {s : Settings} {url : String} (ha : ∀ url, a.source ≠ .address url)
    (hb : b.source = .address url) : a.sameScript b s = urlLoads url a s := by
  rw [sameScript, hb]
  cases hs : a.source with
  | own page => rfl
  | «foreign» wiki page => rfl
  | address url => exact absurd hs (ha url)

/-- Two URLs are the same script exactly if they are equal. -/
theorem sameScript_of_addresses {a b : Entry} {s : Settings} {url url' : String} (ha : a.source = .address url)
    (hb : b.source = .address url') : a.sameScript b s = (url == url') := by
  rw [sameScript, ha, hb]

/-- The entry that is read back loads the same script exactly if the entry survives. -/
theorem sameScript_ofAddress_readBack (e : Entry) (s : Settings) (target : String) (disabled : Bool) :
    (ofAddress (e.readBack s) (e.readBack_ne_empty s) target disabled).sameScript e s = true ↔ e.Survives s := by
  by_cases haddress : ∃ url, e.source = .address url
  · obtain ⟨url, hurl⟩ := haddress
    rw [Survives, hurl]
    cases hnamed : named? (e.readBack s) with
    | none => rw [ofAddress_of_not_named hnamed, sameScript_of_addresses (source_ofUrl _ _ _) hurl, beq_iff_eq]
    | some found =>
      obtain ⟨wiki, page⟩ := found
      obtain ⟨hp, heq⟩ := ofAddress_of_named (e.readBack_ne_empty s) hnamed target disabled
      rw [heq, sameScript_of_address_right (source_ofPage_ne hp (some wiki) target disabled) hurl, urlLoads,
        loaderUrl_ofPage, beq_iff_eq]
  · have hpage : ∀ url, e.source ≠ .address url := fun url hurl => haddress ⟨url, hurl⟩
    rw [survives_of_page hpage]
    cases hnamed : named? (e.readBack s) with
    | none =>
      rw [ofAddress_of_not_named hnamed, sameScript_of_address_left (source_ofUrl _ _ _) hpage, urlLoads_readBack hpage]
    | some found =>
      obtain ⟨wiki, page⟩ := found
      obtain ⟨hp, heq⟩ := ofAddress_of_named (e.readBack_ne_empty s) hnamed target disabled
      rw [heq, sameScript_of_pages (source_ofPage_ne hp (some wiki) target disabled) hpage, displayName_ofPage,
        sourceWiki_ofPage]
      rfl

end Entry

end UserScripts
