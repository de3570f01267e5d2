import UserScripts.Proofs.Statement.Literal
import UserScripts.Proofs.Statement.Served
import UserScripts.Proofs.Statement.Shape

/-!
# What comes back from a statement

The line of an entry is read as the entry of the URL that comes back from its literal. Main statement: `ofLine?_append_loadCall`, which
holds whatever is written behind the call.
-/

namespace UserScripts

open UserScripts.Text

namespace Statement

/-! ## Reading a call -/

/-- Nothing after the literal of a written call looks like a media type of its own. -/
theorem closing_call (css : Bool) (comment : List Char) : Closing (mediaArgument css ++ ");".toList ++ comment) := by
  intro name hname
  simp only [mediaTypes, List.mem_cons, List.not_mem_nil, or_false] at hname
  rcases hname with rfl | rfl | rfl | rfl <;> cases css <;> rfl

/-- A call ends after the quote that closes its literal. -/
theorem exists_close?_call (css : Bool) (comment : List Char) :
    ∃ result, close? .load '\'' ('\'' :: (mediaArgument css ++ ");".toList ++ comment)) = some result := by
  cases css
  · exact ⟨_, rfl⟩
  · exact ⟨_, rfl⟩

/-- A written call is read as its literal. -/
theorem call?_of_literal (disabled : Bool) {callee : Callee} {text body rest : List Char} {mediaType : Option String}
    (h : literal? (close? callee '\'') text = some (body, mediaType, rest)) :
    call? disabled callee ('\'' :: text) = some ⟨disabled, callee, body, mediaType, rest, literal?_ne_nil h⟩ := by
  have hdrop : dropBlank ('\'' :: text) = '\'' :: text := dropBlank_cons_of_not_blank (by decide) text
  unfold call?
  rw [hdrop]
  dsimp only
  rw [if_pos (by decide)]
  split
  · next heq =>
    rw [h] at heq
    cases heq
    rfl
  · next heq =>
    rw [h] at heq
    nomatch heq

/-- A load call is read as a statement, and its literal as `readBack` says. -/
theorem ofLine?_call {s : List Char} {css : Bool} (disabled : Bool) (comment : List Char) (hs : s ≠ [])
    (hspaces : (∀ c ∈ s, isSpace c = true) → css = false ∧ comment = []) :
    ∃ statement, ofLine? ((if disabled then "//" else "").toList ++ ("mw.loader.load('".toList ++ (toLiteral s ++
        '\'' :: (mediaArgument css ++ ");".toList ++ comment)))) = some statement ∧
      statement.disabled = disabled ∧ statement.callee = .load ∧ statement.argument = String.ofList (readBack s) := by
  obtain ⟨result, hresult⟩ := exists_close?_call css comment
  have hnone : (∀ c ∈ s, isSpace c = true) →
      Address.shortest (close? .load '\'') ('\'' :: (mediaArgument css ++ ");".toList ++ comment)) = none := by
    intro hall
    obtain ⟨rfl, rfl⟩ := hspaces hall
    rfl
  obtain ⟨body, ⟨mediaType, rest⟩, hbody, hread⟩ := literal?_toLiteral hs (closing_call css comment) hresult hnone
  have hslashes : dropSlashes ((if disabled then "//" else "").toList ++ ("mw.loader.load('".toList ++ (toLiteral s ++
      '\'' :: (mediaArgument css ++ ");".toList ++ comment)))) =
      (disabled, "mw.loader.load('".toList ++ (toLiteral s ++ '\'' :: (mediaArgument css ++ ");".toList ++ comment))) := by
    cases disabled <;> rfl
  generalize toLiteral s ++ '\'' :: (mediaArgument css ++ ");".toList ++ comment) = text at *
  have himport : tokens? ["importScript", "("] ("mw.loader.load('".toList ++ text) = none := rfl
  have hload : tokens? ["mw", ".", "loader", ".", "load", "("] ("mw.loader.load('".toList ++ text) = some ('\'' :: text) := rfl
  have hcall := call?_of_literal disabled hbody
  refine ⟨⟨disabled, .load, body, mediaType, rest, literal?_ne_nil hbody⟩, ?_, rfl, rfl, ?_⟩
  · rw [ofLine?, hslashes]
    simp only [himport, hload, hcall]
  · rw [argument, hread]

end Statement

namespace Entry

/-! ## Reading the statement of an entry -/

/-- An entry that is named by a URL gives that URL. -/
theorem given_of_source {e : Entry} {url : String} (h : e.source = .address url) : given e.url = some url := by
  unfold source at h
  split at h
  · next url' hurl =>
    obtain rfl := Source.address.inj h
    exact hurl
  · split at h <;> nomatch h

/-- A page is loaded from a URL that starts with a slash. -/
theorem loaderUrl_slash {e : Entry} (h : ∀ url, e.source ≠ .address url) (server : String) :
    ∃ rest, (e.loaderUrl server).toList = '/' :: rest := by
  obtain ⟨host, page, hloader⟩ := loaderUrl_of_page h server
  obtain ⟨rest, hrest⟩ := exists_servedMediaWiki_slash _
  refine ⟨rest, ?_⟩
  rw [hloader, String.toList_ofList, pageUrl_toList]
  exact hrest

/-- The URL from which an entry is loaded is not empty. -/
theorem loaderUrl_ne_nil (e : Entry) (server : String) : (e.loaderUrl server).toList ≠ [] := by
  by_cases h : ∃ url, e.source = .address url
  · obtain ⟨url, hurl⟩ := h
    have hne : url ≠ "" := by
      have hgiven := Option.filter_eq_some_iff.mp (given_of_source hurl)
      simpa using hgiven.2
    rw [loaderUrl_of_address hurl, String.toList_ofList]
    exact servedMediaWiki_ne_nil (by simpa using hne)
  · obtain ⟨rest, hrest⟩ := loaderUrl_slash (fun url hurl => h ⟨url, hurl⟩) server
    rw [hrest]
    simp

/-- What is read from the statement of an entry. -/
def readBack (e : Entry) (s : Settings) : String :=
  String.ofList (Statement.readBack (e.loaderUrl s.serverName).toList)

/-- What is read from the statement of an entry is not empty. -/
theorem readBack_ne_empty (e : Entry) (s : Settings) : e.readBack s ≠ "" := by
  have h := Statement.readBack_ne_nil (e.loaderUrl_ne_nil s.serverName)
  simpa [readBack] using h

/-- An entry that loads nothing but spaces is a URL and no style sheet. -/
theorem plain_of_spaces {e : Entry} {s : Settings} {css : Bool} (hcss : e.isCss = .ok css)
    (h : ∀ c ∈ (e.loaderUrl s.serverName).toList, Statement.isSpace c = true) : css = false ∧ (e.backlink s).toList = [] := by
  have hslash : '/' ∉ (e.loaderUrl s.serverName).toList := fun hmem => absurd (h '/' hmem) (by decide)
  by_cases haddress : ∃ url, e.source = .address url
  · obtain ⟨url, hurl⟩ := haddress
    refine ⟨?_, by rw [backlink, hurl]; rfl⟩
    rw [loaderUrl_of_address hurl, String.toList_ofList] at h hslash
    have hcount := countP_servedMediaWiki (p := (· == '/')) (by intro c hc; rw [beq_iff_eq.mp hc]; decide) (by decide) url.toList
    have hurlslash : '/' ∉ url.toList := by
      rw [← List.count_eq_zero, List.count, ← hcount, List.countP_eq_zero]
      intro c hc heq
      exact hslash (beq_iff_eq.mp heq ▸ hc)
    rw [servedMediaWiki_eq_self hurlslash] at h
    rw [isCss, hurl] at hcss
    dsimp only at hcss
    cases hsplit : Url.split url.toList with
    | error malformed => rw [hsplit] at hcss; nomatch hcss
    | ok parts =>
      rw [hsplit] at hcss
      obtain rfl := Except.ok.inj hcss
      by_contra hpath
      have hdot := Url.mem_of_mem_path hsplit (mem_of_endsWithCss (by simpa using hpath))
      exact absurd (h '.' hdot) (by decide)
  · obtain ⟨rest, hrest⟩ := loaderUrl_slash (fun url hurl => haddress ⟨url, hurl⟩) s.serverName
    rw [hrest] at hslash
    exact absurd List.mem_cons_self hslash

/-- The call of an entry is read as the entry of the URL that comes back, switched off if slashes are before it, whatever is
written behind it. Only behind a call of nothing but spaces nothing may be written. -/
theorem ofLine?_append_loadCall {e : Entry} {s : Settings} {call : String} (h : e.loadCall s = .ok call) (disabled : Bool)
    {comment : String} (hspaces : (∀ c ∈ (e.loaderUrl s.serverName).toList, Statement.isSpace c = true) → comment.toList = [])
    (target : String) : ofLine? ((if disabled then "//" else "") ++ call ++ comment) target =
      some (ofAddress (e.readBack s) (e.readBack_ne_empty s) target disabled) := by
  obtain ⟨css, hcss, hlist⟩ := loadCall_eq h
  obtain ⟨statement, hline, hdisabled, hcallee, hargument⟩ :=
    Statement.ofLine?_call disabled comment.toList (e.loaderUrl_ne_nil s.serverName)
      fun hall => ⟨(plain_of_spaces hcss hall).1, hspaces hall⟩
  have htext : ((if disabled then "//" else "") ++ call ++ comment).toList =
      (if disabled then "//" else "").toList ++ ("mw.loader.load('".toList ++ (toLiteral (e.loaderUrl s.serverName).toList ++
        '\'' :: (mediaArgument css ++ ");".toList ++ comment.toList))) := by
    simp [hlist]
  rw [ofLine?, htext, hline, Option.map_some, Statement.entry, hcallee, hdisabled]
  simp only [hargument]
  rfl

/-- The statement of an entry is read as the entry of the URL that comes back, on any target. -/
theorem ofLine?_statement {e : Entry} {s : Settings} {text : String} (h : e.statement s = .ok text) (target : String) :
    ofLine? text target = some (ofAddress (e.readBack s) (e.readBack_ne_empty s) target e.disabled) := by
  obtain ⟨call, hcall, rfl⟩ := statement_eq h
  obtain ⟨css, hcss, -⟩ := loadCall_eq hcall
  exact ofLine?_append_loadCall hcall e.disabled (fun hspaces => (plain_of_spaces hcss hspaces).2) target

end Entry

end UserScripts
