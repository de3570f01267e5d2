import UserScripts.Proofs.Statement.Title

/-!
# Statements that lead back to their entry

When printing an entry and reading the statement gives the same script again. Main statement: `statement_leads_back_iff`.
-/

namespace UserScripts

open UserScripts.Text

namespace Entry

/-- An entry as a command line or a page gives rise to it: for a page, for a URL, or for a line. -/
inductive Built : Entry → Prop where
  | page (page : String) (nonempty : page ≠ "") (wiki : Option String) (target : String) (disabled : Bool) :
      Built (ofPage page nonempty wiki target disabled)
  | address (url : String) (nonempty : url ≠ "") (target : String) (disabled : Bool) :
      Built (ofAddress url nonempty target disabled)
  | line {line target : String} {e : Entry} : ofLine? line target = some e → Built e

/-- A URL that names a page never stands in an entry as it is. -/
theorem named?_of_ofAddress {url url' : String} {nonempty : url ≠ ""} {target : String} {disabled : Bool}
    (h : (ofAddress url nonempty target disabled).source = .address url') : named? url' = none := by
  cases hnamed : named? url with
  | none =>
    rw [ofAddress_of_not_named hnamed, source_ofUrl] at h
    rw [← Source.address.inj h, hnamed]
  | some found =>
    obtain ⟨wiki, page⟩ := found
    obtain ⟨hp, heq⟩ := ofAddress_of_named nonempty hnamed target disabled
    rw [heq] at h
    exact absurd h (source_ofPage_ne hp (some wiki) target disabled url')

/-- However an entry is built, a URL that names a page is not its source. -/
theorem Built.named? {e : Entry} {url : String} (built : e.Built) (h : e.source = .address url) : named? url = none := by
  cases built with
  | page page nonempty wiki target disabled => exact absurd h (source_ofPage_ne nonempty wiki target disabled url)
  | address url' nonempty target disabled => exact named?_of_ofAddress h
  | line hline =>
    rw [ofLine?, Option.map_eq_some_iff] at hline
    obtain ⟨statement, -, rfl⟩ := hline
    unfold Statement.entry at h
    split at h
    · exact absurd h (source_ofPage_ne _ _ _ _ url)
    · exact named?_of_ofAddress h

/-- Reading the statement of an entry gives an entry for the same target in the same state. It loads the same script exactly if the
entry survives. For a page on a plain wiki this means that no quote of its URL closes the literal and that its title stands in the
URL as it is. For a URL it means that no quote closes the literal and that there are no spaces around it. -/
theorem statement_leads_back_iff {e : Entry} {s : Settings} {text : String} (built : e.Built) (h : e.statement s = .ok text) :
    ∃ parsed, ofLine? text e.target = some parsed ∧ parsed.target = e.target ∧ parsed.disabled = e.disabled ∧
      (parsed.sameScript e s = true ↔ e.Survives s) ∧
      (∀ wiki, e.OnPlainWiki s wiki → '\n' ∉ e.displayName.toList → (e.Survives s ↔
        ¬ Statement.ClosesEarly (e.loaderUrl s.serverName).toList ∧ KeepsTitle e.displayName)) ∧
      ∀ url, e.source = .address url → servedMediaWiki url.toList = url.toList → ¬ "//&".toList <:+: url.toList →
        (e.Survives s ↔ ¬ Statement.ClosesEarly url.toList ∧ Statement.strip url.toList = url.toList) := by
  obtain ⟨htarget, hdisabled⟩ := target_ofAddress (e.readBack s) (e.readBack_ne_empty s) e.target e.disabled
  refine ⟨_, ofLine?_statement h e.target, htarget, hdisabled, sameScript_ofAddress_readBack e s e.target e.disabled, ?_, ?_⟩
  · intro wiki hwiki hline
    exact survives_title_iff hwiki hline
  · intro url hurl hsite hhost
    exact survives_address_iff hurl (built.named? hurl) hsite hhost

/-- A title with a quote after which the call cannot end comes back. -/
theorem statement_leads_back_quote :
    let e := ofPage "User:O'Brien/x.js" (by decide) none "common" true
    let s : Settings := { serverName := "en.wikipedia.org" }
    ∃ text parsed, e.Built ∧ e.statement s = .ok text ∧ ofLine? text "common" = some parsed ∧ parsed.target = "common" ∧
      parsed.disabled = true ∧ parsed.sameScript e s = true := by
  intro e s
  have built : e.Built := .page _ (by decide) none "common" true
  have htext : e.statement s = .ok ("//mw.loader.load('//en.wikipedia.org/w/index.php?title=User:O\\'Brien/x.js&action=raw" ++
      "&ctype=text/javascript'); // label-backlink [[User:O'Brien/x.js]]") := by decide +kernel
  have hhost : Wiki.normalizeHost (e.host s) = "en.wikipedia" ++ ".org" := by decide +kernel
  have hsame : Wiki.plainFragment "en.wikipedia" = Wiki.plainFragment (e.sourceWiki s) := by decide +kernel
  have hplain : ∀ c ∈ "en.wikipedia".toList, c ≠ '/' ∧ c ≠ '&' ∧ c ≠ '%' ∧ c ≠ '\n' := by decide +kernel
  have hserved : servedMediaWiki ("//" ++ "en.wikipedia" ++ ".org/w/index.php?title").toList =
      ("//" ++ "en.wikipedia" ++ ".org/w/index.php?title").toList := by decide +kernel
  have hwiki : e.OnPlainWiki s "en.wikipedia" :=
    ⟨source_ofPage_ne (by decide) none "common" true, hhost, hsame, by decide, hplain, hserved⟩
  have hopen : ¬ Statement.ClosesEarly (e.loaderUrl s.serverName).toList := by
    rw [← Statement.cutEarly?_eq_none]
    decide +kernel
  have hbreak : '\n' ∉ e.displayName.toList := by decide +kernel
  have hkeeps : KeepsTitle e.displayName := ⟨by decide +kernel, by decide +kernel, by decide +kernel⟩
  have htarget : e.target = "common" := rfl
  have hdisabled : e.disabled = true := rfl
  -- From here on only these facts count, and nothing is computed.
  clear_value e s
  obtain ⟨parsed, hline, htarget', hdisabled', hscript, htitle, -⟩ := statement_leads_back_iff built htext
  rw [htarget] at hline htarget'
  rw [hdisabled] at hdisabled'
  exact ⟨_, parsed, built, htext, hline, htarget', hdisabled',
    hscript.mpr ((htitle "en.wikipedia" hwiki hbreak).mpr ⟨hopen, hkeeps⟩)⟩

/-- A title is cut at its ampersand. -/
theorem statement_of_ampersand_leads_elsewhere :
    let e := ofPage "User:A&B/x.js" (by decide) none "common" false
    let s : Settings := { serverName := "en.wikipedia.org" }
    e.Built ∧ ∃ text parsed, e.statement s = .ok text ∧ ofLine? text e.target = some parsed ∧
      parsed = ofPage "User:A" (by decide) (some "en.wikipedia") "common" false ∧ parsed.sameScript e s = false := by
  intro e s
  have built : e.Built := .page _ (by decide) none "common" false
  have htext : e.statement s = .ok ("mw.loader.load('//en.wikipedia.org/w/index.php?title=User:A&B/x.js&action=raw" ++
      "&ctype=text/javascript'); // label-backlink [[User:A&B/x.js]]") := by decide +kernel
  exact ⟨built, _, _, htext, by decide +kernel, rfl, by decide +kernel⟩

end Entry

end UserScripts
