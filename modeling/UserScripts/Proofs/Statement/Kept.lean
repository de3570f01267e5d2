import UserScripts.Proofs.Statement.Settled

/-!
# Entries that are kept

An entry is kept if its call is read as a call of the very same script. Then nothing can tell the entry that is read from the entry
itself. Main statements: `ofLine?_loadCall`, what is read from a call, and `Kept.sameScript_reread`.
-/

namespace UserScripts

open UserScripts.Text

namespace Entry

variable {a b e : Entry} {s : Settings} {call target : String}

/-! ## Sameness -/

/-- An entry is named by a URL or by a page. -/
theorem address_or_page (e : Entry) : (∃ url, e.source = .address url) ∨ ∀ url, e.source ≠ .address url := by
  by_cases h : ∃ url, e.source = .address url
  · exact Or.inl h
  · exact Or.inr fun url hurl => h ⟨url, hurl⟩

/-- The wiki of a page entry is the one that its source names. -/
theorem sourceWiki_eq (e : Entry) (s : Settings) :
    e.sourceWiki s = match e.source with
      | .foreign wiki _ => wiki
      | _ => s.currentWiki := by
  rw [sourceWiki, source]
  cases hurl : given e.url with
  | none => cases given e.wiki <;> rfl
  | some url =>
    have hpage : (given e.page).isSome = false := by
      have hor := e.page_or_url
      rw [hurl] at hor
      simpa using hor
    have hwiki : given e.wiki = none := by
      rw [← Option.not_isSome_iff_eq_none]
      exact fun h => absurd (e.wiki_of_page h) (by rw [hpage]; exact Bool.false_ne_true)
    rw [hwiki]
    rfl

/-- What an entry loads is all that counts. -/
theorem sameScript_congr (h : a.source = b.source) (e : Entry) (s : Settings) : a.sameScript e s = b.sameScript e s := by
  simp only [sameScript, urlLoads, displayName, sourceWiki_eq, loaderUrl, h]

/-- Being the same script does not depend on the order. -/
theorem sameScript_comm (a b : Entry) (s : Settings) : a.sameScript b s = b.sameScript a s := by
  rcases a.address_or_page with ⟨url, ha⟩ | ha <;> rcases b.address_or_page with ⟨url', hb⟩ | hb
  · rw [sameScript_of_addresses ha hb, sameScript_of_addresses hb ha, BEq.comm]
  · rw [sameScript_of_address_left ha hb, sameScript_of_address_right hb ha]
  · rw [sameScript_of_address_right ha hb, sameScript_of_address_left hb ha]
  · rw [Bool.eq_iff_iff, sameScript_of_pages ha hb, sameScript_of_pages hb ha]
    exact and_congr eq_comm eq_comm

/-- What an entry for a URL names depends neither on its target nor on its switch. -/
theorem source_ofAddress (url : String) (nonempty : url ≠ "") (target target' : String) (disabled disabled' : Bool) :
    (ofAddress url nonempty target disabled).source = (ofAddress url nonempty target' disabled').source := by
  cases hnamed : named? url with
  | none => rw [ofAddress_of_not_named hnamed, ofAddress_of_not_named hnamed, source_ofUrl, source_ofUrl]
  | some found =>
    obtain ⟨hp, heq⟩ := ofAddress_of_named nonempty hnamed target disabled
    obtain ⟨_, heq'⟩ := ofAddress_of_named nonempty hnamed target' disabled'
    rw [heq, heq', source_ofPage, source_ofPage]

/-! ## Reading a call -/

/-- The call of an entry is read as the entry of the URL that comes back. -/
theorem ofLine?_loadCall (h : e.loadCall s = .ok call) (target : String) :
    ofLine? call target = some (ofAddress (e.readBack s) (e.readBack_ne_empty s) target false) := by
  have hline : ofLine? ((if false then "//" else "") ++ call ++ "") target = _ := ofLine?_append_loadCall h false (fun _ => rfl) target
  rwa [show (if false then "//" else "") ++ call ++ "" = call by simp] at hline

/-! ## Entries that are read as they are -/

/-- An entry whose call is read as a call of the same script: a page on a plain wiki whose title stands in the URL as it is, or a URL
of which nothing is lost. -/
inductive Kept (e : Entry) (s : Settings) : Prop where
  | page {wiki : String} (onWiki : e.OnPlainWiki s wiki) (fixed : Wiki.normalizeHost (wiki ++ ".org") = wiki ++ ".org")
      (line : '\n' ∉ e.displayName.toList) (keeps : KeepsTitle e.displayName)
      (opened : ¬ Statement.ClosesEarly (e.loaderUrl s.serverName).toList)
  | address {url : String} (source : e.source = .address url) (unnamed : named? url = none)
      (served : servedMediaWiki url.toList = url.toList) (opened : ¬ Statement.ClosesEarly url.toList)
      (stripped : Statement.strip url.toList = url.toList)

/-- A kept entry and the one that is read from its call load the same scripts as any other entry, or neither of them does. -/
theorem Kept.sameScript_reread (h : e.Kept s) (a : Entry) : (e.reread s).sameScript a s = e.sameScript a s := by
  cases h with
  | @page wiki onWiki fixed line keeps opened =>
    have hnamed := named?_of_keepsTitle onWiki line keeps
    rw [← readBack_of_page onWiki.page opened] at hnamed
    obtain ⟨hp, hreread⟩ := ofAddress_of_named (e.readBack_ne_empty s) hnamed e.target e.disabled
    have hpage := source_ofPage_ne hp (some wiki) e.target e.disabled
    rw [reread, hreread]
    rcases a.address_or_page with ⟨url, ha⟩ | ha
    · rw [sameScript_of_address_right hpage ha, sameScript_of_address_right onWiki.page ha, urlLoads, urlLoads,
        loaderUrl_ofPage, loaderUrl_eq_addressOf onWiki fixed]
    · rw [Bool.eq_iff_iff, sameScript_of_pages hpage ha, sameScript_of_pages onWiki.page ha, displayName_ofPage, sourceWiki_ofPage,
        if_neg onWiki.ne_empty, onWiki.same]
  | @address url source unnamed served opened stripped =>
    have hread : e.readBack s = url := by
      rw [readBack, loaderUrl_of_address source, String.toList_ofList, served]
      exact readBack_eq_self.mpr ⟨opened, stripped⟩
    refine sameScript_congr ?_ a s
    rw [reread, ofAddress_of_not_named (by rw [hread, unnamed]), source_ofUrl, hread, source]

end Entry

end UserScripts
