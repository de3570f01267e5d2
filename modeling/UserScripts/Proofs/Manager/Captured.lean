import UserScripts.Proofs.Manager.FailOpen
import UserScripts.Proofs.Page.Captured

/-!
# Capturing a script and letting it out again

A script that is captured on a page without a wrapper is the only item of the only wrapper, and letting it out leaves the other lines
and the statement of the script. Main statement: `decapture_after_capture`.
-/

namespace UserScripts.Manager

open UserScripts.Text Routine

variable {m : Manager} {e : Entry} {env env' : Surroundings} {s t u : Session} {b b' : Bool} {item : Item} {name : Option String}
  {kept : List String} {text : String} {source : Sources}

/-! ## What capturing and letting out come to -/

/-- Capturing a script comes to what the lines of the page decide. -/
theorem outcome_capture (m : Manager) (e : Entry) (name : Option String) (env : Surroundings) (s : Session) :
    Outcome m e.target env s (Page.capture (m.pageLines s e.target) e name m.settings >>= fun new => .ok (unlines new))
      (s.run env (m.capture e name)) := by
  rw [capture, run_locked]
  refine .after_fetch fun u ready => ?_
  refine .after_notes ready fun u ready => ?_
  exact .after_quiet (Quiet.ofExcept _) (Session.run_ofExcept_fst _ _ _) ready fun new u _ ready => outcome_commit ready

/-- A page that can be captured is captured in a calm run. -/
theorem exists_run_capture {new : List String} (calm : env.Calm)
    (h : Page.capture (m.pageLines s e.target) e name m.settings = .ok new) : ∃ b t, s.run env (m.capture e name) = (.ok b, t) := by
  have hfst := (outcome_capture m e name env s).of_calm calm
  rw [h] at hfst
  exact ⟨_, Session.exists_run_ok hfst⟩

/-- The lines that are kept of a page, with the statement of a script if none of them loads it. -/
def restored (m : Manager) (source : Sources) (e : Entry) (kept : List String) : Except Failure (List String) :=
  if (Page.plainLines kept e m.settings fun _ => false).isEmpty then do
    let plain ← m.annotated source (e.withDisabled false)
    let statement ← Failure.ofUrl (plain.statement m.settings)
    return kept ++ [statement]
  else .ok kept

/-- What putting a script back comes to depends on the kept lines and on the sources alone. -/
theorem run_restore_fst (m : Manager) (e : Entry) (kept : List String) (env : Surroundings) (s : Session) :
    (s.run env (m.restore e kept)).1 = m.restored env.source e kept := by
  rw [restore, Session.run_bind_of_ok (run_notes_fst env s _), restored]
  split
  · rw [Session.run_bind_fst, run_annotate_fst]
    refine bind_congr fun plain => ?_
    rw [Session.run_bind_fst, Session.run_ofExcept_fst]
    rfl
  · rfl

/-- Letting a script out comes to what the lines of the page and the sources of scripts decide. -/
theorem outcome_decapture (m : Manager) (e : Entry) (env : Surroundings) (s : Session) :
    Outcome m e.target env s
      (Page.release (m.pageLines s e.target) e m.settings >>= fun release =>
        m.restored env.source e release.kept >>= fun restored =>
          .ok (unlines (Wrapper.append restored release.items m.settings.fallbackDelay)))
      (s.run env (m.decapture e)) := by
  rw [decapture, run_locked]
  refine .after_fetch fun u ready => ?_
  refine .after_notes ready fun u ready => ?_
  refine .after_quiet (Quiet.ofExcept _) (Session.run_ofExcept_fst _ _ _) ready fun release u _ ready => ?_
  refine .after_notes ready fun u ready => ?_
  exact .after_quiet (quiet_restore m e release.kept) (run_restore_fst m e release.kept env u) ready
    fun restored u _ ready => outcome_commit ready

/-- Lines none of which loads the script get its statement. -/
theorem restored_eq (unlinked : m.linksDocs = false) (hnone : Page.plainLines kept e m.settings (fun _ => false) = [])
    (hstatement : (e.withDisabled false).statement m.settings = .ok text) : m.restored source e kept = .ok (kept ++ [text]) := by
  rw [restored, hnone, List.isEmpty_nil, if_pos rfl, annotated_of_plain unlinked]
  change (Failure.ofUrl ((e.withDisabled false).statement m.settings) >>= fun statement => .ok (kept ++ [statement])) = _
  rw [hstatement]
  rfl

/-! ## The page in between and afterwards -/

/-- The lines of a page at the end of which a released script is put back. -/
theorem pageLines_of_released (label : Unbroken (e.linkLabel m.settings).toList)
    (hstatement : (e.withDisabled false).statement m.settings = .ok text) (htext : m.pageText u e.target =
      unlines (dropEndBlankLines (Page.otherLines (m.pageLines s e.target) e m.settings) ++ [text])) :
    m.pageLines u e.target = dropEndBlankLines (Page.otherLines (m.pageLines s e.target) e m.settings) ++ [text] := by
  have target : (e.withDisabled false).target = e.target := rfl
  refine pageLines_eq htext (List.append_ne_nil_of_right_ne_nil _ (List.cons_ne_nil _ _)) fun l hl => ?_
  rcases List.mem_append.mp hl with hl | hl
  · exact isLine_of_mem_lines (List.mem_of_mem_filter (mem_of_mem_dropEndBlankLines hl))
  · rw [List.mem_singleton.mp hl]
    exact Entry.isLine_statement label target hstatement

section

variable (noWrapper : Wrapper.blocks (m.pageLines s e.target) = [])

include noWrapper

/-- The lines of a page after a capture: the script is taken out of them and put into the wrapper. -/
theorem pageLines_of_capture (native : ∀ wiki page, e.source ≠ .foreign wiki page)
    (h : s.run env (m.capture e name) = (.ok b, t)) :
    b = true ∧ ∃ item, Item.ofEntry e name m.settings = .ok item ∧
      m.pageLines t e.target = Page.captured (m.pageLines s e.target) e item m.settings := by
  obtain ⟨new, hnew, htext, hchanged⟩ := capture_ok h
  obtain ⟨item, hitem, heq⟩ := Page.capture_eq noWrapper native hnew
  rw [heq] at htext hchanged
  have hlines : m.pageLines t e.target = Page.captured (m.pageLines s e.target) e item m.settings := by
    refine pageLines_eq htext (List.append_ne_nil_of_right_ne_nil _ (Wrapper.render_ne_nil _ _)) fun l hl => ?_
    rw [Page.captured, List.mem_append, List.mem_append] at hl
    rcases hl with (hl | hl) | hl
    · exact isLine_of_mem_lines (List.mem_of_mem_filter (mem_of_mem_dropEndBlankLines hl))
    · exact Wrapper.isLine_of_mem_separator hl
    · exact Wrapper.isLine_of_mem_render hl
  refine ⟨hchanged.mpr fun hsame => ?_, item, hitem, hlines⟩
  -- the page had no wrapper, and now it has one
  obtain ⟨r, hblocks, -⟩ := Page.exists_blocks_captured noWrapper hitem
  have hlinesSame : m.pageLines t e.target = m.pageLines s e.target := by rw [pageLines, htext, ← hsame, ← pageLines]
  rw [← hlines, hlinesSame, noWrapper] at hblocks
  cases hblocks

section

variable (hitem : Item.ofEntry e name m.settings = .ok item)
  (hcaptured : m.pageLines t e.target = Page.captured (m.pageLines s e.target) e item m.settings)
  (hstatement : (e.withDisabled false).statement m.settings = .ok text)

include hitem hcaptured hstatement

/-- Letting the script out makes of the page the other lines and the statement. -/
theorem outcome_decapture_captured (unlinked : m.linksDocs = false) (native : ∀ wiki page, e.source ≠ .foreign wiki page)
    (env : Surroundings) : Outcome m e.target env t
    (.ok (unlines (dropEndBlankLines (Page.otherLines (m.pageLines s e.target) e m.settings) ++ [text])))
    (t.run env (m.decapture e)) := by
  have hverdict : (Page.release (m.pageLines t e.target) e m.settings >>= fun release =>
      m.restored env.source e release.kept >>= fun restored =>
        .ok (unlines (Wrapper.append restored release.items m.settings.fallbackDelay))) =
      .ok (unlines (dropEndBlankLines (Page.otherLines (m.pageLines s e.target) e m.settings) ++ [text])) := by
    have hrelease := Page.release_captured noWrapper hitem
    rw [← hcaptured] at hrelease
    have hrestored : m.restored env.source e (dropEndBlankLines (Page.otherLines (m.pageLines s e.target) e m.settings)) = _ :=
      restored_eq unlinked (Page.plainLines_otherLines native) hstatement
    refine bind_eq_ok.mpr ⟨_, hrelease, bind_eq_ok.mpr ⟨_, hrestored, ?_⟩⟩
    rw [Wrapper.append_nil, dropEndBlankLines_concat (Entry.isBlankLine_statement hstatement)]
  rw [← hverdict]
  exact outcome_decapture m e env t

/-- That is another page than the one with the wrapper. -/
theorem pageText_ne_of_captured (label : Unbroken (e.linkLabel m.settings).toList) : m.pageText t e.target ≠
    unlines (dropEndBlankLines (Page.otherLines (m.pageLines s e.target) e m.settings) ++ [text]) := by
  intro hsame
  have hlines := pageLines_of_released label hstatement hsame
  obtain ⟨r, hblocks, -⟩ := Page.exists_blocks_captured noWrapper hitem
  rw [← hcaptured, hlines, Page.blocks_released noWrapper (Entry.tame_statement hstatement)] at hblocks
  cases hblocks

end

end

/-- If a page has no complete wrapper, and the script is one of this wiki or a URL, then after capturing it the page has exactly one
wrapper, from which exactly the item of the script is read. While no call is refused, the script can be let out again. The page then
has the lines that were no statements of the script, without the blank ones at their end, and the statement of the script, switched on. -/
theorem decapture_after_capture (m : Manager) (e : Entry) (name : Option String) (env : Surroundings) (s t : Session) (b : Bool)
    (unlinked : m.linksDocs = false) (label : Unbroken (e.linkLabel m.settings).toList)
    (native : ∀ wiki page, e.source ≠ .foreign wiki page) (noWrapper : Wrapper.blocks (m.pageLines s e.target) = [])
    (h : s.run env (m.capture e name) = (.ok b, t)) :
    b = true ∧ ∃ item r text, Item.ofEntry e name m.settings = .ok item ∧ (e.withDisabled false).statement m.settings = .ok text ∧
      Wrapper.blocks (m.pageLines t e.target) = [r] ∧
      Wrapper.linesOf (m.pageLines t e.target) r = Wrapper.render [item] m.settings.fallbackDelay ∧
      Wrapper.decode (m.pageLines t e.target) = [item] ∧
      ∀ env' : Surroundings, (env'.Calm → ∃ u, t.run env' (m.decapture e) = (.ok true, u)) ∧
        ∀ b' u, t.run env' (m.decapture e) = (.ok b', u) → b' = true ∧
          m.pageLines u e.target = dropEndBlankLines (Page.otherLines (m.pageLines s e.target) e m.settings) ++ [text] := by
  obtain ⟨htrue, item, hitem, hcaptured⟩ := pageLines_of_capture noWrapper native h
  obtain ⟨text, hstatement⟩ : ∃ text, (e.withDisabled false).statement m.settings = .ok text := by
    obtain ⟨css, hcss, -⟩ := Entry.loadCall_eq (Item.ofEntry_ok hitem).1
    exact (exists_statement_iff _ _).mpr ⟨css, hcss⟩
  obtain ⟨r, hblocks, hlinesOf⟩ := Page.exists_blocks_captured noWrapper hitem
  have hdiff := pageText_ne_of_captured noWrapper hitem hcaptured hstatement label
  refine ⟨htrue, item, r, text, hitem, hstatement, by rw [hcaptured, hblocks], by rw [hcaptured, hlinesOf],
    by rw [hcaptured, Page.decode_captured noWrapper hitem], fun env' => ?_⟩
  have houtcome := outcome_decapture_captured noWrapper hitem hcaptured hstatement unlinked native env'
  refine ⟨fun calm => ⟨_, Prod.ext (houtcome.changed_of_calm calm hdiff).1 rfl⟩, fun b' u h' => ?_⟩
  rw [h'] at houtcome
  have htext := (Except.ok.inj houtcome.of_ok).symm
  exact ⟨by rw [houtcome.eq_decide, htext, decide_eq_true hdiff],
    pageLines_of_released label hstatement htext⟩

/-- Two statements of a script, one of them switched off, on a page with two markers that enclose nothing. -/
theorem decapture_after_capture_between_markers :
    ∃ (m : Manager) (e : Entry) (s t u : Session),
      m.pageLines s e.target = ["// SM-CAPTURE-END", "importScript('X.js'); // one", "// SM-CAPTURE-START", "f();",
        " //importScript( \"X.js\" )", ""] ∧
      s.run {} (m.capture e (some " My script ")) = (.ok true, t) ∧
      Wrapper.decode (m.pageLines t e.target) = [⟨"local:common:X.js", "My script",
        "mw.loader.load('//a.org/w/index.php?title=X.js&action=raw&ctype=text/javascript');"⟩] ∧
      t.run {} (m.decapture e) = (.ok true, u) ∧
      m.pageLines u e.target = ["// SM-CAPTURE-END", "// SM-CAPTURE-START", "f();",
        "mw.loader.load('//a.org/w/index.php?title=X.js&action=raw&ctype=text/javascript'); // label-backlink [[X.js]]"] := by
  let m : Manager := { settings := { serverName := "a.org", userName := "U" } }
  let e := Entry.ofPage "X.js" (by decide) none "common" false
  let page := ["// SM-CAPTURE-END", "importScript('X.js'); // one", "// SM-CAPTURE-START", "f();", " //importScript( \"X.js\" )", ""]
  let call := "mw.loader.load('//a.org/w/index.php?title=X.js&action=raw&ctype=text/javascript');"
  let statement :=
    "mw.loader.load('//a.org/w/index.php?title=X.js&action=raw&ctype=text/javascript'); // label-backlink [[X.js]]"
  let item : Item := { key := "local:common:X.js", name := "My script", call }
  let s : Session := { home := { wiki := { pages := [("User:U/common.js", unlines page)] } } }
  have htext : m.pageText s e.target = unlines page := rfl
  have unlinked : m.linksDocs = false := rfl
  have native : ∀ wiki page, e.source ≠ .foreign wiki page := fun _ _ h => by cases h
  have hfacts : (∀ l ∈ page, IsLine l) ∧ Unbroken (e.linkLabel m.settings).toList ∧ Wrapper.blocks page = [] ∧
      (Page.capture page e (some " My script ") m.settings).isOk = true ∧
      Item.ofEntry e (some " My script ") m.settings = .ok item ∧ (e.withDisabled false).statement m.settings = .ok statement ∧
      dropEndBlankLines (Page.otherLines page e m.settings) = ["// SM-CAPTURE-END", "// SM-CAPTURE-START", "f();"] := by
    decide +kernel
  clear_value m e s
  obtain ⟨hisLine, label, noWrapper, hok, hitem, hstatement, hothers⟩ := hfacts
  have hpage : m.pageLines s e.target = page := pageLines_eq htext (by simp [page]) hisLine
  have calm : ({} : Surroundings).Calm := fun _ _ => rfl
  obtain ⟨new, hnew⟩ : ∃ new, Page.capture page e (some " My script ") m.settings = .ok new := by
    cases hcapture : Page.capture page e (some " My script ") m.settings with
    | error failure => rw [hcapture] at hok; cases hok
    | ok new => exact ⟨new, rfl⟩
  obtain ⟨b, t, ht⟩ := exists_run_capture calm (hpage.symm ▸ hnew)
  obtain ⟨rfl, item', r, text, hitem', htext', -, -, hdecode, hout⟩ :=
    decapture_after_capture m e (some " My script ") {} s t b unlinked label native (hpage.symm ▸ noWrapper) ht
  obtain ⟨hcalm, hlines⟩ := hout {}
  obtain ⟨u, hu⟩ := hcalm calm
  obtain ⟨-, hlines⟩ := hlines true u hu
  rw [hpage, hothers, ← Except.ok.inj (hstatement.symm.trans htext')] at hlines
  rw [← Except.ok.inj (hitem.symm.trans hitem')] at hdecode
  exact ⟨m, e, s, t, u, hpage, ht, hdecode, hu, hlines⟩

end UserScripts.Manager
