import UserScripts.Proofs.Manager.Agreement
import UserScripts.Proofs.Page.Removal

/-!
# What uninstalling leaves

Whether a page still loads a script when it has been uninstalled. The lines of a script are found by its title only if there is no
statement, so a page that has both keeps those with the title: it still loads the script, and uninstalling again finds them. The
lines of a wrapper stay unless an item goes. Main statement: `uninstall_is_complete_iff`.
-/

namespace UserScripts

open UserScripts.Text

namespace Page

variable {ls : List String} {e : Entry} {s : Settings} {r : Removal}

/-- If every start marker is closed, or no item goes, no item is read that was not there, and only lines count. -/
theorem gone_iff_of_closed (h : removal ls e s = .ok r) (hlines : ∀ l ∈ ls, IsLine l)
    (hclosed : r.items.isSome = true → Wrapper.strayFrom .start .stop 0 none ls = []) :
    Gone r ls e s ↔ (∀ line ∈ r.wrapperLines ls s.fallbackDelay, loadsScript e s line = false) ∧
      (statementLines ls e s (Wrapper.inside (Wrapper.blocks ls)) = [] ∨
        titleLines ls e (Wrapper.inside (Wrapper.blocks ls)) = []) := by
  refine ⟨fun gone => ⟨gone.wrappers, gone.titles⟩, fun ⟨hwrappers, htitles⟩ => ⟨hwrappers, htitles, fun item hitem hnew => ?_⟩⟩
  exact absurd (mem_left_of_mem_decode h hlines hclosed s.fallbackDelay item hitem) hnew

end Page

namespace Manager

variable {m : Manager} {e : Entry} {s t : Session} {env : Surroundings} {b : Bool}

/-- The page after an uninstallation does not load the script exactly if the removal leaves nothing of it. -/
theorem isInstalled_after_uninstall (h : s.run env (m.uninstall e) = (.ok b, t)) :
    ∃ r, Page.removal (m.pageLines s e.target) e m.settings = .ok r ∧
      (Page.isInstalled (m.pageLines t e.target) e m.settings = .ok false ↔
        Page.Gone r (m.pageLines s e.target) e m.settings) := by
  obtain ⟨r, hremoval, hpage, -⟩ := uninstall_ok h
  refine ⟨r, hremoval, ?_⟩
  rw [pageLines, hpage]
  exact Page.isInstalled_apply hremoval fun l hl => isLine_of_mem_lines hl

/-- When a script has been uninstalled, the page does not load it, uninstalling it again does not find it and installing it is not
without effect, exactly if nothing of it is left: no line of the wrappers loads it, there was no line with its title next to a
statement, and no item is read that was not there before. Of the last there is none if every start marker is closed. -/
theorem uninstall_is_complete_iff (m : Manager) (e : Entry) (env : Surroundings) (s t : Session) (b : Bool)
    (h : s.run env (m.uninstall e) = (.ok b, t)) :
    ∃ r, Page.removal (m.pageLines s e.target) e m.settings = .ok r ∧
      ((Page.isInstalled (m.pageLines t e.target) e m.settings = .ok false ∧ ∀ env' : Surroundings, env'.Calm →
          (t.run env' (m.uninstall e)).1 = .error (.notInstalled e.displayName e.target) ∧
          (t.run env' (m.install e)).1 ≠ .ok false) ↔
        Page.Gone r (m.pageLines s e.target) e m.settings) ∧
      ((r.items.isSome = true → Wrapper.strayFrom .start .stop 0 none (m.pageLines s e.target) = []) →
        (Page.Gone r (m.pageLines s e.target) e m.settings ↔
          (∀ line ∈ r.wrapperLines (m.pageLines s e.target) m.settings.fallbackDelay, Page.loadsScript e m.settings line = false) ∧
          (Page.statementLines (m.pageLines s e.target) e m.settings (Wrapper.covers (m.pageLines s e.target)) = [] ∨
            Page.titleLines (m.pageLines s e.target) e (Wrapper.covers (m.pageLines s e.target)) = []))) := by
  obtain ⟨r, hremoval, hinstalled⟩ := isInstalled_after_uninstall h
  refine ⟨r, hremoval, ?_, Page.gone_iff_of_closed hremoval fun l hl => isLine_of_mem_lines hl⟩
  rw [← hinstalled]
  refine ⟨fun h => h.1, fun hnot => ⟨hnot, fun env' calm => ⟨?_, ?_⟩⟩⟩
  · exact (uninstall_eq_error_iff calm).mpr (Page.removal_of_isInstalled hnot)
  · rw [Ne, install_eq_false_iff calm, hnot]
    exact fun h => by cases h

/-- A removal that changes the page is what uninstalling makes of it while no call is refused. -/
theorem uninstall_of_removal {r : Removal} (calm : env.Calm) (h : Page.removal (m.pageLines s e.target) e m.settings = .ok r)
    (hdiff : m.pageText s e.target ≠ unlines (r.apply (m.pageLines s e.target) m.settings.fallbackDelay)) :
    s.run env (m.uninstall e) = (.ok true, (s.run env (m.uninstall e)).2) ∧
      m.pageText (s.run env (m.uninstall e)).2 e.target = unlines (r.apply (m.pageLines s e.target) m.settings.fallbackDelay) := by
  have hverdict : Page.uninstalled e m.settings (m.pageText s e.target) =
      .ok (unlines (r.apply (m.pageLines s e.target) m.settings.fallbackDelay)) := by
    rw [Page.uninstalled, ← pageLines, h]
    rfl
  have houtcome := outcome_uninstall m e env s
  rw [hverdict] at houtcome
  obtain ⟨htrue, hpage⟩ := houtcome.changed_of_calm calm hdiff
  exact ⟨Prod.ext htrue rfl, hpage⟩

/-- A script that is loaded by a statement and captured in a wrapper. -/
theorem uninstall_is_complete_iff_captured :
    ∃ (m : Manager) (e : Entry) (s t : Session) (r : Removal), s.run {} (m.uninstall e) = (.ok true, t) ∧
      Page.removal (m.pageLines s e.target) e m.settings = .ok r ∧ r = { lines := [1], items := some [] } ∧
      Page.Gone r (m.pageLines s e.target) e m.settings ∧ (t.run {} (m.uninstall e)).1 = .error (.notInstalled "X.js" "common") := by
  let m : Manager := { settings := { serverName := "a.org", userName := "U" } }
  let e := Entry.ofPage "X.js" (by decide) none "common" false
  let page := ["f();", "importScript('X.js');", "// SM-CAPTURE-START", "\t\t\tkey: \"local:common:X.js\",", "mw.loader.load('X');",
    "// SM-CAPTURE-END"]
  let r : Removal := { lines := [1], items := some [] }
  let s : Session := { home := { wiki := { pages := [("User:U/common.js", unlines page)] } } }
  have hfailure : Failure.notInstalled e.displayName e.target = .notInstalled "X.js" "common" := rfl
  have htext : m.pageText s e.target = unlines page := rfl
  have hpage : m.pageLines s e.target = page := pageLines_eq htext (by simp [page]) (by decide +kernel)
  have hremoval : Page.removal page e m.settings = .ok r := by decide +kernel
  have hchanged : unlines page ≠ unlines (r.apply page m.settings.fallbackDelay) := by decide +kernel
  have hclosed : Wrapper.strayFrom .start .stop 0 none page = [] := by decide +kernel
  have htitles : Page.titleLines page e (Wrapper.covers page) = [] := by rfl
  clear_value m e page s
  rw [← htext] at hchanged
  rw [← hpage] at hremoval hclosed htitles hchanged
  have calm : ({} : Surroundings).Calm := fun _ _ => rfl
  obtain ⟨hrun, -⟩ := uninstall_of_removal calm hremoval hchanged
  obtain ⟨r', hr, hcomplete, hgone⟩ := uninstall_is_complete_iff m e {} s _ true hrun
  obtain rfl := Except.ok.inj (hremoval.symm.trans hr)
  have gone : Page.Gone r (m.pageLines s e.target) e m.settings :=
    (hgone fun _ => hclosed).mpr ⟨fun line hline => absurd hline List.not_mem_nil, Or.inr htitles⟩
  exact ⟨m, e, s, _, r, hrun, hr, rfl, gone, hfailure ▸ ((hcomplete.mpr gone).2 {} calm).1⟩

/-- A statement and a load call with the title of the same script. Uninstalling takes off the statement only. The page still loads
the script: installing it is without effect, and it can be uninstalled once more. -/
theorem uninstall_leaves_the_title :
    ∃ (m : Manager) (e : Entry) (s t : Session),
      m.pageLines s e.target = ["mw.loader.load('//d.org/w/index.php?title=X.js');", "mw.loader.load(u + '?title=X.js');"] ∧
      s.run {} (m.uninstall e) = (.ok true, t) ∧ m.pageLines t e.target = ["mw.loader.load(u + '?title=X.js');"] ∧
      Page.isInstalled (m.pageLines t e.target) e m.settings = .ok true ∧ (t.run {} (m.install e)).1 = .ok false ∧
      (t.run {} (m.uninstall e)).1 = .ok true := by
  let m : Manager := { settings := { serverName := "a.org", userName := "U" } }
  let e := Entry.ofPage "X.js" (by decide) (some "d") "common" false
  let page := ["mw.loader.load('//d.org/w/index.php?title=X.js');", "mw.loader.load(u + '?title=X.js');"]
  let left := ["mw.loader.load(u + '?title=X.js');"]
  let r : Removal := { lines := [0], items := none }
  let s : Session := { home := { wiki := { pages := [("User:U/common.js", unlines page)] } } }
  have htext : m.pageText s e.target = unlines page := rfl
  have hpage : m.pageLines s e.target = page := pageLines_eq htext (by simp [page]) (by decide +kernel)
  have hremoval : Page.removal page e m.settings = .ok r ∧ Page.removal left e m.settings = .ok r := by decide +kernel
  have hchanged : unlines page ≠ unlines left ∧ unlines left ≠ unlines [] := by decide +kernel
  have hisLine : ∀ l ∈ left, IsLine l := by decide +kernel
  have hinstalled : Page.isInstalled left e m.settings = .ok true := by decide +kernel
  have happly : r.apply page m.settings.fallbackDelay = left ∧ r.apply left m.settings.fallbackDelay = [] := ⟨rfl, rfl⟩
  clear_value m e s
  have calm : ({} : Surroundings).Calm := fun _ _ => rfl
  obtain ⟨hrun, hafter⟩ := uninstall_of_removal (r := r) calm (by rw [hpage]; exact hremoval.1)
    (by rw [hpage, happly.1, htext]; exact hchanged.1)
  rw [hpage, happly.1] at hafter
  have hlines : m.pageLines (s.run {} (m.uninstall e)).2 e.target = left := pageLines_eq hafter (by simp [left]) hisLine
  obtain ⟨hagain, -⟩ := uninstall_of_removal (s := (s.run {} (m.uninstall e)).2) (r := r) calm (by rw [hlines]; exact hremoval.2)
    (by rw [hlines, happly.2, hafter]; exact hchanged.2)
  refine ⟨m, e, s, _, hpage, hrun, hlines, by rw [hlines]; exact hinstalled, ?_, congrArg Prod.fst hagain⟩
  rw [install_eq_false_iff calm, hlines]
  exact hinstalled

end Manager

end UserScripts
