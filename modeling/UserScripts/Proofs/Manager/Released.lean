import UserScripts.Proofs.Manager.Captured
import UserScripts.Proofs.Page.Released

/-!
# Whether a script runs after it has been let out

Letting a script out of its wrapper writes its statement only if no line outside the wrappers loads the script, and it does not ask
whether such a line is commented out. Main statement: `decapture_runs_script_iff`.
-/

namespace UserScripts.Manager

open UserScripts.Text UserScripts.Wrapper UserScripts.Page

variable {m : Manager} {e : Entry} {env : Surroundings} {s t : Session} {b : Bool} {kept new : List String} {release : Release}
  {source : Sources}

/-- What is put back: the statement of the script if none of the kept lines loads it, and else nothing. -/
theorem restored_ok (unlinked : m.linksDocs = false) (h : m.restored source e kept = .ok new) :
    (plainLines kept e m.settings (fun _ => false) ≠ [] ∧ new = kept) ∨
      plainLines kept e m.settings (fun _ => false) = [] ∧
        ∃ text, (e.withDisabled false).statement m.settings = .ok text ∧ new = kept ++ [text] := by
  rw [restored, annotated_of_plain unlinked] at h
  by_cases hnone : plainLines kept e m.settings (fun _ => false) = []
  · rw [hnone, List.isEmpty_nil, if_pos rfl] at h
    obtain ⟨plain, hplain, h⟩ := bind_eq_ok.mp h
    obtain rfl := Except.ok.inj hplain
    obtain ⟨text, htext, h⟩ := bind_eq_ok.mp h
    exact Or.inr ⟨hnone, text, ofUrl_ok htext, (Except.ok.inj h).symm⟩
  · rw [if_neg (by simpa using hnone)] at h
    exact Or.inl ⟨hnone, (Except.ok.inj h).symm⟩

/-- While no call is refused, a script can be let out of a page that this changes. -/
theorem exists_run_decapture {left : List String} (calm : env.Calm)
    (hrelease : Page.release (m.pageLines s e.target) e m.settings = .ok release)
    (hrestored : m.restored env.source e release.kept = .ok new)
    (hleft : append new release.items m.settings.fallbackDelay = left) (hne : left ≠ []) (hlines : ∀ l ∈ left, IsLine l)
    (hchanged : m.pageLines s e.target ≠ left) : ∃ t, s.run env (m.decapture e) = (.ok true, t) ∧ m.pageLines t e.target = left := by
  have hverdict : (Page.release (m.pageLines s e.target) e m.settings >>= fun release =>
      m.restored env.source e release.kept >>= fun restored =>
        .ok (unlines (append restored release.items m.settings.fallbackDelay))) = .ok (unlines left) :=
    bind_eq_ok.mpr ⟨release, hrelease, bind_eq_ok.mpr ⟨new, hrestored, by rw [hleft]⟩⟩
  have houtcome := outcome_decapture m e env s
  rw [hverdict] at houtcome
  obtain ⟨hrun, hafter⟩ := houtcome.changed_of_calm calm fun hsame => hchanged (pageLines_eq hsame hne hlines)
  exact ⟨_, Prod.ext hrun rfl, pageLines_eq hafter hne hlines⟩

section

variable (unlinked : m.linksDocs = false) (label : Unbroken (e.linkLabel m.settings).toList)
  (h : s.run env (m.decapture e) = (.ok b, t))

include unlinked label h

/-- The page that a script is let out of becomes the kept lines, the statement of the script if none of them loads it, and the wrapper
of the other items. -/
theorem pageLines_of_decapture : ∃ release base, Page.release (m.pageLines s e.target) e m.settings = .ok release ∧
    m.pageLines t e.target = append base release.items m.settings.fallbackDelay ∧ dropEndBlankLines base = base ∧
    ((plainLines release.kept e m.settings (fun _ => false) ≠ [] ∧ base = release.kept) ∨
      plainLines release.kept e m.settings (fun _ => false) = [] ∧
        ∃ text, (e.withDisabled false).statement m.settings = .ok text ∧ base = release.kept ++ [text]) := by
  have houtcome := outcome_decapture m e env s
  rw [h] at houtcome
  obtain ⟨release, hrelease, hverdict⟩ := bind_eq_ok.mp houtcome.of_ok
  obtain ⟨base, hrestored, htext⟩ := bind_eq_ok.mp hverdict
  have hcases := restored_ok unlinked hrestored
  obtain ⟨-, hkept, hitems⟩ := release_ok hrelease
  have hbase : dropEndBlankLines base = base ∧ base ≠ [] ∧ ∀ l ∈ base, IsLine l := by
    have hlines : ∀ l ∈ release.kept, IsLine l := by
      intro l hl
      rw [hkept] at hl
      obtain ⟨i, hi, -⟩ := mem_dropLines.mp (mem_of_mem_dropEndBlankLines hl)
      exact isLine_of_mem_lines (List.mem_of_getElem? hi)
    rcases hcases with ⟨hloads, rfl⟩ | ⟨-, text, hstatement, rfl⟩
    · refine ⟨by rw [hkept, dropEndBlankLines_idem], ?_, hlines⟩
      intro hempty
      rw [hempty] at hloads
      exact hloads (plainLines_eq_nil.mpr fun i line hline => by simp at hline)
    · refine ⟨dropEndBlankLines_concat (Entry.isBlankLine_statement hstatement), by simp, fun l hl => ?_⟩
      rcases List.mem_append.mp hl with hl | hl
      · exact hlines l hl
      · rw [List.mem_singleton.mp hl]
        have target : (e.withDisabled false).target = e.target := rfl
        exact Entry.isLine_statement label target hstatement
  obtain ⟨hfull, hne, hlines⟩ := hbase
  exact ⟨release, base, hrelease, pageLines_eq (Except.ok.inj htext).symm (append_ne_nil (by rwa [hfull]) _ _)
    fun l hl => isLine_of_mem_append hlines hl, hfull, hcases⟩

end

/-- A script that is let out of its wrapper runs outside the wrappers afterwards exactly if no line outside them has loaded it, so that
its statement is written, or if such a line runs it that the markers around removed wrappers do not enclose. -/
theorem decapture_runs_script_iff (m : Manager) (e : Entry) (env : Surroundings) (s t : Session) (b : Bool)
    (unlinked : m.linksDocs = false) (label : Unbroken (e.linkLabel m.settings).toList)
    (h : s.run env (m.decapture e) = (.ok b, t)) :
    RunsOutside (m.pageLines t e.target) e m.settings ↔
      (∀ i line, (m.pageLines s e.target)[i]? = some line → covers (m.pageLines s e.target) i = false →
        loadsScript e m.settings line = false) ∨
      ∃ i line, (m.pageLines s e.target)[i]? = some line ∧ covers (m.pageLines s e.target) i = false ∧ Runs e m.settings line ∧
        ¬Enclosed (covers (m.pageLines s e.target)) (m.pageLines s e.target) i := by
  obtain ⟨release, base, hrelease, hlines, hfull, hcases⟩ := pageLines_of_decapture unlinked label h
  obtain ⟨-, hkept, hitems⟩ := release_ok hrelease
  have storable : ∀ i ∈ release.items, i.Storable := by
    rw [hitems]
    exact fun i hi => (read_of_mem_decode (fun _ hl => isLine_of_mem_lines hl) (List.mem_of_mem_filter hi)).1.toStorable
  have hnone : plainLines release.kept e m.settings (fun _ => false) = [] ↔ ∀ i line, (m.pageLines s e.target)[i]? = some line →
      covers (m.pageLines s e.target) i = false → loadsScript e m.settings line = false := by
    rw [hkept]
    exact plainLines_kept_eq_nil
  rw [hlines, runsOutside_append_iff storable hfull, ← hnone]
  rcases hcases with ⟨hloads, rfl⟩ | ⟨hloads, text, hstatement, rfl⟩
  · rw [or_iff_right hloads, hkept]
    exact runsOutside_kept_iff
  · exact iff_of_true (runsOutside_concat hstatement) (Or.inl hloads)

/-- Beside a statement that is commented out there is one that is not, so no third one is written. -/
theorem decapture_runs_script_iff_statement :
    ∃ (m : Manager) (e : Entry) (s t : Session), s.run {} (m.decapture e) = (.ok true, t) ∧
      m.pageLines s e.target = ["//importScript('X.js');", "// SM-CAPTURE-START", "\t\t\tkey: \"local:common:X.js\",",
        "mw.loader.load('//a.org/w/index.php?title=X.js&action=raw&ctype=text/javascript');", "// SM-CAPTURE-END", "importScript('X.js');"] ∧
      RunsOutside (m.pageLines t e.target) e m.settings := by
  let m : Manager := { settings := { serverName := "a.org", userName := "U" } }
  let e := Entry.ofPage "X.js" (by decide) none "common" false
  let page := ["//importScript('X.js');", "// SM-CAPTURE-START", "\t\t\tkey: \"local:common:X.js\",",
    "mw.loader.load('//a.org/w/index.php?title=X.js&action=raw&ctype=text/javascript');", "// SM-CAPTURE-END", "importScript('X.js');"]
  let left := ["//importScript('X.js');", "importScript('X.js');"]
  let s : Session := { home := { wiki := { pages := [("User:U/common.js", unlines page)] } } }
  have hsub : left ⊆ page := by simp [left, page]
  have hchanged : page ≠ left := fun h => absurd (congrArg List.length h) (by decide)
  have htext : m.pageText s e.target = unlines page := rfl
  have unlinked : m.linksDocs = false := rfl
  have hfacts : (∀ l ∈ page, IsLine l) ∧ Unbroken (e.linkLabel m.settings).toList ∧
      Page.release page e m.settings = .ok { kept := left, items := [] } ∧
      m.restored ({} : Surroundings).source e left = .ok left ∧ append left [] m.settings.fallbackDelay = left ∧
      loadsScript e m.settings "importScript('X.js');" = true ∧ blocks page = [(1, 4)] ∧
      ∀ i < page.length, Marker.start.stands page i = true → i = 1 := by
    decide +kernel
  clear_value m e s
  obtain ⟨hisLine, label, hrelease, hrestored, hleft, hloads, hblocks, hstarts⟩ := hfacts
  have hpage : m.pageLines s e.target = page := pageLines_eq htext (by simp [page]) hisLine
  have calm : ({} : Surroundings).Calm := fun _ _ => rfl
  obtain ⟨t, hrun, -⟩ := exists_run_decapture (m := m) (e := e) (s := s) calm (by rw [hpage]; exact hrelease)
    hrestored hleft (by simp [left]) (fun l hl => hisLine l (hsub hl)) (by rw [hpage]; exact hchanged)
  refine ⟨m, e, s, t, hrun, hpage, ?_⟩
  refine (decapture_runs_script_iff m e {} s t true unlinked label hrun).mpr (Or.inr ⟨5, "importScript('X.js');", ?_⟩)
  rw [hpage, covers, hblocks]
  refine ⟨rfl, rfl, ⟨by decide, Or.inl hloads⟩, ?_⟩
  rintro ⟨i, j, -, -, hi, -, hstart, -⟩
  rw [hstarts i (lt_length_of_stands hstart) hstart] at hi
  cases hi

/-- A statement that is commented out keeps the one of the script from being written, so the script does not run any more. -/
theorem decapture_leaves_script_off :
    ∃ (m : Manager) (e : Entry) (s t : Session), m.linksDocs = false ∧ Unbroken (e.linkLabel m.settings).toList ∧
      s.run {} (m.decapture e) = (.ok true, t) ∧
      m.pageLines s e.target = ["//importScript('User:A/x.js');", "// SM-CAPTURE-START", "\t\t\tkey: \"local:common:User:A/x.js\",",
        "mw.loader.load('//en.wikipedia.org/w/index.php?title=User:A/x.js&action=raw&ctype=text/javascript');", "// SM-CAPTURE-END"] ∧
      m.pageLines t e.target = ["//importScript('User:A/x.js');"] ∧ ¬RunsOutside (m.pageLines t e.target) e m.settings := by
  let m : Manager := { settings := { serverName := "en.wikipedia.org", userName := "Alice" } }
  let e := Entry.ofPage "User:A/x.js" (by decide) none "common" false
  let page := ["//importScript('User:A/x.js');", "// SM-CAPTURE-START", "\t\t\tkey: \"local:common:User:A/x.js\",",
    "mw.loader.load('//en.wikipedia.org/w/index.php?title=User:A/x.js&action=raw&ctype=text/javascript');", "// SM-CAPTURE-END"]
  let left := ["//importScript('User:A/x.js');"]
  let s : Session := { home := { wiki := { pages := [("User:Alice/common.js", unlines page)] } } }
  have hsub : left ⊆ page := by simp [left, page]
  have hchanged : page ≠ left := fun h => absurd (congrArg List.length h) (by decide)
  have htext : m.pageText s e.target = unlines page := rfl
  have unlinked : m.linksDocs = false := rfl
  have hfacts : (∀ l ∈ page, IsLine l) ∧ Unbroken (e.linkLabel m.settings).toList ∧
      Page.release page e m.settings = .ok { kept := left, items := [] } ∧
      m.restored ({} : Surroundings).source e left = .ok left ∧ append left [] m.settings.fallbackDelay = left := by
    decide +kernel
  clear_value m e s
  obtain ⟨hisLine, label, hrelease, hrestored, hleft⟩ := hfacts
  have hpage : m.pageLines s e.target = page := pageLines_eq htext (by simp [page]) hisLine
  have calm : ({} : Surroundings).Calm := fun _ _ => rfl
  obtain ⟨t, hrun, hnew⟩ := exists_run_decapture (m := m) (e := e) (s := s) calm
    (by rw [hpage]; exact hrelease) hrestored hleft (by simp [left]) (fun l hl => hisLine l (hsub hl)) (by rw [hpage]; exact hchanged)
  refine ⟨m, e, s, t, unlinked, label, hrun, hpage, hnew, ?_⟩
  rw [hnew]
  rintro ⟨i, line, hline, -, hruns, -⟩
  obtain rfl := List.mem_singleton.mp (List.mem_of_getElem? hline)
  exact absurd hruns (by decide)

end UserScripts.Manager
