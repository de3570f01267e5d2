import UserScripts.CommandLine.Command
import UserScripts.Proofs.Manager.FailOpen
import UserScripts.Proofs.Page.Off

/-!
# Relocating scripts that are switched off

The commands that relocate a script take no notice of whether it runs where they find it. An entry that a command is about is never
commented out, so its statement and its item run. Capturing a script that is switched off therefore always switches it on, and moving it
does so unless the destination had the script already, or the statement is not read back as one of the script. On the old target nothing
is switched on. Main statement: `relocated_stays_off_iff`.
-/

namespace UserScripts

open UserScripts.Text UserScripts.Page

namespace Manager

variable {m : Manager} {e e' : Entry} {env : Surroundings} {s t : Session} {destination : String}

/-- The link to its documentation is no part of what a statement loads. -/
theorem Annotated.reread (h : Annotated e e') (s : Settings) : e'.reread s = e.reread s := by
  rcases h with rfl | ⟨title, rfl⟩ <;> rfl

/-- Uninstalling a script that is switched off switches nothing on. -/
theorem isOff_uninstalled {text left : String} (off : IsOff (lines text) e m.settings)
    (h : Page.uninstalled e m.settings text = .ok left) : IsOff (lines left) e m.settings := by
  unfold Page.uninstalled at h
  cases hremoval : Page.removal (lines text) e m.settings with
  | error failure => rw [hremoval] at h; cases h
  | ok removal =>
    rw [hremoval] at h
    rw [← Except.ok.inj h]
    exact off.removal (fun l hl => isLine_of_mem_lines hl) hremoval m.settings.fallbackDelay

/-- Installing a script where it is switched off leaves it so exactly if the page has the script already, the entry is commented out, or
the statement is not read back as one of the script. -/
theorem isOff_installed_iff {source : Sources} {text arrived : String} (label : Unbroken (e.linkLabel m.settings).toList)
    (off : IsOff (lines text) e m.settings) (h : m.installed source e text = .ok arrived) :
    IsOff (lines arrived) e m.settings ↔ Page.isInstalled (lines text) e m.settings = .ok true ∨ e.disabled = true ∨
      (e.reread m.settings).sameScript e m.settings = false := by
  rcases exists_installed_iff.mp ⟨arrived, h⟩ with found | ⟨missing, -, e', hannotated⟩
  · have harrived : arrived = text := by
      unfold installed at h
      rw [found] at h
      exact (Except.ok.inj h).symm
    rw [harrived]
    exact iff_of_true off (Or.inl found)
  · have hann := annotated_ok hannotated
    rw [installed_of_missing missing hannotated] at h
    cases hstatement : e'.statement m.settings with
    | error malformed => rw [hstatement] at h; cases h
    | ok statement =>
      rw [hstatement] at h
      have hread := Entry.ofLine?_statement hstatement e.target
      have hreread : Entry.ofLine? statement e.target = some (e.reread m.settings) := by
        rw [hread, ← hann.reread, ← hann.target]
        rfl
      have hlines : lines arrived = dropEndBlankLines (lines text) ++ [statement, ""] := by
        rw [← Except.ok.inj h]
        exact lines_withStatement (fun l hl => isLine_of_mem_lines hl) (Entry.isLine_statement label hann.target hstatement)
      rw [hlines, isOff_append_iff off hreread, Entry.disabled_reread, missing]
      simp

/-- A move of a script that is switched off on both pages leaves it so on the old one, and on the new one exactly if installing does. -/
theorem isOff_move_iff {b : Bool} (hdiff : m.DifferentPages s e.target destination)
    (label : Unbroken ((e.withTarget destination).linkLabel m.settings).toList) (off : IsOff (m.pageLines s e.target) e m.settings)
    (hoff : IsOff (m.pageLines s destination) (e.withTarget destination) m.settings) (h : s.run env (m.move e destination) = (.ok b, t)) :
    IsOff (m.pageLines t e.target) e m.settings ∧
      (IsOff (m.pageLines t destination) (e.withTarget destination) m.settings ↔
        Page.isInstalled (m.pageLines s destination) (e.withTarget destination) m.settings = .ok true ∨ e.disabled = true ∨
          ((e.withTarget destination).reread m.settings).sameScript (e.withTarget destination) m.settings = false) := by
  have hend : MoveEnd m env e destination s (s.run env (m.move e destination)) := (proceeds_move hdiff).ending
  rw [h] at hend
  cases hend with
  | done found uninstalled installed pages =>
    constructor
    · rw [pageLines, pages.source]
      exact isOff_uninstalled off uninstalled
    · rw [pageLines, pages.arrival]
      exact isOff_installed_iff label hoff installed

end Manager

namespace CommandLine

variable {n : ScriptName} {e : Entry}

/-- No entry that a command is about is commented out. -/
theorem ScriptName.disabled_of_entry {s : Settings} (h : n.entry s = .ok e) : e.disabled = false := by
  unfold ScriptName.entry at h
  dsimp only at h
  split at h
  · cases h
  · split at h
    · split at h
      · cases h
      · exact congrArg Entry.disabled (Except.ok.inj h).symm
    · split at h
      · cases h
      · next hne =>
        rw [← Except.ok.inj h]
        exact (Entry.target_ofAddress _ hne _ _).2
    · cases h

/-- Relocating a script that is switched off. Capturing it always switches it on: a wrapper of the page has an item for it. Moving it
leaves it switched off on the old target, and on the new one exactly if that had the script already, or if the new statement is not read
back as one of the script. -/
theorem relocated_stays_off_iff (m : Manager) (n : ScriptName) (e : Entry) (env : Surroundings) (s t : Session)
    (named : n.entry m.settings = .ok e) (off : IsOff (m.pageLines s e.target) e m.settings) :
    (∀ shown b, s.run env (m.capture e shown) = (.ok b, t) →
      ∃ item ∈ Wrapper.allItems (m.pageLines t e.target), item.key = e.key ∧ item.holds e m.settings = true) ∧
    ∀ destination b, m.DifferentPages s e.target destination → Unbroken ((e.withTarget destination).linkLabel m.settings).toList →
      IsOff (m.pageLines s destination) (e.withTarget destination) m.settings →
      s.run env (m.move e destination) = (.ok b, t) →
        IsOff (m.pageLines t e.target) e m.settings ∧
          (IsOff (m.pageLines t destination) (e.withTarget destination) m.settings ↔
            Page.isInstalled (m.pageLines s destination) (e.withTarget destination) m.settings = .ok true ∨
              ((e.withTarget destination).reread m.settings).sameScript (e.withTarget destination) m.settings = false) := by
  constructor
  · intro shown b hrun
    obtain ⟨new, hnew, hpage, -⟩ := Manager.capture_ok hrun
    rw [Manager.pageLines, hpage]
    exact exists_item_of_capture (fun l hl => isLine_of_mem_lines hl) hnew
  · intro destination b hdiff label hoff hrun
    have hmoved := Manager.isOff_move_iff hdiff label off hoff hrun
    rwa [ScriptName.disabled_of_entry named, or_iff_right (a := false = true) Bool.false_ne_true] at hmoved

/-- A script is moved to a page that has it already, commented out as well. -/
theorem relocated_stays_off_present :
    ∃ (m : Manager) (n : ScriptName) (e : Entry) (s t : Session), n.entry m.settings = .ok e ∧ s.run {} (m.move e "vector") = (.ok true, t) ∧
      IsOff (m.pageLines s e.target) e m.settings ∧ IsOff (m.pageLines s "vector") (e.withTarget "vector") m.settings ∧
      IsOff (m.pageLines t e.target) e m.settings ∧ IsOff (m.pageLines t "vector") (e.withTarget "vector") m.settings := by
  let m : Manager := { settings := { serverName := "en.wikipedia.org", userName := "U" } }
  let n : ScriptName := { page := some "User:A/x.js", wiki := none, url := none, target := none }
  let e := Entry.ofPage "User:A/x.js" (by decide) none "common" false
  let wiki : Wiki := { pages := [("User:U/common.js", "//importScript('User:A/x.js');\nfoo();"),
    ("User:U/vector.js", "// importScript(\"User:A/x.js\")")] }
  let s : Session := { home := { wiki } }
  have named : n.entry m.settings = .ok e := by decide +kernel
  have off : IsOff (m.pageLines s e.target) e m.settings := by decide +kernel
  have hoff : IsOff (m.pageLines s "vector") (e.withTarget "vector") m.settings := by decide +kernel
  have hdiff : m.DifferentPages s e.target "vector" := Or.inl (by decide +kernel)
  have label : Unbroken ((e.withTarget "vector").linkLabel m.settings).toList := by decide +kernel
  have found : Page.isInstalled (m.pageLines s "vector") (e.withTarget "vector") m.settings = .ok true := by decide +kernel
  have hrun : (s.run {} (m.move e "vector")).1 = .ok true := by decide +kernel
  obtain ⟨t, hend⟩ := Session.exists_run_ok hrun
  obtain ⟨hleft, harrived⟩ := (relocated_stays_off_iff m n e {} s t named off).2 "vector" true hdiff label hoff hend
  exact ⟨m, n, e, s, t, named, hend, off, hoff, hleft, harrived.mpr (Or.inl found)⟩

/-- A script that is commented out on the only page that names it runs on the page to which it is moved. -/
theorem move_switches_a_script_on :
    let m : Manager := { settings := { serverName := "en.wikipedia.org", userName := "Alice" } }
    let n : ScriptName := { page := some "User:A/x.js", wiki := none, url := none, target := none }
    let s : Session := { home := { wiki := { pages := [("User:Alice/common.js", "//importScript('User:A/x.js');")] } } }
    ∃ e t, n.entry m.settings = .ok e ∧ s.run {} (m.move e "vector") = (.ok true, t) ∧
      IsOff (m.pageLines s e.target) e m.settings ∧ IsOff (m.pageLines s "vector") (e.withTarget "vector") m.settings ∧
      ¬IsOff (m.pageLines t "vector") (e.withTarget "vector") m.settings := by
  intro m n s
  let e := Entry.ofPage "User:A/x.js" (by decide) none "common" false
  have named : n.entry m.settings = .ok e := by decide +kernel
  have off : IsOff (m.pageLines s e.target) e m.settings := by decide +kernel
  have hoff : IsOff (m.pageLines s "vector") (e.withTarget "vector") m.settings := by decide +kernel
  have hdiff : m.DifferentPages s e.target "vector" := Or.inl (by decide +kernel)
  have label : Unbroken ((e.withTarget "vector").linkLabel m.settings).toList := by decide +kernel
  have missing : Page.isInstalled (m.pageLines s "vector") (e.withTarget "vector") m.settings = .ok false := by decide +kernel
  have hsame : ((e.withTarget "vector").reread m.settings).sameScript (e.withTarget "vector") m.settings = true := by decide +kernel
  have hrun : (s.run {} (m.move e "vector")).1 = .ok true := by decide +kernel
  obtain ⟨t, hend⟩ := Session.exists_run_ok hrun
  refine ⟨e, t, named, hend, off, hoff, ?_⟩
  rw [(Manager.isOff_move_iff hdiff label off hoff hend).2, missing, ScriptName.disabled_of_entry named, hsame]
  simp

end CommandLine

end UserScripts
