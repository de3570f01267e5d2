import UserScripts.Proofs.Manager.Move

/-!
# Installing and uninstalling

Whether installing and uninstalling agree on what a page loads. Installing looks at every line of a page, also inside its wrappers,
and at the items that are read from the wrappers; uninstalling leaves the lines inside the wrappers to the items. They agree unless
such a line loads the script and no item says so. Main statement: `install_agrees_with_uninstall_iff`.
-/

namespace UserScripts

open UserScripts.Text

namespace Manager

/-- While no call is refused, installing changes nothing exactly if uninstalling finds the script, unless the script is buried in the
wrappers of the page: then installing changes nothing and uninstalling does not find it. A script that is not buried can be moved,
if at all, without being left on both pages. -/
theorem install_agrees_with_uninstall_iff (m : Manager) (e : Entry) (env : Surroundings) (s : Session) {call : String}
    (hcall : e.loadCall m.settings = .ok call) (calm : env.Calm) :
    (((s.run env (m.install e)).1 = .ok false ↔ (s.run env (m.uninstall e)).1 ≠ .error (.notInstalled e.displayName e.target)) ↔
        ¬ Page.Buried (m.pageLines s e.target) e m.settings) ∧
      (Page.Buried (m.pageLines s e.target) e m.settings →
        (s.run env (m.install e)).1 = .ok false ∧ (s.run env (m.uninstall e)).1 = .error (.notInstalled e.displayName e.target)) ∧
      (¬ Page.Buried (m.pageLines s e.target) e m.settings → ∀ destination, m.DifferentPages s e.target destination → ∀ cause,
        (s.run env (m.move e destination)).1 ≠ .error (.moveIncomplete e.displayName e.target destination cause)) := by
  have hcomparable : Page.Comparable (m.pageLines s e.target) e m.settings := .of_loadCall hcall
  rw [install_eq_false_iff calm, Ne, uninstall_eq_error_iff calm, Page.buried_iff hcomparable]
  refine ⟨⟨?_, fun hnot => ⟨?_, Page.isInstalled_of_removal hcomparable⟩⟩, id, fun hnot destination hdiff cause hmove => ?_⟩
  · rintro hagree ⟨hinstalled, hremoval⟩
    exact hagree.mp hinstalled hremoval
  · exact fun hinstalled hremoval => hnot ⟨hinstalled, hremoval⟩
  · have hend : MoveEnd m env e destination s (s.run env (m.move e destination)) := (proceeds_move hdiff).ending
    generalize hrun : s.run env (m.move e destination) = run at hend hmove
    cases hend with
    | done => cases hmove
    | failed kind _ =>
      rw [Except.error.inj hmove] at kind
      exact kind rfl
    | incomplete found reason =>
      obtain ⟨n, call, message, refused, -⟩ | hremoval := reason
      · exact absurd ((calm n call).symm.trans refused) (Option.some_ne_none message).symm
      · have hmissing := Page.uninstalled_eq_error.mp hremoval
        rw [((Page.removal_eq_error hcomparable).mp hmissing).1] at hmissing
        exact hnot ⟨found, hmissing⟩

/-- A script that is captured in a wrapper. -/
theorem install_agrees_with_uninstall_iff_captured :
    ∃ (m : Manager) (e : Entry) (s : Session) (call : String), e.loadCall m.settings = .ok call ∧ ({} : Surroundings).Calm ∧
      Wrapper.blocks (m.pageLines s e.target) ≠ [] ∧
      ((s.run {} (m.install e)).1 = .ok false ↔ (s.run {} (m.uninstall e)).1 ≠ .error (.notInstalled e.displayName e.target)) ∧
      (s.run {} (m.install e)).1 = .ok false := by
  let m : Manager := { settings := { serverName := "a.org", userName := "U" } }
  let e := Entry.ofPage "X.js" (by decide) none "common" false
  let call := "mw.loader.load('//a.org/w/index.php?title=X.js&action=raw&ctype=text/javascript');"
  let page := ["f();", "// SM-CAPTURE-START", "\t\t\tkey: \"local:common:X.js\",", "mw.loader.load('X');", "// SM-CAPTURE-END"]
  let s : Session := { home := { wiki := { pages := [("User:U/common.js", unlines page)] } } }
  have hcall : e.loadCall m.settings = .ok call := by decide +kernel
  have hpage : m.pageLines s e.target = page := pageLines_eq rfl (by simp [page]) (by decide +kernel)
  have hblocks : Wrapper.blocks page ≠ [] := by decide +kernel
  have hitems : (Wrapper.decode page).any (·.holds e m.settings) = true := by decide +kernel
  -- From here on only these facts count, and nothing is computed.
  clear_value m e call page s
  have calm : ({} : Surroundings).Calm := fun _ _ => rfl
  obtain ⟨hagree, -, -⟩ := install_agrees_with_uninstall_iff m e {} s hcall calm
  have hburied : ¬ Page.Buried (m.pageLines s e.target) e m.settings := by
    intro hburied
    obtain ⟨item, hitem, hholds⟩ := List.any_eq_true.mp hitems
    rw [hpage] at hburied
    exact Bool.false_ne_true ((hburied.items item hitem).symm.trans hholds)
  have hinstall : (s.run {} (m.install e)).1 = .ok false := by
    rw [install_eq_false_iff calm, Page.isInstalled_eq (.of_loadCall hcall), hpage, hitems, Bool.or_true]
  exact ⟨m, e, s, call, hcall, calm, hpage ▸ hblocks, hagree.mpr hburied, hinstall⟩

/-- In a wrapper without item markers only the first call is read as an item. A second script on it is not installed again, and it
cannot be uninstalled either. -/
theorem install_refuses_what_uninstall_misses :
    ∃ (m : Manager) (e : Entry) (s : Session) (call : String), e.loadCall m.settings = .ok call ∧
      m.pageLines s e.target = ["// SM-CAPTURE-START", "mw.loader.load('//a.org/w/index.php?title=X.js');", "importScript('Y.js');",
        "// SM-CAPTURE-END"] ∧
      (s.run {} (m.install e)).1 = .ok false ∧ (s.run {} (m.uninstall e)).1 = .error (.notInstalled "Y.js" "common") := by
  let m : Manager := { settings := { serverName := "a.org", userName := "U" } }
  let e := Entry.ofPage "Y.js" (by decide) none "common" false
  let call := "mw.loader.load('//a.org/w/index.php?title=Y.js&action=raw&ctype=text/javascript');"
  let page := ["// SM-CAPTURE-START", "mw.loader.load('//a.org/w/index.php?title=X.js');", "importScript('Y.js');",
    "// SM-CAPTURE-END"]
  let s : Session := { home := { wiki := { pages := [("User:U/common.js", unlines page)] } } }
  have hcall : e.loadCall m.settings = .ok call := by decide +kernel
  have hpage : m.pageLines s e.target = page := pageLines_eq rfl (by simp [page]) (by decide +kernel)
  have hinstalled : Page.isInstalled page e m.settings = .ok true := by decide +kernel
  have hremoval : Page.removal page e m.settings = .error (.notInstalled "Y.js" "common") := by decide +kernel
  refine ⟨m, e, s, call, hcall, hpage, ?_, ?_⟩
  · rw [install_eq_false_iff fun _ _ => rfl, hpage]
    exact hinstalled
  · rw [uninstall_eq_error_iff fun _ _ => rfl, hpage]
    exact hremoval

end Manager

end UserScripts
