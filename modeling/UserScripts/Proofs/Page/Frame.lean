import UserScripts.Proofs.Manager.Effects
import UserScripts.Proofs.Page.Change
import UserScripts.Proofs.Statement.Shape
import UserScripts.Proofs.Wrapper.Place

/-!
# What an edit leaves alone

Installing, uninstalling, capturing and letting out a script touch only lines that they own. The page need not be well formed:
its markers may be unterminated or nested. Main statement: `Manager.operation_keeps_other_lines`.
-/

namespace UserScripts

open UserScripts.Text

namespace Page

/-- New lines keep the old ones outside the removed positions, in their order and each once, but for blank lines at the end of
what is left; all that is added stands in one place. -/
def Keeps (removed : Nat → Bool) (added old new : List String) : Prop :=
  ∃ before after tail, dropLines removed old = before ++ after ++ tail ∧ (∀ l ∈ tail, isBlankLine l = true) ∧
    new = before ++ added ++ after

/-! ## Ways to keep lines -/

/-- Lines that are only dropped keep all others. -/
theorem keeps_dropLines (removed : Nat → Bool) (old : List String) : Keeps removed [] old (dropLines removed old) :=
  ⟨dropLines removed old, [], [], by simp, by simp, by simp⟩

/-- Lines may be added after the last line that is not blank. -/
theorem keeps_end (removed : Nat → Bool) (added old : List String) :
    Keeps removed added old (dropEndBlankLines (dropLines removed old) ++ added) := by
  obtain ⟨tail, htail, hblank⟩ := exists_dropEndBlankLines_append (dropLines removed old)
  exact ⟨dropEndBlankLines (dropLines removed old), [], tail, by rw [List.append_nil]; exact htail, hblank, by simp⟩

/-- New lines may take the place of a line that is removed. -/
theorem keeps_replaceFrom {removed : Nat → Bool} {added old : List String} {first : Nat} (hfirst : first < old.length)
    (hremoved : removed first = true) : Keeps removed added old (Wrapper.replaceFrom first removed added 0 old) := by
  obtain ⟨before, line, after, rfl, rfl⟩ : ∃ before line after, old = before ++ line :: after ∧ before.length = first :=
    ⟨old.take first, old[first], old.drop (first + 1), by simp, by simp; omega⟩
  refine ⟨dropLinesFrom removed 0 before, dropLinesFrom removed (0 + before.length + 1) after, [], ?_, by simp, ?_⟩
  · rw [dropLines, dropLinesFrom_append, dropLinesFrom, Nat.zero_add, if_pos hremoved, List.append_nil]
  · have := Wrapper.replaceFrom_eq removed added before line after 0
    rwa [Nat.zero_add] at this ⊢

/-- The lines of the new text are the new lines, but a page without lines has an empty one. -/
theorem keeps_lines {removed : Nat → Bool} {added old new : List String} (h : Keeps removed added old new)
    (hold : ∀ l ∈ old, IsLine l) (hadded : ∀ l ∈ added, IsLine l) :
    Keeps removed added old (lines (unlines new)) ∨ (added = [] ∧ Keeps removed [""] old (lines (unlines new))) := by
  obtain ⟨before, after, tail, hdrop, hblank, hnew⟩ := h
  by_cases hempty : new = []
  · obtain ⟨rfl, rfl, rfl⟩ : before = [] ∧ added = [] ∧ after = [] := by simpa [hempty] using hnew.symm
    refine Or.inr ⟨rfl, [], [], tail, hdrop, hblank, ?_⟩
    rw [hempty]
    rfl
  · refine Or.inl ⟨before, after, tail, hdrop, hblank, ?_⟩
    have hkept : ∀ l ∈ before ++ after ++ tail, IsLine l := by
      intro l hl
      rw [← hdrop] at hl
      exact hold l (mem_of_mem_dropLinesFrom hl)
    rw [← hnew]
    refine lines_unlines hempty ?_
    intro l hl
    rw [hnew, List.mem_append, List.mem_append] at hl
    rcases hl with (hl | hl) | hl
    · exact hkept l (by simp [hl])
    · exact hadded l hl
    · exact hkept l (by simp [hl])

end Page

namespace Operation

/-- The positions of the lines that an operation removes from a page. -/
def removes (s : Settings) (old : List String) : Operation → Nat → Bool
  | .uninstall e => fun i => ((Wrapper.decode old).any (·.holds e s) && Wrapper.inside (Wrapper.blocks old) i) ||
      (Page.plainOf old e s).contains i
  | .capture e _ => fun i => (Page.plainOf old e s).contains i || Wrapper.inside (Wrapper.blocks old) i
  | .decapture _ => Wrapper.inside (Wrapper.blocks old)
  | _ => fun _ => false

/-- The entry whose statement an operation may write. -/
def writes? : Operation → Option Entry
  | .install e => some e
  | .decapture e => some (e.withDisabled false)
  | _ => none

end Operation

/-- Lines that may be added to a page: the canonical statement of an entry, a freshly rendered wrapper with a blank line before
it, and the empty line at the end. -/
def Addition (s : Settings) (written : Option Entry) (added : List String) : Prop :=
  ∃ statement wrapper ending, added = statement ++ wrapper ++ ending ∧
    (statement = [] ∨ ∃ e ∈ written, ∃ e' text, Manager.Annotated e e' ∧ e'.statement s = .ok text ∧ statement = [text]) ∧
    (wrapper = [] ∨ ∃ separator items, (separator = [] ∨ separator = [""]) ∧
      wrapper = separator ++ Wrapper.render items s.fallbackDelay) ∧
    (ending = [] ∨ ending = [""])

namespace Operation

/-- What is added to a page consists of lines, if the label of the written entry has no line break. -/
theorem isLine_of_addition {s : Settings} {written : Option Entry} {added : List String} (h : Addition s written added)
    (label : ∀ e ∈ written, Unbroken (e.linkLabel s).toList) {l : String} (hl : l ∈ added) : IsLine l := by
  obtain ⟨statement, wrapper, ending, rfl, hstatement, hwrapper, hending⟩ := h
  rw [List.mem_append, List.mem_append] at hl
  rcases hl with (hl | hl) | hl
  · rcases hstatement with rfl | ⟨e, he, e', text, hann, htext, rfl⟩
    · nomatch hl
    · rw [List.mem_singleton.mp hl]
      exact Entry.isLine_statement (label e he) hann.target htext
  · rcases hwrapper with rfl | ⟨separator, items, hseparator, rfl⟩
    · nomatch hl
    · rcases List.mem_append.mp hl with hl | hl
      · rcases hseparator with rfl | rfl
        · nomatch hl
        · rw [List.mem_singleton.mp hl]; decide
      · exact Wrapper.isLine_of_mem_render hl
  · rcases hending with rfl | rfl
    · nomatch hl
    · rw [List.mem_singleton.mp hl]; decide

/-- It may be that nothing is added. -/
theorem addition_nil (s : Settings) (written : Option Entry) : Addition s written [] :=
  ⟨[], [], [], rfl, Or.inl rfl, Or.inl rfl, Or.inl rfl⟩

/-- A freshly rendered wrapper may be added. -/
theorem addition_render (s : Settings) (written : Option Entry) (items : List Item) :
    Addition s written (Wrapper.render items s.fallbackDelay) :=
  ⟨[], Wrapper.render items s.fallbackDelay, [], by simp, Or.inl rfl, Or.inr ⟨[], items, Or.inl rfl, rfl⟩, Or.inl rfl⟩

/-! ## The operations one by one -/

variable {s : Settings} {e : Entry} {old : List String}

/-- Installing keeps the other lines and adds the statement. -/
theorem keeps_install (old : List String) {e' : Entry} {text : String} (hann : Manager.Annotated e e') (htext : e'.statement s = .ok text) :
    Addition s (some e) [text, ""] ∧
      Page.Keeps (removes s old (.install e)) [text, ""] old (dropEndBlankLines old ++ [text, ""]) := by
  refine ⟨⟨[text], [], [""], rfl, Or.inr ⟨e, rfl, e', text, hann, htext, rfl⟩, Or.inl rfl, Or.inr rfl⟩, ?_⟩
  have hkeeps := Page.keeps_end (removes s old (.install e)) [text, ""] old
  rwa [show dropLines (removes s old (.install e)) old = old from dropLinesFrom_none 0 old] at hkeeps

/-- Uninstalling keeps the other lines and adds a wrapper at most. -/
theorem keeps_uninstall {removal : Removal} (h : Page.removal old e s = .ok removal) :
    ∃ added, Addition s none added ∧
      Page.Keeps (removes s old (.uninstall e)) added old (removal.apply old s.fallbackDelay) := by
  obtain ⟨hlines, hitems⟩ := Page.removal_ok h
  cases hany : (Wrapper.decode old).any (·.holds e s) with
  | false =>
    rw [hany, if_neg Bool.false_ne_true] at hitems
    refine ⟨[], addition_nil s none, ?_⟩
    have hdrop : (fun i => removal.lines.contains i) = removes s old (.uninstall e) := by
      funext i
      simp [removes, hany, hlines]
    simp only [Removal.apply, hitems, hdrop]
    exact Page.keeps_dropLines _ old
  | true =>
    have hremoves : (fun i => Wrapper.inside (Wrapper.blocks old) i || (Page.plainOf old e s).contains i) =
        removes s old (.uninstall e) := by
      funext i
      simp [removes, hany]
    rw [hany, if_pos rfl] at hitems
    simp only [Removal.apply, hitems, hlines, Wrapper.replace, hremoves]
    cases hblocks : Wrapper.blocks old with
    | nil =>
      -- Without a complete wrapper nothing is decoded, so no item can be dropped.
      rw [Wrapper.decode, hblocks] at hany
      exact absurd hany Bool.false_ne_true
    | cons first rest =>
      simp only
      split
      · refine ⟨[], addition_nil s none, ?_⟩
        have hempty := List.isEmpty_iff.mp ‹_›
        rw [hempty, Wrapper.append_nil, ← List.append_nil (dropEndBlankLines _)]
        exact Page.keeps_end _ [] old
      · obtain ⟨hle, hlt⟩ := Wrapper.lt_length_of_blocks (show first ∈ Wrapper.blocks old by rw [hblocks]; simp)
        refine ⟨_, addition_render s none _, Page.keeps_replaceFrom (by omega) ?_⟩
        rw [← hremoves]
        simp only [hblocks, Wrapper.inside_first (Nat.le_of_lt hle), Bool.true_or]

/-- A wrapper at the end of what is left of a page. -/
theorem keeps_append (s : Settings) (old : List String) (removed : Nat → Bool) (items : List Item) :
    ∃ added, Addition s none added ∧
      Page.Keeps removed added old (Wrapper.append (dropLines removed old) items s.fallbackDelay) := by
  by_cases h : items = []
  · refine ⟨[], addition_nil s none, ?_⟩
    rw [h, Wrapper.append_nil, ← List.append_nil (dropEndBlankLines _)]
    exact Page.keeps_end removed [] old
  · refine ⟨Wrapper.separator (dropEndBlankLines (dropLines removed old)) ++ Wrapper.render items s.fallbackDelay, ?_, ?_⟩
    · exact ⟨[], _, [], (List.append_nil _).symm, Or.inl rfl, Or.inr ⟨_, items, Wrapper.separator_cases _, rfl⟩, Or.inl rfl⟩
    · rw [Wrapper.append_eq h]
      exact Page.keeps_end removed _ old

/-- A capture keeps the other lines and adds a wrapper at most. -/
theorem keeps_capture {name : Option String} {new : List String} (h : Page.capture old e name s = .ok new) :
    ∃ added, Addition s none added ∧ Page.Keeps (removes s old (.capture e name)) added old new := by
  obtain ⟨item, -, rfl⟩ := Page.capture_ok h
  exact keeps_append s old _ _

/-- A decapture keeps the other lines and adds the statement and a wrapper at most. -/
theorem keeps_decapture {release : Release} {restored : List String} (h : Page.release old e s = .ok release)
    (hrestored : restored = release.kept ∨ ∃ e' text, Manager.Annotated (e.withDisabled false) e' ∧ e'.statement s = .ok text ∧
      restored = release.kept ++ [text]) :
    ∃ added, Addition s (some (e.withDisabled false)) added ∧
      Page.Keeps (removes s old (.decapture e)) added old (Wrapper.append restored release.items s.fallbackDelay) := by
  obtain ⟨-, hkept, -⟩ := Page.release_ok h
  rcases hrestored with rfl | ⟨e', text, hann, htext, rfl⟩
  · have hidem : Wrapper.append release.kept release.items s.fallbackDelay =
        Wrapper.append (dropLines (removes s old (.decapture e)) old) release.items s.fallbackDelay := by
      rw [Wrapper.append, Wrapper.append, hkept, dropEndBlankLines_idem]
      rfl
    obtain ⟨added, ⟨statement, wrapper, ending, hadded, hstatement, hwrapper, hending⟩, hkeeps⟩ :=
      keeps_append s old (removes s old (.decapture e)) release.items
    rw [hidem]
    refine ⟨added, ⟨statement, wrapper, ending, hadded, Or.inl ?_, hwrapper, hending⟩, hkeeps⟩
    rcases hstatement with hs | ⟨_, he, -⟩
    · exact hs
    · cases he
  · have hfull : dropEndBlankLines (release.kept ++ [text]) = release.kept ++ [text] :=
      dropEndBlankLines_concat (Entry.isBlankLine_statement htext)
    have hwrites : [text] = [] ∨ ∃ e₀ ∈ some (e.withDisabled false), ∃ e' t, Manager.Annotated e₀ e' ∧ e'.statement s = .ok t ∧
        [text] = [t] := Or.inr ⟨_, rfl, e', text, hann, htext, rfl⟩
    by_cases hitems : release.items = []
    · refine ⟨[text], ⟨[text], [], [], rfl, hwrites, Or.inl rfl, Or.inl rfl⟩, ?_⟩
      rw [hitems, Wrapper.append_nil, hfull, hkept]
      exact Page.keeps_end _ [text] old
    · refine ⟨[text] ++ ([""] ++ Wrapper.render release.items s.fallbackDelay), ⟨[text], _, [], by simp, hwrites,
        Or.inr ⟨[""], release.items, Or.inr rfl, rfl⟩, Or.inl rfl⟩, ?_⟩
      rw [Wrapper.append_eq hitems, hfull, hkept, List.append_assoc]
      have hsep : Wrapper.separator (dropEndBlankLines (dropLines (Wrapper.inside (Wrapper.blocks old)) old) ++ [text]) = [""] := by
        simp [Wrapper.separator]
      rw [hsep]
      exact Page.keeps_end _ _ old

end Operation

namespace Manager

/-- Nothing else on the page is touched. An operation that saves an edit keeps every line that it does not remove, and what it adds
is the canonical statement of its entry, one freshly rendered wrapper with a blank line before it, and the empty line at the
end. -/
theorem operation_keeps_other_lines (m : Manager) (e : Entry) (op : Operation)
    (hop : op = .install e ∨ op = .uninstall e ∨ (∃ name, op = .capture e name) ∨ op = .decapture e)
    (label : Unbroken (e.linkLabel m.settings).toList) (env : Surroundings) (s t : Session)
    (h : s.run env (op.routine m e.target) = (.ok true, t)) :
    ∃ added, Addition m.settings op.writes? added ∧
      Page.Keeps (op.removes m.settings (m.pageLines s e.target)) added (m.pageLines s e.target) (m.pageLines t e.target) := by
  have hlabel : ∀ e₀ ∈ op.writes?, Unbroken (e₀.linkLabel m.settings).toList := by
    intro e₀ he₀
    rcases hop with rfl | rfl | ⟨name, rfl⟩ | rfl
    · rwa [← Option.some.inj he₀]
    · nomatch he₀
    · nomatch he₀
    · rw [← Option.some.inj he₀]
      exact label
  have hstep : ∃ added new, Addition m.settings op.writes? added ∧ m.pageText t e.target = unlines new ∧
      Page.Keeps (op.removes m.settings (m.pageLines s e.target)) added (m.pageLines s e.target) new := by
    rcases hop with rfl | rfl | ⟨name, rfl⟩ | rfl
    · obtain ⟨-, -, hedit⟩ := install_ok h
      obtain ⟨e', text, hann, htext, hpage⟩ := hedit rfl
      obtain ⟨hadd, hkeeps⟩ := Operation.keeps_install (m.pageLines s e.target) hann htext
      refine ⟨_, _, hadd, ?_, hkeeps⟩
      rw [hpage, ← unlines_pageLines, Page.apply_install]
    · obtain ⟨removal, hremoval, hpage, -⟩ := uninstall_ok h
      obtain ⟨added, hadd, hkeeps⟩ := Operation.keeps_uninstall hremoval
      exact ⟨added, _, hadd, hpage, hkeeps⟩
    · obtain ⟨new, hnew, hpage, -⟩ := capture_ok h
      obtain ⟨added, hadd, hkeeps⟩ := Operation.keeps_capture hnew
      exact ⟨added, new, hadd, hpage, hkeeps⟩
    · obtain ⟨release, restored, hrelease, hrestored, hpage, -⟩ := decapture_ok h
      obtain ⟨added, hadd, hkeeps⟩ := Operation.keeps_decapture hrelease (hrestored.imp And.right And.right)
      exact ⟨added, _, hadd, hpage, hkeeps⟩
  obtain ⟨added, new, hadd, hpage, hkeeps⟩ := hstep
  have hold : ∀ l ∈ m.pageLines s e.target, IsLine l := fun l hl => isLine_of_mem_lines hl
  have hlines : m.pageLines t e.target = lines (unlines new) := by rw [pageLines, hpage]
  rw [hlines]
  rcases Page.keeps_lines hkeeps hold fun l hl => Operation.isLine_of_addition hadd hlabel hl with hdone | ⟨-, hdone⟩
  · exact ⟨added, hadd, hdone⟩
  · exact ⟨[""], ⟨[], [], [""], rfl, Or.inl rfl, Or.inl rfl, Or.inr rfl⟩, hdone⟩

/-- A script is added to a page with a marker that nothing closes. -/
theorem operation_keeps_other_lines_unterminated :
    ∃ (m : Manager) (e : Entry) (s t : Session), Unbroken (e.linkLabel m.settings).toList ∧
      s.run {} ((Operation.install e).routine m e.target) = (.ok true, t) ∧
      m.pageText s e.target = "foo();\n// SM-CAPTURE-START\nbar();\n\n" ∧
      ∃ added, Addition m.settings (some e) added ∧ Page.Keeps (fun _ => false) added (m.pageLines s e.target) (m.pageLines t e.target) := by
  let m : Manager := { settings := { serverName := "en.wikipedia.org", userName := "U" } }
  let e := Entry.ofPage "User:A/x.js" (by decide) none "common" false
  let wiki : Wiki := { pages := [("User:U/common.js", "foo();\n// SM-CAPTURE-START\nbar();\n\n")] }
  let s : Session := { home := { wiki } }
  have label : Unbroken (e.linkLabel m.settings).toList := by decide +kernel
  have hrun : (s.run {} ((Operation.install e).routine m e.target)).1 = .ok true := by decide +kernel
  obtain ⟨t, hend⟩ := Session.exists_run_ok hrun
  exact ⟨m, e, s, t, label, hend, by decide +kernel, operation_keeps_other_lines m e (.install e) (Or.inl rfl) label {} s t hend⟩

end Manager

end UserScripts
