import UserScripts.Proofs.Manager.Complete
import UserScripts.Proofs.Page.Apart
import UserScripts.Proofs.Page.Match
import UserScripts.Proofs.Wrapper.Decoded
import UserScripts.Proofs.Wrapper.Unclosed

/-!
# Wrappers and what users write between markers

A page may hold markers that belong to no complete wrapper. They mean nothing as long as an operation leaves them apart from each
other. Taking a script away, capturing it or letting it out does so unless it removes all markers between a start marker and an end
marker that it keeps: these two then enclose what stood outside. Main statement: `wrappers_stay_apart_iff`.
-/

namespace UserScripts

open UserScripts.Text UserScripts.Wrapper UserScripts.Page

namespace Operation

/-- The line of a page in place of which an operation writes a wrapper. Only an uninstall does, if it takes an item out of a wrapper
and leaves another one. -/
def site (s : Settings) (old : List String) : Operation → Option Nat
  | .uninstall e =>
    if (decode old).any (·.holds e s) && !((decode old).filter fun i => !i.holds e s).isEmpty then (blocks old).head?.map Prod.fst
    else none
  | _ => none

/-- The new page is the old one without the lines that an operation removes and with those that it may add. -/
def Lays (s : Settings) (op : Operation) (old new : List String) : Prop :=
  ∃ l : Layout, l.page old = new ∧ l.Keeps (op.removes s old) old ∧ Addition s op.writes? l.added ∧
    l.Fits s.fallbackDelay (op.site s old)

variable {s : Settings} {e : Entry} {op : Operation} {old new : List String}

/-- A wrapper is removed as a whole or not at all. -/
theorem removes_whole (hop : op = .uninstall e ∨ (∃ name, op = .capture e name) ∨ op = .decapture e) {r : Range} (hr : r ∈ blocks old)
    (hkept : op.removes s old r.1 = false) {k : Nat} (h₁ : r.1 ≤ k) (h₂ : k ≤ r.2) : op.removes s old k = false := by
  have hlt := (lt_length_of_blocks hr).1
  have hinside : ∀ {i}, r.1 ≤ i → i ≤ r.2 → inside (blocks old) i = true := fun h₁ h₂ => covers_iff.mpr ⟨r, hr, h₁, h₂⟩
  have hfirst := hinside (Nat.le_refl _) (Nat.le_of_lt hlt)
  rcases hop with rfl | ⟨name, rfl⟩ | rfl
  · simp only [removes, hfirst, Bool.and_true, Bool.or_eq_false_iff] at hkept
    have hplain : (plainOf old e s).contains k = false := by
      rw [← Bool.not_eq_true, List.contains_iff_mem]
      intro hmem
      have := skip_of_mem_plainLines hmem
      rw [hinside h₁ h₂] at this
      cases this
    simp only [removes, hkept.1, hplain, Bool.false_and, Bool.or_false]
  · simp [removes, hfirst] at hkept
  · simp [removes, hfirst] at hkept

/-- The items that are read from the lines of a page can be written. -/
theorem storable_of_mem_decode (hold : ∀ line ∈ old, IsLine line) {i : Item} (hi : i ∈ decode old) : i.Storable :=
  (read_of_mem_decode hold hi).1.toStorable

/-- A statement that is written is no marker. -/
theorem unmarked_statement {e' : Entry} {text : String} (h : e'.statement s = .ok text) : Unmarked [text] :=
  unmarked_of_tame (Entry.tame_statement h)

/-- Blank lines at the end of a page make no difference to what an append writes. -/
theorem append_dropEndBlankLines (ls : List String) (items : List Item) (delay : Int) :
    Wrapper.append (dropEndBlankLines ls) items delay = Wrapper.append ls items delay := by
  rw [Wrapper.append, Wrapper.append, dropEndBlankLines_idem]

/-- What is written at the end of a page: a statement or none, and a wrapper of some items or none. -/
theorem lays_end (s : Settings) (op : Operation) (old : List String) {items : List Item} {written : List String}
    (hplace : op.site s old = none) (hwritten : written = [] ∨
      ∃ e ∈ op.writes?, ∃ e' text, Manager.Annotated e e' ∧ e'.statement s = .ok text ∧ written = [text])
    (hitems : ∀ i ∈ items, i.Storable) :
    Lays s op old (Wrapper.append (dropEndBlankLines (dropLines (op.removes s old) old) ++ written) items s.fallbackDelay) := by
  have hunmarked : Unmarked written := by
    rcases hwritten with rfl | ⟨_, _, e', text, _, htext, rfl⟩
    · exact List.forall_mem_nil _
    · exact unmarked_statement htext
  have hfull : dropEndBlankLines (dropEndBlankLines (dropLines (op.removes s old) old) ++ written) =
      dropEndBlankLines (dropLines (op.removes s old) old) ++ written := by
    rcases hwritten with rfl | ⟨_, _, e', text, _, htext, rfl⟩
    · rw [List.append_nil, dropEndBlankLines_idem]
    · exact dropEndBlankLines_concat (Entry.isBlankLine_statement htext)
  by_cases hempty : items = []
  · obtain ⟨l, hpage, hadded, hafter, hkeeps⟩ := Layout.exists_layout_end (op.removes s old) old written
    refine ⟨l, ?_, hkeeps, ⟨written, [], [], by simpa using hadded, hwritten, Or.inl rfl, Or.inl rfl⟩, ?_⟩
    · rw [hempty, append_nil, hfull, hpage]
    · rw [hplace]
      exact .plain (by rwa [hadded]) (Or.inr hafter)
  · obtain ⟨l, hpage, hadded, hafter, hkeeps⟩ := Layout.exists_layout_end (op.removes s old) old
      (written ++ (separator (dropEndBlankLines (dropLines (op.removes s old) old) ++ written) ++ render items s.fallbackDelay))
    refine ⟨l, ?_, hkeeps, ⟨written, _, [], by simpa using hadded, hwritten, Or.inr ⟨_, items, separator_cases _, rfl⟩, Or.inl rfl⟩, ?_⟩
    · rw [append_eq hempty, hfull, hpage, List.append_assoc]
    · rw [hplace]
      exact .wrapped (by rw [hadded, List.append_assoc]) (unmarked_append hunmarked (unmarked_separator _)) hitems (by simp) (by simp)
        fun _ => hafter

/-- The page after a capture is laid out as `Lays` says. -/
theorem lays_capture {name : Option String} (hold : ∀ line ∈ old, IsLine line) (h : Page.capture old e name s = .ok new) :
    Lays s (.capture e name) old new := by
  obtain ⟨item, hitem, rfl⟩ := capture_ok h
  have hstorable : ∀ i ∈ ((decode old).filter fun i => !i.holds e s) ++ [item], i.Storable := by
    intro i hi
    rcases List.mem_append.mp hi with hi | hi
    · exact storable_of_mem_decode hold (List.mem_of_mem_filter hi)
    · rw [List.mem_singleton.mp hi]
      exact (Item.readable_ofEntry hitem).toStorable
  have hlays := lays_end s (.capture e name) old rfl (Or.inl rfl) hstorable
  rwa [List.append_nil, append_dropEndBlankLines] at hlays

/-- The page after a decapture is laid out as `Lays` says, whether or not a statement is put back. -/
theorem lays_decapture (hold : ∀ line ∈ old, IsLine line) {release : Release} {restored : List String}
    (h : Page.release old e s = .ok release)
    (hrestored : restored = release.kept ∨ ∃ e' text, Manager.Annotated (e.withDisabled false) e' ∧ e'.statement s = .ok text ∧
      restored = release.kept ++ [text]) :
    Lays s (.decapture e) old (Wrapper.append restored release.items s.fallbackDelay) := by
  obtain ⟨-, hkept, hitems⟩ := release_ok h
  have hstorable : ∀ i ∈ release.items, i.Storable := by
    rw [hitems]
    exact fun i hi => storable_of_mem_decode hold (List.mem_of_mem_filter hi)
  rw [hkept] at hrestored
  rcases hrestored with rfl | ⟨e', text, hann, htext, rfl⟩
  · have hlays := lays_end s (.decapture e) old rfl (Or.inl rfl) hstorable
    rwa [List.append_nil] at hlays
  · exact lays_end s (.decapture e) old rfl (Or.inr ⟨_, rfl, e', text, hann, htext, rfl⟩) hstorable

/-- A script that is in no item goes with its own lines, and nothing is written. -/
theorem lays_uninstall_lines {removal : Removal} (h : Page.removal old e s = .ok removal)
    (hany : (decode old).any (·.holds e s) = false) : Lays s (.uninstall e) old (removal.apply old s.fallbackDelay) := by
  obtain ⟨hlines, hitems⟩ := removal_ok h
  rw [hany, if_neg Bool.false_ne_true] at hitems
  have hremoves : removes s old (.uninstall e) = fun i => (plainOf old e s).contains i := by
    funext i
    simp [removes, hany]
  have hdrop := (List.append_nil (dropLines (removes s old (.uninstall e)) old)).symm
  obtain ⟨l, hpage, hadded, hafter, hkeeps⟩ := Layout.exists_layout hdrop (by simp) []
  refine ⟨l, ?_, hkeeps, hadded ▸ addition_nil s _, ?_⟩
  · rw [hpage, List.append_nil, hremoves, Removal.apply, hitems, hlines]
  · rw [site, hany, Bool.false_and, if_neg Bool.false_ne_true]
    exact .plain (by rw [hadded]; exact List.forall_mem_nil _) (Or.inl hadded)

/-- A script that is in an item goes with all wrappers. The items that are left come in the place of the first one. -/
theorem lays_uninstall_item (hold : ∀ line ∈ old, IsLine line) {removal : Removal} (h : Page.removal old e s = .ok removal)
    (hany : (decode old).any (·.holds e s) = true) : Lays s (.uninstall e) old (removal.apply old s.fallbackDelay) := by
  obtain ⟨hlines, hitems⟩ := removal_ok h
  rw [hany, if_pos rfl] at hitems
  have hremoves : removes s old (.uninstall e) = fun i => inside (blocks old) i || (plainOf old e s).contains i := by
    funext i
    simp [removes, hany]
  obtain ⟨first, rest, hblocks⟩ : ∃ first rest, blocks old = first :: rest := by
    -- Without a complete wrapper nothing is decoded, so no item can be dropped.
    cases hblocks : blocks old with
    | nil =>
      rw [decode, hblocks] at hany
      cases hany
    | cons first rest => exact ⟨first, rest, rfl⟩
  simp only [Removal.apply, hitems, hlines, Wrapper.replace]
  rw [← hremoves, hblocks]
  simp only
  split
  · next hempty =>
    have hplace : site s old (.uninstall e) = none := by
      rw [site, hempty, Bool.not_true, Bool.and_false, if_neg Bool.false_ne_true]
    have hlays := lays_end s (.uninstall e) old hplace (Or.inl rfl) (List.forall_mem_nil _)
    rw [List.isEmpty_iff.mp hempty]
    rwa [List.append_nil, append_dropEndBlankLines] at hlays
  · next hempty =>
    obtain ⟨hle, hlt⟩ := lt_length_of_blocks (show first ∈ blocks old by rw [hblocks]; exact List.mem_cons_self)
    have hplace : site s old (.uninstall e) = some first.1 := by
      rw [site, hany, Bool.eq_false_iff.mpr hempty, hblocks]
      rfl
    have hgone : removes s old (.uninstall e) first.1 = true := by
      simp only [hremoves, hblocks, inside_first (Nat.le_of_lt hle), Bool.true_or]
    obtain ⟨l, hpage, hadded, hbefore, hafter, hkeeps⟩ :=
      Layout.exists_layout_replaceFrom (show first.1 < old.length by omega) hgone
        (render ((decode old).filter fun i => !i.holds e s) s.fallbackDelay)
    have hpre := hadded.trans (List.nil_append _).symm
    refine ⟨l, hpage, hkeeps, hadded ▸ addition_render s _ _, ?_⟩
    rw [hplace]
    exact .wrapped hpre (List.forall_mem_nil _) (fun i hi => storable_of_mem_decode hold (List.mem_of_mem_filter hi))
      (by simpa using hbefore) (by simpa using hafter) (absurd · (Option.some_ne_none _))

/-- The page after an uninstall is laid out as `Lays` says. -/
theorem lays_uninstall (hold : ∀ line ∈ old, IsLine line) {removal : Removal} (h : Page.removal old e s = .ok removal) :
    Lays s (.uninstall e) old (removal.apply old s.fallbackDelay) := by
  cases hany : (decode old).any (·.holds e s) with
  | false => exact lays_uninstall_lines h hany
  | true => exact lays_uninstall_item hold h hany

/-- A page without lines is read back as one empty line. -/
theorem Lays.lines_unlines (h : Lays s op old new) (hold : ∀ line ∈ old, IsLine line)
    (label : ∀ e ∈ op.writes?, Unbroken (e.linkLabel s).toList) : Lays s op old (lines (unlines new)) := by
  obtain ⟨l, rfl, hkeeps, hadd, hfits⟩ := h
  by_cases hempty : l.page old = []
  · obtain ⟨hbefore, hadded, hafter⟩ : l.before = [] ∧ l.added = [] ∧ l.after = [] := by simpa [Layout.page] using hempty
    have hplace : op.site s old = none := by
      generalize op.site s old = site at hfits
      cases hfits with
      | plain => rfl
      | wrapped added =>
        rw [hadded] at added
        exact absurd (List.append_eq_nil_iff.mp added.symm).2 (render_ne_nil _ _)
    rw [hempty, show lines (unlines []) = [""] by rfl]
    refine ⟨⟨[], [""], []⟩, rfl, ?_, ⟨[], [], [""], rfl, Or.inl rfl, Or.inl rfl, Or.inr rfl⟩, ?_⟩
    · obtain ⟨tail, htail, hblank⟩ := hkeeps
      exact ⟨tail, by rw [htail, hbefore, hafter], hblank⟩
    · rw [hplace]
      exact .plain (by simp [Unmarked]; decide) (Or.inr rfl)
  · have hkept : ∀ i : Nat, IsLine (old[i]?.getD "") := by
      intro i
      cases hline : old[i]? with
      | none => decide
      | some line => exact hold line (List.mem_of_getElem? hline)
    rw [Text.lines_unlines hempty]
    · exact ⟨l, rfl, hkeeps, hadd, hfits⟩
    · simp only [Layout.page, List.mem_append, List.mem_map]
      rintro line ((⟨i, -, rfl⟩ | hline) | ⟨i, -, rfl⟩)
      · exact hkept i
      · exact isLine_of_addition hadd label hline
      · exact hkept i

end Operation

namespace Manager

/-- Wrappers of a page are told apart from what stands around them. Taking a script away, capturing it or letting it out leaves a page
on which every complete wrapper is the one that has been written or was one before, and no line of the user has got into a wrapper,
unless all markers between two that are kept are removed, a start marker before an end marker: then these two enclose what they did not
enclose before. -/
theorem wrappers_stay_apart_iff (m : Manager) (e : Entry) (op : Operation)
    (hop : op = .uninstall e ∨ (∃ name, op = .capture e name) ∨ op = .decapture e)
    (label : op = .decapture e → Unbroken (e.linkLabel m.settings).toList) (env : Surroundings) (s t : Session) (b : Bool)
    (h : s.run env (op.routine m e.target) = (.ok b, t)) :
    ∃ l : Page.Layout, l.page (m.pageLines s e.target) = m.pageLines t e.target ∧
      l.Keeps (op.removes m.settings (m.pageLines s e.target)) (m.pageLines s e.target) ∧ Addition m.settings op.writes? l.added ∧
      (l.Apart m.settings.fallbackDelay (m.pageLines s e.target) ↔
        ¬Page.Joins (op.removes m.settings (m.pageLines s e.target)) (op.site m.settings (m.pageLines s e.target))
          (m.pageLines s e.target)) := by
  have hold : ∀ line ∈ m.pageLines s e.target, IsLine line := fun _ hline => isLine_of_mem_lines hline
  have hlabel : ∀ e₀ ∈ op.writes?, Unbroken (e₀.linkLabel m.settings).toList := by
    intro e₀ he₀
    rcases hop with rfl | ⟨name, rfl⟩ | rfl
    · nomatch he₀
    · nomatch he₀
    · rw [← Option.some.inj he₀]
      exact label rfl
  obtain ⟨new, hpage, hlays⟩ : ∃ new, m.pageText t e.target = unlines new ∧
      Operation.Lays m.settings op (m.pageLines s e.target) new := by
    rcases hop with rfl | ⟨name, rfl⟩ | rfl
    · obtain ⟨removal, hremoval, hpage, -⟩ := uninstall_ok h
      exact ⟨_, hpage, Operation.lays_uninstall hold hremoval⟩
    · obtain ⟨new, hnew, hpage, -⟩ := capture_ok h
      exact ⟨new, hpage, Operation.lays_capture hold hnew⟩
    · obtain ⟨release, restored, hrelease, hrestored, hpage, -⟩ := decapture_ok h
      exact ⟨_, hpage, Operation.lays_decapture hold hrelease (hrestored.imp And.right And.right)⟩
  obtain ⟨l, hl, hkeeps, hadd, hfits⟩ := hlays.lines_unlines hold hlabel
  have hnew : m.pageLines t e.target = lines (unlines new) := by rw [pageLines, hpage]
  refine ⟨l, hl.trans hnew.symm, hkeeps, hadd, ?_⟩
  exact Page.Layout.apart_iff hkeeps hfits fun r hr hkept k h₁ h₂ => Operation.removes_whole hop hr hkept h₁ h₂

/-- A start marker before a wrapper stays without an end when the wrapper goes. -/
theorem wrappers_stay_apart_iff_unterminated :
    ∃ (m : Manager) (e : Entry) (s t : Session), s.run {} ((Operation.uninstall e).routine m e.target) = (.ok true, t) ∧
      m.pageLines s e.target = ["// SM-CAPTURE-START", "f();", "// SM-CAPTURE-START", "\t\t\tkey: \"local:common:X.js\",",
        "mw.loader.load('X');", "// SM-CAPTURE-END"] ∧
      m.pageLines t e.target = ["// SM-CAPTURE-START", "f();"] ∧
      ∃ l : Page.Layout, l.page (m.pageLines s e.target) = m.pageLines t e.target ∧
        l.Apart m.settings.fallbackDelay (m.pageLines s e.target) := by
  let m : Manager := { settings := { serverName := "a.org", userName := "U" } }
  let e := Entry.ofPage "X.js" (by decide) none "common" false
  let page := ["// SM-CAPTURE-START", "f();", "// SM-CAPTURE-START", "\t\t\tkey: \"local:common:X.js\",", "mw.loader.load('X');",
    "// SM-CAPTURE-END"]
  let left := ["// SM-CAPTURE-START", "f();"]
  let r : Removal := { lines := [], items := some [] }
  let s : Session := { home := { wiki := { pages := [("User:U/common.js", unlines page)] } } }
  have htext : m.pageText s e.target = unlines page := rfl
  have hpage : m.pageLines s e.target = page := pageLines_eq htext (by simp [page]) (by decide +kernel)
  have hremoval : Page.removal page e m.settings = .ok r := by decide +kernel
  have happly : r.apply page m.settings.fallbackDelay = left := by decide +kernel
  have hchanged : unlines page ≠ unlines left := by decide +kernel
  have hstops : ∀ j < page.length, Marker.stop.stands page j = true → (Operation.uninstall e).removes m.settings page j = true := by
    decide +kernel
  have hleft : ∀ line ∈ left, IsLine line := by decide +kernel
  clear_value m e s
  have calm : ({} : Surroundings).Calm := fun _ _ => rfl
  obtain ⟨hrun, hafter⟩ := uninstall_of_removal (r := r) calm (by rw [hpage]; exact hremoval)
    (by rw [hpage, happly, htext]; exact hchanged)
  rw [hpage, happly] at hafter
  obtain ⟨l, hl, hkeeps, hadd, hapart⟩ := wrappers_stay_apart_iff m e (.uninstall e) (Or.inl rfl) nofun {} s _ true hrun
  refine ⟨m, e, s, _, hrun, hpage, pageLines_eq hafter (by simp) hleft, l, hl, hapart.mpr ?_⟩
  rintro ⟨i, j, -, -, hj, -, hstop, -⟩
  rw [hpage] at hstop hj
  rw [hstops j (lt_length_of_stands hstop) hstop] at hj
  nomatch hj

/-- A start marker and an end marker around a wrapper enclose a line of the user once the wrapper between them is gone. -/
theorem uninstall_leaves_a_wrapper_around_a_line :
    ∃ (m : Manager) (e : Entry) (s t : Session), s.run {} (m.uninstall e) = (.ok true, t) ∧
      m.pageLines s e.target = ["// SM-CAPTURE-START", "f();", "// SM-CAPTURE-START", "\t\t\tkey: \"local:common:X.js\",",
        "mw.loader.load('X');", "// SM-CAPTURE-END", "// SM-CAPTURE-END"] ∧
      m.pageLines t e.target = ["// SM-CAPTURE-START", "f();", "// SM-CAPTURE-END"] ∧
      blocks (m.pageLines s e.target) = [(2, 5)] ∧ blocks (m.pageLines t e.target) = [(0, 2)] ∧
      covers (m.pageLines s e.target) 1 = false ∧ covers (m.pageLines t e.target) 1 = true := by
  let m : Manager := { settings := { serverName := "a.org", userName := "U" } }
  let e := Entry.ofPage "X.js" (by decide) none "common" false
  let page := ["// SM-CAPTURE-START", "f();", "// SM-CAPTURE-START", "\t\t\tkey: \"local:common:X.js\",", "mw.loader.load('X');",
    "// SM-CAPTURE-END", "// SM-CAPTURE-END"]
  let left := ["// SM-CAPTURE-START", "f();", "// SM-CAPTURE-END"]
  let r : Removal := { lines := [], items := some [] }
  let s : Session := { home := { wiki := { pages := [("User:U/common.js", unlines page)] } } }
  have htext : m.pageText s e.target = unlines page := rfl
  have hpage : m.pageLines s e.target = page := pageLines_eq htext (by simp [page]) (by decide +kernel)
  have hremoval : Page.removal page e m.settings = .ok r := by decide +kernel
  have happly : r.apply page m.settings.fallbackDelay = left := by decide +kernel
  have hchanged : unlines page ≠ unlines left := by decide +kernel
  have hblocks : blocks page = [(2, 5)] ∧ blocks left = [(0, 2)] := by decide +kernel
  have hcovers : covers page 1 = false ∧ covers left 1 = true := by decide +kernel
  have hleft : ∀ line ∈ left, IsLine line := by decide +kernel
  clear_value m e s
  have calm : ({} : Surroundings).Calm := fun _ _ => rfl
  obtain ⟨hrun, hafter⟩ := uninstall_of_removal (r := r) calm (by rw [hpage]; exact hremoval)
    (by rw [hpage, happly, htext]; exact hchanged)
  rw [hpage, happly] at hafter
  have hnew : m.pageLines (s.run {} (m.uninstall e)).2 e.target = left := pageLines_eq hafter (by simp [left]) hleft
  exact ⟨m, e, s, _, hrun, hpage, hnew, hpage ▸ hblocks.1, hnew ▸ hblocks.2, hpage ▸ hcovers.1, hnew ▸ hcovers.2⟩

end Manager

end UserScripts
