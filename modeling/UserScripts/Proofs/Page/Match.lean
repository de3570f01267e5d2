import UserScripts.Page.Change
import UserScripts.Proofs.Text.Lines
import UserScripts.Proofs.Wrapper.Marker

/-!
# Facts about the lines of a script

The lines that are found for a script are not among those to be skipped, and switching a line off or on changes nothing but the
slashes before it. Main statements: `skip_of_mem_plainLines`, `inside_of_mem_plainEntries` and `core_switchLine`.
-/

namespace UserScripts.Page

open UserScripts.Text

/-! ## Positions -/

/-- A line that is skipped does not load a script by its title. -/
theorem skip_of_mem_titleLinesFrom {page target : String} {skip : Nat → Bool} {ls : List String} {i j : Nat}
    (h : j ∈ titleLinesFrom page target skip i ls) : skip j = false := by
  induction ls generalizing i with
  | nil => nomatch h
  | cons l ls ih =>
    rw [titleLinesFrom] at h
    split at h
    · next hl =>
      rcases List.mem_cons.mp h with rfl | h
      · simpa using (Bool.and_eq_true_iff.mp hl).1
      · exact ih h
    · exact ih h

/-- A line that is skipped is no statement of a script. -/
theorem skip_of_mem_statementLines {ls : List String} {e : Entry} {s : Settings} {skip : Nat → Bool} {i : Nat}
    (h : i ∈ statementLines ls e s skip) : skip i = false := by
  obtain ⟨p, hp, rfl⟩ := List.mem_map.mp h
  have hskip := (List.mem_filter.mp hp).2
  simpa using (Bool.and_eq_true_iff.mp hskip).1

/-- No line that is found for a script is to be skipped. -/
theorem skip_of_mem_plainLines {ls : List String} {e : Entry} {s : Settings} {skip : Nat → Bool} {i : Nat}
    (h : i ∈ plainLines ls e s skip) : skip i = false := by
  unfold plainLines at h
  split at h
  · unfold titleLines at h
    split at h
    · exact skip_of_mem_titleLinesFrom h
    · nomatch h
  · exact skip_of_mem_statementLines h

/-- No statement of a page stands inside its complete wrappers. -/
theorem inside_of_mem_plainEntries {ls : List String} {target : String} {p : Nat × Entry} (h : p ∈ plainEntries ls target) :
    Wrapper.inside (Wrapper.blocks ls) p.1 = false := by
  have hp := (List.mem_filter.mp h).2
  simpa using hp

/-- What an entry has from its statement whatever its address is; no statement names the documentation of its script. -/
theorem entry_of_statement (st : Statement) (target : String) :
    (st.entry target).target = target ∧ (st.entry target).docLink = none ∧ (st.entry target).disabled = st.disabled := by
  unfold Statement.entry Entry.ofAddress
  split
  · exact ⟨rfl, rfl, rfl⟩
  · split
    · split <;> exact ⟨rfl, rfl, rfl⟩
    · exact ⟨rfl, rfl, rfl⟩

/-- The entry of a statement has the target of its page. -/
theorem target_of_ofLine? {line target : String} {e : Entry} (h : Entry.ofLine? line target = some e) : e.target = target := by
  obtain ⟨st, -, rfl⟩ := Option.map_eq_some_iff.mp h
  exact (entry_of_statement st target).1

/-- The entry of a statement has no link to documentation. -/
theorem docLink_of_ofLine? {line target : String} {e : Entry} (h : Entry.ofLine? line target = some e) : e.docLink = none := by
  obtain ⟨st, -, rfl⟩ := Option.map_eq_some_iff.mp h
  exact (entry_of_statement st target).2.1

/-- The entries that are read from a page come from its lines. -/
theorem exists_line_of_mem_ofLinesFrom {target : String} {start : Nat} {ls : List String} {p : Nat × Entry}
    (h : p ∈ Entry.ofLinesFrom target start ls) : ∃ line ∈ ls, Entry.ofLine? line target = some p.2 := by
  induction ls generalizing start with
  | nil => nomatch h
  | cons l ls ih =>
    have hrest : p ∈ Entry.ofLinesFrom target (start + 1) ls → ∃ line ∈ l :: ls, Entry.ofLine? line target = some p.2 := fun h =>
      (ih h).imp fun line => And.imp_left (List.mem_cons_of_mem l)
    rw [Entry.ofLinesFrom] at h
    split at h
    · next e he =>
      rcases List.mem_cons.mp h with rfl | h
      · exact ⟨l, List.mem_cons_self, he⟩
      · exact hrest h
    · exact hrest h

/-- The statements of a page stand on its lines. -/
theorem exists_line_of_mem_plainEntries {ls : List String} {target : String} {p : Nat × Entry} (h : p ∈ plainEntries ls target) :
    ∃ line ∈ ls, Entry.ofLine? line target = some p.2 :=
  exists_line_of_mem_ofLinesFrom (List.mem_filter.mp h).1

/-- The statements of a page are those of its target. -/
theorem target_of_mem_plainEntries {ls : List String} {target : String} {p : Nat × Entry} (h : p ∈ plainEntries ls target) :
    p.2.target = target := by
  obtain ⟨line, -, hline⟩ := exists_line_of_mem_plainEntries h
  exact target_of_ofLine? hline

/-- A line that is set is one of the new lines, at one of the positions for them. -/
theorem mem_of_lookup_zip {positions : List Nat} {new : List String} {i : Nat} {l : String}
    (h : (positions.zip new).lookup i = some l) : i ∈ positions ∧ l ∈ new := by
  induction positions generalizing new with
  | nil => nomatch h
  | cons p positions ih =>
    cases new with
    | nil => nomatch h
    | cons m new =>
      rw [List.zip_cons_cons, List.lookup_cons] at h
      split at h
      · next hp =>
        rw [← Option.some.inj h, eq_of_beq hp]
        exact ⟨List.mem_cons_self, List.mem_cons_self⟩
      · obtain ⟨hi, hl⟩ := ih h
        exact ⟨List.mem_cons_of_mem _ hi, List.mem_cons_of_mem _ hl⟩

/-! ## Switching -/

/-- Two lines that differ only in the blanks and slashes before the same rest have the same core. -/
theorem core_eq_core {line other : String} (gap gap' rest : List Char) (h : line.toList = gap ++ rest)
    (h' : other.toList = gap' ++ rest) (hgap : ∀ c ∈ gap, isBlank c = true ∨ c = '/')
    (hgap' : ∀ c ∈ gap', isBlank c = true ∨ c = '/') : Wrapper.core other = Wrapper.core line := by
  rw [Wrapper.core_of_append gap' rest h' hgap', Wrapper.core_of_append gap rest h hgap]

/-- Switching a line off leaves what follows the blanks and slashes at its start. -/
theorem core_disableLine (line : String) : Wrapper.core (disableLine line) = Wrapper.core line := by
  have hblank : ∀ c ∈ takeBlank line.toList, isBlank c = true ∨ c = '/' := fun c hc => Or.inl (isBlank_of_mem_takeBlank hc)
  refine core_eq_core (takeBlank line.toList) (takeBlank line.toList ++ "//".toList) (dropBlank line.toList)
    (takeBlank_append_dropBlank line.toList).symm ?_ hblank ?_
  · rw [disableLine, String.toList_ofList]
  · intro c hc
    rcases List.mem_append.mp hc with hc | hc
    · exact hblank c hc
    · exact Or.inr (by simpa using hc)

/-- Switching a line on leaves what follows the blanks and slashes at its start. -/
theorem core_enableLine (line : String) : Wrapper.core (enableLine line) = Wrapper.core line := by
  have hline := takeBlank_append_dropBlank line.toList
  have hblank : ∀ c ∈ takeBlank line.toList, isBlank c = true ∨ c = '/' := fun c hc => Or.inl (isBlank_of_mem_takeBlank hc)
  have hgap : ∀ mark : List Char, (∀ c ∈ mark, isBlank c = true ∨ c = '/') → ∀ c ∈ takeBlank line.toList ++ mark,
      isBlank c = true ∨ c = '/' := by
    intro mark hmark c hc
    rcases List.mem_append.mp hc with hc | hc
    · exact hblank c hc
    · exact hmark c hc
  unfold enableLine
  split
  · next rest hd =>
    rw [hd] at hline
    exact core_eq_core (takeBlank line.toList ++ ['/', '/', ' ']) (takeBlank line.toList) rest (hline.symm.trans (by simp))
      String.toList_ofList (hgap _ (by decide)) hblank
  · next rest _ hd =>
    rw [hd] at hline
    exact core_eq_core (takeBlank line.toList ++ ['/', '/']) (takeBlank line.toList) rest (hline.symm.trans (by simp))
      String.toList_ofList (hgap _ (by decide)) hblank
  · rfl

/-- A line keeps its core when it is switched off or on. -/
theorem core_switchLine (disabled : Bool) (line : String) : Wrapper.core (switchLine disabled line) = Wrapper.core line := by
  unfold switchLine
  split
  · split
    · rfl
    · exact core_disableLine line
  · exact core_enableLine line

/-- Switching a line off or on does not break it. -/
theorem isLine_switchLine (disabled : Bool) {line : String} (h : IsLine line) : IsLine (switchLine disabled line) := by
  have hline := takeBlank_append_dropBlank line.toList
  have hparts : '\n' ∉ takeBlank line.toList ∧ '\n' ∉ dropBlank line.toList := by
    rw [IsLine, ← hline, List.mem_append, not_or] at h
    exact h
  unfold switchLine
  split
  · split
    · exact h
    · rw [IsLine, disableLine, String.toList_ofList, List.mem_append, List.mem_append, not_or, not_or]
      exact ⟨⟨hparts.1, by decide⟩, hparts.2⟩
  · unfold enableLine
    split
    · next rest hd =>
      rw [hd] at hparts
      rw [IsLine, String.toList_ofList, List.mem_append, not_or]
      exact ⟨hparts.1, fun hmem => hparts.2 (by simp [hmem])⟩
    · next rest _ hd =>
      rw [hd] at hparts
      rw [IsLine, String.toList_ofList, List.mem_append, not_or]
      exact ⟨hparts.1, fun hmem => hparts.2 (by simp [hmem])⟩
    · exact h

end UserScripts.Page
