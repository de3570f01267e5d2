import UserScripts.Proofs.Page.Off

/-!
# A script captured and let out again

What capturing makes of a page without a wrapper, and what letting the script out makes of that. The statements of the script go, the
other lines stay, and the wrapper with its one item comes after them, whatever markers stand among them. Main statements: `capture_eq`,
`decode_captured` and `release_captured`.
-/

namespace UserScripts

open UserScripts.Text

namespace Item

/-- A text of nothing but blanks is empty once it is trimmed. -/
theorem trim_of_removeBlank {s : String} (h : removeBlank s = "") : trim s = "" := by
  have hblank : ∀ c ∈ s.toList, isBlank c = true := by
    have hnil := congrArg String.toList h
    rw [removeBlank, String.toList_ofList] at hnil
    simpa using List.filter_eq_nil_iff.mp hnil
  rw [trim, dropBlank, List.dropWhile_eq_nil_iff.mpr hblank]
  rfl

/-- An item with a call can be told apart from others. -/
theorem Readable.signature_ne_empty {i : Item} (h : i.Readable) : i.signature ≠ "" := by
  rw [signature]
  split
  · exact fun hcall => h.ne_empty (trim_of_removeBlank hcall)
  · assumption

/-- A single item has no duplicate. -/
theorem dedupe_singleton {i : Item} (h : i.Readable) : dedupe [i] = [i] :=
  dedupe_eq_self ⟨by simpa using h.signature_ne_empty, by simp⟩

/-- The item of an entry can be written. -/
theorem storable_of_ofEntry {e : Entry} {name : Option String} {s : Settings} {item : Item} (h : ofEntry e name s = .ok item) :
    ∀ i ∈ [item], i.Storable := by
  intro i hi
  rw [List.mem_singleton.mp hi]
  exact (readable_ofEntry h).toStorable

/-- An empty name is as good as none. -/
theorem ofEntry_given (e : Entry) (name : Option String) (s : Settings) : ofEntry e (given name) s = ofEntry e name s := by
  cases name with
  | none => rfl
  | some name =>
    by_cases h : name = ""
    · subst h
      rfl
    · rw [given, Option.filter_some, if_pos (by simpa using h)]

end Item

namespace Page

variable {ls new : List String} {e : Entry} {s : Settings} {name : Option String} {item : Item} {skip : Nat → Bool}

/-- The lines of a page that are no statements of a script. -/
def otherLines (ls : List String) (e : Entry) (s : Settings) : List String :=
  ls.filter fun line => !byStatement e s line

/-- A page on which a script is captured: the other lines without the blank ones at their end, and the wrapper. -/
def captured (ls : List String) (e : Entry) (item : Item) (s : Settings) : List String :=
  dropEndBlankLines (otherLines ls e s) ++ Wrapper.separator (dropEndBlankLines (otherLines ls e s)) ++
    Wrapper.render [item] s.fallbackDelay

/-- Lines that are dropped by their positions are dropped by what they say, where each position stands for that. -/
theorem dropLinesFrom_eq_filter {p : String → Bool} {drop : Nat → Bool} {i : Nat}
    (h : ∀ j line, ls[j]? = some line → drop (i + j) = p line) : dropLinesFrom drop i ls = ls.filter fun line => !p line := by
  induction ls generalizing i with
  | nil => rfl
  | cons l ls ih =>
    have hl : drop i = p l := h 0 l rfl
    have hrest : dropLinesFrom drop (i + 1) ls = ls.filter fun line => !p line := by
      refine ih fun j line hline => ?_
      rw [Nat.add_assoc, Nat.add_comm 1 j]
      exact h (j + 1) line hline
    rw [dropLinesFrom, hl, hrest, List.filter_cons]
    cases p l <;> rfl

/-! ## The lines that stay -/

/-- A blank line between the page and its wrapper is one of the blank lines at its end. -/
theorem dropEndBlankLines_separator (kept : List String) :
    dropEndBlankLines (dropEndBlankLines kept ++ Wrapper.separator (dropEndBlankLines kept)) = dropEndBlankLines kept := by
  rcases Wrapper.separator_cases (dropEndBlankLines kept) with h | h
  · rw [h, List.append_nil, dropEndBlankLines_idem]
  · rw [h, dropEndBlankLines_eq, List.rdropWhile_concat_pos _ _ _ (by decide), ← dropEndBlankLines_eq, dropEndBlankLines_idem]

section

variable (native : ∀ wiki page, e.source ≠ .foreign wiki page)

include native

/-- Only a page of another wiki is looked for by its title. -/
theorem byTitle_of_native (line : String) : byTitle e line = false := by
  unfold byTitle
  split
  · next wiki page hsource => exact absurd hsource (native wiki page)
  · rfl

/-- The lines that load a script which is on no other wiki are its statements. -/
theorem plainLines_of_native : plainLines ls e s skip = statementLines ls e s skip := by
  have hnone : titleLines ls e skip = [] := by
    rw [titleLines_eq, positionsOf_eq_nil]
    exact fun _ line _ _ => byTitle_of_native native line
  unfold plainLines
  split
  · next h => rw [hnone, h]
  · rfl

/-- No statement of the script is left among the other lines. -/
theorem plainLines_otherLines : plainLines (dropEndBlankLines (otherLines ls e s)) e s skip = [] := by
  rw [plainLines_eq_nil]
  intro i line hline _
  have hmem := mem_of_mem_dropEndBlankLines (List.mem_of_getElem? hline)
  rw [loadsScript, byTitle_of_native native line, Bool.or_false]
  simpa using (List.mem_filter.mp hmem).2

end

/-! ## Capturing and letting out -/

section

variable (noWrapper : Wrapper.blocks ls = [])

include noWrapper

/-- Capturing a script on a page without a wrapper takes off its statements and adds the wrapper of its item. -/
theorem capture_eq (native : ∀ wiki page, e.source ≠ .foreign wiki page) (h : capture ls e name s = .ok new) :
    ∃ item, Item.ofEntry e name s = .ok item ∧ new = captured ls e item s := by
  obtain ⟨item, hitem, rfl⟩ := capture_ok h
  have hdecode : Wrapper.decode ls = [] := by
    rw [Wrapper.decode, noWrapper]
    rfl
  have hname : captureName name [] = given name := by
    rw [captureName]
    cases given name <;> rfl
  have hkept : dropLines (fun i => (plainOf ls e s).contains i || Wrapper.inside (Wrapper.blocks ls) i) ls = otherLines ls e s := by
    -- without a wrapper, a line goes exactly if it is a statement of the script
    refine dropLinesFrom_eq_filter fun j line hline => ?_
    rw [noWrapper, plainOf, noWrapper, plainLines_of_native native, statementLines_eq, Nat.zero_add, Bool.eq_iff_iff]
    simp [mem_positionsOf, Wrapper.inside, hline]
  rw [hdecode, List.filter_nil, hname, Item.ofEntry_given] at hitem
  refine ⟨item, hitem, ?_⟩
  rw [hdecode, hkept, List.filter_nil, List.nil_append, Wrapper.append_eq (List.cons_ne_nil _ _), captured, List.append_assoc]

/-- No wrapper is complete before the one that is added. -/
theorem blocks_before (e : Entry) (s : Settings) : Wrapper.blocks
    (dropEndBlankLines (otherLines ls e s) ++ Wrapper.separator (dropEndBlankLines (otherLines ls e s))) = [] :=
  (Wrapper.blocks_append_of_unmarked _ (Wrapper.unmarked_separator _)).trans
    (Wrapper.blocks_of_sublist ((List.rdropWhile_prefix isBlankLine _).sublist.trans List.filter_sublist) noWrapper)

/-- Nor with a statement in its place. -/
theorem blocks_released {text : String} (tame : Wrapper.Tame text) :
    Wrapper.blocks (dropEndBlankLines (otherLines ls e s) ++ [text]) = [] :=
  (Wrapper.blocks_append_of_unmarked _ (Wrapper.unmarked_of_tame tame)).trans
    (Wrapper.blocks_of_sublist (List.sublist_append_left _ _) (blocks_before noWrapper e s))

section

variable (hitem : Item.ofEntry e name s = .ok item)

include hitem

/-- The page then has one wrapper. -/
theorem exists_blocks_captured : ∃ r, Wrapper.blocks (captured ls e item s) = [r] ∧
    Wrapper.linesOf (captured ls e item s) r = Wrapper.render [item] s.fallbackDelay := by
  have storable := Item.storable_of_ofEntry hitem
  exact ⟨_, Wrapper.blocks_after storable (blocks_before noWrapper e s) s.fallbackDelay, Wrapper.linesOf_after s.fallbackDelay⟩

/-- The item that is read from it is the one that was written. -/
theorem decode_captured : Wrapper.decode (captured ls e item s) = [item] := by
  have readable := Item.readable_ofEntry hitem
  have storable := Item.storable_of_ofEntry hitem
  have hstored : item.stored = item := by rw [Item.stored, Item.trim_loadCall (Item.ofEntry_ok hitem).1]
  rw [captured, Wrapper.decode_after storable (blocks_before noWrapper e s), List.filter_cons_of_pos readable.hasCall, List.filter_nil, List.map_singleton,
    hstored, Item.dedupe_singleton readable]

/-- Letting the script out leaves the other lines and no item. -/
theorem release_captured : release (captured ls e item s) e s =
    .ok { kept := dropEndBlankLines (otherLines ls e s), items := [] } := by
  obtain ⟨hcall, hkey⟩ := Item.ofEntry_ok hitem
  have storable := Item.storable_of_ofEntry hitem
  have hholds := Item.holds_of_key hkey s
  have hlines : dropEndBlankLines (dropLines (Wrapper.inside (Wrapper.blocks (captured ls e item s))) (captured ls e item s)) =
      dropEndBlankLines (otherLines ls e s) := by
    rw [captured, Wrapper.dropLines_after storable (blocks_before noWrapper e s), dropEndBlankLines_separator]
  obtain ⟨r, hblocks, -⟩ := exists_blocks_captured noWrapper hitem
  rw [release, hlines, decode_captured noWrapper hitem, splitItems_eq fun other _ => loads_eq_holds hcall other]
  simp [hblocks, hholds]
  rfl

end

end

end Page

end UserScripts
