import UserScripts.Proofs.Page.Match
import UserScripts.Proofs.Statement.Settled
import UserScripts.Proofs.Wrapper.Entry
import UserScripts.Proofs.Wrapper.Revised

/-!
# Pages in canonical form

What normalizing makes of the lines of a page, line by line: a statement outside the wrappers gives way to the statement of its
entry, and every other line stays. The markers of the page stay, so the same lines are outside the wrappers afterwards. Main
statements: `rewritten_setLines`, `Rewritten.blocks` and `Rewritten.again`.
-/

namespace UserScripts.Page

open UserScripts.Text

/-- The lines after a rewriting of the statements among lines of which the first has position `i`, apart from those at positions
that satisfy `skip`. -/
inductive Rewritten (skip : Nat → Bool) (target : String) (s : Settings) : Nat → List String → List String → Prop where
  | nil {i : Nat} : Rewritten skip target s i [] []
  | kept {i : Nat} {l : String} {ls new : List String} (kept : skip i = true ∨ Entry.ofLine? l target = none)
    (rest : Rewritten skip target s (i + 1) ls new) : Rewritten skip target s i (l :: ls) (l :: new)
  | written {i : Nat} {l text : String} {e : Entry} {ls new : List String} (outside : skip i = false)
    (statement : Entry.ofLine? l target = some e) (written : e.statement s = .ok text)
    (rest : Rewritten skip target s (i + 1) ls new) : Rewritten skip target s i (l :: ls) (text :: new)

variable {skip : Nat → Bool} {target : String} {s : Settings} {i : Nat} {ls new : List String}

/-- The entries among lines of which the first has position `i`, apart from those at positions that satisfy `skip`. -/
def entriesFrom (skip : Nat → Bool) (target : String) (i : Nat) (ls : List String) : List (Nat × Entry) :=
  (Entry.ofLinesFrom target i ls).filter fun p => !skip p.1

theorem plainEntries_eq (ls : List String) (target : String) : plainEntries ls target = entriesFrom (Wrapper.covers ls) target 0 ls := rfl

/-- A line that is skipped, or that is no statement, has no entry. -/
theorem entriesFrom_kept {l : String} (h : skip i = true ∨ Entry.ofLine? l target = none) (ls : List String) :
    entriesFrom skip target i (l :: ls) = entriesFrom skip target (i + 1) ls := by
  rw [entriesFrom, Entry.ofLinesFrom]
  split
  · next e hl =>
    have hskip : skip i = true := h.resolve_right (by simp [hl])
    rw [List.filter_cons_of_neg (by simp [hskip])]
    rfl
  · rfl

/-- A line that is a statement, and is not skipped, has the first entry. -/
theorem entriesFrom_written {l : String} {e : Entry} (houtside : skip i = false) (hl : Entry.ofLine? l target = some e)
    (ls : List String) : entriesFrom skip target i (l :: ls) = (i, e) :: entriesFrom skip target (i + 1) ls := by
  rw [entriesFrom, Entry.ofLinesFrom, hl]
  exact List.filter_cons_of_pos (by simp [houtside])

/-- A line is kept as it is, or it is a statement that is written anew. -/
theorem line_cases (skip : Nat → Bool) (target : String) (i : Nat) (l : String) :
    (skip i = true ∨ Entry.ofLine? l target = none) ∨ (skip i = false ∧ ∃ e, Entry.ofLine? l target = some e) := by
  cases skip i with
  | true => exact Or.inl (Or.inl rfl)
  | false =>
    cases Entry.ofLine? l target with
    | none => exact Or.inl (Or.inr rfl)
    | some e => exact Or.inr ⟨rfl, e, rfl⟩

/-- A statement that is not skipped is not kept as it is. -/
theorem not_kept {l : String} {e : Entry} (houtside : skip i = false) (hl : Entry.ofLine? l target = some e) :
    ¬(skip i = true ∨ Entry.ofLine? l target = none) := by
  simp [houtside, hl]

/-- The entries among lines have positions from the first line on. -/
theorem le_of_mem_entriesFrom {p : Nat × Entry} (h : p ∈ entriesFrom skip target i ls) : i ≤ p.1 := by
  induction ls generalizing i with
  | nil => exact absurd h List.not_mem_nil
  | cons l ls ih =>
    rcases line_cases skip target i l with hkept | ⟨houtside, e, hl⟩
    · rw [entriesFrom_kept hkept] at h
      exact Nat.le_of_succ_le (ih h)
    · rw [entriesFrom_written houtside hl, List.mem_cons] at h
      rcases h with rfl | h
      · exact Nat.le_refl i
      · exact Nat.le_of_succ_le (ih h)

/-! ## Statements and markers -/

/-- What follows the gap before a statement, of which its core is made out. -/
theorem exists_gap_dropSlashes (line : List Char) : ∃ gap, line = gap ++ dropBlank (Statement.dropSlashes line).2 ∧
    ∀ c ∈ gap, isBlank c = true ∨ c = '/' := by
  obtain ⟨blanks, hblanks, hall⟩ := exists_blank_append_dropBlank line
  unfold Statement.dropSlashes
  split
  · next rest hrest =>
    obtain ⟨more, hmore, hmall⟩ := exists_blank_append_dropBlank rest
    refine ⟨blanks ++ '/' :: '/' :: more, ?_, fun c hc => ?_⟩
    · rw [hblanks, hrest]
      nth_rewrite 1 [hmore]
      simp
    · simp only [List.mem_append, List.mem_cons] at hc
      rcases hc with hc | rfl | rfl | hc
      · exact Or.inl (hall c hc)
      · exact Or.inr rfl
      · exact Or.inr rfl
      · exact Or.inl (hmall c hc)
  · refine ⟨blanks, ?_, fun c hc => Or.inl (hall c hc)⟩
    rw [show dropBlank (dropBlank line) = dropBlank line from List.dropWhile_idempotent isBlank line]
    exact hblanks

/-- Tokens that are read stand there. -/
theorem head_of_tokens? {token : String} {more : List String} {c : Char} {word text rest : List Char} (hword : token.toList = c :: word)
    (h : tokens? (token :: more) text = some rest) : ∃ t, dropBlank text = c :: t := by
  rw [tokens?, Option.bind_eq_some_iff] at h
  obtain ⟨after, hafter, -⟩ := h
  rw [after?_eq_some] at hafter
  exact ⟨word ++ after, by rw [hafter, hword]; rfl⟩

/-- A line that is a statement is no marker, however it is switched off and on. -/
theorem tame_of_ofLine? {line target : String} {e : Entry} (h : Entry.ofLine? line target = some e) : Wrapper.Tame line := by
  obtain ⟨statement, hstatement, -⟩ := Option.map_eq_some_iff.mp h
  obtain ⟨gap, hline, hgap⟩ := exists_gap_dropSlashes line.toList
  cases hslashes : Statement.dropSlashes line.toList with
  | mk disabled ahead =>
    rw [hslashes] at hline
    rw [Statement.ofLine?, hslashes] at hstatement
    have hcore := Wrapper.core_of_append gap _ hline hgap
    have htame : ∀ {c : Char} {t : List Char}, dropBlank ahead = c :: t → (isBlank c || c == '/') = false → c ≠ 'S' →
        Wrapper.Tame line := by
      intro c t hword hplain hc
      rw [hword, List.dropWhile_cons_of_neg (by simp [hplain])] at hcore
      exact Wrapper.tame_of_core hcore hc
    simp only at hstatement
    split at hstatement
    · next htokens =>
      obtain ⟨t, ht⟩ := head_of_tokens? (c := 'i') rfl htokens
      exact htame ht (by decide) (by decide)
    · split at hstatement
      · next htokens =>
        obtain ⟨t, ht⟩ := head_of_tokens? (c := 'm') rfl htokens
        exact htame ht (by decide) (by decide)
      · cases hstatement

/-! ## Setting lines -/

/-- New lines at some positions, among lines of which the first has position `i`. -/
def setLinesFrom (table : List (Nat × String)) (i : Nat) (ls : List String) : List String :=
  ls.mapIdx fun j l => (table.lookup (i + j)).getD l

/-- Setting lines of a page is setting them from position zero on. -/
theorem setLines_eq (ls : List String) (table : List (Nat × String)) : setLines ls table = setLinesFrom table 0 ls := by
  simp only [setLines, setLinesFrom, Nat.zero_add]

/-- Setting lines goes line by line. -/
theorem setLinesFrom_cons (table : List (Nat × String)) (i : Nat) (l : String) (ls : List String) :
    setLinesFrom table i (l :: ls) = (table.lookup i).getD l :: setLinesFrom table (i + 1) ls := by
  simp only [setLinesFrom, List.mapIdx_cons, Nat.add_zero, Nat.add_comm, Nat.add_left_comm]

/-- A position below all those of a table has no line in it. -/
theorem lookup_eq_none {table : List (Nat × String)} (h : ∀ p ∈ table, i < p.1) : table.lookup i = none := by
  rw [List.lookup_eq_none_iff]
  intro p hp
  have hlt := h p hp
  rw [bne_iff_ne]
  omega

/-- A new line before the first position does not count. -/
theorem setLinesFrom_of_lt {table : List (Nat × String)} {j : Nat} (text : String) (h : j < i) (ls : List String) :
    setLinesFrom ((j, text) :: table) i ls = setLinesFrom table i ls := by
  refine List.ext_getElem (by simp [setLinesFrom]) fun k h₁ h₂ => ?_
  have hne : (i + k == j) = false := beq_eq_false_iff_ne.mpr (by omega)
  simp only [setLinesFrom, List.getElem_mapIdx, List.lookup_cons, hne]

/-- The statements of the entries, each in its place, make a rewriting. -/
theorem rewritten_setLinesFrom {statements : List String}
    (h : List.Forall₂ (fun (p : Nat × Entry) statement => p.2.statement s = .ok statement) (entriesFrom skip target i ls) statements) :
    Rewritten skip target s i ls (setLinesFrom (((entriesFrom skip target i ls).map Prod.fst).zip statements) i ls) := by
  induction ls generalizing i statements with
  | nil => exact .nil
  | cons l ls ih =>
    rw [setLinesFrom_cons]
    rcases line_cases skip target i l with hkept | ⟨houtside, e, hl⟩
    · rw [entriesFrom_kept hkept] at h ⊢
      have hnone : (((entriesFrom skip target (i + 1) ls).map Prod.fst).zip statements).lookup i = none := by
        refine lookup_eq_none fun p hp => ?_
        obtain ⟨q, hq, hqp⟩ := List.mem_map.mp (List.of_mem_zip hp).1
        exact hqp ▸ le_of_mem_entriesFrom hq
      rw [hnone]
      exact .kept hkept (ih h)
    · rw [entriesFrom_written houtside hl] at h ⊢
      cases h with
      | cons hstatement hrest =>
        rw [List.map_cons, List.zip_cons_cons, setLinesFrom_of_lt _ (Nat.lt_succ_self i)]
        have hfirst : ∀ {text : String} {table : List (Nat × String)}, ((i, text) :: table).lookup i = some text := by
          simp
        rw [hfirst]
        exact .written houtside hl hstatement (ih hrest)

/-- Setting the statements of the entries of a page rewrites the page. -/
theorem rewritten_setLines {statements : List String}
    (h : List.Forall₂ (fun (p : Nat × Entry) statement => p.2.statement s = .ok statement) (plainEntries ls target) statements) :
    Rewritten (Wrapper.covers ls) target s 0 ls (setLines ls (((plainEntries ls target).map Prod.fst).zip statements)) := by
  rw [setLines_eq]
  exact rewritten_setLinesFrom h

namespace Rewritten

/-! ## Rewritings -/

/-- In a rewriting every entry has a statement. -/
theorem statements (h : Rewritten skip target s i ls new) : ∃ statements,
    List.Forall₂ (fun (p : Nat × Entry) statement => p.2.statement s = .ok statement) (entriesFrom skip target i ls) statements := by
  induction h with
  | nil => exact ⟨[], .nil⟩
  | kept kept _ ih =>
    rw [entriesFrom_kept kept]
    exact ih
  | written outside statement written _ ih =>
    obtain ⟨statements, hrest⟩ := ih
    rw [entriesFrom_written outside statement]
    exact ⟨_ :: statements, .cons written hrest⟩

/-- Every entry that is rewritten comes from a statement and has one. -/
theorem exists_statement (h : Rewritten skip target s i ls new) {p : Nat × Entry} (hp : p ∈ entriesFrom skip target i ls) :
    ∃ line text, Entry.ofLine? line target = some p.2 ∧ p.2.statement s = .ok text := by
  induction h with
  | nil => exact absurd hp List.not_mem_nil
  | kept kept _ ih =>
    rw [entriesFrom_kept kept] at hp
    exact ih hp
  | written outside statement written _ ih =>
    rw [entriesFrom_written outside statement, List.mem_cons] at hp
    rcases hp with rfl | hp
    · exact ⟨_, _, statement, written⟩
    · exact ih hp

/-- There is one rewriting at most. -/
theorem unique {new' : List String} (h : Rewritten skip target s i ls new) (h' : Rewritten skip target s i ls new') : new = new' := by
  induction h generalizing new' with
  | nil =>
    cases h'
    rfl
  | kept kept _ ih =>
    cases h' with
    | kept _ rest => rw [ih rest]
    | written outside statement _ _ => exact absurd kept (not_kept outside statement)
  | written outside statement written _ ih =>
    cases h' with
    | kept kept _ => exact absurd kept (not_kept outside statement)
    | written _ statement' written' rest =>
      obtain rfl := Option.some.inj (statement.symm.trans statement')
      rw [ih rest, Except.ok.inj (written.symm.trans written')]

/-- A rewriting of lines consists of lines, if no label has a line break. -/
theorem isLine (h : Rewritten skip target s i ls new) (label : ∀ e : Entry, e.target = target → Unbroken (e.linkLabel s).toList)
    (hlines : ∀ l ∈ ls, IsLine l) : ∀ l ∈ new, IsLine l := by
  induction h with
  | nil => exact hlines
  | kept _ _ ih =>
    rw [List.forall_mem_cons] at hlines ⊢
    exact ⟨hlines.1, ih hlines.2⟩
  | @written i l text e _ _ _ statement written _ ih =>
    rw [List.forall_mem_cons] at hlines ⊢
    have htarget : e.target = target := target_of_ofLine? statement
    exact ⟨Entry.isLine_statement (label e htarget) rfl written, ih hlines.2⟩

/-- A rewriting has as many lines as before. -/
theorem length_eq (h : Rewritten skip target s i ls new) : new.length = ls.length := by
  induction h with
  | nil => rfl
  | kept _ _ ih => rw [List.length_cons, List.length_cons, ih]
  | written _ _ _ _ ih => rw [List.length_cons, List.length_cons, ih]

/-- Neither a statement nor what it gives way to is a marker. -/
theorem marks (h : Rewritten skip target s i ls new) :
    List.Forall₂ (fun l l' => ∀ m : Wrapper.Marker, m.marks l' = m.marks l) ls new := by
  induction h with
  | nil => exact .nil
  | kept _ _ ih => exact .cons (fun _ => rfl) ih
  | written _ statement written _ ih =>
    exact .cons (fun m => by rw [(tame_of_ofLine? statement).marks, (Entry.tame_statement written).marks]) ih

/-- The markers of the page stay in their places. -/
theorem blocks (h : Rewritten skip target s 0 ls new) : Wrapper.blocks new = Wrapper.blocks ls :=
  Wrapper.rangesFrom_congr h.marks

/-- A rewritten page is rewritten to itself exactly if every entry stays as it is. -/
theorem again (h : Rewritten skip target s i ls new) :
    Rewritten skip target s i new new ↔ ∀ p ∈ entriesFrom skip target i ls, p.2.Settled s := by
  induction h with
  | nil => exact iff_of_true .nil fun _ hp => absurd hp List.not_mem_nil
  | kept kept _ ih =>
    rw [entriesFrom_kept kept, ← ih]
    constructor
    · intro h
      cases h with
      | kept _ rest => exact rest
      | written _ _ _ rest => exact rest
    · exact .kept kept
  | @written i l text e _ _ outside statement written _ ih =>
    have htarget : e.target = target := target_of_ofLine? statement
    have hread : Entry.ofLine? text target = some (e.reread s) := by
      rw [Entry.ofLine?_statement written, Entry.reread, htarget]
    rw [entriesFrom_written outside statement, List.forall_mem_cons, ← ih, Entry.Settled, written]
    constructor
    · intro h
      cases h with
      | kept kept _ => exact absurd kept (not_kept outside hread)
      | written _ statement' written' rest =>
        obtain rfl := Option.some.inj (hread.symm.trans statement')
        exact ⟨written', rest⟩
    · rintro ⟨settled, rest⟩
      exact .written outside hread settled rest

end Rewritten

end UserScripts.Page
