import UserScripts.Proofs.Statement.Shape
import UserScripts.Proofs.Text.Lines
import UserScripts.Proofs.Wrapper.Field
import UserScripts.Proofs.Wrapper.Marker
import UserScripts.Proofs.Wrapper.Render
import UserScripts.Wrapper.Entry

/-!
# Facts about captured entries

The item under which an entry is captured can be read back from the wrapper that it is written to, its statement can never become
a marker, and items with different keys are never taken for one another. Main statements: `tame_statement`, `stable_ofEntry` and
`dedupe_of_stable`.
-/

namespace UserScripts

open UserScripts.Text

/-- An entry whose page, wiki and URL have no blanks around them. -/
structure Entry.Trimmed (e : Entry) : Prop where
  page : ∀ x ∈ e.page, trim x = x
  wiki : ∀ x ∈ e.wiki, trim x = x
  url : ∀ x ∈ e.url, trim x = x

/-- Whether an item is known to load the script of an entry. -/
def Item.holds (i : Item) (e : Entry) (s : Settings) : Bool :=
  match i.loads e s with
  | .ok here => here
  | .error _ => false

/-- An item that is found in a wrapper just as it was written there, under a key of its own. -/
structure Item.Stable (i : Item) : Prop where
  readable : i.Readable
  call : trim i.call = i.call
  key : trim i.key = i.key
  key_ne_empty : i.key ≠ ""

/-! ## Statements and markers -/

namespace Entry

/-- A load call starts with the name of the library. -/
theorem loadCall_toList {e : Entry} {s : Settings} {call : String} (h : e.loadCall s = .ok call) :
    ∃ rest, call.toList = "mw.loader.load(".toList ++ (rest ++ ");".toList) ∧ '\n' ∉ rest := by
  have hunbroken := unbroken_loadCall h
  obtain ⟨css, -, hcall⟩ := loadCall_eq h
  refine ⟨'\'' :: toLiteral (e.loaderUrl s.serverName).toList ++ '\'' :: mediaArgument css, ?_, ?_⟩
  · rw [hcall, show "mw.loader.load('".toList = "mw.loader.load(".toList ++ ['\''] by decide]
    simp
  · intro hmem
    have hin : '\n' ∈ call.toList := by
      rw [hcall, show "mw.loader.load('".toList = "mw.loader.load(".toList ++ ['\''] by decide]
      simp only [List.mem_append, List.mem_cons] at hmem ⊢
      rcases hmem with (hmem | hmem) | hmem | hmem
      · exact absurd hmem (by decide)
      · exact Or.inl (Or.inl (Or.inr hmem))
      · exact absurd hmem (by decide)
      · exact Or.inl (Or.inr (Or.inr hmem))
    exact absurd (hunbroken '\n' hin) (by decide)

/-- A statement can never become a marker, however it is switched off and on. -/
theorem tame_statement {e : Entry} {s : Settings} {text : String} (h : e.statement s = .ok text) : Wrapper.Tame text := by
  obtain ⟨call, hcall, rfl⟩ := statement_eq h
  obtain ⟨rest, hrest, -⟩ := loadCall_toList hcall
  have hcore : Wrapper.core ((if e.disabled then "//" else "") ++ call ++ e.backlink s) = _ :=
    Wrapper.core_of_append (if e.disabled then "//" else "").toList (call.toList ++ (e.backlink s).toList) (by simp)
      (by split <;> simp)
  rw [hrest] at hcore
  exact Wrapper.tame_of_core (c := 'm') hcore (by decide)

end Entry

/-! ## The call of an item -/

namespace Wrapper

/-- A call ends with the last parenthesis of the line if a semicolon follows it. -/
theorem callEnd?_append {s : List Char} (h : '\n' ∉ s) : callEnd? (s ++ ");".toList) = some (s ++ ");".toList) := by
  induction s with
  | nil => decide
  | cons c s ih =>
    simp only [List.mem_cons, not_or] at h
    have hrest := ih h.2
    rw [List.cons_append, callEnd?, hrest]
    split
    · split
      · next rest hd =>
        have hmem : (dropBlank rest).isEmpty = false := by
          -- The last parenthesis is still ahead, so more than blanks follow.
          rw [← Bool.not_eq_true, List.isEmpty_iff]
          intro h0
          obtain ⟨b, hb, hblank⟩ := exists_blank_append_dropBlank (s ++ ");".toList)
          rw [hd] at hb
          have hmem : ')' ∈ b ++ ';' :: rest := by
            rw [← hb]
            exact List.mem_append_right _ (by decide)
          simp only [List.mem_append, List.mem_cons] at hmem
          rcases hmem with hm | hm | hm
          · exact absurd (hblank ')' hm) (by decide)
          · exact absurd hm (by decide)
          · exact absurd (dropBlank_eq_nil.mp h0 ')' hm) (by decide)
        rw [hmem]
        rfl
      · rfl
    · rw [if_neg (Ne.symm h.1)]
      rfl

/-- The call of an entry is read back from its line. -/
theorem extractCall_loadCall {e : Entry} {s : Settings} {call : String} (h : e.loadCall s = .ok call) :
    extractCall call = call := by
  obtain ⟨rest, hrest, hline⟩ := Entry.loadCall_toList h
  have hword : after? "mw".toList call.toList = some (".loader.load(".toList ++ (rest ++ ");".toList)) := by
    rw [after?_eq_some, hrest, ← List.append_assoc]
    rfl
  have htokens : tokens? callTokens (".loader.load(".toList ++ (rest ++ ");".toList)) = some (rest ++ ");".toList) := rfl
  have hread : callOf? call = some call := by
    rw [callOf?, firstPlace_of_some (a := call.toList)]
    · rw [Option.map_some, String.ofList_toList]
    · rw [hword]
      simp only [Option.bind_eq_bind, Option.bind_some, htokens, callEnd?_append hline]
      rw [hrest, List.length_append, Nat.add_sub_cancel, List.take_left]
      rfl
  rw [extractCall, hread]
  rfl

end Wrapper

namespace Item

/-- The call of an entry has no blanks around it. -/
theorem trim_loadCall {e : Entry} {s : Settings} {call : String} (h : e.loadCall s = .ok call) : trim call = call := by
  obtain ⟨rest, hrest, -⟩ := Entry.loadCall_toList h
  refine trim_eq_self ?_ ?_
  · intro c hc
    rw [hrest] at hc
    rw [← Option.some.inj hc]
    decide
  · intro c hc
    rw [hrest, ← List.append_assoc, List.getLast?_append] at hc
    rw [← Option.some.inj hc]
    decide

/-- An item with the load call of an entry can be read back. -/
theorem readable_loadCall {e : Entry} {s : Settings} {call : String} (h : e.loadCall s = .ok call) (key name : String) :
    Readable { key, name, call } := by
  obtain ⟨rest, hrest, -⟩ := Entry.loadCall_toList h
  have htrim := trim_loadCall h
  refine ⟨⟨?_, ?_⟩, ?_⟩
  · rw [htrim]
    intro hmem
    exact absurd (Entry.unbroken_loadCall h '\n' hmem) (by decide)
  · rw [htrim]
    exact Wrapper.extractCall_loadCall h
  · rw [htrim]
    intro h0
    rw [h0] at hrest
    nomatch hrest

/-! ## The key of an item -/

/-- A key is not empty, and it neither starts nor ends with a blank if the fields of the entry have none around them. -/
theorem key_cases (e : Entry) :
    ∃ (c : Char) (kind field : String), (c :: kind.toList ++ ':' :: field.toList) = e.key.toList ∧ isBlank c = false ∧
      field ≠ "" ∧ (some field = e.page ∨ some field = e.url) := by
  have hgiven : ∀ {x : Option String} {y : String}, given x = some y → x = some y ∧ y ≠ "" := by
    intro x y h
    have hx := Option.filter_eq_some_iff.mp h
    exact ⟨hx.1, by simpa using hx.2⟩
  have hpage : given e.url = none → ∃ page, e.page = some page ∧ page ≠ "" := by
    intro hurl
    have hor := e.page_or_url
    rw [hurl] at hor
    obtain ⟨page, hp⟩ := Option.ne_none_iff_exists'.mp (show given e.page ≠ none by simpa using hor)
    exact ⟨page, hgiven hp⟩
  cases hurl : given e.url with
  | some url =>
    obtain ⟨hu, hne⟩ := hgiven hurl
    refine ⟨'u', "rl:" ++ e.target, url, ?_, by decide, hne, Or.inr hu.symm⟩
    simp [Entry.key, Entry.source, hurl]
  | none =>
    obtain ⟨page, hp, hne⟩ := hpage hurl
    cases hwiki : given e.wiki with
    | none =>
      refine ⟨'l', "ocal:" ++ e.target, page, ?_, by decide, hne, Or.inl hp.symm⟩
      simp [Entry.key, Entry.source, hurl, hwiki, hp]
    | some wiki =>
      refine ⟨'r', "emote:" ++ e.target ++ ":" ++ wiki, page, ?_, by decide, hne, Or.inl hp.symm⟩
      simp [Entry.key, Entry.source, hurl, hwiki, hp]

/-- The key of an entry is not empty. -/
theorem key_ne_empty (e : Entry) : e.key ≠ "" := by
  obtain ⟨c, kind, field, hkey, -⟩ := key_cases e
  intro h0
  rw [h0] at hkey
  nomatch hkey

/-- The key of an entry without blanks around its fields has none. -/
theorem trim_key {e : Entry} (h : e.Trimmed) : trim e.key = e.key := by
  obtain ⟨c, kind, field, hkey, hc, hne, hfield⟩ := key_cases e
  refine trim_eq_self ?_ ?_
  · intro x hx
    rw [← hkey] at hx
    rw [← Option.some.inj hx]
    exact hc
  · intro x hx
    have htrim : trim field = field := by
      rcases hfield with hf | hf
      · exact h.page field hf.symm
      · exact h.url field hf.symm
    have hlast : e.key.toList.getLast? = field.toList.getLast? := by
      obtain ⟨y, field', hy⟩ := List.exists_cons_of_ne_nil (show field.toList ≠ [] by simpa using hne)
      rw [← hkey, hy, List.getLast?_append, List.getLast?_cons_cons, ← hy]
      cases hl : field.toList.getLast? with
      | none => rw [List.getLast?_eq_none_iff, hy] at hl; nomatch hl
      | some z => rfl
    rw [hlast] at hx
    exact isBlank_getLast_of_trim htrim hx

/-- The item under which an entry is captured has the call and the key of the entry. -/
theorem ofEntry_ok {e : Entry} {name : Option String} {s : Settings} {i : Item} (h : ofEntry e name s = .ok i) :
    e.loadCall s = .ok i.call ∧ i.key = e.key := by
  unfold ofEntry at h
  cases hc : e.loadCall s with
  | error malformed => rw [hc] at h; cases h
  | ok call =>
    rw [hc] at h
    obtain rfl := Except.ok.inj h
    exact ⟨rfl, rfl⟩

/-- The item of an entry can be read back. -/
theorem readable_ofEntry {e : Entry} {name : Option String} {s : Settings} {i : Item} (h : ofEntry e name s = .ok i) : i.Readable :=
  readable_loadCall (ofEntry_ok h).1 i.key i.name

/-- The item under which an entry is captured has the key of the entry and can be read back. -/
theorem stable_ofEntry {e : Entry} {name : Option String} {s : Settings} {i : Item} (he : e.Trimmed)
    (h : ofEntry e name s = .ok i) : i.key = e.key ∧ i.Stable := by
  obtain ⟨hcall, hkey⟩ := ofEntry_ok h
  refine ⟨hkey, readable_ofEntry h, trim_loadCall hcall, ?_, ?_⟩
  · rw [hkey]
    exact trim_key he
  · rw [hkey]
    exact key_ne_empty e

/-- An item under the key of an entry loads the script of the entry. -/
theorem holds_of_key {i : Item} {e : Entry} (h : i.key = e.key) (s : Settings) : i.holds e s = true := by
  have hkey : i.hasKeyOf e = true := by
    rw [hasKeyOf, h, Entry.identity, beq_self_eq_true, Bool.and_true, bne_iff_ne]
    exact key_ne_empty e
  rw [holds, loads, if_pos hkey]

/-! ## Items that repeat -/

/-- Items that are written as they are read, under keys of their own, are all kept. -/
theorem dedupeFrom_of_stable {items : List Item} (h : ∀ i ∈ items, i.Stable) (hkeys : (items.map Item.key).Nodup)
    {seen : List String} (hseen : ∀ i ∈ items, i.key ∉ seen) : dedupeFrom seen items = items := by
  induction items generalizing seen with
  | nil => rfl
  | cons i items ih =>
    rw [List.map_cons, List.nodup_cons] at hkeys
    have hi := h i List.mem_cons_self
    have hsignature : i.signature = i.key := by rw [signature, hi.key, if_neg hi.key_ne_empty]
    have hnew : seen.contains i.key = false := by simpa using hseen i List.mem_cons_self
    have hrest : dedupeFrom (i.key :: seen) items = items := by
      refine ih (fun j hj => h j (List.mem_cons_of_mem _ hj)) hkeys.2 ?_
      intro j hj
      rw [List.mem_cons, not_or]
      refine ⟨?_, hseen j (List.mem_cons_of_mem _ hj)⟩
      intro heq
      exact hkeys.1 (heq ▸ List.mem_map_of_mem hj)
    rw [dedupeFrom, hsignature, hnew, hrest, if_neg (by simpa using hi.key_ne_empty)]

/-- Items with different keys are never taken for one another. -/
theorem dedupe_of_stable {items : List Item} (h : ∀ i ∈ items, i.Stable) (hkeys : (items.map Item.key).Nodup) :
    dedupe items = items :=
  dedupeFrom_of_stable h hkeys fun _ _ => List.not_mem_nil

/-- An item that is found as it was written is stored as it is. -/
theorem stored_of_stable {i : Item} (h : i.Stable) : i.stored = i := by
  rw [stored, h.call]

end Item

end UserScripts
