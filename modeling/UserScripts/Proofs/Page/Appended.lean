import UserScripts.Proofs.Page.Off

/-!
# A statement at the end of a page

A new statement comes after the last line of a page that is not blank. What is sent is an addition if the page goes on from where it
ends, and the whole text otherwise. If the page did not load the script, the new line is all that has to go when the script is removed
again. Main statements: `install_eq` and `removal_appended`.
-/

namespace UserScripts

open UserScripts.Text

/-- A statement starts with its first slash or with its call. -/
theorem Entry.exists_toList_statement {e : Entry} {s : Settings} {text : String} (h : e.statement s = .ok text) :
    ∃ c rest, text.toList = c :: rest ∧ isBlank c = false := by
  obtain ⟨call, hcall, rfl⟩ := statement_eq h
  obtain ⟨rest, hrest, -⟩ := loadCall_toList hcall
  rw [String.toList_append, String.toList_append, hrest]
  cases e.disabled with
  | true => exact ⟨'/', _, rfl, by decide⟩
  | false => exact ⟨'m', _, rfl, by decide⟩

namespace Page

variable {ls : List String} {e : Entry} {s : Settings} {text : String}

/-- The text of a page without the blank lines at its end. -/
def body (ls : List String) : String :=
  unlines (dropEndBlankLines ls)

/-! ## What precedes the statement -/

/-- The text of lines is empty exactly if there is no line, or only an empty one. -/
theorem unlines_eq_empty : unlines ls = "" ↔ ls = [] ∨ ls = [""] := by
  constructor
  · intro h
    rcases ls with _ | ⟨l, _ | ⟨next, more⟩⟩
    · exact Or.inl rfl
    · rw [unlines_singleton] at h
      rw [h]
      exact Or.inr rfl
    · have htoList := congrArg String.toList h
      rw [unlines_cons_cons] at htoList
      simp at htoList
  · rintro (rfl | rfl) <;> rfl

/-- A page has no text apart from the blanks at its end exactly if all its lines are blank. -/
theorem body_eq_empty : body ls = "" ↔ dropEndBlankLines ls = [] := by
  rw [body, unlines_eq_empty]
  refine or_iff_left fun h => ?_
  have hidem := dropEndBlankLines_idem ls
  rw [h] at hidem
  exact absurd hidem (by decide)

/-- The text with a statement at its end, spelled out: what the page has without the blank lines at its end, and a line of its
own. -/
theorem withStatement_eq_ite (ls : List String) (text : String) :
    withStatement ls text = (if body ls = "" then "" else body ls ++ "\n") ++ text ++ "\n" := by
  simp only [withStatement, body_eq_empty, List.isEmpty_iff]
  rw [body]

/-- The text of the lines that are left once the statement is gone. -/
theorem unlines_dropEndBlankLines_concat (ls : List String) :
    unlines (dropEndBlankLines ls ++ [""]) = if body ls = "" then "" else body ls ++ "\n" := by
  by_cases hnil : dropEndBlankLines ls = []
  · rw [if_pos (body_eq_empty.mpr hnil), hnil]
    rfl
  · rw [if_neg fun h => hnil (body_eq_empty.mp h), unlines_append hnil (List.cons_ne_nil _ _), unlines_singleton, String.append_empty]
    rfl

/-- Blank lines that are not empty start with a blank. -/
theorem exists_toList_of_blank (h : ∀ l ∈ ls, isBlankLine l = true) (hne : unlines ls ≠ "") :
    ∃ c rest, (unlines ls).toList = c :: rest ∧ isBlank c = true := by
  have hblank := List.countP_eq_zero.mp (countP_unlines_of_blank h)
  cases hlist : (unlines ls).toList with
  | nil => exact absurd (String.toList_eq_nil_iff.mp hlist) hne
  | cons c rest =>
    rw [hlist] at hblank
    exact ⟨c, rest, rfl, by simpa using hblank c List.mem_cons_self⟩

/-- Nothing that starts with a blank goes on as a statement. -/
theorem not_prefix_of_blank {a b : List Char} (ha : ∃ c rest, a = c :: rest ∧ isBlank c = true)
    (hb : ∃ c rest, b = c :: rest ∧ isBlank c = false) : ¬a <+: b := by
  obtain ⟨c, rest, rfl, hc⟩ := ha
  obtain ⟨d, rest', rfl, hd⟩ := hb
  intro h
  rw [(List.cons_prefix_cons.mp h).1, hd] at hc
  cases hc

/-- The last character of a text whose last line is not empty is that of the line. -/
theorem getLast?_unlines_concat {last : String} (h : last ≠ "") (init : List String) :
    (unlines (init ++ [last])).toList.getLast? = last.toList.getLast? := by
  have hne : last.toList ≠ [] := fun hnil => h (String.toList_eq_nil_iff.mp hnil)
  cases init with
  | nil => rw [List.nil_append, unlines_singleton]
  | cons l init =>
    rw [unlines_append (List.cons_ne_nil _ _) (List.cons_ne_nil _ _), unlines_singleton, String.toList_append,
      List.getLast?_append_of_ne_nil _ hne]

/-- What is left of a page without its blank lines at the end does not end with a line feed. -/
theorem getLast?_body (hlines : ∀ l ∈ ls, IsLine l) : (body ls).toList.getLast? ≠ some '\n' := by
  rw [body]
  rcases List.eq_nil_or_concat (dropEndBlankLines ls) with hnil | ⟨init, last, hlast⟩
  · rw [hnil]
    decide
  · rw [List.concat_eq_append] at hlast
    have hshown : last ≠ "" := by
      rintro rfl
      have hidem := dropEndBlankLines_idem ls
      rw [hlast, dropEndBlankLines_eq, List.rdropWhile_concat_pos _ _ _ (by decide)] at hidem
      have hlength := (List.rdropWhile_prefix isBlankLine (l := init)).length_le
      rw [hidem, List.length_append, List.length_singleton] at hlength
      omega
    have hmem : last ∈ ls := mem_of_mem_dropEndBlankLines (by rw [hlast]; simp)
    rw [hlast, getLast?_unlines_concat hshown]
    exact fun h => hlines last hmem (List.mem_of_getLast? h)

/-! ## The edit -/

/-- A page that ends with a line feed is extended by what is new. -/
theorem extend_append {old added : String} (hne : old ≠ "") (hlast : old.toList.getLast? = some '\n') :
    extend old (old ++ added) = .append added := by
  rw [extend, if_neg hne, if_pos hlast, String.toList_append, after?_append]
  exact congrArg Change.append String.ofList_toList

/-- A page that does not end with a line feed, or is not continued, is replaced. -/
theorem extend_eq_replace {old new : String} (hne : old ≠ "") (h : old.toList.getLast? = some '\n' → ¬old.toList <+: new.toList) :
    extend old new = .replace new := by
  rw [extend, if_neg hne]
  split
  · next hlast =>
    split
    · next added hadded => exact absurd ⟨added, (after?_eq_some.mp hadded).symm⟩ (h hlast)
    · rfl
  · rfl

/-- A statement is sent as an addition if the page is empty, or if it ends with the line feed after its last line that is not blank; else
the whole text is sent. -/
theorem install_eq (hlines : ∀ l ∈ ls, IsLine l) (hstart : ∃ c rest, text.toList = c :: rest ∧ isBlank c = false) :
    install ls text =
      if unlines ls = "" ∨ body ls ≠ "" ∧ unlines ls = body ls ++ "\n" then .append (text ++ "\n")
      else .replace (withStatement ls text) := by
  rw [install]
  by_cases hempty : unlines ls = ""
  · have hbody : body ls = "" := by
      rw [body_eq_empty]
      rcases unlines_eq_empty.mp hempty with rfl | rfl <;> rfl
    rw [if_pos (Or.inl hempty), extend, if_pos hempty, withStatement_eq_ite, if_pos hbody, String.empty_append]
  obtain ⟨tail, htail, hblank⟩ := exists_dropEndBlankLines_append ls
  have hshown : ∃ c rest, (text ++ "\n").toList = c :: rest ∧ isBlank c = false := by
    obtain ⟨c, rest, htext, hc⟩ := hstart
    exact ⟨c, rest ++ ['\n'], by rw [String.toList_append, htext]; rfl, hc⟩
  by_cases hbody : body ls = ""
  · rw [if_neg (not_or.mpr ⟨hempty, fun h => h.1 hbody⟩)]
    refine extend_eq_replace hempty fun _ => ?_
    rw [body_eq_empty.mp hbody, List.nil_append] at htail
    rw [withStatement_eq_ite, if_pos hbody, String.empty_append]
    exact not_prefix_of_blank (exists_toList_of_blank (htail ▸ hblank) hempty) hshown
  have hwith : withStatement ls text = body ls ++ "\n" ++ (text ++ "\n") := by
    rw [withStatement_eq_ite, if_neg hbody, String.append_assoc]
  by_cases hone : unlines ls = body ls ++ "\n"
  · rw [if_pos (Or.inr ⟨hbody, hone⟩), hwith, ← hone]
    refine extend_append hempty ?_
    rw [hone, String.toList_append]
    exact List.getLast?_concat
  · rw [if_neg (not_or.mpr ⟨hempty, fun h => hone h.2⟩), hwith]
    refine extend_eq_replace hempty fun hlast => ?_
    have hkept : dropEndBlankLines ls ≠ [] := fun hnil => hbody (body_eq_empty.mpr hnil)
    by_cases hnil : tail = []
    · rw [hnil, List.append_nil] at htail
      exact absurd (by rw [body, ← htail]; exact hlast) (getLast?_body hlines)
    · have hpage : unlines ls = body ls ++ "\n" ++ unlines tail := by
        conv_lhs => rw [htail]
        exact unlines_append hkept hnil
      have hmore : unlines tail ≠ "" := fun h => hone (by rw [hpage, h, String.append_empty])
      rw [hpage, String.toList_append, String.toList_append (s := body ls ++ "\n"), List.prefix_append_right_inj]
      exact not_prefix_of_blank (exists_toList_of_blank hblank hmore) hshown

/-! ## The statement removed again -/

/-- The only line with some property, outside what is skipped, is one that was added. -/
theorem positionsOf_appended {p : String → Bool} {skip : Nat → Bool} (hls : ∀ l ∈ ls, p l = false) (htext : p text = true)
    (hskip : skip ls.length = false) {more : List String} (hmore : ∀ l ∈ more, p l = false) :
    positionsOf p skip (ls ++ text :: more) = [ls.length] := by
  have hnone : ∀ {ms : List String}, (∀ l ∈ ms, p l = false) → ∀ start,
      ((ms.zipIdx start).filter fun l => !skip l.2 && p l.1) = [] := by
    intro ms hms start
    rw [List.filter_eq_nil_iff]
    intro l hl
    rw [hms _ (List.fst_mem_of_mem_zipIdx hl), Bool.and_false]
    decide
  rw [positionsOf, List.zipIdx_append, List.filter_append, hnone hls, List.nil_append, List.zipIdx_cons, List.filter_cons_of_pos,
    hnone hmore, List.map_singleton, Nat.zero_add]
  simp [htext, hskip]

/-- On a page that did not load a script, removing the script after its statement has been added takes off that line and nothing else. -/
theorem removal_appended (missing : isInstalled ls e s = .ok false) (tame : Wrapper.Tame text) (hloads : byStatement e s text = true) :
    removal (dropEndBlankLines ls ++ [text, ""]) e s = .ok { lines := [(dropEndBlankLines ls).length], items := none } := by
  rw [isInstalled_eq_ite] at missing
  split at missing
  · cases missing
  · next hnone =>
    have hadded : Wrapper.Unmarked [text, ""] :=
      Wrapper.unmarked_append (Wrapper.unmarked_of_tame tame) (Wrapper.unmarked_of_tame (by decide))
    have hkept : ∀ l ∈ dropEndBlankLines ls, byStatement e s l = false := by
      intro l hl
      have hl' : loadsScript e s l = false := by
        rw [List.any_eq_true, not_exists] at hnone
        simpa [mem_of_mem_dropEndBlankLines hl] using hnone l
      exact (Bool.or_eq_false_iff.mp hl').1
    have hblank : byStatement e s "" = false := (Bool.or_eq_false_iff.mp (loadsScript_of_blank (by decide) e s)).1
    have hstatements : statementLines (dropEndBlankLines ls ++ [text, ""]) e s
        (Wrapper.inside (Wrapper.blocks (dropEndBlankLines ls ++ [text, ""]))) = [(dropEndBlankLines ls).length] := by
      rw [statementLines_eq]
      exact positionsOf_appended hkept hloads (Wrapper.covers_end hadded 0) (by simpa using hblank)
    have hplain : plainLines (dropEndBlankLines ls ++ [text, ""]) e s
        (Wrapper.inside (Wrapper.blocks (dropEndBlankLines ls ++ [text, ""]))) = [(dropEndBlankLines ls).length] := by
      rw [plainLines, hstatements]
    have hdecode : Wrapper.decode (dropEndBlankLines ls ++ [text, ""]) = Wrapper.decode ls := by
      rw [Wrapper.decode_eq, Wrapper.decode_eq, Wrapper.blockLines_end hadded]
    rw [removal, hplain, hdecode, splitItems_of_anyLoads missing]
    rfl

/-- Removing the line of the statement leaves the lines before it and the empty one after it. -/
theorem apply_appended (kept : List String) (text : String) (delay : Int) :
    Removal.apply { lines := [kept.length], items := none } (kept ++ [text, ""]) delay = kept ++ [""] := by
  have hkept : dropLinesFrom (fun i => [kept.length].contains i) 0 kept = kept := dropLinesFrom_eq_self fun j _ hj => by
    simp
    omega
  rw [Removal.apply, Text.dropLines, dropLinesFrom_append, hkept]
  simp [dropLinesFrom]

end Page

end UserScripts
