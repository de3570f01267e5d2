import UserScripts.Proofs.Manager.CallOnly
import UserScripts.Proofs.Wrapper.Revised

/-!
# Normalizing line by line

Normalizing gives every statement outside the wrappers a new line in its place, and leaves the other lines alone. What is written is
one line, it is no marker, and it is a statement again. So the page keeps its lines in number and in place, and its wrappers with what
they hold. Main statement: `normalize_works_line_by_line`.
-/

namespace UserScripts

open UserScripts.Text

namespace Page

/-- New lines for the statements outside the wrappers leave the wrappers as they are unless one of them is a marker. -/
theorem revised_setLines {R : Nat × Entry → String → Prop} {target : String} {ls new : List String}
    (h : List.Forall₂ R (plainEntries ls target) new) (tame : ∀ {p text}, R p text → Wrapper.Tame text) :
    Wrapper.Revised ls (setLines ls (((plainEntries ls target).map Prod.fst).zip new)) where
  length_eq := length_setLines _ _
  line {i l l'} hl hl' := by
    obtain ⟨hkept, hwritten⟩ := setLines_plainEntries h hl
    rcases line_cases (Wrapper.covers ls) target i l with hsame | ⟨houtside, e, he⟩
    · exact Or.inl (Option.some.inj (hl'.symm.trans (hkept hsame)))
    · obtain ⟨text, htext, hnew⟩ := hwritten e houtside he
      obtain rfl := Option.some.inj (hl'.symm.trans hnew)
      exact Or.inr ⟨houtside, tame_of_ofLine? he, tame htext⟩

end Page

namespace Manager

variable {m : Manager} {target text : String} {e : Entry} {source : Sources} {env : Surroundings} {s t : Session} {b : Bool}

/-- A statement that normalizing writes comes to no marker word, however it is switched. -/
theorem Writes.tame (h : m.Writes source e text) : Wrapper.Tame text := by
  obtain ⟨e', -, hstatement⟩ := h
  exact Entry.tame_statement hstatement

/-- What is written for an entry is a statement again, switched off or on like the entry. -/
theorem Writes.exists_parsed (h : m.Writes source e text) (target : String) :
    ∃ parsed, Entry.ofLine? text target = some parsed ∧ parsed.disabled = e.disabled := by
  obtain ⟨e', hannotated, hstatement⟩ := h
  exact ⟨_, Entry.ofLine?_statement hstatement target, (Entry.target_ofAddress _ _ _ _).2.trans (annotated_ok hannotated).disabled⟩

/-- After a run of normalizing the lines of the page are the old ones with the statements in their places. -/
theorem pageLines_of_normalize (label : ∀ e : Entry, e.target = target → Unbroken (e.linkLabel m.settings).toList)
    (h : s.run env (m.normalize target) = (.ok b, t)) :
    ∃ statements, List.Forall₂ (fun (p : Nat × Entry) statement => m.Writes env.source p.2 statement)
        (Page.plainEntries (m.pageLines s target) target) statements ∧
      m.pageLines t target = Page.setLines (m.pageLines s target)
        (((Page.plainEntries (m.pageLines s target) target).map Prod.fst).zip statements) := by
  have houtcome := outcome_normalize m target env s
  rw [h] at houtcome
  obtain ⟨statements, hall, htext⟩ := normalized_ok houtcome.of_ok
  exact ⟨statements, hall, pageLines_setLines label hall htext⟩

/-- Whenever normalizing returns, the page has as many lines as before. Each line in a complete wrapper and each line that is no
statement stands where it was; each statement outside the wrappers has given way to the one of its entry, with the link that the
documentation names, and that is read as a statement which is switched off exactly if the old one was. The wrappers are where they
were and hold what they held. -/
theorem normalize_works_line_by_line (m : Manager) (target : String)
    (label : ∀ e : Entry, e.target = target → Unbroken (e.linkLabel m.settings).toList) (env : Surroundings) (s t : Session) (b : Bool)
    (h : s.run env (m.normalize target) = (.ok b, t)) :
    (m.pageLines t target).length = (m.pageLines s target).length ∧
      (∀ i line, (m.pageLines s target)[i]? = some line →
        (Wrapper.covers (m.pageLines s target) i = true ∨ Entry.ofLine? line target = none → (m.pageLines t target)[i]? = some line) ∧
        ∀ e, Wrapper.covers (m.pageLines s target) i = false → Entry.ofLine? line target = some e →
          ∃ e' text, m.annotated env.source e = .ok e' ∧ e'.statement m.settings = .ok text ∧ (m.pageLines t target)[i]? = some text ∧
            ∃ parsed, Entry.ofLine? text target = some parsed ∧ parsed.disabled = e.disabled) ∧
      Wrapper.blocks (m.pageLines t target) = Wrapper.blocks (m.pageLines s target) ∧
      Wrapper.decode (m.pageLines t target) = Wrapper.decode (m.pageLines s target) := by
  obtain ⟨statements, hall, hlines⟩ := pageLines_of_normalize label h
  have hrevised : Wrapper.Revised (m.pageLines s target) (m.pageLines t target) := by
    rw [hlines]
    exact Page.revised_setLines hall Writes.tame
  refine ⟨hrevised.length_eq, fun i line hline => ?_, hrevised.blocks, hrevised.decode⟩
  rw [hlines]
  obtain ⟨hkept, hwritten⟩ := Page.setLines_plainEntries hall hline
  refine ⟨hkept, fun e houtside he => ?_⟩
  obtain ⟨text, hwrites, hnew⟩ := hwritten e houtside he
  obtain ⟨e', hannotated, hstatement⟩ := id hwrites
  exact ⟨e', text, hannotated, hstatement, hnew, hwrites.exists_parsed target⟩

/-- A wrapper and a line that is no statement stay, and a statement that is switched off stays so with the link of its documentation. -/
theorem normalize_works_line_by_line_beside_wrapper :
    ∃ (m : Manager) (env : Surroundings) (s t : Session),
      (∀ e : Entry, e.target = "common" → Unbroken (e.linkLabel m.settings).toList) ∧ s.run env (m.normalize "common") = (.ok true, t) ∧
      m.pageLines s "common" = ["// SM-CAPTURE-START", "mw.loader.load( 'X.js' );", "// SM-CAPTURE-END", "f();",
        " //  importScript( \"User:A/x.js\" ) // old"] ∧
      (m.pageLines t "common").length = 5 ∧ (m.pageLines t "common")[1]? = some "mw.loader.load( 'X.js' );" ∧
      (m.pageLines t "common")[3]? = some "f();" ∧
      (m.pageLines t "common")[4]? = some
        "//mw.loader.load('//a.org/w/index.php?title=User:A/x.js&action=raw&ctype=text/javascript'); // label-backlink [[User:A/doc]]" ∧
      Wrapper.blocks (m.pageLines t "common") = [(0, 2)] ∧
      Wrapper.decode (m.pageLines t "common") = [{ call := "mw.loader.load( 'X.js' );" }] := by
  let m : Manager := { settings := { serverName := "a.org", userName := "U" }, linksDocs := true }
  let off := " //  importScript( \"User:A/x.js\" ) // old"
  let call :=
    "//mw.loader.load('//a.org/w/index.php?title=User:A/x.js&action=raw&ctype=text/javascript'); // label-backlink [[User:A/doc]]"
  let page := ["// SM-CAPTURE-START", "mw.loader.load( 'X.js' );", "// SM-CAPTURE-END", "f();", off]
  let env : Surroundings := { source := fun _ _ => .ok "// @documentation User:A/doc" }
  let s : Session := { home := { wiki := { pages := [("User:U/common.js", unlines page)] } } }
  let e := Entry.ofPage "User:A/x.js" (by decide) none "common" true
  let linked := e.withDocLink "User:A/doc"
  have label : ∀ e : Entry, e.target = "common" → Unbroken (e.linkLabel m.settings).toList := by
    intro e he
    rw [Entry.linkLabel, he]
    decide +kernel
  have htext : m.pageText s "common" = unlines page := rfl
  have hrun : (s.run env (m.normalize "common")).1 = .ok true := by decide +kernel
  have hfacts : (∀ l ∈ page, IsLine l) ∧ Wrapper.blocks page = [(0, 2)] ∧
      Wrapper.decode page = [{ call := "mw.loader.load( 'X.js' );" }] ∧ Entry.ofLine? "f();" "common" = none ∧
      Entry.ofLine? off "common" = some e ∧ linked.statement m.settings = .ok call := by decide +kernel
  have hannotated : m.annotated env.source e = .ok linked := by decide +kernel
  clear_value m env s e linked
  obtain ⟨hisLine, hblocks, hdecode, hnone, hoff, hstatement⟩ := hfacts
  have hpage : m.pageLines s "common" = page := pageLines_eq htext (by simp [page]) hisLine
  have hcovers : ∀ i, Wrapper.covers page i = Wrapper.inside [(0, 2)] i := fun i => by rw [Wrapper.covers, hblocks]
  obtain ⟨t, ht⟩ := Session.exists_run_ok hrun
  obtain ⟨hlength, hlines, hplaces, hitems⟩ := normalize_works_line_by_line m "common" label env s t true ht
  rw [hpage] at hlength hlines hplaces hitems
  obtain ⟨e', text, he', htext', hnew, -⟩ := (hlines 4 off rfl).2 e (hcovers 4) hoff
  obtain rfl := Except.ok.inj (hannotated.symm.trans he')
  obtain rfl := Except.ok.inj (hstatement.symm.trans htext')
  exact ⟨m, env, s, t, label, ht, hpage, hlength, (hlines 1 _ rfl).1 (Or.inl (hcovers 1)), (hlines 3 _ rfl).1 (Or.inr hnone), hnew,
    hplaces.trans hblocks, hitems.trans hdecode⟩

end Manager

end UserScripts
