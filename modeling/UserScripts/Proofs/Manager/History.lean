import UserScripts.Proofs.Manager.Effects
import UserScripts.Proofs.Page.Match
import UserScripts.Proofs.Page.Wrapper

/-!
# The history of a wrapper

What any sequence of operations on a target makes of its wrapper, if nobody else writes markers: the page always has at most one
wrapper, written as its items say, and the items follow from the operations alone. Main definitions: `Operation.Follows`, what an
operation makes of the items, and `Manager.after`, the session after a sequence of operations. Main statements: `holds_step`, one
operation, and `wrapper_intact_after`, any sequence of them.
-/

namespace UserScripts

open UserScripts.Text

namespace Operation

/-- An operation on a target about an entry of that target, whose fields have no blanks around them. -/
def IsOn (target : String) (op : Operation) : Prop :=
  ∀ e ∈ op.entry?, e.target = target ∧ e.Trimmed

/-- What an operation makes of the items of a page. Capturing a script puts its item after those of the other scripts, under the
name that is asked for or the name of the item that held it before. Uninstalling a script or letting it out takes its items away.
Nothing else changes the items, and a failure does not either. -/
def Follows (s : Settings) (op : Operation) (outcome : Except Failure Bool) (old new : List Item) : Prop :=
  match op, outcome with
  | .capture e name, .ok _ =>
    ∃ item, Item.ofEntry e (Page.captureName name (old.filter (·.holds e s))) s = .ok item ∧
      new = (old.filter fun i => !i.holds e s) ++ [item]
  | .uninstall e, .ok _ => new = old.filter fun i => !i.holds e s
  | .decapture e, .ok _ => new = old.filter fun i => !i.holds e s
  | _, _ => new = old

/-- An operation that fails leaves the items as they are. -/
theorem follows_error (s : Settings) (op : Operation) (failure : Failure) (items : List Item) :
    op.Follows s (.error failure) items items := by
  cases op <;> rfl

end Operation

namespace Manager

variable {m : Manager} {target : String} {env : Surroundings} {s t : Session} {items : List Item}

/-! ## One operation -/

/-- What a page holds can be told from the lines that are written to it. -/
theorem holds_of_pageText {new : List String} (hpage : m.pageText t target = unlines new)
    (h : Page.Holds m.settings.fallbackDelay items new) : Page.Holds m.settings.fallbackDelay items (m.pageLines t target) := by
  rw [pageLines, hpage]
  exact h.lines_unlines

/-- A statement for a target is a line outside wrappers. -/
theorem outside_statement {e : Entry} {text : String}
    (label : ∀ e : Entry, e.target = target → Unbroken (e.linkLabel m.settings).toList) (ht : e.target = target)
    (h : e.statement m.settings = .ok text) : Page.Outside text :=
  ⟨Entry.tame_statement h, Entry.isLine_statement (label e ht) rfl h⟩

/-- Items that stay what they are do so without those of a script. -/
theorem stable_filter {s : Settings} {e : Entry} (h : ∀ i ∈ items, i.Stable) :
    ∀ i ∈ items.filter fun i => !i.holds e s, i.Stable :=
  fun i hi => h i (List.mem_filter.mp hi).1

/-- Items with keys of their own have them without those of a script. -/
theorem keys_filter {s : Settings} {e : Entry} (h : (items.map Item.key).Nodup) :
    ((items.filter fun i => !i.holds e s).map Item.key).Nodup :=
  h.sublist (List.filter_sublist.map Item.key)

/-- The item of an entry can join the items of other scripts. -/
theorem keys_concat {s : Settings} {e : Entry} {item : Item} (h : (items.map Item.key).Nodup) (hkey : item.key = e.key) :
    (((items.filter fun i => !i.holds e s) ++ [item]).map Item.key).Nodup := by
  rw [List.map_append, List.nodup_append]
  refine ⟨keys_filter h, by simp, ?_⟩
  intro key hmem key' hmem' heq
  obtain ⟨i, hi, hik⟩ := List.mem_map.mp hmem
  have hkey' : key' = item.key := by simpa using hmem'
  have hholds := Item.holds_of_key (i := i) (e := e) (by rw [hik, heq, hkey', hkey]) s
  have hnot := (List.mem_filter.mp hi).2
  rw [hholds] at hnot
  nomatch hnot

/-- The step lemma for an install: the wrapper holds the items that it held. -/
theorem holds_install {e : Entry} {b : Bool} (label : ∀ e : Entry, e.target = target → Unbroken (e.linkLabel m.settings).toList)
    (ht : e.target = target) (h : Page.Holds m.settings.fallbackDelay items (m.pageLines s target))
    (hrun : s.run env (m.install e) = (.ok b, t)) : Page.Holds m.settings.fallbackDelay items (m.pageLines t target) := by
  obtain ⟨-, hsame, hedit⟩ := install_ok hrun
  rw [ht] at hsame hedit
  cases b with
  | false =>
    rw [pageLines, hsame rfl]
    exact h
  | true =>
    obtain ⟨e', text, hann, htext, hpage⟩ := hedit rfl
    rw [← unlines_pageLines m s, Page.apply_install] at hpage
    refine holds_of_pageText hpage (h.concat ?_)
    intro l hl
    simp only [List.mem_cons, List.not_mem_nil, or_false] at hl
    rcases hl with rfl | rfl
    · exact outside_statement label (hann.target.trans ht) htext
    · exact ⟨by decide, by decide⟩

/-- The step lemma for an uninstall: the wrapper holds the items that it held without those of the script. -/
theorem holds_uninstall {e : Entry} {b : Bool} (ht : e.target = target)
    (h : Page.Holds m.settings.fallbackDelay items (m.pageLines s target)) (hrun : s.run env (m.uninstall e) = (.ok b, t)) :
    Page.Holds m.settings.fallbackDelay (items.filter fun i => !i.holds e m.settings) (m.pageLines t target) := by
  obtain ⟨removal, hremoval, hpage, -⟩ := uninstall_ok hrun
  rw [ht] at hremoval hpage
  refine holds_of_pageText hpage ?_
  obtain ⟨hlines, hitems⟩ := Page.removal_ok hremoval
  rw [h.decode] at hitems
  cases hany : items.any (·.holds e m.settings) with
  | true =>
    rw [hany, if_pos rfl] at hitems
    simp only [Removal.apply, hitems]
    exact h.replace (stable_filter h.stable) (keys_filter h.keys) _
  | false =>
    rw [hany, if_neg Bool.false_ne_true] at hitems
    have hsame : (items.filter fun i => !i.holds e m.settings) = items := by
      rw [List.filter_eq_self]
      intro i hi
      simpa using List.any_eq_false.mp hany i hi
    simp only [Removal.apply, hitems, hsame, hlines]
    refine h.dropLines ?_
    intro i hi
    rw [← Bool.not_eq_true, List.contains_iff_mem]
    intro hmem
    rw [Page.skip_of_mem_plainLines hmem] at hi
    cases hi

/-- The step lemma for switching a script: the wrapper holds the items that it held. -/
theorem holds_setDisabled {e : Entry} {disabled b : Bool} (ht : e.target = target)
    (h : Page.Holds m.settings.fallbackDelay items (m.pageLines s target))
    (hrun : s.run env (m.setDisabled e disabled) = (.ok b, t)) : Page.Holds m.settings.fallbackDelay items (m.pageLines t target) := by
  obtain ⟨new, hnew, hpage, -⟩ := setDisabled_ok hrun
  rw [ht] at hnew hpage
  refine holds_of_pageText hpage ?_
  rw [Page.setDisabled_ok hnew]
  refine h.mapIdx ?_ ?_
  · intro i l hl
    split
    · refine ⟨?_, Page.isLine_switchLine disabled hl.isLine⟩
      rw [Wrapper.Tame, Page.core_switchLine]
      exact hl.tame
    · exact hl
  · intro i l hi
    refine if_neg ?_
    rw [List.contains_iff_mem]
    intro hmem
    rw [Page.skip_of_mem_plainLines hmem] at hi
    cases hi

/-- Of two lists that belong together, each member of the second one belongs to one of the first one. -/
theorem exists_of_mem_forall₂ {α β : Type} {R : α → β → Prop} {l : List α} {l' : List β} (h : List.Forall₂ R l l') {b : β}
    (hb : b ∈ l') : ∃ a ∈ l, R a b := by
  induction h with
  | nil => nomatch hb
  | @cons x y _ _ hxy _ ih =>
    rcases List.mem_cons.mp hb with rfl | hb
    · exact ⟨x, List.mem_cons_self, hxy⟩
    · obtain ⟨a, ha, hR⟩ := ih hb
      exact ⟨a, List.mem_cons_of_mem _ ha, hR⟩

/-- The step lemma for normalizing: the wrapper holds the items that it held. -/
theorem holds_normalize {b : Bool} (label : ∀ e : Entry, e.target = target → Unbroken (e.linkLabel m.settings).toList)
    (h : Page.Holds m.settings.fallbackDelay items (m.pageLines s target)) (hrun : s.run env (m.normalize target) = (.ok b, t)) :
    Page.Holds m.settings.fallbackDelay items (m.pageLines t target) := by
  obtain ⟨statements, hstatements, hpage, -⟩ := normalize_ok hrun
  refine holds_of_pageText hpage ?_
  have houtside : ∀ l ∈ statements, Page.Outside l := by
    intro l hl
    obtain ⟨p, hp, e', hann, htext⟩ := exists_of_mem_forall₂ hstatements hl
    exact outside_statement label (hann.target.trans (Page.target_of_mem_plainEntries hp)) htext
  refine h.mapIdx ?_ ?_
  · intro i l hl
    cases hlookup : (((Page.plainEntries (m.pageLines s target) target).map Prod.fst).zip statements).lookup i with
    | none => exact hl
    | some new => exact houtside new (Page.mem_of_lookup_zip hlookup).2
  · intro i l hi
    cases hlookup : (((Page.plainEntries (m.pageLines s target) target).map Prod.fst).zip statements).lookup i with
    | none => rfl
    | some new =>
      obtain ⟨p, hp, rfl⟩ := List.mem_map.mp (Page.mem_of_lookup_zip hlookup).1
      rw [Page.inside_of_mem_plainEntries hp] at hi
      cases hi

/-- The step lemma for a capture: the item of the script comes after those of the other scripts. -/
theorem holds_capture {e : Entry} {name : Option String} {b : Bool} (ht : e.target = target) (he : e.Trimmed)
    (h : Page.Holds m.settings.fallbackDelay items (m.pageLines s target)) (hrun : s.run env (m.capture e name) = (.ok b, t)) :
    ∃ item, Item.ofEntry e (Page.captureName name (items.filter (·.holds e m.settings))) m.settings = .ok item ∧
      Page.Holds m.settings.fallbackDelay ((items.filter fun i => !i.holds e m.settings) ++ [item]) (m.pageLines t target) := by
  obtain ⟨new, hnew, hpage, -⟩ := capture_ok hrun
  rw [ht] at hnew hpage
  obtain ⟨item, hitem, hshape⟩ := Page.capture_ok hnew
  rw [h.decode] at hitem hshape
  obtain ⟨hkey, hstable⟩ := Item.stable_ofEntry he hitem
  refine ⟨item, hitem, holds_of_pageText hpage ?_⟩
  rw [hshape]
  refine Page.holds_append ?_ (keys_concat h.keys hkey) (h.outside_dropLines ?_) _
  · intro i hi
    rcases List.mem_append.mp hi with hi | hi
    · exact stable_filter h.stable i hi
    · rw [List.mem_singleton.mp hi]
      exact hstable
  · intro i hi
    rw [hi, Bool.or_true]

/-- The step lemma for a decapture: the wrapper holds the items that it held without those of the script. -/
theorem holds_decapture {e : Entry} {b : Bool} (label : ∀ e : Entry, e.target = target → Unbroken (e.linkLabel m.settings).toList)
    (ht : e.target = target) (h : Page.Holds m.settings.fallbackDelay items (m.pageLines s target))
    (hrun : s.run env (m.decapture e) = (.ok b, t)) :
    Page.Holds m.settings.fallbackDelay (items.filter fun i => !i.holds e m.settings) (m.pageLines t target) := by
  obtain ⟨release, restored, hrelease, hrestored, hpage, -⟩ := decapture_ok hrun
  rw [ht] at hrelease hpage
  obtain ⟨-, hkept, hitems⟩ := Page.release_ok hrelease
  rw [h.decode] at hitems
  refine holds_of_pageText hpage ?_
  have houtside : ∀ l ∈ release.kept, Page.Outside l := by
    rw [hkept]
    exact Page.outside_dropEndBlankLines (h.outside_dropLines fun i hi => hi)
  have hrestored' : ∀ l ∈ restored, Page.Outside l := by
    rcases hrestored with ⟨-, rfl⟩ | ⟨-, e', text, hann, htext, rfl⟩
    · exact houtside
    · intro l hl
      rcases List.mem_append.mp hl with hl | hl
      · exact houtside l hl
      · rw [List.mem_singleton.mp hl]
        exact outside_statement label (hann.target.trans ht) htext
  rw [hitems]
  exact Page.holds_append (stable_filter h.stable) (keys_filter h.keys) hrestored' _

variable (env) in
/-- Every operation on a target keeps its wrapper intact, and makes of its items what `Operation.Follows` says. -/
theorem holds_step {op : Operation} {outcome : Except Failure Bool}
    (label : ∀ e : Entry, e.target = target → Unbroken (e.linkLabel m.settings).toList) (hon : op.IsOn target)
    (h : Page.Holds m.settings.fallbackDelay items (m.pageLines s target))
    (hrun : s.run env (op.routine m target) = (outcome, t)) :
    ∃ new, Page.Holds m.settings.fallbackDelay new (m.pageLines t target) ∧ op.Follows m.settings outcome items new := by
  cases outcome with
  | error failure =>
    have hsame := pageText_of_text (m := m) (Operation.careful m target op env s t failure hrun) target
    refine ⟨items, ?_, Operation.follows_error m.settings op failure items⟩
    rw [pageLines, hsame]
    exact h
  | ok b =>
    cases op with
    | install e => exact ⟨items, holds_install label (hon e rfl).1 h hrun, rfl⟩
    | uninstall e => exact ⟨_, holds_uninstall (hon e rfl).1 h hrun, rfl⟩
    | setDisabled e disabled => exact ⟨items, holds_setDisabled (hon e rfl).1 h hrun, rfl⟩
    | normalize => exact ⟨items, holds_normalize label h hrun, rfl⟩
    | capture e name =>
      obtain ⟨item, hitem, hnew⟩ := holds_capture (hon e rfl).1 (hon e rfl).2 h hrun
      exact ⟨_, hnew, item, hitem, rfl⟩
    | decapture e => exact ⟨_, holds_decapture label (hon e rfl).1 h hrun, rfl⟩

/-! ## Sequences of operations -/

/-- The session after operations on a target, one after the other, each in surroundings of its own. -/
def after (m : Manager) (target : String) (s : Session) : List (Surroundings × Operation) → Session
  | [] => s
  | (env, op) :: rest => after m target (s.run env (op.routine m target)).2 rest

/-- Operations on a target keep its wrapper intact. -/
theorem exists_holds_after (label : ∀ e : Entry, e.target = target → Unbroken (e.linkLabel m.settings).toList)
    {ops : List (Surroundings × Operation)} (hops : ∀ x ∈ ops, x.2.IsOn target)
    (h : Page.Holds m.settings.fallbackDelay items (m.pageLines s target)) :
    ∃ new, Page.Holds m.settings.fallbackDelay new (m.pageLines (m.after target s ops) target) := by
  induction ops generalizing s items with
  | nil => exact ⟨items, h⟩
  | cons x ops ih =>
    obtain ⟨env, op⟩ := x
    obtain ⟨new, hnew, -⟩ := holds_step env label (hops _ List.mem_cons_self) h rfl
    exact ih (fun y hy => hops y (List.mem_cons_of_mem _ hy)) hnew

/-- A page without markers holds no items. -/
theorem holds_of_not_infix (h : ¬"SM-CAPTURE".toList <:+: (m.pageText s target).toList) :
    Page.Holds m.settings.fallbackDelay [] (m.pageLines s target) := by
  refine .bare ?_
  intro l hl
  refine ⟨Wrapper.tame_of_not_infix ?_, isLine_of_mem_lines hl⟩
  intro hsub
  obtain ⟨piece, hpiece, rfl⟩ := List.mem_map.mp hl
  have hlist : (String.ofList piece).toList = piece := String.toList_ofList
  rw [hlist] at hsub
  exact h (hsub.trans (infix_of_mem_splitOn hpiece))

/-- The wrapper of a target is intact after any sequence of operations. From a page without markers, and whatever calls to the
wikis fail, after every step the page has no wrapper and no items, or one wrapper, which is written as its items say. The items
follow from the operations: `Operation.Follows` says what each further step makes of them. -/
theorem wrapper_intact_after (m : Manager) (target : String)
    (label : ∀ e : Entry, e.target = target → Unbroken (e.linkLabel m.settings).toList) (s : Session)
    (clean : ¬"SM-CAPTURE".toList <:+: (m.pageText s target).toList) (ops : List (Surroundings × Operation))
    (hops : ∀ x ∈ ops, x.2.IsOn target) :
    Wrapper.decode (m.pageLines s target) = [] ∧
      Page.Intact m.settings.fallbackDelay (m.pageLines (m.after target s ops) target) ∧
      ∀ env (op : Operation), op.IsOn target →
        Page.Intact m.settings.fallbackDelay (m.pageLines ((m.after target s ops).run env (op.routine m target)).2 target) ∧
        op.Follows m.settings ((m.after target s ops).run env (op.routine m target)).1
          (Wrapper.decode (m.pageLines (m.after target s ops) target))
          (Wrapper.decode (m.pageLines ((m.after target s ops).run env (op.routine m target)).2 target)) := by
  have hstart : Page.Holds m.settings.fallbackDelay [] (m.pageLines s target) := holds_of_not_infix clean
  obtain ⟨items, hitems⟩ := exists_holds_after label hops hstart
  refine ⟨hstart.decode, hitems.intact, ?_⟩
  intro env op hon
  obtain ⟨new, hnew, hfollows⟩ := holds_step env label hon hitems rfl
  refine ⟨hnew.intact, ?_⟩
  rw [hitems.decode, hnew.decode]
  exact hfollows

/-- A script is installed, captured under a name and let out again while the wiki refuses some calls. -/
theorem wrapper_intact_after_capture :
    ∃ (m : Manager) (s : Session) (e : Entry) (refuse : Surroundings),
      let ops := [({}, Operation.install e), (refuse, Operation.capture e (some "X")), ({}, Operation.capture e (some "X")),
        ({}, Operation.decapture e)]
      (∀ e : Entry, e.target = "common" → Unbroken (e.linkLabel m.settings).toList) ∧
      ¬"SM-CAPTURE".toList <:+: (m.pageText s "common").toList ∧ (∀ x ∈ ops, x.2.IsOn "common") ∧
      Page.Intact m.settings.fallbackDelay (m.pageLines (m.after "common" s ops) "common") := by
  let m : Manager := { settings := { serverName := "en.wikipedia.org", userName := "U" } }
  let wiki : Wiki := { pages := [("User:U/common.js", "foo();")] }
  let s : Session := { home := { wiki } }
  let e := Entry.ofPage "User:A/x.js" (by decide) none "common" false
  let refuse : Surroundings := { outage := fun _ _ => some "refused" }
  have label : ∀ e : Entry, e.target = "common" → Unbroken (e.linkLabel m.settings).toList := by
    intro e he
    rw [Entry.linkLabel, he]
    decide +kernel
  have clean : ¬"SM-CAPTURE".toList <:+: (m.pageText s "common").toList := by decide +kernel
  have trimmed : e.target = "common" ∧ e.Trimmed := by
    refine ⟨rfl, ?_, ?_, ?_⟩
    · decide +kernel
    · decide +kernel
    · decide +kernel
  have hops : ∀ x ∈ [(({} : Surroundings), Operation.install e), (refuse, Operation.capture e (some "X")),
      ({}, Operation.capture e (some "X")), ({}, Operation.decapture e)], x.2.IsOn "common" := by
    intro x hx e' he'
    simp only [List.mem_cons, List.not_mem_nil, or_false] at hx
    rcases hx with rfl | rfl | rfl | rfl <;> exact Option.some.inj he' ▸ trimmed
  exact ⟨m, s, e, refuse, label, clean, hops, (wrapper_intact_after m "common" label s clean _ hops).2.1⟩

end Manager

end UserScripts
