import UserScripts.Proofs.Wrapper.Decoded
import UserScripts.Proofs.Wrapper.Exact

/-!
# Where an item was read

Every item of a page has been read from the lines of one range. That is a complete item, or a wrapper without item markers, unless
none of the items of a wrapper can be read: then the wrapper is read as a whole, and the key of one item may come with the call of
another one. Main statements: `mem_decode_iff` and `items_are_read_from_one_place_iff`.
-/

namespace UserScripts

open UserScripts.Text

/-! ## Items, each once -/

namespace Item

variable {seen seen' : List String} {items : List Item} {i : Item}

/-- Which items are kept depends on the signatures so far, not on their order or on how often they came. -/
theorem dedupeFrom_congr (h : ∀ text, text ≠ "" → (text ∈ seen ↔ text ∈ seen')) : dedupeFrom seen items = dedupeFrom seen' items := by
  induction items generalizing seen seen' with
  | nil => rfl
  | cons j items ih =>
    rw [dedupeFrom, dedupeFrom]
    by_cases hempty : j.signature = ""
    · simp only [hempty, decide_true, Bool.true_or, if_true]
      exact ih h
    · have hcontains : seen.contains j.signature = seen'.contains j.signature := by
        rw [Bool.eq_iff_iff, List.contains_iff_mem, List.contains_iff_mem]
        exact h _ hempty
      have hmore : ∀ text, text ≠ "" → (text ∈ j.signature :: seen ↔ text ∈ j.signature :: seen') := by
        intro text htext
        rw [List.mem_cons, List.mem_cons, h text htext]
      rw [hcontains, ih h, ih hmore]

/-- What is kept of items in two parts: the second part is kept with the signatures of the first one seen. -/
theorem dedupeFrom_append (seen : List String) (items more : List Item) :
    dedupeFrom seen (items ++ more) = dedupeFrom seen items ++ dedupeFrom (items.map signature ++ seen) more := by
  induction items generalizing seen with
  | nil => rfl
  | cons j items ih =>
    rw [List.cons_append, dedupeFrom, dedupeFrom, ih, ih]
    split
    · next hgone =>
      refine congrArg _ (dedupeFrom_congr fun text htext => ?_)
      simp only [Bool.or_eq_true, decide_eq_true_eq, List.contains_iff_mem] at hgone
      simp only [List.map_cons, List.cons_append, List.mem_cons, List.mem_append]
      constructor
      · exact Or.inr
      · rintro (rfl | h)
        · exact Or.inr (hgone.resolve_left htext)
        · exact h
    · rw [List.cons_append]
      refine congrArg (j :: _ ++ ·) (dedupeFrom_congr fun text _ => ?_)
      simp only [List.map_cons, List.cons_append, List.mem_cons, List.mem_append]
      exact or_left_comm

/-- An item is kept if it has a signature that none of those before it has. -/
theorem mem_dedupeFrom_iff : i ∈ dedupeFrom seen items ↔ i.signature ≠ "" ∧ i.signature ∉ seen ∧
    ∃ before after, items = before ++ i :: after ∧ ∀ j ∈ before, j.signature ≠ i.signature := by
  constructor
  · intro h
    obtain ⟨hsigned, hnew⟩ := not_mem_of_mem_dedupeFrom h
    refine ⟨hsigned, hnew, ?_⟩
    induction items generalizing seen with
    | nil => cases h
    | cons j items ih =>
      rw [dedupeFrom] at h
      by_cases hsame : j = i
      · exact ⟨[], items, by rw [hsame, List.nil_append], by simp⟩
      · have hrest : ∃ seen', i ∈ dedupeFrom seen' items ∧ j.signature ≠ i.signature := by
          split at h
          · next hgone =>
            simp only [Bool.or_eq_true, decide_eq_true_eq, List.contains_iff_mem] at hgone
            exact ⟨seen, h, fun heq => by rw [heq] at hgone; exact hgone.elim hsigned hnew⟩
          · rcases List.mem_cons.mp h with rfl | h
            · exact absurd rfl hsame
            · exact ⟨_, h, fun heq => (not_mem_of_mem_dedupeFrom h).2 (heq ▸ List.mem_cons_self)⟩
        obtain ⟨seen', h, hne⟩ := hrest
        obtain ⟨before, after, rfl, hbefore⟩ := ih h (not_mem_of_mem_dedupeFrom h).2
        exact ⟨j :: before, after, rfl, List.forall_mem_cons.mpr ⟨hne, hbefore⟩⟩
  · rintro ⟨hsigned, hnew, before, after, rfl, hbefore⟩
    rw [dedupeFrom_append, List.mem_append, dedupeFrom, if_neg]
    · exact Or.inr List.mem_cons_self
    · simp only [Bool.or_eq_true, decide_eq_true_eq, List.contains_iff_mem, List.mem_append, List.mem_map, not_or, not_exists, not_and]
      exact ⟨hsigned, hbefore, hnew⟩

/-- Items that are not kept can be left out before. -/
theorem dedupeFrom_flatMap_congr {α : Type} {all some : α → List Item} {parts : List α}
    (h : ∀ before part after, parts = before ++ part :: after → all part = some part ∨ some part = [] ∧
      ∀ i ∈ all part, i.signature = "" ∨ i.signature ∈ seen ∨ ∃ j ∈ before.flatMap all, j.signature = i.signature) :
    dedupeFrom seen (parts.flatMap all) = dedupeFrom seen (parts.flatMap some) := by
  induction parts generalizing seen with
  | nil => rfl
  | cons part parts ih =>
    have hrest : dedupeFrom ((all part).map signature ++ seen) (parts.flatMap all) =
        dedupeFrom ((all part).map signature ++ seen) (parts.flatMap some) := by
      refine ih fun before next after hparts => ?_
      refine (h (part :: before) next after (by rw [hparts, List.cons_append])).imp_right fun ⟨hnone, hgone⟩ => ⟨hnone, fun i hi => ?_⟩
      rcases hgone i hi with hempty | hseen | ⟨j, hj, hsame⟩
      · exact Or.inl hempty
      · exact Or.inr (Or.inl (List.mem_append_right _ hseen))
      · rw [List.flatMap_cons, List.mem_append] at hj
        rcases hj with hj | hj
        · exact Or.inr (Or.inl (List.mem_append_left _ (List.mem_map.mpr ⟨j, hj, hsame⟩)))
        · exact Or.inr (Or.inr ⟨j, hj, hsame⟩)
    rw [List.flatMap_cons, List.flatMap_cons, dedupeFrom_append, dedupeFrom_append, hrest]
    rcases h [] part parts rfl with heq | ⟨hnone, hgone⟩
    · rw [heq]
    · have hseen : ∀ i ∈ all part, i.signature = "" ∨ i.signature ∈ seen := fun i hi => by simpa using hgone i hi
      have hempty : dedupeFrom seen (all part) = [] :=
        List.eq_nil_iff_forall_not_mem.mpr fun i hi => by
          obtain ⟨hsigned, hnew⟩ := not_mem_of_mem_dedupeFrom hi
          exact (hseen i ((dedupeFrom_sublist seen _).subset hi)).elim hsigned hnew
      rw [hempty, hnone]
      refine dedupeFrom_congr fun text htext => ?_
      simp only [List.mem_append, List.mem_map, List.map_nil, List.nil_append]
      constructor
      · rintro (⟨i, hi, rfl⟩ | htext)
        · exact (hseen i hi).resolve_left htext
        · exact htext
      · exact Or.inr

end Item

/-! ## The lines of an item -/

namespace Wrapper

/-- Whether a line holds a field of some text. -/
def HasField (name line text : String) : Prop :=
  (fieldToken? name line).bind Json.string? = some text

/-- Each part of an item that is not left empty is read from one of some lines. -/
structure LiesIn (ls : List String) (i : Item) : Prop where
  key : i.key = "" ∨ ∃ l ∈ ls, HasField "key" l i.key
  name : i.name = "" ∨ ∃ l ∈ ls, HasField "name" l i.name
  call : ∃ l ∈ ls, callOf? l = some i.call

variable {ls : List String} {b r : Range} {i item read : Item}

/-- A field that is read is the one that is known, or the line holds it. -/
theorem readField_eq_ok {name known line text : String} (h : readField name known line = .ok text) :
    text = known ∨ HasField name line text := by
  rw [readField] at h
  split at h
  · split at h
    · next token htoken =>
      split at h
      · next parsed hparsed =>
        obtain rfl := Except.ok.inj h
        exact Or.inr (by rw [HasField, htoken, Option.bind_some, hparsed])
      · cases h
    · exact Or.inl (Except.ok.inj h).symm
  · exact Or.inl (Except.ok.inj h).symm

/-- The fields of an item are those it had before, or are read from the lines. -/
theorem fields_of_readFields (h : readFields item ls = .ok read) :
    (read.key = item.key ∨ ∃ l ∈ ls, HasField "key" l read.key) ∧
      (read.name = item.name ∨ ∃ l ∈ ls, HasField "name" l read.name) := by
  induction ls generalizing item with
  | nil =>
    obtain rfl := Except.ok.inj h
    exact ⟨Or.inl rfl, Or.inl rfl⟩
  | cons l ls ih =>
    rw [readFields] at h
    cases hkey : readField "key" item.key l with
    | error defect => rw [hkey] at h; cases h
    | ok key =>
      cases hname : readField "name" item.name l with
      | error defect => rw [hkey, hname] at h; cases h
      | ok name =>
        rw [hkey, hname] at h
        obtain ⟨hkeys, hnames⟩ := ih h
        have hstep : ∀ {field known text readText : String}, readField field known l = .ok text →
            (readText = text ∨ ∃ l ∈ ls, HasField field l readText) →
            readText = known ∨ ∃ m ∈ l :: ls, HasField field m readText := by
          rintro field known text readText htext (rfl | ⟨m, hm, hfield⟩)
          · exact (readField_eq_ok htext).imp_right fun hfield => ⟨l, List.mem_cons_self, hfield⟩
          · exact Or.inr ⟨m, List.mem_cons_of_mem _ hm, hfield⟩
        exact ⟨hstep hkey hkeys, hstep hname hnames⟩

/-- All of an item is read from the lines of its range. -/
theorem liesIn_of_itemOf (h : itemOf ls r = .ok i) : LiesIn (linesOf ls r) i := by
  have hoption : (itemOf ls r).toOption = some i := by rw [h]; rfl
  have hread : readRun (linesOf ls r) = some i := by rw [← toOption_itemOf, hoption]
  rw [readRun] at hread
  split at hread
  · next read hfields =>
    split at hread
    · cases hread
    · obtain rfl := Option.some.inj hread
      obtain ⟨hkey, hname⟩ := fields_of_readFields hfields
      exact ⟨hkey, hname, call_of_itemOf hoption⟩
  · cases hread

/-! ## The ranges that are read -/

/-- Whether a range has lines that are item markers. -/
def itemized (ls : List String) (b : Range) : Bool :=
  (linesOf ls b).any fun l => Marker.itemStart.marks l || Marker.itemStop.marks l

/-- A range that holds one item: a complete item of a wrapper, or a wrapper without item markers. -/
def HoldsOne (ls : List String) (r : Range) : Prop :=
  ∃ b ∈ blocks ls, r ∈ itemRanges ls b ∨ r = b ∧ itemized ls b = false

/-- The ranges of a wrapper that hold one item each. -/
def places (ls : List String) (b : Range) : List Range :=
  if itemized ls b then itemRanges ls b else [b]

/-- The ranges of a wrapper from which its items come: its complete items, or the wrapper as a whole if none of them can be read. -/
def sourcesOf (ls : List String) (b : Range) : List Range :=
  if readItems ls (itemRanges ls b) = [] then [b] else itemRanges ls b

/-- The ranges of a page from which its items come. -/
def sources (ls : List String) : List Range :=
  (blocks ls).flatMap (sourcesOf ls)

/-- An item of the page is read from a range: the range is that of the item, and none of the ranges before it has an item with the
same signature. -/
def ReadFrom (ls : List String) (r : Range) (i : Item) : Prop :=
  i.signature ≠ "" ∧ itemOf ls r = .ok i ∧
    ∃ before after, sources ls = before ++ r :: after ∧ ∀ j ∈ readItems ls before, j.signature ≠ i.signature

/-- The items of ranges in two parts are read part by part. -/
theorem readItems_append (ls : List String) (ranges more : List Range) :
    readItems ls (ranges ++ more) = readItems ls ranges ++ readItems ls more :=
  List.filterMap_append

/-- The items that are read are those on the ranges. -/
theorem mem_readItems {ranges : List Range} : i ∈ readItems ls ranges ↔ ∃ r ∈ ranges, itemOf ls r = .ok i := by
  rw [readItems, List.mem_filterMap]
  refine exists_congr fun r => and_congr_right fun _ => ?_
  cases itemOf ls r with
  | error defect => simp [Except.toOption]
  | ok item => simp [Except.toOption]

/-- The items of a wrapper are read from its sources. -/
theorem itemsOf_eq_readItems (ls : List String) (b : Range) : itemsOf ls b = readItems ls (sourcesOf ls b) := by
  rw [itemsOf, sourcesOf]
  split
  · next hnone => rw [if_pos hnone]
  · next hnone => rw [if_neg (by simpa using hnone)]

/-- The items of wrappers are read from all their sources. -/
theorem flatMap_itemsOf (ls : List String) (ranges : List Range) :
    ranges.flatMap (itemsOf ls) = readItems ls (ranges.flatMap (sourcesOf ls)) := by
  rw [readItems, List.filterMap_flatMap]
  exact List.flatMap_congr fun b _ => itemsOf_eq_readItems ls b

/-- The items of a page are those of its sources, each signature once. -/
theorem decode_eq_dedupe_sources (ls : List String) : decode ls = Item.dedupe (readItems ls (sources ls)) := by
  rw [decode, flatMap_itemsOf, sources]

/-- The items of a page are those that are read from some range. -/
theorem mem_decode_iff : i ∈ decode ls ↔ ∃ r, ReadFrom ls r i := by
  rw [decode_eq_dedupe_sources, Item.dedupe, Item.mem_dedupeFrom_iff]
  constructor
  · rintro ⟨hsigned, -, before, after, hsplit, hbefore⟩
    obtain ⟨front, back, hranges, hfront, hback⟩ := List.filterMap_eq_append_iff.mp hsplit
    obtain ⟨skipped, r, rest, rfl, hskipped, hr, -⟩ := List.filterMap_eq_cons_iff.mp hback
    refine ⟨r, hsigned, ?_, front ++ skipped, rest, by rw [hranges, List.append_assoc], ?_⟩
    · simpa using mem_readItems.mp (show i ∈ readItems ls [r] by simp [readItems, hr])
    · have hnone : readItems ls skipped = [] := List.filterMap_eq_nil_iff.mpr hskipped
      rw [readItems_append, hnone, List.append_nil]
      rwa [readItems, hfront]
  · rintro ⟨r, hsigned, hr, before, after, hsplit, hbefore⟩
    refine ⟨hsigned, List.not_mem_nil, readItems ls before, readItems ls after, ?_, hbefore⟩
    rw [hsplit, readItems_append]
    refine congrArg (readItems ls before ++ ·) ?_
    rw [readItems, List.filterMap_cons, hr]
    rfl

/-! ## Wrappers that are read as a whole -/

/-- The items of a wrapper start with an item marker. -/
theorem stands_of_mem_itemRanges (h : r ∈ itemRanges ls b) : Marker.itemStart.stands ls r.1 = true := by
  rw [itemRanges, mem_rangesFrom] at h
  rcases h with ⟨_, h, -⟩ | ⟨a, k, hopens, -, rfl⟩
  · cases h
  · obtain ⟨l, hl, hmarks⟩ := Marker.stands_iff.mp hopens
    rw [linesOf, List.getElem?_take] at hl
    split at hl
    · rw [List.getElem?_drop] at hl
      exact Marker.stands_iff.mpr ⟨l, hl, hmarks⟩
    · cases hl

/-- A wrapper is not an item of a wrapper. -/
theorem not_mem_itemRanges {b' : Range} (hb : b ∈ blocks ls) : b ∉ itemRanges ls b' := by
  intro h
  obtain ⟨l, hl, hitem⟩ := Marker.stands_iff.mp (stands_of_mem_itemRanges h)
  obtain ⟨l', hl', hstart⟩ := Marker.stands_iff.mp (mem_blocks.mp hb).first
  obtain rfl : l = l' := Option.some.inj (hl.symm.trans hl')
  exact absurd (Marker.eq_of_marks hitem hstart) (by decide)

/-- A wrapper without item markers has no complete item. -/
theorem itemRanges_of_not_itemized (h : itemized ls b = false) : itemRanges ls b = [] := by
  refine List.eq_nil_iff_forall_not_mem.mpr fun r hr => ?_
  rw [itemRanges, mem_rangesFrom] at hr
  rcases hr with ⟨_, hr, -⟩ | ⟨a, k, hopens, -, -⟩
  · cases hr
  · obtain ⟨l, hl, hmarks⟩ := Marker.stands_iff.mp hopens
    rw [itemized, List.any_eq_false] at h
    exact h l (List.mem_of_getElem? hl) (by rw [hmarks, Bool.true_or])

/-- Some wrapper with item markers has items none of which can be read, but can be read as a whole, and no item before it has the
same signature. -/
def Stitched (ls : List String) : Prop :=
  ∃ before b after i, blocks ls = before ++ b :: after ∧ itemized ls b = true ∧ readItems ls (itemRanges ls b) = [] ∧
    itemOf ls b = .ok i ∧ i.signature ≠ "" ∧ ∀ j ∈ before.flatMap (itemsOf ls), j.signature ≠ i.signature

/-- A part of a list that is put together stands in one of the lists, and all of the lists before stand before it. -/
theorem exists_of_flatMap_eq_append_cons {α β : Type} {f : α → List β} {as : List α} {before after : List β} {x : β}
    (h : as.flatMap f = before ++ x :: after) :
    ∃ pre a post, as = pre ++ a :: post ∧ x ∈ f a ∧ ∀ y ∈ pre.flatMap f, y ∈ before := by
  induction as generalizing before with
  | nil => cases before <;> cases h
  | cons a as ih =>
    rw [List.flatMap_cons, List.append_eq_append_iff] at h
    rcases h with ⟨rest, rfl, hrest⟩ | ⟨rest, hfa, hrest⟩
    · obtain ⟨pre, a', post, rfl, hx, hpre⟩ := ih hrest
      refine ⟨a :: pre, a', post, rfl, hx, fun y hy => ?_⟩
      rw [List.flatMap_cons, List.mem_append] at hy
      exact List.mem_append.mpr (hy.imp_right (hpre y))
    · cases rest with
      | nil =>
        obtain ⟨pre, a', post, rfl, hx, hpre⟩ := @ih [] hrest.symm
        refine ⟨a :: pre, a', post, rfl, hx, fun y hy => ?_⟩
        rw [List.flatMap_cons, List.mem_append, hfa, List.append_nil] at hy
        exact hy.resolve_right fun hy => absurd (hpre y hy) List.not_mem_nil
      | cons y rest =>
        obtain ⟨rfl, -⟩ := List.cons.inj hrest
        exact ⟨[], a, as, rfl, by rw [hfa]; simp, by simp⟩

/-- An item that is read from a range that does not hold one item is put together from a whole wrapper. -/
theorem holdsOne_of_readFrom (hread : ReadFrom ls r i) (h : ¬Stitched ls) : HoldsOne ls r := by
  obtain ⟨hsigned, hr, before, after, hsplit, hbefore⟩ := hread
  obtain ⟨pre, b, post, hblocks, hrb, hpre⟩ := exists_of_flatMap_eq_append_cons hsplit
  have hb : b ∈ blocks ls := by rw [hblocks]; simp
  rw [sourcesOf] at hrb
  split at hrb
  · next hnone =>
    obtain rfl := List.mem_singleton.mp hrb
    refine ⟨r, hb, Or.inr ⟨rfl, ?_⟩⟩
    by_contra hitemized
    refine h ⟨pre, r, post, i, hblocks, by simpa using hitemized, hnone, hr, hsigned, fun j hj => hbefore j ?_⟩
    rw [flatMap_itemsOf] at hj
    obtain ⟨r', hr', hj⟩ := mem_readItems.mp hj
    exact mem_readItems.mpr ⟨r', hpre r' hr', hj⟩
  · exact ⟨b, hb, Or.inl hrb⟩

/-- What is put together from a whole wrapper is an item of the page. -/
theorem exists_readFrom_of_stitched (h : Stitched ls) : ∃ b i, ReadFrom ls b i ∧ ¬HoldsOne ls b := by
  obtain ⟨before, b, after, i, hblocks, hitemized, hnone, hb, hsigned, hnew⟩ := h
  refine ⟨b, i, ⟨hsigned, hb, before.flatMap (sourcesOf ls), after.flatMap (sourcesOf ls), ?_, ?_⟩, ?_⟩
  · rw [sources, hblocks, List.flatMap_append, List.flatMap_cons, sourcesOf, if_pos hnone, List.singleton_append]
  · rwa [← flatMap_itemsOf]
  · rintro ⟨b', hb', hmem | ⟨rfl, hplain⟩⟩
    · exact not_mem_itemRanges (by rw [hblocks]; simp) hmem
    · rw [hplain] at hitemized
      cases hitemized

/-- A wrapper gives the items of its places, or it is read as a whole instead. -/
theorem itemsOf_eq_places (ls : List String) (b : Range) : itemsOf ls b = readItems ls (places ls b) ∨
    itemized ls b = true ∧ readItems ls (itemRanges ls b) = [] ∧ itemsOf ls b = readItems ls [b] := by
  rw [itemsOf_eq_readItems, sourcesOf, places]
  cases hitemized : itemized ls b with
  | false =>
    rw [itemRanges_of_not_itemized hitemized]
    exact Or.inl rfl
  | true =>
    rw [if_pos rfl]
    split
    · next hnone => exact Or.inr ⟨rfl, hnone, rfl⟩
    · exact Or.inl rfl

/-- Unless something is put together, every place gives its own item or nothing. -/
theorem decode_eq_places (h : ¬Stitched ls) :
    decode ls = Item.dedupe ((blocks ls).flatMap fun b => readItems ls (places ls b)) := by
  refine Item.dedupeFrom_flatMap_congr fun before b after hblocks => ?_
  refine (itemsOf_eq_places ls b).imp_right fun ⟨hitemized, hnone, hwhole⟩ => ?_
  refine ⟨by rw [places, if_pos hitemized, hnone], fun i hi => ?_⟩
  obtain ⟨r, hr, hread⟩ := mem_readItems.mp (hwhole ▸ hi)
  obtain rfl := List.mem_singleton.mp hr
  by_contra hkept
  simp only [not_or, not_exists, not_and] at hkept
  exact h ⟨before, r, after, i, hblocks, hitemized, hnone, hread, hkept.1, hkept.2.2⟩

/-- Every item of a page is read from some range. All of it is read from the lines of a single complete item, or of a wrapper
without item markers, and each of these gives its own item or nothing whatever the others hold, exactly if no wrapper whose items
cannot be read is read as a whole. -/
theorem items_are_read_from_one_place_iff (ls : List String) :
    (∀ i, i ∈ decode ls ↔ ∃ r, ReadFrom ls r i) ∧
    (((∀ r i, ReadFrom ls r i → HoldsOne ls r ∧ LiesIn (linesOf ls r) i) ∧
        decode ls = Item.dedupe ((blocks ls).flatMap fun b => readItems ls (places ls b))) ↔
      ¬Stitched ls) := by
  refine ⟨fun i => mem_decode_iff, fun h hstitched => ?_, fun h => ⟨fun r i hread => ?_, decode_eq_places h⟩⟩
  · obtain ⟨b, i, hread, hmany⟩ := exists_readFrom_of_stitched hstitched
    exact hmany (h.1 b i hread).1
  · exact ⟨holdsOne_of_readFrom hread h, liesIn_of_itemOf hread.2.1⟩

/-- The key of an item without a call and the call of an item with a malformed key become one item. -/
theorem decode_stitches_two_items :
    let ls := ["// SM-CAPTURE-START", "// SM-CAPTURE-ITEM-START", "key: \"a\",", "// SM-CAPTURE-ITEM-END",
      "// SM-CAPTURE-ITEM-START", "key: \"b\\q\",", "mw.loader.load('/b');", "// SM-CAPTURE-ITEM-END", "// SM-CAPTURE-END"]
    let i : Item := { key := "a", call := "mw.loader.load('/b');" }
    i ∈ decode ls ∧ ∀ r, HoldsOne ls r → ¬LiesIn (linesOf ls r) i := by
  intro ls i
  refine ⟨by decide, ?_⟩
  rintro r ⟨b, hb, hr⟩ hlies
  obtain rfl : b = (0, 8) := by
    have hblocks : blocks ls = [(0, 8)] := by decide
    simpa [hblocks] using hb
  have hr : r = (1, 3) ∨ r = (4, 7) := by
    have hranges : itemRanges ls (0, 8) = [(1, 3), (4, 7)] := by decide
    have hitemized : itemized ls (0, 8) = true := by decide
    simpa [hranges, hitemized] using hr
  rcases hr with rfl | rfl
  · have hcalls : ∀ l ∈ linesOf ls (1, 3), callOf? l ≠ some i.call := by decide
    obtain ⟨l, hl, hcall⟩ := hlies.call
    exact hcalls l hl hcall
  · have hkeys : ∀ l ∈ linesOf ls (4, 7), (fieldToken? "key" l).bind Json.string? ≠ some i.key := by decide
    obtain hempty | ⟨l, hl, hkey⟩ := hlies.key
    · exact absurd hempty (by decide)
    · exact hkeys l hl hkey

end Wrapper

end UserScripts
