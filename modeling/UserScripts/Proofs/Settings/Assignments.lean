import Mathlib.Data.List.Forall2
import UserScripts.Proofs.Value.Json
import UserScripts.Proofs.Value.Merge
import UserScripts.Settings.Source

/-!
# Assignments

A source of the form `key.path=value` assigns a value to the field at a path. What a merge of such layers holds at a place is what
the last assignment that touches the place leaves there, and an assignment touches the places along its path and below it. So as
long as no assignment lies below another one, only the order of those with one path counts.

Main statements: `map_face_at?_mergeAll`, what is at a place after a list of assignments, and `layers_compose`, the laws of layers.
-/

namespace UserScripts

open UserScripts.Text

/-- A value as it is seen from outside: of a map only that it is one. -/
def Value.face : Value → Value
  | .map _ => .map []
  | v => v

/-- A value that is no map looks like itself. -/
theorem Value.face_of_not_map {v : Value} (h : ∀ fields, v ≠ .map fields) : v.face = v := by
  cases v with
  | map fields => exact absurd rfl (h fields)
  | _ => rfl

/-- A value that is no map has no fields. -/
theorem Value.fields_of_not_map {v : Value} (h : ∀ fields, v ≠ .map fields) : v.fields = [] := by
  cases v with
  | map fields => exact absurd rfl (h fields)
  | _ => rfl

/-- Among values that are no maps, what looks like a value is that value. -/
theorem Value.eq_of_face_eq {v w : Value} (h : v.face = w) (hw : ∀ fields, w ≠ .map fields) : v = w := by
  cases v with
  | map fields => exact absurd h.symm (hw [])
  | _ => exact h

/-- Whether two maps are the same but for the order of their fields, at any depth: every path leads in both to a map, in both to
the same other value, or in both to nothing. -/
def Fields.SameMap (a b : Fields) : Prop :=
  ∀ path, (a.at? path).map Value.face = (b.at? path).map Value.face

namespace Settings

/-- A value for the field at a path. -/
structure Assignment where
  path : List String
  value : Value

namespace Assignment

variable {source : String} {a b : Assignment}

/-- The keys that the path consists of. -/
def keys (a : Assignment) : List Key :=
  a.path.map .text

/-- The layer with nothing but the assigned value. -/
def layer (a : Assignment) : Fields :=
  (nested a.value a.path).fields

/-- Whether a source stands for an assignment. -/
def Assigns (source : String) (a : Assignment) : Prop :=
  ∃ key text, cutAt? '=' source.toList = some (key, text) ∧ a.path = (splitOn '.' key).map String.ofList ∧
    valueOf text = .ok a.value

/-- What an assignment leaves at a place, if it touches it: its value at its path, nothing below the value, and maps along the path. -/
def effect (a : Assignment) (place : List Key) : Option (Option Value) :=
  if a.keys = place then some (some a.value)
  else if a.keys <+: place then some none
  else if place <+: a.keys then some (some (.map []))
  else none

/-- Different texts are different keys. -/
theorem text_injective : Function.Injective Key.text :=
  fun _ _ h => Key.text.inj h

/-- Assignments with the same keys have the same path. -/
theorem keys_injective (h : a.keys = b.keys) : a.path = b.path :=
  List.map_injective_iff.mpr text_injective h

/-- If the keys of an assignment begin those of another one, then its path begins the path of that one. -/
theorem path_prefix_of_keys (h : a.keys <+: b.keys) : a.path <+: b.path := by
  obtain ⟨front, hfront, heq⟩ := List.prefix_map_iff.mp h
  rwa [List.map_injective_iff.mpr text_injective heq]

/-- What an assignment leaves below a field is what it leaves there without that field. -/
theorem effect_cons (name : String) (path : List String) (value : Value) (place : List Key) :
    effect ⟨name :: path, value⟩ (.text name :: place) = effect ⟨path, value⟩ place := by
  have hkeys : keys ⟨name :: path, value⟩ = .text name :: keys ⟨path, value⟩ := rfl
  rw [effect, effect, hkeys]
  simp only [List.cons_prefix_cons, List.cons.injEq, true_and]

/-- An assignment that a source stands for has a path. -/
theorem Assigns.path_ne_nil (h : Assigns source a) : a.path ≠ [] := by
  obtain ⟨key, _, -, hpath, -⟩ := h
  rw [hpath]
  exact fun hnil => splitOn_ne_nil '.' key (List.map_eq_nil_iff.mp hnil)

/-- No source assigns the mark of an unset field. -/
theorem Assigns.value_ne_unset (h : Assigns source a) : a.value ≠ .unset := by
  obtain ⟨_, text, -, -, hvalue⟩ := h
  unfold valueOf at hvalue
  split at hvalue
  · next hread => exact (Except.ok.inj hvalue) ▸ Json.read_ne_unset hread
  · rw [← Except.ok.inj hvalue]
    nofun
  · cases hvalue

/-- The layer of an assignment is the map that its value is nested in. -/
theorem nested_eq_layer (h : a.path ≠ []) : nested a.value a.path = .map a.layer := by
  rw [layer]
  cases hpath : a.path with
  | nil => exact absurd hpath h
  | cons key rest => rfl

/-- A source that stands for an assignment is loaded as its layer, whatever files there are. -/
theorem Assigns.load (h : Assigns source a) (tree : FileTree) (folder : Option String) :
    Settings.load tree folder source = .ok (.map a.layer) := by
  rw [← nested_eq_layer h.path_ne_nil]
  obtain ⟨key, text, hcut, hpath, hvalue⟩ := h
  rw [Settings.load, hcut, hpath]
  dsimp only
  rw [hvalue]
  rfl

end Assignment

open Assignment

variable {sources : List String} {assignments : List Assignment}

/-- A function that comes to a value on each member of a list comes to the list of them. -/
theorem mapM_eq_ok {α β ε : Type} {f : α → Except ε β} {xs : List α} {ys : List β}
    (h : List.Forall₂ (fun x y => f x = .ok y) xs ys) : xs.mapM f = .ok ys := by
  induction h with
  | nil => rfl
  | cons hx _ ih =>
    rw [List.mapM_cons, hx, ih]
    rfl

/-- Sources that stand for assignments are read as their layers. -/
theorem readLayers_of_assigns (h : List.Forall₂ Assigns sources assignments) (tree : FileTree) (folder : Option String) :
    readLayers tree folder sources = .ok (assignments.map layer) := by
  have hload : sources.mapM (load tree folder) = .ok (assignments.map fun a => .map a.layer) :=
    mapM_eq_ok (List.forall₂_map_right_iff.mpr (h.imp fun _ _ hassigns => hassigns.load tree folder))
  have hfields : (assignments.map fun a => Value.map a.layer).mapM fieldsOf = .ok (assignments.map layer) :=
    mapM_eq_ok (List.forall₂_map_left_iff.mpr (List.forall₂_map_right_iff.mpr (List.forall₂_same.mpr fun _ _ => rfl)))
  rw [readLayers, hload]
  exact hfields

/-! ## One assignment -/

/-- What is at a place after an assignment: what the assignment leaves there, or what was there before if it does not touch it. -/
theorem map_face_below?_over_nested {v : Value} (hmap : ∀ fields, v ≠ .map fields) (hunset : v ≠ .unset) (path : List String)
    (below : Option Value) (place : List Key) :
    (Value.below? (Value.over below (nested v path)) place).map Value.face =
      ((⟨path, v⟩ : Assignment).effect place).getD ((Value.below? below place).map Value.face) := by
  induction path generalizing below place with
  | nil =>
    have hover : Value.over below v = some v := by
      rw [Value.over_of_not_map hmap, if_neg]
      cases v <;> simp_all [Value.isUnset]
    rw [nested, hover]
    cases place with
    | nil => exact congrArg some (Value.face_of_not_map hmap)
    | cons key rest =>
      rw [Value.below?_cons, Option.elim_some, Value.fields_of_not_map hmap]
      simp [effect, keys, Fields.under?, Value.below?]
  | cons name path ih =>
    rw [nested, Value.over_map, Fields.merge_cons, Fields.merge_nil]
    cases place with
    | nil => simp [effect, keys, Value.below?, Value.at?, Value.face]
    | cons key rest =>
      rw [Value.below?_cons, Value.below?_cons, Option.elim_some, Value.fields, Fields.under?_give]
      by_cases hkey : Key.text name = key
      · subst hkey
        rw [if_pos (Key.same_refl _), ih, effect_cons]
      · rw [if_neg (fun h => hkey (Key.text_same_iff.mp h))]
        simp [effect, keys, List.cons_prefix_cons, hkey, Ne.symm hkey]

/-! ## A list of assignments -/

section Run

variable {assignments' : List Assignment}

/-- Whether every assignment gives some path a value that is neither a map nor the mark of an unset field. -/
def Proper (assignments : List Assignment) : Prop :=
  ∀ a ∈ assignments, a.path ≠ [] ∧ a.value ≠ .unset ∧ ∀ fields, a.value ≠ .map fields

/-- Assignments that sources stand for are proper if none of their values is a map. -/
theorem proper_of_assigns (h : List.Forall₂ Assigns sources assignments) (hvalues : ∀ a ∈ assignments, ∀ fields, a.value ≠ .map fields) :
    Proper assignments := by
  induction h with
  | nil => nofun
  | cons hassigns _ ih =>
    obtain ⟨hvalue, hrest⟩ := List.forall_mem_cons.mp hvalues
    exact List.forall_mem_cons.mpr ⟨⟨hassigns.path_ne_nil, hassigns.value_ne_unset, hvalue⟩, ih hrest⟩

/-- Whether no assignment lies below another one. -/
def PrefixFree (assignments : List Assignment) : Prop :=
  ∀ a ∈ assignments, ∀ b ∈ assignments, a.path <+: b.path → a.path = b.path

/-- Whether two lists hold the same assignments, and those with one path in one order. -/
def Reordered (assignments assignments' : List Assignment) : Prop :=
  ∀ path, assignments.filter (·.path = path) = assignments'.filter (·.path = path)

/-- What is at a place after a list of assignments: what the last one that touches the place leaves there. -/
theorem map_face_at?_mergeAll (hproper : Proper assignments) (layers : List (Option Fields)) (place : List Key) :
    ((Fields.mergeAll (layers ++ assignments.map (some ·.layer))).at? place).map Value.face =
      (assignments.reverse.findSome? (·.effect place)).getD (((Fields.mergeAll layers).at? place).map Value.face) := by
  induction assignments using List.reverseRecOn with
  | nil => simp
  | append_singleton assignments a ih =>
    obtain ⟨hpath, hunset, hmap⟩ := hproper a (by simp)
    have hstep : some (Value.map (Fields.merge (Fields.mergeAll (layers ++ assignments.map (some ·.layer))) a.layer)) =
        Value.over (some (.map (Fields.mergeAll (layers ++ assignments.map (some ·.layer))))) (nested a.value a.path) := by
      rw [nested_eq_layer hpath, Value.over_map]
      rfl
    have hplace := map_face_below?_over_nested hmap hunset a.path
      (some (.map (Fields.mergeAll (layers ++ assignments.map (some ·.layer))))) place
    rw [← hstep] at hplace
    rw [List.map_append, ← List.append_assoc, List.map_singleton, Fields.mergeAll_concat, Option.getD_some, List.reverse_concat,
      List.findSome?_cons]
    refine hplace.trans ?_
    cases heffect : a.effect place with
    | some left => rfl
    | none => exact ih fun b hb => hproper b (List.mem_append_left _ hb)

/-- Reordered lists hold the same assignments. -/
theorem Reordered.mem_iff (h : Reordered assignments assignments') {a : Assignment} : a ∈ assignments ↔ a ∈ assignments' := by
  have hfilter := congrArg (a ∈ ·) (h a.path)
  simpa using hfilter

/-- If an assignment is made at a place, none with another path touches it. -/
theorem effect_keys_eq_none (hfree : PrefixFree assignments) {a b : Assignment} (ha : a ∈ assignments) (hb : b ∈ assignments)
    (hne : b.path ≠ a.path) : b.effect a.keys = none := by
  rw [effect, if_neg fun h => hne (keys_injective h), if_neg fun h => hne (hfree b hb a ha (path_prefix_of_keys h)),
    if_neg fun h => hne (hfree a ha b hb (path_prefix_of_keys h)).symm]

/-- Assignments with different paths that touch one place leave the same there. -/
theorem effect_eq_of_path_ne (hfree : PrefixFree assignments) {a b : Assignment} (ha : a ∈ assignments) (hb : b ∈ assignments)
    (hne : a.path ≠ b.path) {place : List Key} {left left' : Option Value} (hleft : a.effect place = some left)
    (hleft' : b.effect place = some left') : left = left' := by
  by_cases hplace : a.keys = place
  · rw [← hplace, effect_keys_eq_none hfree ha hb hne.symm] at hleft'
    cases hleft'
  by_cases hplace' : b.keys = place
  · rw [← hplace', effect_keys_eq_none hfree hb ha hne] at hleft
    cases hleft
  rw [effect, if_neg hplace] at hleft
  rw [effect, if_neg hplace'] at hleft'
  -- Both are above the place or both are below it: else one path would lead to the other.
  by_cases habove : a.keys <+: place
  · have hnot : ¬place <+: b.keys := fun h => hne (hfree a ha b hb (path_prefix_of_keys (habove.trans h)))
    rw [if_pos habove] at hleft
    rw [if_neg hnot] at hleft'
    split at hleft'
    · rw [← Option.some.inj hleft, ← Option.some.inj hleft']
    · cases hleft'
  · rw [if_neg habove] at hleft
    split at hleft
    · next hbelow =>
      have hnot : ¬b.keys <+: place := fun h => hne (hfree b hb a ha (path_prefix_of_keys (h.trans hbelow))).symm
      rw [if_neg hnot] at hleft'
      split at hleft'
      · rw [← Option.some.inj hleft, ← Option.some.inj hleft']
      · cases hleft'
    · cases hleft

/-- The first assignment of a list that touches a place is also the first of those with its path. -/
theorem exists_findSome?_filter {place : List Key} {left : Option Value} (h : assignments.findSome? (·.effect place) = some left) :
    ∃ a ∈ assignments, a.effect place = some left ∧
      (assignments.filter (·.path = a.path)).findSome? (·.effect place) = some left := by
  obtain ⟨before, a, after, rfl, heffect, hbefore⟩ := List.findSome?_eq_some_iff.mp h
  refine ⟨a, by simp, heffect, ?_⟩
  rw [List.filter_append, List.filter_cons_of_pos (by simp), List.findSome?_eq_some_iff]
  exact ⟨_, a, _, rfl, heffect, fun b hb => hbefore b (List.mem_of_mem_filter hb)⟩

/-- What the last assignment that touches a place leaves there does not depend on the order of those with different paths. -/
theorem findSome?_effect_of_reordered (hfree : PrefixFree assignments) (h : Reordered assignments assignments') (place : List Key) :
    assignments.reverse.findSome? (·.effect place) = assignments'.reverse.findSome? (·.effect place) := by
  have hreverse (path : List String) :
      assignments.reverse.filter (·.path = path) = assignments'.reverse.filter (·.path = path) := by
    rw [List.filter_reverse, List.filter_reverse, h path]
  have hsub {as as' : List Assignment} {a : Assignment} {left : Option Value} (hnone : as'.findSome? (·.effect place) = none)
      (hmem : a ∈ as → a ∈ as') (ha : a ∈ as) (heffect : a.effect place = some left) : False := by
    rw [List.findSome?_eq_none_iff.mp hnone a (hmem ha)] at heffect
    cases heffect
  cases hlast : assignments.reverse.findSome? (·.effect place) with
  | none =>
    cases hlast' : assignments'.reverse.findSome? (·.effect place) with
    | none => rfl
    | some left =>
      obtain ⟨a, ha, heffect, -⟩ := exists_findSome?_filter hlast'
      exact (hsub hlast (by simp [h.mem_iff]) ha heffect).elim
  | some left =>
    obtain ⟨a, ha, heffect, hfirst⟩ := exists_findSome?_filter hlast
    cases hlast' : assignments'.reverse.findSome? (·.effect place) with
    | none => exact (hsub hlast' (by simp [h.mem_iff]) ha heffect).elim
    | some left' =>
      obtain ⟨b, hb, heffect', hfirst'⟩ := exists_findSome?_filter hlast'
      by_cases hpath : a.path = b.path
      · rw [hreverse a.path, hpath, hfirst'] at hfirst
        rw [Option.some.inj hfirst]
      · exact congrArg some (effect_eq_of_path_ne hfree (List.mem_reverse.mp ha) (h.mem_iff.mpr (List.mem_reverse.mp hb)) hpath
          heffect heffect')

/-- The last assignment at a path decides what is there. -/
theorem at?_mergeAll_of_last (hproper : Proper assignments) (hfree : PrefixFree assignments) (layers : List (Option Fields))
    {before after : List Assignment} {a : Assignment} (heq : assignments = before ++ a :: after)
    (hlast : ∀ b ∈ after, b.path ≠ a.path) :
    (Fields.mergeAll (layers ++ assignments.map (some ·.layer))).at? a.keys = some a.value := by
  have ha : a ∈ assignments := by simp [heq]
  have hafter : after.reverse.findSome? (·.effect a.keys) = none :=
    List.findSome?_eq_none_iff.mpr fun b hb =>
      have hb := List.mem_reverse.mp hb
      effect_keys_eq_none hfree ha (by simp [heq, hb]) (hlast b hb)
  have hself : a.effect a.keys = some (some a.value) := if_pos rfl
  have hface := map_face_at?_mergeAll hproper layers a.keys
  rw [heq, List.reverse_append, List.reverse_cons, List.append_assoc, List.findSome?_append, hafter, Option.none_or,
    List.singleton_append, List.findSome?_cons, hself, Option.getD_some, ← heq] at hface
  obtain ⟨v, hv, hvalue⟩ := Option.map_eq_some_iff.mp hface
  rw [hv, Value.eq_of_face_eq hvalue (hproper a ha).2.2]

/-- The order of assignments with different paths does not count. -/
theorem sameMap_of_reordered (hproper : Proper assignments) (hfree : PrefixFree assignments)
    (h : Reordered assignments assignments') (layers : List (Option Fields)) :
    Fields.SameMap (Fields.mergeAll (layers ++ assignments.map (some ·.layer)))
      (Fields.mergeAll (layers ++ assignments'.map (some ·.layer))) := by
  have hproper' : Proper assignments' := fun a ha => hproper a (h.mem_iff.mpr ha)
  intro place
  rw [map_face_at?_mergeAll hproper, map_face_at?_mergeAll hproper', findSome?_effect_of_reordered hfree h]

end Run

/-! ## The laws of layers -/

/-- A layer that is merged twice in a row is merged once. -/
theorem mergeAll_repeated {layer : Option Fields} (hmap : (layer.getD []).isMap = true) (before after : List (Option Fields)) :
    Fields.mergeAll (before ++ layer :: layer :: after) = Fields.mergeAll (before ++ layer :: after) := by
  simp only [Fields.mergeAll, List.foldl_append, List.foldl_cons]
  rw [Fields.merge_self hmap]

/-- Layers compose: some of the first ones may be merged beforehand, a layer that is repeated counts once, nothing in the merge is
unset, and what a further layer marks as unset stays as the layers below it have it. So of assignments, none of which lies below
another one or assigns a map, the last at a path decides what is there, and the order of those with different paths does not
count; this holds on top of any layers. -/
theorem layers_compose {layers : List (Option Fields)} (hmaps : ∀ layer ∈ layers, ∀ fields ∈ layer, Fields.isMap fields = true)
    (hassigns : List.Forall₂ Assigns sources assignments) (hvalues : ∀ a ∈ assignments, ∀ fields, a.value ≠ .map fields)
    (hfree : PrefixFree assignments) (tree : FileTree) (folder : Option String) :
    (∀ n, Fields.mergeAll (some (Fields.mergeAll (layers.take n)) :: layers.drop n) = Fields.mergeAll layers) ∧
    (∀ before layer after, layers = before ++ layer :: after →
      Fields.mergeAll (before ++ layer :: layer :: after) = Fields.mergeAll layers) ∧
    (∀ path, (Fields.mergeAll layers).at? path ≠ some .unset) ∧
    (∀ top : Fields, top.isMap = true → ∀ path, top.at? path = some .unset →
      (Fields.mergeAll (layers ++ [some top])).at? path = (Fields.mergeAll layers).at? path) ∧
    ∃ own, readLayers tree folder sources = .ok own ∧
      (∀ before a after, assignments = before ++ a :: after → (∀ b ∈ after, b.path ≠ a.path) →
        (Fields.mergeAll (layers ++ own.map some)).at? a.keys = some a.value) ∧
      ∀ sources' assignments', List.Forall₂ Assigns sources' assignments' → Reordered assignments assignments' →
        ∃ own', readLayers tree folder sources' = .ok own' ∧
          Fields.SameMap (Fields.mergeAll (layers ++ own.map some)) (Fields.mergeAll (layers ++ own'.map some)) := by
  have hproper := proper_of_assigns hassigns hvalues
  refine ⟨fun n => ?_, ?_, ?_, ?_, assignments.map layer, readLayers_of_assigns hassigns tree folder, ?_, ?_⟩
  · rw [← Fields.mergeAll_append, List.take_append_drop]
  · rintro before layer after rfl
    refine mergeAll_repeated ?_ before after
    cases layer with
    | none => rfl
    | some fields => exact hmaps (some fields) (by simp) fields rfl
  · exact Value.at?_ne_unset (Fields.isPlain_mergeAll layers)
  · intro top htop path hunset
    rw [Fields.mergeAll_concat]
    have hmap : (Value.map top).wellFormed (fun _ => true) = true := htop
    exact Value.at?_over_of_unset hmap hunset (some (.map (Fields.mergeAll layers)))
  · intro before a after heq hlast
    rw [List.map_map]
    exact at?_mergeAll_of_last hproper hfree layers heq hlast
  · intro sources' assignments' hassigns' hreordered
    refine ⟨assignments'.map layer, readLayers_of_assigns hassigns' tree folder, ?_⟩
    rw [List.map_map, List.map_map]
    exact sameMap_of_reordered hproper hfree hreordered layers

/-- Two settings side by side over the built-in layer, one of which is assigned twice. -/
theorem layers_compose_builtin : ∃ own,
    readLayers [] none ["scriptmanager.doc_scan_limit=1", "scriptmanager.targets=[]", "scriptmanager.doc_scan_limit=x"] = .ok own ∧
    (Fields.mergeAll ([some builtin, none] ++ own.map some)).at? [.text "scriptmanager", .text "doc_scan_limit"] =
      some (.text "x") ∧
    ∃ own', readLayers [] none
        ["scriptmanager.targets=[]", "scriptmanager.doc_scan_limit=1", "scriptmanager.doc_scan_limit=x"] = .ok own' ∧
      Fields.SameMap (Fields.mergeAll ([some builtin, none] ++ own.map some))
        (Fields.mergeAll ([some builtin, none] ++ own'.map some)) := by
  have hmaps : ∀ layer ∈ [some builtin, none], ∀ fields ∈ layer, Fields.isMap fields = true := by
    have hbuiltin : Fields.isMap builtin = true := by rfl
    simp [hbuiltin]
  have hlimit : Assigns "scriptmanager.doc_scan_limit=1" ⟨["scriptmanager", "doc_scan_limit"], .int 1⟩ :=
    ⟨"scriptmanager.doc_scan_limit".toList, "1".toList, by decide, by decide, by rfl⟩
  have htargets : Assigns "scriptmanager.targets=[]" ⟨["scriptmanager", "targets"], .list []⟩ :=
    ⟨"scriptmanager.targets".toList, "[]".toList, by decide, by decide, by rfl⟩
  have hword : Assigns "scriptmanager.doc_scan_limit=x" ⟨["scriptmanager", "doc_scan_limit"], .text "x"⟩ :=
    ⟨"scriptmanager.doc_scan_limit".toList, "x".toList, by decide, by decide, by rfl⟩
  obtain ⟨-, -, -, -, own, hown, hlast, hreordered⟩ :=
    layers_compose hmaps (.cons hlimit (.cons htargets (.cons hword .nil))) (by simp) (by simp [PrefixFree]) [] none
  refine ⟨own, hown, hlast [_, _] _ [] rfl (by simp), ?_⟩
  refine hreordered _ _ (.cons htargets (.cons hlimit (.cons hword .nil))) fun path => ?_
  by_cases hpath : path = ["scriptmanager", "targets"]
  · subst hpath
    rfl
  · simp [List.filter_cons, Ne.symm hpath]

end Settings

end UserScripts
