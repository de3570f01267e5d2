import Mathlib.Data.List.Induction
import UserScripts.Value.Merge

/-!
# How layers merge

Merging goes field by field and, where a map comes over a map, on into the maps. So the laws of a merge are those of what a single
value does to the one below it (`Value.over`), taken through one induction over maps. Main statements: `Fields.merge_self`, a layer that
comes twice counts once; `Fields.mergeAll_append`, layers can be merged in groups; `Fields.isPlain_mergeAll`, nothing stays unset; and
`Value.at?_over_of_unset`, an unset field leaves what is below it.
-/

namespace UserScripts

/-! ## Keys -/

namespace Key

variable {a b c : Key}

/-- The key that stands for all keys that are the same: the integer, or the key itself if it is none. -/
def canonical (k : Key) : Key :=
  match k.int? with
  | some n => .int n
  | none => k

/-- The key that stands for a key is the same integer, if it is one. -/
theorem int?_canonical (k : Key) : k.canonical.int? = k.int? := by
  rw [canonical]
  cases h : k.int? with
  | none => exact h
  | some n => rfl

/-- Keys are the same exactly if one key stands for both. -/
theorem same_iff : a.same b = true ↔ a.canonical = b.canonical := by
  rw [same, Bool.or_eq_true, Bool.and_eq_true, beq_iff_eq, beq_iff_eq]
  constructor
  · rintro (rfl | ⟨hsome, heq⟩)
    · rfl
    · obtain ⟨n, hn⟩ := Option.isSome_iff_exists.mp hsome
      rw [canonical, canonical, ← heq, hn]
  · intro h
    have hint : a.int? = b.int? := by rw [← int?_canonical a, ← int?_canonical b, h]
    cases hn : a.int? with
    | none =>
      rw [canonical, canonical, ← hint, hn] at h
      exact Or.inl h
    | some n => exact Or.inr ⟨rfl, hint ▸ hn.symm⟩

/-- Every key is the same as itself. -/
theorem same_refl (k : Key) : k.same k = true :=
  same_iff.mpr rfl

/-- Being the same key does not depend on the order. -/
theorem same_comm (a b : Key) : a.same b = b.same a := by
  rw [Bool.eq_iff_iff, same_iff, same_iff, eq_comm]

/-- Keys that are the same are the same as the same keys. -/
theorem same_congr_left (h : a.same b = true) (c : Key) : a.same c = b.same c := by
  rw [Bool.eq_iff_iff, same_iff, same_iff, same_iff.mp h]

/-- A text is the same as no other key. -/
theorem text_same_iff {s : String} : (text s).same b = true ↔ text s = b := by
  refine ⟨fun h => ?_, fun h => h ▸ same_refl _⟩
  have hcanonical := same_iff.mp h
  rw [show (text s).canonical = text s from rfl, canonical] at hcanonical
  split at hcanonical
  · cases hcanonical
  · exact hcanonical

end Key

/-! ## Fields -/

namespace Fields

variable {key other : Key} {value : Value} {fields : Fields}

/-- Keys that are the same find the same value. -/
theorem under?_congr (h : key.same other = true) (fields : Fields) : under? key fields = under? other fields := by
  induction fields with
  | nil => rfl
  | cons field rest ih =>
    obtain ⟨k, v⟩ := field
    rw [under?, under?, ih, Key.same_comm k key, Key.same_comm k other, Key.same_congr_left h k]

/-- A value that is set is found under every key that is the same, and under others what was there. -/
theorem under?_set (key other : Key) (value : Value) (fields : Fields) :
    under? other (set key value fields) = if key.same other then some value else under? other fields := by
  induction fields with
  | nil => rfl
  | cons field rest ih =>
    obtain ⟨k, v⟩ := field
    rw [set]
    by_cases hk : k.same key = true
    · rw [if_pos hk, under?, under?, Key.same_congr_left hk other]
      split <;> rfl
    · rw [if_neg hk, under?, under?, ih]
      by_cases hother : k.same other = true
      · rw [if_pos hother, if_pos hother, if_neg]
        rwa [Key.same_comm, ← Key.same_congr_left hother key]
      · rw [if_neg hother, if_neg hother]

/-- Setting a field to the value that it has changes nothing. -/
theorem set_eq_self (h : under? key fields = some value) : set key value fields = fields := by
  induction fields with
  | nil => cases h
  | cons field rest ih =>
    obtain ⟨k, v⟩ := field
    rw [under?] at h
    rw [set]
    by_cases hk : k.same key = true
    · rw [if_pos hk] at h ⊢
      rw [Option.some.inj h]
    · rw [if_neg hk] at h ⊢
      rw [ih h]

/-- Nothing is found under a key exactly if no field has one that is the same. -/
theorem under?_eq_none : under? key fields = none ↔ ∀ field ∈ fields, field.1.same key = false := by
  induction fields with
  | nil => simp [under?]
  | cons field rest ih =>
    obtain ⟨k, v⟩ := field
    rw [under?, List.forall_mem_cons, ← ih]
    cases k.same key <;> simp

/-- A field with a new key comes last. -/
theorem set_of_under?_eq_none (value : Value) (h : under? key fields = none) : set key value fields = fields ++ [(key, value)] := by
  induction fields with
  | nil => rfl
  | cons field rest ih =>
    obtain ⟨k, v⟩ := field
    obtain ⟨hk, hrest⟩ := List.forall_mem_cons.mp (under?_eq_none.mp h)
    rw [set, if_neg (by simp [hk]), ih (under?_eq_none.mpr hrest), List.cons_append]

/-- What is found under a key is the value of a field with one that is the same. -/
theorem mem_of_under? (h : under? key fields = some value) : ∃ k, k.same key = true ∧ (k, value) ∈ fields := by
  induction fields with
  | nil => cases h
  | cons field rest ih =>
    obtain ⟨k, v⟩ := field
    rw [under?] at h
    split at h
    · next hk => exact ⟨k, hk, by rw [Option.some.inj h]; exact List.mem_cons_self⟩
    · obtain ⟨k', hk', hmem⟩ := ih h
      exact ⟨k', hk', List.mem_cons_of_mem _ hmem⟩

/-- A field after one has been set was there before, or it has the new value. -/
theorem mem_set {field : Key × Value} (h : field ∈ set key value fields) :
    field ∈ fields ∨ field.2 = value ∧ (field.1 = key ∨ ∃ v, (field.1, v) ∈ fields) := by
  induction fields with
  | nil =>
    obtain rfl := List.mem_singleton.mp h
    exact Or.inr ⟨rfl, Or.inl rfl⟩
  | cons head rest ih =>
    obtain ⟨k, v⟩ := head
    rw [set] at h
    split at h
    · rcases List.mem_cons.mp h with rfl | h
      · exact Or.inr ⟨rfl, Or.inr ⟨v, List.mem_cons_self⟩⟩
      · exact Or.inl (List.mem_cons_of_mem _ h)
    · rcases List.mem_cons.mp h with rfl | h
      · exact Or.inl List.mem_cons_self
      · rcases ih h with h | ⟨hvalue, hkey | ⟨w, hw⟩⟩
        · exact Or.inl (List.mem_cons_of_mem _ h)
        · exact Or.inr ⟨hvalue, Or.inl hkey⟩
        · exact Or.inr ⟨hvalue, Or.inr ⟨w, List.mem_cons_of_mem _ hw⟩⟩

/-- Whether no key stands twice. -/
def DistinctKeys (fields : Fields) : Prop :=
  fields.Pairwise fun a b => a.1.same b.1 = false

/-- If no key stands twice then every field is found under its key. -/
theorem under?_of_mem (distinct : DistinctKeys fields) (h : (key, value) ∈ fields) : under? key fields = some value := by
  induction fields with
  | nil => cases h
  | cons field rest ih =>
    obtain ⟨k, v⟩ := field
    obtain ⟨hhead, hrest⟩ := List.pairwise_cons.mp distinct
    rw [under?]
    rcases List.mem_cons.mp h with heq | h
    · obtain ⟨rfl, rfl⟩ := Prod.mk.inj heq
      rw [if_pos (Key.same_refl key)]
    · rw [if_neg (by simp [hhead _ h]), ih hrest h]

/-- Setting a field leaves keys distinct. -/
theorem DistinctKeys.set (distinct : DistinctKeys fields) (key : Key) (value : Value) : DistinctKeys (fields.set key value) := by
  induction fields with
  | nil => exact List.pairwise_singleton _ _
  | cons field rest ih =>
    obtain ⟨k, v⟩ := field
    obtain ⟨hhead, hrest⟩ := List.pairwise_cons.mp distinct
    rw [Fields.set]
    by_cases hk : k.same key = true
    · rw [if_pos hk]
      exact List.pairwise_cons.mpr ⟨hhead, hrest⟩
    · rw [if_neg hk]
      refine List.pairwise_cons.mpr ⟨fun entry hentry => ?_, ih hrest⟩
      rcases mem_set hentry with hmem | ⟨-, hkey | ⟨w, hw⟩⟩
      · exact hhead entry hmem
      · rw [hkey]
        simpa using hk
      · exact hhead (entry.1, w) hw

end Fields

/-! ## Maps at every depth -/

/-- Whether a value is the mark of an unset field. -/
def Value.isUnset : Value → Bool
  | .unset => true
  | _ => false

mutual

/-- Whether no key stands twice in a map at any depth, and what is no map is allowed. -/
def Value.wellFormed (allowed : Value → Bool) : Value → Bool
  | .map fields => Fields.wellFormed allowed fields
  | value => allowed value

/-- Whether no key stands twice in the fields at any depth, and what is no map is allowed. -/
def Fields.wellFormed (allowed : Value → Bool) : Fields → Bool
  | [] => true
  | (key, value) :: rest =>
    rest.all (fun field => !key.same field.1) && Value.wellFormed allowed value && Fields.wellFormed allowed rest

end

/-- Whether fields are those of a map: at no depth a key stands twice. -/
def Fields.isMap (fields : Fields) : Bool :=
  fields.wellFormed fun _ => true

/-- Whether fields are those of a map in which nothing is unset, at any depth. -/
def Fields.isPlain (fields : Fields) : Bool :=
  fields.wellFormed fun value => !value.isUnset

/-- A value that is no map is well-formed if it is allowed. -/
theorem Value.wellFormed_of_not_map {allowed : Value → Bool} {v : Value} (h : ∀ fields, v ≠ .map fields) :
    v.wellFormed allowed = allowed v := by
  cases v with
  | map fields => exact absurd rfl (h fields)
  | _ => rfl

/-- Fields are well-formed if their keys are distinct and their values are well-formed. -/
theorem Fields.wellFormed_iff {allowed : Value → Bool} {fields : Fields} : fields.wellFormed allowed = true ↔
    fields.DistinctKeys ∧ ∀ field ∈ fields, field.2.wellFormed allowed = true := by
  induction fields with
  | nil => simp [wellFormed, DistinctKeys]
  | cons field rest ih =>
    obtain ⟨k, v⟩ := field
    rw [wellFormed, Bool.and_eq_true, Bool.and_eq_true, ih, List.forall_mem_cons, List.all_eq_true]
    simp only [DistinctKeys, List.pairwise_cons, Bool.not_eq_true']
    exact ⟨fun ⟨⟨hk, hv⟩, hrest, hvalues⟩ => ⟨⟨hk, hrest⟩, hv, hvalues⟩,
      fun ⟨⟨hk, hrest⟩, hv, hvalues⟩ => ⟨⟨hk, hv⟩, hrest, hvalues⟩⟩

/-- What holds of all values but maps, and of a map if it holds of its values, holds of every value. -/
theorem Value.map_induction {motive : Value → Prop} (other : ∀ v, (∀ fields, v ≠ .map fields) → motive v)
    (map : ∀ fields : Fields, (∀ field ∈ fields, motive field.2) → motive (.map fields)) (v : Value) : motive v := by
  cases v with
  | map fields =>
    refine map fields fun field h => ?_
    have hlt := List.sizeOf_lt_of_mem h
    exact map_induction other map field.2
  | _ => exact other _ nofun
termination_by sizeOf v
decreasing_by
  obtain ⟨k, v⟩ := field
  simp_all
  omega

/-! ## One value over another -/

namespace Value

variable {v w : Value} {below : Option Value}

/-- A map over a value is merged into the fields of that value. -/
theorem over_map (below : Option Value) (fields : Fields) :
    Value.over below (.map fields) = some (.map (Fields.merge (below.elim [] Value.fields) fields)) := by
  rw [Value.over]

/-- A value that is no map takes the place of the one below it, unless it is unset. -/
theorem over_of_not_map (h : ∀ fields, v ≠ .map fields) (below : Option Value) :
    Value.over below v = if v.isUnset then below else some v := by
  cases v with
  | map fields => exact absurd rfl (h fields)
  | _ => simp [Value.over, isUnset]

end Value

namespace Fields

variable {base fields : Fields}

/-- The fields with one of them given a value: what the value makes of the one below it, if anything. -/
def give (key : Key) (value : Value) (base : Fields) : Fields :=
  match Value.over (under? key base) value with
  | some new => set key new base
  | none => base

/-- Without fields nothing is merged. -/
theorem merge_nil (base : Fields) : merge base [] = base := by
  rw [merge]

/-- Fields are merged one after the other. -/
theorem merge_cons (base : Fields) (key : Key) (value : Value) (rest : Fields) :
    merge base ((key, value) :: rest) = merge (give key value base) rest := by
  rw [merge]
  rfl

/-- A field that is given a value is found so, and others are as they were. -/
theorem under?_give (key other : Key) (value : Value) (base : Fields) : under? other (give key value base) =
    if key.same other then Value.over (under? key base) value else under? other base := by
  rw [give]
  cases hnew : Value.over (under? key base) value with
  | some new => exact under?_set key other new base
  | none =>
    -- A value that leaves nothing is unset, over nothing.
    by_cases hkey : key.same other = true
    · rw [if_pos hkey, ← under?_congr hkey]
      by_cases hmap : ∃ f, value = .map f
      · obtain ⟨f, rfl⟩ := hmap
        rw [Value.over_map] at hnew
        cases hnew
      · rw [Value.over_of_not_map (fun f hf => hmap ⟨f, hf⟩)] at hnew
        split at hnew
        · exact hnew
        · cases hnew
    · rw [if_neg hkey]

/-- What a field holds after a merge: what the layer makes of it, or what it held before. -/
theorem under?_merge (distinct : DistinctKeys fields) (key : Key) (base : Fields) : under? key (merge base fields) =
    match under? key fields with
    | some value => Value.over (under? key base) value
    | none => under? key base := by
  induction fields generalizing base with
  | nil => rw [merge_nil]; rfl
  | cons field rest ih =>
    obtain ⟨k, v⟩ := field
    obtain ⟨hhead, hrest⟩ := List.pairwise_cons.mp distinct
    rw [merge_cons, ih hrest, under?_give, under?]
    by_cases hk : k.same key = true
    · have hnone : under? key rest = none := by
        refine under?_eq_none.mpr fun field hfield => ?_
        rw [Key.same_comm, ← Key.same_congr_left hk]
        exact hhead field hfield
      rw [hnone, if_pos hk, if_pos hk, under?_congr hk]
    · rw [if_neg hk, if_neg hk]

/-! ## The same layer twice -/

/-- A layer that gives no field anything new changes nothing. -/
theorem merge_eq_self (h : ∀ field ∈ fields, Value.over (under? field.1 base) field.2 = under? field.1 base) :
    merge base fields = base := by
  induction fields with
  | nil => exact merge_nil base
  | cons field rest ih =>
    obtain ⟨k, v⟩ := field
    obtain ⟨hhead, hrest⟩ := List.forall_mem_cons.mp h
    have hgive : give k v base = base := by
      rw [give, hhead]
      cases hk : under? k base with
      | none => rfl
      | some w => exact set_eq_self hk
    rw [merge_cons, hgive, ih hrest]

/-- Fields can be merged twice if each of their values can. -/
theorem merge_self_of_over_self (distinct : DistinctKeys fields)
    (h : ∀ field ∈ fields, ∀ below, Value.over (Value.over below field.2) field.2 = Value.over below field.2) (base : Fields) :
    merge (merge base fields) fields = merge base fields := by
  refine merge_eq_self fun field hfield => ?_
  rw [under?_merge distinct, under?_of_mem distinct hfield]
  exact h field hfield _

end Fields

/-- A value that is put over what it has made changes nothing. -/
theorem Value.over_over {allowed : Value → Bool} (v : Value) :
    v.wellFormed allowed = true → ∀ below, Value.over (Value.over below v) v = Value.over below v := by
  induction v using Value.map_induction with
  | other v hv =>
    intro _ below
    rw [over_of_not_map hv, over_of_not_map hv]
    split <;> rfl
  | map fields ih =>
    intro hv below
    obtain ⟨distinct, hvalues⟩ := Fields.wellFormed_iff.mp hv
    rw [over_map, over_map]
    exact congrArg (some ∘ Value.map)
      (Fields.merge_self_of_over_self distinct (fun field hfield => ih field hfield (hvalues field hfield)) _)

/-- A layer that comes twice counts once. -/
theorem Fields.merge_self {fields : Fields} (h : fields.isMap = true) (base : Fields) :
    merge (merge base fields) fields = merge base fields := by
  obtain ⟨distinct, hvalues⟩ := wellFormed_iff.mp h
  exact merge_self_of_over_self distinct (fun field hfield => Value.over_over field.2 (hvalues field hfield)) base

/-! ## Nothing stays unset -/

namespace Fields

variable {base fields : Fields}

/-- Setting a well-formed value leaves fields well-formed. -/
theorem wellFormed_set {allowed : Value → Bool} (h : base.wellFormed allowed = true) {value : Value}
    (hvalue : value.wellFormed allowed = true) (key : Key) : (base.set key value).wellFormed allowed = true := by
  obtain ⟨distinct, hvalues⟩ := wellFormed_iff.mp h
  refine wellFormed_iff.mpr ⟨distinct.set key value, fun field hfield => ?_⟩
  rcases mem_set hfield with hmem | ⟨heq, -⟩
  · exact hvalues field hmem
  · rw [heq, hvalue]

/-- What is found in well-formed fields is well-formed. -/
theorem wellFormed_of_under? {allowed : Value → Bool} (h : base.wellFormed allowed = true) {key : Key} {value : Value}
    (hvalue : under? key base = some value) : value.wellFormed allowed = true := by
  obtain ⟨k, -, hmem⟩ := mem_of_under? hvalue
  exact (wellFormed_iff.mp h).2 _ hmem

/-- Merging leaves fields plain if none of the values brings in the mark of an unset field. -/
theorem isPlain_merge_of_over {fields : Fields}
    (h : ∀ field ∈ fields, ∀ below : Option Value, (∀ w ∈ below, w.wellFormed (fun v => !v.isUnset) = true) →
      ∀ w ∈ Value.over below field.2, w.wellFormed (fun v => !v.isUnset) = true)
    (hbase : base.isPlain = true) : (merge base fields).isPlain = true := by
  induction fields generalizing base with
  | nil => rwa [merge_nil]
  | cons field rest ih =>
    obtain ⟨k, v⟩ := field
    obtain ⟨hhead, hrest⟩ := List.forall_mem_cons.mp h
    rw [merge_cons]
    refine ih hrest ?_
    rw [give]
    have hnew := hhead (under? k base) fun w hw => wellFormed_of_under? hbase hw
    cases hover : Value.over (under? k base) v with
    | none => exact hbase
    | some new => exact wellFormed_set hbase (hnew new hover) k

end Fields

/-- Over a value in which nothing is unset, no value leaves anything unset. -/
theorem Value.wellFormed_over (v : Value) : ∀ below : Option Value, (∀ w ∈ below, w.wellFormed (fun v => !v.isUnset) = true) →
    ∀ w ∈ Value.over below v, w.wellFormed (fun v => !v.isUnset) = true := by
  induction v using Value.map_induction with
  | other v hv =>
    intro below hbelow w hw
    rw [over_of_not_map hv] at hw
    split at hw
    · exact hbelow w hw
    · next hunset =>
      obtain rfl := Option.some.inj hw
      rw [wellFormed_of_not_map hv]
      simpa using hunset
  | map fields ih =>
    intro below hbelow w hw
    rw [over_map] at hw
    obtain rfl := Option.some.inj hw
    refine Fields.isPlain_merge_of_over ih ?_
    cases below with
    | none => rfl
    | some b =>
      have hb := hbelow b rfl
      cases b with
      | map f => exact hb
      | _ => rfl

namespace Fields

variable {base fields : Fields}

/-- Merging into plain fields gives plain fields. -/
theorem isPlain_merge (h : base.isPlain = true) (fields : Fields) : (merge base fields).isPlain = true :=
  isPlain_merge_of_over (fun field _ => Value.wellFormed_over field.2) h

/-- A further layer is merged over the ones before it. -/
theorem mergeAll_concat (layers : List (Option Fields)) (layer : Option Fields) :
    mergeAll (layers ++ [layer]) = merge (mergeAll layers) (layer.getD []) := by
  rw [mergeAll, List.foldl_append]
  rfl

/-- In merged layers nothing is unset. -/
theorem isPlain_mergeAll (layers : List (Option Fields)) : (mergeAll layers).isPlain = true := by
  induction layers using List.reverseRecOn with
  | nil => rfl
  | append_singleton layers layer ih =>
    rw [mergeAll_concat]
    exact isPlain_merge ih _

/-! ## Groups of layers -/

/-- Fields with new keys are merged by being put after the others. -/
theorem merge_append_of_over (h : ∀ field ∈ fields, Value.over none field.2 = some field.2)
    (distinct : DistinctKeys (base ++ fields)) : merge base fields = base ++ fields := by
  induction fields generalizing base with
  | nil => rw [merge_nil, List.append_nil]
  | cons field rest ih =>
    obtain ⟨k, v⟩ := field
    obtain ⟨hhead, hrest⟩ := List.forall_mem_cons.mp h
    have hnone : under? k base = none :=
      under?_eq_none.mpr fun field hfield => (List.pairwise_append.mp distinct).2.2 field hfield _ List.mem_cons_self
    have hgive : give k v base = base ++ [(k, v)] := by
      rw [give, hnone, hhead]
      exact set_of_under?_eq_none v hnone
    rw [merge_cons, hgive, ih hrest (by rwa [List.append_assoc, List.singleton_append]), List.append_assoc, List.singleton_append]

end Fields

/-- A value in which nothing is unset is taken over as it is where nothing is below it. -/
theorem Value.over_none (v : Value) : v.wellFormed (fun v => !v.isUnset) = true → Value.over none v = some v := by
  induction v using Value.map_induction with
  | other v hv =>
    intro h
    rw [wellFormed_of_not_map hv] at h
    rw [over_of_not_map hv, if_neg (by simpa using h)]
  | map fields ih =>
    intro h
    obtain ⟨distinct, hvalues⟩ := Fields.wellFormed_iff.mp h
    rw [over_map]
    exact congrArg (some ∘ Value.map) (Fields.merge_append_of_over (fun field hfield => ih field hfield (hvalues field hfield)) distinct)

namespace Fields

/-- A single layer in which nothing is unset is its own merge. -/
theorem merge_nil_left {fields : Fields} (h : fields.isPlain = true) : merge [] fields = fields := by
  obtain ⟨distinct, hvalues⟩ := wellFormed_iff.mp h
  exact merge_append_of_over (fun field hfield => Value.over_none field.2 (hvalues field hfield)) distinct

/-- Layers can be merged in groups: some of the first ones may give way to their merge. -/
theorem mergeAll_append (layers more : List (Option Fields)) :
    mergeAll (layers ++ more) = mergeAll (some (mergeAll layers) :: more) := by
  have hself := merge_nil_left (isPlain_mergeAll layers)
  rw [mergeAll, mergeAll, List.foldl_append, List.foldl_cons, Option.getD_some, hself]
  rfl

end Fields

/-! ## Paths of keys -/

/-- The value at a path of keys. -/
def Value.at? : List Key → Value → Option Value
  | [], v => some v
  | key :: path, v => (Fields.under? key v.fields).bind (Value.at? path)

/-- The value at a path of keys from some fields on. -/
def Fields.at? (fields : Fields) (path : List Key) : Option Value :=
  Value.at? path (.map fields)

/-- The value at a path of keys from a value on that may be missing. -/
def Value.below? (below : Option Value) (path : List Key) : Option Value :=
  below.bind (Value.at? path)

namespace Value

/-- The value at a path begins with the field of its first key. -/
theorem below?_cons (below : Option Value) (key : Key) (path : List Key) :
    below? below (key :: path) = below? (Fields.under? key (below.elim [] Value.fields)) path := by
  cases below <;> rfl

/-- Where a value is unset, what was below it stays. -/
theorem at?_over_of_unset {allowed : Value → Bool} {v : Value} (hv : v.wellFormed allowed = true) {path : List Key}
    (hunset : v.at? path = some .unset) (below : Option Value) : below? (Value.over below v) path = below? below path := by
  induction path generalizing v below with
  | nil =>
    obtain rfl := Option.some.inj hunset
    rw [Value.over]
  | cons key path ih =>
    obtain ⟨w, hw, hpath⟩ := Option.bind_eq_some_iff.mp hunset
    cases v with
    | map fields =>
      have hkey : Fields.under? key (Fields.merge (below.elim [] Value.fields) fields) =
          Value.over (Fields.under? key (below.elim [] Value.fields)) w := by
        rw [Fields.under?_merge (Fields.wellFormed_iff.mp hv).1, show Fields.under? key fields = some w from hw]
      rw [over_map, below?_cons, below?_cons]
      exact (congrArg (below? · path) hkey).trans (ih (Fields.wellFormed_of_under? hv hw) hpath _)
    | _ => cases hw

/-- In a value in which nothing is unset, no path leads to an unset one. -/
theorem at?_ne_unset {v : Value} (hv : v.wellFormed (fun v => !v.isUnset) = true) (path : List Key) :
    v.at? path ≠ some .unset := by
  induction path generalizing v with
  | nil =>
    intro h
    obtain rfl := Option.some.inj h
    cases hv
  | cons key path ih =>
    intro h
    obtain ⟨w, hw, hpath⟩ := Option.bind_eq_some_iff.mp h
    cases v with
    | map fields => exact ih (Fields.wellFormed_of_under? hv hw) hpath
    | _ => cases hw

end Value

end UserScripts
