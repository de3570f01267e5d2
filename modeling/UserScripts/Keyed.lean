/-!
# Keyed lists

Lists of pairs with a key, in the order in which the keys first came. Pages by title, texts by target, messages by name and the
fields of a configuration are all of this kind. The main statements give what a key holds after a change.
-/

namespace UserScripts

/-- A list of values under keys, in the order in which the keys came. -/
abbrev Keyed (κ α : Type) := List (κ × α)

namespace Keyed

variable {κ α : Type} [DecidableEq κ]

/-- The value under a key. -/
def get? (entries : Keyed κ α) (key : κ) : Option α :=
  entries.lookup key

/-- The entries with one of them set: in its place if the key is there, else at the end. -/
def put (key : κ) (value : α) : Keyed κ α → Keyed κ α
  | [] => [(key, value)]
  | (k, v) :: rest => if k = key then (key, value) :: rest else (k, v) :: put key value rest

/-- The entries without a key. -/
def erase (key : κ) (entries : Keyed κ α) : Keyed κ α :=
  entries.filter fun entry => entry.1 != key

/-- The entries of a list of pairs, of which the last one under a key wins. -/
def ofPairs (pairs : List (κ × α)) : Keyed κ α :=
  pairs.foldl (fun entries (key, value) => put key value entries) []

@[simp]
theorem get?_nil (key : κ) : get? ([] : Keyed κ α) key = none := rfl

theorem get?_cons (k : κ) (v : α) (rest : Keyed κ α) (key : κ) :
    get? ((k, v) :: rest) key = if k = key then some v else get? rest key := by
  by_cases h : k = key
  · subst h; simp [get?]
  · simp [get?, List.lookup_cons, beq_eq_false_iff_ne.2 (Ne.symm h), h]

theorem get?_put (key other : κ) (value : α) (entries : Keyed κ α) :
    get? (put key value entries) other = if key = other then some value else get? entries other := by
  induction entries with
  | nil => simp [put, get?_cons]
  | cons entry rest ih =>
    obtain ⟨k, v⟩ := entry
    simp only [put]
    split
    · next h => subst h; simp only [get?_cons]; split <;> rfl
    · next h => simp only [get?_cons, ih]; split <;> split <;> simp_all

@[simp]
theorem get?_put_self (key : κ) (value : α) (entries : Keyed κ α) : get? (put key value entries) key = some value := by
  simp [get?_put]

theorem get?_erase (key other : κ) (entries : Keyed κ α) :
    get? (erase key entries) other = if key = other then none else get? entries other := by
  induction entries with
  | nil => simp [erase]
  | cons entry rest ih =>
    obtain ⟨k, v⟩ := entry
    simp only [erase, List.filter_cons] at ih ⊢
    by_cases h : k = key
    · subst h; simp only [bne_self_eq_false, Bool.false_eq_true, if_false, ih, get?_cons]; split <;> rfl
    · simp only [bne_iff_ne, ne_eq, h, not_false_eq_true, if_true, get?_cons, ih]; split <;> split <;> simp_all

end Keyed

end UserScripts
