import UserScripts.Proofs.Text.Scan
import UserScripts.Wrapper.Marker

/-!
# Facts about markers

Which lines can never become a marker, and which runs of lines the markers of a page make out. Main statements: `Tame.marks`, a
line that does not come to a marker word after its blanks and slashes is no marker, and `rangesFrom_block`, a run between two
markers is found whatever follows.
-/

namespace UserScripts.Wrapper

open UserScripts.Text

/-! ## Lines that are no markers -/

/-- What follows the blanks and slashes at the start of a line. -/
def core (line : String) : List Char :=
  line.toList.dropWhile fun c => isBlank c || c == '/'

/-- A line that does not come to a marker word, however it is switched off and on. -/
def Tame (line : String) : Prop :=
  ¬"SM-CAPTURE".toList <+: core line

instance (line : String) : Decidable (Tame line) :=
  inferInstanceAs (Decidable (¬_))

/-- Every marker word starts in the same way. -/
theorem Marker.word_prefix (m : Marker) : "SM-CAPTURE".toList <+: m.word.toList := by
  cases m <;> decide

/-- Blanks and slashes do not count for the core of a line. -/
theorem core_of_append {line : String} (gap rest : List Char) (h : line.toList = gap ++ rest)
    (hgap : ∀ c ∈ gap, isBlank c = true ∨ c = '/') : core line = rest.dropWhile fun c => isBlank c || c == '/' := by
  rw [core, h, List.dropWhile_append_of_pos]
  intro c hc
  rcases hgap c hc with hb | rfl
  · simp [hb]
  · simp

/-- A line that does not come to a marker word is no marker. -/
theorem Tame.marks {line : String} (h : Tame line) (m : Marker) : m.marks line = false := by
  by_contra hm
  rw [Bool.not_eq_false, Marker.marks] at hm
  split at hm
  · next rest hs =>
    split at hm
    · next rest' hw =>
      obtain ⟨b, hb, hblank⟩ := exists_blank_append_dropBlank line.toList
      obtain ⟨b', hb', hblank'⟩ := exists_blank_append_dropBlank rest
      rw [after?_eq_some.mp hs] at hb
      rw [after?_eq_some.mp hw] at hb'
      apply h
      have hcore : core line = (m.word.toList ++ rest').dropWhile fun c => isBlank c || c == '/' := by
        refine core_of_append (b ++ "//".toList ++ b') _ (by rw [hb]; nth_rewrite 1 [hb']; simp) ?_
        intro c hc
        simp only [List.mem_append] at hc
        rcases hc with (hc | hc) | hc
        · exact Or.inl (hblank c hc)
        · right; revert hc; revert c; decide
        · exact Or.inl (hblank' c hc)
      obtain ⟨more, hmore⟩ := m.word_prefix
      rw [hcore, ← hmore, List.append_assoc]
      exact List.prefix_append _ _
    · nomatch hm
  · nomatch hm

/-- A line is tame if its core starts with a letter of another word. -/
theorem tame_of_core {line : String} {c : Char} {rest : List Char} (h : core line = c :: rest) (hc : c ≠ 'S') : Tame line := by
  intro hp
  rw [h] at hp
  obtain ⟨more, hm⟩ := hp
  have hhead : 'S' = c := congrArg (fun l => l.headD 'S') hm
  exact hc hhead.symm

/-- A line that nowhere holds the start of a marker word is tame. -/
theorem tame_of_not_infix {line : String} (h : ¬"SM-CAPTURE".toList <:+: line.toList) : Tame line := by
  intro hp
  exact h (hp.isInfix.trans (List.dropWhile_suffix _).isInfix)

/-! ## Runs of lines -/

/-- A start marker opens a run and an end marker closes the open one. -/
theorem rangesFrom_cons (opens closes : Marker) (i : Nat) (isOpen : Option Nat) (l : String) (ls : List String) :
    rangesFrom opens closes i isOpen (l :: ls) =
      if opens.marks l then rangesFrom opens closes (i + 1) (some i) ls
      else if isOpen.isSome && closes.marks l then (isOpen.getD i, i) :: rangesFrom opens closes (i + 1) none ls
      else rangesFrom opens closes (i + 1) isOpen ls := by
  cases isOpen <;> simp [rangesFrom]

/-- The position of the run that is open after lines of which the first has position `i`. -/
def openAfter (opens closes : Marker) (i : Nat) (isOpen : Option Nat) : List String → Option Nat
  | [] => isOpen
  | line :: rest =>
    if opens.marks line then openAfter opens closes (i + 1) (some i) rest
    else if isOpen.isSome && closes.marks line then openAfter opens closes (i + 1) none rest
    else openAfter opens closes (i + 1) isOpen rest

/-- The scan of the second part goes on with the run that the first one leaves open. -/
theorem rangesFrom_append_openAfter (opens closes : Marker) (i : Nat) (isOpen : Option Nat) (a b : List String) :
    rangesFrom opens closes i isOpen (a ++ b) =
      rangesFrom opens closes i isOpen a ++ rangesFrom opens closes (i + a.length) (openAfter opens closes i isOpen a) b := by
  induction a generalizing i isOpen with
  | nil => rfl
  | cons l a ih =>
    have hlen : i + (l :: a).length = i + 1 + a.length := by
      rw [List.length_cons]
      omega
    rw [List.cons_append, rangesFrom_cons, rangesFrom_cons _ _ _ _ l a, openAfter, hlen, ih, ih, ih]
    split
    · rfl
    · split
      · rfl
      · rfl

/-- Lines that are no markers are passed by. -/
theorem rangesFrom_append {opens closes : Marker} {ls : List String}
    (h : ∀ l ∈ ls, opens.marks l = false ∧ closes.marks l = false) (i : Nat) (isOpen : Option Nat) (more : List String) :
    rangesFrom opens closes i isOpen (ls ++ more) = rangesFrom opens closes (i + ls.length) isOpen more := by
  induction ls generalizing i with
  | nil => rfl
  | cons l ls ih =>
    obtain ⟨ho, hc⟩ := h l List.mem_cons_self
    have hrest := ih (fun m hm => h m (List.mem_cons_of_mem _ hm)) (i + 1)
    rw [List.cons_append, rangesFrom_cons, List.length_cons, ← Nat.add_assoc, Nat.add_right_comm, ← hrest]
    simp [ho, hc]

/-- Lines that are no markers have no ranges. -/
theorem rangesFrom_of_no_marker {opens closes : Marker} {ls : List String}
    (h : ∀ l ∈ ls, opens.marks l = false ∧ closes.marks l = false) (i : Nat) (isOpen : Option Nat) :
    rangesFrom opens closes i isOpen ls = [] := by
  have := rangesFrom_append h i isOpen []
  rw [List.append_nil] at this
  rw [this]
  rfl

/-- A run between two markers is complete, whatever follows it. -/
theorem rangesFrom_block {opens closes : Marker} {first last : String} {body : List String}
    (hfirst : opens.marks first = true) (hbody : ∀ l ∈ body, opens.marks l = false ∧ closes.marks l = false)
    (hlast : opens.marks last = false ∧ closes.marks last = true) (i : Nat) (isOpen : Option Nat) (more : List String) :
    rangesFrom opens closes i isOpen (first :: (body ++ last :: more)) =
      (i, i + body.length + 1) :: rangesFrom opens closes (i + body.length + 2) none more := by
  rw [rangesFrom_cons, if_pos hfirst, rangesFrom_append hbody, rangesFrom_cons, if_neg (by simp [hlast.1]),
    if_pos (by simp [hlast.2]), Nat.add_right_comm i 1]
  rfl

/-- Every run lies within the lines, and starts before it ends. -/
theorem rangesFrom_bounds {opens closes : Marker} {i : Nat} {isOpen : Option Nat} {ls : List String} {r : Range}
    (hopen : ∀ f ∈ isOpen, f < i) (h : r ∈ rangesFrom opens closes i isOpen ls) : r.1 < r.2 ∧ r.2 < i + ls.length := by
  induction ls generalizing i isOpen with
  | nil => nomatch h
  | cons l ls ih =>
    have hnone : ∀ f ∈ (none : Option Nat), f < i + 1 := by simp
    have hsome : ∀ f ∈ some i, f < i + 1 := by
      rintro f hf
      rw [Option.mem_some_iff] at hf
      omega
    rw [List.length_cons, ← Nat.add_assoc, Nat.add_right_comm]
    rw [rangesFrom_cons] at h
    split at h
    · exact ih hsome h
    · split at h
      · next hc =>
        obtain ⟨f, rfl⟩ := Option.isSome_iff_exists.mp (Bool.and_eq_true_iff.mp hc).1
        rcases List.mem_cons.mp h with rfl | h
        · exact ⟨hopen f rfl, by show i < _; omega⟩
        · exact ih hnone h
      · exact ih (fun f hf => Nat.lt_succ_of_lt (hopen f hf)) h

/-- The lines of a range are those between what comes before and after it. -/
theorem linesOf_append (a b c : List String) (hb : b ≠ []) :
    linesOf (a ++ b ++ c) (a.length, a.length + b.length - 1) = b := by
  have hpos : 0 < b.length := List.length_pos_iff.mpr hb
  rw [linesOf, List.append_assoc, List.drop_left]
  have hlen : a.length + b.length - 1 + 1 - a.length = b.length := by omega
  simp only [hlen, List.take_left]

end UserScripts.Wrapper
