import UserScripts.Proofs.Text.Case
import UserScripts.Proofs.Text.Scan
import UserScripts.Wiki.Host

/-!
# Facts about wiki hosts

A host and the fragment of a host are parts of the text that names them, apart from the `www` of the MediaWiki site, so they
have no mark but full stops that the text does not have.
-/

namespace UserScripts.Wiki

open UserScripts.Text

/-! ## Hosts -/

/-- What is left without the blanks at the end is part of the text. -/
theorem dropEndBlank_sublist (s : List Char) : (dropEndBlank s).Sublist s := by
  have hstart : s.rdropWhile isBlank <+: s := List.rdropWhile_prefix isBlank s
  rw [dropEndBlank_eq]
  exact hstart.sublist

/-- What is left of a trimmed text is part of it. -/
theorem trim_sublist (s : String) : (trim s).toList.Sublist s.toList := by
  rw [trim, String.toList_ofList]
  exact (dropEndBlank_sublist _).trans (List.dropWhile_sublist isBlank)

/-- What is left without a scheme is part of the text. -/
theorem dropWebScheme_sublist (s : List Char) : (dropWebScheme s).Sublist s := by
  have htaken : ∀ {word rest : List Char}, afterFold? word s = some rest → rest.Sublist s := by
    intro word rest h
    obtain ⟨taken, rfl, -⟩ := afterFold?_eq_some h
    exact List.sublist_append_right taken rest
  rw [dropWebScheme]
  split
  · next rest h => exact htaken h
  · cases h : afterFold? "http://".toList s with
    | none => exact List.Sublist.refl s
    | some rest => exact htaken h

/-- What is left without a path is part of the text. -/
theorem dropPath_sublist (s : List Char) : (dropPath s).Sublist s := by
  induction s with
  | nil => exact List.Sublist.refl _
  | cons c s ih =>
    rw [dropPath]
    split
    · exact (List.dropWhile_sublist _).trans (List.sublist_cons_self c s)
    · exact ih.cons_cons c

/-- A host is what is left of the text that names it, or the served host of the MediaWiki site. -/
theorem normalizeHost_sublist (host : String) :
    normalizeHost host = "www.mediawiki.org" ∨ (normalizeHost host).toList.Sublist host.toList := by
  rw [normalizeHost]
  split
  · exact Or.inl rfl
  · right
    rw [String.toList_ofList]
    exact ((dropPath_sublist _).trans (dropWebScheme_sublist _)).trans (trim_sublist host)

section

variable {p : Char → Bool} (hp : ∀ c, p c = true → isMark c = true) (hdot : p '.' = false)

include hp

/-- A letter is not counted. -/
theorem countP_letter {c : Char} (hc : c.isAlpha = true) : p c = false := by
  by_contra h
  have hmark := hp c (by simpa using h)
  simp [isMark, hc] at hmark

include hdot

/-- A host has no more of the counted characters than the text that it is read from. -/
theorem countP_normalizeHost_le (host : String) : (normalizeHost host).toList.countP p ≤ host.toList.countP p := by
  rcases normalizeHost_sublist host with h | h
  · rw [h]
    have hzero : "www.mediawiki.org".toList.countP p = 0 := by
      simp [countP_letter hp, hdot]
    omega
  · exact h.countP_le

/-! ## Fragments -/

/-- The ending that is dropped has none of the counted characters. -/
theorem countP_dropOrg (s : List Char) : (dropOrg s).countP p = s.countP p := by
  have hword : ".org".toList.countP p = 0 := by simp [countP_letter hp, hdot]
  induction s with
  | nil => rfl
  | cons c s ih =>
    rw [dropOrg]
    split
    · next rest h =>
      split
      · rw [countP_of_afterFold? hp h, hword, Nat.zero_add]
      · rw [List.countP_cons, List.countP_cons, ih]
    · rw [List.countP_cons, List.countP_cons, ih]

/-- The name of a wiki has as many of the counted characters as its host. -/
theorem countP_fragment (host : String) : (fragment host).toList.countP p = (normalizeHost host).toList.countP p := by
  rw [fragment, String.toList_ofList, countP_dropOrg hp hdot]

/-- The plain form of a wiki has as many of the counted characters as its name. -/
theorem countP_plainFragment (wiki : String) : (plainFragment wiki).toList.countP p = wiki.toList.countP p := by
  have hword : "www.".toList.countP p = 0 := by simp [countP_letter hp, hdot]
  rw [plainFragment, String.toList_ofList, dropWww, ← countP_lower hp wiki]
  cases h : after? "www.".toList (lower wiki).toList with
  | none => rfl
  | some rest =>
    rw [after?_eq_some.mp h, List.countP_append, hword, Nat.zero_add]
    rfl

end

end UserScripts.Wiki
