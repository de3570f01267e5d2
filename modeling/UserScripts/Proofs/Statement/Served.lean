import Mathlib.Data.List.Forall2
import UserScripts.Entry.Printer
import UserScripts.Proofs.Text.Case
import UserScripts.Proofs.Text.Substitute

/-!
# Facts about loaded URLs

What printing makes of a URL: the MediaWiki site gets its `www`, and nothing else changes.
-/

namespace UserScripts

open UserScripts.Text

/-- What is substituted at a place of a URL. -/
def siteAt (s : List Char) : Option (Nat × List Char) :=
  match afterFold? "//mediawiki.org".toList s with
  | some rest => if wordEnds rest then some ("//mediawiki.org".toList.length, "//www.mediawiki.org".toList) else none
  | none => none

/-- A URL is served as the substitution of the site says. -/
theorem servedMediaWiki_eq (s : List Char) : servedMediaWiki s = substitute siteAt s := rfl

/-- What is substituted is the name of the site at the end of a word. -/
theorem siteAt_eq_some {s new : List Char} {n : Nat} (h : siteAt s = some (n, new)) :
    ∃ taken rest, s = taken ++ rest ∧ List.Forall₂ (fun w c => sameLetter w c = true) "//mediawiki.org".toList taken ∧
      wordEnds rest = true ∧ n = 15 ∧ new = "//www.mediawiki.org".toList := by
  unfold siteAt at h
  split at h
  · next rest hrest =>
    split at h
    · next hend =>
      obtain ⟨taken, hs, htaken⟩ := afterFold?_eq_some hrest
      obtain ⟨rfl, rfl⟩ := Prod.mk.inj (Option.some.inj h)
      exact ⟨taken, rest, hs, htaken, hend, rfl, rfl⟩
    · nomatch h
  · nomatch h

/-- A place where the site is named starts with a slash. -/
theorem siteAt_cons_of_ne {c : Char} (hc : c ≠ '/') (s : List Char) : siteAt (c :: s) = none := by
  rw [Option.eq_none_iff_forall_ne_some]
  rintro ⟨n, new⟩ h
  obtain ⟨taken, rest, hs, htaken, -⟩ := siteAt_eq_some h
  cases htaken with
  | cons hw _ =>
    obtain ⟨rfl, -⟩ := List.cons.inj hs
    exact hc (eq_of_sameLetter hw (Or.inl (by decide)))

/-- A URL without slashes stays as it is. -/
theorem servedMediaWiki_eq_self {s : List Char} (h : '/' ∉ s) : servedMediaWiki s = s := by
  refine substitute_eq_self ?_
  rintro p t rfl ht
  obtain ⟨c, t, rfl⟩ := List.exists_cons_of_ne_nil ht
  refine siteAt_cons_of_ne ?_ t
  rintro rfl
  exact h (by simp)

section

variable {p : Char → Bool}

/-- Marks other than the full stop are neither gained nor lost. -/
theorem countP_servedMediaWiki (hp : ∀ c, p c = true → isMark c = true) (hdot : p '.' = false) (s : List Char) :
    (servedMediaWiki s).countP p = s.countP p := by
  rw [servedMediaWiki_eq]
  refine countP_substitute ?_ s
  intro s n new h
  obtain ⟨taken, rest, rfl, htaken, -, rfl, rfl⟩ := siteAt_eq_some h
  have hlength : taken.length = 15 := htaken.length_eq.symm
  rw [List.take_left' hlength, countP_of_forall₂_sameLetter hp htaken]
  have hno : ∀ c, c.isAlpha = true → p c = false := by
    intro c hc
    by_contra h
    have := hp c (by simpa using h)
    simp [isMark, hc] at this
  simp [List.countP_cons, hno, hdot]

end

/-- A URL with no more full stops when it is loaded is loaded as it is. -/
theorem servedMediaWiki_eq_self_of_countP {s : List Char} (h : (servedMediaWiki s).countP (· == '.') = s.countP (· == '.')) :
    servedMediaWiki s = s := by
  have hdots : ∀ s, s.countP (· == '.') ≤ (servedMediaWiki s).countP (· == '.') ∧
      ((servedMediaWiki s).countP (· == '.') = s.countP (· == '.') → servedMediaWiki s = s) := by
    intro s
    rw [servedMediaWiki_eq]
    refine substitute_induction (motive := fun s new => s.countP (· == '.') ≤ new.countP (· == '.') ∧
      (new.countP (· == '.') = s.countP (· == '.') → new = s)) ⟨Nat.le_refl _, fun _ => rfl⟩ ?_ ?_ s
    · intro c s new ih
      rw [List.countP_cons, List.countP_cons]
      refine ⟨by omega, fun heq => ?_⟩
      rw [ih.2 (by omega)]
    · intro s n old new hread ih
      obtain ⟨taken, rest, rfl, htaken, -, rfl, rfl⟩ := siteAt_eq_some hread
      have hlength : taken.length = 15 := htaken.length_eq.symm
      have hmark : ∀ c, (c == '.') = true → isMark c = true := by
        intro c hc
        rw [beq_iff_eq.mp hc]
        decide
      have hone : taken.countP (· == '.') = 1 := countP_of_forall₂_sameLetter hmark htaken
      have htwo : "//www.mediawiki.org".toList.countP (· == '.') = 2 := by decide
      rw [List.drop_left' hlength] at ih
      rw [List.countP_append, List.countP_append, hone, htwo]
      exact ⟨by omega, fun heq => by omega⟩
  exact (hdots s).2 h

/-- Loading a URL adds no characters but those of the MediaWiki site. -/
theorem mem_of_mem_servedMediaWiki {s : List Char} {c : Char} (h : c ∈ servedMediaWiki s) :
    c ∈ s ∨ c ∈ "//www.mediawiki.org".toList := by
  revert h
  rw [servedMediaWiki_eq]
  refine substitute_induction (motive := fun s new => c ∈ new → c ∈ s ∨ c ∈ "//www.mediawiki.org".toList) ?_ ?_ ?_ s
  · exact Or.inl
  · intro d s new ih hmem
    rcases List.mem_cons.mp hmem with rfl | hmem
    · exact Or.inl List.mem_cons_self
    · exact (ih hmem).imp_left (List.mem_cons_of_mem d)
  · intro s n old new hread ih hmem
    obtain ⟨-, -, -, -, -, -, rfl⟩ := siteAt_eq_some hread
    rcases List.mem_append.mp hmem with hmem | hmem
    · exact Or.inr hmem
    · exact (ih hmem).imp_left List.mem_of_mem_drop

/-- A URL that starts with a slash still does when it is loaded. -/
theorem exists_servedMediaWiki_slash (s : List Char) : ∃ rest, servedMediaWiki ('/' :: s) = '/' :: rest := by
  rw [servedMediaWiki_eq]
  cases hsite : siteAt ('/' :: s) with
  | none => exact ⟨_, substitute_cons_of_none hsite⟩
  | some found =>
    obtain ⟨n, new⟩ := found
    obtain ⟨-, -, -, -, -, rfl, rfl⟩ := siteAt_eq_some hsite
    exact ⟨_, substitute_cons_of_some hsite⟩

/-- The served form of a URL that is not empty is not empty. -/
theorem servedMediaWiki_ne_nil {s : List Char} (h : s ≠ []) : servedMediaWiki s ≠ [] := by
  obtain ⟨c, s, rfl⟩ := List.exists_cons_of_ne_nil h
  by_cases hc : c = '/'
  · obtain ⟨rest, hrest⟩ := exists_servedMediaWiki_slash s
    rw [hc, hrest]
    simp
  · rw [servedMediaWiki_eq, substitute_cons_of_none (siteAt_cons_of_ne hc s)]
    simp

/-! ## A URL in pieces -/

/-- The marks at which a URL can be cut without changing what is substituted. -/
def isCut (c : Char) : Bool :=
  isMark c && c != '/' && c != '.' && !isWord c

/-- What is substituted does not reach over a cut. -/
theorem siteAt_append_cons {c : Char} (hc : isCut c = true) (s t : List Char) : siteAt (s ++ c :: t) = siteAt s := by
  have hletter : ∀ w ∈ "//mediawiki.org".toList, isCut w = false := by decide
  have hmark : isMark c = true := by
    simp only [isCut, Bool.and_eq_true] at hc
    exact hc.1.1.1
  have hword : isWord c = false := by
    simp only [isCut, Bool.and_eq_true, Bool.not_eq_true'] at hc
    exact hc.2
  have hletters : ∀ w ∈ "//mediawiki.org".toList, sameLetter w c = false := by
    intro w hw
    by_contra h
    rw [eq_of_sameLetter (by simpa using h) (Or.inr hmark), hletter w hw] at hc
    nomatch hc
  have hends : ∀ rest : List Char, wordEnds (rest ++ c :: t) = wordEnds rest := by
    intro rest
    cases rest with
    | nil => simp [wordEnds, hword]
    | cons d rest => rfl
  rw [siteAt, siteAt, afterFold?_append_cons hletters]
  cases afterFold? "//mediawiki.org".toList s with
  | none => rfl
  | some rest => simp only [Option.map_some, hends]

/-- What is substituted before a cut does not depend on what follows it. -/
theorem servedMediaWiki_append_cons {c : Char} (hc : isCut c = true) (s t : List Char) :
    servedMediaWiki (s ++ c :: t) = servedMediaWiki s ++ c :: servedMediaWiki t := by
  have hslash : c ≠ '/' := by rintro rfl; exact absurd hc (by decide)
  rw [servedMediaWiki_eq, servedMediaWiki_eq, servedMediaWiki_eq]
  induction hlen : s.length using Nat.strongRecOn generalizing s with
  | _ len ih =>
    cases s with
    | nil => exact substitute_cons_of_none (siteAt_cons_of_ne hslash t)
    | cons d s =>
      rw [List.length_cons] at hlen
      have hsite := siteAt_append_cons hc (d :: s) t
      cases hread : siteAt (d :: s) with
      | none =>
        rw [hread, List.cons_append] at hsite
        rw [List.cons_append, substitute_cons_of_none hsite, substitute_cons_of_none hread, ih s.length (by omega) s rfl]
        rfl
      | some found =>
        obtain ⟨n, new⟩ := found
        obtain ⟨taken, rest, hs, htaken, -, rfl, rfl⟩ := siteAt_eq_some hread
        have hlength : 14 ≤ s.length := by
          have h₁ := congrArg List.length hs
          have h₂ : taken.length = 15 := htaken.length_eq.symm
          rw [List.length_cons, List.length_append, h₂] at h₁
          omega
        rw [hread, List.cons_append] at hsite
        rw [List.cons_append, substitute_cons_of_some hsite, substitute_cons_of_some hread,
          List.drop_append_of_le_length hlength, ih (s.drop 14).length (by rw [List.length_drop]; omega) (s.drop 14) rfl,
          List.append_assoc]

/-! ## Style sheets -/

/-- A title that ends as a style sheet does holds a full stop. -/
theorem mem_of_endsWithCss {s : List Char} (h : endsWithCss s = true) : '.' ∈ s := by
  induction s with
  | nil => nomatch h
  | cons c s ih =>
    rw [endsWithCss, Bool.or_eq_true] at h
    rcases h with h | h
    · split at h
      · next rest hrest =>
        obtain ⟨taken, hs, htaken⟩ := afterFold?_eq_some hrest
        cases htaken with
        | cons hw _ =>
          rw [List.cons_append] at hs
          obtain ⟨rfl, -⟩ := List.cons.inj hs
          rw [eq_of_sameLetter hw (Or.inl (by decide))]
          exact List.mem_cons_self
      · nomatch h
    · exact List.mem_cons_of_mem _ (ih h)

/-- What is left without a scheme is part of the URL. -/
theorem Url.mem_of_mem_dropScheme {s : List Char} {c : Char} (hc : c ∈ Url.dropScheme s) : c ∈ s := by
  unfold Url.dropScheme at hc
  split at hc
  · exact hc
  · split at hc
    · next scheme rest hcut =>
      split at hc
      · rw [cutAt?_eq_some hcut]
        exact List.mem_append_right _ (List.mem_cons_of_mem _ hc)
      · exact hc
    · exact hc

/-- The path of a URL is made of characters of the URL. -/
theorem Url.mem_of_mem_path {text : List Char} {u : Url} (h : Url.split text = .ok u) {c : Char} (hc : c ∈ u.path) :
    c ∈ text := by
  have hclean : ∀ rest : List Char, rest.IsSuffix (Url.dropScheme ((text.dropWhile fun c => c.toNat ≤ 0x20).filter
      fun c => !(c == '\t' || c == '\r' || c == '\n'))) → c ∈ (rest.takeWhile (· != '#')).takeWhile (· != '?') → c ∈ text := by
    intro rest hsuffix hmem
    have h₁ : c ∈ rest := (List.takeWhile_subset _ (List.takeWhile_subset _ hmem))
    have h₂ := Url.mem_of_mem_dropScheme (hsuffix.subset h₁)
    exact List.dropWhile_subset _ (List.mem_filter.mp h₂).1
  unfold Url.split at h
  dsimp only at h
  split at h
  · next r hr =>
    split_ifs at h
    rw [← Except.ok.inj h] at hc
    refine hclean _ ?_ hc
    rw [hr]
    exact ((List.dropWhile_suffix _).trans (List.suffix_cons _ _)).trans (List.suffix_cons _ _)
  · split_ifs at h
    rw [← Except.ok.inj h] at hc
    exact hclean _ (List.suffix_refl _) hc

namespace Entry

/-! ## The loaded URL of an entry -/

/-- A page is loaded from a URL that starts with two slashes. -/
theorem loaderUrl_of_page {e : Entry} (h : ∀ url, e.source ≠ .address url) (server : String) :
    ∃ host page, e.loaderUrl server = String.ofList (servedMediaWiki (pageUrl host page).toList) := by
  rw [loaderUrl]
  cases hs : e.source with
  | own page => exact ⟨_, _, rfl⟩
  | «foreign» wiki page => exact ⟨_, _, rfl⟩
  | address url => exact absurd hs (h url)

/-- The URL of a page, character by character. -/
theorem pageUrl_toList (host page : String) :
    (pageUrl host page).toList = "//".toList ++ (Wiki.normalizeHost host).toList ++ "/w/index.php?title=".toList ++ page.toList ++
      "&action=raw&ctype=".toList ++ (if endsWithCss page.toList then "text/css" else "text/javascript").toList := by
  simp only [pageUrl, String.toList_append]

/-- Loading a page ends with the action and the media type, whatever the page is. -/
theorem servedMediaWiki_pageUrl (host page : String) :
    servedMediaWiki (pageUrl host page).toList =
      servedMediaWiki ("//".toList ++ (Wiki.normalizeHost host).toList ++ "/w/index.php?title=".toList ++ page.toList) ++
        ("&action=raw&ctype=" ++ if endsWithCss page.toList then "text/css" else "text/javascript").toList := by
  have hmedia : ∀ css : Bool, servedMediaWiki ("action=raw&ctype=" ++ if css then "text/css" else "text/javascript").toList =
      ("action=raw&ctype=" ++ if css then "text/css" else "text/javascript").toList := by decide
  rw [pageUrl_toList]
  generalize endsWithCss page.toList = css
  have hcut := servedMediaWiki_append_cons (c := '&') (by decide)
    ("//".toList ++ (Wiki.normalizeHost host).toList ++ "/w/index.php?title=".toList ++ page.toList)
    ("action=raw&ctype=" ++ if css then "text/css" else "text/javascript").toList
  rw [hmedia] at hcut
  cases css
  · simpa using hcut
  · simpa using hcut

/-- An entry that is named by a URL is loaded from the served form of it. -/
theorem loaderUrl_of_address {e : Entry} {url : String} (h : e.source = .address url) (server : String) :
    e.loaderUrl server = String.ofList (servedMediaWiki url.toList) := by
  rw [loaderUrl, h]

end Entry

end UserScripts
