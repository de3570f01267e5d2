import UserScripts.Proofs.Statement.Served

/-!
# The host of a URL

What stands between the first two slashes of a URL and the next slash or question mark is its authority. That of the URL from which a
page is loaded is made from the text that names the host of the page. Main statements: `authority?_servedMediaWiki` and
`authority?_pageUrl`.
-/

namespace UserScripts

open UserScripts.Text

namespace Address

/-! ## Authorities -/

/-- Whether a character ends the authority of a URL. -/
def isStop (c : Char) : Bool :=
  c == '/' || c == '?'

/-- A text up to the end of an authority. -/
def authority (s : List Char) : List Char :=
  s.takeWhile (!isStop ·)

/-- The authority of a URL: what stands between its first two slashes and the next slash or question mark. -/
def authority? (url : List Char) : Option (List Char) :=
  (firstPlace (after? "//".toList) url).map authority

variable {s t w : List Char} {m : Char}

/-- The authority of a URL is ended by a slash or a question mark. -/
theorem isStop_iff {c : Char} : isStop c = true ↔ c = '/' ∨ c = '?' := by
  simp [isStop]

/-- An authority ends at a stop. -/
theorem authority_append_stop (hm : isStop m = true) (s t : List Char) : authority (s ++ m :: t) = authority s := by
  induction s with
  | nil => exact List.takeWhile_cons_of_neg (by simp [hm])
  | cons c s ih =>
    rw [List.cons_append, authority, authority]
    cases hc : isStop c with
    | true => rw [List.takeWhile_cons_of_neg (by simp [hc]), List.takeWhile_cons_of_neg (by simp [hc])]
    | false =>
      rw [List.takeWhile_cons_of_pos (by simp [hc]), List.takeWhile_cons_of_pos (by simp [hc])]
      exact congrArg (c :: ·) ih

/-- A text that nothing ends is an authority as a whole. -/
theorem authority_eq_self (hs : ∀ c ∈ s, isStop c = false) : authority s = s :=
  List.takeWhile_eq_self_iff.mpr fun c hc => by rw [hs c hc]; rfl

/-- An authority is followed by what ends it. -/
theorem authority_append_cons (hs : ∀ c ∈ s, isStop c = false) (hm : isStop m = true) (t : List Char) :
    authority (s ++ m :: t) = s := by
  rw [authority_append_stop hm, authority_eq_self hs]

/-- No character of an authority ends one. -/
theorem isStop_of_mem_authority {c : Char} (h : c ∈ authority s) : isStop c = false := by
  simpa using List.mem_takeWhile_imp h

/-- A text is an authority as a whole, or a stop follows its authority. -/
theorem authority_cases (s : List Char) :
    authority s = s ∨ ∃ m t, isStop m = true ∧ s = authority s ++ m :: t := by
  induction s with
  | nil => exact Or.inl rfl
  | cons c s ih =>
    cases hc : isStop c with
    | true => exact Or.inr ⟨c, s, hc, by rw [authority, List.takeWhile_cons_of_neg (by simp [hc])]; rfl⟩
    | false =>
      have hcons : authority (c :: s) = c :: authority s := List.takeWhile_cons_of_pos (by simp [hc])
      rw [hcons]
      rcases ih with h | ⟨m, t, hm, h⟩
      · exact Or.inl (by rw [h])
      · exact Or.inr ⟨m, t, hm, by rw [List.cons_append, ← h]⟩

/-- The authority of a URL with a scheme, or without, is what follows its two slashes. -/
theorem authority?_scheme {scheme : List Char} (h : scheme = [] ∨ scheme = "https:".toList ∨ scheme = "http:".toList)
    (rest : List Char) : authority? (scheme ++ "//".toList ++ rest) = some (authority rest) := by
  rcases h with rfl | rfl | rfl <;> rfl

/-! ## The host from which a page is loaded -/

/-- Whether a host is that of the MediaWiki site, or starts with it. -/
def namesSite (host : List Char) : Bool :=
  (afterFold? "mediawiki.org".toList host).any wordEnds

/-- The host from which is loaded what another host names. -/
def servedHost (host : List Char) : List Char :=
  if namesSite host then "www.mediawiki.org".toList ++ host.drop 13 else host

/-- A host that names the site begins with the thirteen characters of its name, after which a word ends. -/
theorem exists_of_namesSite (h : namesSite s = true) :
    ∃ taken rest, s = taken ++ rest ∧ taken.length = 13 ∧ afterFold? "mediawiki.org".toList s = some rest ∧ wordEnds rest = true := by
  obtain ⟨rest, hrest, hends⟩ := Option.any_eq_true _ _ |>.mp h
  obtain ⟨taken, hs, htaken⟩ := afterFold?_eq_some hrest
  exact ⟨taken, rest, hs, htaken.length_eq.symm, hrest, hends⟩

/-- What is served up to a stop is what stands there. -/
theorem authority_servedMediaWiki (hs : ∀ c ∈ s, isStop c = false) (hm : isStop m = true) (t : List Char) :
    authority (servedMediaWiki (s ++ m :: t)) = s := by
  induction s with
  | nil =>
    have hhead : ∃ rest, servedMediaWiki (m :: t) = m :: rest := by
      by_cases hslash : m = '/'
      · rw [hslash]
        exact exists_servedMediaWiki_slash t
      · exact ⟨_, by rw [servedMediaWiki_eq, substitute_cons_of_none (siteAt_cons_of_ne hslash t)]⟩
    obtain ⟨rest, hrest⟩ := hhead
    rw [List.nil_append, hrest]
    exact authority_append_cons (s := []) (by simp) hm rest
  | cons c s ih =>
    have hc := hs c List.mem_cons_self
    have hslash : c ≠ '/' := by rintro rfl; exact absurd hc (by decide)
    rw [List.cons_append, servedMediaWiki_eq, substitute_cons_of_none (siteAt_cons_of_ne hslash _), ← servedMediaWiki_eq, authority,
      List.takeWhile_cons_of_pos (by simp [hc])]
    exact congrArg (c :: ·) (ih fun d hd => hs d (List.mem_cons_of_mem _ hd))

/-- The site is looked for up to a stop. -/
theorem siteAt_slashes (hm : isStop m = true) (s t : List Char) :
    siteAt ("//".toList ++ (s ++ m :: t)) = if namesSite s then some (15, "//www.mediawiki.org".toList) else none := by
  have hm := isStop_iff.mp hm
  have hletters : ∀ w ∈ "mediawiki.org".toList, sameLetter w m = false := by
    rcases hm with rfl | rfl <;> decide
  have hends : ∀ rest : List Char, wordEnds (rest ++ m :: t) = wordEnds rest := by
    intro rest
    cases rest with
    | nil => rcases hm with rfl | rfl <;> rfl
    | cons d rest => rfl
  have hslashes : ∀ x, afterFold? "//mediawiki.org".toList ("//".toList ++ x) = afterFold? "mediawiki.org".toList x := fun x => rfl
  rw [siteAt, hslashes, afterFold?_append_cons hletters, namesSite]
  cases afterFold? "mediawiki.org".toList s with
  | none => rfl
  | some rest => simp only [Option.map_some, Option.any_some, hends]; rfl

/-- The second slash of an authority can start the name of the site only if a third one follows, where the authority ends. -/
theorem nil_of_siteAt_slash (hs : ∀ c ∈ s, isStop c = false) {found : Nat × List Char}
    (h : siteAt ('/' :: (s ++ m :: t)) = some found) : s = [] := by
  obtain ⟨taken, rest, htaken, hword, -⟩ := siteAt_eq_some h
  cases s with
  | nil => rfl
  | cons c s =>
    exfalso
    cases hword with
    | cons _ hword =>
      cases hword with
      | cons hslash _ =>
        obtain ⟨-, hrest⟩ := List.cons.inj htaken
        obtain ⟨rfl, -⟩ := List.cons.inj hrest
        rw [eq_of_sameLetter hslash (Or.inl (by decide))] at hs
        exact absurd (hs '/' List.mem_cons_self) (by decide)

/-- The host of what is served. -/
theorem authority?_servedMediaWiki (hs : ∀ c ∈ s, isStop c = false) (hm : isStop m = true) (t : List Char) :
    authority? (servedMediaWiki ("//".toList ++ (s ++ m :: t))) = some (servedHost s) := by
  have hsite := siteAt_slashes hm s t
  rw [servedHost]
  split at hsite
  · next hnames =>
    obtain ⟨taken, rest, rfl, hlength, -, -⟩ := exists_of_namesSite hnames
    have hserved : servedMediaWiki ("//".toList ++ (taken ++ rest ++ m :: t)) =
        "//www.mediawiki.org".toList ++ servedMediaWiki (rest ++ m :: t) := by
      have hdrop : ('/' :: (taken ++ rest ++ m :: t)).drop 14 = rest ++ m :: t := by
        rw [List.drop_succ_cons, List.append_assoc, List.drop_left' hlength]
      rw [servedMediaWiki_eq, servedMediaWiki_eq, ← hdrop]
      exact substitute_cons_of_some hsite
    rw [if_pos hnames, hserved, List.drop_left' hlength]
    have hrest := authority_servedMediaWiki (s := rest) (fun c hc => hs c (List.mem_append_right _ hc)) hm t
    have hwww : authority ("www.mediawiki.org".toList ++ servedMediaWiki (rest ++ m :: t)) =
        "www.mediawiki.org".toList ++ authority (servedMediaWiki (rest ++ m :: t)) :=
      List.takeWhile_append_of_pos (by decide)
    rw [hrest] at hwww
    exact congrArg some hwww
  · next hnames =>
    have hfirst : servedMediaWiki ("//".toList ++ (s ++ m :: t)) = '/' :: servedMediaWiki ('/' :: (s ++ m :: t)) :=
      substitute_cons_of_none hsite
    rw [if_neg hnames, hfirst]
    cases hsecond : siteAt ('/' :: (s ++ m :: t)) with
    | none =>
      rw [servedMediaWiki_eq, substitute_cons_of_none hsecond]
      exact congrArg some (authority_servedMediaWiki hs hm t)
    | some found =>
      obtain ⟨n, new⟩ := found
      obtain ⟨-, -, -, -, -, rfl, rfl⟩ := siteAt_eq_some hsecond
      obtain rfl := nil_of_siteAt_slash hs hsecond
      rw [List.nil_append] at hsecond ⊢
      rw [servedMediaWiki_eq, substitute_cons_of_some hsecond]
      rfl

/-- Dropping the path of a host leaves its authority. -/
theorem authority_dropPath (hend : ∀ c ∈ s.getLast?, c ≠ '\n') : authority (Wiki.dropPath s) = authority s := by
  induction s with
  | nil => rfl
  | cons c s ih =>
    have hlast : ∀ d ∈ s.getLast?, d ≠ '\n' := by
      intro d hd
      cases s with
      | nil => cases hd
      | cons e s => exact hend d (by rwa [List.getLast?_cons_cons])
    rw [Wiki.dropPath]
    split
    · next hpath =>
      obtain ⟨hslash, hlineEnd⟩ := Bool.and_eq_true_iff.mp hpath
      have hline : s.dropWhile (· != '\n') = [] := by
        unfold atEnd at hlineEnd
        split at hlineEnd
        · assumption
        · next heq =>
          obtain ⟨front, hfront⟩ := List.dropWhile_suffix (· != '\n') (l := s)
          rw [heq] at hfront
          exact absurd rfl (hlast '\n' (by rw [← hfront]; simp))
        · cases hlineEnd
      rw [hline, of_decide_eq_true hslash]
      rfl
    · cases hc : isStop c with
      | true =>
        rw [authority, authority, List.takeWhile_cons_of_neg (by simp [hc]), List.takeWhile_cons_of_neg (by simp [hc])]
      | false =>
        rw [authority, authority, List.takeWhile_cons_of_pos (by simp [hc]), List.takeWhile_cons_of_pos (by simp [hc])]
        exact congrArg (c :: ·) (ih hlast)

/-- A host that is the MediaWiki site but for case is served as that site. -/
theorem servedHost_of_lower (h : lower (String.ofList s) = "mediawiki.org") :
    (∀ c ∈ s, isStop c = false) ∧ servedHost s = "www.mediawiki.org".toList := by
  have hlist : lowerFrom [] s = "mediawiki.org".toList := by
    rw [← h, lower, String.toList_ofList, String.toList_ofList]
  have hword : afterFold? "mediawiki.org".toList s = some [] := afterFold?_of_lowerFrom (by decide) hlist
  constructor
  · intro c hc
    by_contra hstop
    have hcases := isStop_iff.mp (Bool.not_eq_false _ |>.mp hstop)
    have hmem : c ∈ (lower (String.ofList s)).toList := by
      refine (mem_lower ?_).mpr (by rwa [String.toList_ofList])
      rcases hcases with rfl | rfl <;> decide
    rw [h] at hmem
    rcases hcases with rfl | rfl <;> exact absurd hmem (by decide)
  · have hnames : namesSite s = true := by rw [namesSite, hword]; rfl
    obtain ⟨taken, rest, hs, hlength, hrest, -⟩ := exists_of_namesSite hnames
    obtain rfl : [] = rest := Option.some.inj (hword.symm.trans hrest)
    rw [servedHost, if_pos hnames, hs, List.drop_left' hlength, List.append_nil]

/-- The host from which a page is loaded is what is left of the text that names it, up to a stop. -/
theorem authority?_pageUrl (host page : String)
    (hend : ∀ c ∈ (Wiki.dropWebScheme (trim host).toList).getLast?, c ≠ '\n') :
    authority? (servedMediaWiki (Entry.pageUrl host page).toList) =
      some (servedHost (authority (Wiki.dropWebScheme (trim host).toList))) := by
  have hserved : ∀ name rest : List Char, authority? (servedMediaWiki ("//".toList ++ (name ++ '/' :: rest))) =
      some (servedHost (authority name)) := by
    intro name rest
    rcases authority_cases name with hname | ⟨m, t, hm, hname⟩
    · rw [hname]
      exact authority?_servedMediaWiki (fun c hc => isStop_of_mem_authority (hname.symm ▸ hc)) (by decide) rest
    · have hsplit : name ++ '/' :: rest = authority name ++ m :: (t ++ '/' :: rest) := by
        conv_lhs => rw [hname]
        simp
      rw [hsplit]
      exact authority?_servedMediaWiki (fun c hc => isStop_of_mem_authority hc) hm _
  have hurl : (Entry.pageUrl host page).toList = "//".toList ++ ((Wiki.normalizeHost host).toList ++ '/' ::
      ("w/index.php?title=".toList ++ page.toList ++ "&action=raw&ctype=".toList ++
        (if endsWithCss page.toList then "text/css" else "text/javascript").toList)) := by
    rw [Entry.pageUrl_toList]
    simp
  rw [hurl, hserved, Wiki.normalizeHost]
  split
  · next hsite =>
    obtain ⟨hstops, hwww⟩ := servedHost_of_lower hsite
    rw [← authority_dropPath hend, authority_eq_self hstops, hwww]
    rfl
  · rw [String.toList_ofList, authority_dropPath hend]

end Address

end UserScripts
