import UserScripts.Proofs.Statement.Authority
import UserScripts.Proofs.Statement.Query
import UserScripts.Proofs.Statement.Title

/-!
# What a URL names

A URL that names a page also names its wiki, and the page is loaded from a host that is made from the name of the wiki. Main
statements: `hostKept_iff` and `Entry.ofAddress_names_page`.
-/

namespace UserScripts

open UserScripts.Text

namespace Address

variable {s t w : List Char} {m : Char}

/-! ## The wiki that a URL names -/

/-- Whether a wiki starts like the address of a web page, blanks aside. -/
def startsWithScheme (wiki : List Char) : Bool :=
  (afterFold? "https://".toList (dropBlank wiki)).isSome || (afterFold? "http://".toList (dropBlank wiki)).isSome

/-- The wiki of a URL, as it is written there, has a host that reading it does not change. -/
structure HostKept (wiki : List Char) : Prop where
  opened : ∀ c ∈ wiki.head?, isBlank c = false
  literal : hasEscape (authority wiki) = false
  closed : authority wiki = wiki → wiki.getLast? ≠ some '&'
  site : namesSite (authority (wiki ++ ".org".toList)) = true →
    lower (String.ofList (authority (wiki ++ ".org".toList))) = "mediawiki.org"

/-- The host under which a wiki is reached is its name up to a stop. -/
theorem dropWebScheme_trim (wiki : List Char) (h : startsWithScheme wiki = false) :
    Wiki.dropWebScheme (trim (String.ofList wiki ++ ".org")).toList = dropBlank wiki ++ ".org".toList := by
  have htrim : (trim (String.ofList wiki ++ ".org")).toList = dropBlank wiki ++ ".org".toList := by
    have hdot : isBlank '.' = false := by decide
    have hlist : (String.ofList wiki ++ ".org").toList = wiki ++ '.' :: "org".toList := by simp
    rw [trim, String.toList_ofList, hlist, dropBlank_append_cons hdot, dropEndBlank_append_cons hdot]
    rfl
  rw [startsWithScheme, Bool.or_eq_false_iff, Option.isSome_eq_false_iff, Option.isSome_eq_false_iff, Option.isNone_iff_eq_none,
    Option.isNone_iff_eq_none] at h
  have hword : ∀ {word : List Char}, (∀ w ∈ word, sameLetter w '.' = false) → afterFold? word (dropBlank wiki) = none →
      afterFold? word (dropBlank wiki ++ ".org".toList) = none := by
    intro word hdot hnone
    have hcut := afterFold?_append_cons hdot (dropBlank wiki) "org".toList
    rw [hnone] at hcut
    exact hcut
  rw [htrim, Wiki.dropWebScheme, hword (by decide) h.1, hword (by decide) h.2]
  rfl

/-- Decoding goes past a stop. -/
theorem decodePart_append_stop (hm : isStop m = true) (s t : List Char) :
    decodePart (s ++ m :: t) = percentDecode s ++ m :: decodePart t := by
  have hm := isStop_iff.mp hm
  have hsubstitute : substitute finalMark (s ++ m :: t) = s ++ m :: substitute finalMark t := by
    induction s with
    | nil =>
      refine substitute_cons_of_none (finalMark_of_not_ampersand ?_ t)
      rcases hm with rfl | rfl <;> decide
    | cons c s ih =>
      have hnone : finalMark (c :: (s ++ m :: t)) = none := by
        rw [Option.eq_none_iff_forall_ne_some]
        rintro ⟨n, new⟩ h
        obtain ⟨rest, heq, hend, -⟩ := finalMark_eq_some h
        obtain ⟨-, rfl⟩ := List.cons.inj heq
        rcases s with _ | ⟨d, s⟩
        · rcases hm with rfl | rfl <;> simp [atEnd] at hend
        · cases s <;> simp [atEnd] at hend
      rw [List.cons_append, substitute_cons_of_none hnone, ih]
      rfl
  rw [decodePart_eq, hsubstitute, decodePart_eq]
  rcases hm with rfl | rfl <;> exact percentDecode_append_cons (by decide) (by decide) (by decide) _ _

/-- A part that does not end with an ampersand is decoded as it is. -/
theorem decodePart_of_getLast? (hline : '\n' ∉ w) (hlast : w.getLast? ≠ some '&') : decodePart w = percentDecode w := by
  have hsubstitute : substitute finalMark w = w := by
    refine substitute_eq_self ?_
    rintro p t rfl ht
    rw [Option.eq_none_iff_forall_ne_some]
    rintro ⟨n, new⟩ h
    obtain ⟨rest, rfl, hend, -⟩ := finalMark_eq_some h
    unfold atEnd at hend
    split at hend
    · exact hlast (by simp)
    · exact hline (by simp)
    · cases hend
  rw [decodePart_eq, hsubstitute]

/-- A text that keeps its marks when it is decoded has no escape. -/
theorem hasEscape_of_countP_le (h : s.countP isMark ≤ (dropBlank (percentDecode s)).countP isMark) : hasEscape s = false := by
  rw [← Bool.not_eq_true]
  intro hescape
  have hlost := countP_percentDecode_lt (p := isMark) (fun _ => id) (by decide)
    (fun c hc => Entry.isMark_of_isEscapeSign c (by simp [Entry.isEscapeSign, hc])) hescape
  have hdrop := (List.dropWhile_sublist isBlank (l := percentDecode s)).countP_le (p := isMark)
  exact absurd (h.trans hdrop) (Nat.not_le.mpr hlost)

/-- The host of a wiki that has a path is decoded by itself. -/
theorem authority_read (hm : isStop m = true) (s t : List Char) :
    authority (dropBlank (decodePart (s ++ m :: t)) ++ ".org".toList) = authority (dropBlank (percentDecode s)) := by
  have hblank : isBlank m = false := by
    rcases isStop_iff.mp hm with rfl | rfl <;> decide
  rw [decodePart_append_stop hm, dropBlank_append_cons hblank, List.append_assoc, List.cons_append, authority_append_stop hm]

/-- An authority stays one with the ending of a host after it. -/
theorem authority_append_org (h : authority s = s) : authority (s ++ ".org".toList) = s ++ ".org".toList := by
  refine authority_eq_self fun c hc => ?_
  rcases List.mem_append.mp hc with hc | hc
  · exact isStop_of_mem_authority (h.symm ▸ hc)
  · exact (by decide : ∀ c ∈ ".org".toList, isStop c = false) c hc

/-- The host of a wiki without a path is read as it is written if there is no blank before, no escape in and no ampersand after it. -/
theorem authority_read_eq_iff_of_self (hline : '\n' ∉ w) (hw : authority w = w) :
    authority (dropBlank (decodePart w) ++ ".org".toList) = w ++ ".org".toList ↔
      (∀ c ∈ w.head?, isBlank c = false) ∧ hasEscape w = false ∧ w.getLast? ≠ some '&' := by
  constructor
  · intro h
    have hprefix : w ++ ".org".toList <+: dropBlank (decodePart w) ++ ".org".toList := by
      rw [← h]
      exact List.takeWhile_prefix _
    have hcount := hprefix.sublist.countP_le (p := isMark)
    simp only [List.countP_append, Nat.add_le_add_iff_right] at hcount
    have hlast : w.getLast? ≠ some '&' := by
      intro hlast
      obtain ⟨v, rfl⟩ := List.getLast?_eq_some_iff.mp hlast
      have hdrop := (List.dropWhile_sublist isBlank (l := decodePart (v ++ ['&']))).countP_le (p := isMark)
      have hdecoded := countP_percentDecode_le (p := isMark) (fun _ => id) (by decide) v
      have hmark : ['&'].countP isMark = 1 := by decide
      rw [← decodePart_append_ampersand] at hdecoded
      rw [List.countP_append, hmark] at hcount
      exact absurd (hcount.trans (hdrop.trans hdecoded)) (Nat.not_succ_le_self _)
    have hdot : ∀ c ∈ ".org".toList.head?, isBlank c = false := fun c hc => Option.some.inj hc ▸ rfl
    refine ⟨isBlank_head_of_starts hdot hprefix, ?_, hlast⟩
    rw [decodePart_of_getLast? hline hlast] at hcount
    exact hasEscape_of_countP_le hcount
  · rintro ⟨hopened, hliteral, hclosed⟩
    rw [decodePart_of_getLast? hline hclosed, percentDecode_eq_self hliteral, dropBlank_eq_self hopened, authority_append_org hw]

/-- The host of a wiki with a path is read as it is written if there is no blank before and no escape in it. -/
theorem authority_read_eq_iff_of_stop (hm : isStop m = true) (hs : authority s = s) (t : List Char) :
    authority (dropBlank (decodePart (s ++ m :: t)) ++ ".org".toList) = s ↔
      (∀ c ∈ (s ++ m :: t).head?, isBlank c = false) ∧ hasEscape s = false := by
  have hopened : (∀ c ∈ (s ++ m :: t).head?, isBlank c = false) ↔ ∀ c ∈ s.head?, isBlank c = false := by
    cases s with
    | nil => rcases isStop_iff.mp hm with rfl | rfl <;> simp [isBlank]
    | cons c s => rfl
  rw [authority_read hm, hopened]
  constructor
  · intro h
    have hprefix : s ++ [] <+: dropBlank (percentDecode s) ++ [] := by
      rw [List.append_nil, List.append_nil]
      conv_lhs => rw [← h]
      exact List.takeWhile_prefix _
    have hnil : ∀ c ∈ ([] : List Char).head?, isBlank c = false := fun _ hc => by cases hc
    refine ⟨isBlank_head_of_starts hnil hprefix, hasEscape_of_countP_le ?_⟩
    have hcount := hprefix.sublist.countP_le (p := isMark)
    rwa [List.append_nil, List.append_nil] at hcount
  · rintro ⟨hopened, hliteral⟩
    rw [percentDecode_eq_self hliteral, dropBlank_eq_self hopened, hs]

/-- The host of a wiki is read as it is written if there is no blank before, no escape in and no ampersand after it. -/
theorem authority_read_eq_iff (hline : '\n' ∉ w) :
    authority (dropBlank (decodePart w) ++ ".org".toList) = authority (w ++ ".org".toList) ↔
      (∀ c ∈ w.head?, isBlank c = false) ∧ hasEscape (authority w) = false ∧ (authority w = w → w.getLast? ≠ some '&') := by
  rcases authority_cases w with hw | ⟨m, t, hm, hw⟩
  · rw [authority_append_org hw, authority_read_eq_iff_of_self hline hw, hw]
    simp only [forall_const]
  · have hself : authority (authority w) = authority w := authority_eq_self fun c hc => isStop_of_mem_authority hc
    have hne : authority w ≠ w := by
      intro h
      rw [h] at hw
      simpa using congrArg List.length hw
    have horg : authority (w ++ ".org".toList) = authority w := by
      conv_lhs => rw [hw]
      rw [List.append_assoc, List.cons_append, authority_append_stop hm, hself]
    have hiff := authority_read_eq_iff_of_stop hm hself t
    rw [← hw] at hiff
    rw [horg, hiff]
    simp only [hne, false_implies, and_true]

/-- A host that starts with the letter W is read as such. -/
theorem head_read (t : List Char) : ∃ rest, authority (dropBlank (decodePart ('w' :: t)) ++ ".org".toList) = 'w' :: rest := by
  have hdecode : ∃ rest, decodePart ('w' :: t) = 'w' :: rest := by
    rw [decodePart_eq, substitute_cons_of_none (finalMark_of_not_ampersand (by decide) t)]
    exact ⟨_, percentDecode_append_cons (by decide) (by decide) (by decide) [] _⟩
  obtain ⟨rest, hrest⟩ := hdecode
  rw [hrest, dropBlank_cons_of_not_blank (by decide), List.cons_append]
  exact ⟨_, List.takeWhile_cons_of_pos (by decide)⟩

/-- A host that is served from the MediaWiki site was read from a text that does not start with the letter W. -/
theorem head_of_namesSite (h : namesSite (authority (dropBlank (decodePart w) ++ ".org".toList)) = true) : w.head? ≠ some 'w' := by
  intro hw
  obtain ⟨t, rfl⟩ := List.head?_eq_some_iff.mp hw
  obtain ⟨rest, hrest⟩ := head_read t
  have hnone : afterFold? "mediawiki.org".toList ('w' :: rest) = none := rfl
  rw [hrest, namesSite, hnone] at h
  cases h

/-- The host of a wiki starts as the wiki does, or at a stop. -/
theorem head?_authority_append (h : (authority (w ++ t)).head? = some m) (hw : w ≠ []) : w.head? = some m := by
  obtain ⟨c, w, rfl⟩ := List.exists_cons_of_ne_nil hw
  rw [List.cons_append, authority] at h
  cases hc : isStop c with
  | true =>
    rw [List.takeWhile_cons_of_neg (by simp [hc])] at h
    cases h
  | false => rwa [List.takeWhile_cons_of_pos (by simp [hc])] at h

/-- The authority of the start of a text is part of the authority of the text. -/
theorem authority_subset (s t : List Char) : authority s ⊆ authority (s ++ t) := by
  intro c hc
  rcases authority_cases s with hs | ⟨m, u, hm, hs⟩
  · have hcut : authority (s ++ t) = s ++ authority t :=
      List.takeWhile_append_of_pos fun d hd => by rw [isStop_of_mem_authority (hs.symm ▸ hd)]; rfl
    rw [hcut]
    exact List.mem_append_left _ (hs ▸ hc)
  · rw [hs, List.append_assoc, List.cons_append, authority_append_stop hm]
    rwa [authority_eq_self fun d hd => isStop_of_mem_authority hd]

/-- What is read of a host that is the MediaWiki site but for case. -/
theorem read_of_lower (hline : '\n' ∉ w) (h : lower (String.ofList (authority (w ++ ".org".toList))) = "mediawiki.org") :
    authority (dropBlank (decodePart w) ++ ".org".toList) = authority (w ++ ".org".toList) := by
  have hmark : ∀ c, isMark c = true → c ∉ "mediawiki.org".toList → c ∉ authority w := by
    intro c hmark hnot hc
    have hmem := (mem_lower (s := String.ofList (authority (w ++ ".org".toList))) hmark).mpr
      (by rw [String.toList_ofList]; exact authority_subset w _ hc)
    rw [h] at hmem
    exact hnot hmem
  refine (authority_read_eq_iff hline).mpr ⟨?_, ?_, ?_⟩
  · intro c hc
    by_contra hblank
    rw [Bool.not_eq_false] at hblank
    obtain ⟨t, rfl⟩ := List.head?_eq_some_iff.mp hc
    have hstop : isStop c = false := by
      rw [← Bool.not_eq_true, isStop_iff]
      rintro (rfl | rfl) <;> exact absurd hblank (by decide)
    have hhead : (String.ofList (authority (c :: t ++ ".org".toList))).toList.head? = some c := by
      rw [String.toList_ofList, List.cons_append, authority, List.takeWhile_cons_of_pos (by rw [hstop]; rfl)]
      rfl
    have hlower := head?_lower (lowerAt_of_blank hblank) hhead
    rw [h] at hlower
    exact absurd hblank (by rw [← Option.some.inj hlower]; decide)
  · rw [← Bool.not_eq_true]
    exact fun hescape => hmark '%' (by decide) (by decide) (percent_of_hasEscape hescape)
  · intro hself hlast
    refine hmark '&' (by decide) (by decide) ?_
    rw [hself]
    exact List.mem_of_getLast? hlast

/-- A page is loaded from the host that a URL names, or from the MediaWiki site that it names, exactly if reading keeps that host. -/
theorem hostKept_iff (hne : w ≠ []) (hline : '\n' ∉ w) :
    servedHost (authority (dropBlank (decodePart w) ++ ".org".toList)) = authority (w ++ ".org".toList) ∨
      (lower (String.ofList (authority (w ++ ".org".toList))) = "mediawiki.org" ∧
        servedHost (authority (dropBlank (decodePart w) ++ ".org".toList)) = "www.mediawiki.org".toList) ↔ HostKept w := by
  constructor
  · rintro (h | ⟨hlower, -⟩)
    · have hnames : namesSite (authority (dropBlank (decodePart w) ++ ".org".toList)) = false := by
        rw [← Bool.not_eq_true]
        intro hnames
        rw [servedHost, if_pos hnames] at h
        exact head_of_namesSite hnames (head?_authority_append (by rw [← h]; rfl) hne)
      rw [servedHost, if_neg (ne_true_of_eq_false hnames)] at h
      obtain ⟨hopened, hliteral, hclosed⟩ := (authority_read_eq_iff hline).mp h
      exact ⟨hopened, hliteral, hclosed, fun hsite => by rw [← h, hnames] at hsite; cases hsite⟩
    · obtain ⟨hopened, hliteral, hclosed⟩ := (authority_read_eq_iff hline).mp (read_of_lower hline hlower)
      exact ⟨hopened, hliteral, hclosed, fun _ => hlower⟩
  · rintro ⟨hopened, hliteral, hclosed, hsite⟩
    rw [(authority_read_eq_iff hline).mpr ⟨hopened, hliteral, hclosed⟩]
    cases hnames : namesSite (authority (w ++ ".org".toList)) with
    | true => exact Or.inr ⟨hsite hnames, (servedHost_of_lower (hsite hnames)).2⟩
    | false => exact Or.inl (by rw [servedHost, if_neg (ne_true_of_eq_false hnames)])

/-- Two URLs lead to the same host, or the first names the MediaWiki site and the second its `www` host. -/
def SameHost (url loaded : List Char) : Prop :=
  authority? loaded = authority? url ∨
    (∃ host, authority? url = some host ∧ lower (String.ofList host) = "mediawiki.org") ∧
      authority? loaded = some "www.mediawiki.org".toList

variable {url value : List Char}

/-- The authority of a URL is that of the wiki that is read from it, with the ending of the host. -/
theorem authority?_of_parts? (h : parts? url = some (w, value)) : authority? url = some (authority (w ++ ".org".toList)) := by
  obtain ⟨scheme, query, rfl, hscheme, -⟩ := exists_query_of_parts? h
  have hsplit : scheme ++ "//".toList ++ w ++ ".org/w/index.php?".toList ++ query =
      scheme ++ "//".toList ++ (w ++ ".org".toList ++ '/' :: ("w/index.php?".toList ++ query)) := by
    simp
  rw [hsplit, authority?_scheme hscheme, authority_append_stop (by decide)]

/-- The title in the query of a URL is the page that it names. -/
theorem head?_titles_of_parts? {query : List Char} {scheme : List Char}
    (hurl : url = scheme ++ "//".toList ++ w ++ ".org/w/index.php?".toList ++ query)
    (hscheme : scheme = [] ∨ scheme = "https:".toList ∨ scheme = "http:".toList) (hquestion : '?' ∉ w) (hhash : '#' ∉ w)
    (htitle : TitleFirst query) (h : somewhere (fun t => do parameterText (← after? "title=".toList t)) query = some value) :
    (titles url).head?.map percentDecode = some (decodePart value) := by
  obtain ⟨before, page, rest, rfl, hbefore, hne, hpage, hrest⟩ := htitle
  have hsplit : url = (scheme ++ "//".toList ++ w ++ ".org/w/index.php".toList) ++
      '?' :: (before.flatMap (· ++ ['&']) ++ ("title=".toList ++ page ++ rest)) := by
    rw [hurl]
    simp
  have hfront : ∀ c, c ∉ w → c ∉ "https://.org/w/index.php".toList → c ∉ scheme ++ "//".toList ++ w ++ ".org/w/index.php".toList := by
    intro c hw hfixed
    rcases hscheme with rfl | rfl | rfl <;> simp_all
  rw [hsplit, head?_titles ⟨hfront '#' hhash (by decide), hfront '?' hquestion (by decide)⟩ hbefore hpage hrest, Option.map_some,
    decodePart_of_titleFirst hbefore hne hpage hrest h]

end Address

namespace Entry

open Address

variable {url : String} {wiki value : List Char}

/-- A page of a named wiki is loaded from the host that the URL names exactly if reading keeps the host. -/
theorem sameHost_iff {e : Entry} {page : String} (hparts : parts? url.toList = some (wiki, value))
    (hsource : e.source = .foreign (String.ofList (decodePart wiki)) page) (hscheme : startsWithScheme (decodePart wiki) = false)
    (server : String) : SameHost url.toList (e.loaderUrl server).toList ↔ HostKept wiki := by
  obtain ⟨-, -, -, -, hne, hline, -⟩ := exists_query_of_parts? hparts
  have hname := dropWebScheme_trim (decodePart wiki) hscheme
  have hloaded : authority? (e.loaderUrl server).toList =
      some (servedHost (authority (dropBlank (decodePart wiki) ++ ".org".toList))) := by
    have hend : ∀ c ∈ (dropBlank (decodePart wiki) ++ ".org".toList).getLast?, c ≠ '\n' := by
      intro c hc
      rw [List.getLast?_append] at hc
      obtain rfl : 'g' = c := Option.some.inj hc
      decide
    rw [loaderUrl, hsource, String.toList_ofList, ← hname]
    exact authority?_pageUrl _ page (by rwa [hname])
  rw [SameHost, hloaded, authority?_of_parts? hparts, ← hostKept_iff hne hline]
  simp

/-- A URL that stands for a page has the parts that are read from it. -/
theorem parts?_of_ofAddress {nonempty : url ≠ ""} {target page : String} {disabled : Bool}
    (h : (ofAddress url nonempty target disabled).page = some page) :
    ∃ wiki value, parts? url.toList = some (wiki, value) ∧ page = String.ofList (decodePart value) ∧
      (ofAddress url nonempty target disabled).source =
        if wiki = ['&'] then .own page else .foreign (String.ofList (decodePart wiki)) page := by
  cases hnamed : named? url with
  | none =>
    rw [ofAddress_of_not_named hnamed] at h
    cases h
  | some found =>
    obtain ⟨name, title⟩ := found
    obtain ⟨hp, heq⟩ := ofAddress_of_named nonempty hnamed target disabled
    rw [heq] at h ⊢
    obtain rfl : title = page := Option.some.inj h
    obtain ⟨hpage, -⟩ := Option.filter_eq_some_iff.mp hnamed
    rw [page?, Option.map_eq_some_iff] at hpage
    obtain ⟨⟨wiki, value⟩, hparts, hread⟩ := hpage
    obtain ⟨rfl, rfl⟩ := Prod.mk.inj hread
    refine ⟨wiki, value, hparts, rfl, ?_⟩
    obtain ⟨-, -, -, -, hne, hline, -⟩ := exists_query_of_parts? hparts
    rw [source_ofPage]
    by_cases hwiki : wiki = ['&']
    · rw [if_pos hwiki, hwiki]
      rfl
    · have hname : String.ofList (decodePart wiki) ≠ "" := by
        intro hempty
        have hnil := congrArg String.toList hempty
        rw [String.toList_ofList] at hnil
        exact hwiki (decodePart_eq_nil hne hline hnil)
      rw [if_neg hwiki, given_some hname]

/-- A URL that stands for a page names the wiki of the page unless the URL has a lone ampersand in its place. The page is loaded
from the host of the URL exactly if reading keeps that host, and it is the value of the parameter named `title` if that is the
first parameter with this text in it. -/
theorem ofAddress_names_page (nonempty : url ≠ "") (target : String) (disabled : Bool) (server : String) {page : String}
    (h : (ofAddress url nonempty target disabled).page = some page) :
    ∃ scheme wiki query value, parts? url.toList = some (wiki, value) ∧
      url.toList = scheme ++ "//".toList ++ wiki ++ ".org/w/index.php?".toList ++ query ∧
      (scheme = [] ∨ scheme = "https:".toList ∨ scheme = "http:".toList) ∧
      ((∃ name, (ofAddress url nonempty target disabled).source = .foreign name page) ↔ wiki ≠ ['&']) ∧
      (startsWithScheme (decodePart wiki) = false →
        ((∃ name, (ofAddress url nonempty target disabled).source = .foreign name page) ∧
          SameHost url.toList ((ofAddress url nonempty target disabled).loaderUrl server).toList ↔ HostKept wiki)) ∧
      ('?' ∉ wiki → '#' ∉ wiki → TitleFirst query → (titles url.toList).head?.map percentDecode = some page.toList) := by
  obtain ⟨wiki, value, hparts, hpage, hsource⟩ := parts?_of_ofAddress h
  obtain ⟨scheme, query, hurl, hkind, -, -, hvalue⟩ := exists_query_of_parts? hparts
  have hforeign : (∃ name, (ofAddress url nonempty target disabled).source = .foreign name page) ↔ wiki ≠ ['&'] := by
    rw [hsource]
    by_cases hwiki : wiki = ['&'] <;> simp [hwiki]
  refine ⟨scheme, wiki, query, value, hparts, hurl, hkind, hforeign, ?_, ?_⟩
  · intro hscheme
    rw [hforeign]
    constructor
    · rintro ⟨hwiki, hhost⟩
      exact (sameHost_iff hparts (hsource.trans (if_neg hwiki)) hscheme server).mp hhost
    · intro hkept
      have hwiki : wiki ≠ ['&'] := by
        rintro rfl
        exact hkept.closed rfl rfl
      exact ⟨hwiki, (sameHost_iff hparts (hsource.trans (if_neg hwiki)) hscheme server).mpr hkept⟩
  · intro hquestion hhash htitle
    rw [hpage, String.toList_ofList]
    exact head?_titles_of_parts? hurl hkind hquestion hhash htitle hvalue

/-- A script of another user is loaded from the wiki that its URL names, and under its title. -/
theorem ofAddress_names_page_of_user :
    let url := "//en.wikipedia.org/w/index.php?action=raw&title=User:A/x.js"
    let e := ofAddress url (by decide) "common" false
    e.page = some "User:A/x.js" ∧ (∃ name, e.source = .foreign name "User:A/x.js") ∧
      SameHost url.toList (e.loaderUrl "a.org").toList ∧
      (titles url.toList).head?.map percentDecode = some "User:A/x.js".toList := by
  intro url e
  have hpage : (ofAddress url (by decide) "common" false).page = some "User:A/x.js" := by decide +kernel
  have hread : parts? url.toList = some ("en.wikipedia".toList, "User:A/x.js".toList) := by decide +kernel
  obtain ⟨scheme, wiki, query, value, hparts, hurl, hkind, -, hhost, htitle⟩ := ofAddress_names_page _ _ _ "a.org" hpage
  obtain ⟨rfl, rfl⟩ := Prod.mk.inj (Option.some.inj (hread.symm.trans hparts))
  have hkept : HostKept "en.wikipedia".toList := ⟨fun c hc => Option.some.inj hc ▸ rfl, by decide, by decide, by decide⟩
  have hquery : query = ["action=raw".toList].flatMap (· ++ ['&']) ++ ("title=".toList ++ "User:A/x.js".toList ++ []) := by
    rcases hkind with rfl | rfl | rfl
    · simpa [url] using hurl.symm
    · simp [url] at hurl
    · simp [url] at hurl
  have hfirst : TitleFirst query := by
    refine ⟨["action=raw".toList], "User:A/x.js".toList, [], hquery, ?_, by decide, by decide, Or.inl rfl⟩
    decide +kernel
  obtain ⟨hforeign, hsame⟩ := (hhost (by decide)).mpr hkept
  exact ⟨hpage, hforeign, hsame, htitle (by decide) (by decide) hfirst⟩

/-- The text `title=` at the end of the name of another parameter is taken for the parameter. -/
theorem ofAddress_takes_another_parameter :
    (ofAddress "//en.wikipedia.org/w/index.php?subtitle=Foo&title=User:A/x.js" (by decide) "common" false).page = some "Foo" ∧
      titles "//en.wikipedia.org/w/index.php?subtitle=Foo&title=User:A/x.js".toList = ["User:A/x.js".toList] := by
  decide +kernel

end Entry

end UserScripts
