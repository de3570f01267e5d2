import UserScripts.Proofs.Statement.Address
import UserScripts.Proofs.Text.Lines

/-!
# The title in a query

A URL that names a page is searched for the first `title=` with something behind it, wherever that stands. It is the value of the
parameter named `title` if this is the first parameter with that text in it and has a value of its own. Main statements:
`head?_titles` and `decodePart_of_titleFirst`.
-/

namespace UserScripts.Address

open UserScripts.Text

/-- The query of a URL: what stands between its first question mark and its fragment. -/
def query (url : List Char) : List Char :=
  ((url.takeWhile (· != '#')).dropWhile (· != '?')).drop 1

/-- The values of the parameters of a URL that are named `title`. -/
def titles (url : List Char) : List (List Char) :=
  (splitOn '&' (query url)).filterMap (after? "title=".toList)

/-- Whether a character can stand in a parameter on the line of the URL. -/
def isInner (c : Char) : Bool :=
  c != '&' && c != '#' && c != '\n'

/-- The first parameter in which the text `title=` stands is named `title`, and it has a value, which an ampersand or the URL ends. -/
def TitleFirst (query : List Char) : Prop :=
  ∃ (before : List (List Char)) (value rest : List Char), query = before.flatMap (· ++ ['&']) ++ ("title=".toList ++ value ++ rest) ∧
    (∀ p ∈ before, (∀ c ∈ p, isInner c = true) ∧ ¬"title=".toList <:+: p) ∧
    value ≠ [] ∧ (∀ c ∈ value, isInner c = true) ∧ (rest = [] ∨ ∃ more, rest = '&' :: more)

variable {url wiki page value p s : List Char} {before : List (List Char)}

/-- What stands within a parameter holds neither of the marks around it and no line feed. -/
theorem not_mem_of_inner (h : ∀ c ∈ s, isInner c = true) : '&' ∉ s ∧ '#' ∉ s ∧ '\n' ∉ s := by
  refine ⟨fun hc => ?_, fun hc => ?_, fun hc => ?_⟩ <;> exact absurd (h _ hc) (by decide)

/-! ## Parameters -/

/-- The pieces before a text are the first parameters. -/
theorem splitOn_flatMap (h : ∀ p ∈ before, ∀ c ∈ p, isInner c = true) (s : List Char) :
    splitOn '&' (before.flatMap (· ++ ['&']) ++ s) = before ++ splitOn '&' s := by
  induction before with
  | nil => rfl
  | cons p before ih =>
    rw [List.flatMap_cons, List.append_assoc, List.append_assoc, List.singleton_append,
      splitOn_append_cons (not_mem_of_inner (h p List.mem_cons_self)).1, ih fun q hq => h q (List.mem_cons_of_mem _ hq), List.cons_append]

/-- The first parameter named `title` is the first one in which that text stands. -/
theorem head?_titles {front : List Char} (hfront : '#' ∉ front ∧ '?' ∉ front) {rest : List Char}
    (hbefore : ∀ p ∈ before, (∀ c ∈ p, isInner c = true) ∧ ¬"title=".toList <:+: p) (hvalue : ∀ c ∈ value, isInner c = true)
    (hrest : rest = [] ∨ ∃ more, rest = '&' :: more) :
    (titles (front ++ '?' :: (before.flatMap (· ++ ['&']) ++ ("title=".toList ++ value ++ rest)))).head? = some value := by
  have hpieces : ∀ c ∈ before.flatMap (· ++ ['&']) ++ ("title=".toList ++ value), (c != '#') = true := by
    intro c hc
    rw [bne_iff_ne]
    rintro rfl
    rcases List.mem_append.mp hc with hc | hc
    · obtain ⟨p, hp, hc⟩ := List.mem_flatMap.mp hc
      rcases List.mem_append.mp hc with hc | hc
      · exact (not_mem_of_inner (hbefore p hp).1).2.1 hc
      · simp at hc
    · rcases List.mem_append.mp hc with hc | hc
      · exact absurd hc (by decide)
      · exact (not_mem_of_inner hvalue).2.1 hc
  have hfronts : (∀ c ∈ front, (c != '#') = true) ∧ ∀ c ∈ front, (c != '?') = true :=
    ⟨fun c hc => by rw [bne_iff_ne]; rintro rfl; exact hfront.1 hc, fun c hc => by rw [bne_iff_ne]; rintro rfl; exact hfront.2 hc⟩
  have hquery : query (front ++ '?' :: (before.flatMap (· ++ ['&']) ++ ("title=".toList ++ value ++ rest))) =
      before.flatMap (· ++ ['&']) ++ (("title=".toList ++ value) ++ rest.takeWhile (· != '#')) := by
    rw [query, List.takeWhile_append_of_pos hfronts.1, List.takeWhile_cons_of_pos (by decide), ← List.append_assoc,
      List.takeWhile_append_of_pos hpieces, List.dropWhile_append_of_pos hfronts.2, List.dropWhile_cons_of_neg (by decide),
      List.drop_succ_cons, List.drop_zero, List.append_assoc]
  have hnone : before.filterMap (after? "title=".toList) = [] := by
    refine List.filterMap_eq_nil_iff.mpr fun p hp => Option.eq_none_iff_forall_ne_some.mpr fun r hr => (hbefore p hp).2 ?_
    rw [after?_eq_some.mp hr]
    exact (List.prefix_append _ r).isInfix
  have hmark : '&' ∉ "title=".toList ++ value := by
    rw [List.mem_append, not_or]
    exact ⟨by decide, (not_mem_of_inner hvalue).1⟩
  have hsplit : ∃ others, splitOn '&' (("title=".toList ++ value) ++ rest.takeWhile (· != '#')) =
      ("title=".toList ++ value) :: others := by
    rcases hrest with rfl | ⟨more, rfl⟩
    · exact ⟨[], by rw [List.takeWhile_nil, List.append_nil, splitOn_of_not_mem hmark]⟩
    · exact ⟨_, by rw [List.takeWhile_cons_of_pos (by decide), splitOn_append_cons hmark]⟩
  obtain ⟨others, hothers⟩ := hsplit
  rw [titles, hquery, splitOn_flatMap fun p hp => (hbefore p hp).1, hothers, List.filterMap_append, hnone, List.nil_append,
    List.filterMap_cons, after?_append]
  rfl

/-! ## The text that is found -/

/-- What is read before a mark is read in the text before it, if the mark does not belong to the word. -/
theorem prefix_of_after?_append_cons {word rest : List Char} {m : Char} (hm : m ∉ word) {t : List Char}
    (h : after? word (s ++ m :: t) = some rest) : word <+: s := by
  rcases List.append_eq_append_iff.mp (after?_eq_some.mp h) with ⟨more, rfl, hmore⟩ | ⟨more, rfl, -⟩
  · cases more with
    | nil => simp
    | cons c more =>
      obtain ⟨rfl, -⟩ := List.cons.inj hmore
      exact absurd (List.mem_append_right _ List.mem_cons_self) hm
  · exact List.prefix_append _ _

/-- A parameter without the text `title=` is passed by. -/
theorem somewhere_append_cons (hline : '\n' ∉ p) (h : ¬"title=".toList <:+: p) (t : List Char) :
    somewhere (fun t => do parameterText (← after? "title=".toList t)) (p ++ '&' :: t) =
      somewhere (fun t => do parameterText (← after? "title=".toList t)) t := by
  induction p with
  | nil =>
    rw [List.nil_append, somewhere]
    rfl
  | cons c p ih =>
    have hnone : after? "title=".toList ((c :: p) ++ '&' :: t) = none :=
      Option.eq_none_iff_forall_ne_some.mpr fun r hr => h (prefix_of_after?_append_cons (by decide) hr).isInfix
    rw [List.mem_cons, not_or] at hline
    rw [List.cons_append] at hnone ⊢
    rw [somewhere, hnone]
    simp only [Option.bind_eq_bind, Option.bind_none, if_neg (Ne.symm hline.1)]
    exact ih hline.2 fun hp => h (hp.trans (List.suffix_cons c p).isInfix)

/-- A value that ends with the URL is read up to there. -/
theorem parameterText_of_inner (hvalue : value ≠ []) (h : ∀ c ∈ value, isInner c = true) : parameterText value = some value := by
  obtain ⟨hmark, -, hline⟩ := not_mem_of_inner h
  have hshort : shortest parameterEnd (value ++ []) = some (value, []) := by
    refine shortest_append hvalue hline ?_ rfl
    rintro q r rfl - hr
    obtain ⟨d, r, rfl⟩ := List.exists_cons_of_ne_nil hr
    have hd : d ≠ '&' ∧ d ≠ '\n' := by
      constructor
      · rintro rfl
        exact hmark (by simp)
      · rintro rfl
        exact hline (by simp)
    rw [List.append_nil]
    unfold parameterEnd
    split
    · next heq => exact absurd (List.cons.inj heq).1 hd.1
    · refine if_neg ?_
      cases r with
      | nil => simp [atEnd, hd.2]
      | cons e r => simp [atEnd]
  rw [List.append_nil] at hshort
  rw [parameterText, hshort]
  exact congrArg some (List.append_nil value)

/-- The page that is found is the value of the parameter named `title`. -/
theorem decodePart_of_titleFirst {rest : List Char} (hbefore : ∀ p ∈ before, (∀ c ∈ p, isInner c = true) ∧ ¬"title=".toList <:+: p)
    (hne : value ≠ []) (hvalue : ∀ c ∈ value, isInner c = true) (hrest : rest = [] ∨ ∃ more, rest = '&' :: more)
    (h : somewhere (fun t => do parameterText (← after? "title=".toList t))
      (before.flatMap (· ++ ['&']) ++ ("title=".toList ++ value ++ rest)) = some page) : decodePart page = percentDecode value := by
  induction before with
  | nil =>
    rw [List.flatMap_nil, List.nil_append] at h
    obtain ⟨hmark, -, hline⟩ := not_mem_of_inner hvalue
    rcases hrest with rfl | ⟨more, rfl⟩
    · rw [List.append_nil, somewhere_of_some (a := value)] at h
      · rw [← Option.some.inj h, decodePart_of_not_mem hmark]
      · rw [after?_append]
        exact parameterText_of_inner hne hvalue
    · obtain ⟨c, value, rfl⟩ := List.exists_cons_of_ne_nil hne
      simp only [List.mem_cons, not_or] at hmark hline
      rw [List.append_assoc, somewhere_of_some (a := c :: value ++ ['&'])] at h
      · rw [← Option.some.inj h, decodePart_append_ampersand]
      · rw [after?_append]
        exact parameterText_ampersand (Ne.symm hline.1) hmark.2 hline.2 more
  | cons p before ih =>
    obtain ⟨hinner, hnot⟩ := hbefore p List.mem_cons_self
    rw [List.flatMap_cons, List.append_assoc, List.append_assoc, List.singleton_append,
      somewhere_append_cons (not_mem_of_inner hinner).2.2 hnot] at h
    exact ih (fun q hq => hbefore q (List.mem_cons_of_mem _ hq)) h

end UserScripts.Address
