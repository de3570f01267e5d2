import UserScripts.Proofs.Statement.Kept
import UserScripts.Proofs.Wrapper.Entry

/-!
# Which entries an item loads

An item that was made for one entry is asked whether it loads the script of another one. It says so if the keys agree but for case, if
the calls agree but for blanks, or if its call is read as a call of that script, while lines are asked for the script alone. Main
statement: `loads_iff_sameScript`, which says when both come to the same.
-/

namespace UserScripts

open UserScripts.Text

/-! ## Calls without blanks -/

/-- A URL without the spaces that its literal keeps as they are. -/
def unspaced (url : String) : List Char :=
  url.toList.filter fun c => !Statement.isSpace c

/-- The blanks of a literal are the spaces of its text. -/
theorem filter_toLiteral (s : List Char) :
    (toLiteral s).filter (fun c => !isBlank c) = toLiteral (s.filter fun c => !Statement.isSpace c) := by
  induction s with
  | nil => rfl
  | cons c s ih =>
    rw [toLiteral_cons, List.filter_append, ih, List.filter_cons]
    by_cases hp : isLiteralPlain c = true
    · rw [literalChar_of_plain hp, Statement.isSpace, hp, Bool.and_true]
      cases hb : isBlank c with
      | true => simp [hb]
      | false => simp [hb, toLiteral_cons, literalChar_of_plain hp]
    · have hspace : Statement.isSpace c = false := by
        rw [Bool.eq_false_iff]
        exact fun h => hp (Statement.isSpace_iff.mp h).2
      obtain ⟨d, rest, hd, -, -, -, hblank⟩ := Statement.literalChar_eq_cons hp
      have hkept : (literalChar c).filter (fun c => !isBlank c) = literalChar c := by
        rw [hd, List.filter_eq_self]
        intro x hx
        rcases List.mem_cons.mp hx with rfl | hx
        · decide
        · rw [hblank x hx]
          rfl
      rw [hkept, hspace]
      rfl

namespace Entry

variable {a b e : Entry} {s : Settings} {call call' : String}

/-- Whether the calls of two entries differ in nothing but spaces. -/
def SameButSpaces (a b : Entry) (s : Settings) : Prop :=
  unspaced (a.loaderUrl s.serverName) = unspaced (b.loaderUrl s.serverName) ∧ a.isCss = b.isCss

/-- The calls of two entries agree without their blanks exactly if the URLs do without their spaces. -/
theorem removeBlank_loadCall_iff (ha : a.loadCall s = .ok call) (hb : b.loadCall s = .ok call') :
    removeBlank call = removeBlank call' ↔ a.SameButSpaces b s := by
  obtain ⟨css, hcss, hcall⟩ := loadCall_eq ha
  obtain ⟨css', hcss', hcall'⟩ := loadCall_eq hb
  have hremoved : ∀ {text url : String} {css : Bool},
      text.toList = "mw.loader.load('".toList ++ toLiteral url.toList ++ '\'' :: mediaArgument css ++ ");".toList →
      (removeBlank text).toList = "mw.loader.load('".toList ++ (toLiteral (unspaced url) ++
        '\'' :: ((mediaArgument css).filter (fun c => !isBlank c) ++ ");".toList)) := by
    intro text url css htext
    rw [removeBlank, String.toList_ofList, htext]
    simp only [List.filter_append, List.filter_cons, filter_toLiteral, List.append_assoc, unspaced]
    rfl
  rw [← String.toList_inj, hremoved hcall, hremoved hcall', SameButSpaces, hcss, hcss']
  constructor
  · intro hboth
    obtain ⟨hurl, hrest⟩ := toLiteral_inj (List.append_cancel_left hboth)
    refine ⟨hurl, congrArg Except.ok ?_⟩
    have hmedia := List.append_cancel_right hrest
    cases css <;> cases css' <;> first | rfl | exact absurd hmedia (by decide)
  · rintro ⟨hurl, hmedia⟩
    rw [hurl, Except.ok.inj hmedia]

/-! ## Keys -/

/-- The keys of entries of different kinds differ in their first letters. -/
theorem head?_identity (e : Entry) : e.identity.toList.head? = match e.source with
    | .own _ => some 'l'
    | .foreign _ _ => some 'r'
    | .address _ => some 'u' := by
  have hletter : ∀ (c : Char) (rest : List Char), (∀ before after, lowerAt before c after = [c]) →
      e.key.toList = c :: rest → e.identity.toList.head? = some c := by
    intro c rest hc hkey
    exact head?_lower hc (by rw [hkey]; rfl)
  cases hs : e.source with
  | own page =>
    exact hletter 'l' ("ocal:" ++ e.target ++ ":" ++ page).toList (fun _ _ => rfl) (by rw [key, hs]; simp)
  | «foreign» wiki page =>
    exact hletter 'r' ("emote:" ++ e.target ++ ":" ++ wiki ++ ":" ++ page).toList (fun _ _ => rfl) (by rw [key, hs]; simp)
  | address url =>
    exact hletter 'u' ("rl:" ++ e.target ++ ":" ++ url).toList (fun _ _ => rfl) (by rw [key, hs]; simp)

/-- A key that has no capital sigma is lower-cased part by part. -/
theorem identity_append {front back : String} (hkey : e.key = front ++ back) (h : 'Σ' ∉ e.key.toList) :
    e.identity = lower front ++ lower back := by
  rw [hkey, String.toList_append, List.mem_append, not_or] at h
  rw [identity, hkey, lower_append h.1 h.2]

/-- A key without capital sigma has none at its end. -/
theorem sigmaless_of_append {front back : String} (hkey : e.key = front ++ back) (h : 'Σ' ∉ e.key.toList) : 'Σ' ∉ back.toList := by
  rw [hkey, String.toList_append, List.mem_append, not_or] at h
  exact h.2

/-- A wiki without a colon ends at the first colon of what follows the target in a key. -/
theorem lower_parts {wiki page wiki' page' : String} (hwiki : ':' ∉ wiki.toList) (hwiki' : ':' ∉ wiki'.toList)
    (hsigma : 'Σ' ∉ (wiki ++ ":" ++ page).toList) (hsigma' : 'Σ' ∉ (wiki' ++ ":" ++ page').toList)
    (h : lower (wiki ++ ":" ++ page) = lower (wiki' ++ ":" ++ page')) : lower wiki = lower wiki' ∧ lower page = lower page' := by
  have hsplit : ∀ {wiki page : String}, ':' ∉ wiki.toList → 'Σ' ∉ (wiki ++ ":" ++ page).toList →
      (lower (wiki ++ ":" ++ page)).toList = (lower wiki).toList ++ ':' :: (lower page).toList ∧
        (lower wiki).toList = (lower (wiki ++ ":" ++ page)).toList.takeWhile (· != ':') := by
    intro wiki page hwiki hsigma
    simp only [String.toList_append, List.mem_append, not_or] at hsigma
    have hlower : (lower (wiki ++ ":" ++ page)).toList = (lower wiki).toList ++ ':' :: (lower page).toList := by
      rw [lower_append (by simp [hsigma.1]) hsigma.2, lower_append hsigma.1.1 hsigma.1.2, String.toList_append, String.toList_append,
        List.append_assoc]
      rfl
    refine ⟨hlower, ?_⟩
    rw [hlower, List.takeWhile_append_of_pos]
    · simp
    · intro c hc
      rw [bne_iff_ne]
      rintro rfl
      exact hwiki ((mem_lower (by decide)).mp hc)
  obtain ⟨hparts, htake⟩ := hsplit hwiki hsigma
  obtain ⟨hparts', htake'⟩ := hsplit hwiki' hsigma'
  rw [h, ← htake'] at htake
  rw [h, hparts', htake] at hparts
  exact ⟨String.toList_injective htake, String.toList_injective (List.cons.inj (List.append_cancel_left hparts)).2.symm⟩

/-- An entry that is kept and of which nothing can be confused with something else: its URL has no spaces, its key has no capital
sigma, whose lower case depends on what stands around it, and its wiki has no colon, which ends a part of a key. -/
structure Tidy (e : Entry) (s : Settings) : Prop where
  kept : e.Kept s
  spaceless : ∀ c ∈ (e.loaderUrl s.serverName).toList, Statement.isSpace c = false
  sigmaless : 'Σ' ∉ e.key.toList
  colonless : ∀ wiki page, e.source = .foreign wiki page → ':' ∉ wiki.toList

/-- Tidy entries with the same key but for case load the same script, unless they are URLs with different case. -/
theorem Tidy.of_identity (ha : a.Tidy s) (hb : b.Tidy s) (target : a.target = b.target) (h : a.identity = b.identity) :
    a.sameScript b s = true ∨ ∃ url url', a.source = .address url ∧ b.source = .address url' ∧ lower url = lower url' := by
  have hhead := a.head?_identity
  rw [h, b.head?_identity] at hhead
  cases hsa : a.source with
  | own page =>
    cases hsb : b.source with
    | own page' =>
      refine Or.inl ((sameScript_of_pages (by simp [hsa]) (by simp [hsb])).mpr ⟨?_, by rw [sourceWiki_eq, sourceWiki_eq, hsa, hsb]⟩)
      rw [identity_append (by rw [key, hsa]) ha.sigmaless, identity_append (by rw [key, hsb]) hb.sigmaless, target] at h
      rw [displayName, displayName, hsa, hsb]
      exact String.append_right_inj _ |>.mp h
    | _ => simp [hsa, hsb] at hhead
  | «foreign» wiki page =>
    cases hsb : b.source with
    | «foreign» wiki' page' =>
      have hkey : a.key = ("remote:" ++ a.target ++ ":") ++ (wiki ++ ":" ++ page) := by
        rw [key, hsa]
        simp only [String.append_assoc]
      have hkey' : b.key = ("remote:" ++ b.target ++ ":") ++ (wiki' ++ ":" ++ page') := by
        rw [key, hsb]
        simp only [String.append_assoc]
      rw [identity_append hkey ha.sigmaless, identity_append hkey' hb.sigmaless, target] at h
      obtain ⟨hwiki, hpage⟩ := lower_parts (ha.colonless wiki page hsa) (hb.colonless wiki' page' hsb)
        (sigmaless_of_append hkey ha.sigmaless) (sigmaless_of_append hkey' hb.sigmaless) (String.append_right_inj _ |>.mp h)
      refine Or.inl ((sameScript_of_pages (by simp [hsa]) (by simp [hsb])).mpr ⟨?_, ?_⟩)
      · rw [displayName, displayName, hsa, hsb]
        exact hpage
      · rw [sourceWiki_eq, sourceWiki_eq, hsa, hsb]
        simp only [Wiki.plainFragment, hwiki]
    | _ => simp [hsa, hsb] at hhead
  | address url =>
    cases hsb : b.source with
    | address url' =>
      rw [identity_append (by rw [key, hsa]) ha.sigmaless, identity_append (by rw [key, hsb]) hb.sigmaless, target] at h
      exact Or.inr ⟨url, url', rfl, rfl, String.append_right_inj _ |>.mp h⟩
    | _ => simp [hsa, hsb] at hhead

/-- Tidy entries whose calls differ in nothing but spaces load the same script. -/
theorem Tidy.of_sameButSpaces (ha : a.Tidy s) (hb : b.Tidy s) (h : a.SameButSpaces b s) : a.sameScript b s = true := by
  have hwhole : ∀ {e : Entry}, e.Tidy s → unspaced (e.loaderUrl s.serverName) = (e.loaderUrl s.serverName).toList := by
    intro e he
    exact List.filter_eq_self.mpr fun c hc => by rw [he.spaceless c hc]; rfl
  have hurl : a.loaderUrl s.serverName = b.loaderUrl s.serverName :=
    String.toList_injective ((hwhole ha).symm.trans (h.1.trans (hwhole hb)))
  have haddress : ∀ {a b : Entry} {url : String}, a.source = .address url → servedMediaWiki url.toList = url.toList →
      (∀ url, b.source ≠ .address url) → a.loaderUrl s.serverName = b.loaderUrl s.serverName → a.sameScript b s = true := by
    intro a b url source served hb hurl
    rw [loaderUrl_of_address source, served, String.ofList_toList] at hurl
    rw [sameScript_of_address_left source hb, urlLoads, ← hurl, beq_self_eq_true]
  cases ha.kept with
  | @page wiki onWiki fixed line keeps opened =>
    cases hb.kept with
    | @page wiki' onWiki' fixed' line' keeps' opened' =>
      have hnamed := named?_of_keepsTitle onWiki line keeps
      rw [hurl, named?_of_keepsTitle onWiki' line' keeps'] at hnamed
      obtain ⟨rfl, hname⟩ := Prod.mk.inj (Option.some.inj hnamed)
      exact (sameScript_of_pages onWiki.page onWiki'.page).mpr ⟨by rw [hname], onWiki.same.symm.trans onWiki'.same⟩
    | @address url source unnamed served opened' stripped =>
      rw [sameScript_comm]
      exact haddress source served onWiki.page hurl.symm
  | @address url source unnamed served opened stripped =>
    cases hb.kept with
    | @page wiki onWiki fixed line keeps opened' => exact haddress source served onWiki.page hurl
    | @address url' source' unnamed' served' opened' stripped' =>
      rw [loaderUrl_of_address source, loaderUrl_of_address source', served, served', String.ofList_toList, String.ofList_toList] at hurl
      rw [sameScript_of_addresses source source', hurl, beq_self_eq_true]

/-- Tidy URLs with the same lower case have the same key but for case. -/
theorem Tidy.identity_eq (ha : a.Tidy s) (hb : b.Tidy s) (target : a.target = b.target) {url url' : String}
    (hsa : a.source = .address url) (hsb : b.source = .address url') (h : lower url = lower url') : a.identity = b.identity := by
  rw [identity_append (by rw [key, hsa]) ha.sigmaless, identity_append (by rw [key, hsb]) hb.sigmaless, target, h]

end Entry

namespace Item

variable {a b : Entry} {s : Settings} {name : Option String} {call : String} {i : Item}

/-- An entry that has a call has an item. -/
theorem exists_ofEntry (h : b.loadCall s = .ok call) (name : Option String) : ∃ i, ofEntry b name s = .ok i := by
  rw [ofEntry, h]
  exact ⟨_, rfl⟩

/-- The three questions that an item for one entry answers about another one. -/
theorem loads_ofEntry (ha : a.loadCall s = .ok call) (hi : ofEntry b name s = .ok i) :
    ∃ here, i.loads a s = .ok here ∧
      (here = true ↔ a.identity = b.identity ∨ a.SameButSpaces b s ∨ (b.reread s).sameScript a s = true) := by
  unfold ofEntry at hi
  cases hb : b.loadCall s with
  | error malformed => rw [hb] at hi; nomatch hi
  | ok call' =>
    rw [hb] at hi
    obtain ⟨shown, rfl⟩ : ∃ shown, i = { key := b.key, name := shown, call := call' } := ⟨_, (Except.ok.inj hi).symm⟩
    have hsame : hasKeyOf { key := b.key, name := shown, call := call' } a = true ↔ a.identity = b.identity := by
      rw [hasKeyOf, Bool.and_eq_true, bne_iff_ne, beq_iff_eq, eq_comm (b := a.identity)]
      exact and_iff_right (key_ne_empty b)
    have hcall : callLoads { key := b.key, name := shown, call := call' } a s = (b.reread s).sameScript a s := by
      rw [callLoads, Entry.ofLine?_loadCall hb]
      exact Entry.sameScript_congr (Entry.source_ofAddress _ _ _ _ _ _) a s
    rw [loads]
    split
    · next h => exact ⟨true, rfl, iff_of_true rfl (Or.inl (hsame.mp h))⟩
    · next h =>
      rw [ha]
      refine ⟨_, rfl, ?_⟩
      rw [hsame] at h
      rw [Bool.or_eq_true, beq_iff_eq, eq_comm, Entry.removeBlank_loadCall_iff ha hb, hcall]
      exact (or_iff_right h).symm

/-- The item of a page whose URL names no page loads no URL but that one and those whose calls agree with its call but for spaces. -/
theorem loads_address_iff {url : String} (hpage : ∀ url, b.source ≠ .address url)
    (hopen : ¬Statement.ClosesEarly (b.loaderUrl s.serverName).toList) (hnamed : Entry.named? (b.loaderUrl s.serverName) = none)
    (hsource : a.source = .address url) (ha : a.loadCall s = .ok call) (hi : ofEntry b name s = .ok i) :
    ∃ here, i.loads a s = .ok here ∧ (here = true ↔ a.SameButSpaces b s ∨ b.loaderUrl s.serverName = url) := by
  obtain ⟨here, hloads, hhere⟩ := loads_ofEntry ha hi
  have hkey : a.identity ≠ b.identity := by
    intro hkey
    have hhead := a.head?_identity
    rw [hkey, b.head?_identity, hsource] at hhead
    cases hb : b.source with
    | address url => exact hpage url hb
    | _ => simp [hb] at hhead
  have hreread : (b.reread s).sameScript a s = true ↔ b.loaderUrl s.serverName = url := by
    have hread := Entry.readBack_of_page hpage hopen
    rw [Entry.reread, Entry.ofAddress_of_not_named (by rw [hread, hnamed]), Entry.sameScript_of_addresses (Entry.source_ofUrl _ _ _) hsource,
      hread, beq_iff_eq]
  refine ⟨here, hloads, ?_⟩
  rw [hhere, hreread, or_iff_right hkey]

/-- The item of an entry is asked whether it loads the script of another entry of the same target. The answer is yes if the keys agree
but for case, if the calls agree but for spaces, or if the call of the item is read as a call of that script. If the entry of the item
is kept, this comes to the same as asking the entries themselves, unless they load different scripts although the keys or the calls
agree in this way. If both entries are tidy, that is so only of two URLs that differ in case. -/
theorem loads_iff_sameScript (target : a.target = b.target) (ha : a.loadCall s = .ok call) (hi : ofEntry b name s = .ok i) :
    ∃ here, i.loads a s = .ok here ∧
      (here = true ↔ a.identity = b.identity ∨ a.SameButSpaces b s ∨ (b.reread s).sameScript a s = true) ∧
      (b.Kept s → (here = a.sameScript b s ↔ (a.identity = b.identity ∨ a.SameButSpaces b s → a.sameScript b s = true))) ∧
      (a.Tidy s → b.Tidy s → (here = a.sameScript b s ↔
        ¬∃ url url', a.source = .address url ∧ b.source = .address url' ∧ url ≠ url' ∧ lower url = lower url')) := by
  obtain ⟨here, hloads, hhere⟩ := loads_ofEntry ha hi
  have hkept : b.Kept s → (here = a.sameScript b s ↔ (a.identity = b.identity ∨ a.SameButSpaces b s → a.sameScript b s = true)) := by
    intro kept
    rw [kept.sameScript_reread, Entry.sameScript_comm b a] at hhere
    rw [Bool.eq_iff_iff, hhere, ← or_assoc, or_iff_right_iff_imp]
  refine ⟨here, hloads, hhere, hkept, fun hta htb => ?_⟩
  rw [hkept htb.kept]
  constructor
  · rintro hagree ⟨url, url', hsa, hsb, hne, hlower⟩
    have hsame := hagree (Or.inl (hta.identity_eq htb target hsa hsb hlower))
    rw [Entry.sameScript_of_addresses hsa hsb, beq_iff_eq] at hsame
    exact hne hsame
  · rintro hcase (hkey | hspaces)
    · rcases hta.of_identity htb target hkey with hsame | ⟨url, url', hsa, hsb, hlower⟩
      · exact hsame
      · rw [Entry.sameScript_of_addresses hsa hsb, beq_iff_eq]
        by_contra hne
        exact hcase ⟨url, url', hsa, hsb, hne, hlower⟩
    · exact hta.of_sameButSpaces htb hspaces

/-- A page of the same wiki that is named with its wiki and in another case. -/
theorem loads_iff_sameScript_named :
    let s : Settings := { serverName := "en.wikipedia.org" }
    let a := Entry.ofPage "user:a/X.js" (by decide) (some "en.wikipedia") "common" false
    let b := Entry.ofPage "User:A/x.js" (by decide) none "common" false
    ∃ i, ofEntry b none s = .ok i ∧ a.Tidy s ∧ b.Tidy s ∧ i.loads a s = .ok true := by
  intro s a b
  have target : a.target = b.target := rfl
  have hsame : a.sameScript b s = true := by decide +kernel
  have hpage : ∀ url, a.source ≠ .address url := Entry.source_ofPage_ne (by decide) _ _ _
  have hpage' : ∀ url, b.source ≠ .address url := Entry.source_ofPage_ne (by decide) _ _ _
  have hcolon : ∀ wiki page, a.source = .foreign wiki page → ':' ∉ wiki.toList := by
    intro wiki page hsource
    obtain ⟨rfl, -⟩ := Source.foreign.inj hsource
    decide +kernel
  have hplain : ∀ c ∈ "en.wikipedia".toList, c ≠ '/' ∧ c ≠ '&' ∧ c ≠ '%' ∧ c ≠ '\n' := by decide +kernel
  have hserved : servedMediaWiki ("//" ++ "en.wikipedia" ++ ".org/w/index.php?title").toList =
      ("//" ++ "en.wikipedia" ++ ".org/w/index.php?title").toList := by decide +kernel
  have hfixed : Wiki.normalizeHost ("en.wikipedia" ++ ".org") = "en.wikipedia" ++ ".org" := by decide +kernel
  have hwiki : a.OnPlainWiki s "en.wikipedia" := ⟨hpage, hfixed, by decide +kernel, by decide, hplain, hserved⟩
  have hwiki' : b.OnPlainWiki s "en.wikipedia" := ⟨hpage', hfixed, by decide +kernel, by decide, hplain, hserved⟩
  have hurl : a.loaderUrl s.serverName = "//en.wikipedia.org/w/index.php?title=user:a/X.js&action=raw&ctype=text/javascript" := by
    decide +kernel
  have hurl' : b.loaderUrl s.serverName = "//en.wikipedia.org/w/index.php?title=User:A/x.js&action=raw&ctype=text/javascript" := by
    decide +kernel
  have ha : a.Tidy s := by
    refine ⟨.page hwiki hfixed (by decide +kernel) ⟨by decide +kernel, by decide +kernel, by decide +kernel⟩ ?_, ?_,
      by decide +kernel, hcolon⟩
    · rw [hurl, ← Statement.cutEarly?_eq_none]
      decide +kernel
    · rw [hurl]
      decide +kernel
  have hb : b.Tidy s := by
    refine ⟨.page hwiki' hfixed (by decide +kernel) ⟨by decide +kernel, by decide +kernel, by decide +kernel⟩ ?_, ?_,
      by decide +kernel, fun _ _ hsource => nomatch hsource⟩
    · rw [hurl', ← Statement.cutEarly?_eq_none]
      decide +kernel
    · rw [hurl']
      decide +kernel
  -- From here on only these facts count, and nothing is computed.
  clear_value a b s
  obtain ⟨call, hcall⟩ := Entry.exists_loadCall (Entry.isCss_of_page hpage) s
  obtain ⟨call', hcall'⟩ := Entry.exists_loadCall (Entry.isCss_of_page hpage') s
  obtain ⟨i, hitem⟩ := exists_ofEntry hcall' none
  obtain ⟨here, hloads, -, -, hhere⟩ := loads_iff_sameScript target hcall hitem
  rw [(hhere ha hb).mpr fun ⟨url, _, hsource, _⟩ => hpage url hsource, hsame] at hloads
  exact ⟨i, hitem, ha, hb, hloads⟩

/-- The item of a page counts as that of another page whose title differs in a space, and the item of a page on a wiki that is no
`.org` host does not count as that of the URL of the page. -/
theorem item_of_entry_misleads :
    (∃ (s : Settings) (a b : Entry) (i : Item), a.target = b.target ∧ ofEntry b none s = .ok i ∧ a.displayName = "User:A/my script.js" ∧
      b.displayName = "User:A/myscript.js" ∧ i.loads a s = .ok true ∧ a.sameScript b s = false) ∧
    ∃ (s : Settings) (a b : Entry) (i : Item), a.target = b.target ∧ ofEntry b none s = .ok i ∧
      i.loads a s = .ok false ∧ a.sameScript b s = true := by
  constructor
  · let s : Settings := { serverName := "en.wikipedia.org" }
    let a := Entry.ofPage "User:A/my script.js" (by decide) none "common" false
    let b := Entry.ofPage "User:A/myscript.js" (by decide) none "common" false
    have hpage : ∀ url, a.source ≠ .address url := Entry.source_ofPage_ne (by decide) _ _ _
    have hpage' : ∀ url, b.source ≠ .address url := Entry.source_ofPage_ne (by decide) _ _ _
    have hurl : a.loaderUrl s.serverName =
        "//en.wikipedia.org/w/index.php?title=User:A/my script.js&action=raw&ctype=text/javascript" := by decide +kernel
    have hurl' : b.loaderUrl s.serverName =
        "//en.wikipedia.org/w/index.php?title=User:A/myscript.js&action=raw&ctype=text/javascript" := by decide +kernel
    have hspaces : a.SameButSpaces b s := by
      refine ⟨?_, by decide +kernel⟩
      rw [hurl, hurl']
      decide +kernel
    have hsame : a.sameScript b s = false := by decide +kernel
    obtain ⟨call, hcall⟩ := Entry.exists_loadCall (Entry.isCss_of_page hpage) s
    obtain ⟨call', hcall'⟩ := Entry.exists_loadCall (Entry.isCss_of_page hpage') s
    obtain ⟨i, hitem⟩ := exists_ofEntry hcall' none
    obtain ⟨here, hloads, hhere⟩ := loads_ofEntry hcall hitem
    rw [hhere.mpr (Or.inr (Or.inl hspaces))] at hloads
    exact ⟨s, a, b, i, rfl, hitem, rfl, rfl, hloads, hsame⟩
  · let url := "https://wiki.example.com/w/index.php?title=User:A/x.js&action=raw&ctype=text/javascript"
    let s : Settings := { serverName := "wiki.example.com" }
    let a := Entry.ofUrl url (by decide) "common" false
    let b := Entry.ofPage "User:A/x.js" (by decide) none "common" false
    have hcss : a.isCss = .ok false := by decide +kernel
    have hurl : b.loaderUrl s.serverName = "//wiki.example.com/w/index.php?title=User:A/x.js&action=raw&ctype=text/javascript" := by
      decide +kernel
    have hpage : ∀ url, b.source ≠ .address url := Entry.source_ofPage_ne (by decide) _ _ _
    have hsource : a.source = .address url := Entry.source_ofUrl (by decide) _ _
    have hscheme : Entry.dropScheme url = Entry.dropScheme (b.loaderUrl s.serverName) := by
      rw [hurl]
      decide +kernel
    have hsame : a.sameScript b s = true := by
      rw [Entry.sameScript_of_address_left hsource hpage, Entry.urlLoads, hscheme, beq_self_eq_true]
    have hspaces : ¬a.SameButSpaces b s := by
      rintro ⟨hall, -⟩
      rw [hurl] at hall
      exact absurd hall (by decide +kernel)
    have hne : b.loaderUrl s.serverName ≠ url := by
      rw [hurl]
      decide +kernel
    have hopen : ¬Statement.ClosesEarly (b.loaderUrl s.serverName).toList := by
      rw [hurl, ← Statement.cutEarly?_eq_none]
      decide +kernel
    have hnamed : Entry.named? (b.loaderUrl s.serverName) = none := by
      rw [hurl]
      decide +kernel
    obtain ⟨call, hcall⟩ := Entry.exists_loadCall hcss s
    obtain ⟨call', hcall'⟩ := Entry.exists_loadCall (Entry.isCss_of_page hpage) s
    obtain ⟨i, hitem⟩ := exists_ofEntry hcall' none
    obtain ⟨here, hloads, hhere⟩ := loads_address_iff hpage hopen hnamed hsource hcall hitem
    have hnot : here = false := by
      rw [← Bool.not_eq_true, hhere]
      exact fun h => h.elim hspaces hne
    exact ⟨s, a, b, i, rfl, hitem, hnot ▸ hloads, hsame⟩

end Item

end UserScripts
