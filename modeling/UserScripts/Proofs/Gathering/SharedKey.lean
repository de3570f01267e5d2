import UserScripts.Proofs.Gathering.Section
import UserScripts.Proofs.Statement.Title
import UserScripts.Proofs.Text.Sigma

/-!
# The keys of one script

The key of an operation holds the target and the name of the script, and entries that load one script can have different names. Names of
pages that differ in case only give one key, with one exception: a capital sigma that ends a word takes another form than one that stands
alone, so it matters that the target stands before the name. A page and the bare URL that leads to it never have one key. Main definition:
`Entry.NamedAlike`. Main statement: `exclusive_of_sameScript`.
-/

namespace UserScripts

open UserScripts.Text

namespace Entry

/-- Two entries are named in one way: both by a page or both by a URL, and, if the target ends with case, both or neither by a name that
begins with a sigma at the end of a word. -/
structure NamedAlike (a b : Entry) : Prop where
  kind : (∃ url, a.source = .address url) ↔ ∃ url, b.source = .address url
  sigma : meetsCased a.target.toList.reverse = true → startsFinal a.displayName.toList = startsFinal b.displayName.toList

/-- An entry that is named by a URL is displayed as this URL. -/
theorem displayName_of_address {e : Entry} {url : String} (h : e.source = .address url) : e.displayName = url := by
  rw [displayName, h]

/-- A page and its URL with a scheme are one script. -/
theorem urlLoads_https {e : Entry} (h : ∀ url, e.source ≠ .address url) (s : Settings) :
    urlLoads ("https:" ++ e.loaderUrl s.serverName) e s = true := by
  obtain ⟨rest, hrest⟩ := loaderUrl_slash h s.serverName
  have hplain : dropScheme (e.loaderUrl s.serverName) = e.loaderUrl s.serverName :=
    dropScheme_of_head (by rw [hrest]; rfl) (by decide)
  have hscheme : ∀ url : List Char, afterFold? "https:".toList ("https:".toList ++ url) = some url := fun url => rfl
  have hdrop : dropScheme ("https:" ++ e.loaderUrl s.serverName) = e.loaderUrl s.serverName := by
    rw [dropScheme, String.toList_append, hscheme]
    exact String.ofList_toList
  rw [urlLoads, hdrop, hplain, beq_self_eq_true]

/-- The sign between the name and the value of a parameter. -/
def isEqualsSign (c : Char) : Bool :=
  c == '='

/-- An equals sign is a mark. -/
theorem isMark_of_isEqualsSign (c : Char) (h : isEqualsSign c = true) : isMark c = true := by
  rw [isEqualsSign, beq_iff_eq] at h
  subst h
  decide

/-- The URL of a page has more equals signs than its title. -/
theorem countP_displayName_lt {e : Entry} (h : ∀ url, e.source ≠ .address url) (s : Settings) :
    e.displayName.toList.countP isEqualsSign < (e.loaderUrl s.serverName).toList.countP isEqualsSign := by
  have htitle : "/w/index.php?title=".toList.countP isEqualsSign = 1 := by decide
  rw [loaderUrl_eq h, String.toList_ofList, countP_servedMediaWiki isMark_of_isEqualsSign (by decide), pageUrl_toList]
  simp only [List.countP_append, htitle]
  omega

end Entry

namespace Manager

open Entry

/-- The key of a script has the equals signs of the target and of the name. -/
theorem countP_keyOf_lockKey (target name : String) : (Lock.keyOf (lockKey target name)).toList.countP isEqualsSign =
    target.toList.countP isEqualsSign + name.toList.countP isEqualsSign := by
  have hblank : ∀ {b : List Char}, (∀ c ∈ b, isBlank c = true) → b.countP isEqualsSign = 0 := by
    intro b hb
    rw [List.countP_eq_zero]
    intro c hc hequals
    rw [isEqualsSign, beq_iff_eq] at hequals
    subst hequals
    exact absurd (hb _ hc) (by decide)
  have hname : (dropEndBlank name.toList).countP isEqualsSign = name.toList.countP isEqualsSign := by
    have happend : dropEndBlank name.toList ++ name.toList.rtakeWhile isBlank = name.toList := List.rdropWhile_append_rtakeWhile
    conv_rhs => rw [← happend, List.countP_append, hblank fun c hc => List.mem_rtakeWhile_imp hc, Nat.add_zero]
  have htarget : (dropBlank target.toList).countP isEqualsSign = target.toList.countP isEqualsSign := by
    obtain ⟨b, happend, hb⟩ := exists_blank_append_dropBlank target.toList
    conv_rhs => rw [happend, List.countP_append, hblank hb, Nat.zero_add]
  rw [Lock.keyOf, countP_lower isMark_of_isEqualsSign, lockKey, toList_trim_append, List.countP_append, List.countP_append, hname, htarget]
  rfl

/-- A page and the bare URL that leads to it have different keys. -/
theorem keyOf_ne_of_urlLoads {e : Entry} {s : Settings} {url : String} (he : ∀ url, e.source ≠ .address url)
    (h : urlLoads url e s = true) (target : String) :
    Lock.keyOf (lockKey target url) ≠ Lock.keyOf (lockKey target e.displayName) := by
  intro hkeys
  rw [urlLoads, beq_iff_eq] at h
  have hurl := congrArg (fun t => t.toList.countP isEqualsSign) h
  have hkey := congrArg (fun t => t.toList.countP isEqualsSign) hkeys
  simp only [countP_lower_dropScheme isMark_of_isEqualsSign (by decide)] at hurl
  simp only [countP_keyOf_lockKey] at hkey
  have hlt := countP_displayName_lt he s
  omega

/-- Entries with one target that load one script have one key exactly if they are named in one way. -/
theorem keyOf_sourceKey_eq_iff {a b : Entry} {s : Settings} (htarget : a.target = b.target) (hsame : a.sameScript b s = true) :
    Lock.keyOf (sourceKey a) = Lock.keyOf (sourceKey b) ↔ a.NamedAlike b := by
  rw [sourceKey, sourceKey, ← htarget]
  by_cases ha : ∃ url, a.source = .address url <;> by_cases hb : ∃ url, b.source = .address url
  · obtain ⟨url, hurl⟩ := ha
    obtain ⟨url', hurl'⟩ := hb
    rw [sameScript_of_addresses hurl hurl', beq_iff_eq] at hsame
    have hname : a.displayName = b.displayName := by rw [displayName_of_address hurl, displayName_of_address hurl', hsame]
    rw [hname]
    exact iff_of_true rfl ⟨iff_of_true ⟨url, hurl⟩ ⟨url', hurl'⟩, fun _ => by rw [hname]⟩
  · obtain ⟨url, hurl⟩ := ha
    have hpage : ∀ url, b.source ≠ .address url := not_exists.mp hb
    rw [sameScript_of_address_left hurl hpage] at hsame
    rw [displayName_of_address hurl]
    exact iff_of_false (keyOf_ne_of_urlLoads hpage hsame a.target) fun halike => hb (halike.kind.mp ⟨url, hurl⟩)
  · obtain ⟨url, hurl⟩ := hb
    have hpage : ∀ url, a.source ≠ .address url := not_exists.mp ha
    rw [sameScript_of_address_right hpage hurl] at hsame
    rw [displayName_of_address hurl]
    exact iff_of_false (keyOf_ne_of_urlLoads hpage hsame a.target).symm fun halike => ha (halike.kind.mpr ⟨url, hurl⟩)
  · rw [sameScript_of_pages (not_exists.mp ha) (not_exists.mp hb)] at hsame
    rw [Lock.keyOf, Lock.keyOf, lockKey, lockKey, lower_trim_append_iff hsame.1]
    exact ⟨fun hsigma => ⟨iff_of_false ha hb, hsigma⟩, NamedAlike.sigma⟩

example : lower "Σ/x.js" = lower "σ/x.js" ∧ Lock.keyOf (lockKey "common" "Σ/x.js") ≠ Lock.keyOf (lockKey "common" "σ/x.js") := by
  decide +kernel

end Manager

namespace Gathering

open Manager

/-- Operations on one script of one target have one key exactly if the entries are named in one way. Then nothing that the one does comes
between two things that the other does, such as its reading and its saving, whatever else goes on and in whatever order. -/
theorem exclusive_of_sameScript {a b : Entry} {s : Settings} (htarget : a.target = b.target) (hsame : a.sameScript b s = true) :
    (Lock.keyOf (sourceKey a) = Lock.keyOf (sourceKey b) ↔ a.NamedAlike b) ∧
      (a.NamedAlike b → ∀ (m : Manager) (session : Session) (requests : List Request) (i j : Nat), i ≠ j →
        requests[i]?.bind Request.key? = some (sourceKey a) → requests[j]?.bind Request.key? = some (sourceKey b) →
        ∀ (env : Surroundings) (order : List Nat),
          ¬[i, j, i].Sublist (((ofRequests m session requests).deeds env order).map Prod.fst)) := by
  have hkeys := keyOf_sourceKey_eq_iff htarget hsame
  refine ⟨hkeys, fun halike m session requests i j hne hi hj env order => ?_⟩
  exact not_interleaved m session hne hi hj (hkeys.mpr halike) env order

/-- A page is added and, under another spelling, removed. -/
theorem exclusive_of_two_spellings :
    ∃ a b : Entry, a.displayName = "User:A/X.js" ∧ b.displayName = "User:a/x.js" ∧ a.target = b.target ∧
      a.sameScript b {} = true ∧ a.NamedAlike b ∧ Lock.keyOf (sourceKey a) = Lock.keyOf (sourceKey b) ∧
      ∀ (env : Surroundings) (order : List Nat), ¬[0, 1, 0].Sublist
        (((ofRequests { settings := {} } {} [.operate "common" (.install a), .operate "common" (.uninstall b)]).deeds env order).map Prod.fst) := by
  let a := Entry.ofPage "User:A/X.js" (by decide) none "common" false
  let b := Entry.ofPage "User:a/x.js" (by decide) none "common" false
  have hsame : a.sameScript b {} = true := by decide +kernel
  have halike : a.NamedAlike b := by
    refine ⟨iff_of_false ?_ ?_, fun _ => by decide +kernel⟩
    · rintro ⟨url, h⟩
      nomatch h
    · rintro ⟨url, h⟩
      nomatch h
  obtain ⟨hkeys, hexclusive⟩ := exclusive_of_sameScript (a := a) (b := b) rfl hsame
  exact ⟨a, b, rfl, rfl, rfl, hsame, halike, hkeys.mpr halike, hexclusive halike { settings := {} } {} _ 0 1 (by decide) rfl rfl⟩

/-- A page and the bare URL that leads to it are one script, and still both operations read the target before either of them saves it. -/
theorem page_and_address_interleave :
    let m : Manager := { settings := { serverName := "wiki.example.com", userName := "Alice" } }
    let page := Entry.ofPage "User:A/x.js" (by decide) none "common" false
    let address := Entry.ofUrl "https://wiki.example.com/w/index.php?title=User:A/x.js&action=raw&ctype=text/javascript" (by decide)
      "common" false
    page.target = address.target ∧ page.sameScript address m.settings = true ∧
      Lock.keyOf (sourceKey page) ≠ Lock.keyOf (sourceKey address) ∧
      ∃ order, (((ofRequests m {} [.operate "common" (.install page), .operate "common" (.install address)]).deeds {} order).filterMap
        fun deed => match deed.2 with
          | .read _ _ => some (deed.1, "read")
          | .save _ _ => some (deed.1, "save")
          | _ => none) = [(0, "read"), (1, "read"), (0, "save"), (1, "save")] := by
  intro m page address
  have hpage : ∀ url, page.source ≠ .address url := fun url h => nomatch h
  have haddress : address.source = .address ("https:" ++ page.loaderUrl m.settings.serverName) := by decide +kernel
  have hsame : page.sameScript address m.settings = true := by
    rw [Entry.sameScript_of_address_right hpage haddress]
    exact Entry.urlLoads_https hpage m.settings
  have halike : ¬page.NamedAlike address := fun halike => by
    obtain ⟨url, h⟩ := halike.kind.mpr ⟨_, haddress⟩
    exact hpage url h
  refine ⟨rfl, hsame, mt (keyOf_sourceKey_eq_iff (a := page) (b := address) rfl hsame).mp halike, [0, 0, 0, 1, 1, 1, 0, 0, 1, 1], ?_⟩
  decide +kernel

end Gathering

end UserScripts
