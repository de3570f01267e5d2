import UserScripts.Proofs.Statement.Kept

/-!
# What stands behind a call

The statement of a page ends with a comment that links back to it. The comment is for people: what a line declares is settled by
the slashes before its call and by the call. Main statement: `backlink_is_never_read`.
-/

namespace UserScripts

open UserScripts.Text

namespace Entry

variable {e : Entry}

/-- The statement of an entry without its comment: the call, with the slashes of a disabled entry before it. -/
def bare (e : Entry) (call : String) : String :=
  (if e.disabled then "//" else "") ++ call

/-- The call of an entry depends on what it loads and on the server. -/
theorem loadCall_congr {e' : Entry} {s s' : Settings} (hsource : e'.source = e.source) (hserver : s'.serverName = s.serverName) :
    e'.loadCall s' = e.loadCall s := by
  simp only [loadCall, isCss, loaderUrl, hsource, hserver]

/-- Behind the call of a page anything can be written: the line declares what the call alone declares. -/
theorem ofLine?_bare_append (page : ∀ url, e.source ≠ .address url) {s : Settings} {call : String} (h : e.loadCall s = .ok call)
    (comment target : String) : ofLine? (e.bare call ++ comment) target =
      some (ofAddress (e.readBack s) (e.readBack_ne_empty s) target e.disabled) := by
  refine ofLine?_append_loadCall h e.disabled (fun hspaces => ?_) target
  -- The URL of a page starts with a slash, so it is not made of spaces.
  obtain ⟨rest, hrest⟩ := loaderUrl_slash page s.serverName
  rw [hrest] at hspaces
  exact absurd (hspaces '/' List.mem_cons_self) (by decide)

/-- The comment that links back is never read. The statement of a page is its call, with slashes before it and the comment behind
it, and declares the same entry as without the comment, as it does with any other text in its place. So neither the documentation
link of the page nor the messages of the settings, from which the label of the link is taken, make a difference. -/
theorem backlink_is_never_read (page : ∀ url, e.source ≠ .address url) (s : Settings) (target : String) :
    ∃ call, e.loadCall s = .ok call ∧ e.statement s = .ok (e.bare call ++ e.backlink s) ∧
      (ofLine? (e.bare call) target).isSome = true ∧
      (∀ comment, ofLine? (e.bare call ++ comment) target = ofLine? (e.bare call) target) ∧
      ∀ docLink messages, ∃ text, { e with docLink }.statement { s with messages } = .ok text ∧
        ofLine? text target = ofLine? (e.bare call) target := by
  obtain ⟨call, hcall⟩ := exists_loadCall (isCss_of_page page) s
  have hbare : ofLine? (e.bare call) target = some (ofAddress (e.readBack s) (e.readBack_ne_empty s) target e.disabled) := by
    simpa using ofLine?_bare_append page hcall "" target
  have hcomment : ∀ comment, ofLine? (e.bare call ++ comment) target = ofLine? (e.bare call) target := by
    intro comment
    rw [ofLine?_bare_append page hcall comment target, hbare]
  refine ⟨call, hcall, ?_, by rw [hbare, Option.isSome_some], hcomment, ?_⟩
  · rw [statement, hcall]
    rfl
  · intro docLink messages
    have hcall' : { e with docLink }.loadCall { s with messages } = .ok call := by
      rw [← hcall]
      exact loadCall_congr rfl rfl
    refine ⟨_, ?_, hcomment ({ e with docLink }.backlink { s with messages })⟩
    rw [statement, hcall']
    rfl

/-- A disabled page whose title closes the literal early, with a label and a documentation link that look like the end of a call. -/
theorem backlink_is_never_read_hostile :
    let e := (ofPage "User:A/x'); f('.css" (by decide) none "common" true).withDocLink "', 'text/css');"
    let s : Settings := { serverName := "en.wikipedia.org", messages := { current := [("label-backlink", "'); mw.loader.load('y',")] } }
    let call := "mw.loader.load('//en.wikipedia.org/w/index.php?title=User:A/x\\'); f(\\'.css&action=raw&ctype=text/css', 'text/css');"
    (∀ url, e.source ≠ .address url) ∧ e.statement s = .ok (e.bare call ++ " // '); mw.loader.load('y', [[', 'text/css');]]") ∧
      ofLine? (e.bare call ++ " // '); mw.loader.load('y', [[', 'text/css');]]") "common" = ofLine? (e.bare call) "common" := by
  intro e s call
  have page : ∀ url, e.source ≠ .address url := by
    intro url h
    exact absurd h (by simp [e, source, withDocLink, ofPage, given])
  have hcall : e.loadCall s = .ok call := by decide +kernel
  have hlink : e.backlink s = " // '); mw.loader.load('y', [[', 'text/css');]]" := by decide +kernel
  clear_value call
  obtain ⟨call', hcall', hstatement, -, hcomment, -⟩ := backlink_is_never_read page s "common"
  obtain rfl := Except.ok.inj (hcall.symm.trans hcall')
  rw [hlink] at hstatement
  exact ⟨page, hstatement, hcomment _⟩

end Entry

end UserScripts
