import UserScripts.Entry.Printer
import UserScripts.Proofs.Statement.Reader
import UserScripts.Proofs.Text.Lines

/-!
# The shape of statements

What a written statement is made of: the slashes that disable it, the load call with the URL as a literal, and the comment that
links back. Main statement: `statement_reads_as_one_call`, no field of an entry can break out of the literal or the line.
-/

namespace UserScripts

open UserScripts.Text

/-- What a load call has between its literal and its closing parenthesis. -/
def mediaArgument (css : Bool) : List Char :=
  if css then ", 'text/css'".toList else []

/-- How an engine reads the line of a statement. The line has no line break. After the slashes, which make all of it a comment,
stands one load call, and after the call nothing or a comment. The literal of the call ends where `body` ends, whatever follows,
and stands for the URL. -/
def ReadsAsOneCall (disabled : Bool) (url : String) (line : List Char) : Prop :=
  Unbroken line ∧
    ∃ body media comment : List Char,
      line = (if disabled then "//" else "").toList ++ "mw.loader.load('".toList ++ body ++ '\'' :: media ++ ");".toList ++
        comment ∧
      (media = [] ∨ media = ", 'text/css'".toList) ∧
      (comment = [] ∨ " // ".toList <+: comment) ∧
      ∀ rest, ScriptLiteral.read (body ++ '\'' :: rest) = some (ScriptLiteral.utf16 url.toList, rest)

namespace Entry

/-- A load call is the URL as a literal, with the media type of a style sheet. -/
theorem loadCall_eq {e : Entry} {s : Settings} {call : String} (h : e.loadCall s = .ok call) :
    ∃ css, e.isCss = .ok css ∧ call.toList = "mw.loader.load('".toList ++ toLiteral (e.loaderUrl s.serverName).toList ++
      '\'' :: mediaArgument css ++ ");".toList := by
  unfold loadCall at h
  cases hc : e.isCss with
  | error m => rw [hc] at h; nomatch h
  | ok css =>
    rw [hc] at h
    refine ⟨css, rfl, ?_⟩
    have hcall : "mw.loader.load('" ++ escapeLiteral (e.loaderUrl s.serverName) ++ "'" ++ (if css then ", 'text/css'" else "") ++
        ");" = call := Except.ok.inj h
    rw [← hcall]
    cases css <;> simp [mediaArgument, escapeLiteral]

/-- An entry whose media type is known has a call. -/
theorem exists_loadCall {e : Entry} {css : Bool} (h : e.isCss = .ok css) (s : Settings) : ∃ call, e.loadCall s = .ok call := by
  rw [loadCall, h]
  exact ⟨_, rfl⟩

/-- A statement is a load call with the slashes of a disabled entry before it and the link comment after it. -/
theorem statement_eq {e : Entry} {s : Settings} {text : String} (h : e.statement s = .ok text) :
    ∃ call, e.loadCall s = .ok call ∧ text = (if e.disabled then "//" else "") ++ call ++ e.backlink s := by
  unfold statement at h
  cases hc : e.loadCall s with
  | error m => rw [hc] at h; nomatch h
  | ok call =>
    rw [hc] at h
    exact ⟨call, rfl, (Except.ok.inj h).symm⟩

/-- The link comment of a page holds the label and, as comment contents, a link title. -/
theorem backlink_cases (e : Entry) (s : Settings) :
    e.backlink s = "" ∨
      ∃ title, e.backlink s = " // " ++ e.linkLabel s ++ " [[" ++ escapeComment title ++ "]]" := by
  unfold backlink
  cases e.source with
  | address url => exact Or.inl rfl
  | own page => exact Or.inr ⟨e.linkTitle s, rfl⟩
  | «foreign» wiki page => exact Or.inr ⟨e.linkTitle s, rfl⟩

/-- The link comment has no line break unless its label has one. -/
theorem unbroken_backlink {e : Entry} {s : Settings} (label : Unbroken (e.linkLabel s).toList) :
    Unbroken (e.backlink s).toList := by
  rcases e.backlink_cases s with h | ⟨title, h⟩
  · rw [h]; exact unbroken_nil
  · rw [h]
    simp only [String.toList_append, unbroken_append]
    exact ⟨⟨⟨⟨by decide, label⟩, by decide⟩, by simpa [escapeComment] using unbroken_toComment title.toList⟩, by decide⟩

/-- A load call has no line break. -/
theorem unbroken_loadCall {e : Entry} {s : Settings} {call : String} (h : e.loadCall s = .ok call) :
    Unbroken call.toList := by
  obtain ⟨css, -, hcall⟩ := loadCall_eq h
  rw [hcall]
  simp only [unbroken_append, unbroken_cons]
  exact ⟨⟨⟨by decide, unbroken_toLiteral _⟩, by decide, by cases css <;> decide⟩, by decide⟩

/-- A statement has no line break unless the label of its link comment has one. -/
theorem unbroken_statement {e : Entry} {s : Settings} {text : String} (label : Unbroken (e.linkLabel s).toList)
    (h : e.statement s = .ok text) : Unbroken text.toList := by
  obtain ⟨call, hcall, rfl⟩ := statement_eq h
  simp only [String.toList_append, unbroken_append]
  exact ⟨⟨by split <;> decide, unbroken_loadCall hcall⟩, unbroken_backlink label⟩

/-- The label of a statement depends on its target only. -/
theorem linkLabel_of_target {e e' : Entry} (h : e'.target = e.target) (s : Settings) : e'.linkLabel s = e.linkLabel s := by
  rw [linkLabel, h, linkLabel]

/-- A statement is one line unless its label is more than one. -/
theorem isLine_statement {e e' : Entry} {s : Settings} {text : String} (label : Unbroken (e.linkLabel s).toList)
    (ht : e'.target = e.target) (h : e'.statement s = .ok text) : IsLine text := by
  have hunbroken := unbroken_statement (by rwa [linkLabel_of_target ht s]) h
  intro hmem
  exact absurd (hunbroken '\n' hmem) (by decide)

/-- A statement is not blank. -/
theorem isBlankLine_statement {e : Entry} {s : Settings} {text : String} (h : e.statement s = .ok text) :
    isBlankLine text = false := by
  obtain ⟨call, hcall, rfl⟩ := statement_eq h
  obtain ⟨css, -, hlist⟩ := loadCall_eq hcall
  have hmem : 'm' ∈ ((if e.disabled then "//" else "") ++ call ++ e.backlink s).toList := by
    simp only [String.toList_append, List.mem_append, hlist]
    exact Or.inl (Or.inr (Or.inl (Or.inl (Or.inl (by decide)))))
  rw [isBlankLine, List.all_eq_false]
  exact ⟨'m', hmem, by decide⟩

/-- No field of an entry can break out of its statement, whatever its page, its wiki, its URL, its target and its documentation
link are: an engine reads the statement as one load call of the URL of the entry, on one line. -/
theorem statement_reads_as_one_call (e : Entry) (s : Settings) (text : String) (label : Unbroken (e.linkLabel s).toList)
    (h : e.statement s = .ok text) : ReadsAsOneCall e.disabled (e.loaderUrl s.serverName) text.toList := by
  refine ⟨unbroken_statement label h, ?_⟩
  obtain ⟨call, hcall, rfl⟩ := statement_eq h
  obtain ⟨css, -, hlist⟩ := loadCall_eq hcall
  refine ⟨toLiteral (e.loaderUrl s.serverName).toList, mediaArgument css, (e.backlink s).toList, ?_, ?_, ?_, ?_⟩
  · simp [hlist]
  · cases css
    · exact Or.inl rfl
    · exact Or.inr rfl
  · rcases e.backlink_cases s with hb | ⟨title, hb⟩
    · left; rw [hb]; rfl
    · right
      rw [hb]
      exact ⟨(e.linkLabel s ++ " [[" ++ escapeComment title ++ "]]").toList, by simp⟩
  · exact ScriptLiteral.read_toLiteral _

/-- A disabled page whose title tries to end the literal and the line, with a documentation link that tries to end the comment. -/
theorem statement_reads_as_one_call_hostile :
    let e := (ofPage "User:X/\\\n'); f('.css" (by decide) none "common" true).withDocLink "y]]\u2028f();*/"
    let s : Settings := { serverName := "en.wikipedia.org" }
    Unbroken (e.linkLabel s).toList ∧ ReadsAsOneCall true (e.loaderUrl s.serverName)
      ("//mw.loader.load('//en.wikipedia.org/w/index.php?title=User:X/\\\\\\n\\'); f(\\'.css&action=raw&ctype=text/css', 'text/css');" ++
        " // label-backlink [[y]]\\u2028f();*\\/]]").toList := by
  intro e s
  have label : Unbroken (e.linkLabel s).toList := by decide +kernel
  exact ⟨label, statement_reads_as_one_call e s _ label (by decide +kernel)⟩

end Entry

end UserScripts
