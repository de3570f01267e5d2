import UserScripts.Proofs.Text.Scan
import UserScripts.Proofs.Value.Json
import UserScripts.Wrapper.Item

/-!
# Facts about the lines of an item

Every line of an item says one thing only: the key line holds no name and no call, the name line no key and no call, the line of
the call no key and no name. Main statements: `fieldToken?_fieldLine`, `fieldToken?_fieldLine_other`, `fieldToken?_eq_none` and
`extractCall_eq_empty`.
-/

namespace UserScripts.Wrapper

open UserScripts.Text UserScripts.Json

/-! ## Values of fields -/

/-- After the value of a field there are only blanks and commas. -/
theorem blank_or_comma_of_fieldEnds {s : List Char} (h : fieldEnds s = true) {c : Char} (hc : c ∈ s) :
    isBlank c = true ∨ c = ',' := by
  obtain ⟨b, hb, hblank⟩ := exists_blank_append_dropBlank s
  rw [hb, List.mem_append] at hc
  rcases hc with hc | hc
  · exact Or.inl (hblank c hc)
  · unfold fieldEnds at h
    split at h
    · next hd => rw [hd] at hc; nomatch hc
    · next rest hd =>
      rw [hd, List.mem_cons] at hc
      rcases hc with rfl | hc
      · exact Or.inr rfl
      · exact Or.inl (dropBlank_eq_nil.mp (List.isEmpty_iff.mp h) c hc)
    · nomatch h

/-- A field does not end before a character that is neither blank nor a comma. -/
theorem fieldEnds_eq_false {s : List Char} {c : Char} (hc : c ∈ s) (hb : isBlank c = false) (hne : c ≠ ',') :
    fieldEnds s = false := by
  by_contra h
  rw [Bool.not_eq_false] at h
  rcases blank_or_comma_of_fieldEnds h hc with hc | hc
  · rw [hb] at hc; nomatch hc
  · exact hne hc

/-- A text in which no quote ends a field has no value. -/
theorem quotedValue_eq_none {s : List Char} (h : ∀ a b, s = a ++ '"' :: b → fieldEnds b = false) (escaped : Bool) :
    quotedValue escaped s = none := by
  induction s generalizing escaped with
  | nil => rfl
  | cons c s ih =>
    have hrest : ∀ e, quotedValue e s = none := ih fun a b hab => h (c :: a) b (by rw [hab, List.cons_append])
    rw [quotedValue]
    split
    · next hc =>
      rw [h [] s (by rw [hc]; rfl)]
      cases escaped <;> simp [hrest]
    · rw [hrest]; rfl

/-- A value ends at the quote after its notation, since every quote before that one is escaped and followed by another. -/
theorem quotedValue_append {w tail : List Char} {escaped : Bool}
    (hw : ∀ a b, w = a ++ '"' :: b → (a = [] ∧ escaped = true) ∨ ∃ a', a = a' ++ ['\\']) (htail : fieldEnds tail = true) :
    quotedValue escaped (w ++ '"' :: tail) = some (w ++ ['"']) := by
  induction w generalizing escaped with
  | nil => rw [List.nil_append, quotedValue, if_pos rfl, if_pos htail]; rfl
  | cons c w ih =>
    have hrest : quotedValue (c = '\\') (w ++ '"' :: tail) = some (w ++ ['"']) := by
      refine ih ?_
      intro a b hab
      rcases hw (c :: a) b (by rw [hab, List.cons_append]) with ⟨ha, -⟩ | ⟨a', ha⟩
      · nomatch ha
      · cases a' with
        | nil =>
          rw [List.nil_append, List.cons.injEq] at ha
          exact Or.inl ⟨ha.2, by simp [ha.1]⟩
        | cons x a' =>
          rw [List.cons_append, List.cons.injEq] at ha
          exact Or.inr ⟨a', ha.2⟩
    rw [List.cons_append, quotedValue]
    split
    · next hc =>
      have hnot : fieldEnds (w ++ '"' :: tail) = false := fieldEnds_eq_false (c := '"') (by simp) (by decide) (by decide)
      have hesc : escaped = true := by
        rcases hw [] w (by rw [hc]; rfl) with ⟨-, he⟩ | ⟨a', ha⟩
        · exact he
        · simp at ha
      rw [hc] at hrest ⊢
      have hrest : quotedValue false (w ++ '"' :: tail) = some (w ++ ['"']) := hrest
      rw [hnot, hesc, hrest]
      rfl
    · rw [hrest]
      rfl

/-! ## Lines with a field -/

/-- The line of a field of an item. -/
def fieldLine (name text : String) : String :=
  "\t\t\t" ++ name ++ ": " ++ quote text ++ ","

/-- The line of a field, character by character. -/
theorem fieldLine_toList (name text : String) :
    (fieldLine name text).toList =
      "\t\t\t".toList ++ (name ++ ":").toList ++ ' ' :: '"' :: (quotedBody text.toList ++ ['"', ',']) := by
  simp [fieldLine, quote_toList]

/-- A field line holds the notation of its text. -/
theorem fieldToken?_fieldLine {name : String} (h : '\t' ∉ name.toList ∧ name ≠ "") (text : String) :
    fieldToken? name (fieldLine name text) = some (quote text).toList := by
  have hhead : ∀ s, after? (name ++ ":").toList ('\t' :: s) = none := by
    intro s
    obtain ⟨w, word, hw⟩ := List.exists_cons_of_ne_nil (show name.toList ≠ [] by simpa using h.2)
    rw [String.toList_append, hw, List.cons_append, after?_cons_of_ne]
    rintro rfl
    exact h.1 (by rw [hw]; exact List.mem_cons_self)
  have hbody : quotedValue false (quotedBody text.toList ++ ['"', ',']) = some (quotedBody text.toList ++ ['"']) :=
    quotedValue_append (fun a b hab => Or.inr (guarded_quotedBody text.toList a b hab)) (by decide)
  rw [fieldToken?, fieldLine_toList, show "\t\t\t".toList = ['\t', '\t', '\t'] by decide]
  simp only [List.cons_append, List.nil_append]
  rw [firstPlace_cons_of_none (by rw [hhead]), firstPlace_cons_of_none (by rw [hhead]), firstPlace_cons_of_none (by rw [hhead])]
  refine firstPlace_of_some ?_
  simp only [after?_append, dropBlank_cons_of_blank (show isBlank ' ' = true by decide),
    dropBlank_cons_of_not_blank (show isBlank '"' = false by decide), hbody, Option.map_some, quote_toList]

/-- The value of a field starts with a quote that follows the name, a colon and blanks. -/
theorem fieldToken?_eq_none {name line : String}
    (h : ∀ p b body, line.toList = p ++ (name ++ ":").toList ++ b ++ '"' :: body → (∀ c ∈ b, isBlank c = true) →
      quotedValue false body = none) : fieldToken? name line = none := by
  refine firstPlace_eq_none ?_
  intro p t hp
  cases ht : after? (name ++ ":").toList t with
  | none => rfl
  | some rest =>
    rw [after?_eq_some] at ht
    obtain ⟨b, hb, hblank⟩ := exists_blank_append_dropBlank rest
    simp only
    split
    · next body hd =>
      rw [hd] at hb
      rw [h p b body (by rw [hp, ht, hb]; simp) hblank]
      rfl
    · rfl

/-- A colon and blanks do not end with a backslash. -/
theorem not_backslash_after_colon {u b a : List Char} (hb : ∀ c ∈ b, isBlank c = true) : u ++ ':' :: b ≠ a ++ ['\\'] := by
  intro h
  cases b using List.reverseRecOn with
  | nil => exact absurd (List.append_inj' h rfl).2 (by decide)
  | append_singleton b x =>
    rw [← List.cons_append, ← List.append_assoc] at h
    have hx : x = '\\' := by simpa using (List.append_inj' h rfl).2
    exact absurd (hb x (by simp)) (by rw [hx]; decide)

/-- A quote after the first one of a field line is the last one, or there is a backslash before it. -/
theorem last_of_quote_in_fieldLine {w u body : List Char} (h : quotedBody w ++ ['"', ','] = u ++ '"' :: body) :
    body = [','] ∨ ∃ a, u = a ++ ['\\'] := by
  rcases List.append_eq_append_iff.mp h with ⟨v, -, hend⟩ | ⟨v, hv, hend⟩
  · cases v with
    | nil => exact Or.inl (List.cons.inj hend).2.symm
    | cons y v =>
      have hcomma := (List.cons.inj hend).2
      cases v with
      | nil => simp at hcomma
      | cons z v => simp at hcomma
  · cases v with
    | nil => exact Or.inl (List.cons.inj hend).2
    | cons y v =>
      obtain ⟨rfl, -⟩ := List.cons.inj hend
      exact Or.inr (guarded_quotedBody w u v hv)

/-- A field line holds no field whose name has a letter that is not in the start of the line. -/
theorem fieldToken?_fieldLine_other {name other : String} {c : Char} (hc : c ∈ (other ++ ":").toList)
    (hn : c ∉ "\t\t\t".toList ++ (name ++ ":").toList ++ [' ']) (text : String) :
    fieldToken? other (fieldLine name text) = none := by
  refine fieldToken?_eq_none ?_
  intro p b body hline hblank
  -- The quote before `body` is not the first one of the line, so it is the last: any quote between has a backslash before it.
  have hcmp : (p ++ (other ++ ":").toList ++ b) ++ '"' :: body =
      ("\t\t\t".toList ++ (name ++ ":").toList ++ [' ']) ++ '"' :: (quotedBody text.toList ++ ['"', ',']) := by
    rw [← hline, fieldLine_toList]
    simp
  have hmem : c ∈ p ++ (other ++ ":").toList ++ b := by
    simp only [List.mem_append]
    exact Or.inl (Or.inr hc)
  have hlast : ∀ a', p ++ (other ++ ":").toList ++ b ≠ a' ++ ['\\'] := by
    intro a' ha
    refine not_backslash_after_colon (u := p ++ other.toList) (a := a') hblank ?_
    rw [← ha]
    simp
  rcases List.append_eq_append_iff.mp hcmp with ⟨u, hu, -⟩ | ⟨u, hu, hq⟩
  · exact absurd (by rw [hu]; exact List.mem_append_left _ hmem) hn
  · cases u with
    | nil =>
      rw [List.append_nil] at hu
      exact absurd (hu ▸ hmem) hn
    | cons x u =>
      rw [List.cons_append, List.cons.injEq] at hq
      obtain ⟨-, hq⟩ := hq
      rcases last_of_quote_in_fieldLine hq with rfl | ⟨a', ha⟩
      · decide
      · exact absurd (by rw [hu, ha]; simp) (hlast ("\t\t\t".toList ++ (name ++ ":").toList ++ [' '] ++ x :: a'))

/-- A line that ends with something other than a quote or a comma has no field. -/
theorem fieldToken?_of_getLast {name line : String} {c : Char} (hc : line.toList.getLast? = some c)
    (hb : isBlank c = false) (hq : c ≠ '"') (hcomma : c ≠ ',') : fieldToken? name line = none := by
  refine fieldToken?_eq_none ?_
  intro p b body hline _
  refine quotedValue_eq_none ?_ _
  intro a d hbody
  have hlast : ('"' :: d).getLast? = some c := by
    rw [hline, hbody] at hc
    have hcons : (p ++ (name ++ ":").toList ++ b ++ '"' :: (a ++ '"' :: d)).getLast? = ('"' :: d).getLast? := by
      rw [← List.cons_append, ← List.append_assoc, List.getLast?_append_of_ne_nil _ (by simp)]
    rwa [hcons] at hc
  cases d with
  | nil => exact absurd (Option.some.inj hlast).symm hq
  | cons y d =>
    have hmem : c ∈ y :: d := by
      rw [List.getLast?_cons_cons] at hlast
      exact List.mem_of_getLast? hlast
    exact fieldEnds_eq_false hmem hb hcomma

/-! ## Lines with a call -/

/-- A call ends with a semicolon, after which there are only blanks. -/
theorem callEnd?_eq_none {s : List Char} {c : Char} (hc : s.getLast? = some c) (hb : isBlank c = false) (hne : c ≠ ';') :
    callEnd? s = none := by
  induction s with
  | nil => nomatch hc
  | cons d s ih =>
    have hrest : callEnd? s = none := by
      cases s with
      | nil => rfl
      | cons x s => exact ih (by rwa [List.getLast?_cons_cons] at hc)
    rw [callEnd?]
    split
    · split
      · next rest hd =>
        have hmem : (dropBlank rest).isEmpty = false := by
          rw [← Bool.not_eq_true, List.isEmpty_iff]
          intro h0
          have hlast : (d :: s).getLast? = (';' :: rest).getLast? := by
            obtain ⟨b, hs, -⟩ := exists_blank_append_dropBlank s
            rw [hd] at hs
            rw [hs, ← List.cons_append, List.getLast?_append_of_ne_nil _ (by simp)]
          rw [hlast] at hc
          cases rest with
          | nil => exact hne (Option.some.inj hc).symm
          | cons y rest =>
            rw [List.getLast?_cons_cons] at hc
            have := dropBlank_eq_nil.mp h0 c (List.mem_of_getLast? hc)
            rw [hb] at this
            nomatch this
        rw [hmem, hrest]
        rfl
      · rw [hrest]; rfl
    · split
      · rfl
      · rw [hrest]; rfl

/-- What follows a list of tokens is an end of the text, so it ends as the text does. -/
theorem tokens?_suffix {tokens : List String} {s rest : List Char} (h : tokens? tokens s = some rest) : rest <:+ s := by
  induction tokens generalizing s with
  | nil => exact Option.some.inj h ▸ List.suffix_refl _
  | cons token more ih =>
    rw [tokens?, Option.bind_eq_some_iff] at h
    obtain ⟨r, hr, h⟩ := h
    rw [after?_eq_some] at hr
    obtain ⟨b, hb, -⟩ := exists_blank_append_dropBlank s
    exact (ih h).trans ⟨b ++ token.toList, by rw [hb, hr]; simp⟩

/-- A line that ends with something other than a semicolon has no call. -/
theorem extractCall_eq_empty {line : String} {c : Char} (hc : line.toList.getLast? = some c) (hb : isBlank c = false)
    (hne : c ≠ ';') : extractCall line = "" := by
  have hnone : callOf? line = none := by
    rw [callOf?, Option.map_eq_none_iff]
    refine firstPlace_eq_none ?_
    intro p t hp
    cases hw : after? "mw".toList t with
    | none => rfl
    | some rest =>
      cases hr : tokens? callTokens rest with
      | none => simp [hr]
      | some tail =>
        have htail : callEnd? tail = none := by
          by_cases h0 : tail = []
          · rw [h0]; rfl
          · refine callEnd?_eq_none (c := c) ?_ hb hne
            obtain ⟨u, hu⟩ := tokens?_suffix hr
            rw [hp, after?_eq_some.mp hw, ← hu, ← List.append_assoc, ← List.append_assoc,
              List.getLast?_append_of_ne_nil _ h0] at hc
            exact hc
        simp [hr, htail]
  rw [extractCall, hnone]
  rfl

/-- The text of a call ends with its semicolon, and only blanks follow it. -/
theorem callEnd?_eq_some {s tail : List Char} (h : callEnd? s = some tail) :
    ∃ b, s = tail ++ b ∧ (∀ c ∈ b, isBlank c = true) ∧ tail.getLast? = some ';' := by
  induction s generalizing tail with
  | nil => nomatch h
  | cons c s ih =>
    have hstep : ∀ {t}, (callEnd? s).map (c :: ·) = some t →
        ∃ b, c :: s = t ++ b ∧ (∀ c ∈ b, isBlank c = true) ∧ t.getLast? = some ';' := by
      intro t ht
      obtain ⟨u, hu, rfl⟩ := Option.map_eq_some_iff.mp ht
      obtain ⟨b, hs, hb, hl⟩ := ih hu
      refine ⟨b, by rw [hs, List.cons_append], hb, ?_⟩
      cases u with
      | nil => nomatch hl
      | cons x u => rwa [List.getLast?_cons_cons]
    rw [callEnd?] at h
    split at h
    · next hc =>
      split at h
      · next rest hd =>
        split at h
        · next he =>
          refine ⟨rest, ?_, fun x hx => dropBlank_eq_nil.mp (List.isEmpty_iff.mp he) x hx, ?_⟩
          · rw [← Option.some.inj h, hc]
            have := takeBlank_append_dropBlank s
            rw [hd] at this
            simp [this]
          · rw [← Option.some.inj h, List.getLast?_append]
            rfl
        · exact hstep h
      · exact hstep h
    · split at h
      · nomatch h
      · exact hstep h

/-- The call of a line stands in it as it is, up to the blanks at the end, and starts with the name of the library. -/
theorem callOf?_eq_some {line call : String} (h : callOf? line = some call) :
    ∃ p b rest, line.toList = p ++ call.toList ++ b ∧ (∀ c ∈ b, isBlank c = true) ∧ call.toList = 'm' :: 'w' :: rest ∧
      call.toList.getLast? = some ';' := by
  obtain ⟨found, hf, rfl⟩ := Option.map_eq_some_iff.mp h
  obtain ⟨p, t, hp, ht⟩ := exists_of_firstPlace_eq_some hf
  obtain ⟨word, hw, ht⟩ := Option.bind_eq_some_iff.mp ht
  obtain ⟨rest, hr, ht⟩ := Option.bind_eq_some_iff.mp ht
  obtain ⟨tail, he, ht⟩ := Option.bind_eq_some_iff.mp ht
  obtain ⟨b, hb, hblank, hlast⟩ := callEnd?_eq_some he
  obtain ⟨u, hu⟩ := tokens?_suffix hr
  have hlen : t = "mw".toList ++ u ++ rest := by rw [after?_eq_some.mp hw, ← hu, List.append_assoc]
  have htake : t.take (t.length - rest.length) = "mw".toList ++ u := by
    rw [hlen, List.length_append, Nat.add_sub_cancel, List.take_left]
  have hfound : found = "mw".toList ++ u ++ tail := by rw [← htake]; exact (Option.some.inj ht).symm
  refine ⟨p, b, u ++ tail, ?_, hblank, ?_, ?_⟩
  · rw [hp, hlen, String.toList_ofList, hfound, hb]
    simp
  · rw [String.toList_ofList, hfound]
    rfl
  · rw [String.toList_ofList, hfound, List.getLast?_append, hlast]
    rfl

/-- Tabs before a call do not belong to it. -/
theorem extractCall_tabs (call : String) : extractCall ("\t\t\t\t" ++ call) = extractCall call := by
  have htab : ∀ s, after? "mw".toList ('\t' :: s) = none := fun s => after?_cons_of_ne (by decide) _ _
  rw [extractCall, extractCall, callOf?, callOf?, String.toList_append,
    show "\t\t\t\t".toList = ['\t', '\t', '\t', '\t'] by decide]
  simp only [List.cons_append, List.nil_append]
  rw [firstPlace_cons_of_none (by rw [htab]; rfl), firstPlace_cons_of_none (by rw [htab]; rfl),
    firstPlace_cons_of_none (by rw [htab]; rfl), firstPlace_cons_of_none (by rw [htab]; rfl)]

end UserScripts.Wrapper
