import TrustSdk.Json.Builder

/-!
# What a built text denotes

The calls of a builder that succeed add members to the innermost open object (`Adds`). The text
written so far is read with them: an open text as soon as its objects are closed (`Opened`), a
closed one at once. So a text that validates in the end denotes what was added, and nothing else.

* `Opened.add`, `Opened.close` — the steps of the invariant;
* `runCalls_reflects` — the invariant holds after every sequence of calls;
* `actrustJsonBuilderFinish_denotes` — the finished text;
* `runCalls_finish`, `buildText_fits` — which calls finish.
-/

namespace TrustSdk.Json

open JsonText

/-- What has been added: the members of the innermost open object, and around it the members that
come before each open object, with its key; or the members of the whole object, when it is closed. -/
inductive Added where
  | within (around : List (Members × List UInt8)) (members : Members)
  | whole (members : Members)

/-- What a call adds to the tree. -/
inductive Adds : Added → BuilderCall → Added → Prop
  | string (around members key val valLen) :
      Adds (.within around members) (.addString key val valLen)
        (.within around (members ++ [(key, .str val)]))
  | int (around members key val) :
      Adds (.within around members) (.addInt key val)
        (.within around (members ++ [(key, .num val.toInt)]))
  | bool (around members key val) :
      Adds (.within around members) (.addBool key val)
        (.within around (members ++ [(key, .bool val)]))
  | object (around members key objJson) {value : Value} : Denotes objJson value →
      Adds (.within around members) (.addObject key objJson)
        (.within around (members ++ [(key, value)]))
  | openObject (around members key) :
      Adds (.within around members) (.openObject key) (.within ((members, key) :: around) [])
  | closeObject (around outer key members) :
      Adds (.within ((outer, key) :: around) members) .closeObject
        (.within around (outer ++ [(key, .obj members)]))
  | closeWhole (members) : Adds (.within [] members) .closeObject (.whole members)

/-- What some calls add to it. -/
inductive AddsAll : Added → List BuilderCall → Added → Prop
  | nil (added) : AddsAll added [] added
  | cons {added added' added'' call calls} : Adds added call added' →
      AddsAll added' calls added'' → AddsAll added (call :: calls) added''

/-! ### Keys and values -/

section Texts

variable {s t x : List UInt8} {c : UInt8}

/-- Nothing is skipped. -/
theorem skipBlanks_cons (hc : isBlank c = false) : skipBlanks (c :: s) = c :: s :=
  List.dropWhile_cons_of_neg (by rw [hc]; exact Bool.noConfusion)

/-- The four digits of a control character's escape. -/
theorem hexChar_control : ∀ n < 32, hexDigits 48 48 (hexChar (.ofNat n / 16))
    (hexChar (.ofNat n % 16)) = some n ∧ utf8 n = [.ofNat n] := by
  decide +kernel

/-- The escape of a character is read as the character. -/
theorem readString_escapeSeq (c : UInt8) (s : List UInt8) :
    readString (escapeSeq c ++ s) = (readString s).map (prepend [c]) := by
  unfold escapeSeq
  split_ifs with h1 h2 h3 h4 h5 h6 h7 h8
  · -- the eight kinds of escapes, in the order of the tests of the source; other characters stand
    -- for themselves
    rw [h1]
    exact readString_letter (by decide) rfl
  · rw [h2]
    exact readString_letter (by decide) rfl
  · rw [h3]
    exact readString_letter (by decide) rfl
  · rw [h4]
    exact readString_letter (by decide) rfl
  · rw [h5]
    exact readString_letter (by decide) rfl
  · rw [h6]
    exact readString_letter (by decide) rfl
  · rw [h7]
    exact readString_letter (by decide) rfl
  · have hlt : c.toNat < 32 := UInt8.lt_iff_toNat_lt.mp h8
    obtain ⟨hhex, hutf⟩ := hexChar_control c.toNat hlt
    rw [UInt8.ofNat_toNat] at hhex hutf
    rw [← hutf]
    exact readString_unit hhex (by omega) (by omega)
  · exact readString_plain h1 h2 h8

/-- Whatever its characters are, a string ends at its quote. -/
theorem readString_escaped (s x : List UInt8) :
    readString (escaped s ++ 34 :: x) = some (s, x) := by
  induction s with
  | nil => exact readString_quote
  | cons c s ih =>
    rw [escaped, List.flatMap_cons, List.append_assoc, readString_escapeSeq]
    exact congrArg (Option.map (prepend [c])) ih

/-- What stands behind a value: a comma or a closing brace. -/
def Stops (x : List UInt8) : Prop := x.head? = some 44 ∨ x.head? = some 125

/-- A text that is written for a value. -/
structure IsValueText (value : Value) (t : List UInt8) : Prop where
  reads : ∀ x, Stops x → ∃ w, Reads .value (t ++ x) value w ∧ skipBlanks w = x
  last : ∃ c, t.getLast? = some c ∧ c ≠ 123 ∧ c ≠ 91

/-- No blanks stand where a value stops. -/
theorem Stops.skipBlanks (h : Stops x) : skipBlanks x = x := by
  cases x with
  | nil => rfl
  | cons c x =>
    refine skipBlanks_cons ?_
    rcases h with h | h
    · cases h
      rfl
    · cases h
      rfl

/-- The text of a string value. -/
theorem isValueText_string (val : List UInt8) :
    IsValueText (.str val) (34 :: (escaped val ++ [34])) where
  reads x hx := by
    refine ⟨x, .scalar ?_, hx.skipBlanks⟩
    have hread : readScalar (34 :: (escaped val ++ 34 :: x)) = some (.str val, x) := by
      simp only [readScalar, readString_escaped, Option.map_some]
    rw [← hread, List.cons_append, List.append_assoc]
    rfl
  last := ⟨34, by rw [← List.cons_append, List.getLast?_concat], by decide, by decide⟩

/-- A number character is not blank. -/
theorem isBlank_numberChar (hc : isNumberChar c = true) : isBlank c = false := by
  refine decide_eq_false ?_
  rintro (rfl | rfl | rfl | rfl)
  all_goals cases hc

/-- The text of an integer. -/
theorem isValueText_int (n : ℤ) : IsValueText (.num n) (decimal n) where
  reads x hx := by
    have hstop : ∀ c ∈ x.head?, isNumberChar c = false := by
      intro c hc
      rcases hx with h | h
      · cases h.symm.trans hc
        rfl
      · cases h.symm.trans hc
        rfl
    have hread := readScalar_decimal n hstop
    obtain ⟨c, s, htext⟩ := decimal_head n
    have hc : isNumberChar c = true := decimal_all n c (htext ▸ List.mem_cons_self ..)
    refine ⟨x, .scalar ?_, hx.skipBlanks⟩
    rwa [htext, List.cons_append, skipBlanks_cons (isBlank_numberChar hc), ← List.cons_append,
      ← htext]
  last := by
    obtain ⟨c, s, htext⟩ := decimal_head n
    have hne : decimal n ≠ [] := htext ▸ List.cons_ne_nil c s
    have hc := decimal_all n _ (List.getLast_mem hne)
    refine ⟨_, List.getLast?_eq_some_getLast hne, ?_, ?_⟩
    · intro h
      rw [h] at hc
      cases hc
    · intro h
      rw [h] at hc
      cases hc

/-- The text of true. -/
theorem isValueText_true : IsValueText (.bool true) [116, 114, 117, 101] where
  reads x hx := ⟨x, .scalar rfl, hx.skipBlanks⟩
  last := ⟨101, rfl, by decide, by decide⟩

/-- The text of false. -/
theorem isValueText_false : IsValueText (.bool false) [102, 97, 108, 115, 101] where
  reads x hx := ⟨x, .scalar rfl, hx.skipBlanks⟩
  last := ⟨101, rfl, by decide, by decide⟩

/-- The builder and the grammar agree on blanks. -/
theorem jsonIsSpaceChar_eq (c : UInt8) : jsonIsSpaceChar c = isBlank c := by
  simp only [jsonIsSpaceChar, isBlank, decide_eq_decide]
  tauto

/-- An object text begins with its brace and does not end with an opening one, blanks aside. -/
theorem jsonIsObjectText_ends {objJson : List UInt8} (h : jsonIsObjectText objJson = true) :
    (∃ t, skipBlanks objJson = 123 :: t)
      ∧ ∃ c, objJson.getLast? = some c ∧ c ≠ 123 ∧ c ≠ 91 := by
  obtain ⟨hhead, hlast⟩ := of_decide_eq_true h
  have hspace : jsonIsSpaceChar = isBlank := funext jsonIsSpaceChar_eq
  rw [hspace] at hhead hlast
  constructor
  · obtain ⟨t, ht⟩ := List.rdropWhile_prefix isBlank (objJson.dropWhile isBlank)
    obtain ⟨u, hu⟩ := List.head?_eq_some_iff.mp hhead
    rw [hu] at ht
    exact ⟨u ++ t, ht.symm⟩
  · rcases List.eq_nil_or_concat' objJson with hnil | ⟨s, c, hc⟩
    · rw [hnil] at hhead
      cases hhead
    refine ⟨c, by rw [hc, List.getLast?_concat], ?_⟩
    by_cases hblank : isBlank c = true
    · constructor
      · rintro rfl
        cases hblank
      · rintro rfl
        cases hblank
    -- the last character is the last one that is no blank
    have hdrop : ∃ u, objJson.dropWhile isBlank = u ++ [c] := by
      rw [hc, List.dropWhile_append]
      split_ifs
      · exact ⟨[], List.dropWhile_cons_of_neg hblank⟩
      · exact ⟨_, rfl⟩
    obtain ⟨u, hu⟩ := hdrop
    rw [hu, List.rdropWhile_concat_neg _ _ _ hblank, List.getLast?_concat] at hlast
    cases hlast
    exact ⟨by decide, by decide⟩

/-- A valid object text stands for its object. -/
theorem isValueText_object {objJson : List UInt8} {value : Value}
    (hobject : jsonIsObjectText objJson = true) (h : Denotes objJson value) :
    IsValueText value objJson := by
  obtain ⟨⟨t, hbrace⟩, hlast⟩ := jsonIsObjectText_ends hobject
  obtain ⟨rest, hreads, hrest⟩ := h
  obtain ⟨members, rfl⟩ := hreads.of_brace hbrace
  refine ⟨fun x hx => ⟨rest ++ x, hreads.object_append x, ?_⟩, hlast⟩
  have hskip : skipBlanks (rest ++ x) = skipBlanks x := by
    rw [skipBlanks, List.dropWhile_append, if_pos (by rw [← skipBlanks, hrest]; rfl)]
    rfl
  rw [hskip, hx.skipBlanks]

end Texts

/-! ### The open objects -/

/-- The members of an object that is not closed, at least one of them. -/
structure IsBody (members : Members) (t : List UInt8) : Prop where
  closes : ∀ x, Reads .members (t ++ 125 :: x) members x
  continues : ∀ {u : List UInt8} {more : Members} {rest : List UInt8},
    Reads .members u more rest → Reads .members (t ++ 44 :: u) (members ++ more) rest
  last : ∃ c, t.getLast? = some c ∧ c ≠ 123 ∧ c ≠ 91

section Members

variable {key s t u x : List UInt8} {value : Value} {members : Members}
  {around : List (Members × List UInt8)}

/-- A member, without the comma before it. -/
def memberText (key t : List UInt8) : List UInt8 := 34 :: (escaped key ++ [34, 58]) ++ t

/-- A member with what follows. -/
theorem memberText_append : memberText key t ++ x = 34 :: (escaped key ++ 34 :: 58 :: (t ++ x)) := by
  simp only [memberText, List.cons_append, List.append_assoc, List.nil_append]

/-- One member. -/
theorem isBody_single (h : IsValueText value t) : IsBody [(key, value)] (memberText key t) where
  closes x := by
    obtain ⟨w, hreads, hw⟩ := h.reads (125 :: x) (.inr rfl)
    rw [memberText_append]
    exact .lastMember rfl (readString_escaped ..) rfl hreads hw
  continues {u more rest} hmore := by
    obtain ⟨w, hreads, hw⟩ := h.reads (44 :: u) (.inl rfl)
    rw [memberText_append]
    exact .member rfl (readString_escaped ..) rfl hreads hw hmore
  last := by
    obtain ⟨c, hc, hne⟩ := h.last
    refine ⟨c, ?_, hne⟩
    rw [memberText, List.getLast?_append, hc]
    rfl

/-- One more member. -/
theorem IsBody.snoc (hbody : IsBody members t) (h : IsValueText value u) :
    IsBody (members ++ [(key, value)]) (t ++ 44 :: memberText key u) where
  closes x := by
    rw [List.append_assoc]
    exact hbody.continues ((isBody_single h).closes x)
  continues {v more rest} hmore := by
    rw [List.append_assoc, List.append_assoc]
    exact hbody.continues ((isBody_single h).continues hmore)
  last := by
    have hmember : IsBody [(key, value)] (memberText key u) := isBody_single h
    obtain ⟨c, hc, hne⟩ := hmember.last
    refine ⟨c, ?_, hne⟩
    rw [List.getLast?_append, List.getLast?_cons, hc]
    rfl

/-- What stands behind the brace of an open object. -/
inductive IsContent : Members → List UInt8 → Prop
  | none : IsContent [] []
  | some {members : Members} {t : List UInt8} : IsBody members t → IsContent members t

/-- The text of the open objects. -/
inductive Opened : List (Members × List UInt8) → Members → List UInt8 → Prop
  | whole {members : Members} {t : List UInt8} : IsContent members t → Opened [] members (123 :: t)
  | inner {around : List (Members × List UInt8)} {outer members : Members}
      {key s t : List UInt8} : Opened around outer s → IsContent members t →
      Opened ((outer, key) :: around) members (s ++ (keyText s key ++ 123 :: t))

/-- The last character decides about the comma as the members would. -/
theorem IsContent.add (hcontent : IsContent members t) (h : IsValueText value u)
    (s key : List UInt8) :
    IsContent (members ++ [(key, value)]) (t ++ (keyText (s ++ 123 :: t) key ++ u)) := by
  refine .some ?_
  cases hcontent with
  | none =>
    have hsep : separator (s ++ [123]) = [] := by
      rw [separator, List.getLast?_concat]
      rfl
    rw [keyText, hsep]
    exact isBody_single h
  | some hbody =>
    obtain ⟨c, hc, hbrace, hbracket⟩ := hbody.last
    have hsep : separator (s ++ 123 :: t) = [44] := by
      rw [separator, List.getLast?_append, List.getLast?_cons, hc]
      exact if_neg fun h => (of_decide_eq_true h).elim hbrace hbracket
    rw [keyText, hsep]
    exact hbody.snoc h

/-- A member is added inside what is open. -/
theorem Opened.add (hopened : Opened around members s) (h : IsValueText value u) :
    Opened around (members ++ [(key, value)]) (s ++ (keyText s key ++ u)) := by
  cases hopened with
  | whole hcontent =>
    exact .whole (hcontent.add h [] key)
  | @inner _ outer _ key' s t houter hcontent =>
    have hadd := hcontent.add h (s ++ keyText s key') key
    rw [List.append_assoc] at hadd
    rw [List.append_assoc, List.append_assoc]
    exact .inner houter hadd

/-- The text of an object with its members. -/
theorem isValueText_members (h : IsContent members t) :
    IsValueText (.obj members) (123 :: (t ++ [125])) where
  reads x hx := by
    refine ⟨x, ?_, hx.skipBlanks⟩
    cases h with
    | none => exact .emptyObject rfl rfl
    | some hbody =>
      have hcloses := hbody.closes x
      rw [List.append_cons] at hcloses
      exact .object rfl hcloses
  last := ⟨125, by rw [← List.cons_append, List.getLast?_concat], by decide, by decide⟩

/-- Closing an inner object. -/
theorem Opened.close {outer : Members}
    (h : Opened ((outer, key) :: around) members s) :
    Opened around (outer ++ [(key, .obj members)]) (s ++ [125]) := by
  cases h with
  | inner houter hcontent =>
    rw [List.append_assoc, List.append_assoc]
    exact houter.add (isValueText_members hcontent)

/-- Closing the outermost one. -/
theorem Opened.close_whole (h : Opened [] members s) (x : List UInt8) :
    Reads .value (s ++ 125 :: x) (.obj members) x := by
  cases h with
  | whole hcontent =>
    cases hcontent with
    | none => exact .emptyObject rfl rfl
    | some hbody => exact .object rfl (hbody.closes x)

/-- The text begins with a brace. -/
theorem Opened.brace (h : Opened around members s) : ∃ t, s = 123 :: t := by
  induction h with
  | whole => exact ⟨_, rfl⟩
  | inner _ _ ih =>
    obtain ⟨t, rfl⟩ := ih
    exact ⟨_, rfl⟩

/-- Closing braces, enough of them, make an object of an open text. -/
theorem Opened.completes (h : Opened around members s) :
    ∃ whole closers, closers ≠ [] ∧ Reads .value (s ++ closers) (.obj whole) [] := by
  induction around generalizing members s with
  | nil => exact ⟨members, [125], nofun, h.close_whole []⟩
  | cons frame around ih =>
    obtain ⟨outer, key⟩ := frame
    obtain ⟨whole, closers, -, hreads⟩ := ih h.close
    rw [List.append_assoc] at hreads
    exact ⟨whole, [125] ++ closers, nofun, hreads⟩

/-- Then the open text itself is none: it would be an object, and nothing could stand behind it. -/
theorem Opened.not_denotes (h : Opened around members s) : ¬Denotes s value := by
  rintro ⟨rest, hreads, -⟩
  obtain ⟨t, hbrace⟩ := h.brace
  obtain ⟨members', rfl⟩ := hreads.of_brace (t := t) (by rw [hbrace]; rfl)
  obtain ⟨whole, closers, hclosers, hcomplete⟩ := h.completes
  have hnil := ((hreads.object_append closers).unique hcomplete).2
  exact hclosers (List.append_eq_nil_iff.mp hnil).2

end Members

/-! ### The calls -/

/-- The text holds what has been added. -/
def Reflects : Added → List UInt8 → Prop
  | .within around members, s => Opened around members s
  | .whole members, s => ∀ x, Reads .value (s ++ x) (.obj members) x

/-- Something stands behind the whole object. -/
def Spoilt (s : List UInt8) : Prop :=
  ∃ members c behind, isBlank c = false ∧ Reads .value s (.obj members) (c :: behind)

section Calls

variable {json : CoreJson} {b b' : Builder} {s : List UInt8} {added : Added}
  {call : BuilderCall} {calls : List BuilderCall} {value : Value}

/-- A spoilt text stays spoilt. -/
theorem Spoilt.append (h : Spoilt s) (x : List UInt8) : Spoilt (s ++ x) := by
  obtain ⟨members, c, behind, hc, hreads⟩ := h
  exact ⟨members, c, behind ++ x, hc, hreads.object_append x⟩

/-- It denotes nothing. -/
theorem Spoilt.not_denotes (h : Spoilt s) : ¬Denotes s value := by
  rintro ⟨rest, hreads, hrest⟩
  obtain ⟨members, c, behind, hc, hreads'⟩ := h
  rw [(hreads.unique hreads').2, skipBlanks_cons hc] at hrest
  cases hrest

/-- A key begins with a character that is not blank. -/
theorem keyText_head (s key : List UInt8) : ∃ c t, keyText s key = c :: t ∧ isBlank c = false := by
  unfold keyText separator
  split_ifs
  · exact ⟨34, _, rfl, rfl⟩
  · exact ⟨44, _, rfl, rfl⟩

/-- So does what any call writes. -/
theorem BuilderCall.text_head (call : BuilderCall) (s : List UInt8) :
    ∃ c t, call.text s = c :: t ∧ isBlank c = false := by
  have hkey (key x : List UInt8) : ∃ c t, keyText s key ++ x = c :: t ∧ isBlank c = false := by
    obtain ⟨c, t, htext, hc⟩ := keyText_head s key
    exact ⟨c, t ++ x, by rw [htext]; rfl, hc⟩
  cases call with
  | addString key val valLen => exact hkey key _
  | addInt key val => exact hkey key _
  | addBool key val =>
    cases val with
    | true => exact hkey key _
    | false => exact hkey key _
  | addObject key objJson => exact hkey key _
  | openObject key => exact hkey key _
  | closeObject => exact ⟨125, [], rfl, rfl⟩

/-- A call after the last brace spoils the text. -/
theorem Reflects.spoilt {members : Members} (h : Reflects (.whole members) s) (call : BuilderCall) :
    Spoilt (s ++ call.text s) := by
  obtain ⟨c, t, htext, hc⟩ := call.text_head s
  exact ⟨members, c, t, hc, htext ▸ h (c :: t)⟩

/-- A call adds to the text what it adds to the tree. -/
theorem Reflects.adds {added' : Added} (hreflects : Reflects added s)
    (hadds : Adds added call added') (hadmitted : call.Admitted json) : Reflects added' (s ++ call.text s) := by
  cases hadds with
  | string around members key val valLen => exact Opened.add hreflects (isValueText_string val)
  | int around members key val => exact Opened.add hreflects (isValueText_int _)
  | bool around members key val =>
    cases val with
    | true => exact Opened.add hreflects isValueText_true
    | false => exact Opened.add hreflects isValueText_false
  | object around members key objJson hdenotes =>
    exact Opened.add hreflects (isValueText_object hadmitted.2.2 hdenotes)
  | openObject around members key => exact .inner hreflects .none
  | closeObject around outer key members => exact Opened.close hreflects
  | closeWhole members =>
    intro x
    rw [List.append_assoc]
    exact Opened.close_whole hreflects x

/-- A call adds something, as long as the whole object is open. -/
theorem exists_adds (hdenotes : ∀ t, json.validate t = true → ∃ value, Denotes t value)
    (hadmitted : call.Admitted json) (added : Added) :
    (∃ added', Adds added call added') ∨ ∃ members, added = .whole members := by
  cases added with
  | whole members => exact .inr ⟨members, rfl⟩
  | within around members =>
    -- every admitted call has its place in the tree as long as an object is open
    refine .inl ?_
    cases call with
    | addString key val valLen => exact ⟨_, .string ..⟩
    | addInt key val => exact ⟨_, .int ..⟩
    | addBool key val => exact ⟨_, .bool ..⟩
    | addObject key objJson =>
      obtain ⟨value, hvalue⟩ := hdenotes objJson hadmitted.2.1
      exact ⟨_, .object _ _ _ _ hvalue⟩
    | openObject key => exact ⟨_, .openObject ..⟩
    | closeObject =>
      cases around with
      | nil => exact ⟨_, .closeWhole ..⟩
      | cons frame around => exact ⟨_, .closeObject around frame.1 frame.2 members⟩

/-- What a builder keeps, from its initialisation on. -/
structure Terminated (b : Builder) : Prop where
  fits : b.len < b.cap
  terminator : b.buf b.len = 0

/-- A call in a terminated builder. -/
theorem BuilderCall.run_wrote (hb : Terminated b) (hrun : call.run json b = .ok b') :
    call.Admitted json ∧ b'.text = b.text ++ call.text b.text ∧ Terminated b' ∧ b'.cap = b.cap := by
  have hcap : b.cap ≠ 0 := Nat.ne_zero_of_lt hb.fits
  obtain ⟨hadmitted, hwrote⟩ := BuilderCall.run_ok hcap hrun
  obtain ⟨c, t, htext, -⟩ := call.text_head b.text
  obtain ⟨hfits, hterminator⟩ := hwrote.terminated (htext ▸ List.cons_ne_nil c t)
  exact ⟨hadmitted, hwrote.text, ⟨hfits, hterminator⟩, hwrote.cap⟩

/-- The first of some calls. -/
theorem runCalls_cons (hrun : runCalls json b (call :: calls) = .ok b') :
    ∃ next, call.run json b = .ok next ∧ runCalls json next calls = .ok b' := by
  rw [runCalls] at hrun
  cases hcall : call.run json b with
  | error err =>
    rw [hcall] at hrun
    cases hrun
  | ok next =>
    rw [hcall] at hrun
    exact ⟨next, rfl, hrun⟩

/-- The calls keep the NUL. -/
theorem runCalls_terminated (hb : Terminated b) (hrun : runCalls json b calls = .ok b') :
    Terminated b' ∧ b'.cap = b.cap := by
  induction calls generalizing b with
  | nil =>
    cases hrun
    exact ⟨hb, rfl⟩
  | cons call calls ih =>
    obtain ⟨next, hcall, hrest⟩ := runCalls_cons hrun
    obtain ⟨-, -, hnext, hcap⟩ := BuilderCall.run_wrote hb hcall
    obtain ⟨hb', hcap'⟩ := ih hnext hrest
    exact ⟨hb', hcap'.trans hcap⟩

/-- And keep a spoilt text spoilt. -/
theorem runCalls_spoilt (hb : Terminated b) (hspoilt : Spoilt b.text)
    (hrun : runCalls json b calls = .ok b') : Spoilt b'.text := by
  induction calls generalizing b with
  | nil =>
    cases hrun
    exact hspoilt
  | cons call calls ih =>
    obtain ⟨next, hcall, hrest⟩ := runCalls_cons hrun
    obtain ⟨-, htext, hnext, -⟩ := BuilderCall.run_wrote hb hcall
    exact ih hnext (htext ▸ hspoilt.append _) hrest

/-- After some calls the text reflects the tree, or it is spoilt. -/
theorem runCalls_reflects (hdenotes : ∀ t, json.validate t = true → ∃ value, Denotes t value)
    (hb : Terminated b) (hreflects : Reflects added b.text) (hrun : runCalls json b calls = .ok b') :
    (∃ added', AddsAll added calls added' ∧ Reflects added' b'.text) ∨ Spoilt b'.text := by
  induction calls generalizing b added with
  | nil =>
    cases hrun
    exact .inl ⟨added, .nil added, hreflects⟩
  | cons call calls ih =>
    obtain ⟨next, hcall, hrest⟩ := runCalls_cons hrun
    obtain ⟨hadmitted, htext, hnext, -⟩ := BuilderCall.run_wrote hb hcall
    rcases exists_adds hdenotes hadmitted added with ⟨added', hadds⟩ | ⟨members, rfl⟩
    · have hreflects' := hreflects.adds hadds hadmitted
      rcases ih hnext (htext ▸ hreflects') hrest with ⟨added'', haddsAll, hreflects''⟩ | hspoilt
      · exact .inl ⟨added'', .cons hadds haddsAll, hreflects''⟩
      · exact .inr hspoilt
    · exact .inr (runCalls_spoilt hnext (htext ▸ hreflects.spoilt call) hrest)

/-- The builder starts with one open object. -/
theorem actrustJsonBuilderInit_reflects {buf : ℕ → UInt8} {cap : ℕ}
    (h : actrustJsonBuilderInit buf cap = .ok b) :
    Terminated b ∧ b.cap = cap ∧ Reflects (.within [] []) b.text := by
  unfold actrustJsonBuilderInit at h
  split_ifs at h
  have hwrote := jsonBuilderWrite_ok h
  obtain ⟨hfits, hterminator⟩ := hwrote.terminated nofun
  refine ⟨⟨hfits, hterminator⟩, hwrote.cap, ?_⟩
  rw [hwrote.text]
  exact .whole .none

/-- A text that denotes something is closed. -/
theorem Reflects.of_denotes (hreflects : Reflects added s) (hdenotes : Denotes s value) :
    ∃ members, added = .whole members ∧ value = .obj members := by
  cases added with
  | within around members => exact absurd hdenotes (Opened.not_denotes hreflects)
  | whole members =>
    refine ⟨members, rfl, hdenotes.unique ⟨[], ?_, rfl⟩⟩
    have hreads := hreflects []
    rwa [List.append_nil] at hreads

/-- One more brace closes the whole object, or nothing. -/
theorem Reflects.of_denotes_brace (hreflects : Reflects added s)
    (hdenotes : Denotes (s ++ [125]) value) :
    ∃ members, added = .within [] members ∧ value = .obj members := by
  cases added with
  | within around members =>
    have hopened : Opened around members s := hreflects
    cases around with
    | nil => exact ⟨members, rfl, hdenotes.unique ⟨[], hopened.close_whole [], rfl⟩⟩
    | cons frame around => exact absurd hdenotes hopened.close.not_denotes
  | whole members => exact absurd hdenotes (hreflects.spoilt .closeObject).not_denotes

/-- What a finish that went well has checked. -/
theorem actrustJsonBuilderFinish_ok (h : actrustJsonBuilderFinish json b = .ok b') :
    json.validate b'.text = true ∧ (b' = b ∨ jsonBuilderWriteChar b 125 = .ok b') := by
  unfold actrustJsonBuilderFinish at h
  split at h
  · rename_i hvalid
    cases h
    exact ⟨hvalid, .inl rfl⟩
  · split at h
    · cases h
    · rename_i hwrite
      split at h
      · rename_i hvalid
        cases h
        exact ⟨hvalid, .inr hwrite⟩
      · cases h

/-- A finish that went well leaves the text of the tree. -/
theorem finish_denotes (hdenotes : ∀ t, json.validate t = true → ∃ value, Denotes t value)
    {buf : ℕ → UInt8} {cap : ℕ} {b₀ b₁ b₂ : Builder}
    (hinit : actrustJsonBuilderInit buf cap = .ok b₀) (hrun : runCalls json b₀ calls = .ok b₁)
    (hfinish : actrustJsonBuilderFinish json b₁ = .ok b₂) :
    Terminated b₂ ∧ b₂.cap = cap ∧ ∃ members,
      (AddsAll (.within [] []) calls (.within [] members)
          ∨ AddsAll (.within [] []) calls (.whole members))
        ∧ Denotes b₂.text (.obj members) := by
  obtain ⟨hb₀, hcap₀, hreflects₀⟩ := actrustJsonBuilderInit_reflects hinit
  obtain ⟨hb₁, hcap₁⟩ := runCalls_terminated hb₀ hrun
  have hreflects₁ := runCalls_reflects hdenotes hb₀ hreflects₀ hrun
  obtain ⟨hvalid, hlast⟩ := actrustJsonBuilderFinish_ok hfinish
  obtain ⟨value, hvalue⟩ := hdenotes b₂.text hvalid
  -- the calls closed the object themselves, or finish did
  rcases hlast with rfl | hwrite
  · refine ⟨hb₁, hcap₁.trans hcap₀, ?_⟩
    rcases hreflects₁ with ⟨added, hadds, hreflects⟩ | hspoilt
    · obtain ⟨members, rfl, rfl⟩ := hreflects.of_denotes hvalue
      exact ⟨members, .inr hadds, hvalue⟩
    · exact absurd hvalue hspoilt.not_denotes
  · have hwrote := jsonBuilderWrite_ok hwrite
    obtain ⟨hfits, hterminator⟩ := hwrote.terminated nofun
    refine ⟨⟨hfits, hterminator⟩, hwrote.cap.trans (hcap₁.trans hcap₀), ?_⟩
    rw [hwrote.text] at hvalue ⊢
    rcases hreflects₁ with ⟨added, hadds, hreflects⟩ | hspoilt
    · obtain ⟨members, rfl, rfl⟩ := hreflects.of_denotes_brace hvalue
      exact ⟨members, .inl hadds, hvalue⟩
    · exact absurd hvalue (hspoilt.append _).not_denotes

/-- The same for init, calls and finish in one. -/
theorem buildText_ok (hdenotes : ∀ t, json.validate t = true → ∃ value, Denotes t value)
    {buf : ℕ → UInt8} {cap : ℕ} (h : buildText json buf cap calls = .ok s) :
    ∃ members,
      (AddsAll (.within [] []) calls (.within [] members)
          ∨ AddsAll (.within [] []) calls (.whole members))
        ∧ Denotes s (.obj members) := by
  unfold buildText at h
  cases hinit : actrustJsonBuilderInit buf cap with
  | error err =>
    rw [hinit] at h
    cases h
  | ok b₀ =>
    rw [hinit] at h
    cases hrun : runCalls json b₀ calls with
    | error err =>
      replace h : (runCalls json b₀ calls >>= _) = _ := h
      rw [hrun] at h
      cases h
    | ok b₁ =>
      replace h : (runCalls json b₀ calls >>= _) = _ := h
      rw [hrun] at h
      cases hfinish : actrustJsonBuilderFinish json b₁ with
      | error err =>
        replace h : (actrustJsonBuilderFinish json b₁ >>= _) = _ := h
        rw [hfinish] at h
        cases h
      | ok b₂ =>
        replace h : (actrustJsonBuilderFinish json b₁ >>= _) = _ := h
        rw [hfinish] at h
        cases h
        exact (finish_denotes hdenotes hinit hrun hfinish).2.2

/-! ### Calls that fit -/

/-- Admitted calls that add to the tree add to the text. -/
theorem Reflects.addsAll {added' : Added} (hreflects : Reflects added s)
    (hadds : AddsAll added calls added') (hadmitted : ∀ call ∈ calls, call.Admitted json) : Reflects added' (callsText s calls) := by
  induction hadds generalizing s with
  | nil => exact hreflects
  | cons hadd _ ih =>
    obtain ⟨hcall, hcalls⟩ := List.forall_mem_cons.mp hadmitted
    exact ih (hreflects.adds hadd hcall) hcalls

/-- Calls only add. -/
theorem length_le_callsText (s : List UInt8) (calls : List BuilderCall) :
    s.length ≤ (callsText s calls).length := by
  induction calls generalizing s with
  | nil => exact le_rfl
  | cons call calls ih =>
    refine le_trans ?_ (ih _)
    rw [List.length_append]
    exact Nat.le_add_right _ _

/-- Calls whose text fits go well. -/
theorem runCalls_fits (hb : Terminated b) (hadmitted : ∀ call ∈ calls, call.Admitted json)
    (hfits : (callsText b.text calls).length < b.cap) :
    ∃ b', runCalls json b calls = .ok b' ∧ b'.text = callsText b.text calls := by
  induction calls generalizing b with
  | nil => exact ⟨b, rfl, rfl⟩
  | cons call calls ih =>
    obtain ⟨hcall, hcalls⟩ := List.forall_mem_cons.mp hadmitted
    have hcap : b.cap ≠ 0 := Nat.ne_zero_of_lt hb.fits
    have hlen := (length_le_callsText (b.text ++ call.text b.text) calls).trans_lt hfits
    obtain ⟨next, hwrite⟩ : ∃ next, jsonBuilderWrite b (call.text b.text) = .ok next := by
      rw [List.length_append, text_length] at hlen
      exact jsonBuilderWrite_fits hcap hlen
    have hrun : call.run json b = .ok next := (BuilderCall.run_eq hcall hcap).trans hwrite
    obtain ⟨-, htext, hnext, hcap'⟩ := BuilderCall.run_wrote hb hrun
    obtain ⟨b', hrest, htext'⟩ := ih hnext hcalls (by rw [htext, hcap']; exact hfits)
    refine ⟨b', ?_, htext'.trans (by rw [htext, callsText])⟩
    rw [runCalls, hrun]
    exact hrest

/-- Calls that fit into the buffer, with the closing brace and the terminator, are made to the
end. -/
theorem runCalls_finish {limit : ℕ∞} (hvalidate : ∀ t, json.validate t = true ↔ IsText limit t)
    {buf : ℕ → UInt8} {cap : ℕ} {members : Members}
    (hadmitted : ∀ call ∈ calls, call.Admitted json)
    (hadds : AddsAll (.within [] []) calls (.within [] members))
    (hutf8 : IsUtf8 (callsText [123] calls)) (hdepth : (Value.obj members).depth ≤ limit)
    (hfits : (callsText [123] calls).length + 1 < cap) :
    ∃ b₀ b₁ b₂, actrustJsonBuilderInit buf cap = .ok b₀ ∧ runCalls json b₀ calls = .ok b₁ ∧
      actrustJsonBuilderFinish json b₁ = .ok b₂ ∧ b₂.text = callsText [123] calls ++ [125] ∧
      Denotes b₂.text (.obj members) := by
  have hpos : 0 < (callsText [123] calls).length := length_le_callsText [123] calls
  obtain ⟨b₀, hinit⟩ : ∃ b₀, actrustJsonBuilderInit buf cap = .ok b₀ := by
    unfold actrustJsonBuilderInit
    rw [if_neg (by omega)]
    exact jsonBuilderWrite_fits (by show cap ≠ 0; omega) (by show 0 + 1 < cap; omega)
  obtain ⟨hb₀, hcap₀, -⟩ := actrustJsonBuilderInit_reflects hinit
  have htext₀ : b₀.text = [123] := by
    unfold actrustJsonBuilderInit at hinit
    rw [if_neg (by omega)] at hinit
    exact (jsonBuilderWrite_ok hinit).text
  obtain ⟨b₁, hrun, htext₁⟩ := runCalls_fits hb₀ hadmitted (by rw [htext₀, hcap₀]; omega)
  rw [htext₀] at htext₁
  obtain ⟨hb₁, hcap₁⟩ := runCalls_terminated hb₀ hrun
  have hstart : Reflects (.within [] []) [123] := Opened.whole .none
  have hopened : Opened [] members (callsText [123] calls) := hstart.addsAll hadds hadmitted
  have hdenotes : Denotes (callsText [123] calls ++ [125]) (.obj members) :=
    ⟨[], hopened.close_whole [], rfl⟩
  -- the text is not closed yet, so `finish` writes the last brace
  have hopen : ¬json.validate b₁.text = true := by
    rw [htext₁, hvalidate]
    rintro ⟨-, value, hvalue, -⟩
    exact hopened.not_denotes hvalue
  obtain ⟨b₂, hwrite⟩ : ∃ b₂, jsonBuilderWriteChar b₁ 125 = .ok b₂ := by
    have hlen : b₁.len = (callsText [123] calls).length := by rw [← text_length, htext₁]
    refine jsonBuilderWrite_fits (Nat.ne_zero_of_lt hb₁.fits) ?_
    rw [hlen, hcap₁, hcap₀]
    exact hfits
  have htext₂ : b₂.text = callsText [123] calls ++ [125] := by
    rw [(jsonBuilderWrite_ok hwrite).text, htext₁]
  have hvalid : json.validate b₂.text = true := by
    rw [htext₂, hvalidate]
    refine ⟨hutf8.append (isUtf8_ascii ?_), _, hdenotes, hdepth⟩
    intro c hc
    rw [List.mem_singleton.mp hc]
    decide
  refine ⟨b₀, b₁, b₂, hinit, hrun, ?_, htext₂, htext₂ ▸ hdenotes⟩
  unfold actrustJsonBuilderFinish
  rw [if_neg hopen, hwrite]
  exact if_pos hvalid

/-- They build their text. -/
theorem buildText_fits {limit : ℕ∞} (hvalidate : ∀ t, json.validate t = true ↔ IsText limit t)
    {buf : ℕ → UInt8} {cap : ℕ} {members : Members}
    (hadmitted : ∀ call ∈ calls, call.Admitted json)
    (hadds : AddsAll (.within [] []) calls (.within [] members))
    (hutf8 : IsUtf8 (callsText [123] calls)) (hdepth : (Value.obj members).depth ≤ limit)
    (hfits : (callsText [123] calls).length + 1 < cap) :
    buildText json buf cap calls = .ok (callsText [123] calls ++ [125])
      ∧ Denotes (callsText [123] calls ++ [125]) (.obj members) := by
  obtain ⟨b₀, b₁, b₂, hinit, hrun, hfinish, htext, hdenotes⟩ :=
    @runCalls_finish json calls limit hvalidate buf cap members hadmitted hadds hutf8 hdepth hfits
  rw [htext] at hdenotes
  refine ⟨?_, hdenotes⟩
  unfold buildText
  rw [hinit]
  show (runCalls json b₀ calls >>= _) = _
  rw [hrun]
  show (actrustJsonBuilderFinish json b₁ >>= _) = _
  rw [hfinish, ← htext]
  rfl

end Calls

/-- The text of a builder that finishes denotes the members that have been added, and only them; the
calls then have closed every object that they opened. -/
theorem actrustJsonBuilderFinish_denotes {json : CoreJson} {limit : ℕ∞}
    (hvalidate : ∀ t, json.validate t = true ↔ IsText limit t)
    {buf : ℕ → UInt8} {cap : ℕ} {calls : List BuilderCall} {b₀ b₁ b₂ : Builder}
    (hinit : actrustJsonBuilderInit buf cap = .ok b₀)
    (hrun : runCalls json b₀ calls = .ok b₁)
    (hfinish : actrustJsonBuilderFinish json b₁ = .ok b₂) :
    ∃ members,
      (AddsAll (.within [] []) calls (.within [] members)
          ∨ AddsAll (.within [] []) calls (.whole members))
        ∧ Denotes b₂.text (.obj members)
        ∧ (∀ value, Denotes b₂.text value → value = .obj members)
        ∧ b₂.cap = cap ∧ b₂.len < cap ∧ b₂.buf b₂.len = 0 := by
  have hdenotes (t : List UInt8) (ht : json.validate t = true) : ∃ value, Denotes t value := by
    obtain ⟨-, value, hvalue, -⟩ := (hvalidate t).mp ht
    exact ⟨value, hvalue⟩
  obtain ⟨hb, hcap, members, hadds, hvalue⟩ := finish_denotes hdenotes hinit hrun hfinish
  exact ⟨members, hadds, hvalue, fun _ h => h.unique hvalue, hcap, hcap ▸ hb.fits, hb.terminator⟩

/-- A library that accepts the texts of RFC 8259. -/
noncomputable def CoreJson.ofTexts (limit : ℕ∞) : CoreJson where
  validate t := @decide (IsText limit t) (Classical.propDecidable _)
  search _ _ := none

/-- The library model accepts exactly the texts of the grammar. -/
theorem CoreJson.ofTexts_validate (limit : ℕ∞) (t : List UInt8) :
    (CoreJson.ofTexts limit).validate t = true ↔ IsText limit t :=
  @decide_eq_true_iff _ (Classical.propDecidable _)

/-- A quote as a key with a brace as its value, an integer, and an object with a member. -/
def nestedCalls : List BuilderCall :=
  [.addString [34] [125] 1, .addInt (text "n") (-7), .openObject (text "o"),
    .addBool (text "b") true, .closeObject]

/-- The theorem at a string, an integer and a nested object. -/
theorem actrustJsonBuilderFinish_denotes_nested :
    ∃ b₀ b₁ b₂ : Builder,
      actrustJsonBuilderInit (fun _ => 7) 48 = .ok b₀
        ∧ runCalls (CoreJson.ofTexts 32) b₀ nestedCalls = .ok b₁
        ∧ actrustJsonBuilderFinish (CoreJson.ofTexts 32) b₁ = .ok b₂
        ∧ b₂.text = text "\x7b\"\\\"\":\"\x7d\",\"n\":-7,\"o\":\x7b\"b\":true\x7d\x7d"
        ∧ ∃ members,
          (AddsAll (.within [] []) nestedCalls (.within [] members)
              ∨ AddsAll (.within [] []) nestedCalls (.whole members))
            ∧ Denotes b₂.text (.obj members)
            ∧ (∀ value, Denotes b₂.text value → value = .obj members)
            ∧ b₂.cap = 48 ∧ b₂.len < 48 ∧ b₂.buf b₂.len = 0 := by
  have hadmitted : ∀ call ∈ nestedCalls, call.Admitted (CoreJson.ofTexts 32) := by
    simp [nestedCalls, BuilderCall.Admitted]
  have hadds : AddsAll (.within [] []) nestedCalls
      (.within [] [([34], .str [125]), (text "n", .num (-7)),
        (text "o", .obj [(text "b", .bool true)])]) :=
    .cons (.string _ _ _ _ _) (.cons (.int _ _ _ _) (.cons (.openObject _ _ _)
      (.cons (.bool _ _ _ _) (.cons (.closeObject _ _ _ _) (.nil _)))))
  have hascii : ∀ c ∈ callsText [123] nestedCalls, c < 128 := by decide +kernel
  obtain ⟨b₀, b₁, b₂, hinit, hrun, hfinish, htext, -⟩ :=
    @runCalls_finish (CoreJson.ofTexts 32) nestedCalls 32 (CoreJson.ofTexts_validate 32)
      (fun _ => 7) 48 _ hadmitted hadds (isUtf8_ascii hascii)
      (Nat.cast_le.mpr (show 2 ≤ 32 by decide)) (by decide +kernel)
  refine ⟨b₀, b₁, b₂, hinit, hrun, hfinish, htext.trans (by decide +kernel), ?_⟩
  exact actrustJsonBuilderFinish_denotes (CoreJson.ofTexts_validate 32) hinit hrun hfinish

end TrustSdk.Json
