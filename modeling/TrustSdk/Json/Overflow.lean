import TrustSdk.Json.Sizes
import TrustSdk.Json.Writes
import TrustSdk.Lib.Machine

/-!
# When the buffer of a builder is full

A call that finds too little room leaves a part of its text in the buffer, and the calls behind it
write on. Whether they can make a text of it that is complete depends on where the first call has
stopped:

* at a value behind its colon, nothing that a call writes can stand there (`Growing.no_value`);
* within a string, its end takes a quote, and behind it there have to be the braces of all objects
  that are open; behind a key also a colon and a value, before the braces (`Owes`). A later call
  writes a comma first, which is one more character of the string, unless the text so far ends in an
  opening bracket (`Later.start`);
* anywhere else there is no room for anything (`Unfinished`).

Only at the escape of a control character, which takes six bytes, there may be as much room left.
-/

namespace TrustSdk.Json

open JsonText Machine

section Texts

variable {key s t u x z : List UInt8} {value : Value} {members : Members}
  {around : List (Members × List UInt8)} {depth n : ℕ}

/-! ### Texts that are read on -/

/-- What stands behind the text as one more member is read as a member, and what is left behind its
object has to end the `depth` objects around it. -/
def Resumes (depth : ℕ) (s : List UInt8) : Prop :=
  ∀ u value rest, Reads .value (s ++ (separator s ++ 34 :: u)) value rest →
    ∃ members rest', Reads .members (34 :: u) members rest' ∧ rest.length + depth ≤ rest'.length

/-- Behind anything but an opening brace or bracket a comma is due. -/
theorem separator_of_last {c : UInt8} (hlast : s.getLast? = some c) (hbrace : c ≠ 123)
    (hbracket : c ≠ 91) : separator s = [44] := by
  rw [separator, hlast]
  exact if_neg fun h => (of_decide_eq_true h).elim hbrace hbracket

/-- Behind a value likewise. -/
theorem IsValueText.separator (h : IsValueText value u) (s : List UInt8) :
    separator (s ++ u) = [44] := by
  obtain ⟨c, hlast, hbrace, hbracket⟩ := h.last
  refine separator_of_last (c := c) ?_ hbrace hbracket
  rw [List.getLast?_append, hlast]
  rfl

/-- A member, spelled out. -/
theorem keyText_append (s key v : List UInt8) :
    s ++ (keyText s key ++ v) = s ++ (separator s ++ 34 :: (escaped key ++ 34 :: 58 :: v)) := by
  simp only [keyText, List.append_assoc, List.cons_append, List.nil_append]

/-- Behind a key there is a value. -/
theorem Resumes.value_behind (h : Resumes depth s) {v rest : List UInt8}
    (hreads : Reads .value (s ++ (keyText s key ++ v)) value rest) :
    ∃ value w rest', Reads .value v value w ∧ Follows w rest' ∧
      rest.length + depth ≤ rest'.length := by
  rw [keyText_append] at hreads
  obtain ⟨members, rest', hmembers, hle⟩ := h _ _ _ hreads
  obtain ⟨key', u, v', value', w, hkey, hcolon, hvalue, hfollows⟩ := hmembers.first_member
  cases (readString_escaped key (58 :: v)).symm.trans hkey
  have hv : v = v' := (List.cons.inj hcolon).2
  exact ⟨value', w, rest', hv ▸ hvalue, hfollows, hle⟩

/-- An object that was opened. -/
theorem resumes_brace : Resumes 0 [123] := by
  intro u value rest hreads
  obtain ⟨members, hmembers⟩ := hreads.brace_quote rfl
  exact ⟨members, rest, hmembers, le_rfl⟩

/-- A member is added. -/
theorem Resumes.add (h : Resumes depth s) (hu : IsValueText value u) (key : List UInt8) :
    Resumes depth (s ++ (keyText s key ++ u)) := by
  intro u' value' rest hreads
  rw [← List.append_assoc s, hu.separator, List.append_assoc, List.append_assoc] at hreads
  obtain ⟨value'', w, rest', hvalue, hfollows, hle⟩ := h.value_behind hreads
  obtain ⟨w', hreads', hw'⟩ := hu.reads (44 :: 34 :: u') (.inl rfl)
  have hsame : w = w' := (hvalue.unique hreads').2
  rw [hsame] at hfollows
  rcases hfollows with hend | ⟨x, more, hcomma, hmore⟩
  · cases hw'.symm.trans hend
  · cases hw'.symm.trans hcomma
    exact ⟨more, rest', hmore, hle⟩

/-- One more object has to be ended. -/
theorem Resumes.open (h : Resumes depth s) (key : List UInt8) :
    Resumes (depth + 1) (s ++ (keyText s key ++ [123])) := by
  intro u value rest hreads
  have hsep : separator (s ++ (keyText s key ++ [123])) = [] := by
    rw [separator, ← List.append_assoc, List.getLast?_concat]
    rfl
  rw [hsep, List.append_assoc, List.append_assoc] at hreads
  obtain ⟨value', w, rest', hvalue, hfollows, hle⟩ := h.value_behind hreads
  obtain ⟨members, hmembers⟩ := hvalue.brace_quote rfl
  have hlt := hfollows.length_lt
  exact ⟨members, w, hmembers, by omega⟩

/-- An open text whose members are read on, at every depth. -/
inductive Growing : List (Members × List UInt8) → Members → List UInt8 → Prop
  | whole {members : Members} {t : List UInt8} : IsContent members t → Resumes 0 (123 :: t) →
      Growing [] members (123 :: t)
  | inner {around : List (Members × List UInt8)} {outer members : Members}
      {key s t : List UInt8} : Growing around outer s → IsContent members t →
      Resumes (around.length + 1) (s ++ (keyText s key ++ 123 :: t)) →
      Growing ((outer, key) :: around) members (s ++ (keyText s key ++ 123 :: t))

namespace Growing

/-- The text so far can still become an object. -/
theorem opened (h : Growing around members s) : Opened around members s := by
  induction h with
  | whole hcontent => exact .whole hcontent
  | inner _ hcontent _ ih => exact .inner ih hcontent

/-- And it can be resumed at its depth. -/
theorem resumes (h : Growing around members s) : Resumes around.length s := by
  cases h with
  | whole _ hresumes => exact hresumes
  | inner _ _ hresumes => exact hresumes

/-- A member is added to the innermost object. -/
theorem add (h : Growing around members s) (hu : IsValueText value u) (key : List UInt8) :
    Growing around (members ++ [(key, value)]) (s ++ (keyText s key ++ u)) := by
  have hresumes := h.resumes.add hu key
  cases h with
  | whole hcontent => exact .whole (hcontent.add hu [] key) hresumes
  | @inner _ outer _ key' s t houter hcontent =>
    have hadd := hcontent.add hu (s ++ keyText s key') key
    rw [List.append_assoc] at hadd
    rw [List.append_assoc, List.append_assoc] at hresumes ⊢
    exact .inner houter hadd hresumes

/-- An object is opened. -/
theorem openObject (h : Growing around members s) (key : List UInt8) :
    Growing ((members, key) :: around) [] (s ++ (keyText s key ++ [123])) :=
  .inner h .none (h.resumes.open key)

/-- The innermost object is closed. -/
theorem close {outer : Members} (h : Growing ((outer, key) :: around) members s) :
    Growing around (outer ++ [(key, .obj members)]) (s ++ [125]) := by
  cases h with
  | inner houter hcontent =>
    rw [List.append_assoc, List.append_assoc]
    exact houter.add (isValueText_members hcontent) key

/-- What a call writes is no value, so that nothing comes of a key without one. -/
theorem no_value (h : Growing around members s) {c : UInt8} (hc : c = 44 ∨ c = 125) :
    ¬Denotes (s ++ (keyText s key ++ c :: x)) value := by
  rintro ⟨rest, hreads, -⟩
  obtain ⟨value', w, rest', hvalue, -, -⟩ := h.resumes.value_behind hreads
  exact hc.elim hvalue.value_ne_stop.1 hvalue.value_ne_stop.2

end Growing

/-! ### Unfinished texts -/

/-- Something is missing at the end of the object. -/
def Unfinished (s : List UInt8) : Prop :=
  (∃ t, s = 123 :: t) ∧ ∃ z members, z ≠ [] ∧ Reads .value (s ++ z) (.obj members) []

/-- An unfinished text is no value. -/
theorem Unfinished.not_denotes (h : Unfinished s) : ¬Denotes s value := by
  rintro ⟨rest, hreads, -⟩
  obtain ⟨⟨t, hbrace⟩, z, members, hz, hcomplete⟩ := h
  obtain ⟨members', rfl⟩ := hreads.of_brace (t := t) (by rw [hbrace]; rfl)
  have hnil := ((hreads.object_append z).unique hcomplete).2
  exact hz (List.append_eq_nil_iff.mp hnil).2

/-- An open object is unfinished. -/
theorem Opened.unfinished (h : Opened around members s) : Unfinished s := by
  obtain ⟨whole, closers, hclosers, hreads⟩ := h.completes
  exact ⟨h.brace, closers, whole, hclosers, hreads⟩

/-- So is a beginning of an unfinished text. -/
theorem Unfinished.of_append (h : Unfinished (s ++ x)) (hs : ∃ t, s = 123 :: t) : Unfinished s := by
  obtain ⟨-, z, members, hz, hreads⟩ := h
  rw [List.append_assoc] at hreads
  exact ⟨hs, x ++ z, members, fun hnil => hz (List.append_eq_nil_iff.mp hnil).2, hreads⟩

/-- A part of one more member. -/
theorem Opened.unfinished_part (h : Opened around members s) (hu : IsValueText value u)
    (key z : List UInt8) (hpart : x ++ z = keyText s key ++ u) : Unfinished (s ++ x) := by
  have hfull : Unfinished (s ++ x ++ z) := by
    rw [List.append_assoc, hpart]
    have hadd : Opened around (members ++ [(key, value)]) (s ++ (keyText s key ++ u)) := h.add hu
    exact hadd.unfinished
  obtain ⟨t, ht⟩ := h.brace
  exact hfull.of_append ⟨t ++ x, by rw [ht]; rfl⟩

/-! ### What is missing behind a string -/

/-- Whatever completes the text has as many bytes. -/
def Owes (n : ℕ) (s : List UInt8) : Prop :=
  ∀ y value rest, Reads .value (s ++ y) value rest → rest.length + n ≤ y.length

/-- A text that ends within a string, which more characters do not end. -/
def InString (n : ℕ) (s : List UInt8) : Prop :=
  ∀ y, (∀ c ∈ y, escapeSeq c = [c]) → Owes n (s ++ y)

/-- Plain characters need no escape. -/
theorem escaped_plain (hx : ∀ c ∈ x, escapeSeq c = [c]) (s : List UInt8) :
    escaped (s ++ x) = escaped s ++ x := by
  have hself : escaped x = x := by
    rw [escaped, List.flatMap_congr hx, List.flatMap_singleton']
  rw [escaped, List.flatMap_append]
  exact congrArg _ hself

/-- What ends a string that is cut open stands behind the cut. -/
theorem readString_cut {bytes rest : List UInt8} (h : readString (escaped s ++ x) = some (bytes, rest)) :
    rest.length < x.length := by
  induction s generalizing bytes with
  | nil => exact readString_length h
  | cons c s ih =>
    rw [escaped, List.flatMap_cons, List.append_assoc, readString_escapeSeq] at h
    obtain ⟨more, hmore, -⟩ := map_prepend h
    exact ih hmore

/-- The quote and the braces of the objects. -/
theorem Growing.owes_value (h : Growing around members s) (key v : List UInt8) :
    Owes (around.length + 2) (s ++ (keyText s key ++ 34 :: escaped v)) := by
  intro y value rest hreads
  rw [List.append_assoc, List.append_assoc] at hreads
  obtain ⟨value', w, rest', hvalue, hfollows, hle⟩ := h.resumes.value_behind hreads
  obtain ⟨bytes, hstring⟩ := hvalue.quote
  have hquote : w.length < y.length := readString_cut hstring
  have hbrace : rest'.length < w.length := hfollows.length_lt
  omega

/-- The quote, the colon, a value and the braces of the objects. -/
theorem Growing.owes_key (h : Growing around members s) (k : List UInt8) :
    Owes (around.length + 4) (s ++ (separator s ++ 34 :: escaped k)) := by
  intro y value rest hreads
  rw [List.append_assoc, List.append_assoc] at hreads
  obtain ⟨members', rest', hmembers, hle⟩ := h.resumes _ _ _ hreads
  obtain ⟨key, u, v, value', w, hkey, hcolon, hvalue, hfollows⟩ := hmembers.first_member
  have hquote : u.length < y.length := readString_cut hkey
  have hcolon' : v.length < u.length := skipBlanks_length hcolon
  have hsome : w.length < v.length := hvalue.length_lt
  have hbrace : rest'.length < w.length := hfollows.length_lt
  omega

/-- A value that is cut inside its string needs its quote and the braces. -/
theorem Growing.in_value (h : Growing around members s) (key v : List UInt8) :
    InString (around.length + 2) (s ++ (keyText s key ++ 34 :: escaped v)) := by
  intro y hy
  have howes := h.owes_value key (v ++ y)
  rw [escaped_plain hy, ← List.cons_append, ← List.append_assoc, ← List.append_assoc] at howes
  rwa [← List.append_assoc]

/-- A key that is cut needs its quote, a colon, a value and the braces. -/
theorem Growing.in_key (h : Growing around members s) (k : List UInt8) :
    InString (around.length + 4) (s ++ (separator s ++ 34 :: escaped k)) := by
  intro y hy
  have howes := h.owes_key (k ++ y)
  rw [escaped_plain hy, ← List.cons_append, ← List.append_assoc, ← List.append_assoc] at howes
  rwa [← List.append_assoc]

end Texts

/-! ### What is written later -/

/-- What any calls may have written behind a text, all of it or parts. -/
inductive Later (t : List UInt8) : List UInt8 → Prop
  | nil : Later t []
  | snoc {y : List UInt8} {before after : List (List UInt8)} {call : BuilderCall} : Later t y →
      call.pieces (t ++ y) = before ++ after → Later t (y ++ before.flatten)

section Writing

variable {json : CoreJson} {call : BuilderCall} {key s t u x y : List UInt8}
  {before after : List (List UInt8)} {value : Value} {members : Members}
  {around : List (Members × List UInt8)} {depth free n room : ℕ}

/-- There is a comma or there is none. -/
theorem separator_cases (s : List UInt8) : separator s = [] ∨ separator s = [44] := by
  unfold separator
  split_ifs
  · exact .inl rfl
  · exact .inr rfl

/-- What a call writes first. -/
theorem BuilderCall.pieces_cases (call : BuilderCall) (s : List UInt8) :
    call.pieces s = [[125]] ∨ ∃ rest, call.pieces s = separator s :: [34] :: rest := by
  cases call with
  | closeObject => exact .inl rfl
  | addBool key val => cases val <;> exact .inr ⟨_, rfl⟩
  | _ => exact .inr ⟨_, rfl⟩

/-- How the pieces of a call can begin. -/
theorem BuilderCall.pieces_start (h : call.pieces s = before ++ after) :
    before.flatten = [] ∨ (separator s = [] ∧ ∃ x, before.flatten = 34 :: x) ∨
      ∃ c x, (c = 44 ∨ c = 125) ∧ before.flatten = c :: x := by
  -- a closing brace is one piece; all others begin with the separator and a quote
  rcases call.pieces_cases s with hclose | ⟨rest, hkey⟩
  · rw [hclose] at h
    match before, h with
    | [], _ => exact .inl rfl
    | p :: before, h =>
      obtain ⟨rfl, -⟩ := List.cons.inj h
      exact .inr (.inr ⟨125, _, .inr rfl, rfl⟩)
  · rw [hkey] at h
    match before, h with
    | [], _ => exact .inl rfl
    | [p], h =>
      cases h
      rw [List.flatten_singleton]
      rcases separator_cases s with hsep | hsep
      · exact .inl hsep
      · exact .inr (.inr ⟨44, [], .inl rfl, hsep⟩)
    | p :: q :: before, h =>
      obtain ⟨hp, h⟩ := List.cons.inj h
      obtain ⟨hq, -⟩ := List.cons.inj h
      rw [← hp, ← hq, List.flatten_cons, List.flatten_cons]
      rcases separator_cases s with hsep | hsep
      · exact .inr (.inl ⟨hsep, _, by rw [hsep]; rfl⟩)
      · exact .inr (.inr ⟨44, _, .inl rfl, by rw [hsep]; rfl⟩)

/-- The first byte: the quote of a key that needs no comma, or one more character. -/
theorem Later.start (h : Later t y) :
    y = [] ∨ (separator t = [] ∧ ∃ x, y = 34 :: x) ∨
      ∃ c x, (c = 44 ∨ c = 125) ∧ y = c :: x := by
  induction h with
  | nil => exact .inl rfl
  | @snoc y before after call _ hpieces ih =>
    rcases ih with rfl | ⟨hsep, x, rfl⟩ | ⟨c, x, hc, rfl⟩
    · -- nothing has been written yet
      rw [List.append_nil] at hpieces
      exact BuilderCall.pieces_start hpieces
    · exact .inr (.inl ⟨hsep, _, rfl⟩)
    · exact .inr (.inr ⟨c, _, hc, rfl⟩)

/-- No text comes of it, whatever is written in the room that is left. -/
def Dead (room : ℕ) (t : List UInt8) : Prop :=
  ∀ y, Later t y → y.length ≤ room → ∀ value, ¬Denotes (t ++ y) value

/-- Without room an unfinished text stays so. -/
theorem dead_full (h : Unfinished t) : Dead 0 t := by
  intro y _ hlen value
  rw [List.length_eq_zero_iff.mp (Nat.le_zero.mp hlen), List.append_nil]
  exact h.not_denotes

/-- What is missing would have to fit, behind the comma of a key if it takes one. -/
theorem dead_in_string (h : InString n t) (hn : 0 < n)
    (hroom : room < (separator t).length + n) : Dead room t := by
  intro y hy hlen value hdenotes
  obtain ⟨rest, hreads, -⟩ := hdenotes
  have hnil := h [] (List.forall_mem_nil _)
  rw [List.append_nil] at hnil
  have howes := hnil y value rest hreads
  rcases hy.start with rfl | ⟨hsep, x, rfl⟩ | ⟨c, x, hc, rfl⟩
  · rw [List.length_nil] at howes
    omega
  · rw [hsep, List.length_nil] at hroom
    omega
  · -- a comma or a brace is in the string, and nothing of what is missing
    have hplain : ∀ d ∈ [c], escapeSeq d = [d] := by
      refine List.forall_mem_singleton.mpr ?_
      rcases hc with rfl | rfl <;> rfl
    rw [List.append_cons] at hreads
    have howes := h [c] hplain x value rest hreads
    have hsep : (separator t).length ≤ 1 := by
      rcases separator_cases t with hsep | hsep <;> rw [hsep] <;> decide
    rw [List.length_cons] at hlen
    omega

/-- A key without its value is dead: what comes next begins with a comma or a brace. -/
theorem Growing.dead_value (h : Growing around members s) (key : List UInt8) (room : ℕ) :
    Dead room (s ++ keyText s key) := by
  -- a comma is due behind the colon, and no value begins with one
  intro y hy _ value
  have hzero : IsValueText (.num (0 : ℤ)) (decimal 0) := isValueText_int 0
  have hsep : separator (s ++ keyText s key) = [44] := by
    refine separator_of_last (c := 58) ?_ nofun nofun
    have hlast : s ++ keyText s key =
        s ++ (separator s ++ 34 :: (escaped key ++ [34])) ++ [58] := by
      simp only [keyText, List.append_assoc, List.cons_append, List.nil_append]
    rw [hlast, List.getLast?_concat]
  rcases hy.start with rfl | ⟨hnone, -⟩ | ⟨c, x, hc, rfl⟩
  · rw [List.append_nil]
    exact (h.opened.unfinished_part hzero key _ rfl).not_denotes
  · cases hsep.symm.trans hnone
  · rw [List.append_assoc]
    exact h.no_value hc

/-! ### Where a call stops -/

/-- What is missing behind a string that a call has cut open: its quote and the braces of the objects
that are open, and behind a key a colon and a value. Only `addString` has a string for its value. -/
def BuilderCall.missing (depth : ℕ) (s done : List UInt8) : BuilderCall → ℕ
  | .addString key _ _ => if (keyText s key).length ≤ done.length then depth + 1 else depth + 3
  | _ => depth + 3

/-- The room that later calls need to complete a text that was cut open in a string: what is missing,
and the comma of a key, which stands in the string. -/
def BuilderCall.closingRoom (depth : ℕ) (s done : List UInt8) (call : BuilderCall) : ℕ :=
  (separator (s ++ done)).length + call.missing depth s done

/-- The call stops at an escape, and leaves as much room as later calls need. -/
def BuilderCall.Maskable (depth free : ℕ) (s : List UInt8) (call : BuilderCall) : Prop :=
  ∃ done c, stop free (call.pieces s) = some (done, escapeSeq c) ∧
    call.closingRoom depth s done ≤ free - done.length

/-- Where a piece of two lists stands. -/
theorem append_split {α : Type} {xs ys before after : List α} {p : α}
    (h : xs ++ ys = before ++ p :: after) :
    (∃ l, xs = before ++ p :: l) ∨ ∃ l, before = xs ++ l ∧ ys = l ++ p :: after := by
  rcases List.append_eq_append_iff.mp h with ⟨l, rfl, rfl⟩ | ⟨l, rfl, hl⟩
  · exact .inr ⟨l, rfl, rfl⟩
  · cases l with
    | nil => exact .inr ⟨[], by rw [List.append_nil, List.append_nil], hl.symm⟩
    | cons q l =>
      obtain ⟨rfl, -⟩ := List.cons.inj hl
      exact .inl ⟨l, rfl⟩

/-- A stop within an escaped string or at its end. -/
theorem escapes_split {p last : List UInt8} (h : s.map escapeSeq ++ [last] = before ++ p :: after) :
    (∃ (k : List UInt8) (c : UInt8), before = k.map escapeSeq ∧ p = escapeSeq c) ∨
      before = s.map escapeSeq ∧ p = last := by
  rcases append_split h with ⟨l, hl⟩ | ⟨l, rfl, hl⟩
  · obtain ⟨k, rest, -, rfl, hrest⟩ := List.map_eq_append_iff.mp hl
    obtain ⟨c, -, -, hc, -⟩ := List.map_eq_cons_iff.mp hrest
    exact .inl ⟨k, c, rfl, hc.symm⟩
  · cases l with
    | nil =>
      obtain ⟨rfl, -⟩ := List.cons.inj hl
      exact .inr ⟨List.append_nil _, rfl⟩
    | cons q l =>
      obtain ⟨-, hl⟩ := List.cons.inj hl
      cases l <;> cases hl

/-- How much room is left when a call stops at `p`, behind which so much is missing. -/
structure Stopped (free n : ℕ) (s done p : List UInt8) : Prop where
  lt : free - done.length < p.length
  room : ∀ c, p = escapeSeq c → free - done.length < (separator (s ++ done)).length + n

/-- A piece of one character did not fit, so there is no room at all. -/
theorem Stopped.dead_full {done p : List UInt8} (h : Stopped free n s done p) (hp : p.length ≤ 1)
    (hunfinished : Unfinished (s ++ done)) : Dead (free - done.length) (s ++ done) := by
  have hzero : free - done.length = 0 := by
    have := h.lt
    omega
  rw [hzero]
  exact TrustSdk.Json.dead_full hunfinished

/-- An escape did not fit, so the quote and what it needs do not fit either. -/
theorem Stopped.dead_in_string {done p : List UInt8} (h : Stopped free n s done p)
    (hin : InString n (s ++ done)) (htwo : 2 ≤ n)
    (hp : (∃ c, p = escapeSeq c) ∨ p.length ≤ 2) : Dead (free - done.length) (s ++ done) := by
  refine TrustSdk.Json.dead_in_string hin (two_pos.trans_le htwo) ?_
  rcases hp with ⟨c, hc⟩ | hp
  · exact h.room c hc
  · have hlt := h.lt
    omega

/-- Wherever a call stops in its key, nothing comes of the text. -/
theorem Growing.dead_key (h : Growing around members s) {p : List UInt8}
    (hkey : keyPieces s key = before ++ p :: after)
    (hstop : Stopped free (around.length + 4) s before.flatten p) :
    Dead (free - before.flatten.length) (s ++ before.flatten) := by
  have hzero : IsValueText (.num (0 : ℤ)) (decimal 0) := isValueText_int 0
  -- stopped before the separator, before the quote, or inside the key
  match before, hkey with
  -- Nothing was written: the separator did not fit.
  | [], hkey =>
    obtain ⟨rfl, -⟩ := List.cons.inj hkey
    refine hstop.dead_full ?_ ?_
    · rcases separator_cases s with hsep | hsep <;> rw [hsep] <;> decide
    · rw [List.flatten_nil, List.append_nil]
      exact h.opened.unfinished
  -- Behind the separator: a key would have to follow.
  | [q], hkey =>
    obtain ⟨rfl, hquote⟩ := List.cons.inj hkey
    obtain ⟨rfl, -⟩ := List.cons.inj hquote
    refine hstop.dead_full le_rfl ?_
    rw [List.flatten_singleton]
    refine h.opened.unfinished_part hzero []
      (34 :: (escaped [] ++ [34, 58]) ++ decimal 0) ?_
    rw [keyText, List.append_assoc]
  -- Behind the quote, inside the key or at its end.
  | q :: r :: before, hkey =>
    obtain ⟨rfl, hquote⟩ := List.cons.inj hkey
    obtain ⟨rfl, hescapes⟩ := List.cons.inj hquote
    have hdone (k : List UInt8) : (separator s :: [34] :: k.map escapeSeq).flatten =
        separator s ++ 34 :: escaped k := by
      rw [List.flatten_cons, List.flatten_cons, flatten_escapeSeq]
      rfl
    -- The piece that did not fit is a character of the key, or the quote that ends it.
    rcases escapes_split hescapes with ⟨k, c, rfl, hp⟩ | ⟨rfl, rfl⟩
    · refine hstop.dead_in_string ?_ (Nat.le_add_left 2 _) (.inl ⟨c, hp⟩)
      rw [hdone]
      exact h.in_key k
    · refine hstop.dead_in_string ?_ (Nat.le_add_left 2 _) (.inr le_rfl)
      rw [hdone]
      exact h.in_key key

/-- A stop within the key is one before its end. -/
theorem Stopped.within {p : List UInt8} {pieces : List (List UInt8)}
    (h : Stopped free n s before.flatten p) (hsplit : pieces = before ++ p :: after) :
    before.flatten.length < pieces.flatten.length := by
  have hlt := h.lt
  rw [hsplit, List.flatten_append, List.length_append, List.flatten_cons, List.length_append]
  omega

/-- Wherever a call stops, nothing comes of the text. -/
theorem Growing.dead (h : Growing around members s) {p : List UInt8}
    (hpieces : call.pieces s = before ++ p :: after)
    (hstop : Stopped free (call.missing (around.length + 1) s before.flatten) s before.flatten p) :
    Dead (free - before.flatten.length) (s ++ before.flatten) := by
  -- behind the key, at a value that is a single write
  have hsingle {key val : List UInt8} (hsplit : keyPieces s key ++ [val] = before ++ p :: after)
      (hstop : Stopped free (around.length + 4) s before.flatten p) :
      Dead (free - before.flatten.length) (s ++ before.flatten) := by
    -- It stopped inside the key, or the value did not fit.
    rcases append_split hsplit with ⟨l, hl⟩ | ⟨l, rfl, hl⟩
    · exact h.dead_key hl hstop
    · cases l with
      | nil =>
        rw [List.append_nil, keyPieces_flatten]
        exact h.dead_value key _
      | cons q l =>
        obtain ⟨-, hl⟩ := List.cons.inj hl
        cases l <;> cases hl
  cases call with
  | addString key val valLen =>
    rw [BuilderCall.missing] at hstop
    -- A string is the one value of several pieces.
    rcases append_split hpieces with ⟨l, hl⟩ | ⟨l, rfl, hl⟩
    · have hwithin := hstop.within hl
      rw [keyPieces_flatten] at hwithin
      -- Stopped within the key.
      rw [if_neg hwithin.not_ge] at hstop
      exact h.dead_key hl hstop
    · cases l with
      | nil =>
        rw [List.append_nil, keyPieces_flatten]
        exact h.dead_value key _
      -- Stopped at the quote that opens the value, or behind it.
      | cons q l =>
        obtain ⟨rfl, hescapes⟩ := List.cons.inj hl
        have hdone (k : List UInt8) : (keyPieces s key ++ [34] :: k.map escapeSeq).flatten =
            keyText s key ++ 34 :: escaped k := by
          rw [List.flatten_append, keyPieces_flatten, List.flatten_cons, flatten_escapeSeq]
          rfl
        have hbehind : (keyText s key).length ≤ (keyPieces s key ++ [34] :: l).flatten.length := by
          rw [List.flatten_append, keyPieces_flatten, List.length_append]
          exact Nat.le_add_right _ _
        rw [if_pos hbehind] at hstop
        rcases escapes_split hescapes with ⟨k, c, rfl, hp⟩ | ⟨rfl, rfl⟩
        · refine hstop.dead_in_string ?_ (Nat.le_add_left 2 _) (.inl ⟨c, hp⟩)
          rw [hdone]
          exact h.in_value key k
        · refine hstop.dead_in_string ?_ (Nat.le_add_left 2 _) (.inr (Nat.le_succ 1))
          rw [hdone]
          exact h.in_value key val
  -- The other values are single writes behind their key.
  | addInt key val => exact hsingle hpieces hstop
  | addBool key val =>
    cases val with
    | true => exact hsingle hpieces hstop
    | false => exact hsingle hpieces hstop
  | addObject key objJson => exact hsingle hpieces hstop
  | openObject key => exact hsingle hpieces hstop
  -- The brace did not fit, so the object stays open.
  | closeObject =>
    cases before with
    | nil =>
      obtain ⟨rfl, -⟩ := List.cons.inj hpieces
      refine hstop.dead_full le_rfl ?_
      rw [List.flatten_nil, List.append_nil]
      exact h.opened.unfinished
    | cons q before =>
      obtain ⟨-, hrest⟩ := List.cons.inj hpieces
      cases before <;> cases hrest

end Writing

/-! ### Any calls, whatever they answer -/

/-- A builder, and how many objects are open in it. Once the whole object is closed, it stays so. -/
structure Building where
  builder : Builder
  depth : ℕ

/-- How many objects are open after a call. -/
def BuilderCall.depth (depth : ℕ) : BuilderCall → ℕ
  | .openObject _ => if depth = 0 then 0 else depth + 1
  | .closeObject => depth - 1
  | _ => depth

/-- A call, with the depth it leaves when it goes well. -/
def Building.step (json : CoreJson) (s : Building) (call : BuilderCall) :
    Except Err Unit × Building :=
  match call.exec json s.builder with
  | (.error e, builder) => (.error e, { s with builder })
  | (.ok _, builder) => (.ok (), ⟨builder, call.depth s.depth⟩)

/-- The first call that finds too little room, if there is one, meets a condition. -/
def FirstOverflow (json : CoreJson) (P : Building → BuilderCall → Prop) :
    List BuilderCall → Building → Prop
  | [], _ => True
  | call :: calls, s =>
    ((s.step json call).1 = .error (jsonErr .bufTooSmall) → P s call) ∧
      ((s.step json call).1 ≠ .error (jsonErr .bufTooSmall) →
        FirstOverflow json P calls (s.step json call).2)

/-- As long as no call has found too little room. -/
structure Building.Honest (s : Building) : Prop where
  room : s.builder.len < s.builder.cap
  growing : s.depth ≠ 0 →
    ∃ around members, Growing around members s.builder.text ∧ s.depth = around.length + 1

/-- Nothing comes of the text, whatever is called. -/
def Doomed (b : Builder) : Prop :=
  b.len < b.cap ∧ ∃ t y, b.text = t ++ y ∧ Later t y ∧ Dead (b.cap - 1 - t.length) t

section Runs

variable {json : CoreJson} {s : Building} {call : BuilderCall} {calls : List BuilderCall}
  {b b' : Builder} {value : Value}

/-- A doomed text is no value. -/
theorem Doomed.not_denotes (h : Doomed b) : ¬Denotes b.text value := by
  obtain ⟨hroom, t, y, htext, hlater, hdead⟩ := h
  have hlen := congrArg List.length htext
  rw [text_length, List.length_append] at hlen
  rw [htext]
  exact hdead y hlater (by omega) value

/-- Whatever more is written, it stays doomed. -/
theorem Doomed.grew (h : Doomed b) (call : BuilderCall) (before after : List (List UInt8))
    (hpieces : call.pieces b.text = before ++ after) (hgrew : Grew b before.flatten b') :
    Doomed b' := by
  obtain ⟨hroom, t, y, htext, hlater, hdead⟩ := h
  rw [htext] at hpieces
  refine ⟨hgrew.room hroom, t, y ++ before.flatten, ?_, hlater.snoc hpieces, ?_⟩
  · rw [hgrew.text, htext, List.append_assoc]
  · rwa [hgrew.cap]

/-- A call keeps it doomed. -/
theorem Doomed.step (h : Doomed s.builder) (call : BuilderCall) :
    Doomed (s.step json call).2.builder := by
  rcases BuilderCall.exec_cases json call h.1 with
    ⟨-, hrefused⟩ | ⟨-, b', hok, hgrew⟩ | ⟨-, done, p, hstop, b', herr, hgrew⟩
  · rw [Building.step, hrefused]
    exact h
  · rw [Building.step, hok]
    rw [← BuilderCall.pieces_flatten] at hgrew
    exact h.grew call _ [] (List.append_nil _).symm hgrew
  · obtain ⟨before, after, hsplit, hdone, -⟩ := stop_split hstop
    rw [Building.step, herr]
    rw [hdone] at hgrew
    exact h.grew call _ _ hsplit hgrew

/-- So does any number of calls. -/
theorem Doomed.run (h : Doomed s.builder) (json : CoreJson) (calls : List BuilderCall) :
    Doomed (run (Building.step json) calls s).2.builder := by
  induction calls generalizing s with
  | nil => exact h
  | cons call calls ih => exact ih (h.step call)

/-- `actrust_json_builder_finish` refuses a doomed text. -/
theorem Doomed.finish (hdenotes : ∀ t, json.validate t = true → ∃ value, Denotes t value)
    (h : Doomed b) (b' : Builder) : actrustJsonBuilderFinish json b ≠ .ok b' := by
  intro hfinish
  obtain ⟨hvalid, hlast⟩ := actrustJsonBuilderFinish_ok hfinish
  obtain ⟨value, hvalue⟩ := hdenotes b'.text hvalid
  -- finish takes the text as it is, or closes it with one brace; both are no value
  rcases hlast with rfl | hwrite
  · exact h.not_denotes hvalue
  · have hwrote := jsonBuilderWrite_ok hwrite
    have hfits : b.len + 1 < b.cap := by
      have hroom := (hwrote.terminated nofun).1
      have hlen := congrArg List.length hwrote.text
      rw [text_length, List.length_append, text_length, List.length_singleton] at hlen
      rw [hwrote.cap] at hroom
      omega
    have hgrew : Grew b [125] (b.append [125]) := grew_append hfits
    have hdoomed : Doomed (b.append [125]) :=
      h.grew .closeObject [[125]] [] rfl hgrew
    rw [hwrote.text, ← hgrew.text] at hvalue
    exact hdoomed.not_denotes hvalue

/-- A step without an overflow keeps the text honest. -/
theorem Building.Honest.step (hdenotes : ∀ t, json.validate t = true → ∃ value, Denotes t value)
    (h : s.Honest) (hfits : (s.step json call).1 ≠ .error (jsonErr .bufTooSmall)) :
    (s.step json call).2.Honest := by
  -- the call was refused, or wrote everything; an overflow is excluded
  rcases BuilderCall.exec_cases json call h.room with
    ⟨-, hrefused⟩ | ⟨hadmitted, b', hok, hgrew⟩ | ⟨-, done, p, -, b', herr, -⟩
  · -- Refused: nothing changed.
    rw [Building.step, hrefused]
    exact h
  · rw [Building.step, hok]
    refine ⟨hgrew.room h.room, fun hdepth => ?_⟩
    have hopen : s.depth ≠ 0 := by
      intro hzero
      rw [hzero] at hdepth
      cases call <;> exact hdepth rfl
    obtain ⟨around, members, hgrowing, heq⟩ := h.growing hopen
    show ∃ around members, Growing around members b'.text ∧
      call.depth s.depth = around.length + 1
    rw [hgrew.text]
    -- Each call adds its member, or opens or closes an object.
    cases call with
    | addString key val valLen => exact ⟨_, _, hgrowing.add (isValueText_string val) key, heq⟩
    | addInt key val => exact ⟨_, _, hgrowing.add (isValueText_int _) key, heq⟩
    | addBool key val =>
      cases val with
      | true => exact ⟨_, _, hgrowing.add isValueText_true key, heq⟩
      | false => exact ⟨_, _, hgrowing.add isValueText_false key, heq⟩
    | addObject key objJson =>
      obtain ⟨value, hvalue⟩ := hdenotes objJson hadmitted.2.1
      exact ⟨_, _, hgrowing.add (isValueText_object hadmitted.2.2 hvalue) key, heq⟩
    | openObject key =>
      refine ⟨_, _, hgrowing.openObject key, ?_⟩
      rw [BuilderCall.depth, if_neg hopen, heq]
      rfl
    | closeObject =>
      cases around with
      | nil =>
        rw [List.length_nil] at heq
        exact absurd (show s.depth - 1 = 0 by omega) hdepth
      | cons frame around =>
        refine ⟨around, _, hgrowing.close, ?_⟩
        rw [List.length_cons] at heq
        exact congrArg (· - 1) heq
  · rw [Building.step, herr] at hfits
    exact absurd rfl hfits

/-- The first call that finds too little room dooms the text, unless later calls can end its
string. -/
theorem Building.Honest.overflow (h : s.Honest) (hopen : s.depth ≠ 0)
    (hfull : (s.step json call).1 = .error (jsonErr .bufTooSmall))
    (hmask : ¬call.Maskable s.depth s.builder.free s.builder.text) :
    Doomed (s.step json call).2.builder := by
  rcases BuilderCall.exec_cases json call h.room with
    -- refused or gone well it is no overflow; otherwise the pieces up to the one that did not fit
    -- are in the buffer
    ⟨-, hrefused⟩ | ⟨-, b', hok, -⟩ | ⟨-, done, p, hstop, b', herr, hgrew⟩
  · rw [Building.step, hrefused] at hfull
    cases hfull
  · rw [Building.step, hok] at hfull
    cases hfull
  · rw [Building.step, herr]
    -- the objects that are open are known, and so is what the text at the stop still needs
    obtain ⟨around, members, hgrowing, hdepth⟩ := h.growing hopen
    obtain ⟨before, after, hsplit, rfl, hle, hlt⟩ := stop_split hstop
    have hfree : s.builder.free = s.builder.cap - s.builder.len - 1 := rfl
    have hstopped : Stopped s.builder.free
        (call.missing (around.length + 1) s.builder.text before.flatten) s.builder.text
        before.flatten p := by
      rw [← hdepth]
      refine ⟨by omega, fun c hc => not_le.mp fun hroom => hmask ⟨_, c, ?_, hroom⟩⟩
      rw [hstop, hc]
    have hdead := hgrowing.dead hsplit hstopped
    refine ⟨hgrew.room h.room, s.builder.text ++ before.flatten, [], ?_, .nil, ?_⟩
    · rw [hgrew.text, List.append_nil]
    · have hroom : b'.cap - 1 - (s.builder.text ++ before.flatten).length =
          s.builder.free - before.flatten.length := by
        rw [hgrew.cap, List.length_append, text_length, hfree]
        omega
      show Dead (b'.cap - 1 - (s.builder.text ++ before.flatten).length) _
      rwa [hroom]

/-- With nothing open a call leaves nothing open. -/
theorem Building.step_closed (h : s.depth = 0) : (s.step json call).2.depth = 0 := by
  unfold Building.step
  split
  · exact h
  · show call.depth s.depth = 0
    rw [h]
    cases call <;> rfl

/-- So does any number of calls. -/
theorem Building.run_closed (h : s.depth = 0) (calls : List BuilderCall) :
    (run (Building.step json) calls s).2.depth = 0 := by
  induction calls generalizing s with
  | nil => exact h
  | cons call calls ih => exact ih (Building.step_closed h)

/-- Before the first overflow the text is honest, at it it becomes doomed. -/
theorem Building.Honest.run (hdenotes : ∀ t, json.validate t = true → ∃ value, Denotes t value)
    (h : s.Honest) (hfirst : FirstOverflow json
      (fun s call => ¬call.Maskable s.depth s.builder.free s.builder.text) (calls ++ [call]) s)
    (hopen : (run (Building.step json) calls s).2.depth ≠ 0)
    (hfull : ((run (Building.step json) calls s).2.step json call).1 =
      .error (jsonErr .bufTooSmall)) :
    Doomed ((run (Building.step json) calls s).2.step json call).2.builder := by
  induction calls generalizing s with
  | nil => exact h.overflow hopen hfull (hfirst.1 hfull)
  | cons first calls ih =>
    by_cases hover : (s.step json first).1 = .error (jsonErr .bufTooSmall)
    · have hdepth : s.depth ≠ 0 := fun hclosed => hopen (Building.run_closed hclosed _)
      exact ((h.overflow hdepth hover (hfirst.1 hover)).run json calls).step call
    · exact ih (h.step hdenotes hover) (hfirst.2 hover) hopen hfull

end Runs

/-- The builder starts honest. -/
theorem actrustJsonBuilderInit_honest {buf : ℕ → UInt8} {cap : ℕ} {b₀ : Builder}
    (h : actrustJsonBuilderInit buf cap = .ok b₀) : (Building.mk b₀ 1).Honest := by
  unfold actrustJsonBuilderInit at h
  split_ifs at h with hcap
  have hwrote := jsonBuilderWrite_ok h
  obtain ⟨hroom, -⟩ := hwrote.terminated nofun
  refine ⟨hroom, fun _ => ⟨[], [], ?_, rfl⟩⟩
  have htext : b₀.text = [123] := hwrote.text
  rw [htext]
  exact .whole .none resumes_brace

/-- Once a call has found too little room in an open object, no further calls make `finish` succeed,
unless the first of the calls that did has left enough room for all that is missing behind the string
that it stopped in. -/
theorem overflow_not_masked {json : CoreJson} {limit : ℕ∞}
    (hvalidate : ∀ t, json.validate t = true ↔ IsText limit t) {buf : ℕ → UInt8} {cap : ℕ}
    {b₀ : Builder} (hinit : actrustJsonBuilderInit buf cap = .ok b₀)
    (before after : List BuilderCall) (call : BuilderCall)
    (hfirst : FirstOverflow json (fun s call => ¬call.Maskable s.depth s.builder.free s.builder.text) (before ++ [call])
      ⟨b₀, 1⟩)
    (hopen : (run (Building.step json) before ⟨b₀, 1⟩).2.depth ≠ 0)
    (hfull : ((run (Building.step json) before ⟨b₀, 1⟩).2.step json call).1 =
      .error (jsonErr .bufTooSmall)) (b' : Builder) :
    actrustJsonBuilderFinish json
      (run (Building.step json) (before ++ call :: after) ⟨b₀, 1⟩).2.builder ≠ .ok b' := by
  have hdenotes : ∀ t, json.validate t = true → ∃ value, Denotes t value := by
    intro t ht
    obtain ⟨-, value, hvalue, -⟩ := (hvalidate t).mp ht
    exact ⟨value, hvalue⟩
  have hdoomed :=
    ((actrustJsonBuilderInit_honest hinit).run hdenotes hfirst hopen hfull).run json after
  rw [run_append]
  exact hdoomed.finish hdenotes b'

/-- A buffer of six bytes, in which a key is cut open: three are left, and five would be missing. -/
theorem overflow_not_masked_tiny :
    let b₀ := (Builder.mk (fun _ => 7) 6 0).append [123]
    ((Building.mk b₀ 1).step (.ofTexts 32) (.addString [1] [118] 1)).1 =
        .error (jsonErr .bufTooSmall) ∧
      ∀ b', actrustJsonBuilderFinish (.ofTexts 32)
        (run (Building.step (.ofTexts 32)) ([] ++ .addString [1] [118] 1 :: [.addBool [125] true])
          ⟨b₀, 1⟩).2.builder ≠ .ok b' := by
  -- the escape of the control character needs six bytes, and no shorter member fits behind the
  -- quote
  have hmask : ¬(BuilderCall.addString [1] [118] 1).Maskable 1 4 [123] := by
    rintro ⟨done, c, hstop, hroom⟩
    have hdone : done = [34] := by
      have hstop' : stop 4 ((BuilderCall.addString [1] [118] 1).pieces [123]) =
          some ([34], escapeSeq 1) := rfl
      exact (Prod.mk.inj (Option.some.inj (hstop.symm.trans hstop'))).1
    rw [hdone] at hroom
    exact absurd hroom (by decide)
  exact ⟨rfl, @overflow_not_masked _ _ (CoreJson.ofTexts_validate 32) (fun _ => 7) 6 _ rfl
    [] [.addBool [125] true] _ ⟨fun _ => hmask, fun _ => trivial⟩ Nat.one_ne_zero rfl⟩

/-- The value stops at its control character, three bytes before the end; a comma and a quote of the
next call still fit, and so does the closing brace. -/
theorem overflow_masked :
    ¬∀ (json : CoreJson) (limit : ℕ∞), (∀ t, json.validate t = true ↔ IsText limit t) →
      ∀ (buf : ℕ → UInt8) (cap : ℕ) (b₀ : Builder), actrustJsonBuilderInit buf cap = .ok b₀ →
      ∀ (before after : List BuilderCall) (call : BuilderCall),
        (run (Building.step json) before ⟨b₀, 1⟩).2.depth ≠ 0 →
        ((run (Building.step json) before ⟨b₀, 1⟩).2.step json call).1 =
          .error (jsonErr .bufTooSmall) →
        ∀ b', actrustJsonBuilderFinish json
          (run (Building.step json) (before ++ call :: after) ⟨b₀, 1⟩).2.builder ≠ .ok b' := by
  -- An escaped control character does not fit where two plain ones did.
  intro h
  -- the first string stops after two characters, the second call closes it with its comma and quote
  let b₀ := (Builder.mk (fun _ => 7) 12 0).append [123]
  let b₁ := (((((b₀.append [34]).append [107]).append [34, 58]).append [34]).append [118]).append
    [118]
  let b₂ := (b₁.append [44]).append [34]
  let json := CoreJson.ofTexts 32
  have hinit : actrustJsonBuilderInit (fun _ => 7) 12 = .ok b₀ := rfl
  have hfirst : (Building.mk b₀ 1).step json (.addString [107] [118, 118, 1] 3) =
      (.error (jsonErr .bufTooSmall), ⟨b₁, 1⟩) := rfl
  have hsecond : (Building.mk b₁ 1).step json (.addString [1] [] 0) =
      (.error (jsonErr .bufTooSmall), ⟨b₂, 1⟩) := rfl
  have hrun : (run (Building.step json) ([] ++ BuilderCall.addString [107] [118, 118, 1] 3 ::
      [.addString [1] [] 0]) ⟨b₀, 1⟩).2.builder = b₂ := by
    rw [List.nil_append, run_cons, hfirst, run_cons, hsecond]
    rfl
  -- What is left in the buffer reads as a member whose value is `vv,`.
  have hvalid : json.validate (b₂.append [125]).text = true := by
    have htext : (b₂.append [125]).text = [123, 34, 107, 34, 58, 34, 118, 118, 44, 34, 125] := by
      decide +kernel
    rw [CoreJson.ofTexts_validate, htext]
    refine ⟨isUtf8_ascii (forall_mem_of_all rfl), .obj [([107], .str [118, 118, 44])],
      ⟨[], ?_, rfl⟩, ?_⟩
    · exact .object rfl (.lastMember rfl rfl rfl (.scalar rfl) rfl)
    · exact Nat.cast_le.mpr (show 1 ≤ 32 by decide)
  have hfinish : ∃ b', actrustJsonBuilderFinish json b₂ = .ok b' := by
    have hwrite : jsonBuilderWriteChar b₂ 125 = .ok (b₂.append [125]) := rfl
    unfold actrustJsonBuilderFinish
    split
    · exact ⟨b₂, rfl⟩
    · rw [hwrite]
      exact ⟨_, if_pos hvalid⟩
  obtain ⟨b', hfinish⟩ := hfinish
  refine h json 32 (CoreJson.ofTexts_validate 32) _ 12 b₀ hinit [] [.addString [1] [] 0]
    (.addString [107] [118, 118, 1] 3) Nat.one_ne_zero ?_ b' ?_
  · exact congrArg Prod.fst hfirst
  · rw [hrun]
    exact hfinish

end TrustSdk.Json
