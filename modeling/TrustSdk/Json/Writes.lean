import TrustSdk.Json.Builder

/-!
# What a failed call leaves in the buffer

The builder once more, with the state that a failed call leaves behind: each function answers and
goes on, and what has been written before the failure stays. A call is a sequence of writes
(`BuilderCall.exec_eq`), of which as many are done as there is room for (`writeAll_cases`), and
nothing is written behind the buffer. Calls that succeed are those of `BuilderCall.run`.
-/

namespace TrustSdk.Json

open JsonText

/-- A step of the builder that keeps what it has written when it fails. -/
abbrev Write := Builder → Except Err Unit × Builder

namespace Write

/-- Nothing to write. -/
def done : Write := fun b => (.ok (), b)

/-- The second part is left out when the first one fails. -/
def andThen (w w' : Write) : Write := fun b =>
  match w b with
  | (.error e, b) => (.error e, b)
  | (.ok _, b) => w' b

/-- The builder of a call that succeeds. -/
def result (w : Write) (b : Builder) : Except Err Builder :=
  match w b with
  | (.error e, _) => .error e
  | (.ok _, b) => .ok b

/-- The answers of two steps. -/
theorem result_bind {w w' : Write} {b : Builder} {x : Except Err Builder}
    {f : Builder → Except Err Builder} (h : w.result b = x) (h' : ∀ b, w'.result b = f b) :
    (w.andThen w').result b = x >>= f := by
  rw [← h, ← funext h']
  unfold result andThen
  rcases w b with ⟨_ | _, b'⟩ <;> rfl

end Write

/-! ### The functions, with their state -/

namespace Stateful

/-- `json_builder_write`, with the buffer it leaves also when it fails. -/
def jsonBuilderWrite (data : List UInt8) : Write := fun b =>
  if b.cap = 0 then (.error (jsonErr .invalidArg), b)
  else if data.length = 0 then (.ok (), b)
  else if data.length + 1 > b.remainingCap then (.error (jsonErr .bufTooSmall), b)
  else (.ok (), b.append data)

/-- `json_builder_write_char` -/
def jsonBuilderWriteChar (c : UInt8) : Write := jsonBuilderWrite [c]

/-- `json_builder_append_escaped_len` -/
def jsonBuilderAppendEscapedLen : List UInt8 → Write
  | [] => .done
  | p :: s => (jsonBuilderWrite (escapeSeq p)).andThen (jsonBuilderAppendEscapedLen s)

/-- `json_builder_append_comma` -/
def jsonBuilderAppendComma : Write := fun b =>
  if b.len > 0 ∧ b.buf (b.len - 1) ≠ 123 ∧ b.buf (b.len - 1) ≠ 91 then jsonBuilderWriteChar 44 b
  else (.ok (), b)

/-- `json_builder_append_key` -/
def jsonBuilderAppendKey (key : List UInt8) : Write :=
  jsonBuilderAppendComma.andThen <| (jsonBuilderWriteChar 34).andThen <|
    (jsonBuilderAppendEscapedLen key).andThen <| jsonBuilderWrite [34, 58]

/-- `actrust_json_builder_add_string` -/
def actrustJsonBuilderAddString (key val : List UInt8) (valLen : ℕ) : Write := fun b =>
  if val.length ≠ valLen then (.error (jsonErr .invalidArg), b)
  else
    (jsonBuilderAppendKey key).andThen
      ((jsonBuilderWriteChar 34).andThen
        ((jsonBuilderAppendEscapedLen val).andThen (jsonBuilderWriteChar 34))) b

/-- `actrust_json_builder_add_object` -/
def actrustJsonBuilderAddObject (json : CoreJson) (key objJson : List UInt8) : Write := fun b =>
  if objJson.length = 0 then (.error (jsonErr .invalidArg), b)
  else if json.validate objJson = false then (.error (jsonErr .invalidArg), b)
  else if jsonIsObjectText objJson = false then (.error (jsonErr .invalidArg), b)
  else (jsonBuilderAppendKey key).andThen (jsonBuilderWrite objJson) b

/-- `actrust_json_builder_open_object` -/
def actrustJsonBuilderOpenObject (key : List UInt8) : Write :=
  (jsonBuilderAppendKey key).andThen (jsonBuilderWriteChar 123)

/-- `actrust_json_builder_close_object` -/
def actrustJsonBuilderCloseObject : Write := jsonBuilderWriteChar 125

/-- `actrust_json_builder_add_int` -/
def actrustJsonBuilderAddInt (key : List UInt8) (val : Int64) : Write :=
  (jsonBuilderAppendKey key).andThen fun b =>
    if (decimal val.toInt).length ≥ 32 then (.error (jsonErr .hwFailure), b)
    else jsonBuilderWrite (decimal val.toInt) b

/-- `actrust_json_builder_add_bool` -/
def actrustJsonBuilderAddBool (key : List UInt8) (val : Bool) : Write :=
  (jsonBuilderAppendKey key).andThen
    (if val then jsonBuilderWrite [116, 114, 117, 101]
    else jsonBuilderWrite [102, 97, 108, 115, 101])

end Stateful

/-- A call with the buffer it leaves. -/
def BuilderCall.exec (json : CoreJson) : BuilderCall → Write
  | .addString key val valLen => Stateful.actrustJsonBuilderAddString key val valLen
  | .addInt key val => Stateful.actrustJsonBuilderAddInt key val
  | .addBool key val => Stateful.actrustJsonBuilderAddBool key val
  | .addObject key objJson => Stateful.actrustJsonBuilderAddObject json key objJson
  | .openObject key => Stateful.actrustJsonBuilderOpenObject key
  | .closeObject => Stateful.actrustJsonBuilderCloseObject

section Result

variable {json : CoreJson} {b b' : Builder} {s : List UInt8}

/-- Without the buffer it is the write of before. -/
theorem write_result (data : List UInt8) (b : Builder) :
    (Stateful.jsonBuilderWrite data).result b = jsonBuilderWrite b data := by
  unfold Write.result Stateful.jsonBuilderWrite jsonBuilderWrite
  split_ifs <;> rfl

/-- So for a character. -/
theorem writeChar_result (c : UInt8) (b : Builder) :
    (Stateful.jsonBuilderWriteChar c).result b = jsonBuilderWriteChar b c := write_result [c] b

/-- So for an escaped string. -/
theorem appendEscapedLen_result (s : List UInt8) (b : Builder) :
    (Stateful.jsonBuilderAppendEscapedLen s).result b = jsonBuilderAppendEscapedLen b s := by
  induction s generalizing b with
  | nil => rfl
  | cons p s ih =>
    exact Write.result_bind (write_result _ b) ih

/-- So for a comma. -/
theorem appendComma_result (b : Builder) :
    Stateful.jsonBuilderAppendComma.result b = jsonBuilderAppendComma b := by
  rw [Write.result, Stateful.jsonBuilderAppendComma, jsonBuilderAppendComma]
  split_ifs
  · exact writeChar_result 44 b
  · rfl

/-- So for a key. -/
theorem appendKey_result (key : List UInt8) (b : Builder) :
    (Stateful.jsonBuilderAppendKey key).result b = jsonBuilderAppendKey b key :=
  Write.result_bind (appendComma_result b) fun b =>
    Write.result_bind (writeChar_result 34 b) fun b =>
      Write.result_bind (appendEscapedLen_result key b) fun b => write_result [34, 58] b

/-- A call that succeeds is the one that was modelled without its failures. -/
theorem BuilderCall.exec_result (call : BuilderCall) (b : Builder) :
    (call.exec json).result b = call.run json b := by
  -- each call is the same steps in the same order
  cases call with
  | addString key val valLen =>
    show (Stateful.actrustJsonBuilderAddString key val valLen).result b =
      actrustJsonBuilderAddString b key val valLen
    unfold Write.result Stateful.actrustJsonBuilderAddString actrustJsonBuilderAddString
    split_ifs
    · rfl
    · exact Write.result_bind (appendKey_result key b) fun b =>
        Write.result_bind (writeChar_result 34 b) fun b =>
          Write.result_bind (appendEscapedLen_result val b) fun b => writeChar_result 34 b
  | addInt key val =>
    refine Write.result_bind (appendKey_result key b) fun b => ?_
    unfold Write.result
    dsimp only
    split_ifs
    · rfl
    · exact write_result _ b
  | addBool key val =>
    refine Write.result_bind (appendKey_result key b) fun b => ?_
    cases val with
    | true => exact write_result _ b
    | false => exact write_result _ b
  | addObject key objJson =>
    show (Stateful.actrustJsonBuilderAddObject json key objJson).result b =
      actrustJsonBuilderAddObject json b key objJson
    unfold Write.result Stateful.actrustJsonBuilderAddObject actrustJsonBuilderAddObject
    split_ifs
    · rfl
    · rfl
    · rfl
    · exact Write.result_bind (appendKey_result key b) fun b => write_result objJson b
  | openObject key =>
    exact Write.result_bind (appendKey_result key b) fun b => writeChar_result 123 b
  | closeObject => exact writeChar_result 125 b

end Result

/-! ### A call as its writes -/

/-- Pieces written one behind the other, up to the first that does not fit. -/
def writeAll : List (List UInt8) → Write
  | [] => .done
  | p :: ps => (Stateful.jsonBuilderWrite p).andThen (writeAll ps)

/-- The pieces of a key. -/
def keyPieces (before key : List UInt8) : List (List UInt8) :=
  separator before :: [34] :: (key.map escapeSeq ++ [[34, 58]])

/-- The writes of a call, in their order. -/
def BuilderCall.pieces (before : List UInt8) : BuilderCall → List (List UInt8)
  | .addString key val _ => keyPieces before key ++ [34] :: (val.map escapeSeq ++ [[34]])
  | .addInt key val => keyPieces before key ++ [decimal val.toInt]
  | .addBool key true => keyPieces before key ++ [[116, 114, 117, 101]]
  | .addBool key false => keyPieces before key ++ [[102, 97, 108, 115, 101]]
  | .addObject key objJson => keyPieces before key ++ [objJson]
  | .openObject key => keyPieces before key ++ [[123]]
  | .closeObject => [[125]]

section Pieces

variable {json : CoreJson} {b b' : Builder} {s : List UInt8} {call : BuilderCall}
  {ps qs : List (List UInt8)}

/-- The grouping of steps does not matter. -/
theorem andThen_assoc (u v w : Write) : (u.andThen v).andThen w = u.andThen (v.andThen w) := by
  funext b
  unfold Write.andThen
  rcases u b with ⟨_ | _, b'⟩ <;> rfl

/-- Nothing more to write. -/
theorem andThen_done (w : Write) : w.andThen .done = w := by
  funext b
  unfold Write.andThen
  rcases h : w b with ⟨_ | _, b'⟩ <;> rfl

/-- The pieces of two lists. -/
theorem writeAll_append (ps qs : List (List UInt8)) :
    writeAll (ps ++ qs) = (writeAll ps).andThen (writeAll qs) := by
  induction ps with
  | nil => rfl
  | cons p ps ih => rw [List.cons_append, writeAll, ih, writeAll, andThen_assoc]

/-- One piece. -/
theorem writeAll_single (p : List UInt8) : writeAll [p] = Stateful.jsonBuilderWrite p :=
  andThen_done _

/-- An escaped string, piece by piece. -/
theorem appendEscapedLen_eq (s : List UInt8) :
    Stateful.jsonBuilderAppendEscapedLen s = writeAll (s.map escapeSeq) := by
  induction s with
  | nil => rfl
  | cons p s ih => rw [Stateful.jsonBuilderAppendEscapedLen, ih, List.map_cons, writeAll]

/-- A key, piece by piece. -/
theorem appendKey_eq (hcap : b.cap ≠ 0) (key : List UInt8) :
    Stateful.jsonBuilderAppendKey key b = writeAll (keyPieces b.text key) b := by
  have hcomma : Stateful.jsonBuilderAppendComma b =
      Stateful.jsonBuilderWrite (separator b.text) b := by
    unfold Stateful.jsonBuilderAppendComma
    rw [separator_text]
    split_ifs
    · rfl
    · rw [Stateful.jsonBuilderWrite, if_neg hcap, if_pos List.length_nil]
  have hrest : writeAll ([34] :: (key.map escapeSeq ++ [[34, 58]])) =
      (Stateful.jsonBuilderWriteChar 34).andThen
        ((Stateful.jsonBuilderAppendEscapedLen key).andThen
          (Stateful.jsonBuilderWrite [34, 58])) := by
    rw [writeAll, writeAll_append, writeAll_single, appendEscapedLen_eq]
    rfl
  rw [keyPieces, writeAll, hrest]
  unfold Stateful.jsonBuilderAppendKey
  rw [Write.andThen, hcomma]
  rfl

/-- A call is its writes. -/
theorem BuilderCall.exec_eq (hadmitted : call.Admitted json) (hcap : b.cap ≠ 0) :
    call.exec json b = writeAll (call.pieces b.text) b := by
  -- every call but a closing brace starts with its key
  have hkey {key : List UInt8} (w : Write) :
      (Stateful.jsonBuilderAppendKey key).andThen w b =
        (writeAll (keyPieces b.text key)).andThen w b := by
    rw [Write.andThen, appendKey_eq hcap]
    rfl
  cases call with
  | addString key val valLen =>
    have hlen : ¬val.length ≠ valLen := not_not.mpr hadmitted
    simp only [exec, pieces, Stateful.actrustJsonBuilderAddString, if_neg hlen]
    rw [hkey, writeAll_append, writeAll, writeAll_append, writeAll_single, appendEscapedLen_eq]
    rfl
  | addInt key val =>
    have hlen : ¬(decimal val.toInt).length ≥ 32 := fun h => by
      exact absurd ((decimal_length val).trans' h) (by decide)
    simp only [exec, pieces, Stateful.actrustJsonBuilderAddInt, if_neg hlen]
    rw [hkey, writeAll_append, writeAll_single]
  | addBool key val =>
    cases val with
    | true => exact (hkey _).trans (by rw [pieces, writeAll_append, writeAll_single]; rfl)
    | false => exact (hkey _).trans (by rw [pieces, writeAll_append, writeAll_single]; rfl)
  | addObject key objJson =>
    obtain ⟨hne, hvalid, hobject⟩ := hadmitted
    have hlen : ¬objJson.length = 0 := fun h => hne (List.length_eq_zero_iff.mp h)
    have hvalid : ¬json.validate objJson = false := by rw [hvalid]; exact Bool.noConfusion
    have hobject : ¬jsonIsObjectText objJson = false := by rw [hobject]; exact Bool.noConfusion
    simp only [exec, pieces, Stateful.actrustJsonBuilderAddObject, if_neg hlen, if_neg hvalid,
      if_neg hobject]
    rw [hkey, writeAll_append, writeAll_single]
  | openObject key =>
    exact (hkey _).trans (by rw [pieces, writeAll_append, writeAll_single]; rfl)
  | closeObject => exact congrFun (writeAll_single [125]).symm b

/-- A call whose arguments are refused does nothing. -/
theorem BuilderCall.exec_refused (h : ¬call.Admitted json) :
    call.exec json b = (.error (jsonErr .invalidArg), b) := by
  -- the arguments are checked before anything is written
  cases call with
  | addString key val valLen => exact if_pos h
  | addObject key objJson =>
    show Stateful.actrustJsonBuilderAddObject json key objJson b = _
    unfold Stateful.actrustJsonBuilderAddObject
    split_ifs with hlen hvalid hobject
    · rfl
    · rfl
    · rfl
    · refine absurd ⟨fun hnil => hlen (by rw [hnil]; rfl), ?_, ?_⟩ h
      · exact Bool.eq_true_of_not_eq_false hvalid
      · exact Bool.eq_true_of_not_eq_false hobject
  | addInt => exact absurd trivial h
  | addBool => exact absurd trivial h
  | openObject => exact absurd trivial h
  | closeObject => exact absurd trivial h

/-- The pieces of a string are its escaped text. -/
theorem flatten_escapeSeq (s : List UInt8) : (s.map escapeSeq).flatten = escaped s :=
  List.flatMap_def.symm

/-- The pieces of a key are its text. -/
theorem keyPieces_flatten (before key : List UInt8) :
    (keyPieces before key).flatten = keyText before key := by
  rw [keyPieces, List.flatten_cons, List.flatten_cons, List.flatten_append, flatten_escapeSeq]
  rfl

/-- The pieces of a call are its text. -/
theorem BuilderCall.pieces_flatten (call : BuilderCall) (before : List UInt8) :
    (call.pieces before).flatten = call.text before := by
  cases call with
  | addString key val valLen =>
    rw [pieces, List.flatten_append, keyPieces_flatten, List.flatten_cons, List.flatten_append,
      flatten_escapeSeq]
    rfl
  | addBool key val =>
    cases val with
    | true => rw [pieces, List.flatten_append, keyPieces_flatten]; rfl
    | false => rw [pieces, List.flatten_append, keyPieces_flatten]; rfl
  | addInt key val =>
    rw [pieces, List.flatten_append, keyPieces_flatten, List.flatten_singleton]
    rfl
  | addObject key objJson =>
    rw [pieces, List.flatten_append, keyPieces_flatten, List.flatten_singleton]
    rfl
  | openObject key => rw [pieces, List.flatten_append, keyPieces_flatten]; rfl
  | closeObject => rfl

end Pieces

/-! ### As many writes as there is room for -/

/-- Bytes have been written, behind what was there and within the buffer. -/
structure Grew (b : Builder) (s : List UInt8) (b' : Builder) : Prop where
  text : b'.text = b.text ++ s
  cap : b'.cap = b.cap
  len : b'.len = b.len + s.length
  room : b.len < b.cap → b'.len < b'.cap
  outside : ∀ i, b.cap ≤ i → b'.buf i = b.buf i

section Grown

variable {b b' b'' : Builder} {s t : List UInt8} {ps : List (List UInt8)}

/-- Nothing was written. -/
theorem Grew.refl (b : Builder) : Grew b [] b :=
  ⟨(List.append_nil _).symm, rfl, rfl, id, fun _ _ => rfl⟩

/-- Two writes. -/
theorem Grew.trans (h : Grew b s b') (h' : Grew b' t b'') : Grew b (s ++ t) b'' where
  text := by rw [h'.text, h.text, List.append_assoc]
  cap := h'.cap.trans h.cap
  len := by rw [h'.len, h.len, List.length_append, Nat.add_assoc]
  room hb := h'.room (h.room hb)
  outside i hi := (h'.outside i (h.cap ▸ hi)).trans (h.outside i hi)

/-- An appended text that fits. -/
theorem grew_append (hfits : b.len + s.length < b.cap) : Grew b s (b.append s) where
  text := append_text b s
  cap := rfl
  len := rfl
  room _ := hfits
  outside i hi := append_outside (.inr (by omega))

/-- A write with room. -/
theorem write_fits (hfits : b.len + s.length < b.cap) :
    ∃ b', Stateful.jsonBuilderWrite s b = (.ok (), b') ∧ Grew b s b' := by
  have hcap : ¬b.cap = 0 := by omega
  unfold Stateful.jsonBuilderWrite Builder.remainingCap
  rw [if_neg hcap]
  by_cases hs : s.length = 0
  · rw [if_pos hs, List.length_eq_zero_iff.mp hs]
    exact ⟨b, rfl, .refl b⟩
  · rw [if_neg hs, if_neg (by omega)]
    exact ⟨_, rfl, grew_append hfits⟩

/-- A write without. -/
theorem write_full (hb : b.len < b.cap) (hfull : b.cap ≤ b.len + s.length) :
    Stateful.jsonBuilderWrite s b = (.error (jsonErr .bufTooSmall), b) := by
  unfold Stateful.jsonBuilderWrite Builder.remainingCap
  rw [if_neg (by omega), if_neg (by omega), if_pos (by omega)]

/-- Where a sequence of writes stops for want of room: what has been written by then, and what has
not. -/
def stop : ℕ → List (List UInt8) → Option (List UInt8 × List UInt8)
  | _, [] => none
  | free, p :: ps =>
    if p.length ≤ free then (stop (free - p.length) ps).map fun (done, q) => (p ++ done, q)
    else some ([], p)

/-- The bytes that are free, but for the terminator. -/
def Builder.free (b : Builder) : ℕ := b.cap - b.len - 1

/-- All pieces fit, or the text stops with those that did. -/
theorem writeAll_cases (ps : List (List UInt8)) (hb : b.len < b.cap) :
    (stop b.free ps = none ∧ ∃ b', writeAll ps b = (.ok (), b') ∧ Grew b ps.flatten b') ∨
      ∃ done p, stop b.free ps = some (done, p) ∧
        ∃ b', writeAll ps b = (.error (jsonErr .bufTooSmall), b') ∧ Grew b done b' := by
  -- on the pieces; the room left is what the first one leaves
  induction ps generalizing b with
  | nil => exact .inl ⟨rfl, b, rfl, .refl b⟩
  | cons p ps ih =>
    have hfree : b.free = b.cap - b.len - 1 := rfl
    by_cases hfits : b.len + p.length < b.cap
    · obtain ⟨next, hwrite, hgrew⟩ := write_fits hfits
      have hnext : next.free = b.free - p.length := by
        rw [Builder.free, hgrew.cap, hgrew.len, Builder.free]
        omega
      have hstop : stop b.free (p :: ps) =
          (stop next.free ps).map fun (done, q) => (p ++ done, q) := by
        rw [stop, if_pos (by omega), hnext]
      have hall : writeAll (p :: ps) b = writeAll ps next := by
        rw [writeAll, Write.andThen, hwrite]
      rw [hstop, hall]
      rcases ih (hgrew.room hb) with ⟨hnone, b', hok, hgrew'⟩ | ⟨done, q, hsome, b', herr, hgrew'⟩
      · exact .inl ⟨by rw [hnone]; rfl, b', hok, hgrew.trans hgrew'⟩
      · exact .inr ⟨p ++ done, q, by rw [hsome]; rfl, b', herr, hgrew.trans hgrew'⟩
    · have hwrite := write_full hb (not_lt.mp hfits)
      refine .inr ⟨[], p, ?_, b, ?_, .refl b⟩
      · rw [stop, if_neg (by omega)]
      · rw [writeAll, Write.andThen, hwrite]

/-- What is written when the writes stop, and how much more is missing. -/
theorem stop_split {free : ℕ} {done p : List UInt8} (h : stop free ps = some (done, p)) :
    ∃ before after, ps = before ++ p :: after ∧ done = before.flatten ∧ done.length ≤ free ∧
      free < done.length + p.length := by
  induction ps generalizing free done with
  | nil => cases h
  | cons q ps ih =>
    rw [stop] at h
    split_ifs at h with hfits
    · obtain ⟨⟨done', p'⟩, hstop, hpair⟩ := Option.map_eq_some_iff.mp h
      cases hpair
      obtain ⟨before, after, rfl, rfl, hle, hlt⟩ := ih hstop
      refine ⟨q :: before, after, rfl, rfl, ?_, ?_⟩
      · rw [List.length_append]
        omega
      · rw [List.length_append]
        omega
    · cases h
      exact ⟨[], ps, rfl, rfl, Nat.zero_le _, by rw [List.length_nil]; omega⟩

end Grown

/-- A call writes as much as there is room for, and nothing if its arguments are refused. -/
theorem BuilderCall.exec_cases (json : CoreJson) {b : Builder} (call : BuilderCall)
    (hb : b.len < b.cap) :
    (¬call.Admitted json ∧ call.exec json b = (.error (jsonErr .invalidArg), b)) ∨
      (call.Admitted json ∧
        ∃ b', call.exec json b = (.ok (), b') ∧ Grew b (call.text b.text) b') ∨
      call.Admitted json ∧ ∃ done p, stop b.free (call.pieces b.text) = some (done, p) ∧
        ∃ b', call.exec json b = (.error (jsonErr .bufTooSmall), b') ∧ Grew b done b' := by
  by_cases hadmitted : call.Admitted json
  · have hcap : b.cap ≠ 0 := Nat.ne_zero_of_lt hb
    rw [exec_eq hadmitted hcap, ← pieces_flatten]
    rcases writeAll_cases (call.pieces b.text) hb with ⟨-, hok⟩ | hfull
    · exact .inr (.inl ⟨hadmitted, hok⟩)
    · exact .inr (.inr ⟨hadmitted, hfull⟩)
  · exact .inl ⟨hadmitted, exec_refused hadmitted⟩

end TrustSdk.Json
