import TrustSdk.Json.Sizes
import TrustSdk.Json.Unescape
import TrustSdk.Json.Writes

/-!
# Escaping and resolving

`actrust_json_escape_string` writes what the builder writes for the same string, and
`actrust_json_unescape_string` undoes it. The input is a C string in memory, and the output a
buffer; as for the other function, an access outside of them has no result.
-/

namespace TrustSdk.Json

open JsonText

/-- The `switch` of `actrust_json_escape_string`; none for a character that stands for itself. -/
def jsonEscapeSeq (p : UInt8) : Option (List UInt8) :=
  if p = 34 then some [92, 34]
  else if p = 92 then some [92, 92]
  else if p = 8 then some [92, 98]
  else if p = 12 then some [92, 102]
  else if p = 10 then some [92, 110]
  else if p = 13 then some [92, 114]
  else if p = 9 then some [92, 116]
  else if p < 32 then some [92, 117, 48, 48, hexChar (p / 16), hexChar (p % 16)]
  else none

/-- The loop, up to the end of the string: `out_len` and the buffer. -/
def escapeLoop : List UInt8 → ℕ → List UInt8 → Option (Except Err (ℕ × List UInt8))
  | [], _, _ => none
  | p :: input, dstIdx, out =>
    if p = 0 then (storeBytes out dstIdx [0]).map fun out => .ok (dstIdx, out)
    else
      match jsonEscapeSeq p with
      | some escSeq =>
        if dstIdx + escSeq.length + 1 > out.length then some (.error (jsonErr .bufTooSmall))
        else
          (storeBytes out dstIdx escSeq).bind fun out =>
            escapeLoop input (dstIdx + escSeq.length) out
      | none =>
        if dstIdx + 2 > out.length then some (.error (jsonErr .bufTooSmall))
        else (storeBytes out dstIdx [p]).bind fun out => escapeLoop input (dstIdx + 1) out

/-- `actrust_json_escape_string` on a buffer of `out_cap` bytes. -/
def jsonEscapeBuffers (input out : List UInt8) : Option (Except Err (ℕ × List UInt8)) :=
  if out.length = 0 then some (.error (jsonErr .invalidArg)) else escapeLoop input 0 out

variable {s out : List UInt8} {c : UInt8} {dstIdx : ℕ}

/-! ### One character -/

/-- The two escapers agree. -/
theorem jsonEscapeSeq_eq (c : UInt8) : (jsonEscapeSeq c).getD [c] = escapeSeq c := by
  unfold jsonEscapeSeq escapeSeq
  split_ifs <;> rfl

/-- A control character and its escape. -/
theorem escape_control {c : UInt8} (hc : c < 32) :
    Escape [92, 117, 48, 48, hexChar (c / 16), hexChar (c % 16)] [c] := by
  have hlt : c.toNat < 32 := UInt8.lt_iff_toNat_lt.mp hc
  have hascii : c < 128 := UInt8.lt_iff_toNat_lt.mpr (hlt.trans (by decide))
  obtain ⟨hdigits, -⟩ := hexChar_control c.toNat hlt
  rw [UInt8.ofNat_toNat] at hdigits
  have hchar : (Char.ofNat c.toNat).toNat = c.toNat := by
    have hvalid : c.toNat.isValidChar := .inl (by omega)
    rw [Char.ofNat, dif_pos hvalid]
    rfl
  rw [← utf8EncodeChar_ascii hascii]
  exact .unit (hchar.symm ▸ hdigits)

/-- A character is plain, or written as an escape. -/
theorem escapeSeq_cases (c : UInt8) :
    (c ≠ 34 ∧ c ≠ 92 ∧ 32 ≤ c ∧ escapeSeq c = [c]) ∨ Escape (escapeSeq c) [c] := by
  unfold escapeSeq
  split_ifs with h1 h2 h3 h4 h5 h6 h7 h8
  · exact .inr (.letter (by rw [h1]; rfl))
  · exact .inr (.letter (by rw [h2]; rfl))
  · exact .inr (.letter (by rw [h3]; rfl))
  · exact .inr (.letter (by rw [h4]; rfl))
  · exact .inr (.letter (by rw [h5]; rfl))
  · exact .inr (.letter (by rw [h6]; rfl))
  · exact .inr (.letter (by rw [h7]; rfl))
  · exact .inr (escape_control h8)
  · exact .inl ⟨h1, h2, UInt8.not_lt.mp h8, rfl⟩

/-- An escaped string is the string, quoted by the rules. -/
theorem escaped_quotable (s : List UInt8) : Quotable (escaped s) s := by
  induction s with
  | nil => exact .nil
  | cons c s ih =>
    rw [escaped, List.flatMap_cons]
    rcases escapeSeq_cases c with ⟨hquote, hslash, hprint, heq⟩ | hescape
    · rw [heq]
      exact .plain hquote hslash hprint ih
    · exact .escape hescape ih

/-! ### The whole string -/

/-- One round of the loop. -/
theorem escapeLoop_step (input : List UInt8) (hc : c ≠ 0) :
    escapeLoop (c :: input) dstIdx out =
      if dstIdx + (escapeSeq c).length + 1 > out.length then some (.error (jsonErr .bufTooSmall))
      else
        (storeBytes out dstIdx (escapeSeq c)).bind fun out =>
          escapeLoop input (dstIdx + (escapeSeq c).length) out := by
  rw [escapeLoop, if_neg hc, ← jsonEscapeSeq_eq]
  cases jsonEscapeSeq c <;> rfl

/-- The loop stores the escaped string and a terminator, or finds too little room. -/
theorem escapeLoop_eq (hs : 0 ∉ s) (hdst : dstIdx < out.length) :
    if dstIdx + (escaped s).length < out.length then
      ∃ out', escapeLoop (s ++ [0]) dstIdx out = some (.ok (dstIdx + (escaped s).length, out')) ∧
        out'.length = out.length ∧ out.take dstIdx ++ escaped s ++ [0] <+: out'
    else escapeLoop (s ++ [0]) dstIdx out = some (.error (jsonErr .bufTooSmall)) := by
  -- on the input; the loop stops at the NUL, which is no character of the string
  induction s generalizing dstIdx out with
  | nil =>
    obtain ⟨out', hstore, hlen, htake⟩ :=
      storeBytes_eq out [0] dstIdx hdst
    have hesc : escaped [] = [] := rfl
    rw [hesc, List.length_nil, Nat.add_zero, if_pos hdst]
    refine ⟨out', ?_, hlen, ?_⟩
    · rw [List.nil_append, escapeLoop, if_pos rfl, hstore]
      rfl
    · rw [List.append_nil, ← htake]
      exact List.take_prefix _ _
  | cons c s ih =>
    obtain ⟨hc, hs⟩ := not_or.mp (mt List.mem_cons.mpr hs)
    have hesc : escaped (c :: s) = escapeSeq c ++ escaped s := List.flatMap_cons
    rw [hesc, List.length_append, List.cons_append, escapeLoop_step _ (Ne.symm hc)]
    -- the check keeps a byte for the NUL at the end
    by_cases hfull : dstIdx + (escapeSeq c).length + 1 > out.length
    · rw [if_pos hfull, if_neg (by omega)]
    · obtain ⟨out', hstore, hlen, htake⟩ :=
        storeBytes_eq out (escapeSeq c) dstIdx (by omega)
      have hroom : dstIdx + (escapeSeq c).length < out'.length := by omega
      have hrest := ih hs hroom
      rw [if_neg hfull, hstore, Option.bind_some]
      rw [hlen, htake, Nat.add_assoc, List.append_assoc (out.take dstIdx)] at hrest
      exact hrest

/-- `actrust_json_escape_string` on two buffers. -/
theorem escapeBuffers_eq (hs : 0 ∉ s) (out : List UInt8) :
    if (escaped s).length < out.length then
      ∃ out', jsonEscapeBuffers (s ++ [0]) out = some (.ok ((escaped s).length, out')) ∧
        out'.length = out.length ∧ escaped s ++ [0] <+: out'
    else ∃ e, jsonEscapeBuffers (s ++ [0]) out = some (.error e) := by
  unfold jsonEscapeBuffers
  by_cases hcap : out.length = 0
  · rw [if_neg (by omega), if_pos hcap]
    exact ⟨_, rfl⟩
  · have hloop := escapeLoop_eq hs (Nat.pos_of_ne_zero hcap)
    rw [Nat.zero_add, List.take_zero, List.nil_append] at hloop
    rw [if_neg hcap]
    split_ifs at hloop ⊢
    · exact hloop
    · exact ⟨_, hloop⟩

/-- What the builder writes for a string, whether there is room for it or not. -/
theorem appendEscapedLen_cases (s : List UInt8) {b : Builder} (hb : b.len < b.cap) :
    (b.len + (escaped s).length < b.cap ∧
      ∃ b', Stateful.jsonBuilderAppendEscapedLen s b = (.ok (), b') ∧ Grew b (escaped s) b') ∨
      b.cap ≤ b.len + (escaped s).length ∧ ∃ done b', Stateful.jsonBuilderAppendEscapedLen s b =
        (.error (jsonErr .bufTooSmall), b') ∧ Grew b done b' := by
  have hlen := flatten_escapeSeq s
  -- the builder writes piece by piece, so it stops with the pieces that fitted
  rw [appendEscapedLen_eq]
  rcases writeAll_cases (s.map escapeSeq) hb with
    ⟨-, b', hok, hgrew⟩ | ⟨done, p, hstop, b', herr, hgrew⟩
  · rw [hlen] at hgrew
    have hroom := hgrew.room hb
    rw [hgrew.len, hgrew.cap] at hroom
    exact .inl ⟨hroom, b', hok, hgrew⟩
  · obtain ⟨before, after, hsplit, hdone, -, hlt⟩ := stop_split hstop
    have htotal : (escaped s).length = done.length + (p.length + after.flatten.length) := by
      rw [← hlen, hsplit, hdone, List.flatten_append, List.flatten_cons, List.length_append,
        List.length_append]
    have hfree : b.free = b.cap - b.len - 1 := rfl
    exact .inr ⟨by omega, done, b', herr, hgrew⟩

/-- A string that is escaped into a buffer and resolved again, and what the builder writes for it:
the output fits or is refused, keeps to its buffer and to what may stand between quotes, and is the
text of the builder. -/
theorem actrustJsonEscapeString_round_trip (hs : 0 ∉ s) (out : List UInt8) :
    (∃ result, jsonEscapeBuffers (s ++ [0]) out = some result) ∧
      ((∃ len out', jsonEscapeBuffers (s ++ [0]) out = some (.ok (len, out'))) ↔
        (escaped s).length < out.length) ∧
      (∀ len out', jsonEscapeBuffers (s ++ [0]) out = some (.ok (len, out')) →
        out'.length = out.length ∧ out'[len]? = some 0 ∧ Quotable (out'.take len) s ∧
          (∀ c ∈ out'.take len, 32 ≤ c) ∧
          (∀ back : List UInt8, s.length < back.length →
            ∃ back', jsonUnescapeBuffers (out'.take len) back = some (.ok (s.length, back')) ∧
              s ++ [0] <+: back') ∧
          ∀ b b', Stateful.jsonBuilderAppendEscapedLen s b = (.ok (), b') → b.len < b.cap →
            b'.text = b.text ++ out'.take len) ∧
      ∀ b err b', Stateful.jsonBuilderAppendEscapedLen s b = (err, b') → b.len < b.cap →
        (err = .ok () ↔ b.len + (escaped s).length < b.cap) ∧
          ∀ i, b.cap ≤ i → b'.buf i = b.buf i := by
  -- both escapers write the same text, so one comparison of lengths decides for each
  have hbuffers := escapeBuffers_eq hs out
  have hiff : (∃ len out', jsonEscapeBuffers (s ++ [0]) out = some (.ok (len, out'))) ↔
      (escaped s).length < out.length := by
    split_ifs at hbuffers with hroom
    · obtain ⟨out', hok, -⟩ := hbuffers
      exact iff_of_true ⟨_, out', hok⟩ hroom
    · obtain ⟨e, herr⟩ := hbuffers
      refine iff_of_false ?_ hroom
      rintro ⟨len, out', hok⟩
      cases herr.symm.trans hok
  refine ⟨?_, hiff, ?_, ?_⟩
  · split_ifs at hbuffers
    · obtain ⟨out', hok, -⟩ := hbuffers
      exact ⟨_, hok⟩
    · obtain ⟨e, herr⟩ := hbuffers
      exact ⟨_, herr⟩
  · intro len out' hok
    rw [if_pos (hiff.mp ⟨len, out', hok⟩)] at hbuffers
    obtain ⟨out'', hok', hlen, rest, hout⟩ := hbuffers
    cases hok.symm.trans hok'
    have htake : out'.take (escaped s).length = escaped s := by
      rw [← hout, List.append_assoc, List.take_left]
    have hend : out'[(escaped s).length]? = some 0 := by
      rw [← hout, List.append_assoc, List.getElem?_append_right le_rfl, Nat.sub_self]
      rfl
    rw [htake]
    refine ⟨hlen, hend, escaped_quotable s, escaped_printable s, fun back hback => ?_, ?_⟩
    · obtain ⟨back', hback', -, hprefix⟩ :=
        unescapeBuffers_complete (escaped_quotable s).unescapes hback
      exact ⟨back', hback', hprefix⟩
    · intro b b' hok hb
      rcases appendEscapedLen_cases s hb with ⟨-, b'', hok', hgrew⟩ | ⟨-, done, b'', herr, -⟩
      · cases hok.symm.trans hok'
        exact hgrew.text
      · cases hok.symm.trans herr
  · intro b err b' h hb
    rcases appendEscapedLen_cases s hb with
      ⟨hroom, b'', hok, hgrew⟩ | ⟨hfull, done, b'', herr, hgrew⟩
    · cases h.symm.trans hok
      exact ⟨iff_of_true rfl hroom, hgrew.outside⟩
    · cases h.symm.trans herr
      exact ⟨iff_of_false nofun (by omega), hgrew.outside⟩

/-- A quote and a control character, in as many bytes as they need. -/
theorem actrustJsonEscapeString_round_trip_quote :
    jsonEscapeBuffers [34, 1, 0] (List.replicate 9 7) =
        some (.ok (8, [92, 34, 92, 117, 48, 48, 48, 49, 0])) ∧
      ((∃ len out', jsonEscapeBuffers ([34, 1] ++ [0]) (List.replicate 9 7) =
          some (.ok (len, out'))) ↔
        (escaped [34, 1]).length < (List.replicate 9 (7 : UInt8)).length) :=
  ⟨by decide +kernel, (actrustJsonEscapeString_round_trip (by decide) _).2.1⟩

end TrustSdk.Json
