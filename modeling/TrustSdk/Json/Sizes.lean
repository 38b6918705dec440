import TrustSdk.Json.Tree

/-!
# How long built texts are

How much a string grows when it is escaped, and of which characters the text of a call consists. A
text without raw objects has no control characters: when it is escaped once more, a character grows
to two at most.
-/

namespace TrustSdk.Json

open JsonText

variable {s t key : List UInt8} {call : BuilderCall} {calls : List BuilderCall}

/-! ### Characters -/

/-- No control character. -/
abbrev IsPrintable (s : List UInt8) : Prop := ∀ c ∈ s, 32 ≤ c

/-- Two printable texts. -/
theorem IsPrintable.append (hs : IsPrintable s) (ht : IsPrintable t) : IsPrintable (s ++ t) :=
  List.forall_mem_append.mpr ⟨hs, ht⟩

/-- A test of a list goes through its members, where `decide` of the statement may go through all
bytes there are. -/
theorem forall_mem_of_all {p : UInt8 → Prop} [DecidablePred p]
    (h : s.all (fun c => decide (p c)) = true) : ∀ c ∈ s, p c :=
  fun c hc => of_decide_eq_true (List.all_eq_true.mp h c hc)

section Characters

variable (c : UInt8)

/-- How a character is escaped, and which characters a number has. -/
structure ByteFacts : Prop where
  length : (escapeSeq c).length ≤ 6
  length_printable : 32 ≤ c → (escapeSeq c).length ≤ 2
  printable : (escapeSeq c).all (32 ≤ ·) = true
  ascii : c < 128 → (escapeSeq c).all (· < 128) = true
  rest : 128 ≤ c → escapeSeq c = [c]
  number : isNumberChar c = true → 32 ≤ c ∧ c < 128

/-- There are 256 characters: the facts are computed for each of them. -/
theorem byteFacts : ByteFacts c := by
  have hall : ∀ n < 256, (escapeSeq (.ofNat n)).length ≤ 6 ∧
      (32 ≤ UInt8.ofNat n → (escapeSeq (.ofNat n)).length ≤ 2) ∧
      (escapeSeq (.ofNat n)).all (32 ≤ ·) = true ∧
      (UInt8.ofNat n < 128 → (escapeSeq (.ofNat n)).all (· < 128) = true) ∧
      (128 ≤ UInt8.ofNat n → escapeSeq (.ofNat n) = [.ofNat n]) ∧
      (isNumberChar (.ofNat n) = true → 32 ≤ UInt8.ofNat n ∧ UInt8.ofNat n < 128) := by
    decide +kernel
  obtain ⟨hlength, hshort, hprintable, hascii, hrest, hnumber⟩ := hall c.toNat c.toNat_lt
  rw [UInt8.ofNat_toNat] at hlength hshort hprintable hascii hrest hnumber
  exact ⟨hlength, hshort, hprintable, hascii, hrest, hnumber⟩

/-- An escape has six characters at most. -/
theorem escapeSeq_length : (escapeSeq c).length ≤ 6 := (byteFacts c).length

/-- A printable character takes two at most. -/
theorem escapeSeq_length_printable : 32 ≤ c → (escapeSeq c).length ≤ 2 :=
  (byteFacts c).length_printable

/-- Every escape is printable. -/
theorem escapeSeq_printable : IsPrintable (escapeSeq c) :=
  forall_mem_of_all (byteFacts c).printable

/-- An ASCII character has an ASCII escape. -/
theorem escapeSeq_ascii (hc : c < 128) : ∀ d ∈ escapeSeq c, d < 128 :=
  forall_mem_of_all ((byteFacts c).ascii hc)

/-- Other bytes are copied. -/
theorem escapeSeq_rest : 128 ≤ c → escapeSeq c = [c] := (byteFacts c).rest

/-- A number character is printable ASCII. -/
theorem isNumberChar_bounds : isNumberChar c = true → 32 ≤ c ∧ c < 128 := (byteFacts c).number

end Characters

/-- A bound for every character bounds the text. -/
theorem length_flatMap_le {f : UInt8 → List UInt8} {k : ℕ} (h : ∀ c ∈ s, (f c).length ≤ k) :
    (s.flatMap f).length ≤ k * s.length := by
  induction s with
  | nil => exact Nat.zero_le _
  | cons c s ih =>
    obtain ⟨hc, hs⟩ := List.forall_mem_cons.mp h
    rw [List.flatMap_cons, List.length_append, List.length_cons, Nat.mul_succ, Nat.add_comm]
    exact Nat.add_le_add (ih hs) hc

/-- An escaped string is at most six times as long. -/
theorem escaped_length (s : List UInt8) : (escaped s).length ≤ 6 * s.length :=
  length_flatMap_le fun c _ => escapeSeq_length c

/-- A printable string twice. -/
theorem escaped_length_printable (hs : IsPrintable s) : (escaped s).length ≤ 2 * s.length :=
  length_flatMap_le fun c hc => escapeSeq_length_printable c (hs c hc)

/-- Every escaped string is printable. -/
theorem escaped_printable (s : List UInt8) : IsPrintable (escaped s) := by
  intro d hd
  obtain ⟨c, -, hd⟩ := List.mem_flatMap.mp hd
  exact escapeSeq_printable c d hd

/-- An escaped UTF-8 string is UTF-8. -/
theorem escaped_utf8 (hs : IsUtf8 s) : IsUtf8 (escaped s) :=
  hs.flatMap (fun c hc => escapeSeq_ascii c hc) escapeSeq_rest

/-! ### The text of a call -/

/-- A separator is one character at most. -/
theorem separator_length (before : List UInt8) : (separator before).length ≤ 1 := by
  unfold separator
  split_ifs
  · exact Nat.zero_le _
  · exact le_rfl

/-- A key takes four characters besides itself. -/
theorem keyText_length (before key : List UInt8) :
    (keyText before key).length ≤ (escaped key).length + 4 := by
  have hsep := separator_length before
  simp only [keyText, List.length_append, List.length_cons, List.length_nil]
  omega

/-- A bound on the text of a call. -/
def BuilderCall.size : BuilderCall → ℕ
  | .addString key val _ => (escaped key).length + (escaped val).length + 6
  | .addInt key _ => (escaped key).length + 24
  | .addBool key _ => (escaped key).length + 9
  | .addObject key objJson => (escaped key).length + objJson.length + 4
  | .openObject key => (escaped key).length + 5
  | .closeObject => 1

/-- A call writes no more than its size. -/
theorem BuilderCall.text_length (call : BuilderCall) (before : List UInt8) :
    (call.text before).length ≤ call.size := by
  have hkey := keyText_length before
  cases call with
  | addString key val valLen =>
    have := hkey key
    simp only [text, size, List.length_append, List.length_cons, List.length_nil]
    omega
  | addInt key val =>
    have := hkey key
    have := decimal_length val
    simp only [text, size, List.length_append]
    omega
  | addBool key val =>
    have := hkey key
    cases val with
    | true =>
      simp only [text, size, List.length_append, List.length_cons, List.length_nil]
      omega
    | false =>
      simp only [text, size, List.length_append, List.length_cons, List.length_nil]
      omega
  | addObject key objJson =>
    have := hkey key
    simp only [text, size, List.length_append]
    omega
  | openObject key =>
    have := hkey key
    simp only [text, size, List.length_append, List.length_cons, List.length_nil]
    omega
  | closeObject => exact le_rfl

/-- Some calls write no more than their sizes together. -/
theorem callsText_length (s : List UInt8) (calls : List BuilderCall) :
    (callsText s calls).length ≤ s.length + (calls.map BuilderCall.size).sum := by
  induction calls generalizing s with
  | nil => exact le_rfl
  | cons call calls ih =>
    have hcall := call.text_length s
    have hcalls := ih (s ++ call.text s)
    rw [List.length_append] at hcalls
    rw [callsText, List.map_cons, List.sum_cons]
    omega

section Parts

/-- What a call adds of its own, escaped where it is escaped. -/
def BuilderCall.Each (P : List UInt8 → Prop) : BuilderCall → Prop
  | .addString key val _ => P (escaped key) ∧ P (escaped val)
  | .addInt key _ | .addBool key _ | .openObject key => P (escaped key)
  | .addObject key objJson => P (escaped key) ∧ P objJson
  | .closeObject => True

/-- Printable ASCII. -/
abbrev IsPlain (s : List UInt8) : Prop := ∀ c ∈ s, 32 ≤ c ∧ c < 128

variable {P : List UInt8 → Prop} (hplain : ∀ s, IsPlain s → P s)
  (happend : ∀ {s t}, P s → P t → P (s ++ t))

include hplain happend

/-- A property of the parts, for a key. -/
theorem keyText_of_parts (hkey : P (escaped key)) (before : List UInt8) :
    P (keyText before key) := by
  have hsep : P (separator before) := by
    unfold separator
    split_ifs
    · exact hplain _ nofun
    · exact hplain _ (forall_mem_of_all rfl)
  exact happend hsep (happend (s := [34]) (hplain _ (forall_mem_of_all rfl))
    (happend hkey (hplain _ (forall_mem_of_all rfl))))

/-- All else is plain. -/
theorem BuilderCall.text_of_parts (hcall : call.Each P) (before : List UInt8) :
    P (call.text before) := by
  have hkeyText {key : List UInt8} (hkey : P (escaped key)) : P (keyText before key) :=
    keyText_of_parts hplain happend hkey before
  -- the fixed characters of every call are plain, so the property has to hold of key and value only
  cases call with
  | addString key val valLen =>
    obtain ⟨hkey, hval⟩ := hcall
    exact happend (hkeyText hkey) (happend (s := [34]) (hplain _ (forall_mem_of_all rfl))
      (happend hval (hplain _ (forall_mem_of_all rfl))))
  | addInt key val =>
    exact happend (hkeyText hcall) (hplain _ fun c hc => isNumberChar_bounds c (decimal_all _ c hc))
  | addBool key val =>
    cases val with
    | true => exact happend (hkeyText hcall) (hplain _ (forall_mem_of_all rfl))
    | false => exact happend (hkeyText hcall) (hplain _ (forall_mem_of_all rfl))
  | addObject key objJson => exact happend (hkeyText hcall.1) hcall.2
  | openObject key => exact happend (hkeyText hcall) (hplain _ (forall_mem_of_all rfl))
  | closeObject => exact hplain [125] (forall_mem_of_all rfl)

/-- A property of the parts, for the whole text. -/
theorem callsText_of_parts (hs : P s) (hcalls : ∀ call ∈ calls, call.Each P) :
    P (callsText s calls) := by
  induction calls generalizing s with
  | nil => exact hs
  | cons call calls ih =>
    obtain ⟨hcall, hcalls⟩ := List.forall_mem_cons.mp hcalls
    exact ih (happend hs (BuilderCall.text_of_parts hplain happend hcall s)) hcalls

end Parts

/-- Plain text is printable. -/
theorem IsPlain.printable (h : IsPlain s) : IsPrintable s := fun c hc => (h c hc).1

/-- Plain text is UTF-8. -/
theorem IsPlain.utf8 (h : IsPlain s) : IsUtf8 s := isUtf8_ascii fun c hc => (h c hc).2

end TrustSdk.Json
