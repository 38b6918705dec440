import TrustSdk.Cloud.Provisioning
import TrustSdk.Core.Registration
import TrustSdk.Json.Sizes

/-!
# The message of a publish

`core_ops_send` builds two texts: the signable one, with the payload and the time, and the message,
which holds the signable text as a string and its signature. The AWS provider wraps the message
into a document. Buffers are allocated for the sizes that the payload can grow to when it is
escaped, once and twice.

* `coreBuildSignable_eq`, `coreBuildDataPublish_eq` — both texts fit, and denote what they should;
* `coreSendMessage_envelope` — the message, and the document around it.

Memory may not be there, and signing may fail: both are arguments, as are the contents of new
buffers. The keys and the signature itself are looked at by nobody.
-/

namespace TrustSdk.Cloud

open Json

/-- The C string at the beginning of a buffer. -/
def cString (bytes : List UInt8) : List UInt8 := bytes.takeWhile fun c => c != 0

/-- `actrust_cloud_aws_send_data`, up to the publish of the document it returns.
`CONFIG_ACTRUST_MQTT_PAYLOAD_MAX_LEN` is also the size of its buffer. -/
def actrustCloudAwsSendData (json : CoreJson) (mqttPayloadMaxLen : ℕ) (mqttClient : Bool)
    (jsonBuf : ℕ → UInt8) (payload : List UInt8) : Except Err (List UInt8) :=
  if payload.length = 0 then .error (cloudErr .invalidArg)
  else if mqttClient = false then .error (cloudErr .badState)
  else if payload.length > mqttPayloadMaxLen ∨ 0 ∈ payload then .error (cloudErr .invalidArg)
  else do
    let b ← actrustJsonBuilderInit jsonBuf mqttPayloadMaxLen
    let b ← actrustJsonBuilderOpenObject b (text "state")
    let b ← actrustJsonBuilderAddObject json b (text "reported") (cString payload)
    let b ← actrustJsonBuilderCloseObject b
    let b ← actrustJsonBuilderFinish json b
    return b.text

end TrustSdk.Cloud

namespace TrustSdk.Core

open Json JsonText Cloud

/-- `CORE_SIGNABLE_OVERHEAD`. -/
def coreSignableOverhead : ℕ := 64

/-- `CORE_SEND_JSON_OVERHEAD`. -/
def coreSendJsonOverhead : ℕ := 256

/-- `CORE_ACTION_DATA_PUBLISH`. -/
def coreActionDataPublish : Int64 := 0x2000

/-- What `actrust_data_publish` checks of its arguments. -/
def actrustDataPublishArgs (data : List UInt8) : Except Err Unit :=
  if data.length = 0 then .error (coreErr .invalidArg)
  else if 0 ∈ data then .error (coreErr .invalidArg)
  else .ok ()

section Send

variable (json : CoreJson)

/-- The signable text, as `core_ops_send` builds it. -/
def coreBuildSignable (data : List UInt8) (timestampMs : ℕ) (buf : ℕ → UInt8) (bufLen : ℕ) :
    Except Err (List UInt8) := do
  let b ← actrustJsonBuilderInit buf bufLen
  let b ← actrustJsonBuilderAddString b (text "data") (cString data) data.length
  let b ← actrustJsonBuilderAddInt b (text "timestamp") (.ofNat timestampMs)
  let b ← actrustJsonBuilderFinish json b
  return b.text

/-- `core_build_data_publish`. -/
def coreBuildDataPublish (payloadJson sigHex : List UInt8) (buf : ℕ → UInt8) (bufLen : ℕ) :
    Except Err (List UInt8) := do
  let b ← actrustJsonBuilderInit buf bufLen
  let b ← actrustJsonBuilderOpenObject b (text "business")
  let b ← actrustJsonBuilderAddInt b (text "action") coreActionDataPublish
  let b ← actrustJsonBuilderAddString b (text "payload") (cString payloadJson)
    payloadJson.length
  let b ← actrustJsonBuilderAddString b (text "signature") (cString sigHex) sigHex.length
  let b ← actrustJsonBuilderCloseObject b
  let b ← actrustJsonBuilderFinish json b
  return b.text

/-- What `core_ops_send` depends on: the time, new buffers and the signature, and `SIZE_MAX`. -/
structure SendEnv where
  nowMs : Except Err ℕ
  signableBuf : Option (ℕ → UInt8)
  sign : List UInt8 → Except Err (List UInt8)
  buf : Option (ℕ → UInt8)
  sizeMax : ℕ

/-- What is signed, and the message. -/
structure SendTexts where
  signable : List UInt8
  message : List UInt8

/-- `core_ops_send` would compute the size of the message with an overflow. -/
def MessageTooLong (sizeMax : ℕ) (signable sigHex : List UInt8) : Prop :=
  sigHex.length > sizeMax - coreSendJsonOverhead
    ∨ signable.length > (sizeMax - (sigHex.length + coreSendJsonOverhead)) / 2

/-- `core_ops_send`, up to `actrust_cloud_send_data`. -/
def coreSendMessage (env : SendEnv) (data : List UInt8) : Except Err SendTexts :=
  if data.length = 0 then .error (coreErr .invalidArg)
  else do
    let timestampMs ← env.nowMs
    if data.length > (env.sizeMax - coreSignableOverhead) / 6 then .error (coreErr .invalidArg)
    else
      match env.signableBuf with
      | none => .error (coreErr .noMem)
      | some signableBuf => do
        let signable ← coreBuildSignable json data timestampMs signableBuf
          (data.length * 6 + coreSignableOverhead)
        let sigDer ← env.sign signable
        let sigHex := actrustHexEncode sigDer
        if sigHex.length > env.sizeMax - coreSendJsonOverhead then .error (coreErr .invalidArg)
        else
          let publishOverhead := sigHex.length + coreSendJsonOverhead
          if signable.length > (env.sizeMax - publishOverhead) / 2 then
            .error (coreErr .invalidArg)
          else
            match env.buf with
            | none => .error (coreErr .noMem)
            | some buf => do
              let message ← coreBuildDataPublish json signable sigHex buf
                (signable.length * 2 + publishOverhead)
              return ⟨signable, message⟩

end Send

/-! ### The texts by their calls -/

section Calls

variable {json : CoreJson}

/-- The calls behind `core_build_signable`. -/
def signableCalls (data : List UInt8) (timestampMs : ℕ) : List BuilderCall :=
  [.addString (text "data") data data.length, .addInt (text "timestamp") (.ofNat timestampMs)]

/-- The calls behind `core_build_data_publish`. -/
def publishCalls (payloadJson sigHex : List UInt8) : List BuilderCall :=
  [.openObject (text "business"), .addInt (text "action") coreActionDataPublish,
    .addString (text "payload") payloadJson payloadJson.length,
    .addString (text "signature") sigHex sigHex.length, .closeObject]

/-- The calls behind the cloud's document. -/
def documentCalls (payload : List UInt8) : List BuilderCall :=
  [.openObject (text "state"), .addObject (text "reported") payload, .closeObject]

/-- A text without a NUL is its own C string. -/
theorem cString_eq {s : List UInt8} (hs : 0 ∉ s) : cString s = s := by
  refine List.takeWhile_eq_self_iff.mpr fun c hc => ?_
  rw [bne_iff_ne]
  rintro rfl
  exact hs hc

/-- `core_build_signable` makes these calls. -/
theorem coreBuildSignable_calls {data : List UInt8} (hdata : 0 ∉ data) (timestampMs : ℕ)
    (buf : ℕ → UInt8) (bufLen : ℕ) :
    coreBuildSignable json data timestampMs buf bufLen
      = buildText json buf bufLen (signableCalls data timestampMs) := by
  simp only [coreBuildSignable, cString_eq hdata, buildText, signableCalls, runCalls,
    BuilderCall.run, bind_assoc]
  rfl

/-- `core_build_data_publish` makes these calls. -/
theorem coreBuildDataPublish_calls {payloadJson sigHex : List UInt8} (hpayload : 0 ∉ payloadJson)
    (hsig : 0 ∉ sigHex) (buf : ℕ → UInt8) (bufLen : ℕ) :
    coreBuildDataPublish json payloadJson sigHex buf bufLen
      = buildText json buf bufLen (publishCalls payloadJson sigHex) := by
  simp only [coreBuildDataPublish, cString_eq hpayload, cString_eq hsig, buildText, publishCalls,
    runCalls, BuilderCall.run, bind_assoc]
  rfl

/-- A document that is sent was built by these calls. -/
theorem actrustCloudAwsSendData_calls {mqttPayloadMaxLen : ℕ} {mqttClient : Bool}
    {jsonBuf : ℕ → UInt8} {payload document : List UInt8}
    (h : actrustCloudAwsSendData json mqttPayloadMaxLen mqttClient jsonBuf payload = .ok document) :
    buildText json jsonBuf mqttPayloadMaxLen (documentCalls payload) = .ok document := by
  unfold actrustCloudAwsSendData at h
  split_ifs at h with hempty hclient hargs
  obtain ⟨-, hnul⟩ := not_or.mp hargs
  rw [← h]
  simp only [cString_eq hnul, buildText, documentCalls, runCalls, BuilderCall.run, bind_assoc]
  rfl

/-! ### What they denote -/

/-- The members of the signed text. -/
def signableMembers (data : List UInt8) (timestampMs : ℕ) : Members :=
  [(text "data", .str data), (text "timestamp", .num timestampMs)]

/-- The members of the message. -/
def publishMembers (payloadJson sigHex : List UInt8) : Members :=
  [(text "business", .obj [(text "action", .num 0x2000), (text "payload", .str payloadJson),
    (text "signature", .str sigHex)])]

/-- The members of the cloud's document. -/
def documentMembers (value : Value) : Members :=
  [(text "state", .obj [(text "reported", value)])]

/-- A timestamp below `2 ^ 63` is itself as an `int64_t`. -/
theorem toInt_ofNat {n : ℕ} (hn : n < 2 ^ 63) : (Int64.ofNat n).toInt = n := by
  rw [Int64.toInt_ofNat']
  exact Int.bmod_eq_of_le (by simp only [Int64.size]; omega) (by simp only [Int64.size]; omega)

/-- The signed text has its two members. -/
theorem signable_adds (data : List UInt8) {timestampMs : ℕ} (htime : timestampMs < 2 ^ 63) :
    AddsAll (.within [] []) (signableCalls data timestampMs)
      (.within [] (signableMembers data timestampMs)) := by
  have hint := Adds.int [] [(text "data", .str data)] (text "timestamp") (.ofNat timestampMs)
  rw [toInt_ofNat htime] at hint
  exact .cons (.string ..) (.cons hint (.nil _))

/-- The message has its three members. -/
theorem publish_adds (payloadJson sigHex : List UInt8) :
    AddsAll (.within [] []) (publishCalls payloadJson sigHex)
      (.within [] (publishMembers payloadJson sigHex)) :=
  .cons (.openObject ..) (.cons (.int ..) (.cons (.string ..) (.cons (.string ..)
    (.cons (.closeObject ..) (.nil _)))))

/-- The document can only be built of a message that denotes something. -/
theorem document_adds {payload : List UInt8} {members : Members}
    (h : AddsAll (.within [] []) (documentCalls payload) (.within [] members)
      ∨ AddsAll (.within [] []) (documentCalls payload) (.whole members)) :
    ∃ value, Denotes payload value ∧ members = documentMembers value := by
  -- Each call has one way to add to an object; the derivation is inverted call by call.
  have hinv {added : Added} (h : AddsAll (.within [] []) (documentCalls payload) added) :
      ∃ value, Denotes payload value ∧ added = .within [] (documentMembers value) := by
    cases h with
    | cons h₁ h =>
      cases h₁
      cases h with
      | cons h₂ h =>
        cases h₂ with
        | object _ _ _ _ hvalue =>
          cases h with
          | cons h₃ h =>
            cases h₃
            cases h
            exact ⟨_, hvalue, rfl⟩
  rcases h with h | h
  · obtain ⟨value, hvalue, hadded⟩ := hinv h
    cases hadded
    exact ⟨value, hvalue, rfl⟩
  · obtain ⟨value, -, hadded⟩ := hinv h
    cases hadded

/-! ### They fit -/

/-- The signed text. -/
def signableText (data : List UInt8) (timestampMs : ℕ) : List UInt8 :=
  callsText [123] (signableCalls data timestampMs) ++ [125]

/-- The message. -/
def publishText (payloadJson sigHex : List UInt8) : List UInt8 :=
  callsText [123] (publishCalls payloadJson sigHex) ++ [125]

/-- A printable text has no NUL. -/
theorem nul_notMem {s : List UInt8} (hs : IsPrintable s) : 0 ∉ s := fun h =>
  absurd (hs 0 h) (by decide)

/-- Each byte of the data takes at most six, next to 44 of the frame. -/
theorem signableText_length (data : List UInt8) (timestampMs : ℕ) :
    (callsText [123] (signableCalls data timestampMs)).length ≤ data.length * 6 + 44 := by
  have hdata := escaped_length data
  have hname : (escaped (text "data")).length = 4 := by decide +kernel
  have htime : (escaped (text "timestamp")).length = 9 := by decide +kernel
  refine (callsText_length _ _).trans ?_
  simp only [signableCalls, List.map_cons, List.map_nil, BuilderCall.size, List.sum_cons,
    List.sum_nil, List.length_cons, List.length_nil, hname, htime]
  omega

/-- Whatever the data, the signed text is printable. -/
theorem signableText_printable (data : List UInt8) (timestampMs : ℕ) :
    IsPrintable (signableText data timestampMs) := by
  refine IsPrintable.append ?_ (forall_mem_of_all rfl)
  refine callsText_of_parts (fun _ => IsPlain.printable) IsPrintable.append
    (forall_mem_of_all rfl) ?_
  simp only [signableCalls, List.forall_mem_cons]
  exact ⟨⟨escaped_printable _, escaped_printable _⟩, escaped_printable _, nofun⟩

/-- A name in plain ASCII is UTF-8. -/
theorem name_utf8 {name : String}
    (h : (text name).all (fun c => decide (32 ≤ c ∧ c < 128)) = true) :
    IsUtf8 (escaped (text name)) :=
  escaped_utf8 (IsPlain.utf8 (forall_mem_of_all h))

/-- With UTF-8 data the signed text is UTF-8. -/
theorem signableText_utf8 {data : List UInt8} (hdata : IsUtf8 data) (timestampMs : ℕ) :
    IsUtf8 (callsText [123] (signableCalls data timestampMs)) := by
  have hbrace : IsUtf8 [123] := IsPlain.utf8 (forall_mem_of_all rfl)
  refine callsText_of_parts (fun _ => IsPlain.utf8) IsUtf8.append hbrace ?_
  simp only [signableCalls, List.forall_mem_cons]
  exact ⟨⟨name_utf8 (by decide +kernel), escaped_utf8 hdata⟩,
    name_utf8 (by decide +kernel), nofun⟩

/-- A hex digit needs no escape. -/
theorem hexDigit_plain : ∀ n < 16, escapeSeq (hexDigit n) = [hexDigit n]
    ∧ 32 ≤ hexDigit n ∧ hexDigit n < 128 := by
  decide +kernel

/-- Nothing in a hexadecimal text is escaped. -/
theorem hexEncode_plain (bytes : List UInt8) :
    escaped (actrustHexEncode bytes) = actrustHexEncode bytes
      ∧ IsPlain (actrustHexEncode bytes) := by
  -- By induction on the bytes, two digits for each.
  induction bytes with
  | nil => exact ⟨rfl, nofun⟩
  | cons b bytes ih =>
    obtain ⟨hesc, hplain⟩ := ih
    have hb : b.toNat < 256 := b.toNat_lt
    obtain ⟨hhigh, hhigh'⟩ := hexDigit_plain (b.toNat / 16) (by omega)
    obtain ⟨hlow, hlow'⟩ := hexDigit_plain (b.toNat % 16) (by omega)
    have hcons : actrustHexEncode (b :: bytes)
        = hexDigit (b.toNat / 16) :: hexDigit (b.toNat % 16) :: actrustHexEncode bytes := rfl
    rw [hcons]
    constructor
    · rw [escaped, List.flatMap_cons, List.flatMap_cons, hhigh, hlow]
      exact congrArg (fun rest => _ :: _ :: rest) hesc
    · exact List.forall_mem_cons.mpr ⟨hhigh', List.forall_mem_cons.mpr ⟨hlow', hplain⟩⟩

/-- A printable payload at most doubles, so the bound of the source is enough. -/
theorem publishText_length {payloadJson : List UInt8} (hpayload : IsPrintable payloadJson)
    (sigDer : List UInt8) :
    (callsText [123] (publishCalls payloadJson (actrustHexEncode sigDer))).length
      ≤ payloadJson.length * 2 + (actrustHexEncode sigDer).length + 94 := by
  have hescaped := escaped_length_printable hpayload
  have hsig := (hexEncode_plain sigDer).1
  have hbusiness : (escaped (text "business")).length = 8 := by decide +kernel
  have haction : (escaped (text "action")).length = 6 := by decide +kernel
  have hname : (escaped (text "payload")).length = 7 := by decide +kernel
  have hname' : (escaped (text "signature")).length = 9 := by decide +kernel
  refine (callsText_length _ _).trans ?_
  simp only [publishCalls, List.map_cons, List.map_nil, BuilderCall.size, List.sum_cons,
    List.sum_nil, List.length_cons, List.length_nil, hbusiness, haction, hname, hname', hsig]
  omega

/-- With a UTF-8 payload the message is UTF-8. -/
theorem publishText_utf8 {payloadJson : List UInt8} (hpayload : IsUtf8 payloadJson)
    (sigDer : List UInt8) :
    IsUtf8 (callsText [123] (publishCalls payloadJson (actrustHexEncode sigDer))) := by
  have hbrace : IsUtf8 [123] := IsPlain.utf8 (forall_mem_of_all rfl)
  refine callsText_of_parts (fun _ => IsPlain.utf8) IsUtf8.append hbrace ?_
  have hsig : IsUtf8 (escaped (actrustHexEncode sigDer)) :=
    escaped_utf8 (hexEncode_plain sigDer).2.utf8
  simp only [publishCalls, List.forall_mem_cons]
  exact ⟨name_utf8 (by decide +kernel), name_utf8 (by decide +kernel),
    ⟨name_utf8 (by decide +kernel), escaped_utf8 hpayload⟩,
    ⟨name_utf8 (by decide +kernel), hsig⟩, trivial, nofun⟩

section Texts

variable {limit : ℕ∞} (hvalidate : ∀ t, json.validate t = true ↔ IsText limit t)
  (hlimit : 2 ≤ limit)

include hvalidate hlimit

/-- Within its buffer `core_build_signable` gives the text of the two members. -/
theorem coreBuildSignable_eq {data : List UInt8} (hdata : 0 ∉ data) (hutf8 : IsUtf8 data)
    {timestampMs : ℕ} (htime : timestampMs < 2 ^ 63) (buf : ℕ → UInt8) :
    coreBuildSignable json data timestampMs buf (data.length * 6 + coreSignableOverhead)
        = .ok (signableText data timestampMs)
      ∧ Denotes (signableText data timestampMs) (.obj (signableMembers data timestampMs)) := by
  have hlen := signableText_length data timestampMs
  rw [coreBuildSignable_calls hdata]
  refine buildText_fits hvalidate ?_ (signable_adds data htime) (signableText_utf8 hutf8 _) ?_ ?_
  · simp only [signableCalls, List.forall_mem_cons]
    exact ⟨rfl, trivial, nofun⟩
  · exact le_trans (Nat.cast_le.mpr (show 1 ≤ 2 by decide)) hlimit
  · simp only [coreSignableOverhead]
    omega

/-- Within its buffer `core_build_data_publish` gives the text of the three members. -/
theorem coreBuildDataPublish_eq {payloadJson : List UInt8} (hpayload : IsPrintable payloadJson)
    (hutf8 : IsUtf8 payloadJson) (sigDer : List UInt8) (buf : ℕ → UInt8) :
    coreBuildDataPublish json payloadJson (actrustHexEncode sigDer) buf
        (payloadJson.length * 2 + ((actrustHexEncode sigDer).length + coreSendJsonOverhead))
        = .ok (publishText payloadJson (actrustHexEncode sigDer))
      ∧ Denotes (publishText payloadJson (actrustHexEncode sigDer))
          (.obj (publishMembers payloadJson (actrustHexEncode sigDer))) := by
  have hlen := publishText_length hpayload sigDer
  have hsig := nul_notMem (hexEncode_plain sigDer).2.printable
  rw [coreBuildDataPublish_calls (nul_notMem hpayload) hsig]
  refine buildText_fits hvalidate ?_ (publish_adds payloadJson _) (publishText_utf8 hutf8 _) ?_ ?_
  · simp only [publishCalls, List.forall_mem_cons]
    exact ⟨trivial, trivial, rfl, rfl, trivial, nofun⟩
  · exact hlimit
  · simp only [coreSendJsonOverhead]
    omega

omit hlimit in
/-- A document that is built holds the message as it is. -/
theorem actrustCloudAwsSendData_denotes {mqttPayloadMaxLen : ℕ} {mqttClient : Bool}
    {jsonBuf : ℕ → UInt8} {payload document : List UInt8} {value : Value}
    (hpayload : Denotes payload value)
    (h : actrustCloudAwsSendData json mqttPayloadMaxLen mqttClient jsonBuf payload
      = .ok document) :
    Denotes document (.obj (documentMembers value)) := by
  have hdenotes (t : List UInt8) (ht : json.validate t = true) : ∃ value, Denotes t value := by
    obtain ⟨-, value, hvalue, -⟩ := (hvalidate t).mp ht
    exact ⟨value, hvalue⟩
  obtain ⟨members, hadds, hdocument⟩ := buildText_ok hdenotes (actrustCloudAwsSendData_calls h)
  obtain ⟨value', hvalue', rfl⟩ := document_adds hadds
  rwa [hvalue'.unique hpayload] at hdocument

end Texts

end Calls

/-- Whatever is published denotes what was given, and the builder never lacks room: the core's part
of a publish fails only if there is no memory, if the sizes overflow or if signing fails. -/
theorem coreSendMessage_envelope {json : CoreJson} {limit : ℕ∞}
    (hvalidate : ∀ t, json.validate t = true ↔ IsText limit t) (hlimit : 2 ≤ limit)
    {data : List UInt8} (hadmitted : actrustDataPublishArgs data = .ok ()) (hutf8 : IsUtf8 data)
    {env : SendEnv} {timestampMs : ℕ} (hnow : env.nowMs = .ok timestampMs)
    (htime : timestampMs < 2 ^ 63) :
    (∃ signable message sigDer,
        coreSendMessage json env data = .ok ⟨signable, message⟩
          ∧ env.sign signable = .ok sigDer
          ∧ Denotes signable (.obj (signableMembers data timestampMs))
          ∧ Denotes message (.obj (publishMembers signable (actrustHexEncode sigDer)))
          ∧ ∀ mqttPayloadMaxLen mqttClient jsonBuf document,
            actrustCloudAwsSendData json mqttPayloadMaxLen mqttClient jsonBuf message
                = .ok document →
              Denotes document (.obj (documentMembers
                (.obj (publishMembers signable (actrustHexEncode sigDer))))))
      ∨ coreSendMessage json env data = .error (coreErr .noMem)
          ∧ (env.signableBuf = none ∨ env.buf = none)
      ∨ coreSendMessage json env data = .error (coreErr .invalidArg)
          ∧ (data.length > (env.sizeMax - coreSignableOverhead) / 6
            ∨ ∃ sigDer, env.sign (signableText data timestampMs) = .ok sigDer
              ∧ MessageTooLong env.sizeMax (signableText data timestampMs)
                (actrustHexEncode sigDer))
      ∨ ∃ err, env.sign (signableText data timestampMs) = .error err
          ∧ coreSendMessage json env data = .error err := by
  -- The entry check leaves data without a NUL.
  obtain ⟨hne, hnul⟩ : data.length ≠ 0 ∧ 0 ∉ data := by
    unfold actrustDataPublishArgs at hadmitted
    split_ifs at hadmitted with hne hnul
    exact ⟨hne, hnul⟩
  have hutf8' : IsUtf8 (signableText data timestampMs) :=
    (signableText_utf8 hutf8 timestampMs).append (IsPlain.utf8 (forall_mem_of_all rfl))
  unfold coreSendMessage
  rw [if_neg hne, hnow]
  show _ ∨ _ ∨ _ ∨ _
  simp only [bind, Except.bind]
  -- The checks of `core_send_message` in its order, each with its error.
  by_cases hlen : data.length > (env.sizeMax - coreSignableOverhead) / 6
  · rw [if_pos hlen]
    exact .inr (.inr (.inl ⟨rfl, .inl hlen⟩))
  rw [if_neg hlen]
  cases hbuf : env.signableBuf with
  | none => exact .inr (.inl ⟨rfl, .inl rfl⟩)
  | some signableBuf =>
    obtain ⟨hsignable, hdata⟩ :=
      coreBuildSignable_eq hvalidate hlimit hnul hutf8 htime signableBuf
    simp only [hsignable]
    cases hsign : env.sign (signableText data timestampMs) with
    | error err => exact .inr (.inr (.inr ⟨err, rfl, rfl⟩))
    | ok sigDer =>
      dsimp only
      -- The second buffer is sized by the signature as well.
      by_cases hsig : (actrustHexEncode sigDer).length > env.sizeMax - coreSendJsonOverhead
      · rw [if_pos hsig]
        exact .inr (.inr (.inl ⟨rfl, .inr ⟨sigDer, rfl, .inl hsig⟩⟩))
      rw [if_neg hsig]
      by_cases hlong : (signableText data timestampMs).length
          > (env.sizeMax - ((actrustHexEncode sigDer).length + coreSendJsonOverhead)) / 2
      · rw [if_pos hlong]
        exact .inr (.inr (.inl ⟨rfl, .inr ⟨sigDer, rfl, .inr hlong⟩⟩))
      rw [if_neg hlong]
      cases hbuf' : env.buf with
      | none => exact .inr (.inl ⟨rfl, .inr rfl⟩)
      | some buf =>
        obtain ⟨hmessage, hpublish⟩ := coreBuildDataPublish_eq hvalidate hlimit
          (signableText_printable data timestampMs) hutf8' sigDer buf
        simp only [hmessage]
        exact .inl ⟨_, _, sigDer, rfl, hsign, hdata, hpublish, fun _ _ _ _ h =>
          actrustCloudAwsSendData_denotes hvalidate hpublish h⟩

/-- A quote and a line break, signed with a single byte. -/
-- The data is a quote and a newline, so the payload is escaped twice.
theorem coreSendMessage_envelope_quote :
    ∃ signable message, coreSendMessage (CoreJson.ofTexts ⊤)
        ⟨.ok 1763500000000, some fun _ => 7, fun _ => .ok [0x5F], some fun _ => 7, 2 ^ 64 - 1⟩
        [34, 10] = .ok ⟨signable, message⟩
      ∧ Denotes signable (.obj (signableMembers [34, 10] 1763500000000))
      ∧ Denotes message (.obj (publishMembers signable [53, 102])) := by
  have hutf8 : IsUtf8 [34, 10] := isUtf8_ascii (forall_mem_of_all rfl)
  have hadmitted : actrustDataPublishArgs [34, 10] = .ok () := rfl
  have hnow : (SendEnv.mk (.ok 1763500000000) (some fun _ => 7) (fun _ => .ok [0x5F])
      (some fun _ => 7) (2 ^ 64 - 1)).nowMs = .ok 1763500000000 := rfl
  -- The four answers; here only the first is possible.
  rcases coreSendMessage_envelope (CoreJson.ofTexts_validate ⊤) le_top hadmitted hutf8 hnow
      (by decide) with
    ⟨signable, message, sigDer, hmessage, hsign, hsignable, hpublish, -⟩ | ⟨-, hbuf⟩ | ⟨-, hlong⟩
      | ⟨err, herr, -⟩
  · cases hsign
    exact ⟨signable, message, hmessage, hsignable, hpublish⟩
  · rcases hbuf with hbuf | hbuf
    · cases hbuf
    · cases hbuf
  · rcases hlong with hlong | ⟨sigDer, hsign, hlong⟩
    · exact absurd hlong (by decide)
    · cases hsign
      have hlen := signableText_length [34, 10] 1763500000000
      have htext : (signableText [34, 10] 1763500000000).length
          = (callsText [123] (signableCalls [34, 10] 1763500000000)).length + 1 :=
        List.length_append
      have hhex : (actrustHexEncode [0x5F]).length = 2 := rfl
      simp only [MessageTooLong, hhex, htext, coreSendJsonOverhead, List.length_cons,
        List.length_nil] at hlong hlen
      omega
  · cases herr

end TrustSdk.Core
