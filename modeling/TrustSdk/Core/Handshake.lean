import Mathlib.Data.List.Basic
import TrustSdk.Core.Registration

/-!
# What a registration attempt may conclude

An attempt and the messages handled meanwhile, in any order and with any content. The history of
the attempt (`RegisterEvent`) lists the messages that count: challenges with the session id of the
attempt and a nonce, handled while the phase was WAIT_CHALLENGE, and results with the session id,
handled while it was WAIT_RESULT; and when the attempt was woken to read its outcome.

* `core_do_register_safe` — the attempt succeeds only after such a challenge and, later, a result
  that says ok; it signs the nonce of the first challenge, which fits its buffer; every other
  message changes nothing;
* `first_result_decides_iff` — the outcome is read only after the attempt has woken up, and results
  overwrite each other until then. So the first one decides if and only if the last one agrees.

The invariant (`Inv`) is by the program counter: what the history holds in each stage of the attempt,
and how it shows in the context.
-/

namespace TrustSdk.Core

open Json Machine

/-- What counts of an attempt: the messages handled, and the end of the wait for the result. -/
inductive RegisterEvent where
  | challenge (sessionId nonce : List UInt8)
  | result (sessionId : List UInt8) (ok : Bool)
  /-- The wait for the result has come to an end. -/
  | woken (waited : Except Err Unit)

/-- The session id of the attempt. -/
def CoreRegister.id (reg : CoreRegister) : List UInt8 := reg.sessionId.take reg.sessionIdLen

section

variable (json : CoreJson)

/-- The event of a message, if it counts. -/
def messageEvents (reg : CoreRegister) (msg : DownlinkMessage) : List RegisterEvent :=
  if reg.inProgress = false ∨ coreRegisterSessionMatchesLocked json reg msg = false then []
  else if coreDownlinkAction json msg = some coreActionRegisterChallenge ∧
      reg.phase = .waitChallenge then
    match coreReadText json msg "nonce" coreNonceMaxLen with
    | .stored (b :: nonce) => [.challenge reg.id (b :: nonce)]
    | _ => []
  else if coreDownlinkAction json msg = some coreActionRegisterResult ∧
      reg.phase = .waitResult then
    [.result reg.id (coreResultStatus json msg)]
  else []

/-- What an action of the attempt records. -/
def RegisterSystem.events (s : RegisterSystem) : RegisterAction → List RegisterEvent
  | .message msg => messageEvents json s.reg msg
  | .service env =>
    match s.pc, semWait env s.reg.resultSem with
    | .waitResult, some (waited, _) => [.woken waited]
    | _, _ => []

end

/-! ### What one message does -/

/-- The context after a message, and the event. -/
inductive Handled (reg : CoreRegister) : CoreRegister → List RegisterEvent → Prop
  | dropped : Handled reg reg []
  /-- A challenge after the first one. -/
  | repeated (nonce : List UInt8) : reg.phase = .waitChallenge → reg.nonceLen ≠ 0 →
      Handled reg reg [.challenge reg.id nonce]
  | unread : reg.phase = .waitChallenge → reg.nonceLen = 0 →
      Handled reg (coreChallengeFailed reg) []
  | tooLong (n : ℕ) : reg.phase = .waitChallenge → reg.nonceLen = 0 → coreNonceMaxLen ≤ n →
      Handled reg (coreChallengeFailed { reg with nonceLen := n }) []
  | stored (nonce : List UInt8) : reg.phase = .waitChallenge → reg.nonceLen = 0 →
      nonce.length < coreNonceMaxLen →
      Handled reg
        { reg with
          nonce := nonce ++ 0 :: reg.nonce.drop (nonce.length + 1)
          nonceLen := nonce.length
          ok := true
          challengeSem := reg.challengeSem.map (· + 1) }
        (if nonce = [] then [] else [.challenge reg.id nonce])
  | posted (ok : Bool) : reg.phase = .waitResult →
      Handled reg (coreResultPosted reg ok) [.result reg.id ok]

variable {json : CoreJson} {reg reg' : CoreRegister} {msg : DownlinkMessage}
  {h : List RegisterEvent}

/-- A message with an action code has passed the validation. -/
theorem actrustJsonInit_of_action {action : ℕ} (h : coreDownlinkAction json msg = some action) :
    actrustJsonInit json msg.payload = .ok msg.payload := by
  unfold coreDownlinkAction at h
  cases hinit : actrustJsonInit json msg.payload with
  | error e => simp [hinit] at h
  | ok view =>
    unfold actrustJsonInit at hinit
    split_ifs at hinit
    cases hinit
    rfl

/-- A text that is stored is shorter than the room for it. -/
theorem length_of_coreReadText {field : String} {cap : ℕ} {text : List UInt8}
    (h : coreReadText json msg field cap = .stored text) : text.length < cap := by
  unfold coreReadText at h
  cases hquery : actrustJsonQuery json msg.payload field with
  | error e => simp [hquery] at h
  | ok value =>
    simp only [hquery] at h
    exact length_of_stored h

/-- A text that does not fit is as long as the room or longer. -/
theorem le_of_coreReadText {field : String} {cap n : ℕ}
    (h : coreReadText json msg field cap = .tooLong n) : cap ≤ n := by
  unfold coreReadText at h
  cases hquery : actrustJsonQuery json msg.payload field with
  | error e => simp [hquery] at h
  | ok value =>
    simp only [hquery] at h
    exact length_of_tooLong h

/-- The handler of a challenge, in the words of `Handled`. -/
theorem coreHandleChallenge_handled
    (haction : coreDownlinkAction json msg = some coreActionRegisterChallenge) :
    Handled reg (coreHandleChallenge json reg msg) (messageEvents json reg msg) := by
  have hne : ¬ (coreDownlinkAction json msg = some coreActionRegisterResult ∧
      reg.phase = .waitResult) := by
    rw [haction]
    exact fun h => absurd h.1 (by decide)
  unfold coreHandleChallenge messageEvents
  rw [if_neg hne]
  -- The guards of the handler in its order, then the nonce.
  by_cases hprog : reg.inProgress = false
  · rw [if_pos (Or.inl hprog), if_pos (Or.inl hprog)]
    exact .dropped
  -- Nor does it count in another phase than the one that waits for it.
  by_cases hphase : reg.phase = .waitChallenge
  swap
  · have hlate : ¬ (coreDownlinkAction json msg = some coreActionRegisterChallenge ∧
        reg.phase = .waitChallenge) := fun h => hphase h.2
    rw [if_pos (Or.inr hphase), if_neg hlate, ite_self]
    exact .dropped
  have hopen : ¬ (reg.inProgress = false ∨ reg.phase ≠ .waitChallenge) :=
    not_or.mpr ⟨hprog, not_not.mpr hphase⟩
  rw [if_neg hopen, actrustJsonInit_of_action haction]
  dsimp only
  -- A message of another session is dropped under both readings.
  by_cases hmatch : coreRegisterSessionMatchesLocked json reg msg = false
  · rw [if_pos hmatch, if_pos (Or.inr hmatch)]
    exact .dropped
  have hcounts : ¬ (reg.inProgress = false ∨
      coreRegisterSessionMatchesLocked json reg msg = false) := not_or.mpr ⟨hprog, hmatch⟩
  rw [if_neg hmatch, if_neg hcounts, if_pos (And.intro haction hphase)]
  -- The first nonce is stored; a later one counts, and is not.
  by_cases hlen : reg.nonceLen = 0
  · rw [if_neg (not_not.mpr hlen)]
    cases hread : coreReadText json msg "nonce" coreNonceMaxLen with
    | failed e => exact .unread hphase hlen
    | tooLong n => exact .tooLong n hphase hlen (le_of_coreReadText hread)
    | stored nonce =>
      have hstored := Handled.stored nonce hphase hlen (length_of_coreReadText hread)
      cases nonce with
      | nil => exact hstored
      | cons b nonce => exact hstored
  · rw [if_pos hlen]
    split
    · exact .repeated _ hphase hlen
    · exact .dropped

/-- The handler of a result, in the words of `Handled`. -/
theorem coreHandleRegisterResult_handled
    (haction : coreDownlinkAction json msg = some coreActionRegisterResult) :
    Handled reg (coreHandleRegisterResult json reg msg) (messageEvents json reg msg) := by
  have hne : ¬ (coreDownlinkAction json msg = some coreActionRegisterChallenge ∧
      reg.phase = .waitChallenge) := by
    rw [haction]
    exact fun h => absurd h.1 (by decide)
  unfold coreHandleRegisterResult messageEvents
  rw [if_neg hne]
  -- The same guards, then the post.
  by_cases hprog : reg.inProgress = false
  · rw [if_pos (Or.inl hprog), if_pos (Or.inl hprog)]
    exact .dropped
  by_cases hphase : reg.phase = .waitResult
  swap
  · have hlate : ¬ (coreDownlinkAction json msg = some coreActionRegisterResult ∧
        reg.phase = .waitResult) := fun h => hphase h.2
    rw [if_pos (Or.inr hphase), if_neg hlate, ite_self]
    exact .dropped
  have hopen : ¬ (reg.inProgress = false ∨ reg.phase ≠ .waitResult) :=
    not_or.mpr ⟨hprog, not_not.mpr hphase⟩
  rw [if_neg hopen, actrustJsonInit_of_action haction]
  dsimp only
  -- A result of another session neither posts nor counts.
  by_cases hmatch : coreRegisterSessionMatchesLocked json reg msg = false
  · rw [if_pos hmatch, if_pos (Or.inr hmatch)]
    exact .dropped
  have hcounts : ¬ (reg.inProgress = false ∨
      coreRegisterSessionMatchesLocked json reg msg = false) := not_or.mpr ⟨hprog, hmatch⟩
  rw [if_neg hmatch, if_neg hcounts, if_pos (And.intro haction hphase)]
  -- The post is the event.
  exact .posted _ hphase

/-- Every message is handled in one of these ways. -/
theorem coreDownlinkDispatch_handled (json : CoreJson) (reg : CoreRegister)
    (msg : DownlinkMessage) :
    Handled reg (coreDownlinkDispatch json reg msg) (messageEvents json reg msg) := by
  -- a message without one of the two action codes has no event
  have hother (hc : coreDownlinkAction json msg ≠ some coreActionRegisterChallenge)
      (hr : coreDownlinkAction json msg ≠ some coreActionRegisterResult) :
      messageEvents json reg msg = [] := by
    have hc' : ¬ (coreDownlinkAction json msg = some coreActionRegisterChallenge ∧
        reg.phase = .waitChallenge) := fun h => hc h.1
    have hr' : ¬ (coreDownlinkAction json msg = some coreActionRegisterResult ∧
        reg.phase = .waitResult) := fun h => hr h.1
    rw [messageEvents, if_neg hc', if_neg hr', ite_self]
  unfold coreDownlinkDispatch
  cases haction : coreDownlinkAction json msg with
  | none =>
    rw [hother (by simp [haction]) (by simp [haction])]
    exact .dropped
  | some action =>
    dsimp only
    split_ifs with hc hr
    · exact coreHandleChallenge_handled (hc ▸ haction)
    · exact coreHandleRegisterResult_handled (hr ▸ haction)
    · rw [hother (by simp [haction, hc]) (by simp [haction, hr])]
      exact .dropped

/-! ### The history of an attempt -/

/-- The verdicts of the results, in order. -/
def results (h : List RegisterEvent) : List Bool :=
  h.filterMap fun
    | .result _ ok => some ok
    | _ => none

/-- How the wait for the result came to an end. -/
def wakes (h : List RegisterEvent) : List (Except Err Unit) :=
  h.filterMap fun
    | .woken waited => some waited
    | _ => none

/-- The results of a longer history. -/
@[simp] theorem results_append (h h' : List RegisterEvent) :
    results (h ++ h') = results h ++ results h' := List.filterMap_append

/-- The ends of the wait of a longer history. -/
@[simp] theorem wakes_append (h h' : List RegisterEvent) :
    wakes (h ++ h') = wakes h ++ wakes h' := List.filterMap_append

/-- Challenges, and then results and the wake-up. -/
structure Log (id : List UInt8) (cs : List (List UInt8)) (t h : List RegisterEvent) : Prop where
  eq : h = cs.map (.challenge id) ++ t
  tail : ∀ e ∈ t, (∃ ok, e = .result id ok) ∨ ∃ waited, e = .woken waited

/-- Challenges carry no result. -/
theorem results_challenges (id : List UInt8) (cs : List (List UInt8)) :
    results (cs.map (.challenge id)) = [] := by
  induction cs with
  | nil => rfl
  | cons c cs ih => exact ih

/-- Challenges end no wait. -/
theorem wakes_challenges (id : List UInt8) (cs : List (List UInt8)) :
    wakes (cs.map (.challenge id)) = [] := by
  induction cs with
  | nil => rfl
  | cons c cs ih => exact ih

/-- A result or an end of the wait is logged behind what there is. -/
theorem Log.push {id : List UInt8} {cs : List (List UInt8)} {t : List RegisterEvent}
    (hlog : Log id cs t h) {e : RegisterEvent}
    (he : (∃ ok, e = .result id ok) ∨ ∃ waited, e = .woken waited) :
    Log id cs (t ++ [e]) (h ++ [e]) where
  eq := by rw [hlog.eq, List.append_assoc]
  tail := by
    intro e' he'
    rcases List.mem_append.mp he' with hmem | hmem
    · exact hlog.tail e' hmem
    · rw [List.mem_singleton.mp hmem]
      exact he

/-! ### The invariant -/

/-- Until the request is sent no message counts. -/
structure Before (h : List RegisterEvent) (reg : CoreRegister) : Prop where
  phase : reg.phase = .idle
  nil : h = []

/-- While the attempt waits for its challenge. -/
structure Awaiting (h : List RegisterEvent) (reg : CoreRegister) : Prop where
  phase : reg.phase = .waitChallenge
  resultSem : reg.resultSem = some 0
  challenges : ∃ cs : List (List UInt8), h = cs.map (.challenge reg.id) ∧ (reg.nonceLen = 0 → cs = []) ∧
    (0 < reg.nonceLen → reg.nonceLen < coreNonceMaxLen →
      cs.head? = some (reg.nonce.take reg.nonceLen))
  /-- After a nonce that did not fit, no challenge is stored. -/
  tooLong : coreNonceMaxLen ≤ reg.nonceLen → reg.ok = false

/-- A challenge is stored: the first one. -/
structure Challenged (h : List RegisterEvent) (reg : CoreRegister) : Prop where
  phase : reg.phase = .idle
  resultSem : reg.resultSem = some 0
  pos : 0 < reg.nonceLen
  lt : reg.nonceLen < coreNonceMaxLen
  first : ∃ cs : List (List UInt8), h = cs.map (.challenge reg.id) ∧ cs.head? = some (reg.nonce.take reg.nonceLen)

/-- While the attempt waits for its result. -/
structure Judging (h : List RegisterEvent) (reg : CoreRegister) : Prop where
  phase : reg.phase = .waitResult
  log : ∃ nonce cs t, Log reg.id (nonce :: cs) t h ∧ 0 < nonce.length ∧
    nonce.length < coreNonceMaxLen
  /-- The last result has set the outcome. -/
  ok : reg.ok = (results h).getLast?.getD false

/-- What the history says about the result of the attempt. -/
def Outcome (h : List RegisterEvent) (result : Except Err Unit) : Prop :=
  (∃ e, result = .error e ∧ .ok () ∉ wakes h) ∨
  (.ok () ∈ wakes h ∧ results h ≠ [] ∧
    result = coreWaitOutcome (.ok ()) ((results h).getLast?.getD false) ∧
    ∃ id nonce cs t, Log id (nonce :: cs) t h ∧ 0 < nonce.length ∧ nonce.length < coreNonceMaxLen)

/-- The stage of the attempt. -/
def Stage (h : List RegisterEvent) (reg : CoreRegister) : RegisterPc → Prop
  | .createChallengeSem | .createResultSem | .begun => Before h reg
  | .makeKeypair | .collectDeviceInfo | .generateSessionId | .storeSessionId _ | .buildRequest
  | .armChallenge => Before h reg ∧ reg.resultSem = some 0
  | .sendRequest | .waitChallenge | .readChallenge _ => Awaiting h reg
  | .copyNonce | .buildResponse | .armResult => Challenged h reg
  | .sign nonce => Challenged h reg ∧ nonce = reg.nonce.take reg.nonceLen
  | .sendResponse | .waitResult =>
    Judging h reg ∧ wakes h = [] ∧ ∃ n, reg.resultSem = some n ∧ n ≤ (results h).length
  | .readResult waited => Judging h reg ∧ wakes h = [waited] ∧ (waited = .ok () → results h ≠ [])
  | .abandon _ => Awaiting h reg ∨ Judging h reg ∧ wakes h = []
  | .destroyKey e => reg.phase = .idle ∧ Outcome h (.error e)
  | .finish result | .returned result => reg.phase = .idle ∧ Outcome h result

/-- The invariant of an attempt. -/
structure Inv (h : List RegisterEvent) (s : RegisterSystem) : Prop where
  buffer : s.reg.nonce.length = coreNonceMaxLen
  stage : Stage h s.reg s.pc

/-! ### Messages keep the invariant -/

variable {ev : List RegisterEvent}

/-- Out of phase nothing happens. -/
theorem Handled.of_idle (hm : Handled reg reg' ev) (hidle : reg.phase = .idle) :
    reg' = reg ∧ ev = [] := by
  cases hm with
  | dropped => exact ⟨rfl, rfl⟩
  | repeated nonce hphase _ => simp [hidle] at hphase
  | unread hphase _ => simp [hidle] at hphase
  | tooLong n hphase _ _ => simp [hidle] at hphase
  | stored nonce hphase _ _ => simp [hidle] at hphase
  | posted ok hphase => simp [hidle] at hphase

/-- No handler changes the length of the nonce buffer. -/
theorem Handled.buffer (hm : Handled reg reg' ev) (hbuf : reg.nonce.length = coreNonceMaxLen) :
    reg'.nonce.length = coreNonceMaxLen := by
  cases hm with
  | stored nonce _ _ hlt =>
    simp only [List.length_append, List.length_cons, List.length_drop, hbuf]
    omega
  | _ => exact hbuf

/-- A message while the attempt waits for its challenge. -/
theorem Awaiting.message (ha : Awaiting h reg) (hm : Handled reg reg' ev) :
    Awaiting (h ++ ev) reg' := by
  -- The challenges counted so far; the message adds one or none.
  obtain ⟨cs, hlog, hnone, hfirst⟩ := ha.challenges
  cases hm with
  | dropped =>
    rw [List.append_nil]
    exact ha
  | repeated nonce _ hlen =>
    refine ⟨ha.phase, ha.resultSem, ⟨cs ++ [nonce], ?_, fun h0 => absurd h0 hlen, ?_⟩, ha.tooLong⟩
    · rw [hlog, List.map_append]
      rfl
    · intro hpos hlt
      -- the first one stays the first
      rw [List.head?_append, hfirst hpos hlt]
      rfl
  -- A nonce that cannot be read is no event.
  | unread _ hlen =>
    rw [List.append_nil]
    exact ⟨ha.phase, ha.resultSem, ⟨cs, hlog, hnone, hfirst⟩, fun _ => rfl⟩
  -- Too long: only its length is kept, and nothing is counted.
  | tooLong n _ hlen hn =>
    rw [List.append_nil]
    refine ⟨ha.phase, ha.resultSem, ⟨cs, hlog, fun _ => hnone hlen, ?_⟩, fun _ => rfl⟩
    exact fun _ hlt => absurd hlt (Nat.not_lt.mpr hn)
  -- The first one: nothing was counted before it.
  | stored nonce _ hlen hlt =>
    have hcs := hnone hlen
    subst hcs
    refine ⟨ha.phase, ha.resultSem, ?_, fun hle => absurd hlt (Nat.not_lt.mpr hle)⟩
    rw [hlog, List.map_nil, List.nil_append]
    cases nonce with
    | nil => exact ⟨[], rfl, fun _ => rfl, fun hpos => absurd hpos (Nat.lt_irrefl 0)⟩
    | cons b nonce =>
      refine ⟨[b :: nonce], rfl, fun h0 => absurd h0 (Nat.succ_ne_zero _), fun _ _ => ?_⟩
      simp
  -- A result is not waited for in this phase.
  | posted ok hphase => simp [ha.phase] at hphase

/-- A message while the attempt waits for its result. -/
theorem Judging.message (hj : Judging h reg) (hm : Handled reg reg' ev) :
    Judging (h ++ ev) reg' ∧ wakes (h ++ ev) = wakes h ∧
      ((reg' = reg ∧ results (h ++ ev) = results h) ∨
        (reg'.resultSem = reg.resultSem.map (· + 1) ∧
          (results (h ++ ev)).length = (results h).length + 1)) := by
  cases hm with
  | dropped =>
    rw [List.append_nil]
    exact ⟨hj, rfl, Or.inl ⟨rfl, rfl⟩⟩
  -- The outcome is now that of this result, whatever the earlier ones said.
  | posted ok _ =>
    obtain ⟨nonce, cs, t, hlog, hpos, hlt⟩ := hj.log
    have hres : results (h ++ [.result reg.id ok]) = results h ++ [ok] := by
      rw [results_append]
      rfl
    refine ⟨⟨hj.phase, ⟨nonce, cs, _, hlog.push (Or.inl ⟨ok, rfl⟩), hpos, hlt⟩, ?_⟩, ?_, Or.inr ⟨rfl, ?_⟩⟩
    · rw [hres, List.getLast?_append]
      rfl
    · rw [wakes_append]
      exact List.append_nil _
    · rw [hres, List.length_append]
      rfl
  -- The handler of challenges is out of phase.
  | repeated nonce hphase _ => simp [hj.phase] at hphase
  | unread hphase _ => simp [hj.phase] at hphase
  | tooLong n hphase _ _ => simp [hj.phase] at hphase
  | stored nonce hphase _ _ => simp [hj.phase] at hphase

/-- A message in any stage: out of phase it does nothing. -/
theorem Stage.message {pc : RegisterPc} (hs : Stage h reg pc) (hm : Handled reg reg' ev) :
    Stage (h ++ ev) reg' pc := by
  -- outside of the two waiting phases the message is dropped
  have hidle (hphase : reg.phase = .idle) : Stage (h ++ ev) reg' pc := by
    obtain ⟨rfl, rfl⟩ := hm.of_idle hphase
    rw [List.append_nil]
    exact hs
  cases pc with
  | sendRequest => exact Awaiting.message hs hm
  | waitChallenge => exact Awaiting.message hs hm
  -- Up to the answer, by the lemma about the waiting for a challenge.
  | readChallenge waited => exact Awaiting.message hs hm
  | sendResponse | waitResult =>
    -- Behind the answer only results count: each posts once and is counted once.
    obtain ⟨hj, hwake, n, hsem, hle⟩ := hs
    obtain ⟨hj', hwake', hpost⟩ := hj.message hm
    refine ⟨hj', hwake'.trans hwake, ?_⟩
    rcases hpost with ⟨hsame, hres⟩ | ⟨hsem', hres⟩
    · exact ⟨n, hsame ▸ hsem, hres ▸ hle⟩
    · exact ⟨n + 1, by rw [hsem', hsem]; rfl, by rw [hres]; exact Nat.succ_le_succ hle⟩
  | readResult waited =>
    obtain ⟨hj, hwake, hres⟩ := hs
    obtain ⟨hj', hwake', hpost⟩ := hj.message hm
    refine ⟨hj', hwake'.trans hwake, fun hw => ?_⟩
    rw [results_append]
    exact List.append_ne_nil_of_left_ne_nil (hres hw) _
  | abandon e =>
    -- An abandoned call may still have a phase of either kind.
    rcases hs with ha | ⟨hj, hwake⟩
    · exact Or.inl (ha.message hm)
    · obtain ⟨hj', hwake', -⟩ := hj.message hm
      exact Or.inr ⟨hj', hwake'.trans hwake⟩
  -- In every other phase the message is dropped.
  | createChallengeSem => exact hidle hs.phase
  | createResultSem => exact hidle hs.phase
  | begun => exact hidle hs.phase
  | makeKeypair => exact hidle hs.1.phase
  | collectDeviceInfo => exact hidle hs.1.phase
  | generateSessionId => exact hidle hs.1.phase
  | storeSessionId id => exact hidle hs.1.phase
  | buildRequest => exact hidle hs.1.phase
  | armChallenge => exact hidle hs.1.phase
  | copyNonce => exact hidle hs.phase
  | buildResponse => exact hidle hs.phase
  | armResult => exact hidle hs.phase
  | sign nonce => exact hidle hs.1.phase
  | destroyKey e => exact hidle hs.1
  | finish result => exact hidle hs.1
  | returned result => exact hidle hs.1

/-! ### Steps of the attempt keep the invariant -/

/-- A failed attempt. -/
theorem Outcome.failed {h : List RegisterEvent} (hwake : .ok () ∉ wakes h) (e : Err) :
    Outcome h (.error e) := Or.inl ⟨e, rfl, hwake⟩

/-- An attempt that fails before its request. -/
theorem Before.failed (hb : Before h reg) (e : Err) : Stage h reg (.out (.error e)) :=
  ⟨hb.phase, .failed (by simp [hb.nil, wakes]) e⟩

/-- An attempt that fails behind its challenge. -/
theorem Challenged.failed (hc : Challenged h reg) (e : Err) : Stage h reg (.out (.error e)) := by
  obtain ⟨cs, hlog, -⟩ := hc.first
  refine ⟨hc.phase, .failed ?_ e⟩
  rw [hlog, wakes_challenges]
  exact List.not_mem_nil

/-- The nonce that was stored, at its length. -/
theorem Challenged.length (hc : Challenged h reg) (hbuf : reg.nonce.length = coreNonceMaxLen) :
    (reg.nonce.take reg.nonceLen).length = reg.nonceLen :=
  List.length_take_of_le (by rw [hbuf]; exact Nat.le_of_lt hc.lt)

/-- The attempt goes over to wait for its result. -/
-- The phase opens for results; nothing has counted as one, since only challenges were logged.
theorem Challenged.arm (hc : Challenged h reg) (hbuf : reg.nonce.length = coreNonceMaxLen) :
    Judging h { reg with phase := .waitResult, ok := false } ∧ wakes h = [] ∧ results h = [] := by
  obtain ⟨cs, hlog, hfirst⟩ := hc.first
  have hwake : wakes h = [] := by rw [hlog, wakes_challenges]
  have hres : results h = [] := by rw [hlog, results_challenges]
  obtain ⟨rest, rfl⟩ := List.head?_eq_some_iff.mp hfirst
  refine ⟨⟨rfl, ⟨reg.nonce.take reg.nonceLen, rest, [], ⟨?_, ?_⟩, ?_, ?_⟩, ?_⟩, hwake, hres⟩
  · rw [hlog, List.append_nil]
    rfl
  · exact fun e he => absurd he List.not_mem_nil
  · rw [hc.length hbuf]
    exact hc.pos
  · rw [hc.length hbuf]
    exact hc.lt
  · rw [hres]
    rfl

/-- Nothing has ended a wait while the challenge is awaited. -/
theorem Awaiting.no_wakes (ha : Awaiting h reg) : .ok () ∉ wakes h := by
  obtain ⟨cs, hlog, -⟩ := ha.challenges
  rw [hlog, wakes_challenges]
  exact List.not_mem_nil

/-- A call into a lower layer either fails the attempt or moves it on. -/
theorem Stage.after {env : RegisterEnv} {next : RegisterPc} (hok : Stage h reg next)
    (hfail : ∀ e, Stage h reg (.out (.error e))) :
    Stage h (RegisterPc.after env reg next).1 (RegisterPc.after env reg next).2 := by
  unfold RegisterPc.after
  cases env.result with
  | ok _ => exact hok
  | error e => exact hfail e

/-- The attempt reads what the wait for the challenge has come to. -/
theorem Awaiting.read (ha : Awaiting h reg) (env : RegisterEnv) (waited : Except Err Unit) :
    Stage h ((RegisterPc.readChallenge waited).step env reg).1
      ((RegisterPc.readChallenge waited).step env reg).2 := by
  -- A wait that fails, or finds no usable nonce, ends the attempt.
  obtain ⟨cs, hlog, -, hfirst⟩ := ha.challenges
  have hfail (e : Err) : Stage h { reg with phase := .idle } (.out (.error e)) :=
    ⟨rfl, .failed ha.no_wakes e⟩
  simp only [RegisterPc.step]
  cases waited with
  | error e => exact hfail e
  | ok _ =>
    cases hgood : decide (reg.nonceLen ≠ 0 ∧ reg.ok = true) with
    | true =>
      obtain ⟨hne, hok⟩ := of_decide_eq_true hgood
      -- The length of a nonce that did not fit is left behind, but then `ok` is false.
      have hlt : reg.nonceLen < coreNonceMaxLen := by
        by_contra hle
        have hbad := ha.tooLong (Nat.not_lt.mp hle)
        rw [hok] at hbad
        cases hbad
      have hpos := Nat.pos_of_ne_zero hne
      exact ⟨rfl, ha.resultSem, hpos, hlt, cs, hlog, hfirst hpos hlt⟩
    | false => exact hfail _

/-- The attempt is woken from its wait for the result. -/
theorem Judging.woken (hj : Judging h reg) (waited : Except Err Unit) (resultSem : Option ℕ) :
    Judging (h ++ [.woken waited]) { reg with resultSem } := by
  obtain ⟨nonce, cs, t, hlog, hpos, hlt⟩ := hj.log
  refine ⟨hj.phase, ⟨nonce, cs, _, hlog.push (Or.inr ⟨waited, rfl⟩), hpos, hlt⟩, ?_⟩
  rw [results_append]
  exact hj.ok.trans (by rw [show results [.woken waited] = [] from rfl, List.append_nil])

/-- The attempt reads its outcome. -/
theorem Judging.read (hj : Judging h reg) (env : RegisterEnv) {waited : Except Err Unit}
    (hwake : wakes h = [waited]) (hres : waited = .ok () → results h ≠ []) :
    Stage h ((RegisterPc.readResult waited).step env reg).1
      ((RegisterPc.readResult waited).step env reg).2 := by
  -- A wait that timed out is an error; one that was posted reads the last result.
  obtain ⟨nonce, cs, t, hlog, hpos, hlt⟩ := hj.log
  simp only [RegisterPc.step]
  cases waited with
  | error e => exact ⟨rfl, .failed (by simp [hwake]) e⟩
  | ok _ =>
    have houtcome : Outcome h (coreWaitOutcome (.ok ()) reg.ok) := by
      refine Or.inr ⟨by simp [hwake], hres rfl, by rw [hj.ok], ?_⟩
      exact ⟨reg.id, nonce, cs, t, hlog, hpos, hlt⟩
    cases hok : reg.ok with
    | true =>
      rw [hok] at houtcome
      exact ⟨rfl, houtcome⟩
    | false =>
      rw [hok] at houtcome
      exact ⟨rfl, houtcome⟩

/-- The wait goes on, fails, or takes a post. -/
theorem semWait_cases (env : RegisterEnv) (sem : Option ℕ) :
    semWait env sem = none ∨ (∃ e, semWait env sem = some (.error e, sem)) ∨
      ∃ n, sem = some (n + 1) ∧ semWait env sem = some (.ok (), some n) := by
  unfold semWait
  cases env.result with
  | error e => exact Or.inr (Or.inl ⟨e, rfl⟩)
  | ok _ =>
    rcases sem with _ | _ | n
    · exact Or.inl rfl
    · exact Or.inl rfl
    · exact Or.inr (Or.inr ⟨n, rfl, rfl⟩)

/-- A section of the service keeps the stage. -/
theorem Stage.service (json : CoreJson) {s : RegisterSystem} (hs : Stage h s.reg s.pc)
    (hbuf : s.reg.nonce.length = coreNonceMaxLen) (env : RegisterEnv) :
    Stage (h ++ s.events json (.service env)) (s.pc.step env s.reg).1 (s.pc.step env s.reg).2 := by
  obtain ⟨reg, pc⟩ := s
  -- only the wake-up has an event
  by_cases hwait : pc = .waitResult
  · subst hwait
    obtain ⟨hj, hwake, n, hsem, hle⟩ := hs
    -- The wait goes on, fails, or takes a post.
    rcases semWait_cases env reg.resultSem with heq | ⟨e, heq⟩ | ⟨k, hk, heq⟩
    · simp only [RegisterSystem.events, RegisterPc.step, heq]
      rw [List.append_nil]
      exact ⟨hj, hwake, n, hsem, hle⟩
    · simp only [RegisterSystem.events, RegisterPc.step, heq]
      refine ⟨hj.woken _ _, ?_, fun hw => absurd hw (by simp)⟩
      rw [wakes_append, hwake]
      rfl
    · simp only [RegisterSystem.events, RegisterPc.step, heq]
      refine ⟨hj.woken _ _, ?_, fun _ => ?_⟩
      · rw [wakes_append, hwake]
        rfl
      · -- the semaphore was posted by a result
        obtain rfl : n = k + 1 := Option.some.inj (hsem.symm.trans hk)
        rw [results_append]
        refine List.append_ne_nil_of_left_ne_nil (fun hnil => ?_) _
        rw [hnil] at hle
        exact absurd hle (Nat.not_succ_le_zero k)
  have hnone : RegisterSystem.events json ⟨reg, pc⟩ (.service env) = [] := by
    cases pc <;> first | rfl | exact absurd rfl hwait
  rw [hnone, List.append_nil]
  cases pc with
  | waitResult => exact absurd rfl hwait
  -- A semaphore that is not made ends the call before it waits for anything.
  | createChallengeSem | createResultSem =>
    simp only [RegisterPc.step]
    cases env.result with
    | ok _ => exact hs
    | error e => exact ⟨hs.phase, .failed (by simp [hs.nil, wakes]) e⟩
  | begun => exact ⟨⟨rfl, hs.nil⟩, rfl⟩
  | makeKeypair => exact Stage.after hs hs.1.failed
  | collectDeviceInfo => exact Stage.after hs hs.1.failed
  | generateSessionId => exact Stage.after hs hs.1.failed
  | storeSessionId id => exact ⟨⟨hs.1.phase, hs.1.nil⟩, hs.2⟩
  | buildRequest => exact Stage.after hs hs.1.failed
  -- From here on a challenge counts; the nonce of an older call is cleared.
  | armChallenge =>
    have ha : Awaiting h { reg with phase := .waitChallenge, ok := false, nonceLen := 0 } :=
      ⟨rfl, hs.2, ⟨[], hs.1.nil, fun _ => rfl, fun h0 => absurd h0 (Nat.lt_irrefl 0)⟩, fun _ => rfl⟩
    simp only [RegisterPc.step]
    split_ifs
    · exact Or.inl ha
    · exact ha
  | sendRequest =>
    simp only [RegisterPc.step]
    cases env.result with
    | ok _ => exact hs
    | error e => exact Or.inl hs
  | waitChallenge =>
    simp only [RegisterPc.step]
    cases semWait env reg.challengeSem with
    | none => exact hs
    -- The wake-up itself reads nothing.
    | some waited => exact ⟨hs.phase, hs.resultSem, hs.challenges, hs.tooLong⟩
  | readChallenge waited => exact Awaiting.read hs env waited
  -- The nonce is copied under the lock, as long as it fits.
  | copyNonce =>
    simp only [RegisterPc.step]
    split_ifs
    · exact hs.failed _
    · exact ⟨hs, rfl⟩
  | sign nonce => exact Stage.after hs.1 hs.1.failed
  | buildResponse => exact Stage.after hs hs.failed
  | armResult =>
    -- From here on a result counts, and none has come before.
    have hj := hs.arm hbuf
    simp only [RegisterPc.step]
    split_ifs
    · exact Or.inr ⟨hj.1, hj.2.1⟩
    · exact ⟨hj.1, hj.2.1, 0, hs.resultSem, Nat.zero_le _⟩
  | sendResponse =>
    simp only [RegisterPc.step]
    cases env.result with
    | ok _ => exact hs
    | error e => exact Or.inr ⟨hs.1, hs.2.1⟩
  | readResult waited => exact hs.1.read env hs.2.1 hs.2.2
  | abandon e =>
    refine ⟨rfl, .failed ?_ e⟩
    -- The call has not been woken by a result, so it answers with its error.
    rcases hs with ha | ⟨-, hwake⟩
    · exact ha.no_wakes
    · rw [hwake]
      exact List.not_mem_nil
  | destroyKey e => exact hs
  | finish result => exact ⟨rfl, hs.2⟩
  | returned result => exact hs

/-- The attempt itself never writes the nonce buffer. -/
theorem RegisterPc.step_nonce (env : RegisterEnv) (reg : CoreRegister) (pc : RegisterPc) :
    (pc.step env reg).1.nonce = reg.nonce := by
  -- The nonce is written by the handler of challenges alone.
  cases pc with
  | waitChallenge =>
    simp only [RegisterPc.step]
    cases semWait env reg.challengeSem <;> rfl
  | waitResult =>
    simp only [RegisterPc.step]
    cases semWait env reg.resultSem <;> rfl
  | copyNonce =>
    simp only [RegisterPc.step]
    split_ifs <;> rfl
  | _ =>
    simp only [RegisterPc.step, RegisterPc.after]
    try cases env.result <;> rfl

/-- A message or a section of the service keeps the invariant. -/
theorem Inv.step (json : CoreJson) (h : List RegisterEvent) (s : RegisterSystem)
    (a : RegisterAction) (hinv : Inv h s) :
    Inv (h ++ s.events json a) (RegisterSystem.step json s a).2 := by
  cases a with
  | message msg =>
    have hm := coreDownlinkDispatch_handled json s.reg msg
    exact ⟨hm.buffer hinv.buffer, hinv.stage.message hm⟩
  | service env =>
    refine ⟨?_, hinv.stage.service json hinv.buffer env⟩
    rw [← hinv.buffer]
    exact congrArg List.length (RegisterPc.step_nonce env s.reg s.pc)

/-- An attempt begins with nothing handled. -/
theorem Inv.attempt {reg : CoreRegister} (hbuf : reg.nonce.length = coreNonceMaxLen) :
    Inv [] (.attempt reg) := ⟨hbuf, rfl, rfl⟩

/-! ### The attempt is safe -/

/-- A message that must not count: it is not valid JSON, has another session id, arrives out of
phase, or is a challenge after the first one. -/
def Ignored (json : CoreJson) (reg : CoreRegister) (msg : DownlinkMessage) : Prop :=
  (∃ e, actrustJsonInit json msg.payload = .error e) ∨
  coreRegisterSessionMatchesLocked json reg msg = false ∨
  (coreDownlinkAction json msg = some coreActionRegisterChallenge →
    reg.inProgress = false ∨ reg.phase ≠ .waitChallenge ∨ reg.nonceLen ≠ 0) ∧
  (coreDownlinkAction json msg = some coreActionRegisterResult →
    reg.inProgress = false ∨ reg.phase ≠ .waitResult)

/-- A message that `Ignored` describes changes nothing. -/
theorem coreDownlinkDispatch_ignored (h : Ignored json reg msg) :
    coreDownlinkDispatch json reg msg = reg := by
  unfold coreDownlinkDispatch
  cases haction : coreDownlinkAction json msg with
  | none => rfl
  | some action =>
    have hinit := actrustJsonInit_of_action haction
    -- a message with an action code is valid JSON
    have hwhy : coreRegisterSessionMatchesLocked json reg msg = false ∨
        (action = coreActionRegisterChallenge →
          reg.inProgress = false ∨ reg.phase ≠ .waitChallenge ∨ reg.nonceLen ≠ 0) ∧
        (action = coreActionRegisterResult → reg.inProgress = false ∨ reg.phase ≠ .waitResult) := by
      -- Why nothing counts: no JSON, another session, or not the phase.
      rcases h with ⟨e, he⟩ | hmatch | ⟨hc, hr⟩
      · rw [hinit] at he
        cases he
      · exact Or.inl hmatch
      · exact Or.inr ⟨fun ha => hc (ha ▸ haction), fun ha => hr (ha ▸ haction)⟩
    dsimp only
    -- In each branch the reason is the guard that drops the message.
    split_ifs with hc hr
    · unfold coreHandleChallenge
      rw [hinit]
      dsimp only
      split_ifs with hopen hmatch hlen
      · rfl
      · rfl
      · rfl
      · rcases hwhy with hno | ⟨hno, -⟩
        · exact absurd hno hmatch
        · obtain ⟨hprog, hphase⟩ := not_or.mp hopen
          exact absurd (hno hc) (not_or.mpr ⟨hprog, not_or.mpr ⟨hphase, hlen⟩⟩)
    · unfold coreHandleRegisterResult
      rw [hinit]
      dsimp only
      split_ifs with hopen hmatch
      · rfl
      · rfl
      · rcases hwhy with hno | ⟨-, hno⟩
        · exact absurd hno hmatch
        · exact absurd (hno hr) hopen
    · -- Any other action has no handler.
      rfl

section Attempt

variable (json : CoreJson) (reg : CoreRegister) (actions : List RegisterAction)

/-- The end of an attempt and of the messages handled meanwhile. -/
def attemptEnd : RegisterSystem := (run (RegisterSystem.step json) actions (.attempt reg)).2

/-- What counts of the attempt. -/
def attemptHistory : List RegisterEvent :=
  history (RegisterSystem.step json) (RegisterSystem.events json) actions (.attempt reg)

end Attempt

variable {actions : List RegisterAction}

/-- The invariant at any point of the attempt. -/
theorem attempt_inv (json : CoreJson) (hbuf : reg.nonce.length = coreNonceMaxLen)
    (actions : List RegisterAction) :
    Inv (attemptHistory json reg actions) (attemptEnd json reg actions) :=
  history_invariant (Inv.step json) actions (.attempt hbuf)

/-- The last verdict is that of a result in the history. -/
theorem exists_result {id : List UInt8} {cs : List (List UInt8)} {t : List RegisterEvent}
    -- The last result is true, so it is one of those logged behind the challenge.
    (hlog : Log id cs t h) (hok : (results h).getLast?.getD false = true) :
    ∃ mid after, t = mid ++ .result id true :: after := by
  have hmem : true ∈ results h := by
    cases hlast : (results h).getLast? with
    | none => simp [hlast] at hok
    | some v =>
      rw [hlast, Option.getD_some] at hok
      exact hok ▸ List.mem_of_getLast? hlast
  rw [hlog.eq, results_append, results_challenges, List.nil_append] at hmem
  obtain ⟨e, he, hv⟩ := List.mem_filterMap.mp hmem
  rcases hlog.tail e he with ⟨ok, rfl⟩ | ⟨waited, rfl⟩
  · obtain rfl : ok = true := Option.some.inj hv
    obtain ⟨mid, after, ht⟩ := List.append_of_mem he
    exact ⟨mid, after, ht⟩
  · cases hv

/-- At any moment of an attempt: it has succeeded only after a challenge and a result that says ok,
both with its session id; what it signs is the nonce of the first challenge; the length that it
copies is below that of the buffer; and a message that must not count changes nothing. -/
theorem core_do_register_safe (hbuf : reg.nonce.length = coreNonceMaxLen) :
    ((attemptEnd json reg actions).pc = .returned (.ok ()) →
      ∃ id nonce mid after,
        attemptHistory json reg actions =
          .challenge id nonce :: mid ++ .result id true :: after ∧
        0 < nonce.length ∧ nonce.length < coreNonceMaxLen) ∧
    (∀ nonce, (attemptEnd json reg actions).pc = .sign nonce →
      ∃ id rest, attemptHistory json reg actions = .challenge id nonce :: rest ∧
        0 < nonce.length ∧ nonce.length < coreNonceMaxLen) ∧
    ((attemptEnd json reg actions).pc = .copyNonce →
      (attemptEnd json reg actions).reg.nonceLen < coreNonceMaxLen) ∧
    (attemptEnd json reg actions).reg.nonce.length = coreNonceMaxLen ∧
    ∀ msg, Ignored json (attemptEnd json reg actions).reg msg →
      coreDownlinkDispatch json (attemptEnd json reg actions).reg msg =
        (attemptEnd json reg actions).reg := by
  have hinv := attempt_inv json hbuf actions
  have hstage := hinv.stage
  refine ⟨fun hpc => ?_, fun nonce hpc => ?_, fun hpc => ?_, hinv.buffer,
    fun msg => coreDownlinkDispatch_ignored⟩
  · -- A success has woken with the outcome of the last result, so that result was OK.
    rw [hpc] at hstage
    rcases hstage.2 with ⟨e, he, -⟩ | ⟨-, -, hres, id, nonce, cs, t, hlog, hpos, hlt⟩
    · cases he
    · have hok : (results (attemptHistory json reg actions)).getLast?.getD false = true := by
        by_contra hfalse
        rw [Bool.not_eq_true] at hfalse
        rw [hfalse] at hres
        cases hres
      obtain ⟨mid, after, rfl⟩ := exists_result hlog hok
      refine ⟨id, nonce, cs.map (.challenge id) ++ mid, after, ?_, hpos, hlt⟩
      rw [hlog.eq, List.map_cons, List.cons_append, List.cons_append, List.append_assoc]
  · -- What is signed is the nonce of the first challenge.
    rw [hpc] at hstage
    obtain ⟨hc, rfl⟩ := hstage
    obtain ⟨cs, hlog, hfirst⟩ := hc.first
    obtain ⟨rest, rfl⟩ := List.head?_eq_some_iff.mp hfirst
    refine ⟨_, _, hlog, ?_, ?_⟩
    · rw [hc.length hinv.buffer]
      exact hc.pos
    · rw [hc.length hinv.buffer]
      exact hc.lt
  · rw [hpc] at hstage
    exact Challenged.lt hstage

/-! Three messages of one attempt, whose session id is all zeros. -/

/-- The session id of the example. -/
def zeroId : String := "00000000000000000000000000000000"

/-- A challenge with the nonce "n". -/
def challengeText : List UInt8 :=
  text ("\x7b\"action\":4097,\"session_id\":\"" ++ zeroId ++ "\",\"nonce\":\"n\"\x7d")

/-- A result with the status. -/
def resultText (status : String) : List UInt8 :=
  text ("\x7b\"action\":4099,\"session_id\":\"" ++ zeroId ++ "\",\"status\":\"" ++ status ++ "\"\x7d")

/-- What coreJSON answers on these texts. -/
def exampleJson : CoreJson where
  validate := fun buf => buf = challengeText ∨ buf = resultText "ok" ∨ buf = resultText "no"
  search := fun buf path =>
    if path = "session_id" then some (text zeroId, .string)
    else if path = "action" then
      some (if buf = challengeText then text "4097" else text "4099", .number)
    else if path = "nonce" ∧ buf = challengeText then some (text "n", .string)
    else if path = "status" ∧ buf = resultText "ok" then some (text "ok", .string)
    else if path = "status" ∧ buf = resultText "no" then some (text "no", .string)
    else none

/-- `reg` as the core clears it. -/
def emptyRegister : CoreRegister :=
  ⟨none, none, List.replicate 64 0, 0, [], 0, false, false, .idle⟩

/-- `n` steps of the attempt in which everything goes well. -/
def service (n : ℕ) : List RegisterAction :=
  List.replicate n (.service ⟨.ok (), Vector.replicate 16 0⟩)

/-- A message whose text is valid UTF-8. -/
def handle (payload : List UInt8) : RegisterAction := .message ⟨payload, fun _ => true⟩

/-- An attempt, its challenge, and the results that are handled before it wakes up. -/
def attemptRun (statuses : List String) : List RegisterAction :=
  service 10 ++ [handle challengeText] ++ service 7 ++
    statuses.map (fun status => handle (resultText status)) ++ service 4

/-- A challenge and an OK, and the attempt succeeds. -/
theorem core_do_register_safe_example :
    (attemptEnd exampleJson emptyRegister (attemptRun ["ok"])).pc = .returned (.ok ()) ∧
      ∃ id nonce mid after,
        attemptHistory exampleJson emptyRegister (attemptRun ["ok"]) =
          .challenge id nonce :: mid ++ .result id true :: after ∧
        0 < nonce.length ∧ nonce.length < coreNonceMaxLen :=
  ⟨by decide +kernel, (core_do_register_safe (by decide)).1 (by decide +kernel)⟩

/-! ### Which result decides -/

/-- The first result with the session id decides: an attempt whose first result says something else
than ok does not succeed, and one whose first result says ok does not fail once it has been woken. -/
def FirstDecides (h : List RegisterEvent) (result : Except Err Unit) : Prop :=
  ((results h).head? = some false → result ≠ .ok ()) ∧
  ((results h).head? = some true → .ok () ∈ wakes h → result = .ok ())

/-- When an attempt has been woken by a result, it returns what the last one says: the first one
decides if and only if the last one handled before the outcome is read agrees with it. -/
theorem first_result_decides_iff (hbuf : reg.nonce.length = coreNonceMaxLen)
    {result : Except Err Unit} (hret : (attemptEnd json reg actions).pc = .returned result) :
    FirstDecides (attemptHistory json reg actions) result ↔
      (.ok () ∈ wakes (attemptHistory json reg actions) →
        (results (attemptHistory json reg actions)).head? =
          (results (attemptHistory json reg actions)).getLast?) := by
  have hstage := (attempt_inv json hbuf actions).stage
  rw [hret] at hstage
  rcases hstage.2 with ⟨e, rfl, hwake⟩ | ⟨hwake, hne, rfl, -⟩
  · -- the attempt has failed without being woken by a result
    refine ⟨fun _ hw => absurd hw hwake, fun _ => ⟨fun _ h => ?_, fun _ hw => absurd hw hwake⟩⟩
    cases h
  · obtain ⟨first, rest, hres⟩ := List.exists_cons_of_ne_nil hne
    obtain ⟨last, hlast⟩ : ∃ last, (results (attemptHistory json reg actions)).getLast? =
        some last := ⟨_, List.getLast?_eq_some_getLast hne⟩
    have hfirst : (results (attemptHistory json reg actions)).head? = some first := by
      rw [hres]
      rfl
    unfold FirstDecides
    rw [hlast, hfirst, Option.getD_some]
    cases first <;> cases last <;> simp [coreWaitOutcome, hwake]

/-- A second OK decides nothing new. -/
theorem first_result_decides_repeated :
    FirstDecides (attemptHistory exampleJson emptyRegister (attemptRun ["ok", "ok"])) (.ok ()) :=
  (first_result_decides_iff (by decide) (by decide +kernel)).mpr fun _ => by decide +kernel

/-- A refusal, and a result that says ok before the attempt wakes up. -/
theorem not_first_result_decides :
    ¬ ∀ (json : CoreJson) (reg : CoreRegister) (actions : List RegisterAction)
        (result : Except Err Unit), reg.nonce.length = coreNonceMaxLen →
        (attemptEnd json reg actions).pc = .returned result →
        FirstDecides (attemptHistory json reg actions) result := by
  intro h
  have hdecides := h exampleJson emptyRegister (attemptRun ["no", "ok"]) (.ok ()) (by decide)
    (by decide +kernel)
  exact hdecides.1 (by decide +kernel) rfl

end TrustSdk.Core
