import TrustSdk.Lib.Histories
import TrustSdk.Ntp.Sync

/-!
# The time that the client tells

However the threads interleave and whatever the adapter and the server answer (`ntp_clock_safe`):
the offset that is read is the one committed last, and what is committed was an acceptable answer to
this request from the server it was sent to; no time is told before, nor one that does not fit 64
bits; and a sync leaves no socket behind and does not wait beyond its time.

* `NtpKnown` — what the events have told: the offset that was committed last, and of the sync that
  started last its time, its server, its request and the answer;
* `NtpEvent.Truthful` — what an event has to be, for what is known before it;
* `Timely` — the invariant; what carries it is that one operation at most has the operation lock.
-/

namespace TrustSdk.Ntp

open ByteStore Histories Machine
open TrustSdk.Net (CString)

/-! ### Times -/

/-- What is left is the distance to the deadline, and it is neither nothing nor more than all. -/
theorem ntpDeadlineRemaining_ok {start now : UInt64} {budgetMs remainingMs : UInt32}
    (h : ntpDeadlineRemaining start budgetMs now = .ok remainingMs) :
    now + remainingMs.toUInt64 = start + budgetMs.toUInt64 ∧ 0 < remainingMs ∧
      remainingMs ≤ budgetMs := by
  unfold ntpDeadlineRemaining at h
  split at h
  · cases h
  · split at h
    · cases h
    · rename_i hleft
      -- the elapsed time is below the budget, so it survives the narrowing to 32 bits
      obtain rfl := Except.ok.inj h
      have helapsed : (now - start).toNat < budgetMs.toNat := by
        simpa [UInt64.le_iff_toNat_le] using hleft
      have hbudget : budgetMs.toNat < 2 ^ 32 := budgetMs.toNat_lt
      have hnarrow : (now - start).toUInt32.toNat = (now - start).toNat := by
        rw [UInt64.toNat_toUInt32]
        exact Nat.mod_eq_of_lt (helapsed.trans hbudget)
      have hle : (now - start).toUInt32 ≤ budgetMs := by
        rw [UInt32.le_iff_toNat_le, hnarrow]
        exact helapsed.le
      have hremaining : (budgetMs - (now - start).toUInt32).toNat =
          budgetMs.toNat - (now - start).toNat := by
        rw [UInt32.toNat_sub_of_le _ _ hle, hnarrow]
      refine ⟨?_, ?_, ?_⟩
      · have hsum : (now - start) + (budgetMs - (now - start).toUInt32).toUInt64 =
            budgetMs.toUInt64 := by
          apply UInt64.toNat_inj.mp
          rw [UInt64.toNat_add, UInt32.toNat_toUInt64, UInt32.toNat_toUInt64, hremaining]
          omega
        -- the remaining time ends at the deadline, also where the clock wraps
        calc now + (budgetMs - (now - start).toUInt32).toUInt64
            = start + ((now - start) + (budgetMs - (now - start).toUInt32).toUInt64) := by
              rw [← UInt64.add_assoc, UInt64.add_comm start, UInt64.sub_add_cancel]
          _ = start + budgetMs.toUInt64 := by rw [hsum]
      · rw [UInt32.lt_iff_toNat_lt, hremaining]
        exact Nat.sub_pos_of_lt helapsed
      · rw [UInt32.le_iff_toNat_le, hremaining]
        exact Nat.sub_le _ _

/-- The time that is told is the wall clock with the offset, if there is one and 64 bits hold it. -/
def TimeTold (wallMs : UInt64) (offsetMs : Int64) : Except Err UInt64 → Prop
  | .ok nowMs => wallMs ≠ 0 ∧ (nowMs.toNat : ℤ) = wallMs.toNat + offsetMs.toInt
  | .error e => wallMs = 0 ∧ e = ntpErr .hwFailure ∨
    wallMs ≠ 0 ∧ e = ntpErr .badState ∧
      (wallMs.toNat + offsetMs.toInt < 0 ∨ 2 ^ 64 ≤ wallMs.toNat + offsetMs.toInt)

/-- A signed number by its bits. -/
theorem toInt_eq (x : Int64) : x.toInt =
    if 2 * x.toUInt64.toNat < 2 ^ 64 then (x.toUInt64.toNat : ℤ) else x.toUInt64.toNat - 2 ^ 64 :=
  BitVec.toInt_eq_toNat_cond x.toBitVec

/-- How much an offset below zero takes away, without an overflow for the least of them. -/
theorem magnitude_toNat {offsetMs : Int64} (h : offsetMs.toInt < 0) :
    (((-(offsetMs + 1)).toUInt64 + 1).toNat : ℤ) = -offsetMs.toInt := by
  have hone : (1 : Int64).toUInt64.toNat = 1 := rfl
  have hlt : offsetMs.toUInt64.toNat < 2 ^ 64 := offsetMs.toUInt64.toNat_lt
  have heq := toInt_eq offsetMs
  rw [UInt64.toNat_add, Int64.toUInt64_neg, UInt64.toNat_neg, Int64.toUInt64_add, UInt64.toNat_add,
    hone]
  simp only [UInt64.size, UInt64.reduceToNat]
  split at heq
  · omega
  · omega

/-- What `ntp_checked_time` answers. -/
theorem ntpCheckedTime_told (wallMs : UInt64) (offsetMs : Int64) :
    TimeTold wallMs offsetMs (ntpCheckedTime wallMs offsetMs) := by
  have hwall : wallMs.toNat < 2 ^ 64 := wallMs.toNat_lt
  unfold ntpCheckedTime
  split
  · -- There is no wall clock to move.
    rename_i hzero
    exact .inl ⟨hzero, rfl⟩
  rename_i hzero
  split
  · -- Forwards: the only failure is a sum that does not fit a word.
    rename_i hnonneg
    have hoffset : 0 ≤ offsetMs.toInt := Int64.le_iff_toInt_le.mp hnonneg
    have hlt : offsetMs.toUInt64.toNat < 2 ^ 64 := offsetMs.toUInt64.toNat_lt
    -- here the cast to an unsigned word does not change the value
    have heq : offsetMs.toInt = offsetMs.toUInt64.toNat := by
      have hcond := toInt_eq offsetMs
      split at hcond
      · exact hcond
      · omega
    -- The room above the offset, as the source computes it.
    have hroom : (UInt64.ofNat (2 ^ 64 - 1) - offsetMs.toUInt64).toNat =
        2 ^ 64 - 1 - offsetMs.toUInt64.toNat := by
      rw [UInt64.toNat_sub_of_le]
      · rfl
      · rw [UInt64.le_iff_toNat_le]
        exact Nat.le_sub_one_of_lt hlt
    split
    · rename_i hover
      rw [UInt64.lt_iff_toNat_lt, hroom] at hover
      refine .inr ⟨hzero, rfl, .inr ?_⟩
      omega
    · rename_i hfits
      rw [UInt64.lt_iff_toNat_lt, hroom] at hfits
      refine ⟨hzero, ?_⟩
      rw [UInt64.toNat_add, heq]
      omega
  · -- Backwards: the source negates without overflow, through `-(offset + 1)`.
    rename_i hneg
    have hoffset : offsetMs.toInt < 0 := by
      by_contra hge
      exact hneg (Int64.le_iff_toInt_le.mpr (not_lt.mp hge))
    have hmagnitude := magnitude_toNat hoffset
    show TimeTold wallMs offsetMs (if wallMs < (-(offsetMs + 1)).toUInt64 + 1 then
      .error (ntpErr .badState) else .ok (wallMs - ((-(offsetMs + 1)).toUInt64 + 1)))
    -- The only failure here is a result below zero.
    split
    · rename_i hunder
      rw [UInt64.lt_iff_toNat_lt] at hunder
      refine .inr ⟨hzero, rfl, .inl ?_⟩
      omega
    · rename_i hfits
      have hle : (-(offsetMs + 1)).toUInt64 + 1 ≤ wallMs := by
        rw [UInt64.le_iff_toNat_le]
        exact Nat.not_lt.mp fun hlt => hfits (UInt64.lt_iff_toNat_lt.mpr hlt)
      refine ⟨hzero, ?_⟩
      rw [UInt64.toNat_sub_of_le _ _ hle]
      rw [UInt64.le_iff_toNat_le] at hle
      omega

/-! ### Events -/

/-- The request of a sync, as it was sent. -/
structure NtpSent where
  ip : CString
  port : UInt16
  t1 : SntpTimestamp
  deriving DecidableEq, Repr

/-- The packet that a sync has got. -/
structure NtpReceived where
  senderIp : CString
  senderPort : UInt16
  packet : Bytes
  deriving DecidableEq, Repr

/-- What could be observed of a sync so far. -/
structure NtpSync where
  thread : ℕ
  /-- When it started. -/
  start : UInt64
  server : Option CString
  request : Option NtpSent
  response : Option NtpReceived
  /-- The wall clock when the packet was there. -/
  arrival : Option UInt64
  deriving DecidableEq, Repr

/-- What is known of the client. -/
structure NtpKnown where
  /-- The offset that was committed last. -/
  offset : Option Int64
  /-- The sync that started last, until it commits. -/
  sync : Option NtpSync
  deriving DecidableEq, Repr

/-- Nothing has happened yet. -/
def NtpKnown.initial : NtpKnown := ⟨none, none⟩

/-- Something more of the sync of thread `k`. -/
def NtpKnown.hear (K : NtpKnown) (k : ℕ) (f : NtpSync → NtpSync) : NtpKnown :=
  { K with sync := K.sync.map fun sync => if sync.thread = k then f sync else sync }

/-- A sync that is under way learns of its own events. -/
theorem NtpKnown.hear_sync {K : NtpKnown} {sync : NtpSync} (h : K.sync = some sync)
    (f : NtpSync → NtpSync) : (K.hear sync.thread f).sync = some (f sync) := by
  simp only [hear, h, Option.map_some, if_pos]

/-- What is known behind an event of a thread. -/
def NtpKnown.learn (K : NtpKnown) : ℕ × NtpEvent → NtpKnown
  | (k, .started nowMs) => { K with sync := some ⟨k, nowMs, none, none, none, none⟩ }
  | (k, .resolved ip) => K.hear k fun sync => { sync with server := some ip }
  | (k, .sends ip port t1 _) => K.hear k fun sync => { sync with request := some ⟨ip, port, t1⟩ }
  | (k, .received senderIp senderPort packet) =>
    K.hear k fun sync => { sync with response := some ⟨senderIp, senderPort, packet⟩ }
  | (k, .arrived wallMs) => K.hear k fun sync => { sync with arrival := some wallMs }
  | (_, .committed offsetMs) => ⟨some offsetMs, none⟩
  | _ => K

section Events

variable (lib : SntpLibrary) (cfg : NtpConfig)

/-- The packet is one of the server that was asked, and what the library makes of it is
acceptable. -/
structure NtpExchange.Accepted (x : NtpExchange) (offsetMs : Int64) : Prop where
  sender : x.senderIp = x.ip
  port : x.senderPort = cfg.port
  parsed : ∃ resp, lib.deserializeResponse x.t1 x.t4 x.packet = some resp ∧
    resp.unsynchronized = false ∧ resp.clockOffsetMs = offsetMs
  bounded : cfg.maxOffsetMs = 0 ∨
    -(cfg.maxOffsetMs : ℤ) ≤ offsetMs.toInt ∧ offsetMs.toInt ≤ cfg.maxOffsetMs

/-- The server that the sync has asked has answered its request, and the answer is acceptable. -/
def NtpSync.Accepts (sync : NtpSync) (offsetMs : Int64) : Prop :=
  ∃ request response arrivedMs,
    sync.server = some request.ip ∧ sync.request = some request ∧
    sync.response = some response ∧ sync.arrival = some arrivedMs ∧
    response.senderPort = request.port ∧
    (NtpExchange.mk request.ip request.t1 (wallMsToSntp lib arrivedMs) response.senderIp
      response.senderPort response.packet).Accepted lib cfg offsetMs

/-- The sync that started last is that of thread `k`, and it is as `P` says. -/
def NtpKnown.Syncs (K : NtpKnown) (k : ℕ) (P : NtpSync → Prop) : Prop :=
  ∃ sync, K.sync = some sync ∧ sync.thread = k ∧ P sync

/-- What an event of a thread has to be, for what is known before it. -/
def NtpEvent.Truthful (K : NtpKnown) : ℕ × NtpEvent → Prop
  | (_, .started nowMs) => nowMs ≠ 0
  | (k, .waits nowMs remainingMs) =>
    K.Syncs k fun sync =>
      nowMs + remainingMs.toUInt64 = sync.start + cfg.timeoutMs.toUInt64 ∧ 0 < remainingMs ∧
        remainingMs ≤ cfg.timeoutMs
  | (k, .resolved _) => K.Syncs k fun sync => sync.server = none
  | (k, .sends ip port t1 packet) =>
    K.Syncs k fun sync =>
      sync.server = some ip ∧ sync.request = none ∧ port = cfg.port ∧
        ∃ wallMs random, lib.serializeRequest (wallMsToSntp lib wallMs) random = some (t1, packet)
  | (k, .received _ _ _) =>
    K.Syncs k fun sync => sync.request ≠ none ∧ sync.response = none
  | (k, .arrived _) => K.Syncs k fun sync => sync.response ≠ none ∧ sync.arrival = none
  | (k, .committed offsetMs) => K.Syncs k fun sync => sync.Accepts lib cfg offsetMs
  | (_, .notReady) => K.offset = none
  | (_, .readOffset offsetMs) => K.offset = some offsetMs
  | (_, .readNow wallMs answer) =>
    ∃ offsetMs, K.offset = some offsetMs ∧ TimeTold wallMs offsetMs answer

end Events

variable {lib : SntpLibrary} {cfg : NtpConfig} {env : NtpServiceEnv} {s s' : NtpShared}
  {body body' : NtpBody} {K : NtpKnown} {k : ℕ} {e : NtpEvent} {events : List NtpEvent}

/-- A response that passed the checks. -/
theorem checkResponse_ok {x : NtpExchange} {offsetMs : Int64}
    (h : checkResponse lib cfg x = .ok offsetMs) : x.Accepted lib cfg offsetMs := by
  unfold checkResponse at h
  split at h
  · cases h
  rename_i hsender
  push Not at hsender
  split at h
  · cases h
  rename_i resp hparsed
  split at h
  · cases h
  rename_i hsynchronized
  split at h
  · rename_i hacceptable
    obtain rfl := Except.ok.inj h
    refine ⟨hsender.1, hsender.2, ⟨resp, hparsed, Bool.eq_false_of_not_eq_true hsynchronized, rfl⟩,
      ?_⟩
    simpa [ntpOffsetIsAcceptable] using hacceptable
  · cases h

/-! ### Steps with the operation lock -/

namespace NtpBody

/-- Whether a socket is open. -/
def socket : NtpBody → ℕ
  | .sending _ _ | .receiving _ _ _ | .parsing _ _ _ _ _ | .committing _ | .closing _ => 1
  | _ => 0

/-- Between the first step and the last. -/
def Active : NtpBody → Prop
  | .ready _ | .done _ => False
  | _ => True

/-- `synced` and the offset do not belong together. -/
def Committing : NtpBody → Prop
  | .committing _ => True
  | _ => False

variable (lib cfg) in
/-- What the operation of thread `k` has seen: a sync carries the data of its own start, its own
server and its own request. -/
def Fact (K : NtpKnown) (k : ℕ) (s : NtpShared) : NtpBody → Prop
  | .resolving start => K.sync = some ⟨k, start, none, none, none, none⟩
  | .opening start ip | .sending start ip => K.sync = some ⟨k, start, some ip, none, none, none⟩
  | .receiving start ip t1 =>
    K.sync = some ⟨k, start, some ip, some ⟨ip, cfg.port, t1⟩, none, none⟩
  | .parsing ip t1 senderIp senderPort packet =>
    ∃ start, K.sync = some ⟨k, start, some ip, some ⟨ip, cfg.port, t1⟩,
      some ⟨senderIp, senderPort, packet⟩, none⟩
  | .committing offsetMs =>
    (K.Syncs k fun sync => sync.Accepts lib cfg offsetMs) ∧ s.synced = true
  | .readingOffset | .readingNow => s.synced = true
  | _ => True

/-- An operation that is not under way has seen nothing. -/
theorem fact_of_not_active (h : ¬body.Active) : body.Fact lib cfg K k s := by
  cases body with
  | ready task => trivial
  | done result => trivial
  | _ => exact absurd trivial h

/-- Of the client it matters only whether it is `synced`. -/
theorem fact_congr (h : s.synced = s'.synced) (hf : body.Fact lib cfg K k s) :
    body.Fact lib cfg K k s' := by
  cases body with
  | committing offsetMs => exact ⟨hf.1, h ▸ hf.2⟩
  | readingOffset => exact h.symm.trans hf
  | readingNow => exact h.symm.trans hf
  | _ => exact hf

end NtpBody

/-- The client has what was committed last. -/
def Agrees (offset : Option Int64) (s : NtpShared) : Prop :=
  s.synced = offset.isSome ∧ ∀ offsetMs, offset = some offsetMs → s.lastOffsetMs = offsetMs

variable (lib cfg) in
/-- What a step of thread `k` with the operation lock does. -/
structure NtpBody.Moves (K : NtpKnown) (k : ℕ) (s : NtpShared) (body : NtpBody)
    (events : List NtpEvent) (s' : NtpShared) (body' : NtpBody) : Prop where
  truthful : InKeeping NtpKnown.learn (NtpEvent.Truthful lib cfg) K (events.map (k, ·))
  fact : body'.Fact lib cfg (learned NtpKnown.learn K (events.map (k, ·))) k s'
  agrees : ¬body'.Committing → Agrees (learned NtpKnown.learn K (events.map (k, ·))).offset s'
  sockets : s'.sockets + body.socket = s.sockets + body'.socket
  client : s'.client = s.client

namespace NtpBody.Moves

/-- A step that tells nothing and changes nothing. -/
theorem quiet (hagrees : Agrees K.offset s) (hfact : body'.Fact lib cfg K k s)
    (hsocket : body'.socket = body.socket) : Moves lib cfg K k s body [] s body' where
  truthful := .nil
  fact := hfact
  agrees _ := hagrees
  sockets := by rw [hsocket]
  client := rfl

/-- A step that tells something, but no commit. -/
theorem tells (hagrees : Agrees K.offset s) (htruthful : NtpEvent.Truthful lib cfg K (k, e))
    (hoffset : (K.learn (k, e)).offset = K.offset)
    (hfact : body'.Fact lib cfg (K.learn (k, e)) k s) (hsocket : body'.socket = body.socket) :
    Moves lib cfg K k s body [e] s body' where
  truthful := .single htruthful
  fact := hfact
  agrees _ := by
    rw [← hoffset] at hagrees
    exact hagrees
  sockets := by rw [hsocket]
  client := rfl

/-- A wait tells nothing new of the client. -/
theorem waits {nowMs : UInt64} {remainingMs : UInt32}
    (h : Moves lib cfg K k s body events s' body')
    (htruthful : NtpEvent.Truthful lib cfg K (k, .waits nowMs remainingMs)) :
    Moves lib cfg K k s body (.waits nowMs remainingMs :: events) s' body' where
  truthful := .cons htruthful h.truthful
  fact := h.fact
  agrees := h.agrees
  sockets := h.sockets
  client := h.client

/-- A step that makes a call within the deadline of its sync. -/
theorem withinDeadline {sync : NtpSync} (hsync : K.sync = some sync) (hthread : sync.thread = k)
    {failed : Option Err → NtpBody} {next : List NtpEvent × NtpBody}
    (hfailed : ∀ e, Moves lib cfg K k s body [] s (failed e))
    (hnext : Moves lib cfg K k s body next.1 s next.2) :
    Moves lib cfg K k s body (withinDeadline cfg env sync.start failed next).1 s
      (withinDeadline cfg env sync.start failed next).2 := by
  unfold Ntp.withinDeadline
  cases h : ntpDeadlineRemaining sync.start cfg.timeoutMs env.monotonicMs with
  | error e => exact hfailed _
  | ok remainingMs => exact hnext.waits ⟨sync, hsync, hthread, ntpDeadlineRemaining_ok h⟩

end NtpBody.Moves

/-- A body that starts. -/
theorem ready_moves (task : NtpTask) (hagrees : Agrees K.offset s) :
    NtpBody.Moves lib cfg K k s (.ready task) ((NtpBody.ready task).step lib cfg env s).1
      ((NtpBody.ready task).step lib cfg env s).2.1
      ((NtpBody.ready task).step lib cfg env s).2.2 := by
  -- An unsynced client has no offset that is known.
  have hnone : ¬s.synced = true → K.offset = none := by
    intro hsynced
    rw [hagrees.1] at hsynced
    exact Option.not_isSome_iff_eq_none.mp hsynced
  cases task with
  | sync =>
    simp only [NtpBody.step]
    by_cases hzero : env.monotonicMs = 0
    · simp only [ntpDeadlineStart, if_pos hzero]
      exact .quiet hagrees trivial rfl
    · -- the clock that is told is the one that the deadline is counted from
      simp only [ntpDeadlineStart, if_neg hzero]
      exact .tells hagrees hzero rfl rfl rfl
  -- A getter tells the offset only of a synced client.
  | getLastOffsetMs =>
    simp only [NtpBody.step]
    split
    · rename_i hsynced
      exact .quiet hagrees hsynced rfl
    · rename_i hsynced
      exact .tells hagrees (hnone hsynced) rfl trivial rfl
  | nowMs =>
    simp only [NtpBody.step]
    split
    · rename_i hsynced
      exact .quiet hagrees hsynced rfl
    · rename_i hsynced
      exact .tells hagrees (hnone hsynced) rfl trivial rfl

/-- What is read is what was committed last. -/
theorem read_eq (hagrees : Agrees K.offset s) (hsynced : s.synced = true) :
    K.offset = some s.lastOffsetMs := by
  rw [hagrees.1] at hsynced
  obtain ⟨offsetMs, hoffset⟩ := Option.isSome_iff_exists.mp hsynced
  rw [hoffset, hagrees.2 offsetMs hoffset]

/-- A packet that is accepted is the answer to the request of this sync. -/
theorem accepts_of_checkResponse {start : UInt64} {ip senderIp : CString} {t1 : SntpTimestamp}
    {senderPort : UInt16} {packet : Bytes} {wallMs : UInt64} {offsetMs : Int64}
    (hsync : K.sync = some ⟨k, start, some ip, some ⟨ip, cfg.port, t1⟩,
      some ⟨senderIp, senderPort, packet⟩, none⟩)
    (h : checkResponse lib cfg ⟨ip, t1, wallMsToSntp lib wallMs, senderIp, senderPort, packet⟩ =
      .ok offsetMs) :
    (K.learn (k, .arrived wallMs)).Syncs k fun sync => sync.Accepts lib cfg offsetMs := by
  have haccepted := checkResponse_ok h
  refine ⟨_, NtpKnown.hear_sync hsync _, rfl, ?_⟩
  exact ⟨⟨ip, cfg.port, t1⟩, ⟨senderIp, senderPort, packet⟩, wallMs, rfl, rfl, rfl, rfl,
    haccepted.port, haccepted⟩

/-- What a step with the operation lock does. -/
theorem NtpBody.step_moves (env : NtpServiceEnv) (hf : body.Fact lib cfg K k s)
    (hagrees : ¬body.Committing → Agrees K.offset s) (hsocket : body.socket ≤ s.sockets) :
    NtpBody.Moves lib cfg K k s body (body.step lib cfg env s).1 (body.step lib cfg env s).2.1
      (body.step lib cfg env s).2.2 := by
  cases body with
  | ready task => exact ready_moves task (hagrees id)
  -- The server is resolved within the deadline of the sync, or the sync ends.
  | resolving start =>
    refine Moves.withinDeadline hf rfl (fun _ => .quiet (hagrees id) trivial rfl) ?_
    split
    · exact .quiet (hagrees id) trivial rfl
    · exact .tells (hagrees id) ⟨_, hf, rfl, rfl⟩ rfl (NtpKnown.hear_sync hf _) rfl
  -- The socket is opened for the server that was resolved.
  | opening start ip =>
    simp only [NtpBody.step]
    split
    · exact .quiet (hagrees id) trivial rfl
    · exact ⟨.nil, hf, fun _ => hagrees id, rfl, rfl⟩
  | sending start ip =>
    simp only [NtpBody.step]
    split
    · exact .quiet (hagrees id) trivial rfl
    · rename_i t1 packet hserialized
      refine Moves.withinDeadline hf rfl (fun _ => .quiet (hagrees id) trivial rfl) ?_
      -- whether it arrives or not, the request has been sent
      have hsends : NtpEvent.Truthful lib cfg K (k, .sends ip cfg.port t1 packet) :=
        ⟨_, hf, rfl, rfl, rfl, rfl, _, _, hserialized⟩
      split
      · exact .tells (hagrees id) hsends rfl trivial rfl
      · split
        · exact .tells (hagrees id) hsends rfl trivial rfl
        · exact .tells (hagrees id) hsends rfl (NtpKnown.hear_sync hf _) rfl
  -- A datagram that arrives is kept with the request it answers.
  | receiving start ip t1 =>
    refine Moves.withinDeadline hf rfl (fun _ => .quiet (hagrees id) trivial rfl) ?_
    split
    · exact .quiet (hagrees id) trivial rfl
    · refine .tells (hagrees id) ⟨_, hf, rfl, Option.some_ne_none _, rfl⟩ rfl ?_ rfl
      exact ⟨start, NtpKnown.hear_sync hf _⟩
  -- It is checked against the request's own server and time.
  | parsing ip t1 senderIp senderPort packet =>
    obtain ⟨start, hsync⟩ := hf
    have harrived : NtpEvent.Truthful lib cfg K (k, .arrived env.wallMs) :=
      ⟨_, hsync, rfl, Option.some_ne_none _, rfl⟩
    simp only [NtpBody.step]
    split
    · exact .tells (hagrees id) harrived rfl trivial rfl
    · rename_i offsetMs hok
      -- `synced` is ahead of the offset until the next step
      exact ⟨.single harrived, ⟨accepts_of_checkResponse hsync hok, rfl⟩,
        fun h => absurd trivial h, rfl, rfl⟩
  -- The offset committed is the one of the response accepted.
  | committing offsetMs =>
    obtain ⟨haccepts, hsynced⟩ := hf
    refine ⟨.single haccepts, trivial, fun _ => ⟨hsynced, ?_⟩, rfl, rfl⟩
    rintro _ ⟨⟩
    rfl
  -- The socket of this sync is closed, and no other one.
  | closing result =>
    refine ⟨.nil, trivial, fun _ => hagrees id, ?_, rfl⟩
    exact Nat.sub_add_cancel hsocket
  | readingOffset => exact .tells (hagrees id) (read_eq (hagrees id) hf) rfl trivial rfl
  | readingNow =>
    -- The time told is the wall clock moved by the offset that is known.
    refine .tells (hagrees id) ?_ rfl trivial rfl
    exact ⟨s.lastOffsetMs, read_eq (hagrees id) hf, ntpCheckedTime_told _ _⟩
  | done result => exact .quiet (hagrees id) trivial rfl

/-! ### The operation lock -/

/-- The call has the operation lock. -/
def NtpCall.inOperation : NtpCall → ℕ
  | .working | .finishing _ => 1
  | _ => 0

/-- Whether the lock cannot be taken. -/
def NtpMutex.busy : NtpMutex → ℕ
  | .free => 0
  | _ => 1

/-- A mutex is busy or not. -/
theorem NtpMutex.busy_le (m : NtpMutex) : m.busy ≤ 1 := by
  cases m with
  | free => exact Nat.zero_le 1
  | held => exact Nat.le_refl 1
  | destroyed => exact Nat.le_refl 1

/-- The admission lock is not the lock of the operation. -/
theorem lockAdmission_operation (env : NtpEnv) (c : NtpClient) (waits next : NtpCall)
    (failed : Err → NtpCall) (hwaits : waits.inOperation = 0) (hnext : next.inOperation = 0)
    (hfailed : ∀ e, (failed e).inOperation = 0) :
    (lockAdmission env c waits next failed).1.operationLock = c.operationLock ∧
      (lockAdmission env c waits next failed).2.inOperation = 0 := by
  unfold lockAdmission
  split
  · exact ⟨rfl, hfailed _⟩
  · split
    · exact ⟨rfl, hnext⟩
    · exact ⟨rfl, hwaits⟩

/-- Nor is its unlock. -/
theorem unlockAdmission_operation (env : NtpEnv) (c : NtpClient) (next : NtpCall)
    (hnext : next.inOperation = 0) :
    (unlockAdmission env c next).1.operationLock = c.operationLock ∧
      (unlockAdmission env c next).2.inOperation = 0 := by
  unfold unlockAdmission
  split
  · exact ⟨rfl, hnext⟩
  · split
    · exact ⟨rfl, hnext⟩
    · exact ⟨rfl, hnext⟩

/-- A call comes to have the operation lock by taking it. -/
theorem NtpCall.step_operation (env : NtpEnv) (c : NtpClient) (call : NtpCall) :
    (call.step env c).2.inOperation + c.operationLock.busy ≤
      call.inOperation + (call.step env c).1.operationLock.busy := by
  -- A step that leaves the operation lock and stands outside of it.
  have hsame : ∀ (c' : NtpClient) (call' : NtpCall), c'.operationLock = c.operationLock ∧
      call'.inOperation = 0 →
      call'.inOperation + c.operationLock.busy ≤ call.inOperation + c'.operationLock.busy := by
    rintro c' call' ⟨hlock, hout⟩
    rw [hlock, hout, Nat.zero_add]
    exact Nat.le_add_left _ _
  cases call with
  | entering => exact hsame _ _ (lockAdmission_operation _ _ _ _ _ rfl rfl fun _ => rfl)
  | givingUp e => exact hsame _ _ (lockAdmission_operation _ _ _ _ _ rfl rfl fun _ => rfl)
  | releasing result => exact hsame _ _ (lockAdmission_operation _ _ _ _ _ rfl rfl fun _ => rfl)
  | enteringDeinit => exact hsame _ _ (lockAdmission_operation _ _ _ _ _ rfl rfl fun _ => rfl)
  | refused => exact hsame _ _ (unlockAdmission_operation _ _ _ rfl)
  | admitted => exact hsame _ _ (unlockAdmission_operation _ _ _ rfl)
  | leavingGiveUp e => exact hsame _ _ (unlockAdmission_operation _ _ _ rfl)
  | leavingRelease result => exact hsame _ _ (unlockAdmission_operation _ _ _ rfl)
  | closing waits =>
    refine hsame _ _ (unlockAdmission_operation _ _ _ ?_)
    cases waits with
    | false => rfl
    | true => rfl
  -- The lock is taken only where it is free, so the count and its flag move together.
  | locking =>
    simp only [step]
    split
    · exact hsame _ _ ⟨rfl, rfl⟩
    · split
      · rename_i hfree
        rw [hfree]
        exact Nat.le_refl 1
      · exact hsame _ _ ⟨rfl, rfl⟩
  | working => exact Nat.le_refl _
  -- The call leaves the operation; where its unlock fails, the lock stays held without it.
  | finishing result =>
    have hbusy := c.operationLock.busy_le
    simp only [step]
    split
    · exact hsame _ _ ⟨rfl, rfl⟩
    · split
      · show 0 + c.operationLock.busy ≤ 1 + 0
        omega
      · exact hsame _ _ ⟨rfl, rfl⟩
  | destroyingOperation =>
    -- a lock that is destroyed is not taken again
    have hbusy := c.operationLock.busy_le
    simp only [step]
    split
    · exact hsame _ _ ⟨rfl, rfl⟩
    · exact Nat.add_le_add_left hbusy 0
  | inAcquire =>
    simp only [step]
    split
    · exact hsame _ _ ⟨rfl, rfl⟩
    · exact hsame _ _ ⟨rfl, rfl⟩
  | inRelease result =>
    simp only [step]
    split
    · exact hsame _ _ ⟨rfl, rfl⟩
    · exact hsame _ _ ⟨rfl, rfl⟩
  | inDeinit =>
    simp only [step]
    split
    · exact hsame _ _ ⟨rfl, rfl⟩
    · exact hsame _ _ ⟨rfl, rfl⟩
  | posting result =>
    simp only [step]
    split
    · exact hsame _ _ ⟨rfl, rfl⟩
    · exact hsame _ _ ⟨rfl, rfl⟩
  | waiting =>
    simp only [step]
    split
    · exact hsame _ _ ⟨rfl, rfl⟩
    · exact hsame _ _ ⟨rfl, rfl⟩
    · exact hsame _ _ ⟨rfl, rfl⟩
  | destroyingIdle =>
    simp only [step]
    split
    · exact hsame _ _ ⟨rfl, rfl⟩
    · exact hsame _ _ ⟨rfl, rfl⟩
  | destroyingAdmission =>
    simp only [step]
    split
    · exact hsame _ _ ⟨rfl, rfl⟩
    · exact hsame _ _ ⟨rfl, rfl⟩
  | inGiveUp e => exact hsame _ _ ⟨rfl, rfl⟩
  | returned result => exact hsame _ _ ⟨rfl, rfl⟩
  | deinited => exact hsame _ _ ⟨rfl, rfl⟩
  | failed e => exact hsame _ _ ⟨rfl, rfl⟩

/-! ### Runs -/

namespace NtpOperation

/-- Whether it has the operation lock. -/
def inOperation (op : NtpOperation) : ℕ := op.call.inOperation

/-- The sockets an operation has open. -/
def socket (op : NtpOperation) : ℕ := op.body.socket

variable {op : NtpOperation}

/-- So is one that commits. -/
theorem active_of_committing (h : op.body.Committing) : op.body.Active := by
  obtain ⟨call, body⟩ := op
  cases body with
  | committing offsetMs => trivial
  | _ => cases h

end NtpOperation

variable (lib cfg) in
/-- What holds of the client when `K` is known of it. -/
structure Timely (K : NtpKnown) (s : NtpService) : Prop where
  exclusive : Threads.total NtpOperation.inOperation s.calls ≤ s.shared.client.operationLock.busy
  inside : ∀ op ∈ s.calls, op.body.Active → op.call = .working
  facts : ∀ (k : ℕ) (op : NtpOperation), s.calls[k]? = some op → op.body.Fact lib cfg K k s.shared
  sockets : Threads.total NtpOperation.socket s.calls = s.shared.sockets
  agrees : (∀ op ∈ s.calls, ¬op.body.Committing) → Agrees K.offset s.shared

namespace Timely

variable {s : NtpService} {op op' : NtpOperation}

/-- Before the first call. -/
theorem initial : Timely lib cfg .initial NtpService.initial where
  exclusive := Nat.le_refl 0
  inside := by rintro _ ⟨⟩
  facts := by rintro _ _ ⟨⟩
  sockets := rfl
  agrees _ := ⟨rfl, by rintro _ ⟨⟩⟩

/-- A call that starts is outside. -/
theorem start (h : Timely lib cfg K s) (request : NtpRequest) :
    Timely lib cfg K ⟨s.shared, s.calls ++ [request.enter]⟩ := by
  -- a call that starts has no socket, holds no lock and knows nothing
  have hout : request.enter.inOperation = 0 ∧ request.enter.socket = 0 ∧
      ¬request.enter.body.Active := by
    cases request with
    | run task => exact ⟨rfl, rfl, id⟩
    | deinit => exact ⟨rfl, rfl, id⟩
  obtain ⟨hcall, hsocket, hidle⟩ := hout
  refine ⟨?_, ?_, ?_, ?_, fun hall => h.agrees fun op hop => hall op (List.mem_append_left _ hop)⟩
  · rw [Threads.total_snoc, hcall]
    exact h.exclusive
  · intro op hop hactive
    rcases List.mem_append.mp hop with hold | hnew
    · exact h.inside op hold hactive
    · rw [List.mem_singleton.mp hnew] at hactive
      exact absurd hactive hidle
  · intro k op hk
    rcases Threads.getElem?_snoc_cases hk with hold | ⟨-, rfl⟩
    · exact h.facts k op hold
    · exact NtpBody.fact_of_not_active hidle
  · rw [Threads.total_snoc, hsocket]
    exact h.sockets

/-- A call that has the operation lock is the only one. -/
theorem alone (h : Timely lib cfg K s) (hk : s.calls[k]? = some op)
    (hworking : op.call = .working) {j : ℕ} (hj : s.calls[j]? = some op')
    (hactive : op'.body.Active) : j = k := by
  by_contra hjk
  -- two of them would have the lock twice
  have hpair := Threads.pair_le_total hk hj hjk NtpOperation.inOperation
  have hbound := h.exclusive.trans s.shared.client.operationLock.busy_le
  have hone : op.inOperation = 1 := by rw [NtpOperation.inOperation, hworking]; rfl
  have hone' : op'.inOperation = 1 := by
    rw [NtpOperation.inOperation, h.inside op' (List.mem_of_getElem? hj) hactive]
    rfl
  omega

/-- A call gets in or out. -/
theorem passes (h : Timely lib cfg K s) (hk : s.calls[k]? = some op)
    (hidle : ¬op.body.Active) (env : NtpEnv) :
    Timely lib cfg K
      ⟨(op.passStep env s.shared).1, s.calls.set k (op.passStep env s.shared).2⟩ where
  exclusive := Threads.total_set_le hk h.exclusive (op.call.step_operation env s.shared.client)
  inside op' hop' hactive := by
    rcases List.mem_or_eq_of_mem_set hop' with hother | rfl
    · exact h.inside op' hother hactive
    · exact absurd hactive hidle
  facts j op' hj := by
    rcases Threads.getElem?_set_cases hj with ⟨-, hother⟩ | ⟨-, rfl⟩
    · exact NtpBody.fact_congr rfl (h.facts j op' hother)
    · -- it is not under way behind the step either
      exact NtpBody.fact_of_not_active hidle
  sockets := by
    have hset := Threads.total_set hk NtpOperation.socket (op.passStep env s.shared).2
    exact (Nat.add_right_cancel hset).trans h.sockets
  agrees hall := by
    refine h.agrees fun op' hop' hcommitting => ?_
    obtain ⟨j, hj⟩ := List.mem_iff_getElem?.mp hop'
    by_cases hjk : k = j
    · subst hjk
      obtain rfl := Option.some.inj (hj.symm.trans hk)
      exact hidle (NtpOperation.active_of_committing hcommitting)
    · rw [← List.getElem?_set_ne hjk] at hj
      exact hall op' (List.mem_of_getElem? hj) hcommitting

/-- A call that has the operation lock takes a step. -/
theorem works (h : Timely lib cfg K s) (hk : s.calls[k]? = some op)
    (hworking : op.call = .working) (env : NtpServiceEnv) :
    InKeeping NtpKnown.learn (NtpEvent.Truthful lib cfg) K
        ((op.body.step lib cfg env s.shared).1.map (k, ·)) ∧
      Timely lib cfg
        (learned NtpKnown.learn K ((op.body.step lib cfg env s.shared).1.map (k, ·)))
        ⟨(op.body.step lib cfg env s.shared).2.1,
          s.calls.set k { op with body := (op.body.step lib cfg env s.shared).2.2 }⟩ := by
  -- an operation in the middle of its commit has the operation lock, so it is this one
  have hagrees : ¬op.body.Committing → Agrees K.offset s.shared := by
    intro hnot
    refine h.agrees fun op' hop' hcommitting => hnot ?_
    obtain ⟨j, hj⟩ := List.mem_iff_getElem?.mp hop'
    obtain rfl := h.alone hk hworking hj (NtpOperation.active_of_committing hcommitting)
    rwa [Option.some.inj (hk.symm.trans hj)]
  have hsocket : op.body.socket ≤ s.shared.sockets :=
    h.sockets ▸ Threads.le_total hk NtpOperation.socket
  obtain ⟨htruthful, hfact, hagrees', hsockets, hclient⟩ :=
    NtpBody.step_moves env (h.facts k op hk) hagrees hsocket
  refine ⟨htruthful, ?_, ?_, ?_, ?_, ?_⟩
  · show Threads.total NtpOperation.inOperation _ ≤ NtpMutex.busy (NtpClient.operationLock _)
    rw [hclient]
    exact Threads.total_set_le hk h.exclusive le_rfl
  · intro op' hop' hactive
    rcases List.mem_or_eq_of_mem_set hop' with hother | rfl
    · exact h.inside op' hother hactive
    · exact hworking
  · intro j op' hj
    rcases Threads.getElem?_set_cases hj with ⟨hjk, hother⟩ | ⟨rfl, rfl⟩
    · -- what is learned of this operation is nothing to one that is not under way
      exact NtpBody.fact_of_not_active fun hactive => hjk (h.alone hk hworking hother hactive)
    · exact hfact
  · have hset := Threads.total_set hk NtpOperation.socket
      { op with body := (op.body.step lib cfg env s.shared).2.2 }
    have htotal := h.sockets
    simp only [NtpOperation.socket] at hset htotal ⊢
    omega
  · intro hall
    obtain ⟨hlt, -⟩ := List.getElem?_eq_some_iff.mp hk
    exact hagrees' (hall _ (List.mem_set hlt _))

/-- What one step of the system preserves. -/
theorem step (h : Timely lib cfg K s) (a : NtpServiceAction) :
    InKeeping NtpKnown.learn (NtpEvent.Truthful lib cfg) K (NtpService.events lib cfg s a) ∧
      Timely lib cfg (learned NtpKnown.learn K (NtpService.events lib cfg s a))
        (NtpService.step lib cfg s a).2 := by
  rcases Threads.step_cases NtpRequest.enter
    (fun env s (op : NtpOperation) => (op.observedStep lib cfg env s).2) s a with
    -- a call starts; nothing happens; or an operation makes a step
    ⟨request, rfl, hstep⟩ | ⟨hacting, hstep⟩ | ⟨k, env, op, rfl, hk, -, hstep⟩
  · rw [NtpService.step, hstep]
    exact ⟨.nil, h.start request⟩
  · have hevents : NtpService.events lib cfg s a = [] := by
      cases a with
      | start request => rfl
      | advance k env =>
        have hnone : s.calls[k]? = none := Option.map_eq_none_iff.mp hacting
        simp only [NtpService.events, hnone]
    rw [NtpService.step, hstep, hevents]
    exact ⟨.nil, h⟩
  · rw [NtpService.step, hstep]
    simp only [NtpService.events, hk]
    -- with the lock it goes on with its body, otherwise with the admission
    by_cases hworking : op.call = .working
    · cases hresult : op.body.result with
      | none =>
        simp only [NtpOperation.observedStep, if_pos hworking, hresult]
        exact h.works hk hworking env
      | some result =>
        simp only [NtpOperation.observedStep, if_pos hworking, hresult]
        refine ⟨.nil, h.passes hk ?_ _⟩
        intro hactive
        cases hbody : op.body with
        | done r =>
          rw [hbody] at hactive
          exact hactive
        | _ =>
          rw [hbody] at hresult
          cases hresult
    · simp only [NtpOperation.observedStep, if_neg hworking]
      exact ⟨.nil, h.passes hk
        (fun hactive => hworking (h.inside op (List.mem_of_getElem? hk) hactive)) _⟩

end Timely

end TrustSdk.Ntp
