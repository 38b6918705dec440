import TrustSdk.Kv.Atomicity
import TrustSdk.Kv.Durable
import TrustSdk.Storage.Refinement

/-!
# The KV store on a file

The store over the adapter over one file, from its format on, through any number of calls and
crashes. A crash may come at any system call of a call of the store, and leaves of the page cache
what it likes. `kv_on_file` takes the system calls of a whole history at once to a map: every
mutation that has returned OK is in it, in their order, and of those that have failed or were cut
short some are.

A crash during a write leaves a mixture of the old and the new bytes. What is asked of it is what
the format asks of any medium, that a mixture does not pass for a record of its own (`Escapes`).
-/

namespace TrustSdk.Storage

open ByteStore CrashLogic PositionedFile SystemCalls WriteCache Kv

variable {α : Type} {cfg : KvConfig} {w : World Err} {img img' : Image}

/-- A program of the store on the adapter, from a flushed file on: it returns `o` and leaves `img'`
in the file, or the machine stops on the way and the file is `img'` when it starts again. -/
def Session (cfg : KvConfig) (w : World Err) (p : Io Err α) (img : Image)
    (o : Option (Except Err α)) (img' : Image) : Prop :=
  ∃ fuel st erases t, storageValidHandle st = true ∧
    SystemCalls.Exec (Step w) (implement fuel st erases w.size p) ⟨img, []⟩ o t ∧ Leaves t img' ∧
    (o = none → ¬Escapes w StorageStatus LockStatus (TornWrite cfg) p img t.medium img')

/-- Calls of the store since its format, each with its reply unless it was cut short, and the file
behind them. -/
inductive FileRun (cfg : KvConfig) (w : World Err) : List (KvCall × Option KvReply) → Image → Prop
  | format {img img' : Image} : Blank img →
      Session cfg w (kvPrepareStorage cfg) img (some (.ok ())) img' → FileRun cfg w [] img'
  | call {calls : List (KvCall × Option KvReply)} {call : KvCall} {reply : Option KvReply}
      {img img' : Image} : FileRun cfg w calls img →
      Session cfg w (call.program cfg) img (reply.map .ok) img' →
      FileRun cfg w (calls ++ [(call, reply)]) img'

/-- The maps that calls with these replies may lead to from the empty one. -/
inductive MapRun (cfg : KvConfig) : List (KvCall × Option KvReply) → KvMap → Prop
  | empty : MapRun cfg [] ∅
  | call {calls : List (KvCall × Option KvReply)} {call : KvCall} {reply : Option KvReply}
      {m m' : KvMap} : MapRun cfg calls m → call.Takes cfg m reply m' →
      MapRun cfg (calls ++ [(call, reply)]) m'

/-! ### Sessions are executions on the medium -/

/-- What holds of the executions on the medium holds of the sessions on the file. -/
theorem Session.sound {p : Io Err α} {o : Option (Except Err α)}
    {Q : Except Err α → Image → Prop} {C : Image → Prop} (h : Session cfg w p img o img')
    (hw : w.WritesSucceed) (hsize : w.size < 2 ^ 32) (hlock : ∀ e, w.lockFault e → LockStatus e)
    (hspec : cwp (faulty cfg w.size) p Q C img) :
    (o = none → C img') ∧ ∀ r, o = some r → Q r img' := by
  obtain ⟨fuel, st, erases, t, hst, hexec, hleaves, hescapes⟩ := h
  have hclean : Clean (⟨img, []⟩ : Cache) := rfl
  have hio : StorageStatus (storageErr .io) := ⟨rfl, .inl rfl⟩
  have hrefines : wp (Step w) (Crashes w StorageStatus LockStatus (TornWrite cfg) p img)
      (Returns w StorageStatus LockStatus (TornWrite cfg) p img) (implement fuel st erases w.size p)
      ⟨img, []⟩ :=
    implement_spec hst hw hsize hio hlock p hclean
  obtain ⟨hcrashes, hreturns⟩ := SystemCalls.Exec.sound hexec hrefines
  constructor
  · intro hnone
    exact ((hcrashes img' hleaves).resolve_right (hescapes hnone)).sound hspec
  · intro r hr
    obtain ⟨hflushed, hreturned⟩ := hreturns r hr
    rw [(leaves_of_clean hflushed).mp hleaves]
    exact (hreturned.sound hspec).1

/-- A file that is too small is not formatted. -/
theorem kvPrepareStorage_small {capacity : ℕ} (hsmall : capacity < cfg.kvRegionSize) :
    cwp (faulty cfg capacity) (kvPrepareStorage cfg) (fun r _ => r ≠ .ok ()) (fun _ => True)
      img := by
  refine cwp_capacity ?_ fun e _ => by simp
  show cwp (faulty cfg capacity) (if capacity < cfg.kvRegionSize then _ else _) _ _ img
  rw [if_pos hsmall]
  exact cwp_done (by simp) fun _ _ => trivial

/-- What holds of the file behind a history. -/
structure Holds (cfg : KvConfig) (w : World Err) (calls : List (KvCall × Option KvReply))
    (img : Image) : Prop where
  capacity : cfg.kvRegionSize ≤ w.size
  map : ∃ g m, g ≤ calls.length + 1 ∧ Loads cfg g m img ∧ MapRun cfg calls m

section Run

variable {calls : List (KvCall × Option KvReply)} (hw : w.WritesSucceed)
  (hsize : w.size < 2 ^ 32) (hlock : ∀ e, w.lockFault e → LockStatus e)
include hw hsize hlock

/-- After the first open. -/
theorem Holds.format (hblank : Blank img)
    (h : Session cfg w (kvPrepareStorage cfg) img (some (.ok ())) img') :
    Holds cfg w [] img' := by
  have hcap : cfg.kvRegionSize ≤ w.size := by
    by_contra hsmall
    exact (h.sound hw hsize hlock (kvPrepareStorage_small (not_le.mp hsmall))).2 _ rfl rfl
  refine ⟨hcap, 1, ∅, Nat.le_refl 1, ?_, .empty⟩
  rcases (h.sound hw hsize hlock (kvPrepareStorage_blank (faulty_medium hcap) hblank)).2 _ rfl with
    ⟨-, hrest, -⟩ | ⟨-, e, herror⟩
  · exact hrest.view.loads
  · exact absurd herror (by simp)

/-- After one more call. -/
theorem Holds.call {call : KvCall} {reply : Option KvReply} (h : Holds cfg w calls img)
    (hroom : calls.length + 2 < 2 ^ 64)
    (hsession : Session cfg w (call.program cfg) img (reply.map .ok) img') :
    Holds cfg w (calls ++ [(call, reply)]) img' := by
  -- the map loads at a generation that the number of calls bounds, so there is room for one more
  obtain ⟨hcap, g, m, hg, hloads, hrun⟩ := h
  have hspec : cwp (faulty cfg w.size) (call.program cfg) (call.Returns cfg (faulty cfg w.size) g m)
      (call.Stops cfg g m) img :=
    KvCall.program_takes (faulty_medium hcap) hloads.ready (by omega)
  obtain ⟨hstopped, hreturned⟩ := hsession.sound hw hsize hlock hspec
  have hlength : (calls ++ [(call, reply)]).length = calls.length + 1 := by
    rw [List.length_append, List.length_singleton]
  refine ⟨hcap, ?_⟩
  rw [hlength]
  -- a call that was cut has taken place or not; one that returned says which
  cases reply with
  | none =>
    obtain ⟨g', m', hg', hloads', htakes⟩ := hstopped rfl
    exact ⟨g', m', by omega, hloads', hrun.call htakes⟩
  | some reply =>
    obtain ⟨reply', hreply, g', m', hg', hready, htakes⟩ := hreturned (.ok reply) rfl
    obtain rfl : reply = reply' := Except.ok.inj hreply
    exact ⟨g', m', by omega, hready.loads, hrun.call htakes⟩

/-- After any number of calls. -/
theorem FileRun.holds (h : FileRun cfg w calls img) (hroom : calls.length + 1 < 2 ^ 64) :
    Holds cfg w calls img := by
  induction h with
  | format hblank hsession => exact .format hw hsize hlock hblank hsession
  | call _ hsession ih =>
    rw [List.length_append, List.length_singleton] at hroom
    exact (ih (by omega)).call hw hsize hlock hroom hsession

end Run

/-- **The store on a file.** Whatever calls have been made since the format, and wherever the
machine stopped on the way, the file loads a map that the replies lead to, as long as there are
fewer calls than generations. -/
theorem kv_on_file {calls : List (KvCall × Option KvReply)} (hw : w.WritesSucceed)
    (hsize : w.size < 2 ^ 32) (hlock : ∀ e, w.lockFault e → LockStatus e)
    (h : FileRun cfg w calls img) (hroom : calls.length + 1 < 2 ^ 64) :
    ∃ m, MapRun cfg calls m ∧ LoadsMap cfg w.size img m := by
  obtain ⟨hcap, g, m, -, hloads, hrun⟩ := h.holds hw hsize hlock hroom
  exact ⟨m, hrun, hloads.loadsMap hcap⟩

/-! ### A run -/

/-- An undisturbed run on the medium is a session. -/
theorem session_of_undisturbed (cfg : KvConfig) (hsize : w.size < 2 ^ 32) (p : Io Err α)
    (img : Image) :
    Session cfg w p img (some (undisturbed w.size p img).1) (undisturbed w.size p img).2 := by
  have hruns : SystemCalls.Exec (Step w) (implement 1 (some ⟨3, false⟩) (fun _ _ => false) w.size p)
      ⟨img, []⟩ (some (undisturbed w.size p img).1) ⟨(undisturbed w.size p img).2, []⟩ :=
    implement_runs rfl hsize Nat.one_pos p img
  exact ⟨1, some ⟨3, false⟩, fun _ _ => false, _, rfl, hruns, leaves_flushed.mpr rfl,
    by rintro ⟨⟩⟩

/-- A file for the small store, and no call that fails. -/
def tinyFile : World Err := ⟨tinyConfig.kvRegionSize, fun _ => False, fun _ => False⟩

/-- A flushed file loses nothing. -/
theorem session_of_stopped (p : Io Err α) (img : Image) : Session cfg w p img none img := by
  refine ⟨1, some ⟨3, false⟩, fun _ _ => false, ⟨img, []⟩, rfl, .stop, leaves_flushed.mpr rfl,
    ?_⟩
  rintro - ⟨off, bs, -, -, hnot⟩
  exact hnot (TornWrite.none cfg img _)

/-- A set that has returned, and one that was cut short. -/
def tinyCalls : List (KvCall × Option KvReply) :=
  [(.mutate (.set [1] [1]), some (.status (.ok ()))), (.mutate (.set [2] [1]), none)]

/-- The theorem at one `set` on a small file. -/
theorem kv_on_file_tiny : ∃ img m, MapRun tinyConfig tinyCalls m ∧
    LoadsMap tinyConfig tinyFile.size img m := by
  have hsize : tinyFile.size < 2 ^ 32 := by decide
  have hblank : Blank fun _ => 0 := fun _ => rfl
  have hcap : tinyConfig.kvRegionSize ≤ tinyFile.size := Nat.le_refl _
  obtain ⟨img₀, hrun, hstable, -⟩ := kvPrepareStorage_formats hcap hblank
  have hformat := session_of_undisturbed tinyConfig hsize (kvPrepareStorage tinyConfig)
    fun _ => 0
  rw [show undisturbed tinyFile.size (kvPrepareStorage tinyConfig) (fun _ => 0) = (.ok (), img₀)
    from hrun] at hformat
  have hout : (KvMutation.set [1] [1]).outcome tinyConfig ∅ =
      (.ok (), (∅ : KvMap).insert [1] [1]) := by
    rw [KvMutation.outcome, setOutcome, if_neg]
    intro hfull
    have hcard : (∅ : KvMap).keys.card = 2 := hfull.2
    exact absurd hcard (by decide)
  -- the set goes well in the model of the calls, and the file does what the model does
  have hspec := (KvMutation.set [1] [1]).program_spec (calm_medium hcap)
    (Loads.ready hstable.loads) (by decide) fun _ => by decide
  rw [hout] at hspec
  obtain ⟨img₁, hset⟩ : ∃ img₁, Session tinyConfig tinyFile
      ((KvCall.mutate (.set [1] [1])).program tinyConfig) img₀ (some (.ok (.status (.ok ()))))
      img₁ := by
    have h := session_of_undisturbed tinyConfig hsize
      ((KvCall.mutate (.set [1] [1])).program tinyConfig) img₀
    rw [KvCall.mutate_undisturbed, (Finished.undisturbed hspec).1] at h
    exact ⟨_, h⟩
  have hrun : FileRun tinyConfig tinyFile tinyCalls img₁ :=
    .call (.call (.format hblank hformat) hset) (session_of_stopped _ img₁)
  exact ⟨img₁, kv_on_file ⟨fun _ _ => id, id⟩ hsize (fun _ => False.elim) hrun (by decide)⟩

end TrustSdk.Storage
