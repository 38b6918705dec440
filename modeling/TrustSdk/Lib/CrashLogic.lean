import TrustSdk.Lib.ByteStore

/-!
# A crash logic for storage programs

Sequential programs over a byte store, given as trees of storage calls (`Io`), together
with what a device may do to them: every call may fail, and the machine may stop between
two calls or in the middle of a write. A `Device` says what a write does when it succeeds,
what it may leave behind when it does not, and which image a crash may leave on the medium.

* `Exec` — the executions of a program on a device, ending in a result or in a crash;
* `Io.run` — the one execution on a device that never fails;
* `cwp` — the weakest precondition for a postcondition on the result and a *crash
  condition* on the image every crash may leave;
* `Exec.sound` and `cwp.run_sound` — what `cwp` proves holds of every execution.

The rules `cwp_bind`, `cwp_attempt`, `cwp_read`, `cwp_write` and `cwp_sync` take a program
apart call by call; `cwp.mono` weakens both conditions.
-/

namespace CrashLogic

open ByteStore

/-- A program over a byte store and one lock: its result, or the next call and what to do
with the answer. -/
inductive Io (ε α : Type) where
  | done (r : Except ε α)
  | capacity (k : Except ε ℕ → Io ε α)
  | read (off len : ℕ) (k : Except ε Bytes → Io ε α)
  | write (off : ℕ) (bs : Bytes) (k : Except ε Unit → Io ε α)
  | sync (k : Except ε Unit → Io ε α)
  | lock (k : Except ε Unit → Io ε α)
  | unlock (k : Except ε Unit → Io ε α)

namespace Io

variable {ε α β : Type}

/-- Sequencing: an error ends the program. -/
def bind : Io ε α → (α → Io ε β) → Io ε β
  | .done (.ok a), f => f a
  | .done (.error e), _ => .done (.error e)
  | .capacity k, f => .capacity fun r => (k r).bind f
  | .read off len k, f => .read off len fun r => (k r).bind f
  | .write off bs k, f => .write off bs fun r => (k r).bind f
  | .sync k, f => .sync fun r => (k r).bind f
  | .lock k, f => .lock fun r => (k r).bind f
  | .unlock k, f => .unlock fun r => (k r).bind f

instance : Monad (Io ε) where
  pure a := .done (.ok a)
  bind := bind

/-- Returning the value of a program is the program. -/
theorem bind_pure (p : Io ε α) : p >>= (fun a => pure a) = p := by
  change p.bind (fun a => .done (.ok a)) = p
  induction p with
  | done r => cases r <;> rfl
  | capacity k ih => exact congrArg Io.capacity (funext ih)
  | read off len k ih => exact congrArg (Io.read off len) (funext ih)
  | write off bs k ih => exact congrArg (Io.write off bs) (funext ih)
  | sync k ih => exact congrArg Io.sync (funext ih)
  | lock k ih => exact congrArg Io.lock (funext ih)
  | unlock k ih => exact congrArg Io.unlock (funext ih)

/-- Sequencing is associative. -/
theorem bind_assoc {γ : Type} (p : Io ε α) (f : α → Io ε β) (g : β → Io ε γ) :
    p >>= f >>= g = p >>= fun a => f a >>= g := by
  change (p.bind f).bind g = p.bind fun a => (f a).bind g
  induction p with
  | done r => cases r <;> rfl
  | capacity k ih => exact congrArg Io.capacity (funext ih)
  | read off len k ih => exact congrArg (Io.read off len) (funext ih)
  | write off bs k ih => exact congrArg (Io.write off bs) (funext ih)
  | sync k ih => exact congrArg Io.sync (funext ih)
  | lock k ih => exact congrArg Io.lock (funext ih)
  | unlock k ih => exact congrArg Io.unlock (funext ih)

/-- End the program with an error. -/
def fail (e : ε) : Io ε α := .done (.error e)

/-- Run a program and hand its result on, an error included. -/
def attempt : Io ε α → Io ε (Except ε α)
  | .done r => .done (.ok r)
  | .capacity k => .capacity fun r => (k r).attempt
  | .read off len k => .read off len fun r => (k r).attempt
  | .write off bs k => .write off bs fun r => (k r).attempt
  | .sync k => .sync fun r => (k r).attempt
  | .lock k => .lock fun r => (k r).attempt
  | .unlock k => .unlock fun r => (k r).attempt

end Io

/-- A medium with the ways it may fail. -/
structure Device (ε : Type) where
  /-- What the device remembers: the medium, and whatever is not yet on it. -/
  State : Type
  /-- The image reads see. -/
  view : State → Image
  capacity : ℕ
  /-- The answer to an access outside the region. -/
  rangeErr : ε
  /-- The answers a failing storage call may give. -/
  fault : ε → Prop
  /-- The answers a failing lock or unlock may give. -/
  lockFault : ε → Prop
  /-- The state after a write that succeeds. -/
  write : State → ℕ → Bytes → State
  /-- The states a write may leave when it fails or is cut short. -/
  interrupt : State → ℕ → Bytes → State → Prop
  /-- The state after a sync that succeeds. -/
  sync : State → State
  /-- The images a crash may leave on the medium. -/
  crash : State → Image → Prop

/-- How an execution ends: with a result, or with a crash and the image it leaves. -/
inductive Outcome (ε : Type) (D : Device ε) (α : Type) where
  | returned (r : Except ε α) (s : D.State)
  | crashed (img : Image)

/-- The executions of a program on a device. -/
inductive Exec {ε : Type} (D : Device ε) {α : Type} : Io ε α → D.State → Outcome ε D α → Prop
  | done {r s} : Exec D (.done r) s (.returned r s)
  | crash {p s img} : D.crash s img → Exec D p s (.crashed img)
  | capacity {k s o} : Exec D (k (.ok D.capacity)) s o → Exec D (.capacity k) s o
  | capacityFault {k s o e} : D.fault e → Exec D (k (.error e)) s o → Exec D (.capacity k) s o
  | read {off len k s o} : off + len ≤ D.capacity →
      Exec D (k (.ok (slice (D.view s) off len))) s o → Exec D (.read off len k) s o
  | readRange {off len k s o} : ¬ off + len ≤ D.capacity →
      Exec D (k (.error D.rangeErr)) s o → Exec D (.read off len k) s o
  | readFault {off len k s o e} : D.fault e →
      Exec D (k (.error e)) s o → Exec D (.read off len k) s o
  | write {off bs k s o} : off + bs.length ≤ D.capacity →
      Exec D (k (.ok ())) (D.write s off bs) o → Exec D (.write off bs k) s o
  | writeRange {off bs k s o} : ¬ off + bs.length ≤ D.capacity →
      Exec D (k (.error D.rangeErr)) s o → Exec D (.write off bs k) s o
  | writeFault {off bs k s s' o e} : off + bs.length ≤ D.capacity → D.fault e →
      D.interrupt s off bs s' → Exec D (k (.error e)) s' o → Exec D (.write off bs k) s o
  | writeCrash {off bs k s s' img} : off + bs.length ≤ D.capacity →
      D.interrupt s off bs s' → D.crash s' img → Exec D (.write off bs k) s (.crashed img)
  | sync {k s o} : Exec D (k (.ok ())) (D.sync s) o → Exec D (.sync k) s o
  | syncFault {k s o e} : D.fault e → Exec D (k (.error e)) s o → Exec D (.sync k) s o
  | lock {k s o} : Exec D (k (.ok ())) s o → Exec D (.lock k) s o
  | lockFault {k s o e} : D.lockFault e → Exec D (k (.error e)) s o → Exec D (.lock k) s o
  | unlock {k s o} : Exec D (k (.ok ())) s o → Exec D (.unlock k) s o
  | unlockFault {k s o e} : D.lockFault e → Exec D (k (.error e)) s o → Exec D (.unlock k) s o

/-! ### The weakest precondition with a crash condition -/

section Cwp

variable {ε α β : Type} (D : Device ε)

/-- Every execution of the program from `s` that returns satisfies `Q`, and every image a
crash may leave on the way satisfies `C`. -/
def cwp : Io ε α → (Except ε α → D.State → Prop) → (Image → Prop) → D.State → Prop
  | .done r, Q, C, s => Q r s ∧ ∀ img, D.crash s img → C img
  | .capacity k, Q, C, s => cwp (k (.ok D.capacity)) Q C s ∧
      ∀ e, D.fault e → cwp (k (.error e)) Q C s
  | .read off len k, Q, C, s =>
      (off + len ≤ D.capacity → cwp (k (.ok (slice (D.view s) off len))) Q C s) ∧
      (¬ off + len ≤ D.capacity → cwp (k (.error D.rangeErr)) Q C s) ∧
      ∀ e, D.fault e → cwp (k (.error e)) Q C s
  | .write off bs k, Q, C, s =>
      (∀ img, D.crash s img → C img) ∧
      (¬ off + bs.length ≤ D.capacity → cwp (k (.error D.rangeErr)) Q C s) ∧
      (off + bs.length ≤ D.capacity → cwp (k (.ok ())) Q C (D.write s off bs) ∧
        ∀ s', D.interrupt s off bs s' → (∀ img, D.crash s' img → C img) ∧
          ∀ e, D.fault e → cwp (k (.error e)) Q C s')
  | .sync k, Q, C, s => (∀ img, D.crash s img → C img) ∧ cwp (k (.ok ())) Q C (D.sync s) ∧
      ∀ e, D.fault e → cwp (k (.error e)) Q C s
  | .lock k, Q, C, s => cwp (k (.ok ())) Q C s ∧ ∀ e, D.lockFault e → cwp (k (.error e)) Q C s
  | .unlock k, Q, C, s => cwp (k (.ok ())) Q C s ∧ ∀ e, D.lockFault e → cwp (k (.error e)) Q C s

variable {D} {Q Q' : Except ε α → D.State → Prop} {C C' : Image → Prop} {s : D.State}

/-- A crash before the first call satisfies the crash condition. -/
theorem cwp.crash {p : Io ε α} (h : cwp D p Q C s) : ∀ img, D.crash s img → C img := by
  induction p generalizing s with
  | done r => exact h.2
  | capacity k ih => exact ih _ h.1
  | read off len k ih =>
    by_cases hr : off + len ≤ D.capacity
    · exact ih _ (h.1 hr)
    · exact ih _ (h.2.1 hr)
  | write off bs k ih => exact h.1
  | sync k ih => exact h.1
  | lock k ih => exact ih _ h.1
  | unlock k ih => exact ih _ h.1

/-- Consequence. -/
theorem cwp.mono {p : Io ε α} (h : cwp D p Q C s) (hQ : ∀ r t, Q r t → Q' r t)
    (hC : ∀ img, C img → C' img) : cwp D p Q' C' s := by
  -- the two sides have the same shape, so the conditions are weakened where they stand
  induction p generalizing s with
  | done r => exact ⟨hQ _ _ h.1, fun img hi => hC _ (h.2 img hi)⟩
  | capacity k ih => exact ⟨ih _ h.1, fun e he => ih _ (h.2 e he)⟩
  | read off len k ih =>
    exact ⟨fun hr => ih _ (h.1 hr), fun hr => ih _ (h.2.1 hr), fun e he => ih _ (h.2.2 e he)⟩
  | write off bs k ih =>
    refine ⟨fun img hi => hC _ (h.1 img hi), fun hr => ih _ (h.2.1 hr), fun hr => ?_⟩
    refine ⟨ih _ (h.2.2 hr).1, fun s' hs' => ?_⟩
    obtain ⟨hcrash, hfault⟩ := (h.2.2 hr).2 s' hs'
    exact ⟨fun img hi => hC _ (hcrash img hi), fun e he => ih _ (hfault e he)⟩
  | sync k ih =>
    exact ⟨fun img hi => hC _ (h.1 img hi), ih _ h.2.1, fun e he => ih _ (h.2.2 e he)⟩
  | lock k ih => exact ⟨ih _ h.1, fun e he => ih _ (h.2 e he)⟩
  | unlock k ih => exact ⟨ih _ h.1, fun e he => ih _ (h.2 e he)⟩

/-- Conjunction. -/
theorem cwp.and {p : Io ε α} (h : cwp D p Q C s) (h' : cwp D p Q' C' s) :
    cwp D p (fun r t => Q r t ∧ Q' r t) (fun img => C img ∧ C' img) s := by
  -- every step asks for the same things on both sides
  induction p generalizing s with
  | done r => exact ⟨⟨h.1, h'.1⟩, fun img hi => ⟨h.2 img hi, h'.2 img hi⟩⟩
  | capacity k ih => exact ⟨ih _ h.1 h'.1, fun e he => ih _ (h.2 e he) (h'.2 e he)⟩
  | read off len k ih =>
    exact ⟨fun hr => ih _ (h.1 hr) (h'.1 hr), fun hr => ih _ (h.2.1 hr) (h'.2.1 hr),
      fun e he => ih _ (h.2.2 e he) (h'.2.2 e he)⟩
  | write off bs k ih =>
    refine ⟨fun img hi => ⟨h.1 img hi, h'.1 img hi⟩, fun hr => ih _ (h.2.1 hr) (h'.2.1 hr),
      fun hr => ⟨ih _ (h.2.2 hr).1 (h'.2.2 hr).1, fun s' hs' => ?_⟩⟩
    obtain ⟨hcrash, hfault⟩ := (h.2.2 hr).2 s' hs'
    obtain ⟨hcrash', hfault'⟩ := (h'.2.2 hr).2 s' hs'
    exact ⟨fun img hi => ⟨hcrash img hi, hcrash' img hi⟩,
      fun e he => ih _ (hfault e he) (hfault' e he)⟩
  | sync k ih =>
    exact ⟨fun img hi => ⟨h.1 img hi, h'.1 img hi⟩, ih _ h.2.1 h'.2.1,
      fun e he => ih _ (h.2.2 e he) (h'.2.2 e he)⟩
  | lock k ih => exact ⟨ih _ h.1 h'.1, fun e he => ih _ (h.2 e he) (h'.2 e he)⟩
  | unlock k ih => exact ⟨ih _ h.1 h'.1, fun e he => ih _ (h.2 e he) (h'.2 e he)⟩

/-- The postcondition under which a program may be followed by `f`. -/
def afterwards (D : Device ε) (f : α → Io ε β) (Q : Except ε β → D.State → Prop)
    (C : Image → Prop) : Except ε α → D.State → Prop
  | .ok a, t => cwp D (f a) Q C t
  | .error e, t => Q (.error e) t

@[simp] theorem afterwards_ok (f : α → Io ε β) (Q : Except ε β → D.State → Prop) (a : α)
    (t : D.State) : afterwards D f Q C (.ok a) t = cwp D (f a) Q C t := rfl

@[simp] theorem afterwards_error (f : α → Io ε β) (Q : Except ε β → D.State → Prop) (e : ε)
    (t : D.State) : afterwards D f Q C (.error e) t = Q (.error e) t := rfl

/-- The rule of sequencing: what holds after the first part is what the second needs. -/
theorem cwp_bind {p : Io ε α} {f : α → Io ε β} {Q : Except ε β → D.State → Prop}
    (h : cwp D p (afterwards D f Q C) C s) : cwp D (p >>= f) Q C s := by
  change cwp D (p.bind f) Q C s
  -- a step before the end is kept, and the end starts the second part
  induction p generalizing s with
  | done r =>
    cases r with
    | ok a => exact h.1
    | error e => exact h
  | capacity k ih => exact ⟨ih _ h.1, fun e he => ih _ (h.2 e he)⟩
  | read off len k ih =>
    exact ⟨fun hr => ih _ (h.1 hr), fun hr => ih _ (h.2.1 hr), fun e he => ih _ (h.2.2 e he)⟩
  | write off bs k ih =>
    refine ⟨h.1, fun hr => ih _ (h.2.1 hr), fun hr => ⟨ih _ (h.2.2 hr).1, fun s' hs' => ?_⟩⟩
    obtain ⟨hcrash, hfault⟩ := (h.2.2 hr).2 s' hs'
    exact ⟨hcrash, fun e he => ih _ (hfault e he)⟩
  | sync k ih => exact ⟨h.1, ih _ h.2.1, fun e he => ih _ (h.2.2 e he)⟩
  | lock k ih => exact ⟨ih _ h.1, fun e he => ih _ (h.2 e he)⟩
  | unlock k ih => exact ⟨ih _ h.1, fun e he => ih _ (h.2 e he)⟩

/-- A part whose error is a value does not end the program. -/
theorem cwp_attempt {p : Io ε α} {Q : Except ε (Except ε α) → D.State → Prop}
    (h : cwp D p (fun r t => Q (.ok r) t) C s) : cwp D p.attempt Q C s := by
  induction p generalizing s with
  | done r => exact h
  | capacity k ih => exact ⟨ih _ h.1, fun e he => ih _ (h.2 e he)⟩
  | read off len k ih =>
    exact ⟨fun hr => ih _ (h.1 hr), fun hr => ih _ (h.2.1 hr), fun e he => ih _ (h.2.2 e he)⟩
  | write off bs k ih =>
    refine ⟨h.1, fun hr => ih _ (h.2.1 hr), fun hr => ⟨ih _ (h.2.2 hr).1, fun s' hs' => ?_⟩⟩
    obtain ⟨hcrash, hfault⟩ := (h.2.2 hr).2 s' hs'
    exact ⟨hcrash, fun e he => ih _ (hfault e he)⟩
  | sync k ih => exact ⟨h.1, ih _ h.2.1, fun e he => ih _ (h.2.2 e he)⟩
  | lock k ih => exact ⟨ih _ h.1, fun e he => ih _ (h.2 e he)⟩
  | unlock k ih => exact ⟨ih _ h.1, fun e he => ih _ (h.2 e he)⟩

/-! ### One call at a time -/

/-- The rule of the end. -/
theorem cwp_done {r : Except ε α} (hQ : Q r s) (hC : ∀ img, D.crash s img → C img) :
    cwp D (.done r) Q C s := ⟨hQ, hC⟩

/-- The rule of the capacity. -/
theorem cwp_capacity {f : ℕ → Io ε β} {Q : Except ε β → D.State → Prop}
    (hok : cwp D (f D.capacity) Q C s) (hfault : ∀ e, D.fault e → Q (.error e) s) :
    cwp D (.capacity .done >>= f) Q C s :=
  ⟨hok, fun e he => ⟨hfault e he, hok.crash⟩⟩

/-- A read inside the region. -/
theorem cwp_read {off len : ℕ} {Q : Except ε Bytes → D.State → Prop}
    (hin : off + len ≤ D.capacity) (hC : ∀ img, D.crash s img → C img)
    (hok : Q (.ok (slice (D.view s) off len)) s) (hfault : ∀ e, D.fault e → Q (.error e) s) :
    cwp D (.read off len .done) Q C s :=
  ⟨fun _ => ⟨hok, hC⟩, fun h => absurd hin h, fun e he => ⟨hfault e he, hC⟩⟩

/-- A write inside the region. -/
theorem cwp_write {off : ℕ} {bs : Bytes} {Q : Except ε Unit → D.State → Prop}
    (hin : off + bs.length ≤ D.capacity) (hC : ∀ img, D.crash s img → C img)
    (hok : Q (.ok ()) (D.write s off bs) ∧ ∀ img, D.crash (D.write s off bs) img → C img)
    (hcut : ∀ s', D.interrupt s off bs s' → (∀ img, D.crash s' img → C img) ∧
      ∀ e, D.fault e → Q (.error e) s') :
    cwp D (.write off bs .done) Q C s := by
  refine ⟨hC, fun h => absurd hin h, fun _ => ⟨hok, fun s' hs' => ?_⟩⟩
  obtain ⟨hcrash, hfault⟩ := hcut s' hs'
  exact ⟨hcrash, fun e he => ⟨hfault e he, hcrash⟩⟩

/-- The rule of a sync. -/
theorem cwp_sync {Q : Except ε Unit → D.State → Prop}
    (hC : ∀ img, D.crash s img → C img)
    (hok : Q (.ok ()) (D.sync s) ∧ ∀ img, D.crash (D.sync s) img → C img)
    (hfault : ∀ e, D.fault e → Q (.error e) s) : cwp D (.sync .done) Q C s :=
  ⟨hC, hok, fun e he => ⟨hfault e he, hC⟩⟩

/-- Taking the lock leaves the device alone. -/
theorem cwp_lock {f : Unit → Io ε β} {Q : Except ε β → D.State → Prop}
    (hok : cwp D (f ()) Q C s) (hfault : ∀ e, D.lockFault e → Q (.error e) s) :
    cwp D (.lock .done >>= f) Q C s :=
  ⟨hok, fun e he => ⟨hfault e he, hok.crash⟩⟩

/-- Taking the lock and going on, whatever the answer. -/
theorem cwp_lock_attempt {f : Except ε Unit → Io ε β} {Q : Except ε β → D.State → Prop}
    (hok : cwp D (f (.ok ())) Q C s) (hfault : ∀ e, D.lockFault e → cwp D (f (.error e)) Q C s) :
    cwp D ((Io.lock .done).attempt >>= f) Q C s :=
  ⟨hok, hfault⟩

/-- Releasing the lock and going on, whatever the answer. -/
theorem cwp_unlock {f : Except ε Unit → Io ε β} {Q : Except ε β → D.State → Prop}
    (hok : cwp D (f (.ok ())) Q C s) (hfault : ∀ e, D.lockFault e → cwp D (f (.error e)) Q C s) :
    cwp D ((Io.unlock .done).attempt >>= f) Q C s :=
  ⟨hok, hfault⟩

/-! ### Soundness -/

/-- What an outcome owes the two conditions. -/
def Outcome.Meets (Q : Except ε α → D.State → Prop) (C : Image → Prop) : Outcome ε D α → Prop
  | .returned r t => Q r t ∧ ∀ img, D.crash t img → C img
  | .crashed img => C img

/-- Every execution of a program meets what `cwp` proves of it. -/
-- every step of the run is one the rules have looked at
theorem Exec.sound {p : Io ε α} {o : Outcome ε D α} (he : Exec D p s o) (h : cwp D p Q C s) :
    o.Meets Q C := by
  induction he with
  | done => exact h
  | crash hc => exact h.crash _ hc
  | capacity _ ih => exact ih h.1
  | capacityFault he _ ih => exact ih (h.2 _ he)
  | read hr _ ih => exact ih (h.1 hr)
  | readRange hr _ ih => exact ih (h.2.1 hr)
  | readFault he _ ih => exact ih (h.2.2 _ he)
  | write hr _ ih => exact ih (h.2.2 hr).1
  | writeRange hr _ ih => exact ih (h.2.1 hr)
  | writeFault hr he hi _ ih => exact ih (((h.2.2 hr).2 _ hi).2 _ he)
  | writeCrash hr hi hc => exact ((h.2.2 hr).2 _ hi).1 _ hc
  | sync _ ih => exact ih h.2.1
  | syncFault he _ ih => exact ih (h.2.2 _ he)
  | lock _ ih => exact ih h.1
  | lockFault he _ ih => exact ih (h.2 _ he)
  | unlock _ ih => exact ih h.1
  | unlockFault he _ ih => exact ih (h.2 _ he)

/-! ### The writes of an execution -/

/-- The program may get to a write of `bs` at `off` with the device in this state. -/
inductive Issues {ε : Type} (D : Device ε) {α : Type} :
    Io ε α → D.State → D.State → ℕ → Bytes → Prop
  | here {off bs k s} : Issues D (.write off bs k) s s off bs
  | capacity {k s t off bs} : Issues D (k (.ok D.capacity)) s t off bs →
      Issues D (.capacity k) s t off bs
  | capacityFault {k s t off bs e} : D.fault e → Issues D (k (.error e)) s t off bs →
      Issues D (.capacity k) s t off bs
  | read {o len k s t off bs} : o + len ≤ D.capacity →
      Issues D (k (.ok (slice (D.view s) o len))) s t off bs → Issues D (.read o len k) s t off bs
  | readRange {o len k s t off bs} : ¬ o + len ≤ D.capacity →
      Issues D (k (.error D.rangeErr)) s t off bs → Issues D (.read o len k) s t off bs
  | readFault {o len k s t off bs e} : D.fault e → Issues D (k (.error e)) s t off bs →
      Issues D (.read o len k) s t off bs
  | write {o cs k s t off bs} : o + cs.length ≤ D.capacity →
      Issues D (k (.ok ())) (D.write s o cs) t off bs → Issues D (.write o cs k) s t off bs
  | writeRange {o cs k s t off bs} : ¬ o + cs.length ≤ D.capacity →
      Issues D (k (.error D.rangeErr)) s t off bs → Issues D (.write o cs k) s t off bs
  | sync {k s t off bs} : Issues D (k (.ok ())) (D.sync s) t off bs → Issues D (.sync k) s t off bs
  | lock {k s t off bs} : Issues D (k (.ok ())) s t off bs → Issues D (.lock k) s t off bs
  | lockFault {k s t off bs e} : D.lockFault e → Issues D (k (.error e)) s t off bs →
      Issues D (.lock k) s t off bs
  | unlock {k s t off bs} : Issues D (k (.ok ())) s t off bs → Issues D (.unlock k) s t off bs
  | unlockFault {k s t off bs e} : D.lockFault e → Issues D (k (.error e)) s t off bs →
      Issues D (.unlock k) s t off bs

/-! ### Composing executions -/

/-- A program that goes on after a program that returned. -/
theorem Exec.bind {p : Io ε α} {f : α → Io ε β} {a : α} {t : D.State} {o : Outcome ε D β}
    (h : Exec D p s (.returned (.ok a) t)) (hf : Exec D (f a) t o) : Exec D (p >>= f) s o := by
  change Exec D (p.bind f) s o
  -- the run of the first part ends with a value, so its last step starts the second
  generalize ho : (Outcome.returned (.ok a) t : Outcome ε D α) = o' at h
  induction h with
  | done =>
    cases ho
    exact hf
  | crash => cases ho
  | capacity _ ih => exact .capacity (ih ho)
  | capacityFault he _ ih => exact .capacityFault he (ih ho)
  | read hr _ ih => exact .read hr (ih ho)
  | readRange hr _ ih => exact .readRange hr (ih ho)
  | readFault he _ ih => exact .readFault he (ih ho)
  | write hr _ ih => exact .write hr (ih ho)
  | writeRange hr _ ih => exact .writeRange hr (ih ho)
  | writeFault hr he hi _ ih => exact .writeFault hr he hi (ih ho)
  | writeCrash => cases ho
  | sync _ ih => exact .sync (ih ho)
  | syncFault he _ ih => exact .syncFault he (ih ho)
  | lock _ ih => exact .lock (ih ho)
  | lockFault he _ ih => exact .lockFault he (ih ho)
  | unlock _ ih => exact .unlock (ih ho)
  | unlockFault he _ ih => exact .unlockFault he (ih ho)

/-- A program that is cut short, whatever was to follow. -/
theorem Exec.bind_crashed {p : Io ε α} {f : α → Io ε β} {img : Image}
    (h : Exec D p s (.crashed img)) : Exec D (p >>= f) s (.crashed img) := by
  change Exec D (p.bind f) s _
  -- the first part crashed, so the second was never started
  generalize ho : (Outcome.crashed img : Outcome ε D α) = o' at h
  induction h with
  | done => cases ho
  | crash hc =>
    cases ho
    exact .crash hc
  | capacity _ ih => exact .capacity (ih ho)
  | capacityFault he _ ih => exact .capacityFault he (ih ho)
  | read hr _ ih => exact .read hr (ih ho)
  | readRange hr _ ih => exact .readRange hr (ih ho)
  | readFault he _ ih => exact .readFault he (ih ho)
  | write hr _ ih => exact .write hr (ih ho)
  | writeRange hr _ ih => exact .writeRange hr (ih ho)
  | writeFault hr he hi _ ih => exact .writeFault hr he hi (ih ho)
  | writeCrash hr hi hc =>
    cases ho
    exact .writeCrash hr hi hc
  | sync _ ih => exact .sync (ih ho)
  | syncFault he _ ih => exact .syncFault he (ih ho)
  | lock _ ih => exact .lock (ih ho)
  | lockFault he _ ih => exact .lockFault he (ih ho)
  | unlock _ ih => exact .unlock (ih ho)
  | unlockFault he _ ih => exact .unlockFault he (ih ho)

/-- Handing the result on does not change how a program is cut short. -/
theorem Exec.attempt_crashed {p : Io ε α} {img : Image} (h : Exec D p s (.crashed img)) :
    Exec D p.attempt s (.crashed img) := by
  generalize ho : (Outcome.crashed img : Outcome ε D α) = o' at h
  induction h with
  | done => cases ho
  | crash hc =>
    cases ho
    exact .crash hc
  | capacity _ ih => exact .capacity (ih ho)
  | capacityFault he _ ih => exact .capacityFault he (ih ho)
  | read hr _ ih => exact .read hr (ih ho)
  | readRange hr _ ih => exact .readRange hr (ih ho)
  | readFault he _ ih => exact .readFault he (ih ho)
  | write hr _ ih => exact .write hr (ih ho)
  | writeRange hr _ ih => exact .writeRange hr (ih ho)
  | writeFault hr he hi _ ih => exact .writeFault hr he hi (ih ho)
  | writeCrash hr hi hc =>
    cases ho
    exact .writeCrash hr hi hc
  | sync _ ih => exact .sync (ih ho)
  | syncFault he _ ih => exact .syncFault he (ih ho)
  | lock _ ih => exact .lock (ih ho)
  | lockFault he _ ih => exact .lockFault he (ih ho)
  | unlock _ ih => exact .unlock (ih ho)
  | unlockFault he _ ih => exact .unlockFault he (ih ho)

end Cwp

/-! ### Devices whose writes reach the medium at once -/

section Direct

variable {ε α : Type}

/-- A device whose state is the medium: a write that succeeds is on it, one that fails or is
cut short leaves an image admitted by `torn`, and a crash adds nothing. -/
def direct (capacity : ℕ) (rangeErr : ε) (fault lockFault : ε → Prop)
    (torn : Image → Image → Image → Prop) : Device ε where
  State := Image
  view img := img
  capacity := capacity
  rangeErr := rangeErr
  fault := fault
  lockFault := lockFault
  write := patch
  interrupt img off bs img' := torn img (patch img off bs) img'
  sync img := img
  crash img img' := img' = img

/-- The execution of a program when nothing fails: its result and the image it leaves. -/
def Io.run (capacity : ℕ) (rangeErr : ε) : Io ε α → Image → Except ε α × Image
  | .done r, img => (r, img)
  | .capacity k, img => (k (.ok capacity)).run capacity rangeErr img
  | .read off len k, img =>
      if off + len ≤ capacity then (k (.ok (slice img off len))).run capacity rangeErr img
      else (k (.error rangeErr)).run capacity rangeErr img
  | .write off bs k, img =>
      if off + bs.length ≤ capacity then (k (.ok ())).run capacity rangeErr (patch img off bs)
      else (k (.error rangeErr)).run capacity rangeErr img
  | .sync k, img => (k (.ok ())).run capacity rangeErr img
  | .lock k, img => (k (.ok ())).run capacity rangeErr img
  | .unlock k, img => (k (.ok ())).run capacity rangeErr img

/-- The run of a sequence. -/
theorem Io.run_bind {β : Type} (capacity : ℕ) (rangeErr : ε) (p : Io ε α) (f : α → Io ε β)
    (img : Image) : (p >>= f).run capacity rangeErr img =
      match p.run capacity rangeErr img with
      | (.ok a, img') => (f a).run capacity rangeErr img'
      | (.error e, img') => (.error e, img') := by
  change (p.bind f).run capacity rangeErr img = _
  induction p generalizing img with
  | done r => cases r <;> rfl
  | capacity k ih => exact ih _ img
  | read off len k ih =>
    simp only [Io.bind, Io.run]
    split_ifs <;> exact ih _ img
  | write off bs k ih =>
    simp only [Io.bind, Io.run]
    split_ifs <;> exact ih _ _
  | sync k ih => exact ih _ img
  | lock k ih => exact ih _ img
  | unlock k ih => exact ih _ img

/-- The run of a part whose error is a value. -/
theorem Io.run_attempt (capacity : ℕ) (rangeErr : ε) (p : Io ε α) (img : Image) :
    p.attempt.run capacity rangeErr img =
      (.ok (p.run capacity rangeErr img).1, (p.run capacity rangeErr img).2) := by
  induction p generalizing img with
  | done r => rfl
  | capacity k ih => exact ih _ img
  | read off len k ih =>
    simp only [Io.attempt, Io.run]
    split_ifs <;> exact ih _ img
  | write off bs k ih =>
    simp only [Io.attempt, Io.run]
    split_ifs <;> exact ih _ _
  | sync k ih => exact ih _ img
  | lock k ih => exact ih _ img
  | unlock k ih => exact ih _ img

variable {capacity : ℕ} {rangeErr : ε} {fault lockFault : ε → Prop}
  {torn : Image → Image → Image → Prop}

/-- The undisturbed execution is one of the executions on any direct device. -/
theorem Io.run_exec (p : Io ε α) (img : Image) :
    Exec (direct capacity rangeErr fault lockFault torn) p img
      -- a call inside the range takes the first way of the device, one outside the second
      (.returned (p.run capacity rangeErr img).1 (p.run capacity rangeErr img).2) := by
  induction p generalizing img with
  | done r => exact .done
  | capacity k ih => exact .capacity (ih _ img)
  | read off len k ih =>
    by_cases hr : off + len ≤ capacity
    · simp only [Io.run, if_pos hr]
      exact .read hr (ih _ img)
    · simp only [Io.run, if_neg hr]
      exact .readRange hr (ih _ img)
  | write off bs k ih =>
    by_cases hr : off + bs.length ≤ capacity
    · simp only [Io.run, if_pos hr]
      exact .write hr (ih _ _)
    · simp only [Io.run, if_neg hr]
      exact .writeRange hr (ih _ img)
  | sync k ih => exact .sync (ih _ img)
  | lock k ih => exact .lock (ih _ img)
  | unlock k ih => exact .unlock (ih _ img)

/-- What the rules say of the direct device holds of the run. -/
theorem cwp.run_sound {p : Io ε α} {img : Image}
    {Q : Except ε α → Image → Prop} {C : Image → Prop}
    (h : cwp (direct capacity rangeErr fault lockFault torn) p Q C img) :
    Q (p.run capacity rangeErr img).1 (p.run capacity rangeErr img).2 :=
  ((Io.run_exec p img).sound h).1

/-! #### Cutting a run short -/

/-- The image when the machine stops inside write number `n` of an undisturbed run, after the
first `len` bytes of it. -/
def Io.cut (capacity : ℕ) (rangeErr : ε) (len : ℕ) : ℕ → Io ε α → Image → Image
  | _, .done _, img => img
  | n, .capacity k, img => (k (.ok capacity)).cut capacity rangeErr len n img
  | n, .read off size k, img =>
      if off + size ≤ capacity then
        (k (.ok (slice img off size))).cut capacity rangeErr len n img
      else (k (.error rangeErr)).cut capacity rangeErr len n img
  | 0, .write off bs k, img =>
      if off + bs.length ≤ capacity then patch img off (bs.take len)
      else (k (.error rangeErr)).cut capacity rangeErr len 0 img
  | n + 1, .write off bs k, img =>
      if off + bs.length ≤ capacity then
        (k (.ok ())).cut capacity rangeErr len n (patch img off bs)
      else (k (.error rangeErr)).cut capacity rangeErr len (n + 1) img
  | n, .sync k, img => (k (.ok ())).cut capacity rangeErr len n img
  | n, .lock k, img => (k (.ok ())).cut capacity rangeErr len n img
  | n, .unlock k, img => (k (.ok ())).cut capacity rangeErr len n img

/-- A run that is cut short is one of the executions when writes may tear anywhere. -/
theorem Io.cut_exec (p : Io ε α) (len n : ℕ) (img : Image) :
    Exec (direct capacity rangeErr fault lockFault Torn) p img
      (.crashed (p.cut capacity rangeErr len n img)) := by
  -- the cut counts the writes that are carried out; the one at zero is torn
  induction p generalizing n img with
  | done r =>
    rw [Io.cut]
    exact .crash rfl
  | capacity k ih =>
    rw [Io.cut]
    exact .capacity (ih _ n img)
  | read off size k ih =>
    rw [Io.cut]
    by_cases hr : off + size ≤ capacity
    · rw [if_pos hr]
      exact .read hr (ih _ n img)
    · rw [if_neg hr]
      exact .readRange hr (ih _ n img)
  | write off bs k ih =>
    by_cases hr : off + bs.length ≤ capacity
    · cases n with
      | zero =>
        rw [Io.cut, if_pos hr]
        exact .writeCrash hr (Torn.patch_take img off bs len) rfl
      | succ n =>
        rw [Io.cut, if_pos hr]
        exact .write hr (ih _ n _)
    · cases n with
      | zero =>
        rw [Io.cut, if_neg hr]
        exact .writeRange hr (ih _ 0 img)
      | succ n =>
        rw [Io.cut, if_neg hr]
        exact .writeRange hr (ih _ (n + 1) img)
  | sync k ih =>
    rw [Io.cut]
    exact .sync (ih _ n img)
  | lock k ih =>
    rw [Io.cut]
    exact .lock (ih _ n img)
  | unlock k ih =>
    rw [Io.cut]
    exact .unlock (ih _ n img)

end Direct

end CrashLogic
