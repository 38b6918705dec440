import Mathlib.Algebra.Order.Group.Nat
import Mathlib.Tactic.Ring
import TrustSdk.Common.Errno

/-!
# Deadlines of the socket adapter

`network.c` bounds every wait by a point of the monotonic clock, kept as seconds and nanoseconds
(`netDeadlineStart`), and asks before each wait how many whole milliseconds are left
(`netDeadlineRemaining`). Seen in nanoseconds (`Timespec.toNs`) the first is an addition
(`toNs_netDeadlineStart`) and the second a subtraction that fails when nothing is left
(`netDeadlineRemaining_eq`).
-/

namespace TrustSdk.Net

/-- Every error of `network.c` is built by `NET_ERR`, so that it is its reason. -/
abbrev NetErr := ErrCode

/-- A reading of `CLOCK_MONOTONIC`. -/
structure Timespec where
  sec : ℕ
  nsec : ℕ
  normal : nsec < 1000000000
  deriving DecidableEq, Repr

/-- No time. -/
def Timespec.zero : Timespec := ⟨0, 0, by decide⟩

/-- The time in nanoseconds. -/
def Timespec.toNs (t : Timespec) : ℕ := t.sec * 1000000000 + t.nsec

/-- `net_deadline_t`. -/
structure NetDeadline where
  expires : Timespec
  immediate : Bool
  deriving DecidableEq, Repr

/-- `INT_MAX`. -/
def intMax : ℕ := 2147483647

/-- `net_deadline_start`, with the reading of the clock, if there is one. -/
def netDeadlineStart (timeoutMs : ℕ) : Option Timespec → Except NetErr NetDeadline
  | none => .error .io
  | some now =>
    let nsec := now.nsec + timeoutMs * 1000000
    .ok ⟨⟨now.sec + nsec / 1000000000, nsec % 1000000000, Nat.mod_lt _ (by decide)⟩,
      timeoutMs == 0⟩

/-- `net_deadline_remaining`, in milliseconds. -/
def netDeadlineRemaining (deadline : NetDeadline) (clock : Option Timespec) : Except NetErr ℕ :=
  if deadline.immediate then .ok 0
  else
    match clock with
    | none => .error .io
    | some now =>
      let sec : ℤ := deadline.expires.sec - now.sec
      let nsec : ℤ := deadline.expires.nsec - now.nsec
      let leftNs := sec * 1000000000 + nsec
      if leftNs ≤ 0 then .error .timeout
      else .ok (min intMax (leftNs / 1000000).toNat)

/-- The deadline is `timeout_ms` behind the reading. -/
theorem toNs_netDeadlineStart (timeoutMs : ℕ) (now : Timespec) :
    ∃ deadline, netDeadlineStart timeoutMs (some now) = .ok deadline ∧
      deadline.expires.toNs = now.toNs + timeoutMs * 1000000 ∧
      (deadline.immediate = true ↔ timeoutMs = 0) := by
  refine ⟨_, rfl, ?_, beq_iff_eq⟩
  have hdiv := Nat.div_add_mod (now.nsec + timeoutMs * 1000000) 1000000000
  calc (now.sec + (now.nsec + timeoutMs * 1000000) / 1000000000) * 1000000000 +
        (now.nsec + timeoutMs * 1000000) % 1000000000
      = now.sec * 1000000000 + (now.nsec + timeoutMs * 1000000) := by omega
    _ = now.toNs + timeoutMs * 1000000 := (Nat.add_assoc _ _ _).symm

/-- What is left is the distance to the deadline, and nothing is left from it on. -/
theorem netDeadlineRemaining_eq {deadline : NetDeadline} (h : deadline.immediate = false)
    (now : Timespec) : netDeadlineRemaining deadline (some now) =
      if deadline.expires.toNs ≤ now.toNs then .error .timeout
      else .ok (min intMax ((deadline.expires.toNs - now.toNs) / 1000000)) := by
  have hleft : ((deadline.expires.sec : ℤ) - now.sec) * 1000000000 +
      (deadline.expires.nsec - now.nsec) = (deadline.expires.toNs : ℤ) - now.toNs := by
    simp only [Timespec.toNs]
    push_cast
    ring
  simp only [netDeadlineRemaining, h, hleft]
  by_cases hle : deadline.expires.toNs ≤ now.toNs
  · rw [if_neg (by decide), if_pos hle, if_pos (by omega)]
  · rw [if_neg (by decide), if_neg hle, if_neg (by omega)]
    congr 2
    omega

end TrustSdk.Net
