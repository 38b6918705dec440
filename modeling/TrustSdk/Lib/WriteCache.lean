import TrustSdk.Lib.CrashLogic

/-!
# A device with a volatile write cache

Writes wait in a cache until a sync brings them to the medium, and a crash may leave any of
them behind: wholly, torn or not at all.

* `Cache` — the medium and the writes issued since the last sync;
* `Persists` — what a crash may leave. A predicate `seen` picks out the images on which a write
  has taken effect; such a write finds everything issued before it on the medium. With `seen`
  never true this is a cache that reorders writes at will.
* `cached` — the device.
-/

namespace WriteCache

open ByteStore CrashLogic

/-- The medium and the writes that are not yet on it, the latest first. -/
structure Cache where
  medium : Image
  pending : List (ℕ × Bytes)

/-- The image after all the writes of a list. -/
def applyAll (medium : Image) : List (ℕ × Bytes) → Image
  | [] => medium
  | (off, bs) :: ws => patch (applyAll medium ws) off bs

/-- What a read sees: the medium with the pending writes on it. -/
def Cache.view (c : Cache) : Image := applyAll c.medium c.pending

/-- The images that a crash may leave of a medium with pending writes: one after the other
they reach it as `torn` allows, and those that have been `seen` reach it last. -/
def Persists (torn : Image → Image → Image → Prop) (seen : ℕ → Bytes → Image → Prop)
    (medium : Image) : List (ℕ × Bytes) → Image → Prop
  | [], img' => img' = medium
  | (off, bs) :: ws, img' =>
      ∃ img, Persists torn seen medium ws img ∧ torn img (patch img off bs) img' ∧
        (seen off bs img' → img = applyAll medium ws)

/-- A cache on which no call fails. -/
def cached (ε : Type) (capacity : ℕ) (rangeErr : ε) (torn : Image → Image → Image → Prop)
    (seen : ℕ → Bytes → Image → Prop) : Device ε where
  State := Cache
  view := Cache.view
  capacity := capacity
  rangeErr := rangeErr
  fault _ := False
  lockFault _ := False
  write c off bs := { c with pending := (off, bs) :: c.pending }
  interrupt c off bs c' := c' = { c with pending := (off, bs) :: c.pending }
  sync c := ⟨c.view, []⟩
  crash c := Persists torn seen c.medium c.pending

variable {ε α β : Type} {capacity : ℕ} {rangeErr : ε} {torn : Image → Image → Image → Prop}
  {seen : ℕ → Bytes → Image → Prop}

/-- Asking for less order leaves more images. -/
theorem Persists.mono {seen' : ℕ → Bytes → Image → Prop}
    (hseen : ∀ off bs img, seen' off bs img → seen off bs img)
    {medium : Image} {ws : List (ℕ × Bytes)} {img : Image} (h : Persists torn seen medium ws img) :
    Persists torn seen' medium ws img := by
  induction ws generalizing img with
  | nil => exact h
  | cons w ws ih =>
    obtain ⟨mid, hmid, htorn, hlast⟩ := h
    exact ⟨mid, ih hmid, htorn, fun h => hlast (hseen _ _ _ h)⟩

/-- Whatever order a crash respects, a program returns in the same way; what one cache
guarantees of its result, some execution on any other attains. -/
theorem exists_returned (seen' : ℕ → Bytes → Image → Prop) {p : Io ε α} {Q : Except ε α → Cache → Prop} {C : Image → Prop} {c : Cache}
    (h : cwp (cached ε capacity rangeErr torn seen) p Q C c) :
    ∃ r c', Exec (cached ε capacity rangeErr torn seen') p c (.returned r c') ∧ Q r c' := by
  -- along the program: what a cached storage answers does not depend on what a crash would show
  induction p generalizing c with
  | done r => exact ⟨r, c, .done, h.1⟩
  | capacity k ih =>
    obtain ⟨r, c', he, hq⟩ := ih _ h.1
    exact ⟨r, c', .capacity he, hq⟩
  | read off len k ih =>
    by_cases hr : off + len ≤ capacity
    · obtain ⟨r, c', he, hq⟩ := ih _ (h.1 hr)
      exact ⟨r, c', .read hr he, hq⟩
    · obtain ⟨r, c', he, hq⟩ := ih _ (h.2.1 hr)
      exact ⟨r, c', .readRange hr he, hq⟩
  | write off bs k ih =>
    by_cases hr : off + bs.length ≤ capacity
    · obtain ⟨r, c', he, hq⟩ := ih _ (h.2.2 hr).1
      exact ⟨r, c', .write hr he, hq⟩
    · obtain ⟨r, c', he, hq⟩ := ih _ (h.2.1 hr)
      exact ⟨r, c', .writeRange hr he, hq⟩
  | sync k ih =>
    obtain ⟨r, c', he, hq⟩ := ih _ h.2.1
    exact ⟨r, c', .sync he, hq⟩
  | lock k ih =>
    obtain ⟨r, c', he, hq⟩ := ih _ h.1
    exact ⟨r, c', .lock he, hq⟩
  | unlock k ih =>
    obtain ⟨r, c', he, hq⟩ := ih _ h.1
    exact ⟨r, c', .unlock he, hq⟩

end WriteCache
