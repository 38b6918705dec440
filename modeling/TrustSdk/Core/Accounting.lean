import TrustSdk.Core.Service

/-!
# Where the jobs of the core are

Every slot of the pool is free, or is held by the thread that posts its job, by the queue or by the
service. `CoreSystem.waiting` are the jobs that have been queued and not executed, and
`CoreSystem.served` the one that has been executed and not been called back, as lists.

* `Stock` — the pool and the queue are in order;
* `Control` — the flags of the core and where its threads are fit together;
* `Placed` — nothing waits beside an INIT, and behind a DEINIT the core is left alone;
* `Sessions` — in which order the jobs of a session and CONNECT wait;
* `Moves` — what a step does with the two lists.

Then the sections of the calls keep them all (`Inv.apiStep`, `Inv.submit`, `Inv.actrustInit`).
-/

namespace TrustSdk.Core.Service

open RingBuffer

/-! ### Slots -/

/-- The slot a post holds. -/
def PostPc.slots : PostPc → List ℕ
  | .allocating => []
  | .enqueuing idx => [idx]
  | .releasing idx _ => [idx]

/-- The slot of the call under way. -/
def ApiPc.slots : ApiPc → List ℕ
  | .idle => []
  | .posting _ pc => pc.slots

/-- The slot of the deinit under way. -/
def DeinitPc.slots : DeinitPc → List ℕ
  | .posting _ _ _ pc => pc.slots
  | _ => []

/-- The slot of a job that is executed. -/
def ServicePc.working : ServicePc → List ℕ
  | .running idx => [idx]
  | .registering idx => [idx]
  | _ => []

/-- The slot of a job that has been executed. -/
def ServicePc.done : ServicePc → List ℕ
  | .completing idx _ => [idx]
  | .releasing idx => [idx]
  | _ => []

/-- The job that is called back, behind its release. -/
def ServicePc.called : ServicePc → List Request
  | .calling request => [request]
  | _ => []

/-- The slots in the queue, oldest first. -/
def CoreSystem.queued (c : CoreSystem) : List ℕ := c.jobQueue.ring.toList

/-- The slots of the service and of the queue. -/
def CoreSystem.queuedOrServed (c : CoreSystem) : List ℕ :=
  c.service.done ++ (c.service.working ++ c.queued)

/-- Every slot in use. -/
def CoreSystem.held (c : CoreSystem) : List ℕ :=
  c.api.slots ++ (c.deinit.slots ++ c.queuedOrServed)

/-- The requests not yet executed, in their order. -/
def CoreSystem.waiting (c : CoreSystem) : List Request :=
  c.jobPool.requests (c.service.working ++ c.queued)

/-- The requests executed, and the one whose callback runs. -/
def CoreSystem.served (c : CoreSystem) : List Request :=
  c.jobPool.requests c.service.done ++ c.service.called

/-- The service is between the two ends of a wait. -/
def ServicePc.waiters : ServicePc → ℕ
  | .waiting => 1
  | .taking => 1
  | _ => 0

/-- It has been woken for a job that it has not taken yet. -/
def ServicePc.woken : ServicePc → ℕ
  | .taking => 1
  | _ => 0

/-! ### The invariants -/

/-- The job in the slot that is about to be queued. -/
def PostPc.Carries (p : JobPool) (request : Request) : PostPc → Prop
  | .enqueuing idx => (p.pool idx).request = request
  | _ => True

/-- The slot of the call carries its request. -/
def ApiPc.Carries (p : JobPool) : ApiPc → Prop
  | .idle => True
  | .posting request pc => pc.Carries p request

/-- The slot of the deinit carries a DEINIT. -/
def DeinitPc.Carries (p : JobPool) : DeinitPc → Prop
  | .posting request _ _ pc => request.type = .deinit ∧ pc.Carries p request
  | _ => True

/-- Pool, ring and counts agree with what every thread is doing. -/
structure CoreSystem.Stock (config : CoreConfig) (c : CoreSystem) : Prop where
  accounted : c.jobPool.Accounted config.jobPoolSize c.held
  ring : c.jobQueue.ring.WellFormed
  depth : c.jobQueue.ring.depth = config.jobQueueCapacity
  waiters : c.jobQueue.waiterCount = c.service.waiters
  items : c.jobQueue.semItems + c.service.woken = c.jobQueue.ring.count
  api : c.api.Carries c.jobPool
  deinit : c.deinit.Carries c.jobPool

/-- Its job is not posted, or has not been. -/
def DeinitPc.BeforePost : DeinitPc → Prop
  | .posting _ _ _ _ => True
  | .restoring _ => True
  | _ => False

/-- The last DEINIT job has succeeded. -/
def CoreSystem.DeinitDone (c : CoreSystem) : Prop :=
  c.deinitJobDone = true ∧ c.deinitResult.isOk = true

/-- What an admitted `actrust_deinit` relies on, by where it is. -/
def CoreSystem.Attempting (c : CoreSystem) : DeinitPc → Prop
  | .idle => True
  | .posting _ previous start _ =>
    c.deinitPhase = .job ∧ (previous = .ready ∨ previous = .initFailed) ∧ ¬c.DeinitDone ∧
      start = decide (c.serviceTask = false)
  | .starting previous =>
    c.deinitPhase = .job ∧ (previous = .ready ∨ previous = .initFailed) ∧ ¬c.DeinitDone ∧
      c.serviceTask = false
  | .restoring previous =>
    c.deinitPhase = .job ∧ (previous = .ready ∨ previous = .initFailed) ∧ ¬c.DeinitDone
  | .joining => c.deinitPhase = .job
  | .finishing => c.serviceTask = false ∧ c.deinitPhase ≠ .job

/-- The flags, and where the threads are. -/
structure CoreSystem.Control (c : CoreSystem) : Prop where
  stopped : c.serviceTask = false → c.service = .stopped
  task : c.serviceTask = true → c.service ≠ .stopped
  unlocked : c.lock = false → c.state = .uninit ∧ c.serviceTask = false ∧
    c.deinitPending = false ∧ c.deinitPhase = .job ∧ c.jobQueue.ring.count = 0
  callback : c.lock = true → c.callback = true
  admitted : ∀ request pc, c.api = .posting request pc →
    c.lock = true ∧ c.deinitPending = false ∧ coreAdmits request.type c.state = true
  attempt : c.deinit ≠ .idle →
    c.lock = true ∧ c.deinitPending = true ∧ c.deinitFinalizing = true
  attempting : c.Attempting c.deinit
  phase : c.deinitPhase ≠ .job →
    c.deinitPending = true ∧ c.serviceTask = false ∧ c.state = .deinit
  drained : c.deinitPhase = .pool ∨ c.deinitPhase = .lock → c.jobQueue.ring.count = 0
  opened : c.lock = true → c.deinitPhase = .job → c.jobQueue.closed = false

/-- The jobs that INIT and DEINIT are with. -/
structure CoreSystem.Placed (c : CoreSystem) : Prop where
  init : ∀ request ∈ c.waiting, request.type = .init →
    c.state = .initing ∧ c.waiting = [request]
  /-- No DEINIT is with a service that is not waited for. -/
  quiet : c.serviceTask = true → (c.deinitPending = false ∨ c.deinit.BeforePost) →
    ∀ request ∈ c.served ++ c.waiting, request.type ≠ .deinit
  /-- Behind a DEINIT the state is left alone. -/
  ran : ∀ request ∈ c.served, request.type = .deinit → c.state = .deinit
  done : c.DeinitDone → c.state = .deinit ∧
    (c.service = .stopped ∨ c.service = .exited ∨ ∃ request ∈ c.served, request.type = .deinit)

/-- The jobs that are admitted in a session only. -/
def OfSession : JobType → Prop
  | .disconnect => True
  | .register => True
  | .send => True
  | _ => False

/-- The core is UNREGISTERED or REGISTERED. -/
def CoreSystem.InSession (c : CoreSystem) : Prop :=
  c.state = .unregistered ∨ c.state = .registered

/-- A job is admitted in one state and executed in another. While the core is in a session, no
CONNECT waits behind a DISCONNECT; otherwise none of the jobs of a session waits behind a CONNECT. -/
structure CoreSystem.Sessions (c : CoreSystem) : Prop where
  apart : ¬c.InSession → c.waiting.Pairwise fun r r' => r.type = .connect → ¬OfSession r'.type
  refused : ¬c.InSession → ∀ r ∈ c.waiting, r.type = .disconnect →
    c.contexts.mqtt = .disconnected
  session : c.InSession → c.waiting.Pairwise fun r r' => r.type = .disconnect → r'.type ≠ .connect
  pending : c.deinitPending = true →
    c.state = .deinit ∨ c.InSession ∧ ∀ r ∈ c.waiting, ¬OfSession r.type
  registering : ∀ idx, c.service = .registering idx →
    c.state = .unregistered ∧ (c.jobPool.pool idx).request.type = .register

/-- The invariant, in four parts. -/
structure CoreSystem.Inv (config : CoreConfig) (c : CoreSystem) : Prop
  extends c.Stock config, c.Control, c.Placed, c.Sessions

/-- What a step does with the jobs that wait and the one that is called back. -/
inductive CoreSystem.Moves (c c' : CoreSystem) : Prop where
  | stay : c'.waiting = c.waiting → c'.served = c.served →
      c'.log.enqueued = c.log.enqueued → c'.log.executed = c.log.executed →
      c'.log.callbacks = c.log.callbacks → Moves c c'
  | enqueue (request : Request) : c'.waiting = c.waiting ++ [request] → c'.served = c.served →
      c'.log.enqueued = c.log.enqueued ++ [request] → c'.log.executed = c.log.executed →
      c'.log.callbacks = c.log.callbacks → Moves c c'
  | execute (request : Request) : c.waiting = request :: c'.waiting → c.served = [] →
      c'.served = [request] → c'.log.enqueued = c.log.enqueued →
      c'.log.executed = c.log.executed ++ [request] → c'.log.callbacks = c.log.callbacks →
      Moves c c'
  | call (request : Request) : c'.waiting = c.waiting → c.served = [request] → c'.served = [] →
      c'.log.enqueued = c.log.enqueued → c'.log.executed = c.log.executed →
      c'.log.callbacks = c.log.callbacks ++ [request] → Moves c c'
  /-- A queue is drained. -/
  | drop : c'.waiting <:+ c.waiting → c'.served = c.served → c.service = .stopped →
      c'.log.enqueued = c.log.enqueued → c'.log.executed = c.log.executed →
      c'.log.callbacks = c.log.callbacks → Moves c c'

/-! ### Posting a job -/

/-- What `core_post_job` makes of the pool and the queue; `rest` are the other slots in use. -/
inductive Posted (size : ℕ) (request : Request) (rest : List ℕ) (p : JobPool) (q : JobQueue) :
    PostStep × JobPool × JobQueue → Prop where
  | next {pc p'} : p'.Accounted size (pc.slots ++ rest) → pc.Carries p' request →
      (∀ i ∈ rest, p'.pool i = p.pool i) → Posted size request rest p q (.next pc, p', q)
  | failed {e p'} : p'.Accounted size rest → (∀ i ∈ rest, p'.pool i = p.pool i) →
      Posted size request rest p q (.returned (.error e), p', q)
  | posted {idx} : p.Accounted size (idx :: rest) → (p.pool idx).request = request →
      q.closed = false → q.ring.count < q.ring.depth →
      Posted size request rest p q (.returned (.ok ()), p,
        { q with ring := q.ring.push idx, semItems := q.semItems + 1 })

/-- An enqueue that succeeds. -/
theorem actrustJobQueueEnqueue_ok {q q' : JobQueue} {semPost : Except Err Unit} {idx : ℕ}
    (h : actrustJobQueueEnqueue q semPost idx = .ok q') :
    q.closed = false ∧ q.ring.count < q.ring.depth ∧
      q' = { q with ring := q.ring.push idx, semItems := q.semItems + 1 } := by
  unfold actrustJobQueueEnqueue at h
  split_ifs at h with hclosed hfull
  cases semPost with
  | error e => cases h
  | ok _ =>
    cases h
    exact ⟨Bool.eq_false_iff.mpr hclosed, Nat.lt_of_not_le hfull, rfl⟩

/-- A section of `core_post_job` goes on, fails with its slot given back, or posts. -/
theorem corePostJob_posted {size : ℕ} {request : Request} {rest : List ℕ} {p : JobPool}
    {q : JobQueue} {pc : PostPc} (env : PostEnv) (h : p.Accounted size (pc.slots ++ rest))
    (hc : pc.Carries p request) :
    Posted size request rest p q (corePostJob env request p q pc) := by
  -- One case per section of the source.
  cases pc with
  | allocating =>
    dsimp only [corePostJob]
    cases ha : actrustJobAlloc p request with
    | error e => exact .failed h fun _ _ => rfl
    | ok out =>
      obtain ⟨hp, hr, hsame⟩ := h.alloc ha
      exact .next hp hr hsame
  | enqueuing idx =>
    dsimp only [corePostJob]
    cases coreCopyParams env request.type with
    | error e => exact .next h trivial fun _ _ => rfl
    | ok _ =>
      dsimp only
      cases hq : actrustJobQueueEnqueue q env.semPost idx with
      | error e => exact .next h trivial fun _ _ => rfl
      -- The request is in the slot since the allocation, so the ring gets the slot that carries it.
      | ok q' =>
        obtain ⟨hopen, hroom, rfl⟩ := actrustJobQueueEnqueue_ok hq
        exact .posted h hc hopen hroom
  | releasing idx e =>
    obtain ⟨p', hrelease, hp, hsame⟩ := h.release
    dsimp only [corePostJob]
    rw [hrelease]
    exact .failed hp hsame

/-! ### Steps that leave the jobs where they are -/

section Frames

variable {config : CoreConfig} {c c' : CoreSystem}

/-- The request of the job in execution still waits to be served. -/
theorem CoreSystem.mem_waiting {idx : ℕ} (hworking : c.service.working = [idx]) :
    (c.jobPool.pool idx).request ∈ c.waiting := by
  unfold waiting
  rw [hworking]
  exact List.mem_cons_self

/-- The job that has been executed is the one served. -/
theorem CoreSystem.served_of_done {idx : ℕ} (hdone : c.service.done = [idx])
    (hcalled : c.service.called = []) : c.served = [(c.jobPool.pool idx).request] := by
  unfold served
  rw [hdone, hcalled]
  rfl

/-- The requests waiting are read from the slots of the service and the queue alone. -/
theorem CoreSystem.waiting_congr (hservice : c'.service = c.service)
    (hqueued : c'.queued = c.queued)
    (hpool : ∀ i ∈ c.queuedOrServed, c'.jobPool.pool i = c.jobPool.pool i) :
    c'.waiting = c.waiting := by
  unfold waiting
  rw [hservice, hqueued]
  exact JobPool.requests_congr fun i hi => hpool i (List.mem_append_right _ hi)

/-- So are those served. -/
theorem CoreSystem.served_congr (hservice : c'.service = c.service)
    (hpool : ∀ i ∈ c.queuedOrServed, c'.jobPool.pool i = c.jobPool.pool i) :
    c'.served = c.served := by
  unfold served
  rw [hservice]
  congr 1
  exact JobPool.requests_congr fun i hi => hpool i (List.mem_append_left _ hi)

/-- A job is appended. -/
theorem CoreSystem.waiting_push {idx : ℕ} {request : Request} (hservice : c'.service = c.service)
    (hpool : c'.jobPool = c.jobPool) (hqueued : c'.queued = c.queued ++ [idx])
    (hrequest : (c.jobPool.pool idx).request = request) :
    c'.waiting = c.waiting ++ [request] := by
  unfold waiting JobPool.requests
  rw [hservice, hpool, hqueued, ← List.append_assoc, List.map_append, List.map_singleton, hrequest]

/-- A step that leaves the jobs, the state and the session alone. -/
-- The four parts over waiting requests only look at what is equal.
theorem CoreSystem.Sessions.congr (h : c.Sessions) (hwaiting : c'.waiting = c.waiting)
    (hstate : c'.state = c.state) (hmqtt : c'.contexts.mqtt = c.contexts.mqtt)
    (hpending : c'.deinitPending = c.deinitPending)
    (hregistering : ∀ idx, c'.service = .registering idx → c'.state = .unregistered ∧
      (c'.jobPool.pool idx).request.type = .register) : c'.Sessions where
  apart := by
    unfold CoreSystem.InSession
    rw [hwaiting, hstate]
    exact h.apart
  refused := by
    unfold CoreSystem.InSession
    rw [hwaiting, hstate, hmqtt]
    exact h.refused
  session := by
    unfold CoreSystem.InSession
    rw [hwaiting, hstate]
    exact h.session
  pending := by
    unfold CoreSystem.InSession
    rw [hwaiting, hstate, hpending]
    exact h.pending
  registering := hregistering

/-- The slot in which a registration runs is left alone. -/
theorem CoreSystem.Sessions.registering_congr (h : c.Sessions)
    (hstate : c'.state = c.state) (hservice : c'.service = c.service)
    (hpool : ∀ i ∈ c.queuedOrServed, c'.jobPool.pool i = c.jobPool.pool i) :
    ∀ idx, c'.service = .registering idx → c'.state = .unregistered ∧
      (c'.jobPool.pool idx).request.type = .register := by
  intro idx hidx
  rw [hservice] at hidx
  have hmem : idx ∈ c.queuedOrServed := by
    unfold queuedOrServed
    rw [hidx]
    exact List.mem_cons_self
  rw [hstate, hpool idx hmem]
  exact h.registering idx hidx

/-- A thread posts: its slot is in the pool, or is its own. -/
theorem CoreSystem.Stock.repost (h : c.Stock config) {p' : JobPool} {a : ApiPc} {d : DeinitPc}
    (hp : p'.Accounted config.jobPoolSize (a.slots ++ (d.slots ++ c.queuedOrServed)))
    (ha : a.Carries p') (hd : d.Carries p') (l : CoreLog) :
    CoreSystem.Stock config { c with jobPool := p', api := a, deinit := d, log := l } :=
  { h with accounted := hp, api := ha, deinit := hd }

/-- Its slot is in the queue. -/
theorem CoreSystem.Stock.push (h : c.Stock config) {idx : ℕ} {d : DeinitPc}
    (hp : c.jobPool.Accounted config.jobPoolSize (idx :: c.queuedOrServed))
    (hroom : c.jobQueue.ring.count < c.jobQueue.ring.depth) (hslots : d.slots = [])
    (hd : d.Carries c.jobPool) (l : CoreLog) :
    CoreSystem.Stock config
      { c with
        jobQueue :=
          { c.jobQueue with
            ring := c.jobQueue.ring.push idx
            semItems := c.jobQueue.semItems + 1 }
        api := .idle
        deinit := d
        log := l } where
  -- The slot goes from the call to the end of the queue.
  accounted := by
    show c.jobPool.Accounted _ ([] ++ (d.slots ++ (c.service.done ++ (c.service.working ++
      (c.jobQueue.ring.push idx).toList))))
    rw [hslots, List.nil_append, List.nil_append, h.ring.toList_push hroom,
      ← List.append_assoc c.service.working, ← List.append_assoc]
    exact hp.congr (List.perm_append_singleton idx c.queuedOrServed).symm
  ring := h.ring.push hroom idx
  depth := h.depth
  waiters := h.waiters
  -- One job and one token more.
  items := by
    show c.jobQueue.semItems + 1 + c.service.woken = c.jobQueue.ring.count + 1
    rw [← h.items]
    omega
  api := trivial
  deinit := hd

/-- A step that leaves the jobs, the state and the service alone. -/
theorem CoreSystem.Placed.congr (h : c.Placed) (hwaiting : c'.waiting = c.waiting)
    (hserved : c'.served = c.served) (hstate : c'.state = c.state)
    (hservice : c'.service = c.service) (hdone : c'.DeinitDone → c.DeinitDone)
    (hquiet : c'.serviceTask = true → c'.deinitPending = false ∨ c'.deinit.BeforePost →
      c.serviceTask = true ∧ (c.deinitPending = false ∨ c.deinit.BeforePost)) : c'.Placed where
  init := by
    rw [hwaiting, hstate]
    exact h.init
  quiet htask hbefore := by
    rw [hwaiting, hserved]
    exact h.quiet (hquiet htask hbefore).1 (hquiet htask hbefore).2
  ran := by
    rw [hserved, hstate]
    exact h.ran
  done hd := by
    rw [hstate, hservice, hserved]
    exact h.done (hdone hd)

/-- A job other than INIT is queued when no INIT can wait. -/
theorem CoreSystem.Placed.push (h : c.Placed) {request : Request} (htype : request.type ≠ .init)
    (hiniting : c.state ≠ .initing) (hwaiting : c'.waiting = c.waiting ++ [request])
    (hserved : c'.served = c.served) (hstate : c'.state = c.state)
    (hservice : c'.service = c.service) (hdone : c'.DeinitDone → c.DeinitDone)
    (hquiet : c'.serviceTask = true → c'.deinitPending = false ∨ c'.deinit.BeforePost →
      c.serviceTask = true ∧ (c.deinitPending = false ∨ c.deinit.BeforePost) ∧
        request.type ≠ .deinit) : c'.Placed where
  -- A request more at the end: the parts about requests split into the old ones and it.
  init := by
    intro r hr hinit
    rw [hwaiting] at hr
    rcases List.mem_append.mp hr with hr | hr
    · exact absurd (h.init r hr hinit).1 hiniting
    · rw [List.mem_singleton.mp hr] at hinit
      exact absurd hinit htype
  quiet htask hbefore := by
    obtain ⟨htask, hbefore, hrequest⟩ := hquiet htask hbefore
    intro r hr
    rw [hwaiting, hserved, ← List.append_assoc] at hr
    rcases List.mem_append.mp hr with hr | hr
    · exact h.quiet htask hbefore r hr
    · rw [List.mem_singleton.mp hr]
      exact hrequest
  ran := by
    rw [hserved, hstate]
    exact h.ran
  done hd := by
    rw [hstate, hservice, hserved]
    exact h.done (hdone hd)

end Frames

/-! ### Calls -/

section Calls

variable {config : CoreConfig} {c : CoreSystem}

/-- What `core_submit_job` admits, and in which state. -/
theorem coreAdmits_cases {type : JobType} {state : CoreState} (h : coreAdmits type state = true) :
    type = .connect ∧ state = .ready ∨
      OfSession type ∧ (state = .unregistered ∨ state = .registered) := by
  cases type <;> cases state <;> first
    | (cases h; done)
    | exact .inl ⟨rfl, rfl⟩
    | exact .inr ⟨trivial, .inl rfl⟩
    | exact .inr ⟨trivial, .inr rfl⟩

/-- Neither INIT nor DEINIT is admitted, and nothing before READY. -/
theorem coreAdmits_ne {type : JobType} {state : CoreState} (h : coreAdmits type state = true) :
    type ≠ .init ∧ type ≠ .deinit ∧ state ≠ .initing := by
  rcases coreAdmits_cases h with ⟨rfl, rfl⟩ | ⟨htype, rfl | rfl⟩
  · exact ⟨nofun, nofun, nofun⟩
  · exact ⟨fun he => by rw [he] at htype; exact htype,
      fun he => by rw [he] at htype; exact htype, nofun⟩
  · exact ⟨fun he => by rw [he] at htype; exact htype,
      fun he => by rw [he] at htype; exact htype, nofun⟩

/-- A call is admitted in the state in which its job is queued. -/
theorem CoreSystem.Sessions.push_admitted {c' : CoreSystem} {request : Request} (h : c.Sessions)
    (hadmits : coreAdmits request.type c.state = true) (hpending : c.deinitPending = false)
    (hwaiting : c'.waiting = c.waiting ++ [request]) (hstate : c'.state = c.state)
    (hmqtt : c'.contexts.mqtt = c.contexts.mqtt)
    (hpending' : c'.deinitPending = c.deinitPending)
    (hregistering : ∀ idx, c'.service = .registering idx → c'.state = .unregistered ∧
      (c'.jobPool.pool idx).request.type = .register) : c'.Sessions where
  -- Outside a session only CONNECT is admitted, which nothing of a session stands behind.
  apart hidle := by
    have hidle' : ¬c.InSession := by
      unfold InSession at hidle ⊢
      rwa [hstate] at hidle
    obtain ⟨hconnect, -⟩ := (coreAdmits_cases hadmits).resolve_right fun hs => hidle' hs.2
    rw [hwaiting, List.pairwise_append]
    refine ⟨h.apart hidle', List.pairwise_singleton _ _, ?_⟩
    intro r _ r' hr' _
    rw [List.mem_singleton.mp hr', hconnect]
    exact id
  -- A CONNECT is no DISCONNECT, so nothing new has to be refused.
  refused hidle := by
    have hidle' : ¬c.InSession := by
      unfold InSession at hidle ⊢
      rwa [hstate] at hidle
    obtain ⟨hconnect, -⟩ := (coreAdmits_cases hadmits).resolve_right fun hs => hidle' hs.2
    intro r hr htype
    rw [hwaiting] at hr
    rw [hmqtt]
    rcases List.mem_append.mp hr with hr | hr
    · exact h.refused hidle' r hr htype
    · rw [List.mem_singleton.mp hr, hconnect] at htype
      cases htype
  -- In a session the request is one of its jobs.
  session hsession := by
    have hsession' : c.InSession := by
      unfold InSession at hsession ⊢
      rwa [hstate] at hsession
    have htype : OfSession request.type := by
      rcases coreAdmits_cases hadmits with ⟨-, hready⟩ | ⟨htype, -⟩
      · unfold InSession at hsession'
        rw [hready] at hsession'
        rcases hsession' with hs | hs <;> cases hs
      · exact htype
    rw [hwaiting, List.pairwise_append]
    refine ⟨h.session hsession', List.pairwise_singleton _ _, ?_⟩
    intro r _ r' hr' _ hconnect
    rw [List.mem_singleton.mp hr'] at hconnect
    rw [hconnect] at htype
    exact htype
  pending hp := Bool.noConfusion (hp.symm.trans (hpending'.trans hpending))
  registering := hregistering

/-- A section of a call's post keeps the invariant, and moves requests as it says. -/
theorem CoreSystem.Inv.apiStep (h : c.Inv config) (env : PostEnv) :
    (c.apiStep env).Inv config ∧ c.Moves (c.apiStep env) := by
  unfold CoreSystem.apiStep
  cases hapi : c.api with
  | idle => exact ⟨h, .stay rfl rfl rfl rfl rfl⟩
  | posting request pc =>
    obtain ⟨hlock, hpending, hadmits⟩ := h.admitted request pc hapi
    -- A call is only admitted while no deinit is pending.
    have hidle : c.deinit = .idle := by
      by_contra hne
      rw [(h.attempt hne).2.1] at hpending
      cases hpending
    -- The slots held, with those of the call in front.
    have hheld : c.jobPool.Accounted config.jobPoolSize (pc.slots ++ c.queuedOrServed) := by
      have := h.accounted
      rw [held, hapi, hidle] at this
      exact this
    have hcarries : pc.Carries c.jobPool request := by
      have := h.toStock.api
      rw [hapi] at this
      exact this
    -- What a section of the post does is `corePostJob_posted`; the rest is generalised.
    have hposted := corePostJob_posted (q := c.jobQueue) env hheld hcarries
    dsimp only
    generalize corePostJob env request c.jobPool c.jobQueue pc = out at hposted
    -- Next section, failed, or posted: only the last moves a request.
    cases hposted with
    | @next pc' p' hp hc hsame =>
      dsimp only
      refine ⟨⟨h.toStock.repost ?_ ?_ ?_ _, ?_, ?_, ?_⟩, ?_⟩
      · rw [hidle]
        exact hp
      · exact hc
      · rw [hidle]
        trivial
      · -- The call is still admitted, at its next section.
        exact { h.toControl with
          admitted := by
            intro r pc hr
            cases hr
            exact ⟨hlock, hpending, hadmits⟩ }
      · exact h.toPlaced.congr (waiting_congr rfl rfl hsame) (served_congr rfl hsame) rfl rfl id
          fun htask hquiet => ⟨htask, hquiet⟩
      · exact h.toSessions.congr (waiting_congr rfl rfl hsame) rfl rfl rfl
          (h.registering_congr rfl rfl hsame)
      · exact .stay (waiting_congr rfl rfl hsame) (served_congr rfl hsame) rfl rfl rfl
    -- The slot went back, and the call answers with the error.
    | @failed e p' hp hsame =>
      dsimp only
      refine ⟨⟨h.toStock.repost ?_ ?_ ?_ _, ?_, ?_, ?_⟩, ?_⟩
      · rw [hidle]
        exact hp
      · trivial
      · rw [hidle]
        trivial
      · exact { h.toControl with admitted := nofun }
      · exact h.toPlaced.congr (waiting_congr rfl rfl hsame) (served_congr rfl hsame) rfl rfl id
          fun htask hquiet => ⟨htask, hquiet⟩
      · exact h.toSessions.congr (waiting_congr rfl rfl hsame) rfl rfl rfl
          (h.registering_congr rfl rfl hsame)
      · exact .stay (waiting_congr rfl rfl hsame) (served_congr rfl hsame) rfl rfl rfl
    | @posted idx hp hr hopen hroom =>
      obtain ⟨hinit, hdeinit, hstate⟩ := coreAdmits_ne hadmits
      have hpush := h.ring.toList_push hroom idx
      -- Without a pending deinit the core is in its first phase.
      have hphase : c.deinitPhase = .job := by
        by_contra hne
        rw [(h.phase hne).1] at hpending
        cases hpending
      dsimp only
      refine ⟨⟨h.toStock.push hp hroom ?_ ?_ _, ?_, ?_, ?_⟩, ?_⟩
      · rw [hidle]
        rfl
      · rw [hidle]
        trivial
      · -- The call is over, so nothing is admitted any more.
        exact { h.toControl with
          unlocked := fun hunlocked => Bool.noConfusion (hlock.symm.trans hunlocked)
          admitted := nofun
          drained := fun hdrained => by
            rcases hdrained with hp | hp <;> cases hphase.symm.trans hp }
      · -- What may wait was decided when the call was admitted.
        exact h.toPlaced.push hinit hstate (waiting_push rfl rfl hpush hr)
          (served_congr rfl fun _ _ => rfl) rfl rfl id
          fun htask hquiet => ⟨htask, hquiet, hdeinit⟩
      · exact h.toSessions.push_admitted hadmits hpending (waiting_push rfl rfl hpush hr) rfl rfl rfl
          (h.registering_congr rfl rfl fun _ _ => rfl)
      · exact .enqueue request (waiting_push rfl rfl hpush hr) (served_congr rfl fun _ _ => rfl)
          rfl rfl rfl

/-- Nothing is known of the log but what `Moves` tells. -/
theorem CoreSystem.Inv.log (h : c.Inv config) (l : CoreLog) :
    CoreSystem.Inv config { c with log := l } :=
  ⟨{ h.toStock with }, { h.toControl with },
    h.toPlaced.congr rfl rfl rfl rfl id fun htask hquiet => ⟨htask, hquiet⟩,
    h.toSessions.congr rfl rfl rfl rfl h.registering⟩

/-- The callback is set. -/
theorem CoreSystem.Inv.setCallback (h : c.Inv config) :
    CoreSystem.Inv config { c with callback := true } :=
  ⟨{ h.toStock with }, { h.toControl with callback := fun _ => rfl },
    h.toPlaced.congr rfl rfl rfl rfl id fun htask hquiet => ⟨htask, hquiet⟩,
    h.toSessions.congr rfl rfl rfl rfl h.registering⟩

/-- A call is admitted, or rejected. -/
theorem CoreSystem.Inv.submit (h : c.Inv config) (hidle : c.api = .idle) (type : JobType) :
    (c.submit type).Inv config ∧ c.Moves (c.submit type) := by
  unfold CoreSystem.submit
  dsimp only
  split_ifs with hrefused
  · -- A rejected call only goes to the log.
    exact ⟨h.log _, .stay rfl rfl rfl rfl rfl⟩
  · simp only [not_or, Bool.not_eq_false, Bool.not_eq_true] at hrefused
    obtain ⟨hlock, hpending, hadmits⟩ := hrefused
    refine ⟨⟨h.toStock.repost ?_ ?_ h.toStock.deinit _, ?_, ?_, ?_⟩, .stay rfl rfl rfl rfl rfl⟩
    · have := h.accounted
      rw [held, hidle] at this
      exact this
    · trivial
    · exact { h.toControl with
        admitted := by
          intro request pc hr
          cases hr
          exact ⟨hlock, hpending, hadmits⟩ }
    · exact h.toPlaced.congr rfl rfl rfl rfl id fun htask hquiet => ⟨htask, hquiet⟩
    · exact h.toSessions.congr rfl rfl rfl rfl h.registering

/-- Without a service nothing is called back. -/
theorem CoreSystem.Inv.served_nil (h : c.Inv config) (htask : c.serviceTask = false) :
    c.served = [] := by
  unfold served
  rw [h.stopped htask]
  rfl

/-- Without a service, what waits is in the queue. -/
theorem CoreSystem.Inv.waiting_nil (h : c.Inv config) (htask : c.serviceTask = false)
    (hcount : c.jobQueue.ring.count = 0) : c.waiting = [] := by
  have hqueued : c.queued = [] := Fifo.toList_eq_nil.mpr hcount
  unfold waiting
  rw [h.stopped htask, hqueued]
  rfl

/-- An `actrust_init` that comes past its queue has posted the INIT. -/
theorem initJobs_ok {env : StartCoreEnv} {request : Request} {p : JobPool} {q : JobQueue}
    (h : initJobs config env request = .ok (p, q)) :
    ∃ idx, actrustJobAlloc (actrustJobPoolInit config.jobPoolSize) request = .ok (idx, p) ∧
      q = { actrustJobQueueInit config.jobQueueCapacity with
        ring := (actrustJobQueueInit config.jobQueueCapacity).ring.push idx, semItems := 1 } := by
  obtain ⟨logInit, mutexCreate, poolInit, queueInit, post, serviceStart⟩ := env
  unfold initJobs at h
  -- Each call before the post has succeeded.
  cases logInit <;> cases mutexCreate <;> cases poolInit <;> cases queueInit <;> try cases h
  simp only [bind, Except.bind] at h
  cases halloc : actrustJobAlloc (actrustJobPoolInit config.jobPoolSize) request with
  | error e =>
    rw [halloc] at h
    cases h
  | ok out =>
    obtain ⟨idx, p'⟩ := out
    rw [halloc] at h
    dsimp only at h
    -- The copy of the arguments fails, or is the request.
    cases hcopy : coreCopyParams post request.type with
    | error e =>
      rw [hcopy] at h
      cases h
    | ok _ =>
      rw [hcopy] at h
      dsimp only at h
      -- The queue is new, so it takes the first job.
      cases hq : actrustJobQueueEnqueue (actrustJobQueueInit config.jobQueueCapacity)
          post.semPost idx with
      | error e =>
        rw [hq] at h
        cases h
      | ok q' =>
        rw [hq] at h
        cases serviceStart with
        | error e => cases h
        | ok _ =>
          cases h
          exact ⟨idx, rfl, (actrustJobQueueEnqueue_ok hq).2.2⟩

/-- The job of `actrust_init` is the only one. -/
theorem CoreSystem.Inv.started (h : c.Inv config) (hidle : c.api = .idle)
    (hlock : c.lock = false) (hcallback : c.callback = true) {p : JobPool} {idx : ℕ}
    {request : Request} (htype : request.type = .init)
    (halloc : actrustJobAlloc (actrustJobPoolInit config.jobPoolSize) request = .ok (idx, p))
    {q : JobQueue} (hq : q = { actrustJobQueueInit config.jobQueueCapacity with
      ring := (actrustJobQueueInit config.jobQueueCapacity).ring.push idx, semItems := 1 })
    {l : CoreLog} (hl : l.enqueued = c.log.enqueued ++ [request] ∧
      l.executed = c.log.executed ∧ l.callbacks = c.log.callbacks) :
    (c.started p q l).Inv config ∧ c.Moves (c.started p q l) := by
  obtain ⟨hstate, htask, hpending, hphase, hcount⟩ := h.unlocked hlock
  have hdeinit : c.deinit = .idle := by
    by_contra hne
    rw [(h.attempt hne).1] at hlock
    cases hlock
  -- The ring is new, so it has room, and INIT is the only request waiting.
  have hcapacity := config.jobQueueCapacity_range.1
  obtain ⟨hp, hrequest, -⟩ := (JobPool.Accounted.init config.jobPoolSize).alloc halloc
  have hwf : (Fifo.empty (fun _ => 0) config.jobQueueCapacity).WellFormed :=
    Fifo.wellFormed_empty _ (by omega)
  have hroom : (Fifo.empty (fun _ => 0) config.jobQueueCapacity).count
      < (Fifo.empty (fun _ => 0) config.jobQueueCapacity).depth := by
    show 0 < config.jobQueueCapacity
    omega
  have hqueue : q.ring.toList = [idx] := by
    rw [hq]
    exact hwf.toList_push hroom idx
  have hwaiting : (c.started p q l).waiting = [request] := by
    show p.requests ([] ++ q.ring.toList) = [request]
    rw [hqueue]
    show [(p.pool idx).request] = [request]
    rw [hrequest]
  have hserved : (c.started p q l).served = [] := rfl
  refine ⟨⟨?_, ?_, ?_, ?_⟩, .enqueue request ?_ ?_ hl.1 hl.2.1 hl.2.2⟩
  · -- The one slot taken is the one in the ring.
    exact {
      accounted := by
        show p.Accounted _ (c.api.slots ++ (c.deinit.slots ++ ([] ++ ([] ++ q.ring.toList))))
        rw [hidle, hdeinit, hqueue]
        exact hp
      ring := by
        show q.ring.WellFormed
        rw [hq]
        exact hwf.push hroom idx
      depth := by
        show q.ring.depth = _
        rw [hq]
        rfl
      waiters := by
        show q.waiterCount = _
        rw [hq]
        rfl
      items := by
        show q.semItems + 0 = q.ring.count
        rw [hq]
        rfl
      api := by
        show c.api.Carries _
        rw [hidle]
        trivial
      deinit := by
        show c.deinit.Carries _
        rw [hdeinit]
        trivial }
  · -- The core has its lock, and no deinit was ever pending.
    exact {
      stopped := nofun
      task := fun _ => nofun
      unlocked := nofun
      callback := fun _ => hcallback
      admitted := by
        intro r pc hr
        cases hidle.symm.trans hr
      attempt := fun hne => absurd hdeinit hne
      attempting := by
        show CoreSystem.Attempting _ c.deinit
        rw [hdeinit]
        trivial
      phase := fun hne => absurd hphase hne
      drained := fun hdrained => by
        rcases hdrained with hp | hp <;> cases hphase.symm.trans hp
      opened := by
        intro _ _
        show q.closed = false
        rw [hq]
        rfl }
  · -- INIT is alone in the queue.
    exact {
      init := by
        rw [hwaiting]
        intro r hr _
        exact ⟨rfl, by rw [List.mem_singleton.mp hr]⟩
      quiet := by
        intro _ _ r hr
        rw [hserved, hwaiting] at hr
        rw [List.mem_singleton.mp hr, htype]
        nofun
      ran := nofun
      done := by
        intro hd
        have huninit := (h.done hd).1
        rw [hstate] at huninit
        cases huninit }
  · -- One request has no order, and it is no DISCONNECT.
    exact {
      apart := by
        intro _
        rw [hwaiting]
        exact List.pairwise_singleton _ _
      refused := by
        rw [hwaiting]
        intro _ r hr hdisconnect
        rw [List.mem_singleton.mp hr, htype] at hdisconnect
        cases hdisconnect
      session := by
        intro hs
        rcases hs with hs | hs <;> cases hs
      pending := fun hp => Bool.noConfusion (hpending.symm.trans hp)
      registering := nofun }
  · rw [hwaiting, h.waiting_nil htask hcount]
    rfl
  · rw [hserved, h.served_nil htask]

/-- `actrust_init` keeps the invariant, whichever of its calls fails. -/
theorem CoreSystem.Inv.actrustInit (h : c.Inv config) (hidle : c.api = .idle)
    (env : StartCoreEnv) :
    (actrustInit config env c).Inv config ∧ c.Moves (actrustInit config env c) := by
  unfold Service.actrustInit
  dsimp only
  split_ifs with hrefused
  · exact ⟨h.log _, .stay rfl rfl rfl rfl rfl⟩
  · simp only [not_or, Bool.not_eq_true, Bool.not_eq_false] at hrefused
    obtain ⟨hlock, -, hcallback⟩ := hrefused
    cases hjobs : initJobs config env ⟨.init, c.log.nextCall⟩ with
    | error e => exact ⟨h.log _, .stay rfl rfl rfl rfl rfl⟩
    | ok out =>
      obtain ⟨idx, halloc, hq⟩ := initJobs_ok hjobs
      exact h.started hidle hlock hcallback rfl halloc hq ⟨rfl, rfl, rfl⟩

end Calls

end TrustSdk.Core.Service
