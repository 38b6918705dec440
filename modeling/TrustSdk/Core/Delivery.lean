import Mathlib.Data.List.Chain
import TrustSdk.Core.Availability

/-!
# Each job is executed once, in its order, and called back once

A call that is accepted has queued its job. The service should execute each of these jobs once, in
the order in which they were queued, and call back once for each; a call that is rejected should
leave no job behind, and a deinit that succeeds none that has not been executed.

In every run in which the service can wait for jobs, and a deinit can post its job and start a
service, this holds in each state, and the service needs at most eight sections for a job
(`jobs_delivered`). Behind a DEINIT nothing is accepted until the core is initialised anew, but for
the DEINIT of a deinit that is tried again when that job has failed (`not_deinit_last`).

* `Calls` — what a step does with the calls, and with it `Numbered` and `Behind`;
* `Ledger` — the jobs that have been accepted, executed and called back, as lists;
* `CoreSystem.step_advances` — a section of the service brings the next callback nearer.
-/

namespace TrustSdk.Core.Service

open RingBuffer Machine

/-! ### The property and the condition -/

/-- The service can wait for jobs, and a deinit can post its job and start a service. -/
def CoreSystem.PrimitivesSucceed (_ : CoreSystem) : CoreAction → Prop
  | .service env => env.semWait = .ok ()
  | .deinitStep env => env.post.semPost = .ok () ∧ env.serviceStart = .ok ()
  | _ => True

instance (c : CoreSystem) : DecidablePred c.PrimitivesSucceed
  | .service env => inferInstanceAs (Decidable (env.semWait = .ok ()))
  | .deinitStep env =>
    inferInstanceAs (Decidable (env.post.semPost = .ok () ∧ env.serviceStart = .ok ()))
  | .setCallback | .init _ | .call _ | .api _ | .deinit | .mqtt _ => .isTrue trivial

/-- A DEINIT is followed by the INIT of the next `actrust_init`, or by a DEINIT. -/
def FollowsDeinit (r r' : Request) : Prop :=
  r.type = .deinit → r'.type = .init ∨ r'.type = .deinit

/-- **Every call that was accepted has its job executed once and called back once**, in the order of
the queue. -/
structure CoreSystem.Delivered (config : CoreConfig) (c : CoreSystem) : Prop where
  /-- A job that has been accepted has been executed, in its turn, or waits. -/
  executed : c.log.enqueued = c.log.executed ++ c.waiting
  /-- One that has been executed has been called back, or is about to be. -/
  callbacks : c.log.executed = c.log.callbacks ++ c.served
  served : c.served.length ≤ 1
  /-- Each is the job of one call, and of none that has been rejected. -/
  calls : (c.log.enqueued.map Request.call ++ c.log.rejected).Nodup
  behind : c.log.enqueued.IsChain FollowsDeinit
  /-- A DEINIT that waits or is executed is the last job. -/
  last : ∀ request ∈ (c.served ++ c.waiting).dropLast, request.type ≠ .deinit
  /-- None is posted when the last one has succeeded. -/
  retried : ∀ request previous start pc,
    c.deinit = .posting request previous start pc → ¬c.DeinitDone
  /-- The service is there for what waits, or is about to be started. -/
  attended : c.served ++ c.waiting ≠ [] → c.Running ∨ ∃ previous, c.deinit = .starting previous
  /-- Behind a deinit that has succeeded no job is left, and every slot is free. -/
  ended : c.lock = false →
    c.waiting = [] ∧ c.served = [] ∧ c.jobPool.Accounted config.jobPoolSize []

/-- The section that the service takes, unless it has to wait for a lock. -/
def CoreSystem.turn (c : CoreSystem) : CoreAction → List ServicePc
  | .service _ =>
    match c.service with
    | .stopped => []
    | .exited => []
    | pc => if pc.Locks ∧ c.api ≠ .idle then [] else [pc]
  | _ => []

/-- In eight sections of the service for each, whatever the other threads do meanwhile, the jobs that
have been accepted are executed and called back. -/
def CoreSystem.Answered (config : CoreConfig) (c : CoreSystem) : Prop :=
  ∀ more, Meets (CoreSystem.step config) CoreSystem.PrimitivesSucceed more c →
    8 * (c.served ++ c.waiting).length ≤
      (history (CoreSystem.step config) CoreSystem.turn more c).length →
    c.log.enqueued <+: (Machine.run (CoreSystem.step config) more c).2.log.callbacks

/-! ### Calls -/

/-- The call whose job is being posted. -/
def ApiPc.calls : ApiPc → List ℕ
  | .idle => []
  | .posting request _ => [request.call]

/-- The deinit whose job is being posted. -/
def DeinitPc.calls : DeinitPc → List ℕ
  | .posting request _ _ _ => [request.call]
  | _ => []

/-- The calls that post their jobs. -/
def CoreSystem.posting (c : CoreSystem) : List ℕ := c.api.calls ++ c.deinit.calls

/-- Calls are admitted, or will be when the attempt gives up. -/
def CoreSystem.Open (c : CoreSystem) : Prop :=
  c.lock = true ∧ (c.deinitPending = false ∨ c.deinit.BeforePost ∧ ¬c.deinit.Starts)

/-- What a step does with the calls. -/
inductive CoreSystem.Calls (c c' : CoreSystem) : Prop where
  | stay : c'.log.nextCall = c.log.nextCall → c'.log.enqueued = c.log.enqueued →
      c'.log.rejected = c.log.rejected → c'.posting = c.posting → (c'.Open → c.Open) → Calls c c'
  /-- A call begins to post its job. -/
  | begins : c'.log.nextCall = c.log.nextCall + 1 → c'.log.enqueued = c.log.enqueued →
      c'.log.rejected = c.log.rejected → c'.posting = c.log.nextCall :: c.posting →
      (c'.Open → c.Open) → Calls c c'
  /-- A deinit goes on with the job that there is. -/
  | goesOn : c'.log.nextCall = c.log.nextCall + 1 → c'.log.enqueued = c.log.enqueued →
      c'.log.rejected = c.log.rejected → c'.posting = c.posting → (c'.Open → c.Open) → Calls c c'
  | rejects : c'.log.nextCall = c.log.nextCall + 1 → c'.log.enqueued = c.log.enqueued →
      c'.log.rejected = c.log.rejected ++ [c.log.nextCall] → c'.posting = c.posting →
      (c'.Open → c.Open) → Calls c c'
  | starts : c'.log.nextCall = c.log.nextCall + 1 →
      c'.log.enqueued = c.log.enqueued ++ [⟨.init, c.log.nextCall⟩] →
      c'.log.rejected = c.log.rejected → c'.posting = c.posting → Calls c c'
  | givesUp (call : ℕ) : c'.log.nextCall = c.log.nextCall → c'.log.enqueued = c.log.enqueued →
      c'.log.rejected = c.log.rejected ++ [call] → c.posting = call :: c'.posting →
      (c'.Open → c.Open) → Calls c c'
  | accepts (request : Request) : c'.log.nextCall = c.log.nextCall →
      c'.log.enqueued = c.log.enqueued ++ [request] → c'.log.rejected = c.log.rejected →
      c.posting = request.call :: c'.posting →
      Called request.type ∧ c.Open ∨ request.type = .deinit ∧ ¬c'.Open → Calls c c'

section Steps

variable {config : CoreConfig} {c c' : CoreSystem}

/-! ### What a step does with the calls -/

/-- A step that leaves the log alone. -/
theorem CoreSystem.Calls.congr (hlog : c'.log = c.log) (hposting : c'.posting = c.posting)
    (hopen : c'.Open → c.Open) : c.Calls c' :=
  .stay (by rw [hlog]) (by rw [hlog]) (by rw [hlog]) hposting hopen

/-- An attempt that has posted its job keeps the deinit pending. -/
theorem CoreSystem.not_open_of_posted (hpending : c.deinitPending = true)
    (hposted : c.deinit.Posted) : ¬c.Open := by
  rintro ⟨-, hp | ⟨hbefore, -⟩⟩
  · exact Bool.noConfusion (hpending.symm.trans hp)
  · cases hd : c.deinit <;> rw [hd] at hposted hbefore <;>
      first | exact hposted.elim | exact hbefore.elim

/-- A deinit that has posted posts no more. -/
theorem DeinitPc.calls_of_posted {pc : DeinitPc} (h : pc.Posted) : pc.calls = [] := by
  cases pc <;> first | rfl | exact h.elim

/-- A deinit that waits for the service, or finishes. -/
theorem CoreSystem.Calls.settle (hlog : c'.log = c.log) (hapi : c'.api = c.api)
    (hcalls : c.deinit.calls = []) (hposted : c'.deinit.Posted)
    (hpending : c'.lock = true → c'.deinitPending = true) : c.Calls c' := by
  refine .congr hlog ?_ fun hopen => ?_
  · unfold CoreSystem.posting
    rw [hapi, hcalls, DeinitPc.calls_of_posted hposted]
  · exact absurd hopen (not_open_of_posted (hpending hopen.1) hposted)

/-- A section of a call's post: it goes on, gives the call up, or has its job accepted. -/
theorem CoreSystem.apiStep_calls (hinv : c.Inv config) (env : PostEnv) :
    c.Calls (c.apiStep env) := by
  unfold CoreSystem.apiStep
  cases hapi : c.api with
  | idle => exact .congr rfl rfl id
  | posting request pc =>
    obtain ⟨hlock, hpending, hadmits⟩ := hinv.admitted request pc hapi
    have hposting : c.posting = request.call :: c.deinit.calls := by
      unfold CoreSystem.posting
      rw [hapi]
      rfl
    dsimp only
    -- The three answers of `core_post_job`.
    split
    next pc' p q =>
      refine .stay rfl rfl rfl ?_ id
      rw [hposting]
      rfl
    · exact .givesUp request.call rfl rfl rfl hposting id
    · exact .accepts request rfl rfl rfl hposting
        (.inl ⟨coreAdmits_called hadmits, hlock, .inl hpending⟩)

/-- A call begins to post, or is rejected. -/
theorem CoreSystem.submit_calls (hapi : c.api = .idle) (type : JobType) :
    c.Calls (c.submit type) := by
  unfold CoreSystem.submit
  dsimp only
  split_ifs
  · exact .rejects rfl rfl rfl rfl id
  · refine .begins rfl rfl rfl ?_ id
    unfold CoreSystem.posting
    rw [hapi]
    rfl

/-- `actrust_init` posts its INIT itself, or is rejected. -/
theorem actrustInit_calls (env : StartCoreEnv) : c.Calls (actrustInit config env c) := by
  unfold Service.actrustInit
  dsimp only
  split_ifs
  · exact .rejects rfl rfl rfl rfl id
  · split
    · exact .rejects rfl rfl rfl rfl id
    · exact .starts rfl rfl rfl rfl

/-- `actrust_deinit` begins to post, goes on with the job that there is, or is rejected. -/
theorem actrustDeinit_calls (hinv : c.Inv config) (hapi : c.api = .idle) :
    c.Calls (actrustDeinit c) := by
  unfold Service.actrustDeinit
  dsimp only
  split_ifs with hrefused hnew hrefused'
  · exact .rejects rfl rfl rfl rfl id
  · simp only [not_or, Bool.not_eq_true, Bool.not_eq_false] at hrefused
    obtain ⟨hlock, -, hfinalizing⟩ := hrefused
    have hidle : c.deinit = .idle := by
      by_contra hne
      cases hfinalizing.symm.trans (hinv.attempt hne).2.2
    -- no other deinit is pending
    have hpending : c.deinitPending = false := by
      by_contra hp
      rcases hinv.pending (Bool.not_eq_false _ ▸ hp) with hs | ⟨hs | hs, -⟩ <;>
        rcases hnew with hn | hn <;> cases hn.symm.trans hs
    refine .begins rfl rfl rfl ?_ fun _ => ⟨hlock, .inl hpending⟩
    unfold CoreSystem.posting
    rw [hapi, hidle]
    rfl
  · exact .rejects rfl rfl rfl rfl id
  · simp only [not_or, Bool.not_eq_true, Bool.not_eq_false] at hrefused hrefused'
    obtain ⟨-, -, hfinalizing⟩ := hrefused
    have hidle : c.deinit = .idle := by
      by_contra hne
      cases hfinalizing.symm.trans (hinv.attempt hne).2.2
    rcases c.attempt_cases false .ready ⟨.deinit, c.log.nextCall⟩ with
      ⟨ha, -, hnew⟩ | ⟨ha, -⟩ | ⟨ha, -⟩
    · -- the attempt has to start a service
      obtain ⟨htask, -⟩ := hnew.resolve_left Bool.false_ne_true
      rw [ha, htask]
      refine .begins rfl rfl rfl ?_ ?_
      · unfold CoreSystem.posting
        rw [hapi, hidle]
        rfl
      · rintro ⟨-, hp | ⟨-, hstarts⟩⟩
        · exact Bool.noConfusion (hrefused'.2.symm.trans hp)
        · exact absurd rfl hstarts
    · rw [ha]
      refine .goesOn rfl rfl rfl ?_ fun hopen => ?_
      · unfold CoreSystem.posting
        rw [hidle]
        rfl
      · exact absurd hopen (CoreSystem.not_open_of_posted hrefused'.2 trivial)
    · rw [ha]
      refine .goesOn rfl rfl rfl ?_ fun hopen => ?_
      · unfold CoreSystem.posting
        rw [hidle]
        rfl
      · exact absurd hopen (CoreSystem.not_open_of_posted hrefused'.2 trivial)

/-- An attempt posts its job. Where it has to start a service it can. -/
theorem CoreSystem.deinitPosting_calls (hinv : c.Inv config) (h : c.Serviced) {env : DeinitEnv}
    {request : Request} {previous : CoreState} {start : Bool} {pc : PostPc}
    (hd : c.deinit = .posting request previous start pc)
    (hsem : start = true → env.post.semPost = .ok ()) : c.Calls (c.deinitStep env) := by
  have hne : c.deinit ≠ .idle := by
    rw [hd]
    rintro ⟨⟩
  obtain ⟨hlock, hpending, -⟩ := hinv.attempt hne
  have hapi := hinv.api_idle hne
  have hat := hinv.attempting
  have htype := hinv.toStock.deinit
  rw [hd] at hat htype
  obtain ⟨-, -, -, hstart⟩ := hat
  -- The call in the hands of a thread is the deinit's own.
  have hposting : c.posting = [request.call] := by
    unfold CoreSystem.posting
    rw [hapi, hd]
    rfl
  -- With a service to post to, calls would be admitted again if this attempt gave up.
  have hopen : start = false → c.Open := by
    intro hs
    refine ⟨hlock, .inr ⟨?_, ?_⟩⟩
    · rw [hd]
      trivial
    · rw [hd, hs]
      exact Bool.false_ne_true
  unfold CoreSystem.deinitStep
  rw [hd]
  dsimp only
  -- The attempt without a service cannot give up, as its post succeeds.
  cases hpost : corePostJob env.post request c.jobPool c.jobQueue pc with
  | mk step stock =>
    obtain ⟨p, q⟩ := stock
    cases step with
    -- The post goes on: the call stays in hand and is counted nowhere else.
    | next pc' =>
      refine .stay rfl rfl rfl ?_ ?_
      · rw [hposting]
        unfold CoreSystem.posting
        rw [hapi]
        rfl
      · rintro ⟨-, hp | ⟨-, hstarts⟩⟩
        · exact Bool.noConfusion (hpending.symm.trans hp)
        · exact hopen (Bool.eq_false_iff.mpr hstarts)
    | returned result =>
      cases result with
      -- A post that starts a service has nothing to fail on, so this one had a service.
      | error e =>
        have hfalse : start = false := by
          by_contra hs
          have htrue : start = true := Bool.eq_true_of_not_eq_false hs
          have htask : c.serviceTask = false := of_decide_eq_true (hstart.symm.trans htrue)
          have hwaiting : c.waiting = [] := by
            rcases h.stopped htask with hnil | ⟨_, _, hx, _⟩
            · exact hnil
            · cases hd.symm.trans hx
          rw [htrue] at hd
          rcases corePostJob_starts hinv hd htask hwaiting (h.starts _ _ _ hd) (hsem htrue) with
            ⟨idx, p, hnext⟩ | ⟨q, hok⟩
          · cases hpost.symm.trans hnext
          · cases hpost.symm.trans hok
        refine .givesUp request.call rfl rfl rfl ?_ fun _ => hopen hfalse
        rw [hposting]
        unfold CoreSystem.posting
        rw [hapi]
        rfl
      -- The job is queued: the call moves from the posting thread to the log.
      | ok _ =>
        refine .accepts request rfl rfl rfl ?_ (.inr ⟨htype.1, ?_⟩)
        · rw [hposting]
          unfold CoreSystem.posting
          rw [hapi]
          cases start <;> rfl
        · rintro ⟨-, hp | ⟨hbefore, -⟩⟩
          · exact Bool.noConfusion (hpending.symm.trans hp)
          · cases start <;> exact hbefore

/-- The check leaves an attempt that has posted its job. -/
theorem CoreSystem.checkDeinitJob_frame (c : CoreSystem) :
    c.checkDeinitJob.lock = c.lock ∧ c.checkDeinitJob.deinitPending = c.deinitPending ∧
      c.checkDeinitJob.api = c.api ∧ c.checkDeinitJob.log = c.log ∧
      c.checkDeinitJob.service = c.service ∧ c.checkDeinitJob.deinit.Posted := by
  unfold checkDeinitJob
  split_ifs
  · exact ⟨rfl, rfl, rfl, rfl, rfl, trivial⟩
  · split <;> exact ⟨rfl, rfl, rfl, rfl, rfl, trivial⟩

/-- Waiting for the service only ends the service. -/
theorem CoreSystem.joinService_frame (c : CoreSystem) (join : Except Err Unit)
    (hd : c.deinit = .joining) :
    (c.joinService join).lock = c.lock ∧ (c.joinService join).deinitPending = c.deinitPending ∧
      (c.joinService join).api = c.api ∧ (c.joinService join).log = c.log ∧
      ((c.joinService join).service = c.service ∨
        c.service = .exited ∧ (c.joinService join).service = .stopped) ∧
      (c.joinService join).deinit.Posted := by
  unfold joinService
  -- The task is gone, has ended and is joined, or still runs.
  split_ifs
  · obtain ⟨h1, h2, h3, h4, h5, h6⟩ := c.checkDeinitJob_frame
    exact ⟨h1, h2, h3, h4, .inl h5, h6⟩
  · split
    · exact ⟨rfl, rfl, rfl, rfl, .inl rfl, trivial⟩
    next hservice =>
      dsimp only
      split
      · exact ⟨rfl, rfl, rfl, rfl, .inr ⟨hservice, rfl⟩, trivial⟩
      · obtain ⟨h1, h2, h3, h4, h5, h6⟩ :=
          CoreSystem.checkDeinitJob_frame { c with serviceTask := false, service := .stopped }
        exact ⟨h1, h2, h3, h4, .inr ⟨hservice, h5⟩, h6⟩
    · refine ⟨rfl, rfl, rfl, rfl, .inl rfl, ?_⟩
      rw [hd]
      trivial

/-- The later phases of a deinit leave the call under way alone. -/
theorem CoreSystem.finishDeinit_api (c : CoreSystem) (env : FinishEnv) :
    (c.finishDeinit env).api = c.api := by
  have hlock : ∀ c : CoreSystem, (c.finishLock env).api = c.api := by
    intro c
    unfold finishLock
    split <;> rfl
  have hpool : ∀ c : CoreSystem, (c.finishPool env).api = c.api := by
    intro c
    unfold finishPool
    split
    · rfl
    · exact hlock c
  unfold finishDeinit
  -- Each phase goes on in the next; the lemmas follow them backwards.
  split
  · rfl
  · unfold finishQueue
    split
    · rfl
    · dsimp only
      split
      · rfl
      · rfl
      · exact hpool _
  · exact hpool c
  · exact hlock c

/-- A section of `actrust_deinit`: only the one that posts decides about a call. -/
theorem CoreSystem.deinitStep_calls (hinv : c.Inv config) (h : c.Serviced) {env : DeinitEnv}
    (hok : c.PrimitivesSucceed (.deinitStep env)) : c.Calls (c.deinitStep env) := by
  cases hd : c.deinit with
  -- Without an attempt the step does nothing.
  | idle =>
    unfold CoreSystem.deinitStep
    rw [hd]
    exact .congr rfl rfl id
  | posting request previous start pc => exact deinitPosting_calls hinv h hd fun _ => hok.1
  | starting previous =>
    have hpending := (hinv.attempt (by rw [hd]; rintro ⟨⟩)).2.1
    unfold CoreSystem.deinitStep
    -- The start succeeds, and the attempt waits.
    rw [hd, hok.2]
    refine .settle rfl rfl ?_ trivial fun _ => hpending
    rw [hd]
    rfl
  -- The attempt has given up, and calls are admitted as before it.
  | restoring previous =>
    have hlock := (hinv.attempt (by rw [hd]; rintro ⟨⟩)).1
    unfold CoreSystem.deinitStep
    rw [hd]
    refine .congr rfl ?_ fun _ => ⟨hlock, .inr ⟨?_, ?_⟩⟩
    · unfold CoreSystem.posting
      rw [hd]
      rfl
    · rw [hd]
      trivial
    · rw [hd]
      exact id
  | joining =>
    have hpending := (hinv.attempt (by rw [hd]; rintro ⟨⟩)).2.1
    -- The join may fail or time out, and posts nothing either way.
    obtain ⟨-, hpending', hapi, hlog, -, hposted⟩ := c.joinService_frame env.join hd
    unfold CoreSystem.deinitStep
    rw [hd]
    refine .settle hlog hapi ?_ hposted fun _ => hpending'.trans hpending
    rw [hd]
    rfl
  | finishing =>
    have hpending := (hinv.attempt (by rw [hd]; rintro ⟨⟩)).2.1
    obtain ⟨-, -, -, hidle, hlog, hend⟩ := c.finishDeinit_frame env.finish
    unfold CoreSystem.deinitStep
    rw [hd]
    -- Where the lock is gone the core is UNINIT, and no call is open any more.
    refine .settle hlog (c.finishDeinit_api env.finish) ?_ ?_ fun hlock => ?_
    · rw [hd]
      rfl
    · rw [hidle]
      trivial
    · rcases hend with ⟨-, -, hp⟩ | ⟨hunlocked, -⟩
      · exact hp.trans hpending
      · exact Bool.noConfusion (hunlocked.symm.trans hlock)

/-- The service leaves the calls alone. -/
theorem CoreSystem.serviceStep_frame (c : CoreSystem) (env : ServiceEnv) :
    (c.serviceStep env).lock = c.lock ∧
      (c.serviceStep env).deinitPending = c.deinitPending ∧
      (c.serviceStep env).api = c.api ∧ (c.serviceStep env).deinit = c.deinit ∧
      (c.serviceStep env).log.nextCall = c.log.nextCall ∧
      (c.serviceStep env).log.enqueued = c.log.enqueued ∧
      (c.serviceStep env).log.rejected = c.log.rejected := by
  unfold serviceStep
  -- By where the service is.
  split
  · exact ⟨rfl, rfl, rfl, rfl, rfl, rfl, rfl⟩
  · exact ⟨rfl, rfl, rfl, rfl, rfl, rfl, rfl⟩
  · split <;> exact ⟨rfl, rfl, rfl, rfl, rfl, rfl, rfl⟩
  · split <;> exact ⟨rfl, rfl, rfl, rfl, rfl, rfl, rfl⟩
  · split <;> exact ⟨rfl, rfl, rfl, rfl, rfl, rfl, rfl⟩
  · unfold dispatchJob
    split <;> first
      | exact ⟨rfl, rfl, rfl, rfl, rfl, rfl, rfl⟩
      | split_ifs <;> exact ⟨rfl, rfl, rfl, rfl, rfl, rfl, rfl⟩
  all_goals exact ⟨rfl, rfl, rfl, rfl, rfl, rfl, rfl⟩

/-- A section of the service decides about no call. -/
theorem CoreSystem.serviceStep_calls (c : CoreSystem) (env : ServiceEnv) :
    c.Calls (c.serviceStep env) := by
  obtain ⟨hlock, hpending, hapi, hdeinit, hcall, henqueued, hrejected⟩ := c.serviceStep_frame env
  refine .stay hcall henqueued hrejected ?_ ?_
  · unfold CoreSystem.posting
    rw [hapi, hdeinit]
  · unfold CoreSystem.Open
    rw [hlock, hpending, hdeinit]
    exact id

/-- Every action does one of these things with the calls. -/
theorem CoreSystem.step_calls (hinv : c.Inv config) (h : c.Serviced) {action : CoreAction}
    (hok : c.PrimitivesSucceed action) : c.Calls (c.step config action).2 := by
  have hstay : c.Calls c := .congr rfl rfl id
  -- What each action does to the calls, by its own lemma.
  cases action with
  | setCallback =>
    dsimp only [CoreSystem.step]
    split_ifs
    · exact .congr rfl rfl id
    · exact hstay
  | init env =>
    dsimp only [CoreSystem.step]
    split_ifs
    · exact actrustInit_calls env
    · exact hstay
  | call type =>
    dsimp only [CoreSystem.step]
    split_ifs with hapi
    · exact submit_calls hapi type
    · exact hstay
  | api env => exact apiStep_calls hinv env
  | deinit =>
    dsimp only [CoreSystem.step]
    split_ifs with hapi
    · exact actrustDeinit_calls hinv hapi
    · exact hstay
  | deinitStep env =>
    dsimp only [CoreSystem.step]
    split_ifs
    · exact hstay
    · exact deinitStep_calls hinv h hok
  | service env =>
    dsimp only [CoreSystem.step]
    split_ifs
    · exact hstay
    · exact c.serviceStep_calls env
  | mqtt event => exact .congr rfl rfl id

/-! ### The job of a call -/

/-- The calls that have a job, have been rejected or post their jobs. -/
def CoreSystem.seen (c : CoreSystem) : List ℕ :=
  c.log.enqueued.map Request.call ++ (c.log.rejected ++ c.posting)

/-- Each call is in one place, and the next one is new. -/
structure CoreSystem.Numbered (c : CoreSystem) : Prop where
  nodup : c.seen.Nodup
  below : ∀ call ∈ c.seen, call < c.log.nextCall

/-- A step that only moves calls about. -/
theorem CoreSystem.Numbered.keep (h : c.Numbered) (hperm : c'.seen.Perm c.seen)
    (hle : c.log.nextCall ≤ c'.log.nextCall) : c'.Numbered where
  nodup := hperm.nodup_iff.mpr h.nodup
  below call hcall := Nat.lt_of_lt_of_le (h.below call (hperm.mem_iff.mp hcall)) hle

/-- A call is seen. -/
theorem CoreSystem.Numbered.add (h : c.Numbered) (hperm : c'.seen.Perm (c.log.nextCall :: c.seen))
    (hnext : c'.log.nextCall = c.log.nextCall + 1) : c'.Numbered where
  nodup := by
    apply hperm.nodup_iff.mpr
    apply List.nodup_cons.mpr
    refine ⟨fun hmem => ?_, h.nodup⟩
    exact Nat.lt_irrefl _ (h.below _ hmem)
  below call hcall := by
    rw [hnext]
    rcases List.mem_cons.mp (hperm.mem_iff.mp hcall) with rfl | hseen
    · exact Nat.lt_succ_self _
    · exact Nat.lt_succ_of_lt (h.below call hseen)

/-- What a step does with the calls keeps the numbering. -/
theorem CoreSystem.Calls.numbered (h : c.Calls c') (hn : c.Numbered) : c'.Numbered := by
  -- One case per way; the permutation says where the call has gone.
  cases h with
  -- Nothing moved, so the numbers are the old ones.
  | stay hcall henqueued hrejected hposting _ =>
    refine hn.keep ?_ hcall.ge
    unfold CoreSystem.seen
    rw [henqueued, hrejected, hposting]
  -- A call began: its number is new and in the hands of its thread.
  | begins hcall henqueued hrejected hposting _ =>
    refine hn.add ?_ hcall
    unfold CoreSystem.seen
    rw [henqueued, hrejected, hposting, ← List.append_assoc, ← List.append_assoc]
    exact List.perm_middle
  | goesOn hcall henqueued hrejected hposting _ =>
    refine hn.keep ?_ (hcall ▸ Nat.le_succ _)
    unfold CoreSystem.seen
    rw [henqueued, hrejected, hposting]
  -- A refused call is counted at once.
  | rejects hcall henqueued hrejected hposting _ =>
    refine hn.add ?_ hcall
    unfold CoreSystem.seen
    rw [henqueued, hrejected, hposting, List.append_assoc, ← List.append_assoc,
      ← List.append_assoc (_ : List ℕ) c.log.rejected]
    exact List.perm_middle
  -- An `actrust_init` queues its INIT in the same step.
  | starts hcall henqueued hrejected hposting =>
    refine hn.add ?_ hcall
    unfold CoreSystem.seen
    rw [henqueued, hrejected, hposting, List.map_append, List.append_assoc]
    exact List.perm_middle
  -- The call left its thread for the refused ones.
  | givesUp call hcall henqueued hrejected hposting _ =>
    refine hn.keep ?_ hcall.ge
    unfold CoreSystem.seen
    rw [henqueued, hrejected, hposting, List.append_assoc]
    rfl
  -- The call left its thread for the queue; the refused ones stand between.
  | accepts request hcall henqueued hrejected hposting _ =>
    refine hn.keep ?_ hcall.ge
    unfold CoreSystem.seen
    rw [henqueued, hrejected, hposting, List.map_append, List.append_assoc]
    apply List.Perm.append_left
    show (request.call :: (c.log.rejected ++ c'.posting)).Perm _
    exact List.perm_middle.symm

/-! ### What follows a DEINIT -/

/-- While calls may be admitted, the last job that has been accepted is no DEINIT. -/
structure CoreSystem.Behind (c : CoreSystem) : Prop where
  chain : c.log.enqueued.IsChain FollowsDeinit
  open_last : c.Open → ∀ request ∈ c.log.enqueued.getLast?, request.type ≠ .deinit

/-- A step that queues nothing. -/
theorem CoreSystem.Behind.keep (h : c.Behind) (henqueued : c'.log.enqueued = c.log.enqueued)
    (hopen : c'.Open → c.Open) : c'.Behind where
  chain := henqueued ▸ h.chain
  open_last ho := by
    rw [henqueued]
    exact h.open_last (hopen ho)

/-- A job that is queued behind what may follow the last one. -/
theorem CoreSystem.Behind.push (h : c.Behind) {request : Request}
    (henqueued : c'.log.enqueued = c.log.enqueued ++ [request])
    (hfollows : ∀ r ∈ c.log.enqueued.getLast?, FollowsDeinit r request)
    (hopen : c'.Open → request.type ≠ .deinit) : c'.Behind where
  chain := by
    rw [henqueued]
    apply h.chain.append (.singleton _)
    intro r hr r' hr'
    cases Option.mem_some_iff.mp hr'
    exact hfollows r hr
  open_last ho r hr := by
    rw [henqueued, List.getLast?_concat] at hr
    cases Option.mem_some_iff.mp hr
    exact hopen ho

/-- A job of a call is no DEINIT. -/
theorem Called.ne_deinit {type : JobType} (h : Called type) : type ≠ .deinit := by
  rintro rfl
  rcases h with h | h
  · cases h
  · exact h

/-- What a step does with the calls keeps the order behind a DEINIT. -/
theorem CoreSystem.Calls.behind (h : c.Calls c') (hb : c.Behind) : c'.Behind := by
  cases h with
  | stay _ henqueued _ _ hopen => exact hb.keep henqueued hopen
  | begins _ henqueued _ _ hopen => exact hb.keep henqueued hopen
  | goesOn _ henqueued _ _ hopen => exact hb.keep henqueued hopen
  | rejects _ henqueued _ _ hopen => exact hb.keep henqueued hopen
  | starts _ henqueued _ _ =>
    refine hb.push henqueued (fun _ _ _ => .inl rfl) fun _ => ?_
    rintro ⟨⟩
  | givesUp _ _ henqueued _ _ hopen => exact hb.keep henqueued hopen
  -- The job of a call finds calls admitted, so the last job is no DEINIT; a DEINIT closes them.
  | accepts request _ henqueued _ _ hkind =>
    rcases hkind with ⟨hcalled, hopen⟩ | ⟨htype, hclosed⟩
    · refine hb.push henqueued (fun r hr htype => ?_) fun _ => hcalled.ne_deinit
      exact absurd htype (hb.open_last hopen r hr)
    · exact hb.push henqueued (fun _ _ _ => .inr htype) fun hopen => absurd hopen hclosed

/-! ### The jobs, as lists -/

/-- Each job that has been accepted has been executed or waits, and each that has been executed has
been called back or is about to be. -/
structure CoreSystem.Ledger (c : CoreSystem) : Prop where
  executed : c.log.enqueued = c.log.executed ++ c.waiting
  callbacks : c.log.executed = c.log.callbacks ++ c.served

/-- What a step does with requests keeps the log in step with them. -/
theorem CoreSystem.Moves.ledger (h : c.Moves c') (hl : c.Ledger)
    (hdrop : c.service = .stopped → c'.waiting <:+ c.waiting → c'.waiting = c.waiting) :
    c'.Ledger := by
  obtain ⟨hexecuted, hcallbacks⟩ := hl
  cases h with
  | stay hw hs he hx hc =>
    exact ⟨by rw [he, hx, hw, hexecuted], by rw [hx, hc, hs, hcallbacks]⟩
  | enqueue request hw hs he hx hc =>
    exact ⟨by rw [he, hx, hw, hexecuted, List.append_assoc], by rw [hx, hc, hs, hcallbacks]⟩
  -- The head of the waiting jobs is now executed, and nothing was waiting for its callback.
  | execute request hw hnone hs he hx hc =>
    rw [hnone, List.append_nil] at hcallbacks
    exact ⟨by rw [he, hx, hexecuted, hw, List.append_assoc]; rfl, by rw [hx, hc, hs, hcallbacks]⟩
  | call request hw hone hs he hx hc =>
    rw [hone] at hcallbacks
    exact ⟨by rw [he, hx, hw, hexecuted], by rw [hx, hc, hs, hcallbacks, List.append_nil]⟩
  -- Only a service that is not there drops jobs, and then there are none to drop.
  | drop hw hs hstopped he hx hc =>
    exact ⟨by rw [he, hx, hdrop hstopped hw, hexecuted], by rw [hx, hc, hs, hcallbacks]⟩

/-- An attempt that is about to start the service loses no job. -/
theorem CoreSystem.step_starting (hinv : c.Inv config) {previous : CoreState}
    (hd : c.deinit = .starting previous) {action : CoreAction}
    (hok : c.PrimitivesSucceed action) : (c.step config action).2.waiting = c.waiting := by
  have hne : c.deinit ≠ .idle := by
    rw [hd]
    rintro ⟨⟩
  obtain ⟨hlock, hpending, hfinalizing⟩ := hinv.attempt hne
  have hapi := hinv.api_idle hne
  -- The post is behind it, and no service was there to take the job.
  have hat := hinv.attempting
  rw [hd] at hat
  have hservice := hinv.stopped hat.2.2.2
  -- There is no service between the post and the start, and every other thread leaves the queue
  -- alone.
  cases action with
  | setCallback =>
    dsimp only [CoreSystem.step]
    split_ifs <;> rfl
  -- The core is not UNINIT, so `actrust_init` is refused.
  | init env =>
    dsimp only [CoreSystem.step]
    rw [if_pos hapi]
    unfold actrustInit
    dsimp only
    rw [if_pos (.inl hlock)]
    rfl
  -- A call is refused by the pending deinit, or only takes the number.
  | call type =>
    dsimp only [CoreSystem.step]
    rw [if_pos hapi]
    unfold CoreSystem.submit
    dsimp only
    split_ifs <;> rfl
  | api env =>
    dsimp only [CoreSystem.step]
    unfold CoreSystem.apiStep
    rw [hapi]
  -- A second deinit is refused, since the first is finalizing.
  | deinit =>
    dsimp only [CoreSystem.step]
    rw [if_pos hapi]
    unfold actrustDeinit
    dsimp only
    rw [if_pos (.inr (.inr hfinalizing))]
    rfl
  -- The start makes a service with an empty hand, which moves no request.
  | deinitStep env =>
    dsimp only [CoreSystem.step]
    rw [if_neg fun hlocked => hlocked.2 hapi]
    unfold CoreSystem.deinitStep
    rw [hd, hok.2]
    unfold CoreSystem.waiting
    rw [hservice]
    rfl
  | service env =>
    dsimp only [CoreSystem.step]
    split_ifs
    · rfl
    · unfold CoreSystem.serviceStep
      rw [hservice]
  | mqtt event => rfl

/-- Every action keeps it. -/
theorem CoreSystem.Ledger.step (hl : c.Ledger) (hinv : c.Inv config) (h : c.Serviced)
    {action : CoreAction} (hok : c.PrimitivesSucceed action) : (c.step config action).2.Ledger := by
  refine (hinv.step action).2.ledger hl fun hservice hsuffix => ?_
  have htask : c.serviceTask = false := by
    by_contra hrun
    exact hinv.task (Bool.not_eq_false _ ▸ hrun) hservice
  rcases h.stopped htask with hnil | ⟨_, _, hd, _⟩
  · rw [hnil] at hsuffix ⊢
    exact List.suffix_nil.mp hsuffix
  · exact step_starting hinv hd hok

/-! ### Every state of a run -/

/-- A service that has ended has nothing in hand. -/
theorem ServicePc.called_of_ended {pc : ServicePc} (h : pc = .stopped ∨ pc = .exited) :
    pc.done = [] ∧ pc.called = [] := by
  rcases h with rfl | rfl <;> exact ⟨rfl, rfl⟩

/-- Then no job is executed that has no callback. -/
theorem CoreSystem.served_of_ended (h : c.service = .stopped ∨ c.service = .exited) :
    c.served = [] := by
  obtain ⟨hdone, hcalled⟩ := ServicePc.called_of_ended h
  unfold CoreSystem.served
  rw [hdone, hcalled]
  rfl

/-- The service executes one job at a time. -/
theorem CoreSystem.served_length (c : CoreSystem) : c.served.length ≤ 1 := by
  unfold CoreSystem.served
  rw [List.length_append]
  unfold JobPool.requests
  rw [List.length_map]
  cases c.service <;> first | exact Nat.zero_le 1 | exact Nat.le_refl 1

/-- A job that waits has a service, or a deinit about to start one. -/
theorem CoreSystem.Serviced.attended (h : c.Serviced) (hinv : c.Inv config)
    (hne : c.served ++ c.waiting ≠ []) :
    c.Running ∨ ∃ previous, c.deinit = .starting previous := by
  by_cases htask : c.serviceTask = true
  · refine .inl ⟨htask, hinv.task htask, fun hexited => hne ?_⟩
    rw [served_of_ended (.inr hexited), h.exited hexited]
    rfl
  · have hstopped : c.serviceTask = false := Bool.eq_false_iff.mpr htask
    rcases h.stopped hstopped with hnil | ⟨_, previous, hd, _⟩
    · refine absurd ?_ hne
      rw [served_of_ended (.inl (hinv.stopped hstopped)), hnil]
      rfl
    · exact .inr ⟨previous, hd⟩

/-- Without its lock the core holds no job. -/
-- Without the lock there is no call, no deinit and no task, so every slot that was held is free.
theorem CoreSystem.Inv.ended (h : c.Inv config) (hlock : c.lock = false) :
    c.waiting = [] ∧ c.served = [] ∧ c.jobPool.Accounted config.jobPoolSize [] := by
  obtain ⟨-, htask, -, -, hcount⟩ := h.unlocked hlock
  have hdeinit : c.deinit = .idle := by
    by_contra hne
    cases hlock.symm.trans (h.attempt hne).1
  have hapi : c.api = .idle := by
    cases hapi : c.api with
    | idle => rfl
    | posting request pc => cases hlock.symm.trans (h.admitted request pc hapi).1
  have hqueued : c.queued = [] := Fifo.toList_eq_nil.mpr hcount
  have hheld := h.accounted
  rw [held, queuedOrServed, hapi, hdeinit, h.stopped htask, hqueued] at hheld
  exact ⟨h.waiting_nil htask hcount, h.served_nil htask, hheld⟩

/-- All invariants of the run. -/
structure CoreSystem.Kept (config : CoreConfig) (c : CoreSystem) : Prop where
  inv : c.Inv config
  serviced : c.Serviced
  numbered : c.Numbered
  behind : c.Behind
  ledger : c.Ledger

/-- The condition of this result implies that of the availability. -/
theorem CoreSystem.PrimitivesSucceed.dependable {action : CoreAction}
    (h : c.PrimitivesSucceed action) : c.Dependable action := by
  cases action with
  | service env => exact h
  | deinitStep env => exact fun _ => h
  | _ => trivial

/-- Every action keeps all of them. -/
theorem CoreSystem.Kept.step (h : c.Kept config) {action : CoreAction}
    (hok : c.PrimitivesSucceed action) : (c.step config action).2.Kept config := by
  have hcalls := step_calls h.inv h.serviced hok
  exact {
    inv := (h.inv.step action).1
    serviced := h.serviced.step h.inv hok.dependable
    numbered := hcalls.numbered h.numbered
    behind := hcalls.behind h.behind
    ledger := h.ledger.step h.inv h.serviced hok }

/-- At the start there is nothing to keep. -/
theorem CoreSystem.kept_initial (config : CoreConfig) : (initial config).Kept config where
  inv := inv_initial config
  serviced := serviced_initial config
  numbered := ⟨List.nodup_nil, by rintro _ ⟨⟩⟩
  behind := ⟨.nil, by rintro ⟨⟨⟩, _⟩⟩
  ledger := ⟨rfl, rfl⟩

/-- They give the property. -/
theorem CoreSystem.Kept.delivered (h : c.Kept config) : c.Delivered config where
  executed := h.ledger.executed
  callbacks := h.ledger.callbacks
  served := c.served_length
  calls := by
    have hseen := h.numbered.nodup
    unfold CoreSystem.seen at hseen
    rw [← List.append_assoc] at hseen
    exact (List.nodup_append.mp hseen).1
  behind := h.behind.chain
  last := h.serviced.last
  retried request previous start pc hd := by
    have hat := h.inv.attempting
    rw [hd] at hat
    exact hat.2.2.1
  attended := h.serviced.attended h.inv
  ended := h.inv.ended

/-! ### How far the next callback is -/

/-- How many sections of the service the next callback takes. -/
def ServicePc.rank : ServicePc → ℕ
  | .calling _ => 1
  | .releasing _ => 2
  | .completing _ _ => 3
  | .registering _ => 4
  | .running _ => 5
  | .taking => 6
  | .waiting => 7
  | _ => 8

/-- Every section is some way before a callback. -/
theorem ServicePc.rank_pos (pc : ServicePc) : 0 < pc.rank := by
  cases pc <;> exact Nat.succ_pos _

/-- None is farther than eight. -/
theorem ServicePc.rank_le (pc : ServicePc) : pc.rank ≤ 8 := by
  unfold rank
  split <;> decide

/-- The next callback has come nearer by some sections, or has been made. -/
def CoreSystem.Advances (c c' : CoreSystem) (sections : ℕ) : Prop :=
  c'.log.callbacks = c.log.callbacks ∧ c'.service.rank + sections ≤ c.service.rank ∨
    (∃ request, c'.log.callbacks = c.log.callbacks ++ [request]) ∧ sections ≤ c.service.rank

/-- A step of another thread. -/
theorem CoreSystem.Advances.congr (hlog : c'.log.callbacks = c.log.callbacks)
    (hservice : c'.service = c.service) : c.Advances c' 0 :=
  .inl ⟨hlog, by rw [hservice, Nat.add_zero]⟩

/-- Fewer sections than it has come nearer. -/
theorem CoreSystem.Advances.mono {m n : ℕ} (h : c.Advances c' n) (hmn : m ≤ n) :
    c.Advances c' m := by
  rcases h with ⟨hlog, hrank⟩ | ⟨hlog, hrank⟩
  · exact .inl ⟨hlog, (Nat.add_le_add_left hmn _).trans hrank⟩
  · exact .inr ⟨hlog, hmn.trans hrank⟩

/-- A section of `actrust_deinit` takes the service no way back. -/
theorem CoreSystem.deinitStep_advances (hinv : c.Inv config) (env : DeinitEnv) :
    c.Advances (c.deinitStep env) 0 := by
  cases hd : c.deinit with
  | idle =>
    unfold CoreSystem.deinitStep
    rw [hd]
    exact .congr rfl rfl
  -- The post touches neither the service nor its callbacks.
  | posting request previous start pc =>
    unfold CoreSystem.deinitStep
    rw [hd]
    dsimp only
    split <;> exact .congr rfl rfl
  | starting previous =>
    have hat := hinv.attempting
    rw [hd] at hat
    have hservice := hinv.stopped hat.2.2.2
    unfold CoreSystem.deinitStep
    rw [hd]
    dsimp only
    split
    · exact .congr rfl rfl
    · -- The service starts at its farthest section, which is where a stopped one is counted.
      refine .inl ⟨rfl, ?_⟩
      rw [hservice]
      exact Nat.le_refl 8
  | restoring previous =>
    unfold CoreSystem.deinitStep
    rw [hd]
    exact .congr rfl rfl
  | joining =>
    obtain ⟨-, -, -, hlog, hservice, -⟩ := c.joinService_frame env.join hd
    unfold CoreSystem.deinitStep
    rw [hd]
    -- The service may be joined, which leaves it at a point that counts the same.
    rcases hservice with hsame | ⟨hexited, hstopped⟩
    · exact .congr (congrArg CoreLog.callbacks hlog) hsame
    · refine .inl ⟨congrArg CoreLog.callbacks hlog, ?_⟩
      show (c.joinService env.join).service.rank + 0 ≤ c.service.rank
      rw [hexited, hstopped]
      exact Nat.le_refl 8
  | finishing =>
    obtain ⟨-, hservice, -, -, hlog, -⟩ := c.finishDeinit_frame env.finish
    unfold CoreSystem.deinitStep
    rw [hd]
    exact .congr (congrArg CoreLog.callbacks hlog) hservice

/-- An operation that is executed, or goes on. -/
-- The operation has been executed, or a REGISTER goes on in a section of its own.
theorem CoreSystem.dispatchJob_advances {idx : ℕ} (hservice : c.service = .running idx)
    (env : ServiceEnv) : c.Advances (c.dispatchJob env idx) 1 := by
  have hexecuted : ∀ r, c.Advances (c.executed idx r) 1 := by
    intro r
    refine .inl ⟨rfl, ?_⟩
    rw [hservice]
    exact Nat.le_succ 4
  unfold CoreSystem.dispatchJob
  split
  · exact hexecuted _
  · exact hexecuted _
  · exact hexecuted _
  · split_ifs
    · exact hexecuted _
    · refine .inl ⟨rfl, ?_⟩
      rw [hservice]
      exact Nat.le_refl 5
  · exact hexecuted _
  · exact hexecuted _
  · exact hexecuted _

/-- With a job that waits or is about to be called back, every section of the service counts. -/
theorem CoreSystem.serviceStep_advances (hinv : c.Inv config) (hne : c.served ++ c.waiting ≠ [])
    {env : ServiceEnv} (hok : env.semWait = .ok ()) (hrun : c.Running) :
    c.Advances (c.serviceStep env) 1 := by
  obtain ⟨-, hstopped, hexited⟩ := hrun
  obtain ⟨-, hlock, hphase⟩ := hinv.serving hstopped
  cases hservice : c.service with
  -- A service that runs is neither stopped nor ended.
  | stopped => exact absurd hservice hstopped
  | exited => exact absurd hservice hexited
  | dequeuing =>
    have hopen := hinv.opened hlock hphase
    have henter : jobQueueEnter c.jobQueue
        = .ok { c.jobQueue with waiterCount := c.jobQueue.waiterCount + 1 } := by
      unfold jobQueueEnter
      rw [if_neg fun hc => Bool.noConfusion (hopen.symm.trans hc.1)]
    unfold CoreSystem.serviceStep
    rw [hservice]
    dsimp only
    rw [henter]
    refine .inl ⟨rfl, ?_⟩
    rw [hservice]
    exact Nat.le_refl 8
  | waiting =>
    -- the job has been announced
    have hitems := hinv.items
    rw [hservice] at hitems
    have hcount : c.jobQueue.ring.count ≠ 0 := by
      intro hzero
      apply hne
      have hqueued : c.queued = [] := Fifo.toList_eq_nil.mpr hzero
      unfold CoreSystem.served CoreSystem.waiting
      rw [hservice, hqueued]
      rfl
    unfold CoreSystem.serviceStep
    rw [hservice, hok]
    dsimp only
    cases hsem : c.jobQueue.semItems with
    | zero =>
      rw [hsem] at hitems
      exact absurd hitems.symm hcount
    | succ n =>
      refine .inl ⟨rfl, ?_⟩
      rw [hservice]
      exact Nat.le_refl 7
  -- The token taken stands for a job, so the take succeeds.
  | taking =>
    obtain ⟨q, htake, -⟩ := hinv.takes hservice
    unfold CoreSystem.serviceStep
    rw [hservice]
    dsimp only
    rw [htake]
    refine .inl ⟨rfl, ?_⟩
    rw [hservice]
    exact Nat.le_refl 6
  -- By the handler; each leaves the service with a result in hand.
  | running idx =>
    unfold CoreSystem.serviceStep
    rw [hservice]
    exact dispatchJob_advances hservice env
  | registering idx =>
    unfold CoreSystem.serviceStep
    rw [hservice]
    refine .inl ⟨rfl, ?_⟩
    rw [hservice]
    exact Nat.le_refl 4
  | completing idx result =>
    unfold CoreSystem.serviceStep
    rw [hservice]
    refine .inl ⟨rfl, ?_⟩
    rw [hservice]
    exact Nat.le_refl 3
  -- A callback is installed, so the next section calls it.
  | releasing idx =>
    have hcallback := hinv.callback hlock
    unfold CoreSystem.serviceStep CoreSystem.releaseJob
    rw [hservice]
    dsimp only
    rw [hcallback]
    refine .inl ⟨rfl, ?_⟩
    rw [hservice]
    exact Nat.le_refl 2
  -- The callback is called: one more, and the service is back at its farthest point.
  | calling request =>
    unfold CoreSystem.serviceStep
    rw [hservice]
    refine .inr ⟨⟨request, rfl⟩, ?_⟩
    rw [hservice]
    exact Nat.le_refl 1

/-- An action takes one section of the service at most. -/
theorem CoreSystem.turn_length (c : CoreSystem) (action : CoreAction) :
    (c.turn action).length ≤ 1 := by
  unfold CoreSystem.turn
  split
  · split
    · exact Nat.zero_le 1
    · exact Nat.zero_le 1
    · split_ifs
      · exact Nat.zero_le 1
      · exact Nat.le_refl 1
  · exact Nat.zero_le 1

/-- A service that waits for the lock takes none. -/
theorem CoreSystem.turn_blocked (hblocked : c.service.Locks ∧ c.api ≠ .idle) (env : ServiceEnv) :
    c.turn (.service env) = [] := by
  dsimp only [CoreSystem.turn]
  split
  · rfl
  · rfl
  · exact if_pos hblocked

/-- A service that has ended takes none. -/
theorem CoreSystem.turn_ended (hended : c.service = .stopped ∨ c.service = .exited)
    (env : ServiceEnv) : c.turn (.service env) = [] := by
  dsimp only [CoreSystem.turn]
  rcases hended with hs | hs <;> rw [hs]

/-- While a job is under way every action brings its callback nearer, by the section the service
takes. -/
theorem CoreSystem.step_advances (hinv : c.Inv config) (hne : c.served ++ c.waiting ≠ [])
    {action : CoreAction} (hok : c.PrimitivesSucceed action) :
    c.Advances (c.step config action).2 (c.turn action).length := by
  -- The other threads leave the service where it is, or start one.
  cases action with
  | setCallback =>
    dsimp only [CoreSystem.step]
    split_ifs <;> exact .congr rfl rfl
  | init env =>
    dsimp only [CoreSystem.step]
    split_ifs
    · unfold actrustInit
      dsimp only
      split_ifs with hrefused
      · exact .congr rfl rfl
      · simp only [not_or, Bool.not_eq_true] at hrefused
        split
        · exact .congr rfl rfl
        · -- A new service begins at its farthest point, and none was running.
          have htask := (hinv.unlocked hrefused.1).2.1
          refine .inl ⟨rfl, ?_⟩
          rw [hinv.stopped htask]
          exact Nat.le_refl 8
    · exact .congr rfl rfl
  | call type =>
    dsimp only [CoreSystem.step]
    split_ifs
    · unfold CoreSystem.submit
      dsimp only
      split_ifs <;> exact .congr rfl rfl
    · exact .congr rfl rfl
  | api env =>
    -- The post of a call changes pool and queue alone.
    obtain ⟨p, q, a, l, heq, -, -, hcallbacks⟩ := c.apiStep_frame env
    dsimp only [CoreSystem.step]
    rw [heq]
    exact .congr hcallbacks rfl
  | deinit =>
    dsimp only [CoreSystem.step]
    split_ifs
    · unfold actrustDeinit
      dsimp only
      split_ifs <;> exact .congr rfl rfl
    · exact .congr rfl rfl
  | deinitStep env =>
    dsimp only [CoreSystem.step]
    split_ifs
    · exact .congr rfl rfl
    · exact deinitStep_advances hinv env
  | service env =>
    dsimp only [CoreSystem.step]
    split_ifs with hblocked
    · -- While a call holds the lock the service's turn does not count.
      rw [turn_blocked hblocked env]
      exact .congr rfl rfl
    · -- A service at its end does not step, and its turn counts nothing.
      by_cases hended : c.service = .stopped ∨ c.service = .exited
      · have hsame : c.serviceStep env = c := by
          unfold CoreSystem.serviceStep
          rcases hended with hs | hs <;> rw [hs]
        rw [turn_ended hended env, hsame]
        exact .congr rfl rfl
      · obtain ⟨hstopped, hexited⟩ := not_or.mp hended
        have hrun : c.Running := ⟨(hinv.serving hstopped).1, hstopped, hexited⟩
        exact (serviceStep_advances hinv hne hok hrun).mono (c.turn_length _)
  | mqtt event => exact .congr rfl rfl

/-! ### How long a run takes -/

/-- Jobs are only added, and so are callbacks. -/
theorem CoreSystem.Moves.grows (h : c.Moves c') :
    c.log.enqueued <+: c'.log.enqueued ∧ c.log.callbacks <+: c'.log.callbacks := by
  cases h with
  | stay _ _ he _ hc => exact ⟨he ▸ List.prefix_rfl, hc ▸ List.prefix_rfl⟩
  | enqueue request _ _ he _ hc => exact ⟨he ▸ List.prefix_append _ _, hc ▸ List.prefix_rfl⟩
  | execute request _ _ _ he _ hc => exact ⟨he ▸ List.prefix_rfl, hc ▸ List.prefix_rfl⟩
  | call request _ _ _ he _ hc => exact ⟨he ▸ List.prefix_rfl, hc ▸ List.prefix_append _ _⟩
  | drop _ _ _ he _ hc => exact ⟨he ▸ List.prefix_rfl, hc ▸ List.prefix_rfl⟩

/-- The callbacks that a state waits for: they have been made, or the sections that the service has
taken and those that they still take are not more than eight for each. -/
structure CoreSystem.Approaches (config : CoreConfig) (c : CoreSystem) (past : List ServicePc)
    (s : CoreSystem) : Prop where
  kept : s.Kept config
  enqueued : c.log.enqueued <+: s.log.enqueued
  near : c.log.enqueued.length ≤ s.log.callbacks.length ∨
    past.length + (8 * (c.log.enqueued.length - s.log.callbacks.length - 1) + s.service.rank) ≤
      8 * (c.log.enqueued.length - c.log.callbacks.length)

/-- What has been queued is called back, served or waits. -/
theorem CoreSystem.Ledger.length (h : c.Ledger) :
    c.log.enqueued.length = c.log.callbacks.length + (c.served ++ c.waiting).length := by
  rw [h.executed, h.callbacks, List.append_assoc, List.length_append]

/-- Every action leaves the callbacks of the jobs at `c` nearer by the section it takes. -/
theorem CoreSystem.Approaches.step {s : CoreSystem} {past : List ServicePc}
    (h : c.Approaches config past s) {action : CoreAction} (hok : s.PrimitivesSucceed action) :
    c.Approaches config (past ++ s.turn action) (s.step config action).2 := by
  obtain ⟨hkept, henqueued, hnear⟩ := h
  obtain ⟨hgrows, hcallbacks⟩ := (hkept.inv.step action).2.grows
  refine ⟨hkept.step hok, henqueued.trans hgrows, ?_⟩
  by_cases hdone : c.log.enqueued.length ≤ s.log.callbacks.length
  · exact .inl (hdone.trans hcallbacks.length_le)
  · have hbound := hnear.resolve_left hdone
    -- A callback is still missing, so a job is served or waits.
    have hne : s.served ++ s.waiting ≠ [] := by
      intro hnil
      have hlength := hkept.ledger.length
      rw [hnil, List.length_nil, Nat.add_zero] at hlength
      exact hdone (henqueued.length_le.trans hlength.le)
    have hrank := (s.step config action).2.service.rank_le
    rw [List.length_append]
    -- The callback has come nearer, or has been made and eight more sections are allowed.
    rcases step_advances hkept.inv hne hok with ⟨hsame, hnearer⟩ | ⟨⟨request, hcalled⟩, htaken⟩
    · rw [hsame]
      right
      omega
    · rw [hcalled, List.length_append, List.length_singleton]
      omega

/-- Once there have been enough sections, the jobs are all called back. -/
theorem CoreSystem.Kept.answered (h : c.Kept config) : c.Answered config := by
  intro more hmeets hsections
  have hlength := h.ledger.length
  -- Eight sections for each job, less what the first has behind it.
  have hstart : c.Approaches config [] c := by
    refine ⟨h, List.prefix_rfl, ?_⟩
    have hrank := c.service.rank_le
    rw [List.length_nil]
    omega
  have hend : c.Approaches config
      (history (CoreSystem.step config) CoreSystem.turn more c)
      (Machine.run (CoreSystem.step config) more c).2 :=
    history_invariant_of_meets (I := CoreSystem.Approaches config c)
      (fun past s action hs hok => hs.step hok) hstart hmeets
  obtain ⟨hkept, henqueued, hnear⟩ := hend
  have hcallbacks : (Machine.run (CoreSystem.step config) more c).2.log.callbacks <+:
      (Machine.run (CoreSystem.step config) more c).2.log.enqueued := by
    rw [hkept.ledger.executed, hkept.ledger.callbacks, List.append_assoc]
    exact List.prefix_append _ _
  -- Both are prefixes of the same queue, and the callbacks are not the shorter one.
  apply List.prefix_of_prefix_length_le henqueued hcallbacks
  have hpos := (Machine.run (CoreSystem.step config) more c).2.service.rank_pos
  omega

end Steps

/-! ### Delivery -/

/-- **In every run in which the primitives succeed, each job that is accepted is executed once, in
its turn, and called back once, and behind a DEINIT nothing but a DEINIT is accepted until the core
is initialised anew.** -/
theorem jobs_delivered (config : CoreConfig) (actions : List CoreAction)
    (h : Meets (CoreSystem.step config) CoreSystem.PrimitivesSucceed actions (.initial config)) :
    Always (CoreSystem.step config) (fun c => c.Delivered config ∧ c.Answered config) actions
      (.initial config) := by
  apply always_of_invariant (I := CoreSystem.Kept config) ?_ ?_ (CoreSystem.kept_initial config) h
  · intro c action hkept hok
    exact hkept.step hok
  · intro c hkept
    exact ⟨hkept.delivered, hkept.answered⟩

/-- A CONNECT that has been accepted before the deinit opens a session, whose connection is lost.
While the process loop is in its back-off nobody takes commands, and a TERMINATE that finds the
command queue full cannot be queued: the loop ends by its flag, and the deinit of the cloud client
fails all the same. The deinit of the core is tried again. -/
def connectedDeinit : List CoreAction :=
  let failing :=
    { ServiceEnv.works.deinit with cloudDeinit := .error ⟨.cloud, .cloudDeinitFailed⟩ }
  initRun ++ [.call .connect, .api .works, .api .works, .deinit, .deinitStep .works,
      .deinitStep .works] ++
    List.replicate 7 (.service .works) ++ [.mqtt .lost] ++
    List.replicate 7 (.service { ServiceEnv.works with deinit := failing }) ++
    [.deinitStep .works, .deinit, .deinitStep .works, .deinitStep .works]

/-- The run to UNINIT with its failing attempt. -/
theorem jobs_delivered_connected :
    (Machine.run (CoreSystem.step twoJobs) connectedDeinit (.initial twoJobs)).2.log.enqueued.map
        Request.type = [.init, .connect, .deinit, .deinit] ∧
      Always (CoreSystem.step twoJobs) (fun c => c.Delivered twoJobs ∧ c.Answered twoJobs)
        connectedDeinit (.initial twoJobs) :=
  ⟨by decide +kernel, jobs_delivered twoJobs connectedDeinit (by decide +kernel)⟩

/-- Behind the DEINIT that has failed another one is accepted. -/
theorem not_deinit_last :
    ¬ ∀ config actions,
      Meets (CoreSystem.step config) CoreSystem.PrimitivesSucceed actions (.initial config) →
      Always (CoreSystem.step config)
        (fun c => (c.Delivered config ∧ c.Answered config) ∧
          c.log.enqueued.IsChain fun r r' => r.type = .deinit → r'.type = .init)
        actions (.initial config) := by
  intro h
  have hlast := (h twoJobs connectedDeinit (by decide +kernel)).last.2
  revert hlast
  decide +kernel

end TrustSdk.Core.Service
