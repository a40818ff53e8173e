import ConnectNcpHost.Ota.EventLoops

/-! # Delays

`Schedule` numbers the calls of `sli_connect_ota_unicast_server_schedule_next_event`, each of which
arms the one-shot timer anew, and notes for every call of the event handler which arming was the
last one, and whether the timer had expired since. The event handler should run once for every
expiry. But the thread calls it as long as an event is active: a handler that schedules the next
event itself, after a submission that was refused or a response that did not come, runs again at
once (`retry_at_once`), and so it does for an event that is scheduled between the return of `read`
and the end of the inner loop. Where neither happens, each call consumes an expiry of its own, and
an expiry lies between two submissions (`delaysRespected_of_reach`). -/

namespace ConnectNcpHost.Ota.Delays

open ConnectNcpHost.Lib.Runs ConnectNcpHost.Ota.Protocol
open ConnectNcpHost.Ota.BootloaderServer ConnectNcpHost.Ota.Transition ConnectNcpHost.Ota.Frames
open ConnectNcpHost.Ota.EventLoops

variable {cfg : Config} {s : Server} {t t' : Loops} {as : List Action}

/-! ## The schedule -/

/-- A call of the event handler. -/
structure Invocation where
  /-- the number of the arming before it -/
  arming : ℕ
  /-- the timer has expired since this arming -/
  expired : Bool

/-- What the timer was asked for, and what was done about it, the last call first. -/
structure Schedule where
  /-- the calls of `sli_connect_ota_unicast_server_schedule_next_event` -/
  armings : ℕ
  /-- the timer has expired since the last of them -/
  expired : Bool
  expiries : ℕ
  invocations : List Invocation
  /-- for every call of `emberMessageSend`, the expiries before it -/
  submissions : List ℕ

namespace Schedule

def init : Schedule := ⟨0, false, 0, [], []⟩

def act (g : Schedule) : Action → Schedule
  | .timerfdSettime _ => { g with armings := g.armings + 1, expired := false }
  | .messageSend _ _ => { g with submissions := g.expiries :: g.submissions }
  | _ => g

def acts (g : Schedule) (as : List Action) : Schedule := as.foldl act g

/-- The expiry of the timer that was armed last. -/
def expire (g : Schedule) : Schedule := { g with expired := true, expiries := g.expiries + 1 }

def invoke (g : Schedule) : Schedule :=
  { g with invocations := ⟨g.armings, g.expired⟩ :: g.invocations }

end Schedule

/-- The thread stands before the test of the inner `while`. -/
def isInner : Pc → Bool
  | .inner => true
  | _ => false

/-- The next step of the thread calls the event handler. -/
def Invokes (t : Loops) (n : ℕ) : Prop :=
  isInner (t.pc n) = true ∧ t.server.otaEventIsActive = true

instance (t : Loops) (n : ℕ) : Decidable (Invokes t n) := by unfold Invokes; infer_instance

/-- One step of the schedule. -/
def Schedule.record (g : Schedule) (t : Loops) : Label → List Action → Schedule
  | .expire k, as => (if t.timerFd = some k then g.expire else g).acts as
  | .thread n _, as => (if Invokes t n then g.invoke else g).acts as
  | _, as => g.acts as

/-- The threads of the event loop, with their schedule. -/
def delays (cfg : Config) : System (Loops × Schedule) Label Action :=
  (eventLoops cfg).observe Schedule.init Schedule.record

theorem reach_delays_init {ok : Loops × Schedule → Label → Prop} (cfg : Config) :
    (delays cfg).Reach ok (Loops.init, Schedule.init) := .start ⟨rfl, rfl⟩

/-! ## The property and its condition -/

/-- **Scheduled delays are respected**: every call of the event handler comes after the expiry of
the last arming, no two come after the same one, and between two submissions the timer expires. -/
structure DelaysRespected (g : Schedule) : Prop where
  expired : ∀ x ∈ g.invocations, x.expired = true
  distinct : (g.invocations.map Invocation.arming).Nodup
  separated : g.submissions.Pairwise (· > ·)

/-- The handler schedules the next event. -/
def Arms (s : Server) : Input → Prop
  | .messageSent status m => (∃ r, Carries m r ∧ s.internalState = r.pending) ∧
    (status = emberSuccess ∨ (bumpErrors status s).stackErrorsCount < maxStackErrors ∧
      (bumpErrors status s).currentTargetErrorsCount < maxUnicastErrors)
  | .incomingMessage m => respStatus m = respStatusOngoing ∧ (AcceptsHandshakeResponse s m ∨
    AcceptsSegmentResponse s m ∧ respIndex m = s.sentSegment ∧
      s.nextSegment < getTotalSegmentsCount s)
  | _ => False

instance (s : Server) (i : Input) : Decidable (Arms s i) := by
  refine i.casesOn ?_ ?_ ?_ ?_ ?_ ?_ ?_ <;> intros <;> unfold Arms <;> infer_instance

/-- The errors leave no further attempt after a refused submission. -/
def LastRefusal (s : Server) : Prop :=
  maxStackErrors ≤ s.stackErrorsCount + 1 ∨ maxUnicastErrors ≤ s.currentTargetErrorsCount

instance (s : Server) : Decidable (LastRefusal s) := by unfold LastRefusal; infer_instance

/-- The condition on the steps of a run. Every process starts alone; while a thread is behind `read`
and has not left the inner loop, no other handler schedules an event; and the event handler
schedules none: its submission is accepted and no response is late, or the process ends. -/
def KeepsDelays (t : Loops) : Label → Prop
  | .initiate i => StartsAlone t (.initiate i)
  | .handler i => (∃ n < t.count, isInner (t.pc n) = true) → ¬ Arms t.server i
  | .expire _ => True
  | .thread n env =>
    match t.pc n with
    | .inner => t.server.otaEventIsActive = true →
      (∃ r : Request, t.server.internalState = r.waiting) →
        maxUnicastErrors ≤ t.server.currentTargetErrorsCount + 1
    | .sending r _ => t.server.internalState = r.interval →
      env.sendStatus = emberSuccess ∨ LastRefusal t.server
    | _ => True

instance (t : Loops) (l : Label) : Decidable (KeepsDelays t l) := by
  refine l.casesOn ?_ ?_ ?_ fun n env => ?_
  · intro; unfold KeepsDelays; infer_instance
  · intro; unfold KeepsDelays; infer_instance
  · intro; unfold KeepsDelays; infer_instance
  · unfold KeepsDelays; dsimp only
    generalize t.pc n = pc
    refine pc.casesOn ?_ ?_ ?_ ?_ ?_ ?_ ?_ ?_ <;> intros <;> infer_instance

theorem startsAlone_of_keepsDelays {l : Label} (h : KeepsDelays t l) : StartsAlone t l := by
  cases l with
  | initiate i => exact h
  | _ => trivial

/-! ## What a handler schedules -/

/-- No event is scheduled, nothing is submitted, and no event becomes active. -/
structure Quiet (s : Server) (o : Outcome) : Prop where
  settime : ∀ tvNsec, .timerfdSettime tvNsec ∉ o.actions
  send : ∀ m status, .messageSend m status ∉ o.actions
  active : o.server.otaEventIsActive = true → s.otaEventIsActive = true

theorem quiet_finished {s1 : Server} (s : Server) (a : Action)
    (h1 : ∀ tvNsec, a ≠ .timerfdSettime tvNsec) (h2 : ∀ m status, a ≠ .messageSend m status) :
    Quiet s ⟨finished s1, [a]⟩ where
  settime tvNsec hm := h1 tvNsec (List.mem_singleton.mp hm).symm
  send m status hm := h2 m status (List.mem_singleton.mp hm).symm
  active h := by cases h

theorem quiet_complete {s1 : Server} (s : Server) (p : Process)
    (st : EmberAfOtaUnicastBootloaderStatus) : Quiet s ⟨finished s1, [p.complete st]⟩ :=
  quiet_finished s _ (fun _ h => by cases p <;> cases h) fun _ _ h => by cases p <;> cases h

theorem quiet_refl (s : Server) : Quiet s ⟨s, []⟩ where
  settime _ h := by cases h
  send _ _ h := by cases h
  active h := h

/-- A failed attempt that is the last one. -/
theorem quiet_failed {s1 : Server} {r : Request} {o : Outcome} (ho : Failed cfg r s1 o)
    (h : maxStackErrors ≤ s1.stackErrorsCount ∧ s1.internalState ≠ r.waiting ∨
      maxUnicastErrors ≤ s1.currentTargetErrorsCount) : Quiet s o := by
  cases ho with
  | gaveUp _ => exact quiet_complete s _ _
  | retried ht hs =>
    rcases h with ⟨h, hw⟩ | h
    · exact absurd (hs.resolve_right hw) (UInt8.not_lt.mpr h)
    · exact absurd ht (UInt8.not_lt.mpr h)

/-- **A handler that does not meet `Arms` schedules nothing.** -/
theorem quiet_of_not_arms {i : Input} {o : Outcome} (hi : runsOutside i = true) (ha : ¬ Arms s i)
    (ho : handle cfg s i = some o) : Quiet s o := by
  have ht := trans_of_handle ho
  cases ht with
  | call ht =>
    cases ht with
    | refused _ _ => exact ⟨by simp, by simp, id⟩
    | imageStarted _ _ _ _ => cases hi
    | bootloadStarted _ _ => cases hi
    | @aborted r _ _ => cases r <;> exact ⟨by simp [Request.process, Process.complete],
        by simp [Request.process, Process.complete], fun h => by cases h⟩
  | @message m _ ht =>
    cases ht with
    | ignored _ _ _ => exact quiet_refl s
    | handshakeEnded _ _ => exact quiet_complete s .imageDistribution _
    | handshakeAccepted h hst _ => exact absurd ⟨hst, .inl h⟩ ha
    | segmentEnded _ _ => exact quiet_complete s .imageDistribution _
    | segmentAdvanced h hst hi hn => exact absurd ⟨hst, .inr ⟨h, hi, hn⟩⟩ ha
    | segmentWrapped _ _ _ _ => exact ⟨by simp, by simp, fun h => by cases h⟩
    | segmentIgnored _ _ => exact ⟨by simp, by simp, id⟩
    | bootloadAnswered _ => exact quiet_complete s .bootloadRequest _
  | @sent status m _ ht =>
    cases ht with
    | ignored _ => exact quiet_refl s
    | succeeded hm hs hst => exact absurd ⟨⟨_, hm, hs⟩, .inl hst⟩ ha
    | @failed r _ _ hm hs hst _ _ =>
      have hfull := fun h => ha ⟨⟨r, hm, hs⟩, .inr h⟩
      have hf : Failed cfg r { bumpErrors status s with internalState := r.interval } _ :=
        failed_of_callback hm hs hst
      obtain rfl := Option.some.inj ho
      refine quiet_failed hf ?_
      rcases not_and_or.mp hfull with h | h
      · exact .inl ⟨UInt8.not_lt.mp h, interval_ne_waiting r r⟩
      · exact .inr (UInt8.not_lt.mp h)
  | timer _ _ => cases hi
  | timerIgnored _ => cases hi
  | event _ _ => cases hi

/-- The first half of a submission schedules nothing. -/
theorem quiet_of_sendBegin {env : EventEnv} {o : Outcome}
    {call : Option (Request × EmberOutgoingMessage)}
    (h : SentCallbacks.sendBegin env s = some (o, call)) :
    Quiet s o ∧ o.server.otaEventIsActive = false := by
  unfold SentCallbacks.sendBegin at h
  split_ifs at h with hh
  · simp only [Option.some.injEq, Prod.mk.injEq] at h
    obtain ⟨rfl, -⟩ := h
    exact ⟨⟨by simp, by simp, fun h => by cases h⟩, rfl⟩
  · obtain ⟨-, hb⟩ := Interleaved.begins_of_sendBegin h
    cases hb with
    | underflow _ =>
      exact ⟨⟨by simp [segmentCallback], by simp [segmentCallback], fun h => by cases h⟩, rfl⟩
    | @calls r _ _ _ _ =>
      refine ⟨⟨?_, ?_, fun h => by cases h⟩, rfl⟩
      · cases r <;> simp [Request.prelude, segmentCallback]
      · cases r <;> simp [Request.prelude, segmentCallback]

theorem not_interval_of_sendBegin {env : EventEnv} (ha : s.otaEventIsActive = true)
    (h : SentCallbacks.sendBegin env s = none) (r : Request) : s.internalState ≠ r.interval := by
  intro hs
  unfold SentCallbacks.sendBegin Interleaved.sendBegin at h
  cases r with
  | handshake => simp [ha, show s.internalState = .handshakeInterval from hs] at h
  | imageSegment =>
    simp only [ha, show s.internalState = .segmentUnicastInterval from hs] at h
    simp only [reduceCtorEq, and_false, if_false, if_true] at h
    split at h <;> cases h
  | bootloadRequest => simp [ha, show s.internalState = .bootloadRequestUnicastInterval from hs] at h

/-- The event handler schedules nothing where it submits nothing and no response is late. -/
theorem quiet_of_eventHandler {env : EventEnv} (ha : s.otaEventIsActive = true)
    (hb : SentCallbacks.sendBegin env s = none)
    (hlast : (∃ r : Request, s.internalState = r.waiting) →
      maxUnicastErrors ≤ s.currentTargetErrorsCount + 1) :
    Quiet s (emAfPluginOtaUnicastBootloaderServerEventHandler cfg env s) ∧
      (emAfPluginOtaUnicastBootloaderServerEventHandler cfg env s).server.otaEventIsActive =
        false := by
  have hno := not_interval_of_sendBegin ha hb
  have ht := eventHandler_trans cfg env s
  revert ht
  generalize emAfPluginOtaUnicastBootloaderServerEventHandler cfg env s = o
  intro ht
  cases ht with
  | submitted hs _ _ => exact absurd hs (hno _)
  | underflow hs => exact absurd hs (hno .imageSegment)
  | notSubmitted hs _ _ _ => exact absurd hs (hno _)
  | @timedOut r _ hs ho =>
    refine ⟨quiet_failed ho (.inr (hlast ⟨r, hs⟩)), ?_⟩
    cases ho with
    | retried ht _ => exact absurd ht (UInt8.not_lt.mpr (hlast ⟨r, hs⟩))
    | gaveUp _ => rfl
  | idle _ => exact ⟨⟨by simp, by simp, fun h => by cases h⟩, rfl⟩

/-- After an abort a refused submission fails an assertion, and nothing else happens. -/
theorem sent_idle {r : Request} {status : EmberStatus} (hs : s.internalState = .idle)
    (hst : status ≠ emberSuccess) : r.sent cfg status s =
      ⟨{ s with stackErrorsCount := s.stackErrorsCount + 1 }, [.assertFailed]⟩ := by
  set s1 : Server := { s with stackErrorsCount := s.stackErrorsCount + 1 }
  have h1 : s1.internalState = .idle := hs
  have himage : scheduleImageDistributionProcessNextTask cfg false s1 = ⟨s1, [.assertFailed]⟩ := by
    unfold scheduleImageDistributionProcessNextTask
    rw [h1]
  have hbootload : scheduleBootloadRequestProcessNextTask cfg false 0xFF s1 =
      ⟨s1, [.assertFailed]⟩ := by
    unfold scheduleBootloadRequestProcessNextTask
    rw [if_pos]
    rw [serverInBootloadRequestProcess_iff, h1]
    exact nofun
  cases r with
  | handshake =>
    simp only [Request.sent, unicastHandshakeSent, if_neg hst]
    exact himage
  | imageSegment =>
    simp only [Request.sent, unicastNextSegmentSent, if_neg hst]
    exact himage
  | bootloadRequest =>
    simp only [Request.sent, requestTargetForBootloadSent, if_neg hst]
    exact hbootload

/-- The return of `emberMessageSend` to a server that was left where it was, or aborted. -/
theorem quiet_of_sent {r : Request} {status : EmberStatus}
    (hs : s.internalState = r.interval ∨ s.internalState = .idle)
    (hok : s.internalState = r.interval → status = emberSuccess ∨ LastRefusal s) :
    Quiet s (r.sent cfg status s) := by
  by_cases hst : status = emberSuccess
  · have ho : r.sent cfg status s = ⟨r.submitted s, []⟩ := by
      subst hst
      cases r <;> rfl
    rw [ho]
    refine ⟨by simp, by simp, fun h => ?_⟩
    cases r <;> exact h
  · rcases hs with hs | hs
    · have ho := ((sent_interval cfg hs status).resolve_left fun h => hst h.1).2
      refine quiet_failed ho ?_
      rcases (hok hs).resolve_left hst with h | h
      · exact .inl ⟨h, fun hw => interval_ne_waiting r r (hs.symm.trans hw)⟩
      · exact .inr h
    · rw [sent_idle hs hst]
      exact ⟨by simp, by simp, id⟩

/-- While a call of `emberMessageSend` is open, another handler can only abort the process. -/
theorem quiet_of_sending {r : Request} {i : Input} {o : Outcome}
    (hs : s.internalState = r.interval ∨ s.internalState = .idle) (hi : runsOutside i = true)
    (ho : handle cfg s i = some o) :
    Quiet s o ∧ (o.server.internalState = r.interval ∨ o.server.internalState = .idle) := by
  have hne : ∀ r' : Request, s.internalState ≠ r'.pending ∧ s.internalState ≠ r'.waiting := by
    intro r'
    rcases hs with hs | hs
    · exact ⟨fun h => interval_ne_pending r r' (hs.symm.trans h),
        fun h => interval_ne_waiting r r' (hs.symm.trans h)⟩
    · exact ⟨fun h => idle_ne.2.1 (hs.symm.trans h), fun h => idle_ne.2.2 (hs.symm.trans h)⟩
  have harms : ¬ Arms s i := by
    cases i with
    | messageSent status m => exact fun ⟨⟨r', _, hs'⟩, _⟩ => (hne r').1 hs'
    | incomingMessage m =>
      rintro ⟨-, h | ⟨h, -⟩⟩
      · exact (hne .handshake).2 h.state
      · exact h.state.elim (hne .imageSegment).1 (hne .imageSegment).2
    | _ => exact id
  refine ⟨quiet_of_not_arms hi harms ho, ?_⟩
  cases trans_of_handle ho with
  | call ht =>
    cases ht with
    | refused _ _ => exact hs
    | imageStarted _ _ _ _ => cases hi
    | bootloadStarted _ _ => cases hi
    | aborted _ _ => exact .inr rfl
  | @message m _ ht =>
    have hseg : ¬ AcceptsSegmentResponse s m := fun h =>
      h.state.elim (hne .imageSegment).1 (hne .imageSegment).2
    rw [ht.eq_of_not_waiting (fun r' => (hne r').2) hseg]
    exact hs
  | sent ht =>
    rw [ht.eq_of_not_pending fun r' _ => (hne r').1]
    exact hs
  | timer _ _ => cases hi
  | timerIgnored _ => cases hi
  | event _ _ => cases hi

/-! ## The invariant -/

/-- The thread is behind `read`, and has not left the inner loop. -/
def Behind : Pc → Prop
  | .inner | .sending _ _ => True
  | _ => False

/-- No call of the event handler came after the last arming. -/
def Unconsumed (g : Schedule) : Prop := ∀ x ∈ g.invocations, x.arming < g.armings

/-- The timer has expired since the last arming, and nothing was done about it. -/
structure Fresh (g : Schedule) : Prop where
  expired : g.expired = true
  unconsumed : Unconsumed g
  separated : ∀ y ∈ g.submissions, y < g.expiries

/-- **Invariant** of the timer that `timer_fd` names: while it is armed the last arming is not
consumed, and when it has expired nothing was done about it. -/
structure TimerInv (t : Loops) (g : Schedule) : Prop where
  respected : DelaysRespected g
  arming : ∀ x ∈ g.invocations, x.arming ≤ g.armings
  submitted : ∀ y ∈ g.submissions, y ≤ g.expiries
  armed : ∀ k, t.timerFd = some k → t.timer k = .armed → Unconsumed g
  expired : ∀ k, t.timerFd = some k → t.timer k = .expired → Fresh g

/-- **Invariant.** Behind `read` the timer is silent: the event handler is called for the expiry
that was read. -/
structure DelaysInv (t : Loops) (g : Schedule) : Prop where
  timer : TimerInv t g
  reads : ∀ n k, t.pc n = .reading k → t.timerFd = some k ∨ t.timer k = .silent
  behind : ∀ n, Behind (t.pc n) → ∀ k, t.timerFd = some k → t.timer k = .silent
  inner : ∀ n, t.pc n = .inner → t.server.otaEventIsActive = true → Fresh g
  sending : ∀ n r m, t.pc n = .sending r m → t.server.otaEventIsActive = false ∧
    (t.server.internalState = r.interval ∨ t.server.internalState = .idle) ∧
    ∀ y ∈ g.submissions, y < g.expiries

variable {g : Schedule}

/-- An arming that `timerfd_settime` accepts. -/
theorem TimerInv.settime {tvNsec : ℕ} (h : TimerInv t g) (hn : tvNsec ≠ 0 ∧ tvNsec ≤ 999999999) :
    TimerInv (t.act (.timerfdSettime tvNsec)) (g.act (.timerfdSettime tvNsec)) := by
  have hfd := (moves_act 0 t (.timerfdSettime tvNsec)).fd
  have htimer : ∀ k, t.timerFd = some k → (t.act (.timerfdSettime tvNsec)).timer k = .armed := by
    intro k hk
    unfold Loops.act
    rw [hk]
    dsimp only
    rw [Function.update_self, Timer.settime, if_neg hn.1, if_pos hn.2]
  refine ⟨⟨h.respected.expired, h.respected.distinct, h.respected.separated⟩,
    fun x hx => Nat.le_succ_of_le (h.arming x hx), h.submitted,
    fun k _ _ x hx => Nat.lt_succ_of_le (h.arming x hx), fun k hk he => ?_⟩
  rw [hfd] at hk
  cases (htimer k hk).symm.trans he

/-- What a handler does without a submission. -/
theorem TimerInv.acts : ∀ {as : List Action} {t : Loops} {g : Schedule}, TimerInv t g →
    (∀ tvNsec, .timerfdSettime tvNsec ∈ as → tvNsec ≠ 0 ∧ tvNsec ≤ 999999999) →
    (∀ m status, .messageSend m status ∉ as) → TimerInv (t.acts as) (g.acts as) := by
  intro as
  induction as with
  | nil => exact fun h _ _ => h
  | cons a as ih =>
    intro t g h hset hsend
    have ha : TimerInv (t.act a) (g.act a) := by
      cases a with
      | timerfdSettime tvNsec => exact h.settime (hset tvNsec List.mem_cons_self)
      | messageSend m status => exact absurd List.mem_cons_self (hsend m status)
      | _ => exact h
    exact ih ha (fun n hn => hset n (List.mem_cons_of_mem _ hn))
      fun m status hm => hsend m status (List.mem_cons_of_mem _ hm)

/-- Nothing is done to the timers where nothing is scheduled. -/
theorem acts_of_quiet (h : ∀ tvNsec, .timerfdSettime tvNsec ∉ as) (t : Loops) : t.acts as = t := by
  refine foldl_eq_self fun a ha => ?_
  cases a with
  | timerfdSettime n => exact absurd ha (h n)
  | _ => rfl

theorem Schedule.acts_of_quiet (h : ∀ tvNsec, .timerfdSettime tvNsec ∉ as)
    (hs : ∀ m status, .messageSend m status ∉ as) (g : Schedule) : g.acts as = g := by
  refine foldl_eq_self fun a ha => ?_
  cases a with
  | timerfdSettime n => exact absurd ha (h n)
  | messageSend m status => exact absurd ha (hs m status)
  | _ => rfl

theorem Quiet.perform {o : Outcome} (h : Quiet t.server o) :
    t.perform o = { t with server := o.server } :=
  Delays.acts_of_quiet h.settime _

theorem TimerInv.congr {server : Server} {pc : ℕ → Pc} {count : ℕ} (h : TimerInv t g) :
    TimerInv { t with server := server, pc := pc, count := count } g :=
  ⟨h.respected, h.arming, h.submitted, h.armed, h.expired⟩

theorem not_behind_of_over {n : ℕ} (h : Over t n) : ¬ Behind (t.pc n) := by
  intro hb
  rcases over_iff.mp h with h | ⟨k, hk, -⟩
  · rw [h] at hb
    exact hb
  · cases hpc : t.pc n <;> simp_all [Behind, Pc.waitsFor]

/-- A thread that waits for another timer than the one `timer_fd` names waits for good. -/
theorem reads_of_moves {n m k : ℕ} (h : DelaysInv t g) (hm : Moves n t t')
    (hpc : t.pc m = .reading k) : t'.timerFd = some k ∨ t'.timer k = .silent := by
  rw [hm.fd]
  by_cases hfd : t.timerFd = some k
  · exact .inl hfd
  · exact .inr (hm.timer k ((h.reads m k hpc).resolve_left hfd) hfd)

/-! ### What is armed -/

theorem settime_of_mem {timeMs : UInt16} {n : ℕ} (hle : timeMs ≤ 999)
    (hm : .timerfdSettime n ∈ [Action.timerfdSettime (tvNsec timeMs)]) : n ≠ 0 ∧ n ≤ 999999999 := by
  simp only [List.mem_singleton, Action.timerfdSettime.injEq] at hm
  exact hm ▸ tvNsec_range hle

theorem settime_of_failed (htx : cfg.txIntervalMs ≤ 999) {r : Request} {o : Outcome} {tvNsec : ℕ}
    (ho : Failed cfg r s o) (hm : .timerfdSettime tvNsec ∈ o.actions) :
    tvNsec ≠ 0 ∧ tvNsec ≤ 999999999 := by
  cases ho with
  | retried _ _ => exact settime_of_mem htx hm
  | gaveUp _ =>
    have ha := List.mem_singleton.mp hm
    cases r <;> cases ha

/-- With a transmission interval below one second the handlers ask for no time that
`timerfd_settime` refuses. -/
theorem settime_of_handle (htx : cfg.txIntervalMs ≤ 999) {i : Input} {o : Outcome} {tvNsec : ℕ}
    (hi : runsOutside i = true) (ho : handle cfg s i = some o)
    (hm : .timerfdSettime tvNsec ∈ o.actions) : tvNsec ≠ 0 ∧ tvNsec ≤ 999999999 := by
  cases trans_of_handle ho with
  | call ht =>
    cases ht with
    | refused _ _ => simp at hm
    | imageStarted _ _ _ _ => cases hi
    | bootloadStarted _ _ => cases hi
    | @aborted r _ _ => cases r <;> simp [Request.process, Process.complete] at hm
  | message ht =>
    cases ht with
    | handshakeAccepted _ _ hf => exact settime_of_failed htx hf hm
    | segmentAdvanced _ _ _ _ => exact settime_of_mem htx hm
    | _ => simp at hm
  | sent ht =>
    cases ht with
    | ignored _ => simp at hm
    | succeeded _ _ _ => exact settime_of_mem (by decide) hm
    | failed _ _ _ _ hf => exact settime_of_failed htx hf hm
  | timer _ _ => cases hi
  | timerIgnored _ => cases hi
  | event _ _ => cases hi

/-- The handlers outside of the event threads submit nothing. -/
theorem messageSend_not_mem_handle {i : Input} {o : Outcome} (hi : runsOutside i = true)
    (ho : handle cfg s i = some o) (m : EmberOutgoingMessage) (status : EmberStatus) :
    .messageSend m status ∉ o.actions := by
  intro hm
  obtain ⟨env, rfl | rfl, -⟩ := eventTrans_of_submits (trans_of_handle ho) rfl hm <;> cases hi

/-! ### The steps -/

/-- A step that moves no thread and after which none of them is behind `read`. -/
theorem delaysInv_of_not_behind {g' : Schedule} (ht : TimerInv t' g')
    (hreads : ∀ n k, t'.pc n = .reading k → t'.timerFd = some k ∨ t'.timer k = .silent)
    (hb : ∀ n, ¬ Behind (t'.pc n)) : DelaysInv t' g' where
  timer := ht
  reads := hreads
  behind n h := absurd h (hb n)
  inner n h := absurd (h ▸ trivial) (hb n)
  sending n _ _ h := absurd (h ▸ trivial) (hb n)

/-- The conditions on the one thread that is not over. -/
theorem DelaysInv.moved {n : ℕ} {g' : Schedule} (h : DelaysInv t g) (ht : TimerInv t' g')
    (hm : Moves n t t') (hover : ∀ k, k ≠ n → Over t k)
    (hreads : ∀ k, t'.pc n = .reading k → t'.timerFd = some k ∨ t'.timer k = .silent)
    (hbehind : Behind (t'.pc n) → ∀ k, t'.timerFd = some k → t'.timer k = .silent)
    (hinner : t'.pc n = .inner → t'.server.otaEventIsActive = true → Fresh g')
    (hsending : ∀ r m, t'.pc n = .sending r m → t'.server.otaEventIsActive = false ∧
      (t'.server.internalState = r.interval ∨ t'.server.internalState = .idle) ∧
      ∀ y ∈ g'.submissions, y < g'.expiries) : DelaysInv t' g' := by
  have hother : ∀ k, k ≠ n → ¬ Behind (t'.pc k) := by
    intro k hk
    rw [hm.pc k hk]
    exact not_behind_of_over (hover k hk)
  refine ⟨ht, fun k j hj => ?_, fun k hk => ?_, fun k hk => ?_, fun k r m hk => ?_⟩
  · by_cases hkn : k = n
    · exact hreads j (hkn ▸ hj)
    · exact reads_of_moves h hm ((hm.pc k hkn).symm.trans hj)
  · by_cases hkn : k = n
    · exact hbehind (hkn ▸ hk)
    · exact absurd hk (hother k hkn)
  · by_cases hkn : k = n
    · exact hinner (hkn ▸ hk)
    · exact absurd (hk ▸ trivial) (hother k hkn)
  · by_cases hkn : k = n
    · exact hsending r m (hkn ▸ hk)
    · exact absurd (hk ▸ trivial) (hother k hkn)

/-- While a thread is behind `read`, the other handlers schedule nothing. -/
theorem quiet_of_behind {n : ℕ} {i : Input} {o : Outcome} (hl : LoopsInv t) (h : DelaysInv t g)
    (hk : KeepsDelays t (.handler i)) (hb : Behind (t.pc n)) (hi : runsOutside i = true)
    (ho : handle cfg t.server i = some o) : Quiet t.server o := by
  cases hpc : t.pc n with
  | inner =>
    have hlt : n < t.count := hl.lt_count (by rw [hpc]; exact nofun)
    exact quiet_of_not_arms hi (hk ⟨n, hlt, by rw [hpc]; rfl⟩) ho
  | sending r m => exact (quiet_of_sending (h.sending n r m hpc).2.1 hi ho).1
  | _ => exact absurd hb (by rw [hpc]; exact id)

theorem delaysInv_handler (htx : cfg.txIntervalMs ≤ 999) {i : Input} {o : Outcome}
    (hl : LoopsInv t) (h : DelaysInv t g) (hk : KeepsDelays t (.handler i))
    (hi : runsOutside i = true) (ho : handle cfg t.server i = some o) :
    DelaysInv (t.perform o) (g.acts o.actions) := by
  by_cases hb : ∃ n, Behind (t.pc n)
  · obtain ⟨n, hn⟩ := hb
    have hq := quiet_of_behind hl h hk hn hi ho
    rw [hq.perform, Schedule.acts_of_quiet hq.settime hq.send]
    refine ⟨h.timer.congr, h.reads, h.behind, fun m hm ha => h.inner m hm (hq.active ha),
      fun m r f hm => ?_⟩
    obtain ⟨hact, hs, hsub⟩ := h.sending m r f hm
    refine ⟨?_, (quiet_of_sending hs hi ho).2, hsub⟩
    exact Bool.eq_false_iff.mpr fun ha => absurd (hact.symm.trans (hq.active ha)) (by decide)
  · have hmoves := moves_perform 0 t o
    refine delaysInv_of_not_behind ?_ (fun n k hn => ?_)
      fun n hn => hb ⟨n, by rwa [perform_pc] at hn⟩
    · have ht : TimerInv { t with server := o.server } g := h.timer.congr
      exact ht.acts (fun _ => settime_of_handle htx hi ho) (messageSend_not_mem_handle hi ho)
    · rw [perform_pc] at hn
      exact reads_of_moves h hmoves hn

/-- The start of a process changes no timer and asks for none. -/
theorem acts_initiate {i : Input} {o : Outcome} {st : EmberAfOtaUnicastBootloaderStatus}
    (hi : initiate s i = some (.success, o)) (g : Schedule) :
    g.acts (o.actions ++ [.returned st]) = g := by
  have ho : o.actions = [.pthreadCreate] := by
    cases i with
    | initiateImageDistribution target imageSize imageTag =>
      simp only [initiate, emberAfPluginOtaUnicastBootloaderServerInitiateImageDistribution,
        Option.some.injEq] at hi
      split_ifs at hi <;> first | exact (Prod.mk.inj hi).2 ▸ rfl | cases hi
    | initiateRequestTargetBootload delay imageTag target nowMs =>
      simp only [initiate, emberAfPluginUnicastBootloaderServerInitiateRequestTargetBootload,
        Option.some.injEq] at hi
      split_ifs at hi <;> first | exact (Prod.mk.inj hi).2 ▸ rfl | cases hi
    | _ => cases hi
  rw [ho]
  rfl

theorem delaysInv_initiate {i : Input} {o : Outcome} (hl : LoopsInv t) (h : DelaysInv t g)
    (hi : initiate t.server i = some (.success, o)) (hok : StartsAlone t (.initiate i)) :
    DelaysInv { t with
      server := o.server
      count := t.count + 1
      pc := Function.update t.pc t.count .created } g := by
  have hover := hl.over hi hok
  refine delaysInv_of_not_behind h.timer.congr (fun n k hn => ?_) fun n hn => ?_
  · change Function.update t.pc t.count .created n = .reading k at hn
    by_cases hnc : n = t.count
    · rw [hnc, Function.update_self] at hn
      cases hn
    · rw [Function.update_of_ne hnc] at hn
      exact h.reads n k hn
  · change Behind (Function.update t.pc t.count .created n) at hn
    by_cases hnc : n = t.count
    · rw [hnc, Function.update_self] at hn
      exact hn
    · rw [Function.update_of_ne hnc] at hn
      exact not_behind_of_over (hover n) hn

/-- The expiry of the timer that `timer_fd` names finds no thread behind `read`. -/
theorem delaysInv_expire {k : ℕ} (h : DelaysInv t g) (hk : t.timer k = .armed) :
    DelaysInv { t with timer := Function.update t.timer k .expired }
      (if t.timerFd = some k then g.expire else g) := by
  have hne : ∀ j, j ≠ k → Function.update t.timer k .expired j = t.timer j :=
    fun j hj => Function.update_of_ne hj _ _
  by_cases hfd : t.timerFd = some k
  · rw [if_pos hfd]
    have hun := h.timer.armed k hfd hk
    refine delaysInv_of_not_behind ⟨⟨h.timer.respected.expired, h.timer.respected.distinct,
      h.timer.respected.separated⟩, h.timer.arming, fun y hy => Nat.le_succ_of_le
      (h.timer.submitted y hy), fun _ _ _ => hun, fun _ _ _ =>
      ⟨rfl, hun, fun y hy => Nat.lt_succ_of_le (h.timer.submitted y hy)⟩⟩ (fun n j hn => ?_)
      fun n hn => ?_
    · by_cases hjk : j = k
      · exact .inl (hjk ▸ hfd)
      · exact (h.reads n j hn).imp_right fun hs => (hne j hjk).trans hs
    · cases hk.symm.trans (h.behind n hn k hfd)
  · rw [if_neg hfd]
    have hnamed : ∀ j, t.timerFd = some j → Function.update t.timer k .expired j = t.timer j :=
      fun j hj => hne j fun hjk => hfd (hjk ▸ hj)
    refine ⟨⟨h.timer.respected, h.timer.arming, h.timer.submitted,
      fun j hj ha => h.timer.armed j hj ((hnamed j hj).symm.trans ha),
      fun j hj he => h.timer.expired j hj ((hnamed j hj).symm.trans he)⟩, fun n j hn => ?_,
      fun n hn j hj => (hnamed j hj).trans (h.behind n hn j hj), h.inner, h.sending⟩
    refine (h.reads n j hn).imp_right fun hs => (hne j fun hjk => ?_).trans hs
    cases (hjk ▸ hs).symm.trans hk

/-! ### The steps of a thread -/

/-- All threads but the one that makes a step are over. -/
theorem over_of_run {n : ℕ} {env : EventEnv} (hl : LoopsInv t)
    (hst : t.run cfg env n = some (t', as)) : ∀ k, k ≠ n → Over t k := by
  have hnot : ¬ Over t n := fun ho => by rw [run_eq_none ho] at hst; cases hst
  cases hl.phase with
  | starting n' _ _ ho _ _ =>
    obtain rfl : n = n' := by
      by_contra hnn
      exact hnot (ho n hnn)
    exact ho
  | one n' _ hg =>
    obtain rfl : n = n' := by
      by_contra hnn
      exact hnot (hg n hnn).over
    exact fun k hk => (hg k hk).over

/-- The start of a thread arms its own, new timer. -/
theorem delaysInv_start {n : ℕ} {env : EventEnv} (hl : LoopsInv t) (h : DelaysInv t g)
    (hn : t.pc n = .created) (hst : t.run cfg env n = some (t', as)) :
    DelaysInv t' (g.acts as) := by
  have hover := over_of_run hl hst
  obtain ⟨hfd, -, hpc, htimer⟩ := started_of_run hn hst
  have hpcn : t'.pc n = .test := by rw [hpc, Function.update_self]
  have hpck : ∀ k, k ≠ n → t'.pc k = t.pc k := fun k hk => by rw [hpc, Function.update_of_ne hk]
  refine delaysInv_of_not_behind ?_ (fun m k hm => ?_) fun m hm => ?_
  · unfold Loops.run at hst
    rw [hn] at hst
    simp only [Option.some.injEq, Prod.mk.injEq] at hst
    obtain ⟨rfl, rfl⟩ := hst
    set o := processEventsStart t.server
    set t1 : Loops := { t.goto n .test with
      server := o.server
      timer := Function.update t.timer n .silent
      timerFd := some n }
    have hsilent : ∀ k, t1.timerFd = some k → t1.timer k = .silent := by
      intro k hk
      obtain rfl : n = k := Option.some.inj hk
      exact Function.update_self _ _ _
    have ht1 : TimerInv t1 g := by
      refine ⟨h.timer.respected, h.timer.arming, h.timer.submitted, fun k hk ha => ?_,
        fun k hk he => ?_⟩
      · cases (hsilent k hk).symm.trans ha
      · cases (hsilent k hk).symm.trans he
    refine ht1.acts (fun tvNsec hm => ?_) fun m status hm => ?_
    · have hm' : tvNsec = 1 := by simpa [o, processEventsStart, Outcome.after,
        sliConnectOtaUnicastServerScheduleNextEvent] using hm
      exact ⟨by omega, by omega⟩
    · simp [o, processEventsStart, Outcome.after,
        sliConnectOtaUnicastServerScheduleNextEvent] at hm
  · by_cases hmn : m = n
    · rw [hmn, hpcn] at hm
      cases hm
    · -- whoever reads another timer is over: that timer is not armed
      rw [hpck m hmn] at hm
      have hkn : k ≠ n := by
        rintro rfl
        exact (hl.reads m _ hm).2 hn
      rcases over_iff.mp (hover m hmn) with hout | ⟨j, hj, hs⟩
      · cases hm.symm.trans hout
      · rw [hm] at hj
        obtain rfl := Option.some.inj hj
        exact .inr ((htimer _ hkn).trans hs)
  · by_cases hmn : m = n
    · rw [hmn, hpcn] at hm
      exact hm
    · rw [hpck m hmn] at hm
      exact not_behind_of_over (hover m hmn) hm

/-- A step of a thread to a place outside of the inner loop. -/
theorem DelaysInv.goto {n : ℕ} {pc : Pc} (h : DelaysInv t g) (hover : ∀ k, k ≠ n → Over t k)
    (hb : ¬ Behind pc) (hreads : ∀ k, pc = .reading k → t.timerFd = some k) :
    DelaysInv (t.goto n pc) g := by
  have hpc : (t.goto n pc).pc n = pc := goto_pc_self _ _ _
  refine h.moved h.timer.congr (moves_goto t n pc) hover (fun k hk => ?_) (fun hn => ?_)
    (fun hn => ?_) fun r m hn => ?_
  · exact .inl (hreads k (hpc.symm.trans hk))
  · exact absurd (hpc ▸ hn) hb
  · exact absurd ((hpc.symm.trans hn) ▸ trivial) hb
  · exact absurd ((hpc.symm.trans hn) ▸ trivial) hb

/-- `read` takes the expiry of the timer that was armed last. -/
theorem delaysInv_read {n k : ℕ} (h : DelaysInv t g) (hover : ∀ k, k ≠ n → Over t k)
    (hpc : t.pc n = .reading k) (hk : t.timer k = .expired)
    (hm : Moves n t { t.goto n .inner with timer := Function.update t.timer k .silent }) :
    DelaysInv { t.goto n .inner with timer := Function.update t.timer k .silent } g := by
  have hfd : t.timerFd = some k := by
    refine (h.reads n k hpc).resolve_right fun hs => ?_
    cases hs.symm.trans hk
  have hfresh := h.timer.expired k hfd hk
  set t' : Loops := { t.goto n .inner with timer := Function.update t.timer k .silent }
  have hpcn : t'.pc n = .inner := goto_pc_self t n .inner
  have hsilent : ∀ j, t'.timerFd = some j → t'.timer j = .silent := by
    intro j hj
    obtain rfl : k = j := Option.some.inj (hfd.symm.trans hj)
    exact Function.update_self _ _ _
  refine h.moved ⟨h.timer.respected, h.timer.arming, h.timer.submitted, fun j hj ha => ?_,
    fun j hj he => ?_⟩ hm hover (fun j hj => ?_) (fun _ => hsilent) (fun _ _ => hfresh)
    fun r m hn => ?_
  · cases (hsilent j hj).symm.trans ha
  · cases (hsilent j hj).symm.trans he
  · cases hpcn.symm.trans hj
  · cases hpcn.symm.trans hn

/-- The call of the event handler consumes the expiry. -/
theorem Fresh.invoke (h : Fresh g) (ht : TimerInv t g)
    (hs : ∀ k, t.timerFd = some k → t.timer k = .silent) : TimerInv t g.invoke := by
  refine ⟨⟨fun x hx => ?_, ?_, ht.respected.separated⟩, fun x hx => ?_, ht.submitted,
    fun k hk ha => ?_, fun k hk he => ?_⟩
  · rcases List.mem_cons.mp hx with rfl | hx
    · exact h.expired
    · exact ht.respected.expired x hx
  · refine List.nodup_cons.mpr ⟨fun hm => ?_, ht.respected.distinct⟩
    obtain ⟨x, hx, he⟩ := List.mem_map.mp hm
    exact absurd he (h.unconsumed x hx).ne
  · rcases List.mem_cons.mp hx with rfl | hx
    · exact le_rfl
    · exact ht.arming x hx
  · cases (hs k hk).symm.trans ha
  · cases (hs k hk).symm.trans he

/-- The inner loop calls the event handler, which schedules nothing. -/
theorem delaysInv_invoke {n : ℕ} {o : Outcome} {pc : Pc} (h : DelaysInv t g)
    (hover : ∀ k, k ≠ n → Over t k) (hpc : t.pc n = .inner)
    (ha : t.server.otaEventIsActive = true) (hq : Quiet t.server o)
    (hoff : o.server.otaEventIsActive = false)
    (hnext : pc = .inner ∨ ∃ r m, pc = .sending r m ∧ o.server.internalState = r.interval) :
    DelaysInv ({ t.goto n pc with server := o.server }) (g.invoke.acts o.actions) := by
  rw [Schedule.acts_of_quiet hq.settime hq.send]
  have hfresh := h.inner n hpc ha
  have hsilent := h.behind n (hpc ▸ trivial)
  have hpcn : (t.goto n pc).pc n = pc := goto_pc_self t n pc
  have hm := moves_goto t n pc
  refine h.moved (hfresh.invoke h.timer hsilent).congr ⟨hm.fd, hm.count, hm.pc, hm.timer⟩ hover
    (fun k hk => ?_) (fun _ => hsilent) (fun _ hact => ?_) fun r m hn => ?_
  · have hk' : pc = .reading k := hpcn.symm.trans hk
    rcases hnext with rfl | ⟨_, _, rfl, -⟩ <;> cases hk'
  · cases hoff.symm.trans hact
  · have hn' : pc = .sending r m := hpcn.symm.trans hn
    rcases hnext with rfl | ⟨r', m', rfl, hs⟩
    · cases hn'
    · obtain ⟨rfl, rfl⟩ := Pc.sending.inj hn'
      exact ⟨hoff, .inl hs, hfresh.separated⟩

/-- `emberMessageSend` has returned, and the thread is in the inner loop again. -/
theorem delaysInv_sent {n : ℕ} {r : Request} {m : EmberOutgoingMessage} {status : EmberStatus}
    (h : DelaysInv t g) (hover : ∀ k, k ≠ n → Over t k) (hpc : t.pc n = .sending r m)
    (hok : t.server.internalState = r.interval → status = emberSuccess ∨ LastRefusal t.server) :
    DelaysInv ((t.goto n .inner).perform (r.sent cfg status t.server))
      (g.acts (.messageSend m status :: (r.sent cfg status t.server).actions)) := by
  obtain ⟨hoff, hs, hsub⟩ := h.sending n r m hpc
  have hq : Quiet (t.goto n .inner).server (r.sent cfg status t.server) := quiet_of_sent hs hok
  have hsilent := h.behind n (hpc ▸ trivial)
  have hpcn : (t.goto n .inner).pc n = .inner := goto_pc_self t n .inner
  have hm := moves_goto t n .inner
  show DelaysInv _ ((g.act (.messageSend m status)).acts _)
  rw [hq.perform, Schedule.acts_of_quiet hq.settime hq.send]
  refine h.moved ⟨⟨h.timer.respected.expired, h.timer.respected.distinct,
    List.pairwise_cons.mpr ⟨hsub, h.timer.respected.separated⟩⟩, h.timer.arming, fun y hy => ?_,
    fun k hk ha => ?_, fun k hk he => ?_⟩ ⟨hm.fd, hm.count, hm.pc, hm.timer⟩ hover (fun k hk => ?_)
    (fun _ => hsilent) (fun _ hact => ?_) fun r' m' hn => ?_
  · rcases List.mem_cons.mp hy with rfl | hy
    · exact le_rfl
    · exact h.timer.submitted y hy
  · cases (hsilent k hk).symm.trans ha
  · cases (hsilent k hk).symm.trans he
  · cases hpcn.symm.trans hk
  · cases hoff.symm.trans (hq.active hact)
  · cases hpcn.symm.trans hn

theorem delaysInv_thread {n : ℕ} {env : EventEnv} (hl : LoopsInv t) (h : DelaysInv t g)
    (hk : KeepsDelays t (.thread n env)) (hst : t.run cfg env n = some (t', as)) :
    DelaysInv t' ((if Invokes t n then g.invoke else g).acts as) := by
  have hover := over_of_run hl hst
  -- outside of the inner loop no step calls the event handler
  have hnot : ∀ pc, t.pc n = pc → isInner pc = false → ¬ Invokes t n := by
    rintro pc rfl hpc hi
    cases hpc.symm.trans hi.1
  have hcalls : t.pc n = .inner → t.server.otaEventIsActive = true → Invokes t n :=
    fun hpc ha => ⟨by rw [hpc]; rfl, ha⟩
  have hgoto : t.pc n = .inner → t.goto n .inner = t := by
    intro hpc
    unfold Loops.goto
    rw [← hpc, Function.update_eq_self]
  cases runTrans_of_run hst with
  | started hpc =>
    rw [if_neg (hnot _ hpc rfl)]
    exact delaysInv_start hl h hpc hst
  | tested hpc =>
    rw [if_neg (hnot _ hpc rfl)]
    split_ifs
    · exact h.goto hover id fun _ h => by cases h
    · exact h.goto hover id fun _ h => by cases h
  | polled hpc _ =>
    rw [if_neg (hnot _ hpc rfl)]
    exact h.goto hover id fun _ h => by cases h
  | readCalled hpc hfd =>
    rw [if_neg (hnot _ hpc rfl)]
    exact h.goto hover id fun j hj => Pc.reading.inj hj ▸ hfd
  | read hpc hexp =>
    obtain ⟨hm, -, -⟩ := stepped_of_run (by rw [hpc]; exact nofun) hst
    rw [if_neg (hnot _ hpc rfl)]
    exact delaysInv_read h hover hpc hexp hm
  | innerLeft hpc ha =>
    rw [if_neg fun hi : Invokes t n => ha hi.2]
    exact h.goto hover id fun _ h => by cases h
  | @sendCalled o r m hpc ha hb =>
    obtain ⟨hq, hoff⟩ := quiet_of_sendBegin hb
    obtain ⟨-, hs, -, hserver⟩ := SentCallbacks.begins_of_sendBegin hb
    rw [if_pos (hcalls hpc ha), Quiet.perform (t := t.goto n (.sending r m)) hq]
    exact delaysInv_invoke h hover hpc ha hq hoff (.inr ⟨r, m, rfl, by rw [hserver]; exact hs⟩)
  | underflow hpc ha hb =>
    obtain ⟨hq, hoff⟩ := quiet_of_sendBegin hb
    rw [if_pos (hcalls hpc ha), hq.perform, ← hgoto hpc]
    exact delaysInv_invoke h hover hpc ha hq hoff (.inl rfl)
  | handled hpc ha hb ho =>
    subst ho
    have hlast : (∃ r : Request, t.server.internalState = r.waiting) →
        maxUnicastErrors ≤ t.server.currentTargetErrorsCount + 1 := by
      simp only [KeepsDelays, hpc] at hk
      exact hk ha
    obtain ⟨hq, hoff⟩ := @quiet_of_eventHandler cfg _ env ha hb hlast
    rw [if_pos (hcalls hpc ha), hq.perform, ← hgoto hpc]
    exact delaysInv_invoke h hover hpc ha hq hoff (.inl rfl)
  | sent hpc =>
    rw [if_neg (hnot _ hpc rfl)]
    refine delaysInv_sent h hover hpc ?_
    simpa only [KeepsDelays, hpc] using hk

theorem delaysInv_step (htx : cfg.txIntervalMs ≤ 999) {l : Label} (hl : LoopsInv t)
    (h : DelaysInv t g) (hk : KeepsDelays t l)
    (hst : (eventLoops cfg).step t l = some (t', as)) : DelaysInv t' (g.record t l as) := by
  cases loopsTrans_of_step hst with
  | initiated hi =>
    show DelaysInv _ (g.acts _)
    rw [acts_initiate hi]
    exact delaysInv_initiate hl h hi hk
  | refused => exact h
  | handled hi ho => exact delaysInv_handler htx hl h hk hi ho
  | expired hexp => exact delaysInv_expire h hexp
  | ran hst => exact delaysInv_thread hl h hk hst

theorem timerInv_init : TimerInv Loops.init Schedule.init where
  respected := ⟨fun _ h => (by cases h), List.nodup_nil, List.Pairwise.nil⟩
  arming _ h := by cases h
  submitted _ h := by cases h
  armed _ h := by cases h
  expired _ h := by cases h

theorem delaysInv_init : DelaysInv Loops.init Schedule.init where
  timer := timerInv_init
  reads _ _ h := by cases h
  behind _ h := by cases h
  inner _ h := by cases h
  sending _ _ _ h := by cases h

/-- The runs of the condition are runs in which every process starts alone. -/
theorem loopsInv_of_delays {p : Loops × Schedule}
    (h : (delays cfg).Reach (fun p l => KeepsDelays p.1 l) p) : LoopsInv p.1 := by
  have h' : (delays cfg).Reach (fun p l => StartsAlone p.1 l) p :=
    h.mono fun _ _ hk => startsAlone_of_keepsDelays hk
  exact loopsInv_of_reach (System.reach_fst_of_observe h')

/-- **Where no event is scheduled behind `read`, delays are respected.** -/
theorem delaysRespected_of_reach {p : Loops × Schedule} (htx : cfg.txIntervalMs ≤ 999)
    (h : (delays cfg).Reach (fun p l => KeepsDelays p.1 l) p) : DelaysRespected p.2 := by
  have hinv : DelaysInv p.1 p.2 := by
    refine System.Reach.invariant_of (I := fun p => DelaysInv p.1 p.2)
      (fun _ hp => loopsInv_of_delays hp) (fun p hp => ?_) (fun p l p' as hl hinv hk hst => ?_) h
    · rw [show p.1 = Loops.init from hp.1, hp.2]
      exact delaysInv_init
    · obtain ⟨hst', hg⟩ := System.observe_step hst
      rw [hg]
      exact delaysInv_step htx hl hinv hk hst'
  exact hinv.timer.respected

/-- From `poll` to the return of `emberMessageSend`, which answers `status`. -/
def submission (status : EmberStatus) : List Label :=
  [.expire 0, .thread 0 plainEnv, .thread 0 plainEnv, .thread 0 plainEnv, .thread 0 plainEnv,
    .thread 0 { plainEnv with sendStatus := status }]

/-- The handshake and the first segment. -/
def twoSubmissionsRun : List Label :=
  [.initiate (.initiateImageDistribution 5 96 7), .thread 0 plainEnv, .thread 0 plainEnv] ++
    submission emberSuccess ++
    [.thread 0 plainEnv, .thread 0 plainEnv,
      .handler (.messageSent emberSuccess (handshakeFrame plainEnv.stack
        (transferServer 5 96 7 .handshakeInterval 0))),
      .handler (.incomingMessage (handshakeResponse 5 respStatusOngoing 7))] ++
    submission emberSuccess

theorem delaysRespected_two_submissions : ∃ p : Loops × Schedule,
    p.2.submissions = [2, 1] ∧ DelaysRespected p.2 := by
  have h0 : (delays defaultConfig).Reach (fun p l => KeepsDelays p.1 l)
      (Loops.init, Schedule.init) := reach_delays_init _
  obtain ⟨p, hp, hs⟩ := System.exists_reach_of_exec twoSubmissionsRun (fun p => p.2.submissions)
    (b := [2, 1]) h0 (by decide +kernel)
  exact ⟨p, hs, delaysRespected_of_reach (by decide) hp⟩

/-- The handshake is refused, and the thread finds the event of its retry active. -/
def retryRun : List Label :=
  [.initiate (.initiateImageDistribution 5 96 7), .thread 0 plainEnv, .thread 0 plainEnv] ++
    submission 0x01 ++ [.thread 0 plainEnv, .thread 0 plainEnv]

/-- **The retry comes at once**: it was scheduled in 100 ms, and is submitted before the timer has
expired. -/
theorem retry_at_once : ∃ p : Loops × Schedule, (delays defaultConfig).Reach free p ∧
    p.1.timer 0 = .armed ∧ p.2.submissions = [1, 1] ∧ ¬ DelaysRespected p.2 := by
  have h0 : (delays defaultConfig).Reach free (Loops.init, Schedule.init) := reach_delays_init _
  obtain ⟨p, hp, hs⟩ := System.exists_reach_of_exec retryRun
    (fun p => (p.1.timer 0, p.2.submissions)) (b := (.armed, [1, 1])) h0 (by decide +kernel)
  obtain ⟨ht, hs⟩ := Prod.mk.inj hs
  refine ⟨p, hp, ht, hs, fun h => ?_⟩
  have hsep := h.separated
  rw [hs] at hsep
  simp at hsep

end ConnectNcpHost.Ota.Delays
