import ConnectNcpHost.Ota.Processes

/-! # A busy server has an event coming

`Host` is what the surroundings owe the server: an armed timer expires once, and every frame
`emberMessageSend` accepted is followed by one sent callback, in any order. `timerfd_settime` arms
the timer only with a valid `tv_nsec`. A server that is not idle waits for its timer or for the sent
callback of a frame it submitted (`HasEvent`), in every run with a transmission interval below one
second in which no accepted segment response takes the server into the waiting state without a
timer (`KeepsEvent`). -/

namespace ConnectNcpHost.Ota.Timer

open ConnectNcpHost.Lib.Runs ConnectNcpHost.Ota.Protocol ConnectNcpHost.Ota.BootloaderServer
open ConnectNcpHost.Ota.Transition ConnectNcpHost.Ota.Frames

variable {cfg : Config} {s : Server}

/-! ## The surroundings -/

/-- The timer, and the frames whose sent callback has not come yet. -/
structure Host where
  armed : Bool
  awaiting : List EmberOutgoingMessage

namespace Host

/-- The effect of an action. `timerfd_settime` disarms with zero and fails with a second or more. -/
def act (h : Host) : Action → Host
  | .timerfdCreate => { h with armed := false }
  | .timerfdSettime tvNsec =>
    if tvNsec = 0 then { h with armed := false }
    else if tvNsec ≤ 999999999 then { h with armed := true }
    else h
  | .messageSend m status =>
    if status = emberSuccess then { h with awaiting := h.awaiting ++ [m] } else h
  | _ => h

def acts (h : Host) (as : List Action) : Host := as.foldl act h

@[simp] theorem acts_nil (h : Host) : h.acts [] = h := rfl

theorem acts_append (h : Host) (as bs : List Action) : h.acts (as ++ bs) = (h.acts as).acts bs :=
  List.foldl_append ..

end Host

/-- What happens to the server and its surroundings. -/
inductive Stimulus
  /-- the armed timer expires -/
  | timerExpired (env : EventEnv)
  /-- the sent callback of the frame number `k` of those that await it -/
  | messageSent (status : EmberStatus) (k : ℕ)
  | other (i : Input)

/-- The input a stimulus is for the server, and what the surroundings still owe. -/
def Host.take (h : Host) : Stimulus → Option (Input × Host)
  | .timerExpired env =>
    if h.armed then some (.timerExpired env, { h with armed := false }) else none
  | .messageSent status k =>
    h.awaiting[k]?.map fun m => (.messageSent status m, { h with awaiting := h.awaiting.eraseIdx k })
  | .other (.timerExpired _) | .other (.messageSent _ _) => none
  | .other i => some (i, h)

/-- **The server with its timer and its sent callbacks.** -/
def timed (cfg : Config) : System (Server × Host) Stimulus Action where
  start p := p = (Server.init, ⟨false, []⟩)
  step p st := do
    let (i, h) ← p.2.take st
    let (s', as) ← (ota cfg).step p.1 i
    return ((s', h.acts as), as)

theorem reach_timed_init (cfg : Config) (ok : Server × Host → Stimulus → Prop) :
    (timed cfg).Reach ok (Server.init, ⟨false, []⟩) := .start rfl

theorem timed_step {p p' : Server × Host} {st : Stimulus} {as : List Action}
    (h : (timed cfg).step p st = some (p', as)) : ∃ i h, p.2.take st = some (i, h) ∧
      (ota cfg).step p.1 i = some (p'.1, as) ∧ p'.2 = h.acts as := by
  simp only [timed, Option.bind_eq_bind, Option.bind_eq_some_iff, Option.pure_def,
    Option.some.injEq, Prod.mk.injEq] at h
  obtain ⟨⟨i, h⟩, ht, ⟨s', as'⟩, hs, rfl, rfl⟩ := h
  exact ⟨i, h, ht, hs, rfl⟩

/-! ## The property and its condition -/

/-- The server has an event of its own coming: its timer is armed and its event active, or a frame
it submitted awaits its sent callback in the state that consumes this callback. -/
def HasEvent (s : Server) (h : Host) : Prop :=
  h.armed = true ∧ s.otaEventIsActive = true ∨
    ∃ m ∈ h.awaiting, ∃ r, Carries m r ∧ s.internalState = r.pending

/-- The accepted segment responses after which a timer runs: one with a status the server does not
handle must not come before the sent callback, and an ONGOING response must not come when the next
segment lies past the end of the image. -/
def KeepsEvent (s : Server) : Stimulus → Prop
  | .other (.incomingMessage m) => AcceptsSegmentResponse s m →
    (s.internalState = .segmentUnicastPending → respStatus m = respStatusCompleted ∨
      respStatus m = respStatusOngoing ∨ respStatus m = respStatusRefused ∨
      respStatus m = respStatusOutOfSeq) ∧
    (respStatus m = respStatusOngoing → respIndex m = s.sentSegment →
      s.nextSegment < getTotalSegmentsCount s)
  | _ => True

instance (s : Server) (st : Stimulus) : Decidable (KeepsEvent s st) := by
  rcases st with _ | _ | (_ | _ | _ | _ | _ | _ | _) <;> unfold KeepsEvent <;> infer_instance

/-! ## The invariant -/

/-- **Invariant.** The server is idle or in a state of a request; while it awaits a sent callback,
one is to come and no event is active, and in the other states the timer is armed and the event
active. -/
structure TimerInv (s : Server) (h : Host) : Prop where
  busy : s.internalState = .idle ∨ ∃ r, requestOf s.internalState = some r
  pending : ∀ {r : Request}, s.internalState = r.pending →
    s.otaEventIsActive = false ∧ ∃ m ∈ h.awaiting, Carries m r
  timer : ∀ {r : Request}, s.internalState = r.interval ∨ s.internalState = r.waiting →
    h.armed = true ∧ s.otaEventIsActive = true

theorem TimerInv.hasEvent {h : Host} (hi : TimerInv s h) (hs : s.internalState ≠ .idle) :
    HasEvent s h := by
  obtain ⟨r, hr⟩ := hi.busy.resolve_left hs
  rcases requestOf_eq_some_iff.mp hr with h1 | h1 | h1
  · exact .inl (hi.timer (.inl h1))
  · obtain ⟨-, m, hm, hc⟩ := hi.pending h1
    exact .inr ⟨m, hm, r, hc, h1⟩
  · exact .inl (hi.timer (.inr h1))

theorem timerInv_finished (s : Server) (h : Host) : TimerInv (finished s) h where
  busy := .inl rfl
  pending hs := absurd hs idle_ne.2.1
  timer hs := by rcases hs with hs | hs <;> [exact absurd hs idle_ne.1; exact absurd hs idle_ne.2.2]

/-- A scheduled event in an interval or waiting state. -/
theorem timerInv_of_armed {h : Host} {r : Request}
    (hst : s.internalState = r.interval ∨ s.internalState = r.waiting) (ha : h.armed = true)
    (hact : s.otaEventIsActive = true) : TimerInv s h where
  busy := .inr ⟨r, requestOf_eq_some_iff.mpr (hst.imp_right .inr)⟩
  pending {r'} hs := by
    rcases hst with hst | hst
    · exact absurd (hst.symm.trans hs) (interval_ne_pending r r')
    · exact absurd (hst.symm.trans hs) (waiting_ne_pending r r')
  timer _ := ⟨ha, hact⟩

/-- `sli_connect_ota_unicast_server_schedule_next_event` arms the timer below one second. -/
theorem armed_settime {timeMs : UInt16} (hle : timeMs ≤ 999) (h : Host) (as : List Action) :
    (h.acts (as ++ [.timerfdSettime (tvNsec timeMs)])).armed = true := by
  have hn := tvNsec_range hle
  rw [Host.acts_append]
  simp only [Host.acts, List.foldl_cons, List.foldl_nil, Host.act, hn.1, hn.2, if_true, if_false]

theorem timerInv_failed (htx : cfg.txIntervalMs ≤ 999) {r : Request} {o : Outcome}
    (ho : Failed cfg r s o) (h : Host) (as : List Action) :
    TimerInv o.server (h.acts (as ++ o.actions)) := by
  cases ho with
  | retried _ _ => exact timerInv_of_armed (.inl rfl) (armed_settime htx h as) rfl
  | gaveUp _ => exact timerInv_finished s _

theorem timerInv_call {i : Input} {o : Outcome} {h : Host} (hinv : TimerInv s h)
    (ht : CallTrans s i o) : TimerInv o.server (h.acts o.actions) := by
  cases ht with
  | refused _ _ => exact hinv
  | aborted _ _ => exact timerInv_finished s _
  | imageStarted _ _ _ _ => exact timerInv_of_armed (r := .handshake) (.inl rfl) rfl rfl
  | bootloadStarted _ _ => exact timerInv_of_armed (r := .bootloadRequest) (.inl rfl) rfl rfl

theorem timerInv_message (htx : cfg.txIntervalMs ≤ 999) {m : EmberIncomingMessage} {o : Outcome}
    {h : Host} (hinv : TimerInv s h) (hk : KeepsEvent s (.other (.incomingMessage m)))
    (ht : MessageTrans cfg s m o) : TimerInv o.server (h.acts o.actions) := by
  cases ht with
  | ignored _ _ _ => exact hinv
  | handshakeEnded _ _ => exact timerInv_finished s _
  | segmentEnded _ _ => exact timerInv_finished s _
  | bootloadAnswered _ => exact timerInv_finished s _
  | handshakeAccepted _ _ ho => exact timerInv_failed htx ho h []
  | segmentAdvanced _ _ _ _ =>
    exact timerInv_of_armed (r := .imageSegment) (.inl rfl) (armed_settime htx h []) rfl
  | segmentWrapped ha hst hi hn => exact absurd ((hk ha).2 hst hi) hn
  | segmentIgnored ha hst =>
    have hw : s.internalState = .segmentUnicastWaitingResponse := by
      refine ha.state.resolve_left fun hp => ?_
      rcases (hk ha).1 hp with h | h | h | h
      · exact hst.2.2.2 h
      · exact hst.2.2.1 h
      · exact hst.2.1 h
      · exact hst.1 h
    have ha' := hinv.timer (r := .imageSegment) (.inr hw)
    exact ⟨.inr ⟨.imageSegment, rfl⟩, fun hs => absurd hs (waiting_ne_pending .imageSegment _),
      fun _ => ha'⟩

/-- The sent callback of the frame number `k`. -/
theorem timerInv_sent (htx : cfg.txIntervalMs ≤ 999) {status : EmberStatus} {k : ℕ}
    {m : EmberOutgoingMessage} {o : Outcome} {h : Host} (hinv : TimerInv s h)
    (hm : h.awaiting[k]? = some m) (ht : SentTrans cfg s status m o) :
    TimerInv o.server ({ h with awaiting := h.awaiting.eraseIdx k }.acts o.actions) := by
  cases ht with
  | ignored hn =>
    refine ⟨hinv.busy, fun {r} hs => ?_, hinv.timer⟩
    obtain ⟨hact, m', hm', hc⟩ := hinv.pending hs
    -- the frame that is awaited is another one: it carries the pending request
    obtain ⟨j, hj⟩ := List.getElem?_of_mem hm'
    refine ⟨hact, m', List.mem_eraseIdx_iff_getElem?.mpr ⟨j, fun he => ?_, hj⟩, hc⟩
    have : m' = m := Option.some.inj (hj.symm.trans (he ▸ hm))
    exact hn r (this ▸ hc) hs
  | succeeded _ _ _ =>
    exact timerInv_of_armed (.inr rfl) (armed_settime (by decide) _ []) rfl
  | failed _ _ _ _ ho => exact timerInv_failed htx ho _ []

/-- The event handler; its timer may have expired. -/
theorem timerInv_event (htx : cfg.txIntervalMs ≤ 999) {env : EventEnv} {o : Outcome} {h : Host}
    (hbusy : s.internalState = .idle ∨ ∃ r, requestOf s.internalState = some r)
    (hpending : ∀ {r : Request}, s.internalState = r.pending →
      s.otaEventIsActive = false ∧ ∃ m ∈ h.awaiting, Carries m r)
    (ht : EventTrans cfg s env o) : TimerInv o.server (h.acts o.actions) := by
  cases ht with
  | underflow _ => exact timerInv_finished s _
  | @notSubmitted r m o _ _ _ ho => exact timerInv_failed htx ho h _
  | timedOut _ ho => exact timerInv_failed htx ho h []
  | idle hs =>
    refine ⟨hbusy, fun hp => ⟨rfl, (hpending hp).2⟩, fun h => ?_⟩
    rcases h with h | h
    · exact absurd h (hs _).1
    · exact absurd h (hs _).2
  | @submitted r m hs hf _ =>
    have hst := Request.submitted_internalState r { s with otaEventIsActive := false }
    refine ⟨.inr ⟨r, hst ▸ requestOf_pending r⟩, fun {r'} hs => ⟨?_, m, ?_, ?_⟩, fun {r'} hs => ?_⟩
    · cases r <;> rfl
    · simp [Host.acts, Host.act]
    · have he : r = r' := by
        have := congrArg requestOf (hst.symm.trans hs)
        simpa using this
      exact he ▸ carries_of_isFrame hf
    · rcases hs with hs | hs
      · exact absurd (hs.symm.trans hst) (interval_ne_pending r' r)
      · exact absurd (hs.symm.trans hst) (waiting_ne_pending r' r)

/-- An expiry that finds no active event: the server is idle or awaits a sent callback. -/
theorem timerInv_ignored {h : Host} (hinv : TimerInv s h) (ha : s.otaEventIsActive = false) :
    TimerInv s { h with armed := false } where
  busy := hinv.busy
  pending := hinv.pending
  timer hs := by cases ha.symm.trans (hinv.timer hs).2

theorem timerInv_step (htx : cfg.txIntervalMs ≤ 999) {st : Stimulus} {i : Input} {o : Outcome}
    {h0 h : Host} (hinv : TimerInv s h0) (hk : KeepsEvent s st) (htake : h0.take st = some (i, h))
    (ht : Trans cfg s i o) : TimerInv o.server (h.acts o.actions) := by
  cases st with
  | messageSent status k =>
    simp only [Host.take, Option.map_eq_some_iff, Prod.mk.injEq] at htake
    obtain ⟨m, hm, rfl, rfl⟩ := htake
    exact timerInv_sent htx hinv hm ht.sentTrans
  | timerExpired env =>
    simp only [Host.take, Option.ite_none_right_eq_some, Option.some.injEq, Prod.mk.injEq] at htake
    obtain ⟨-, rfl, rfl⟩ := htake
    cases ht with
    | timer _ ht => exact timerInv_event htx hinv.busy hinv.pending ht
    | timerIgnored ha => exact timerInv_ignored hinv ha
    | call ht => cases ht with | refused hi _ => cases hi
  | other j =>
    have hi : i = j ∧ h = h0 := by cases j <;> simp_all [Host.take]
    obtain ⟨rfl, rfl⟩ := hi
    cases ht with
    | call ht => exact timerInv_call hinv ht
    | message ht => exact timerInv_message htx hinv hk ht
    | event _ ht => exact timerInv_event htx hinv.busy hinv.pending ht
    | sent _ => cases htake
    | timer _ _ => cases htake
    | timerIgnored _ => cases htake

theorem timerInv_of_reach (htx : cfg.txIntervalMs ≤ 999) {p : Server × Host}
    (h : (timed cfg).Reach (fun p st => KeepsEvent p.1 st) p) : TimerInv p.1 p.2 := by
  refine System.Reach.invariant (I := fun p => TimerInv p.1 p.2) (fun p hp => ?_)
    (fun p st p' as _ hinv hk hst => ?_) h
  · rw [show p = (Server.init, ⟨false, []⟩) from hp]
    exact timerInv_finished Server.init _
  · obtain ⟨i, h, htake, hstep, hh⟩ := timed_step hst
    rw [hh]
    exact timerInv_step htx hinv hk htake (trans_of_step hstep)

/-- **A server that is not idle has an event coming**, at intervals below one second and while no
accepted segment response takes its timer away. -/
theorem hasEvent_of_busy (htx : cfg.txIntervalMs ≤ 999) {p : Server × Host}
    (h : (timed cfg).Reach (fun p st => KeepsEvent p.1 st) p) (hs : p.1.internalState ≠ .idle) :
    HasEvent p.1 p.2 :=
  (timerInv_of_reach htx h).hasEvent hs

/-- **The condition on the responses is sharp**: any other accepted segment response leaves the
server busy without an event. -/
theorem not_hasEvent_of_not_keepsEvent (htx : cfg.txIntervalMs ≤ 999) {p p' : Server × Host}
    {st : Stimulus} {as : List Action} (h : (timed cfg).Reach (fun p st => KeepsEvent p.1 st) p)
    (hk : ¬ KeepsEvent p.1 st) (hst : (timed cfg).step p st = some (p', as)) :
    p'.1.internalState = .segmentUnicastWaitingResponse ∧ ¬ HasEvent p'.1 p'.2 := by
  obtain ⟨i, h0, htake, hstep, -⟩ := timed_step hst
  have hinv := timerInv_of_reach htx h
  obtain ⟨s', h'⟩ := p'
  -- in the waiting state without an active event nothing is to come
  have hno : s'.internalState = .segmentUnicastWaitingResponse → s'.otaEventIsActive = false →
      s'.internalState = .segmentUnicastWaitingResponse ∧ ¬ HasEvent s' h' := by
    refine fun hw ha => ⟨hw, ?_⟩
    rintro (⟨-, ha'⟩ | ⟨-, -, r, -, hp⟩)
    · cases ha.symm.trans ha'
    · exact waiting_ne_pending .imageSegment r (hw.symm.trans hp)
  obtain ⟨m, rfl⟩ : ∃ m, st = .other (.incomingMessage m) := by
    rcases st with _ | _ | (_ | _ | _ | m | _ | _ | _)
    case other.incomingMessage => exact ⟨m, rfl⟩
    all_goals exact absurd trivial hk
  obtain ⟨rfl, rfl⟩ : .incomingMessage m = i ∧ p.2 = h0 := by simpa [Host.take] using htake
  have hk' : AcceptsSegmentResponse p.1 m ∧ _ := Classical.not_imp.mp hk
  obtain ⟨ha, hk'⟩ := hk'
  cases (trans_of_step hstep).messageTrans with
  | ignored _ hn _ => exact absurd ha hn
  | segmentWrapped _ _ _ _ => exact hno rfl rfl
  | segmentIgnored _ hst' =>
    by_cases hp : p.1.internalState = .segmentUnicastPending
    · exact hno rfl (hinv.pending (r := .imageSegment) hp).1
    · exact absurd ⟨fun hp' => absurd hp' hp, fun ho => absurd ho hst'.2.2.1⟩ hk'
  | segmentAdvanced _ ho _ hn => exact absurd ⟨fun _ => .inr (.inl ho), fun _ _ => hn⟩ hk'
  | segmentEnded _ he =>
    refine absurd ?_ hk'
    cases he with
    | outOfSeq h =>
      exact ⟨fun _ => .inr (.inr (.inr h)), fun ho => absurd (h.symm.trans ho) (by decide)⟩
    | refused h =>
      exact ⟨fun _ => .inr (.inr (.inl h)), fun ho => absurd (h.symm.trans ho) (by decide)⟩
    | mismatch h hi => exact ⟨fun _ => .inr (.inl h), fun _ hi' => absurd hi' hi⟩
    | completed h => exact ⟨fun _ => .inl h, fun ho => absurd (h.symm.trans ho) (by decide)⟩
  | handshakeEnded hh _ => cases ha.requestOf_eq.symm.trans (congrArg requestOf hh.state)
  | handshakeAccepted hh _ _ => cases ha.requestOf_eq.symm.trans (congrArg requestOf hh.state)
  | bootloadAnswered hb => cases ha.requestOf_eq.symm.trans (congrArg requestOf hb.state)

/-- From `Initiate` to the submission of the first segment. -/
def submissionRun (target : EmberNodeId) (imageSize : UInt32) (imageTag : UInt8) : List Stimulus :=
  [.other (.initiateImageDistribution target imageSize imageTag), .timerExpired plainEnv,
    .messageSent emberSuccess 0,
    .other (.incomingMessage (handshakeResponse target respStatusOngoing imageTag)),
    .timerExpired plainEnv]

/-- The first segment is answered before its sent callback, and the second one is refused once: then
it is pending, and so are both sent callbacks. -/
theorem hasEvent_of_busy_pending : ∃ p : Server × Host,
    p.1.internalState = .segmentUnicastPending ∧ p.2.awaiting.length = 2 ∧ HasEvent p.1 p.2 := by
  obtain ⟨p, hp, hf⟩ := System.exists_reach_of_exec (b := (.segmentUnicastPending, 2))
    (submissionRun 5 100 7 ++ [.other (.incomingMessage (segmentResponse 5 respStatusOngoing 7 0)),
      .timerExpired { plainEnv with sendStatus := 1 }, .timerExpired plainEnv])
    (fun p => (p.1.internalState, p.2.awaiting.length))
    (reach_timed_init defaultConfig fun p st => KeepsEvent p.1 st) (by decide +kernel)
  obtain ⟨hs, hawaiting⟩ := Prod.mk.inj hf
  exact ⟨p, hs, hawaiting, hasEvent_of_busy (by decide) hp (by rw [hs]; decide)⟩

/-- The configuration with the longest transmission interval. -/
def slowestConfig : Config := ⟨1000, by decide, by decide⟩

/-- **A busy server can be left without an event**: by a response with status FAILED before the sent
callback of the segment, and, at an interval of one second, by a submission that is refused. -/
theorem busy_without_event :
    (∃ p, (timed defaultConfig).Reach free p ∧ p.1.internalState ≠ .idle ∧ ¬ HasEvent p.1 p.2) ∧
      ∃ p, (timed slowestConfig).Reach (fun p st => KeepsEvent p.1 st) p ∧
        p.1.internalState ≠ .idle ∧ ¬ HasEvent p.1 p.2 := by
  have hno : ∀ {p : Server × Host} {r : Request}, p.2.armed = false →
      p.1.internalState = r.interval ∨ p.1.internalState = r.waiting → ¬ HasEvent p.1 p.2 := by
    rintro p r ha hs (⟨ha', -⟩ | ⟨-, -, r', -, hp⟩)
    · cases ha.symm.trans ha'
    · rcases hs with hs | hs
      · exact interval_ne_pending r r' (hs.symm.trans hp)
      · exact waiting_ne_pending r r' (hs.symm.trans hp)
  constructor
  · obtain ⟨p, hp, hf⟩ := System.exists_reach_of_exec (b := (.segmentUnicastWaitingResponse, false))
      (submissionRun 5 100 7 ++ [.other (.incomingMessage (segmentResponse 5 respStatusFailed 7 0))])
      (fun p => (p.1.internalState, p.2.armed)) (reach_timed_init defaultConfig free)
      (by decide +kernel)
    obtain ⟨hw, ha⟩ := Prod.mk.inj hf
    exact ⟨p, hp, by rw [hw]; decide, hno (r := .imageSegment) ha (.inr hw)⟩
  · obtain ⟨p, hp, hf⟩ := System.exists_reach_of_exec (b := (.handshakeInterval, false))
      [.other (.initiateImageDistribution 5 100 7), .timerExpired { plainEnv with sendStatus := 1 }]
      (fun p => (p.1.internalState, p.2.armed))
      (reach_timed_init slowestConfig fun p st => KeepsEvent p.1 st) (by decide +kernel)
    obtain ⟨hw, ha⟩ := Prod.mk.inj hf
    exact ⟨p, hp, by rw [hw]; decide, hno (r := .handshake) ha (.inl hw)⟩

end ConnectNcpHost.Ota.Timer
