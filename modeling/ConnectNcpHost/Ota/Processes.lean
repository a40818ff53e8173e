import ConnectNcpHost.Ota.Frames

/-! # The process a server runs, and its abort

A history variable remembers the kind of the process started last. A server that is not idle is in
a state of a request of that process (`ProcessInv`); the two COMPLETED states are never entered.
The predicates the abort call tests cover the states of two of the three requests: it does what its
documentation says in every reachable state but those of the handshake (`abortCovers_iff`). -/

namespace ConnectNcpHost.Ota.Processes

open ConnectNcpHost.Lib.Runs ConnectNcpHost.Ota.Protocol
open ConnectNcpHost.Ota.BootloaderServer ConnectNcpHost.Ota.Transition ConnectNcpHost.Ota.Frames

variable {cfg : Config} {s : Server}

/-! ## The running process -/

/-- The API call returned SUCCESS. -/
def succeeded (as : List Action) : Bool :=
  as.any fun a => match a with
    | .returned .success => true
    | _ => false

theorem succeeded_refused {st : EmberAfOtaUnicastBootloaderStatus}
    (h : st = .busy ∧ s.internalState ≠ .idle ∨ st = .invalidCall) :
    succeeded [.returned st] = false := by
  rcases h with ⟨rfl, -⟩ | rfl <;> rfl

/-- The kind of the process started last: set by an `Initiate` call that succeeds. -/
def started (running : Option Process) (_ : Server) : Input → List Action → Option Process
  | .initiateImageDistribution _ _ _, as =>
    if succeeded as then some .imageDistribution else running
  | .initiateRequestTargetBootload _ _ _ _, as =>
    if succeeded as then some .bootloadRequest else running
  | _, _ => running

/-- A successful `Initiate`. -/
def begins : Input → List Action → Bool
  | .initiateImageDistribution _ _ _, as | .initiateRequestTargetBootload _ _ _ _, as =>
    succeeded as
  | _, _ => false

/-- The server, with the process started last. -/
def running (cfg : Config) : System (Server × Option Process) Input Action :=
  (ota cfg).observe none started

theorem reach_running_init (cfg : Config) : (running cfg).Reach free (Server.init, none) :=
  .start ⟨rfl, rfl⟩

/-- A step within a process: it ends it, keeps the state, or goes to a state of the same process. -/
inductive Continues (s : Server) : Server → Prop
  | ended {s' : Server} (h : s'.internalState = .idle) : Continues s s'
  | kept {s' : Server} (h : s'.internalState = s.internalState) : Continues s s'
  | moved {s' : Server} (r r' : Request) (h : requestOf s.internalState = some r)
      (h' : requestOf s'.internalState = some r') (hp : r'.process = r.process) : Continues s s'

theorem continues_failed {s1 : Server} (r r' : Request) {o : Outcome}
    (h : requestOf s.internalState = some r) (hp : r'.process = r.process)
    (ho : Failed cfg r' s1 o) : Continues s o.server := by
  cases ho with
  | retried _ _ => exact .moved r r' h (requestOf_interval r') hp
  | gaveUp _ => exact .ended rfl

theorem continues_message {m : EmberIncomingMessage} {o : Outcome} (ht : MessageTrans cfg s m o) :
    Continues s o.server := by
  cases ht with
  | ignored _ _ _ => exact .kept rfl
  | handshakeEnded _ _ => exact .ended rfl
  | segmentEnded _ _ => exact .ended rfl
  | bootloadAnswered _ => exact .ended rfl
  | handshakeAccepted h _ ho =>
    exact continues_failed .handshake .imageSegment (congrArg requestOf h.state) rfl ho
  | segmentAdvanced h _ _ _ => exact .moved .imageSegment .imageSegment h.requestOf_eq rfl rfl
  | segmentWrapped h _ _ _ => exact .moved .imageSegment .imageSegment h.requestOf_eq rfl rfl
  | segmentIgnored h _ => exact .moved .imageSegment .imageSegment h.requestOf_eq rfl rfl

theorem continues_sent {status : EmberStatus} {m : EmberOutgoingMessage} {o : Outcome}
    (ht : SentTrans cfg s status m o) : Continues s o.server := by
  cases ht with
  | ignored _ => exact .kept rfl
  | @succeeded r _ hs _ =>
    exact .moved r r (hs ▸ requestOf_pending r) (requestOf_waiting r) rfl
  | @failed r _ _ _ hs _ _ ho => exact continues_failed r r (hs ▸ requestOf_pending r) rfl ho

theorem continues_event {env : EventEnv} {o : Outcome} (ht : EventTrans cfg s env o) :
    Continues s o.server := by
  cases ht with
  | underflow _ => exact .ended rfl
  | @submitted r _ hs _ _ =>
    have h' : requestOf (r.submitted { s with otaEventIsActive := false }).internalState = some r := by
      rw [Request.submitted_internalState, requestOf_pending]
    exact .moved r r (hs ▸ requestOf_interval r) h' rfl
  | @notSubmitted r _ o hs _ _ ho =>
    show Continues s o.server
    exact continues_failed r r (hs ▸ requestOf_interval r) rfl ho
  | @timedOut r _ hs ho => exact continues_failed r r (hs ▸ requestOf_waiting r) rfl ho
  | idle _ => exact .kept rfl

/-- **Invariant.** A server that is not idle is in a state of the process started last. -/
def ProcessInv (p : Server × Option Process) : Prop :=
  p.1.internalState = .idle ∨
    ∃ r, requestOf p.1.internalState = some r ∧ p.2 = some r.process

theorem ProcessInv.continues {s' : Server} {g : Option Process} (h : ProcessInv (s, g))
    (hc : Continues s s') : ProcessInv (s', g) := by
  cases hc with
  | ended hs => exact .inl hs
  | kept hs => unfold ProcessInv at h ⊢; rwa [hs]
  | @moved r r' hr hr' hp =>
    rcases h with h | ⟨r1, h1, hg⟩
    · rw [show s.internalState = .idle from h] at hr; cases hr
    · have he : r = r1 := Option.some.inj (hr.symm.trans h1)
      exact .inr ⟨r', hr', by rw [hg, hp, he]⟩

theorem processInv_call {i : Input} {o : Outcome} {g : Option Process} (h : ProcessInv (s, g))
    (ht : CallTrans s i o) : ProcessInv (o.server, started g s i o.actions) := by
  cases ht with
  | aborted _ _ => exact .inl rfl
  | imageStarted _ _ _ _ => exact .inr ⟨.handshake, rfl, rfl⟩
  | bootloadStarted _ _ => exact .inr ⟨.bootloadRequest, rfl, rfl⟩
  | @refused i st hi hst =>
    have hg : started g s i [.returned st] = g := by
      cases hi <;> simp [started, succeeded_refused hst]
    show ProcessInv (s, started g s i [.returned st])
    rw [hg]
    exact h

theorem processInv_of_reach {p : Server × Option Process} (h : (running cfg).Reach free p) :
    ProcessInv p := by
  refine System.Reach.invariant (I := ProcessInv) (fun p hp => .inl ?_)
    (fun p i p' as _ h _ hst => ?_) h
  · rw [show p.1 = Server.init from hp.1]; rfl
  · obtain ⟨hs, hg⟩ := System.observe_step hst
    obtain ⟨s, g⟩ := p
    obtain ⟨s', g'⟩ := p'
    subst hg
    cases trans_of_step hs with
    | call ht => exact processInv_call h ht
    | message ht => exact h.continues (continues_message ht)
    | sent ht => exact h.continues (continues_sent ht)
    | timer _ ht => exact h.continues (continues_event ht)
    | timerIgnored _ => exact h
    | event _ ht => exact h.continues (continues_event ht)

/-! ## Completion -/

/-- A completion callback, of either kind. -/
def isCompletion : Action → Bool
  | .imageDistributionComplete _ | .requestTargetBootloadComplete _ => true
  | _ => false

/-- A completion callback was invoked. -/
def completed (as : List Action) : Bool := as.any isCompletion

/-- A completion leaves the server idle, there is no second one, and no assertion fails. -/
structure EndsWell (o : Outcome) : Prop where
  idle : completed o.actions = true → o.server.internalState = .idle
  single : o.actions.countP isCompletion ≤ 1
  noAssert : .assertFailed ∉ o.actions

theorem isCompletion_complete (p : Process) (st : EmberAfOtaUnicastBootloaderStatus) :
    isCompletion (p.complete st) = true ∧ p.complete st ≠ .assertFailed := by
  cases p <;> exact ⟨rfl, by intro h; cases h⟩

theorem countP_of_not_completed {as : List Action} (hc : completed as = false) :
    as.countP isCompletion = 0 :=
  List.countP_eq_zero.mpr fun a ha => by simpa using List.any_eq_false.mp hc a ha

theorem endsWell_of_not_completed {o : Outcome} (hc : completed o.actions = false)
    (h : .assertFailed ∉ o.actions) : EndsWell o :=
  ⟨fun hc' => absurd (hc.symm.trans hc') (by decide), by rw [countP_of_not_completed hc]; decide, h⟩

/-- The callback of a process is called once, and among other actions. -/
theorem endsWell_complete {s : Server} (before : List Action) (p : Process)
    {st : EmberAfOtaUnicastBootloaderStatus} (after : List Action) (hs : s.internalState = .idle)
    (hc : completed (before ++ after) = false) (ha : .assertFailed ∉ before ++ after) :
    EndsWell ⟨s, before ++ p.complete st :: after⟩ := by
  obtain ⟨hcomplete, hassert⟩ := isCompletion_complete p st
  have hcount := countP_of_not_completed hc
  rw [List.countP_append] at hcount
  refine ⟨fun _ => hs, ?_, fun hm => ?_⟩
  · rw [List.countP_append, List.countP_cons_of_pos hcomplete]
    omega
  · rcases List.mem_append.mp hm with hm | hm
    · exact ha (List.mem_append_left _ hm)
    · rcases List.mem_cons.mp hm with he | hm
      · exact hassert he.symm
      · exact ha (List.mem_append_right _ hm)

theorem endsWell_failed {r : Request} {o : Outcome} (ho : Failed cfg r s o) : EndsWell o := by
  cases ho with
  | retried _ _ => exact endsWell_of_not_completed rfl (by simp)
  | gaveUp _ => exact endsWell_complete [] _ [] rfl rfl List.not_mem_nil

theorem endsWell_prelude {o : Outcome} (h : EndsWell o) (r : Request) (m : EmberOutgoingMessage)
    (status : EmberStatus) : EndsWell (o.after (r.prelude s ++ [.messageSend m status])) := by
  have hp : completed (r.prelude s ++ [.messageSend m status]) = false := by cases r <;> rfl
  refine ⟨fun hc => h.idle ?_, ?_, ?_⟩
  · rw [Outcome.actions_after, completed, List.any_append, Bool.or_eq_true] at hc
    exact hc.resolve_left (by rw [← completed, hp]; decide)
  · rw [Outcome.actions_after, List.countP_append, countP_of_not_completed hp, Nat.zero_add]
    exact h.single
  · have := h.noAssert
    cases r <;> simpa [Request.prelude, segmentCallback] using this

/-- **No handler, run to its end, fails an assertion or completes twice, and a completion leaves the
server idle.** -/
theorem endsWell_of_trans {i : Input} {o : Outcome} (ht : Trans cfg s i o) : EndsWell o := by
  have hevent : ∀ {env}, EventTrans cfg s env o → EndsWell o := by
    intro env ht
    cases ht with
    | underflow _ =>
      exact endsWell_complete [segmentCallback s] .imageDistribution [] rfl rfl
        (by simp [segmentCallback])
    | @submitted r m _ _ _ =>
      have h := endsWell_prelude (s := s) (o := ⟨r.submitted { s with otaEventIsActive := false }, []⟩)
        (endsWell_of_not_completed rfl (by simp)) r m emberSuccess
      simpa [Outcome.after] using h
    | notSubmitted _ _ _ ho => exact endsWell_prelude (endsWell_failed ho) _ _ _
    | timedOut _ ho => exact endsWell_failed ho
    | idle _ => exact endsWell_of_not_completed rfl (by simp)
  cases ht with
  | call ht =>
    cases ht with
    | aborted _ _ => exact endsWell_complete [] _ [.returned .success] rfl rfl (by simp)
    | _ => exact endsWell_of_not_completed rfl (by simp)
  | message ht =>
    cases ht with
    | handshakeAccepted _ _ ho => exact endsWell_failed ho
    | handshakeEnded _ _ => exact endsWell_complete [] .imageDistribution [] rfl rfl List.not_mem_nil
    | segmentEnded _ _ => exact endsWell_complete [] .imageDistribution [] rfl rfl List.not_mem_nil
    | bootloadAnswered _ => exact endsWell_complete [] .bootloadRequest [] rfl rfl List.not_mem_nil
    | _ => exact endsWell_of_not_completed rfl (by simp)
  | sent ht =>
    cases ht with
    | failed _ _ _ _ ho => exact endsWell_failed ho
    | _ => exact endsWell_of_not_completed rfl (by simp)
  | timer _ ht => exact hevent ht
  | timerIgnored _ => exact endsWell_of_not_completed rfl (by simp)
  | event _ ht => exact hevent ht

/-- An idle server stays idle and completes nothing, but for a successful `Initiate`. -/
theorem idle_of_trans {i : Input} {o : Outcome} (hs : s.internalState = .idle)
    (ht : Trans cfg s i o) : completed o.actions = false ∧
      (succeeded o.actions = true ∨ o.server.internalState = .idle) := by
  have hnone : ∀ {r : Request}, requestOf s.internalState ≠ some r := by rw [hs]; intro r h; cases h
  have hevent : ∀ {env}, EventTrans cfg s env o → completed o.actions = false ∧
      (succeeded o.actions = true ∨ o.server.internalState = .idle) := by
    intro env ht
    cases ht with
    | idle _ => exact ⟨rfl, .inr hs⟩
    | underflow h => cases hs.symm.trans h
    | submitted h _ _ => exact absurd (hs.symm.trans h) idle_ne.1
    | notSubmitted h _ _ _ => exact absurd (hs.symm.trans h) idle_ne.1
    | timedOut h _ => exact absurd (hs.symm.trans h) idle_ne.2.2
  cases ht with
  | call ht =>
    cases ht with
    | refused _ _ => exact ⟨rfl, .inr hs⟩
    | imageStarted _ _ _ _ => exact ⟨rfl, .inl rfl⟩
    | bootloadStarted _ _ => exact ⟨rfl, .inl rfl⟩
    | aborted _ h => exact absurd h hnone
  | message ht =>
    cases ht with
    | ignored _ _ _ => exact ⟨rfl, .inr hs⟩
    | handshakeEnded h _ => exact absurd (congrArg requestOf h.state) hnone
    | handshakeAccepted h _ _ => exact absurd (congrArg requestOf h.state) hnone
    | segmentEnded h _ => exact absurd h.requestOf_eq hnone
    | segmentAdvanced h _ _ _ => exact absurd h.requestOf_eq hnone
    | segmentWrapped h _ _ _ => exact absurd h.requestOf_eq hnone
    | segmentIgnored h _ => exact absurd h.requestOf_eq hnone
    | bootloadAnswered h => exact absurd (congrArg requestOf h.state) hnone
  | sent ht =>
    cases ht with
    | ignored _ => exact ⟨rfl, .inr hs⟩
    | succeeded _ h _ => exact absurd (hs.symm.trans h) idle_ne.2.1
    | failed _ h _ _ _ => exact absurd (hs.symm.trans h) idle_ne.2.1
  | timer _ ht => exact hevent ht
  | timerIgnored _ => exact ⟨rfl, .inr hs⟩
  | event _ ht => exact hevent ht

/-! ## Abort -/

/-- What `emberAfPluginOtaUnicastBootloaderServerAbortCurrentProcess` promises: it is refused, and
does nothing, exactly when the server is idle; otherwise it ends the running process. -/
structure AbortCovers (s : Server) (running : Option Process) : Prop where
  refused_iff : emberAfPluginOtaUnicastBootloaderServerAbortCurrentProcess s =
    (.invalidCall, ⟨s, []⟩) ↔ s.serverIsIdle
  aborts : ¬ s.serverIsIdle → ∃ p, running = some p ∧
    (emberAfPluginOtaUnicastBootloaderServerAbortCurrentProcess s).1 = .success ∧
    (emberAfPluginOtaUnicastBootloaderServerAbortCurrentProcess s).2.server.serverIsIdle ∧
    (emberAfPluginOtaUnicastBootloaderServerAbortCurrentProcess s).2.server.otaEventIsActive =
      false ∧
    (emberAfPluginOtaUnicastBootloaderServerAbortCurrentProcess s).2.actions =
      [p.complete .aborted]

/-- The abort call, by the request of the state. -/
theorem abort_eq (s : Server) : emberAfPluginOtaUnicastBootloaderServerAbortCurrentProcess s =
    match requestOf s.internalState with
    | some .imageSegment => (.success, ⟨finished s, [.imageDistributionComplete .aborted]⟩)
    | some .bootloadRequest => (.success, ⟨finished s, [.requestTargetBootloadComplete .aborted]⟩)
    | _ => (.invalidCall, ⟨s, []⟩) := by
  unfold emberAfPluginOtaUnicastBootloaderServerAbortCurrentProcess
  simp only [serverInImageDistributionProcess_iff, serverInBootloadRequestProcess_iff]
  rcases requestOf s.internalState with _ | _ | _ | _ <;> rfl

/-- **In every reachable state the abort call does what it promises, but in the three states of the
handshake.** -/
theorem abortCovers_iff {running' : Option Process} (h : (running cfg).Reach free (s, running')) :
    AbortCovers s running' ↔ requestOf s.internalState ≠ some .handshake := by
  have hinv := processInv_of_reach h
  have heq := abort_eq s
  constructor
  · intro hc hr
    have hidle : s.serverIsIdle := hc.refused_iff.mp (by rw [heq, hr])
    rw [show s.internalState = .idle from hidle] at hr
    cases hr
  · intro hr
    rcases hinv with hidle | ⟨r, hreq, hg⟩
    · rw [show requestOf s.internalState = none by rw [show s.internalState = .idle from hidle]; rfl]
        at heq
      exact ⟨⟨fun _ => hidle, fun _ => heq⟩, fun hn => absurd hidle hn⟩
    · have hbusy : ¬ s.serverIsIdle := fun hi => by
        rw [show s.internalState = .idle from hi] at hreq; cases hreq
      rw [show requestOf s.internalState = some r from hreq] at heq hr
      refine ⟨⟨fun he => ?_, fun hi => absurd hi hbusy⟩, fun _ => ⟨r.process, hg, ?_⟩⟩
      · cases r with
        | handshake => exact absurd rfl hr
        | imageSegment => rw [heq] at he; cases he
        | bootloadRequest => rw [heq] at he; cases he
      · cases r with
        | handshake => exact absurd rfl hr
        | imageSegment => rw [heq]; exact ⟨rfl, rfl, rfl, rfl⟩
        | bootloadRequest => rw [heq]; exact ⟨rfl, rfl, rfl, rfl⟩

/-- A server that has sent its first segment is aborted. -/
theorem abortCovers_iff_segment :
    AbortCovers { transferServer 5 100 7 .segmentUnicastPending 0 with otaEventIsActive := false }
      (some .imageDistribution) := by
  have hs : (running defaultConfig).Reach free
      ({ transferServer 5 100 7 .segmentUnicastPending 0 with otaEventIsActive := false },
        some .imageDistribution) :=
    System.reach_of_exec_fst (openingRun 5 100 7 ++ [.timerExpired plainEnv])
      (reach_running_init _) (by decide +kernel)
  exact (abortCovers_iff hs).mpr (by decide)

/-- **A handshake cannot be aborted**: the call is refused while the server is busy. -/
theorem abort_refused_in_handshake : ∃ (s : Server) (running' : Option Process),
    (running defaultConfig).Reach free (s, running') ∧ ¬ s.serverIsIdle ∧
      emberAfPluginOtaUnicastBootloaderServerAbortCurrentProcess s = (.invalidCall, ⟨s, []⟩) ∧
      ¬ AbortCovers s running' := by
  have hs : (running defaultConfig).Reach free
      (transferServer 5 100 7 .handshakeInterval 0, some .imageDistribution) :=
    System.reach_of_exec_fst ([.initiateImageDistribution 5 100 7])
      (reach_running_init _) (by decide +kernel)
  exact ⟨_, _, hs, by decide, rfl, fun h => absurd ((h.refused_iff).mp rfl) (by decide)⟩

end ConnectNcpHost.Ota.Processes
