import ConnectNcpHost.Ota.Processes

/-! # The server with other threads running during a send

`emberMessageSend` blocks for a round trip to the NCP and no lock protects the server meanwhile.
`unicastNextSegment` and `requestTargetForBootload` are cut at the call: `sendBegin` runs up to it,
`sendEnd` from its return on, and every other handler may run in between. An abort in this window
ends the process, and the return of the send revives it or fails an assertion
(`abort_during_send`). Where the abort call stays outside the window, finished means finished
(`finishedStays_of_reach`). -/

namespace ConnectNcpHost.Ota.Interleaved

open ConnectNcpHost.Lib.Runs ConnectNcpHost.Stack.ByteUtilities ConnectNcpHost.Ota.Protocol
open ConnectNcpHost.Ota.BootloaderServer ConnectNcpHost.Ota.Transition ConnectNcpHost.Ota.Frames
open ConnectNcpHost.Ota.Processes

variable {cfg : Config} {s : Server}

/-! ## The model -/

/-- The server, and the frames of the calls of `emberMessageSend` that have not returned. -/
structure Threads where
  server : Server
  sending : List (Request × EmberOutgoingMessage)

/-- The atomic steps. -/
inductive Label
  /-- a handler, run to its end -/
  | handler (i : Input)
  /-- the event handler, up to the call of `emberMessageSend` -/
  | sendBegin (env : EventEnv)
  /-- the return of the call number `k` -/
  | sendEnd (k : ℕ) (status : EmberStatus)

/-- The event handler runs into one of the functions that are cut. -/
def Splits (s : Server) : Input → Prop
  | .timerExpired _ | .eventActive _ => s.otaEventIsActive = true ∧
    (s.internalState = .segmentUnicastInterval ∨ s.internalState = .bootloadRequestUnicastInterval)
  | _ => False

instance (s : Server) (i : Input) : Decidable (Splits s i) := by
  refine i.casesOn ?_ ?_ ?_ ?_ ?_ ?_ ?_ <;> intros <;> unfold Splits <;> infer_instance

/-- `emAfPluginOtaUnicastBootloaderServerEventHandler`, up to the call of `emberMessageSend`, with
the frame it passes; without a frame where the image-segment callback has no data. -/
def sendBegin (env : EventEnv) (s : Server) :
    Option (Outcome × Option (Request × EmberOutgoingMessage)) :=
  if s.otaEventIsActive then
    let s := { s with otaEventIsActive := false }
    match s.internalState with
    | .segmentUnicastInterval =>
      match env.getImageSegment (segmentStartIndex s) (segmentEndIndex s)
        s.currentImageTagOrServerStatus with
      | none =>
        some ((imageDistributionProcessFinished .dataUnderflow s).after [segmentCallback s], none)
      | some imageSegment =>
        some (⟨s, [segmentCallback s]⟩, some (.imageSegment, segmentFrame env.stack imageSegment s))
    | .bootloadRequestUnicastInterval =>
      some (⟨s, []⟩, some (.bootloadRequest, bootloadRequestFrame env.stack env.nowMs s))
    | _ => none
  else none

/-- **The server, its sends cut at the call.** -/
def interleaved (cfg : Config) : System Threads Label Action where
  start t := t = ⟨Server.init, []⟩
  step t
    | .handler i =>
      if Splits t.server i then none
      else (handle cfg t.server i).map fun o => (⟨o.server, t.sending⟩, o.actions)
    | .sendBegin env =>
      (sendBegin env t.server).map fun (o, frame) => (⟨o.server, t.sending ++ frame.toList⟩, o.actions)
    | .sendEnd k status =>
      t.sending[k]?.map fun (r, m) =>
        let o := r.sent cfg status t.server
        (⟨o.server, t.sending.eraseIdx k⟩, .messageSend m status :: o.actions)

/-! ## What the halves do -/

/-- The outcomes of the first half. -/
inductive Begins (env : EventEnv) (s : Server) :
    Outcome → Option (Request × EmberOutgoingMessage) → Prop
  | underflow (hs : s.internalState = .segmentUnicastInterval) :
      Begins env s ⟨finished s, [segmentCallback s, .imageDistributionComplete .dataUnderflow]⟩ none
  | calls {r : Request} {m : EmberOutgoingMessage} (hr : r ≠ .handshake)
      (hs : s.internalState = r.interval) (hf : IsFrame env s r m) :
      Begins env s ⟨{ s with otaEventIsActive := false }, r.prelude s⟩ (some (r, m))

theorem begins_of_sendBegin {env : EventEnv} {o : Outcome}
    {f : Option (Request × EmberOutgoingMessage)} (h : sendBegin env s = some (o, f)) :
    s.otaEventIsActive = true ∧ Begins env s o f := by
  unfold sendBegin at h
  by_cases ha : s.otaEventIsActive = true
  · rw [if_pos ha] at h
    refine ⟨ha, ?_⟩
    dsimp only at h
    split at h
    · rename_i hs
      split at h
      · obtain ⟨rfl, rfl⟩ := Prod.mk.inj (Option.some.inj h)
        exact .underflow hs
      · rename_i hbytes
        obtain ⟨rfl, rfl⟩ := Prod.mk.inj (Option.some.inj h)
        exact .calls (r := .imageSegment) (by decide) hs (.imageSegment hbytes)
    · rename_i hs
      obtain ⟨rfl, rfl⟩ := Prod.mk.inj (Option.some.inj h)
      exact .calls (r := .bootloadRequest) (by decide) hs .bootloadRequest
    · cases h
  · rw [if_neg ha] at h
    cases h

/-- The two halves, one after the other, are the event handler. -/
theorem eventHandler_eq_halves {env : EventEnv} {o : Outcome} {r : Request}
    {m : EmberOutgoingMessage} (h : sendBegin env s = some (o, some (r, m))) :
    emAfPluginOtaUnicastBootloaderServerEventHandler cfg env s =
      (r.sent cfg env.sendStatus o.server).after (o.actions ++ [.messageSend m env.sendStatus]) := by
  obtain ⟨-, hb⟩ := begins_of_sendBegin h
  unfold emAfPluginOtaUnicastBootloaderServerEventHandler
  cases hb with
  | calls hr hs hf =>
    dsimp only
    rw [hs]
    cases hf with
    | handshake => exact absurd rfl hr
    | bootloadRequest => rfl
    | imageSegment hbytes =>
      show unicastNextSegment cfg env
        { s with internalState := Request.imageSegment.interval, otaEventIsActive := false } = _
      unfold unicastNextSegment
      split
      · rename_i hnone; cases hnone.symm.trans hbytes
      · rename_i bytes hsome
        obtain rfl : bytes = _ := Option.some.inj (hsome.symm.trans hbytes)
        rfl

/-- Nothing but the abort call moves the server while a call of `emberMessageSend` has not
returned. -/
theorem handler_during_send {r : Request} {i : Input} {o : Outcome}
    (hs : s.internalState = r.interval) (ha : s.otaEventIsActive = false)
    (hi : i ≠ .abortCurrentProcess) (ht : Trans cfg s i o) :
    o.server = s ∧ completed o.actions = false ∧ succeeded o.actions = false := by
  have hint : ∀ {r' : Request}, s.internalState ≠ r'.pending :=
    fun h => interval_ne_pending _ _ (hs ▸ h)
  have hidle : s.internalState ≠ .idle := fun h => idle_ne.1 (h.symm.trans hs)
  cases ht with
  | call ht =>
    cases ht with
    | refused _ hst => exact ⟨rfl, rfl, succeeded_refused hst⟩
    | imageStarted h _ _ _ => exact absurd h hidle
    | bootloadStarted h _ => exact absurd h hidle
    | aborted _ _ => exact absurd rfl hi
  | message ht => rw [ht.eq_of_interval hs]; exact ⟨rfl, rfl, rfl⟩
  | sent ht =>
    cases ht with
    | ignored _ => exact ⟨rfl, rfl, rfl⟩
    | succeeded _ h _ => exact absurd h hint
    | failed _ h _ _ _ => exact absurd h hint
  | timer h _ => cases ha.symm.trans h
  | timerIgnored _ => exact ⟨rfl, rfl, rfl⟩
  | event h _ => cases ha.symm.trans h

/-! ## Finished means finished -/

/-- A completion callback has been invoked, and no `Initiate` has succeeded since. -/
def finishedSince (g : Bool) (_ : Threads) (_ : Label) (as : List Action) : Bool :=
  if completed as then true else if succeeded as then false else g

/-- The interleaved server, with this history. -/
def finishing (cfg : Config) : System (Threads × Bool) Label Action :=
  (interleaved cfg).observe false finishedSince

theorem reach_finishing_init (cfg : Config) (ok : Threads × Bool → Label → Prop) :
    (finishing cfg).Reach ok (⟨Server.init, []⟩, false) := .start ⟨rfl, rfl⟩

/-- The abort call comes while no call of `emberMessageSend` is open. -/
def AbortOutside (t : Threads) : Label → Prop
  | .handler .abortCurrentProcess => t.sending.length = 0
  | _ => True

instance (t : Threads) (l : Label) : Decidable (AbortOutside t l) := by
  rcases l with (_ | _ | _ | _ | _ | _ | _) | _ | _ <;> unfold AbortOutside <;> infer_instance

/-- **Invariant.** After a completion the server is idle; while a call of `emberMessageSend` is open
it is the only one, and the server is in the interval state of its request, with no active event. -/
structure ThreadsInv (t : Threads) (g : Bool) : Prop where
  idle : g = true → t.server.internalState = .idle
  window : t.sending = [] ∨ ∃ r m, t.sending = [(r, m)] ∧ t.server.internalState = r.interval ∧
    t.server.otaEventIsActive = false

/-- What a step does, where it goes well: no assertion fails, a process completes once and does not
complete again, and the invariant is kept. -/
structure StepsWell (t : Threads) (g : Bool) (o : Outcome)
    (sending : List (Request × EmberOutgoingMessage)) (l : Label) : Prop where
  inv : ThreadsInv ⟨o.server, sending⟩ (finishedSince g t l o.actions)
  single : o.actions.countP isCompletion ≤ 1
  noAssert : .assertFailed ∉ o.actions
  noCompletion : g = true → completed o.actions = false

theorem finishedSince_eq {t : Threads} {g : Bool} {l : Label} {o : Outcome}
    (hend : EndsWell o) (h : finishedSince g t l o.actions = true)
    (hg : g = true → completed o.actions = false →
      succeeded o.actions = true ∨ o.server.internalState = .idle) :
    o.server.internalState = .idle := by
  unfold finishedSince at h
  split_ifs at h with hc hs
  · exact hend.idle hc
  · exact (hg h (by simpa using hc)).resolve_left hs

theorem stepsWell_handler {t : Threads} {g : Bool} {i : Input} {o : Outcome}
    (hinv : ThreadsInv t g) (hok : AbortOutside t (.handler i)) (ht : Trans cfg t.server i o) :
    StepsWell t g o t.sending (.handler i) := by
  have hend := endsWell_of_trans ht
  have hidle : g = true → completed o.actions = false ∧
      (succeeded o.actions = true ∨ o.server.internalState = .idle) :=
    fun hg => idle_of_trans (hinv.idle hg) ht
  refine ⟨⟨fun h => finishedSince_eq hend h fun hg _ => (hidle hg).2, ?_⟩, hend.single,
    hend.noAssert, fun hg => (hidle hg).1⟩
  rcases hinv.window with hw | ⟨r, m, hw, hs, ha⟩
  · exact .inl hw
  · have hi : i ≠ .abortCurrentProcess := by
      rintro rfl
      have h0 : t.sending.length = 0 := hok
      rw [hw] at h0
      cases h0
    obtain ⟨ho, -, -⟩ := handler_during_send hs ha hi ht
    exact .inr ⟨r, m, hw, by rw [ho]; exact hs, by rw [ho]; exact ha⟩

theorem stepsWell_sendBegin {t : Threads} {g : Bool} {env : EventEnv} {o : Outcome}
    {f : Option (Request × EmberOutgoingMessage)} (hinv : ThreadsInv t g)
    (h : sendBegin env t.server = some (o, f)) :
    StepsWell t g o (t.sending ++ f.toList) (.sendBegin env) := by
  obtain ⟨ha, hb⟩ := begins_of_sendBegin h
  have hw : t.sending = [] := by
    refine hinv.window.resolve_right ?_
    rintro ⟨-, -, -, -, ha'⟩
    cases ha.symm.trans ha'
  have hbusy : t.server.internalState ≠ .idle → g = true → False :=
    fun hs hg => hs (hinv.idle hg)
  cases hb with
  | underflow hs =>
    have hne : t.server.internalState ≠ .idle := by rw [hs]; decide
    have hend : EndsWell ⟨finished t.server,
        [segmentCallback t.server, .imageDistributionComplete .dataUnderflow]⟩ :=
      endsWell_complete [segmentCallback t.server] .imageDistribution [] rfl rfl
        (by simp [segmentCallback])
    exact ⟨⟨fun _ => rfl, .inl (by rw [hw]; rfl)⟩, hend.single, hend.noAssert,
      fun hg => (hbusy hne hg).elim⟩
  | @calls r m _ hs hf =>
    have hne : t.server.internalState ≠ .idle := by rw [hs]; exact idle_ne.1.symm
    have hc : completed (r.prelude t.server) = false ∧ succeeded (r.prelude t.server) = false := by
      cases r <;> exact ⟨rfl, rfl⟩
    refine ⟨⟨fun hg => ?_, .inr ⟨r, m, by rw [hw]; rfl, hs, rfl⟩⟩, ?_, ?_, fun _ => hc.1⟩
    · rw [finishedSince, hc.1, hc.2] at hg
      exact (hbusy hne hg).elim
    · exact (countP_of_not_completed hc.1).trans_le (Nat.zero_le 1)
    · cases r <;> simp [Request.prelude, segmentCallback]

theorem stepsWell_sendEnd {t : Threads} {g : Bool} {k : ℕ} {status : EmberStatus} {r : Request}
    {m : EmberOutgoingMessage} (hinv : ThreadsInv t g) (hk : t.sending[k]? = some (r, m)) :
    StepsWell t g ((r.sent cfg status t.server).after [.messageSend m status])
      (t.sending.eraseIdx k) (.sendEnd k status) := by
  rcases hinv.window with hw | ⟨r1, m1, hw, hs, -⟩
  · rw [hw] at hk; cases hk
  obtain ⟨rfl, rfl, rfl⟩ : k = 0 ∧ r1 = r ∧ m1 = m := by
    rw [hw] at hk
    rcases k with _ | k
    · simpa using hk
    · simp at hk
  have hne : g ≠ true := fun hg => idle_ne.1 ((hinv.idle hg).symm.trans hs)
  have hend : EndsWell (r1.sent cfg status t.server) := by
    obtain ⟨-, ho⟩ | ⟨-, ho⟩ := sent_interval cfg hs status
    · rw [ho]; exact endsWell_of_not_completed rfl (by simp)
    · exact endsWell_failed ho
  have hend' : EndsWell ((r1.sent cfg status t.server).after [.messageSend m1 status]) :=
    ⟨hend.idle, hend.single, by simpa using hend.noAssert⟩
  exact ⟨⟨fun h => finishedSince_eq hend' h fun hg _ => absurd hg hne, .inl (by rw [hw]; rfl)⟩,
    hend'.single, hend'.noAssert, fun hg => absurd hg hne⟩

/-- Every step, from a state of the invariant. -/
theorem stepsWell {t t' : Threads} {g : Bool} {l : Label} {as : List Action}
    (hinv : ThreadsInv t g) (hok : AbortOutside t l)
    (h : (interleaved cfg).step t l = some (t', as)) :
    StepsWell t g ⟨t'.server, as⟩ t'.sending l := by
  cases l with
  | handler i =>
    simp only [interleaved, Option.ite_none_left_eq_some, Option.map_eq_some_iff,
      Prod.mk.injEq] at h
    obtain ⟨-, o, ho, rfl, rfl⟩ := h
    exact stepsWell_handler hinv hok (trans_of_handle ho)
  | sendBegin env =>
    simp only [interleaved, Option.map_eq_some_iff, Prod.mk.injEq] at h
    obtain ⟨⟨o, f⟩, ho, rfl, rfl⟩ := h
    exact stepsWell_sendBegin hinv ho
  | sendEnd k status =>
    simp only [interleaved, Option.map_eq_some_iff, Prod.mk.injEq] at h
    obtain ⟨⟨r, m⟩, hk, rfl, rfl⟩ := h
    exact stepsWell_sendEnd hinv hk

theorem threadsInv_of_reach {p : Threads × Bool}
    (h : (finishing cfg).Reach (fun p l => AbortOutside p.1 l) p) : ThreadsInv p.1 p.2 := by
  refine System.Reach.invariant (I := fun p => ThreadsInv p.1 p.2) (fun p hp => ?_)
    (fun p l p' as _ hinv hok hst => ?_) h
  · rw [show p.1 = ⟨Server.init, []⟩ from hp.1]
    exact ⟨fun _ => rfl, .inl rfl⟩
  · obtain ⟨hs, hg⟩ := System.observe_step hst
    rw [hg]
    exact (stepsWell hinv hok hs).inv

/-- After a completion the server is idle, a step completes nothing before the next successful
`Initiate`, and one process otherwise; no assertion fails. -/
structure FinishedStays (cfg : Config) (ok : Threads → Label → Prop) (t : Threads) (g : Bool) :
    Prop where
  idle : g = true → t.server.serverIsIdle
  once : ∀ l t' as, ok t l → (interleaved cfg).step t l = some (t', as) → g = true →
    completed as = false
  single : ∀ l t' as, ok t l → (interleaved cfg).step t l = some (t', as) →
    as.countP isCompletion ≤ 1
  noAssert : ∀ l t' as, ok t l → (interleaved cfg).step t l = some (t', as) →
    .assertFailed ∉ as

/-- **Finished means finished in every interleaving in which the abort call stays outside the calls
of `emberMessageSend`.** -/
theorem finishedStays_of_reach {t : Threads} {g : Bool}
    (h : (finishing cfg).Reach (fun p l => AbortOutside p.1 l) (t, g)) :
    FinishedStays cfg AbortOutside t g where
  idle := (threadsInv_of_reach h).idle
  once _ _ _ hok hst hg := (stepsWell (threadsInv_of_reach h) hok hst).noCompletion hg
  single _ _ _ hok hst := (stepsWell (threadsInv_of_reach h) hok hst).single
  noAssert _ _ _ hok hst := (stepsWell (threadsInv_of_reach h) hok hst).noAssert

/-- A response is delivered during the send of the only segment. -/
def answeredRun (target : EmberNodeId) (imageTag : UInt8) : List Label :=
  (openingRun target 96 imageTag).map .handler ++ [.sendBegin plainEnv,
    .handler (.incomingMessage (segmentResponse target respStatusCompleted imageTag 0))]

/-- The response comes during the send, which is refused; the transfer is aborted behind the next
one. -/
theorem finishedStays_of_reach_aborted :
    (∃ t : Threads, t.sending.length = 1 ∧ FinishedStays defaultConfig AbortOutside t false) ∧
      ∃ t : Threads, t.server.stackErrorsCount = 1 ∧
        FinishedStays defaultConfig AbortOutside t true := by
  have hinit := reach_finishing_init defaultConfig fun p l => AbortOutside p.1 l
  constructor
  · obtain ⟨⟨t, g⟩, hp, hf⟩ := System.exists_reach_of_exec (b := (1, false)) (answeredRun 5 7)
      (fun p => (p.1.sending.length, p.2)) hinit (by decide +kernel)
    obtain ⟨hsending, rfl⟩ := Prod.mk.inj hf
    exact ⟨t, hsending, finishedStays_of_reach hp⟩
  · obtain ⟨⟨t, g⟩, hp, hf⟩ := System.exists_reach_of_exec (b := (1, true))
      (answeredRun 5 7 ++ [.sendEnd 0 1, .sendBegin plainEnv, .sendEnd 0 emberSuccess,
        .handler .abortCurrentProcess])
      (fun p => (p.1.server.stackErrorsCount, p.2)) hinit (by decide +kernel)
    obtain ⟨herrors, rfl⟩ := Prod.mk.inj hf
    exact ⟨t, herrors, finishedStays_of_reach hp⟩

/-- The inputs up to an abort during the send of the first segment. -/
def abortRun (target : EmberNodeId) (imageSize : UInt32) (imageTag : UInt8) : List Label :=
  (openingRun target imageSize imageTag).map .handler ++
    [.sendBegin plainEnv, .handler .abortCurrentProcess]

/-- **An abort during a send is undone**: if the send is accepted, the process that has completed is
pending again, and if it is refused, an assertion fails. -/
theorem abort_during_send :
    (∃ t, (finishing defaultConfig).Reach free (t, true) ∧ ¬ t.server.serverIsIdle) ∧
    ∃ t t' g l as, (finishing defaultConfig).Reach free (t, g) ∧
      (interleaved defaultConfig).step t l = some (t', as) ∧ .assertFailed ∈ as := by
  constructor
  · obtain ⟨⟨t, g⟩, hp, hf⟩ := System.exists_reach_of_exec
      (b := (StateOtaServer.segmentUnicastPending, true))
      (abortRun 5 100 7 ++ [.sendEnd 0 emberSuccess]) (fun p => (p.1.server.internalState, p.2))
      (reach_finishing_init defaultConfig free) (by decide +kernel)
    obtain ⟨hs, rfl⟩ := Prod.mk.inj hf
    exact ⟨t, hp, by rw [Server.serverIsIdle, hs]; decide⟩
  · obtain ⟨⟨⟨s, sending⟩, g⟩, hp, hf⟩ := System.exists_reach_of_exec
      (b := ({ transferServer 5 100 7 .idle 0 with otaEventIsActive := false },
        [Request.imageSegment])) (abortRun 5 100 7)
      (fun p => (p.1.server, p.1.sending.map Prod.fst))
      (reach_finishing_init defaultConfig free) (by decide +kernel)
    obtain ⟨rfl, hsend⟩ := Prod.mk.inj hf
    obtain ⟨⟨r, m⟩, rfl, rfl⟩ := List.map_eq_singleton_iff.mp hsend
    have hst : (interleaved defaultConfig).step
        ⟨{ transferServer 5 100 7 .idle 0 with otaEventIsActive := false }, [(.imageSegment, m)]⟩
        (.sendEnd 0 1) = some (_, [.messageSend m 1, .assertFailed]) := rfl
    exact ⟨_, _, _, _, _, hp, hst, by simp⟩

end ConnectNcpHost.Ota.Interleaved
