import ConnectNcpHost.Lib.StopAndWait
import ConnectNcpHost.Ota.History

/-! # Segments one after the other

A history variable records the events of the transfer since the last successful `Initiate`: the
handshake response that opened it, the segment frames accepted for transmission, the ONGOING
responses accepted. The end-of-image branch resets the next segment to `0` and leaves the server
waiting; where a further ONGOING response then advances it, the segments start again behind the one
sent last. While no response does (`AdvancesInStep`), the transfer is stop-and-wait
(`inOrder_of_reach`). -/

namespace ConnectNcpHost.Ota.StopAndWait

open ConnectNcpHost.Lib.Runs ConnectNcpHost.Lib.StopAndWait ConnectNcpHost.Ota.Protocol
open ConnectNcpHost.Ota.BootloaderServer ConnectNcpHost.Ota.Transition ConnectNcpHost.Ota.Frames
open ConnectNcpHost.Ota.Processes ConnectNcpHost.Ota.History

variable {cfg : Config} {s : Server} {es : List (Event ℕ)}

/-! ## The events of a transfer -/

/-- The segment after the segment `k`. -/
def nextIndex (k n : ℕ) : Prop := n = k + 1

instance (k n : ℕ) : Decidable (nextIndex k n) := by unfold nextIndex; infer_instance

/-- One step of the history. -/
def recordEvents (es : List (Event ℕ)) (s : Server) : Input → List Action → List (Event ℕ)
  | .initiateImageDistribution _ _ _, as => if succeeded as then [] else es
  | .incomingMessage m, _ =>
    if AcceptsHandshakeResponse s m ∧ respStatus m = respStatusOngoing then
      .opened (startSegment m).toNat :: es
    else if Acknowledges s m then .acknowledged (respIndex m).toNat :: es
    else es
  | .timerExpired _, as | .eventActive _, as =>
    (submittedSegments as).map (fun k => .sent k.toNat) ++ es
  | _, _ => es

/-- The server, with the events of its transfer. -/
def segmentEvents (cfg : Config) : System (Server × List (Event ℕ)) Input Action :=
  (ota cfg).observe [] recordEvents

theorem reach_segmentEvents_init {ok : Server × List (Event ℕ) → Input → Prop} (cfg : Config) :
    (segmentEvents cfg).Reach ok (Server.init, []) := .start ⟨rfl, rfl⟩

theorem recordEvents_opened {m : EmberIncomingMessage} (as : List Action)
    (h : AcceptsHandshakeResponse s m) (hst : respStatus m = respStatusOngoing) :
    recordEvents es s (.incomingMessage m) as = .opened (startSegment m).toNat :: es :=
  if_pos ⟨h, hst⟩

theorem recordEvents_acknowledged {m : EmberIncomingMessage} (as : List Action)
    (h : Acknowledges s m) : recordEvents es s (.incomingMessage m) as =
      .acknowledged s.sentSegment.toNat :: es := by
  have hn : ¬ (AcceptsHandshakeResponse s m ∧ respStatus m = respStatusOngoing) := by
    rintro ⟨ha, -⟩
    cases h.1.requestOf_eq.symm.trans (congrArg requestOf ha.state)
  rw [← h.2.2]
  exact (if_neg hn).trans (if_pos h)

theorem recordEvents_other {m : EmberIncomingMessage} (as : List Action)
    (hh : ¬ AcceptsHandshakeResponse s m)
    (hn : ¬ (AcceptsSegmentResponse s m ∧ respStatus m = respStatusOngoing)) :
    recordEvents es s (.incomingMessage m) as = es :=
  (if_neg fun h => hh h.1).trans (if_neg fun h => hn ⟨h.1, h.2.1⟩)

theorem recordEvents_refused {i : Input} {st : EmberAfOtaUnicastBootloaderStatus} (hi : IsCall i)
    (h : st = .busy ∧ s.internalState ≠ .idle ∨ st = .invalidCall) :
    recordEvents es s i [.returned st] = es := by
  cases hi <;> simp [recordEvents, succeeded_refused h]

/-! ### The segments of a step -/

theorem submittedSegments_append (as bs : List Action) :
    submittedSegments (as ++ bs) = submittedSegments as ++ submittedSegments bs :=
  List.filterMap_append

@[simp] theorem submittedSegments_prelude (r : Request) : submittedSegments (r.prelude s) = [] := by
  cases r <;> rfl

theorem submittedSegments_failed {r : Request} {o : Outcome} (h : Failed cfg r s o) :
    submittedSegments o.actions = [] := by
  cases h with
  | retried _ _ => rfl
  | gaveUp _ => cases r <;> rfl

theorem submittedSegments_notSubmitted {m : EmberOutgoingMessage} {status : EmberStatus}
    (h : status ≠ emberSuccess) : submittedSegments [.messageSend m status] = [] := by
  simp [submittedSegments, h]

/-- A submission of a segment, and one of another request. -/
theorem submittedSegments_imageSegment {env : EventEnv} {m : EmberOutgoingMessage}
    (h : IsFrame env s .imageSegment m) :
    submittedSegments [.messageSend m emberSuccess] = [s.nextSegment] := by
  have hc := (carries_of_isFrame h).2
  cases h with
  | imageSegment _ =>
    rw [Request.commandId] at hc
    simp [submittedSegments, hc, segmentIndex_segmentFrame]

theorem submittedSegments_ne {env : EventEnv} {m : EmberOutgoingMessage} {r : Request}
    (h : IsFrame env s r m) (hr : r ≠ .imageSegment) :
    submittedSegments [.messageSend m emberSuccess] = [] := by
  have hc : emOtaUnicastBootloaderProtocolCommandId m.payload ≠ commandIdImageSegment := by
    rw [(carries_of_isFrame h).2]
    cases r with
    | imageSegment => exact absurd rfl hr
    | handshake => decide
    | bootloadRequest => decide
  simp [submittedSegments, hc]

/-! ## The invariant -/

/-- An accepted ONGOING response advances the next segment from the one sent last, or, after a
reset, to the one sent last. -/
def AdvancesInStep (s : Server) : Input → Prop
  | .incomingMessage m => Acknowledges s m → s.nextSegment < getTotalSegmentsCount s →
    s.nextSegment = s.sentSegment ∨ s.nextSegment = 0 ∧ s.sentSegment = 1
  | _ => True

instance (s : Server) (i : Input) : Decidable (AdvancesInStep s i) := by
  refine i.casesOn ?_ ?_ ?_ ?_ ?_ ?_ ?_ <;> intros <;> unfold AdvancesInStep <;> infer_instance

/-- **Invariant.** The transfer is in order, a segment that is scheduled may follow, and the one
that is answered or timed out is the one sent last. After a reset nothing is scheduled. -/
structure OrderInv (s : Server) (es : List (Event ℕ)) : Prop where
  inOrder : InOrder nextIndex es
  handshake : requestOf s.internalState = some .handshake → sentIndices es = []
  interval : s.internalState = .segmentUnicastInterval →
    MayFollow nextIndex es s.nextSegment.toNat
  pending : s.internalState = .segmentUnicastPending →
    (sentIndices es).head? = some s.sentSegment.toNat ∧ s.nextSegment = s.sentSegment
  waiting : s.internalState = .segmentUnicastWaitingResponse →
    (sentIndices es).head? = some s.sentSegment.toNat ∧
      (s.nextSegment = s.sentSegment ∨ s.nextSegment = 0 ∧ s.otaEventIsActive = false)

/-- Outside of a transfer only the order is left. -/
theorem orderInv_of_requestOf (h : InOrder nextIndex es)
    (hr : requestOf s.internalState = none ∨ requestOf s.internalState = some .bootloadRequest) :
    OrderInv s es where
  inOrder := h
  handshake hs := by
    rw [hs] at hr
    rcases hr with hr | hr <;> cases hr
  interval hs := by
    rw [hs] at hr
    rcases hr with hr | hr <;> cases hr
  pending hs := by
    rw [hs] at hr
    rcases hr with hr | hr <;> cases hr
  waiting hs := by
    rw [hs] at hr
    rcases hr with hr | hr <;> cases hr

theorem orderInv_finished (s : Server) (h : InOrder nextIndex es) : OrderInv (finished s) es :=
  orderInv_of_requestOf h (.inl rfl)

/-- In the states of the handshake. -/
theorem orderInv_of_handshake (h : InOrder nextIndex es)
    (hr : requestOf s.internalState = some .handshake) (hes : sentIndices es = []) :
    OrderInv s es where
  inOrder := h
  handshake _ := hes
  interval hs := by rw [hs] at hr; cases hr
  pending hs := by rw [hs] at hr; cases hr
  waiting hs := by rw [hs] at hr; cases hr

/-- In the interval before a segment. -/
theorem orderInv_of_interval (h : InOrder nextIndex es)
    (hs : s.internalState = .segmentUnicastInterval)
    (hn : MayFollow nextIndex es s.nextSegment.toNat) : OrderInv s es where
  inOrder := h
  handshake hr := by rw [hs] at hr; cases hr
  interval _ := hn
  pending h' := by cases hs.symm.trans h'
  waiting h' := by cases hs.symm.trans h'

/-- While the response to a segment is awaited. -/
theorem orderInv_of_waiting (h : InOrder nextIndex es)
    (hs : s.internalState = .segmentUnicastWaitingResponse)
    (hw : (sentIndices es).head? = some s.sentSegment.toNat ∧
      (s.nextSegment = s.sentSegment ∨ s.nextSegment = 0 ∧ s.otaEventIsActive = false)) :
    OrderInv s es where
  inOrder := h
  handshake hr := by rw [hs] at hr; cases hr
  interval h' := by cases hs.symm.trans h'
  pending h' := by cases hs.symm.trans h'
  waiting _ := hw

/-- A failed attempt is repeated with the same segment. -/
theorem orderInv_failed {r : Request} {o : Outcome} (ho : Failed cfg r s o)
    (h : InOrder nextIndex es) (hh : r = .handshake → sentIndices es = [])
    (hs : r = .imageSegment → MayFollow nextIndex es s.nextSegment.toNat) :
    OrderInv o.server es := by
  cases ho with
  | gaveUp _ => exact orderInv_finished s h
  | retried _ _ =>
    cases r with
    | handshake => exact orderInv_of_handshake h rfl (hh rfl)
    | imageSegment => exact orderInv_of_interval h rfl (hs rfl)
    | bootloadRequest => exact orderInv_of_requestOf h (.inr rfl)

/-- The segment sent last. -/
theorem OrderInv.head {m : EmberIncomingMessage} (h : OrderInv s es)
    (ha : AcceptsSegmentResponse s m) :
    (sentIndices es).head? = some s.sentSegment.toNat ∧
      (s.nextSegment = s.sentSegment ∨ s.nextSegment = 0 ∧ s.otaEventIsActive = false) := by
  rcases ha.state with hs | hs
  · exact ⟨(h.pending hs).1, .inl (h.pending hs).2⟩
  · exact h.waiting hs

theorem orderInv_call {i : Input} {o : Outcome} (h : OrderInv s es) (ht : CallTrans s i o) :
    OrderInv o.server (recordEvents es s i o.actions) := by
  cases ht with
  | aborted _ _ => exact orderInv_finished s h.inOrder
  | imageStarted _ _ _ _ => exact orderInv_of_handshake .nil rfl rfl
  | bootloadStarted _ _ => exact orderInv_of_requestOf h.inOrder (.inr rfl)
  | @refused i st hi hst =>
    show OrderInv s (recordEvents es s i [.returned st])
    rw [recordEvents_refused hi hst]
    exact h

theorem orderInv_message {m : EmberIncomingMessage} {o : Outcome} (h : OrderInv s es)
    (hi : AdvancesInStep s (.incomingMessage m)) (ht : MessageTrans cfg s m o) :
    OrderInv o.server (recordEvents es s (.incomingMessage m) o.actions) := by
  have hended : InOrder nextIndex (recordEvents es s (.incomingMessage m) o.actions) := by
    rw [recordEvents]
    split_ifs
    · exact .opened h.inOrder
    · exact .acknowledged h.inOrder
    · exact h.inOrder
  cases ht with
  | handshakeEnded _ _ => exact orderInv_finished s hended
  | segmentEnded _ _ => exact orderInv_finished s hended
  | bootloadAnswered _ => exact orderInv_finished s hended
  | ignored hh hs _ =>
    rw [recordEvents_other _ hh (fun h => hs h.1)]
    exact h
  | handshakeAccepted ha hst ho =>
    rw [recordEvents_opened _ ha hst] at hended ⊢
    refine orderInv_failed ho hended (fun hr => by cases hr) fun _ => ?_
    exact .of_opened (h.handshake (congrArg requestOf ha.state))
  | segmentAdvanced ha hst hidx hn =>
    have hack : Acknowledges s m := ⟨ha, hst, hidx⟩
    rw [recordEvents_acknowledged _ hack] at hended ⊢
    refine orderInv_of_interval hended rfl ?_
    show MayFollow nextIndex _ (s.nextSegment + 1).toNat
    rcases hi hack hn with he | ⟨h0, h1⟩
    · exact .of_acknowledged (h.head ha).1 (by rw [← he]; exact toNat_add_one hn)
    · -- after a reset the segment sent last is sent again
      have hlast := (h.head ha).1
      rw [h1] at hlast
      rw [h0]
      exact .again hlast
  | segmentWrapped ha hst hidx _ =>
    rw [recordEvents_acknowledged _ ⟨ha, hst, hidx⟩] at hended ⊢
    exact orderInv_of_waiting hended rfl ⟨(h.head ha).1, .inr ⟨rfl, rfl⟩⟩
  | segmentIgnored ha hst =>
    have hh : ¬ AcceptsHandshakeResponse s m := fun hh => by
      cases ha.requestOf_eq.symm.trans (congrArg requestOf hh.state)
    rw [recordEvents_other _ hh (fun h => hst.2.2.1 h.2)] at hended ⊢
    exact orderInv_of_waiting hended rfl (h.head ha)

theorem orderInv_sent {status : EmberStatus} {m : EmberOutgoingMessage} {o : Outcome}
    (h : OrderInv s es) (ht : SentTrans cfg s status m o) : OrderInv o.server es := by
  cases ht with
  | ignored _ => exact h
  | @succeeded r _ hs _ =>
    cases r with
    | handshake => exact orderInv_of_handshake h.inOrder rfl (h.handshake (congrArg requestOf hs))
    | bootloadRequest => exact orderInv_of_requestOf h.inOrder (.inr rfl)
    | imageSegment =>
      obtain ⟨h1, h2⟩ := h.pending hs
      exact orderInv_of_waiting h.inOrder rfl ⟨h1, .inl h2⟩
  | @failed r s1 _ _ hs _ he ho =>
    refine orderInv_failed ho h.inOrder (fun hr => ?_) (fun hr => ?_)
    · exact h.handshake (by rw [hs, hr]; rfl)
    · obtain ⟨h1, h2⟩ := h.pending (by rw [hs, hr]; rfl)
      have hn : MayFollow nextIndex es s.nextSegment.toNat := .again (h2 ▸ h1)
      cases he <;> exact hn

theorem orderInv_event {env : EventEnv} {o : Outcome} (h : OrderInv s es)
    (ha : s.otaEventIsActive = true) (ht : EventTrans cfg s env o) :
    OrderInv o.server ((submittedSegments o.actions).map (fun k => .sent k.toNat) ++ es) := by
  cases ht with
  | underflow _ => exact orderInv_finished s h.inOrder
  | @submitted r m hs hf _ =>
    rw [submittedSegments_append, submittedSegments_prelude, List.nil_append]
    by_cases hr : r = .imageSegment
    · subst hr
      rw [submittedSegments_imageSegment hf]
      have hn := h.interval hs
      exact
        { inOrder := .sent h.inOrder hn
          handshake := fun hr => by cases hr
          interval := fun h' => by cases h'
          pending := fun _ => ⟨rfl, rfl⟩
          waiting := fun h' => by cases h' }
    · rw [submittedSegments_ne hf hr]
      cases r with
      | imageSegment => exact absurd rfl hr
      | handshake => exact orderInv_of_handshake h.inOrder rfl (h.handshake (congrArg requestOf hs))
      | bootloadRequest => exact orderInv_of_requestOf h.inOrder (.inr rfl)
  | @notSubmitted r m o hs hf hst ho =>
    have has : submittedSegments (o.after (r.prelude s ++ [.messageSend m env.sendStatus])).actions =
        [] := by
      rw [Outcome.actions_after, submittedSegments_append, submittedSegments_append,
        submittedSegments_prelude, submittedSegments_notSubmitted hst, submittedSegments_failed ho]
      rfl
    rw [has]
    show OrderInv o.server es
    refine orderInv_failed ho h.inOrder (fun hr => ?_) (fun hr => ?_)
    · exact h.handshake (by rw [hs, hr]; rfl)
    · exact h.interval (by rw [hs, hr]; rfl)
  | @timedOut r _ hs ho =>
    rw [submittedSegments_failed ho]
    refine orderInv_failed ho h.inOrder (fun hr => ?_) (fun hr => ?_)
    · exact h.handshake (by rw [hs, hr]; rfl)
    · obtain ⟨h1, h2 | ⟨-, hoff⟩⟩ := h.waiting (by rw [hs, hr]; rfl)
      · exact .again (h2 ▸ h1)
      · -- after a reset no event is active
        cases ha.symm.trans hoff
  | idle hs =>
    exact ⟨h.inOrder, h.handshake, h.interval, h.pending, fun h' => absurd h' (hs .imageSegment).2⟩

theorem orderInv_step {i : Input} {o : Outcome} (h : OrderInv s es) (hi : AdvancesInStep s i)
    (ht : Trans cfg s i o) : OrderInv o.server (recordEvents es s i o.actions) := by
  cases ht with
  | call ht => exact orderInv_call h ht
  | message ht => exact orderInv_message h hi ht
  | sent ht => exact orderInv_sent h ht
  | timer ha ht => exact orderInv_event h ha ht
  | timerIgnored _ => exact h
  | event ha ht => exact orderInv_event h ha ht

theorem orderInv_of_reach {p : Server × List (Event ℕ)}
    (h : (segmentEvents cfg).Reach (fun p i => AdvancesInStep p.1 i) p) : OrderInv p.1 p.2 := by
  refine System.Reach.invariant (I := fun p => OrderInv p.1 p.2) (fun p hp => ?_)
    (fun p i p' as _ h hi hst => ?_) h
  · rw [show p.1 = Server.init from hp.1, hp.2]
    exact orderInv_of_requestOf .nil (.inl rfl)
  · obtain ⟨hs, hg⟩ := System.observe_step hst
    rw [hg]
    exact orderInv_step h hi (trans_of_step hs)

/-! ## The order of the segments -/

/-- **While every accepted ONGOING response advances in step, the segments are sent one after the
other**, and never go backwards. -/
theorem inOrder_of_reach {p : Server × List (Event ℕ)}
    (h : (segmentEvents cfg).Reach (fun p i => AdvancesInStep p.1 i) p) :
    InOrder nextIndex p.2 ∧ (sentIndices p.2).Pairwise (· ≥ ·) := by
  have ho := (orderInv_of_reach h).inOrder
  refine ⟨ho, ho.pairwise_ge fun k n hn => ?_⟩
  rw [nextIndex] at hn
  omega

/-- What the accepted ONGOING response to the segment sent last does, before the end of the image. -/
theorem advanced_of_acknowledges {m : EmberIncomingMessage} {o : Outcome} (hack : Acknowledges s m)
    (hn : s.nextSegment < getTotalSegmentsCount s) (ht : MessageTrans cfg s m o) :
    o.server.internalState = .segmentUnicastInterval ∧
      o.server.nextSegment = s.nextSegment + 1 := by
  obtain ⟨ha, hst, hidx⟩ := hack
  have hstate : ∀ {st}, s.internalState = st → requestOf st = some .imageSegment :=
    fun h => h ▸ ha.requestOf_eq
  cases ht with
  | segmentAdvanced _ _ _ _ => exact ⟨rfl, rfl⟩
  | ignored _ hs _ => exact absurd ha hs
  | handshakeEnded h _ => cases hstate h.state
  | handshakeAccepted h _ _ => cases hstate h.state
  | bootloadAnswered h => cases hstate h.state
  | segmentWrapped _ _ _ hn' => exact absurd hn hn'
  | segmentIgnored _ h => exact absurd hst h.2.2.1
  | segmentEnded _ he =>
    cases he with
    | outOfSeq h => cases hst.symm.trans h
    | refused h => cases hst.symm.trans h
    | completed h => cases hst.symm.trans h
    | mismatch _ h => exact absurd hidx h

/-- **The condition is sharp**: an ONGOING response that does not advance in step schedules a
segment that may not follow. -/
theorem not_mayFollow_of_not_advancesInStep {p p' : Server × List (Event ℕ)} {i : Input}
    {as : List Action} (hp : (segmentEvents cfg).Reach (fun p i => AdvancesInStep p.1 i) p)
    (hi : ¬ AdvancesInStep p.1 i) (h : (segmentEvents cfg).step p i = some (p', as)) :
    p'.1.internalState = .segmentUnicastInterval ∧
      ¬ MayFollow nextIndex p'.2 p'.1.nextSegment.toNat := by
  have hinv := orderInv_of_reach hp
  obtain ⟨hs, hg⟩ := System.observe_step h
  cases i with
  | incomingMessage m =>
    simp only [AdvancesInStep, Classical.not_imp, not_or, not_and] at hi
    obtain ⟨hack, hn, hne, h1⟩ := hi
    obtain ⟨hlast, h0⟩ := hinv.head hack.1
    replace h0 := (h0.resolve_left hne).1
    obtain ⟨hst, hnext⟩ := advanced_of_acknowledges hack hn (trans_of_step hs).messageTrans
    refine ⟨hst, ?_⟩
    rw [hg, recordEvents_acknowledged _ hack, hnext, h0]
    intro hm
    have hne0 : p.1.sentSegment.toNat ≠ 0 := fun he =>
      hne (h0.trans (UInt32.toNat_inj.mp he).symm)
    have hne1 : p.1.sentSegment.toNat ≠ 1 := fun he => h1 h0 (UInt32.toNat_inj.mp he)
    rcases hm.eq_or_next hlast with he | he
    · exact hne1 he.symm
    · exact hne0 (Nat.succ.inj he).symm
  | _ => exact absurd trivial hi

/-- From the acceptance of an image of 192 bytes to the ONGOING responses to its two segments. -/
def twoSegmentsRun : List Input :=
  openingRun 5 192 7 ++ segmentRun 5 192 7 0 ++
    [.incomingMessage (segmentResponse 5 respStatusOngoing 7 0)] ++ segmentRun 5 192 7 1 ++
    [.incomingMessage (segmentResponse 5 respStatusOngoing 7 1)]

/-- Two segments sent one after the other. -/
theorem inOrder_of_reach_two : ∃ p, (segmentEvents defaultConfig).Reach free p ∧
    sentIndices p.2 = [1, 0] ∧ InOrder nextIndex p.2 := by
  have h0 : (segmentEvents defaultConfig).Reach (fun p i => AdvancesInStep p.1 i)
      (Server.init, []) := reach_segmentEvents_init _
  obtain ⟨p, hp, h⟩ := System.exists_reach_of_exec twoSegmentsRun (fun p => sentIndices p.2)
    (b := [1, 0]) h0 (by decide +kernel)
  exact ⟨p, hp.mono fun _ _ _ => trivial, h, (inOrder_of_reach hp).1⟩

/-- **Without the condition the segments go back**: the segment behind the end of the image is
answered with ONGOING twice, and segment `1` follows on segment `2`. -/
theorem segments_go_back : ∃ p, (segmentEvents defaultConfig).Reach free p ∧
    sentIndices p.2 = [1, 2, 1, 0] ∧ ¬ InOrder nextIndex p.2 := by
  have h0 : (segmentEvents defaultConfig).Reach free (Server.init, []) :=
    reach_segmentEvents_init _
  obtain ⟨p, hp, h⟩ := System.exists_reach_of_exec
    (twoSegmentsRun ++ segmentRun 5 192 7 2 ++
      [.incomingMessage (segmentResponse 5 respStatusOngoing 7 2),
        .incomingMessage (segmentResponse 5 respStatusOngoing 7 2), .timerExpired plainEnv])
    (fun p => sentIndices p.2) (b := [1, 2, 1, 0]) h0 (by decide +kernel)
  refine ⟨p, hp, h, fun ho => ?_⟩
  have hge := ho.pairwise_ge fun k n hn => by rw [nextIndex] at hn; omega
  rw [h] at hge
  exact absurd (List.rel_of_pairwise_cons hge List.mem_cons_self) (by decide)

end ConnectNcpHost.Ota.StopAndWait
