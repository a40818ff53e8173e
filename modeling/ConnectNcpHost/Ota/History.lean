import ConnectNcpHost.Ota.Processes

/-! # What a SUCCESS says about the transfer

A history variable records, since the last successful `Initiate`, the start index of the accepted
handshake response, the segments accepted for transmission and the segments acknowledged by an
accepted ONGOING response. Below the next segment everything was acknowledged (`HistoryInv`). The
COMPLETED response is accepted whatever index it carries; where it carries that of the segment sent
last, and this is the last one, SUCCESS means that the whole image was acknowledged
(`wholeImage_of_success`). -/

namespace ConnectNcpHost.Ota.History

open ConnectNcpHost.Lib.Runs ConnectNcpHost.Ota.Protocol ConnectNcpHost.Ota.BootloaderServer
open ConnectNcpHost.Ota.Transition ConnectNcpHost.Ota.Frames ConnectNcpHost.Ota.Processes

variable {cfg : Config} {s : Server}

/-! ## The history of a transfer -/

/-- What happened since the last successful `Initiate`. -/
structure Transfer where
  start : Option UInt32
  submitted : List UInt32
  acknowledged : List UInt32
  deriving DecidableEq

def Transfer.none : Transfer := ⟨.none, [], []⟩

/-- The indices of the segment frames `emberMessageSend` accepted. -/
def submittedSegments (as : List Action) : List UInt32 :=
  as.filterMap fun a => match a with
    | .messageSend m status =>
      if status = emberSuccess ∧
          emOtaUnicastBootloaderProtocolCommandId m.payload = commandIdImageSegment then
        some (segmentIndex m)
      else Option.none
    | _ => Option.none

/-- An ONGOING response that acknowledges the segment sent last. -/
def Acknowledges (s : Server) (m : EmberIncomingMessage) : Prop :=
  AcceptsSegmentResponse s m ∧ respStatus m = respStatusOngoing ∧ respIndex m = s.sentSegment

instance (s : Server) (m : EmberIncomingMessage) : Decidable (Acknowledges s m) := by
  unfold Acknowledges; infer_instance

/-- One step of the history. -/
def Transfer.record (g : Transfer) (s : Server) : Input → List Action → Transfer
  | .initiateImageDistribution _ _ _, as => if succeeded as then Transfer.none else g
  | .incomingMessage m, _ =>
    if AcceptsHandshakeResponse s m ∧ respStatus m = respStatusOngoing then
      { g with start := some (startSegment m) }
    else if Acknowledges s m then { g with acknowledged := respIndex m :: g.acknowledged }
    else g
  | .timerExpired _, as | .eventActive _, as =>
    { g with submitted := submittedSegments as ++ g.submitted }
  | _, _ => g

/-- The server, with the history of its transfer. -/
def transfer (cfg : Config) : System (Server × Transfer) Input Action :=
  (ota cfg).observe Transfer.none Transfer.record

theorem reach_transfer_init {ok : Server × Transfer → Input → Prop} (cfg : Config) :
    (transfer cfg).Reach ok (Server.init, Transfer.none) := .start ⟨rfl, rfl⟩

/-! ## The invariant -/

/-- Every segment from the start index up to `n` was acknowledged. -/
def AcknowledgedBelow (g : Transfer) (n : UInt32) : Prop :=
  ∃ start, g.start = some start ∧ ∀ k, start ≤ k → k < n → k ∈ g.acknowledged

theorem AcknowledgedBelow.mono {g : Transfer} {n n' : UInt32} (h : AcknowledgedBelow g n)
    (hle : n' ≤ n) : AcknowledgedBelow g n' := by
  obtain ⟨start, hs, hk⟩ := h
  exact ⟨start, hs, fun k h1 h2 => hk k h1 (UInt32.lt_of_lt_of_le h2 hle)⟩

theorem AcknowledgedBelow.cons {g : Transfer} {n k : UInt32} (h : AcknowledgedBelow g n) :
    AcknowledgedBelow { g with acknowledged := k :: g.acknowledged } n := by
  obtain ⟨start, hs, hk⟩ := h
  exact ⟨start, hs, fun k h1 h2 => List.mem_cons_of_mem _ (hk k h1 h2)⟩

/-- One more acknowledged segment, the next one. -/
theorem AcknowledgedBelow.succ {g : Transfer} {n t : UInt32} (h : AcknowledgedBelow g n)
    (hn : n < t) :
    AcknowledgedBelow { g with acknowledged := n :: g.acknowledged } (n + 1) := by
  obtain ⟨start, hs, hk⟩ := h
  refine ⟨start, hs, fun k h1 h2 => ?_⟩
  have hn1 := toNat_add_one hn
  have h2' := UInt32.lt_iff_toNat_lt.mp h2
  rcases Nat.lt_or_ge k.toNat n.toNat with h3 | h3
  · exact List.mem_cons_of_mem _ (hk k h1 (UInt32.lt_iff_toNat_lt.mpr h3))
  · have : k = n := UInt32.toNat_inj.mp (by omega)
    exact this ▸ List.mem_cons_self

/-- **Invariant.** Below the next segment everything was acknowledged, and the segment sent last
was submitted. After the end-of-image branch has reset the next segment, everything below the end
was acknowledged. -/
structure HistoryInv (s : Server) (g : Transfer) : Prop where
  below : requestOf s.internalState = some .imageSegment → AcknowledgedBelow g s.nextSegment
  sent : s.internalState = .segmentUnicastPending ∨
    s.internalState = .segmentUnicastWaitingResponse → s.sentSegment ∈ g.submitted ∧
      (s.sentSegment = s.nextSegment ∨ s.nextSegment = 0 ∧ getTotalSegmentsCount s ≤ s.sentSegment ∧
        AcknowledgedBelow g (getTotalSegmentsCount s))

theorem historyInv_of_requestOf_ne {g : Transfer}
    (h : requestOf s.internalState ≠ some .imageSegment) : HistoryInv s g where
  below hs := absurd hs h
  sent hs := by rcases hs with hs | hs <;> exact absurd (congrArg requestOf hs) h

theorem historyInv_finished (s : Server) (g : Transfer) : HistoryInv (finished s) g :=
  historyInv_of_requestOf_ne (by simp [finished])

/-- A failed attempt keeps the history. -/
theorem historyInv_failed {r : Request} {o : Outcome} {g : Transfer} (ho : Failed cfg r s o)
    (h : r = .imageSegment → AcknowledgedBelow g s.nextSegment) : HistoryInv o.server g := by
  cases ho with
  | gaveUp _ => exact historyInv_finished s g
  | retried _ _ =>
    refine ⟨fun hs => h ?_, fun hs => ?_⟩
    · simpa [scheduled] using hs
    · rcases hs with hs | hs <;> cases r <;> cases hs

theorem historyInv_call {i : Input} {o : Outcome} {g : Transfer} (h : HistoryInv s g)
    (ht : CallTrans s i o) : HistoryInv o.server (g.record s i o.actions) := by
  cases ht with
  | aborted _ _ => exact historyInv_finished s _
  | imageStarted _ _ _ _ => exact historyInv_of_requestOf_ne (by simp [requestOf])
  | bootloadStarted _ _ => exact historyInv_of_requestOf_ne (by simp [requestOf])
  | @refused i st hi hst =>
    have hg : g.record s i [.returned st] = g := by
      cases hi <;> simp [Transfer.record, succeeded_refused hst]
    show HistoryInv s (g.record s i [.returned st])
    rw [hg]
    exact h

theorem record_handshakeResponse {g : Transfer} {m : EmberIncomingMessage} (as : List Action)
    (h : AcceptsHandshakeResponse s m) (hst : respStatus m = respStatusOngoing) :
    g.record s (.incomingMessage m) as = { g with start := some (startSegment m) } :=
  if_pos ⟨h, hst⟩

theorem record_acknowledges {g : Transfer} {m : EmberIncomingMessage} (as : List Action)
    (h : Acknowledges s m) : g.record s (.incomingMessage m) as =
      { g with acknowledged := respIndex m :: g.acknowledged } := by
  have hn : ¬ (AcceptsHandshakeResponse s m ∧ respStatus m = respStatusOngoing) := by
    rintro ⟨ha, -⟩
    cases h.1.requestOf_eq.symm.trans (congrArg requestOf ha.state)
  exact (if_neg hn).trans (if_pos h)

theorem record_other {g : Transfer} {m : EmberIncomingMessage} (as : List Action)
    (hh : ¬ AcceptsHandshakeResponse s m)
    (hn : ¬ (AcceptsSegmentResponse s m ∧ respStatus m = respStatusOngoing)) :
    g.record s (.incomingMessage m) as = g :=
  (if_neg fun h => hh h.1).trans (if_neg fun h => hn ⟨h.1, h.2.1⟩)

theorem historyInv_message {m : EmberIncomingMessage} {o : Outcome} {g : Transfer}
    (h : HistoryInv s g) (ht : MessageTrans cfg s m o) :
    HistoryInv o.server (g.record s (.incomingMessage m) o.actions) := by
  cases ht with
  | handshakeEnded _ _ => exact historyInv_finished s _
  | segmentEnded _ _ => exact historyInv_finished s _
  | bootloadAnswered _ => exact historyInv_finished s _
  | ignored hh hs _ =>
    rw [record_other _ hh (fun h => hs h.1)]
    exact h
  | handshakeAccepted ha hst ho =>
    rw [record_handshakeResponse _ ha hst]
    refine historyInv_failed ho fun _ => ⟨_, rfl, fun k h1 h2 => ?_⟩
    exact absurd (UInt32.lt_of_le_of_lt h1 h2) (UInt32.lt_irrefl _)
  | segmentAdvanced ha hst hi hn =>
    rw [record_acknowledges _ ⟨ha, hst, hi⟩, hi]
    refine ⟨fun _ => ?_, fun hs => by rcases hs with hs | hs <;> cases hs⟩
    show AcknowledgedBelow _ (s.nextSegment + 1)
    obtain ⟨-, he | ⟨h0, -, hall⟩⟩ := h.sent ha.state
    · rw [he]
      exact (h.below ha.requestOf_eq).succ hn
    · -- after a reset the next segment is the second one, and the whole image was acknowledged
      rw [h0] at hn ⊢
      exact hall.cons.mono (UInt32.le_iff_toNat_le.mpr (UInt32.lt_iff_toNat_lt.mp hn))
  | segmentWrapped ha hst hi hn =>
    rw [record_acknowledges _ ⟨ha, hst, hi⟩, hi]
    obtain ⟨hsub, hend⟩ := h.sent ha.state
    have hle := UInt32.not_lt.mp hn
    have hall : AcknowledgedBelow g (getTotalSegmentsCount s) ∧
        getTotalSegmentsCount s ≤ s.sentSegment := by
      rcases hend with he | ⟨-, h1, h2⟩
      · exact ⟨(h.below ha.requestOf_eq).mono hle, he ▸ hle⟩
      · exact ⟨h2, h1⟩
    exact ⟨fun _ => hall.1.cons.mono UInt32.zero_le,
      fun _ => ⟨hsub, .inr ⟨rfl, hall.2, hall.1.cons⟩⟩⟩
  | segmentIgnored ha hst =>
    have hh : ¬ AcceptsHandshakeResponse s m := fun hh => by
      cases ha.requestOf_eq.symm.trans (congrArg requestOf hh.state)
    rw [record_other _ hh (fun h => hst.2.2.1 h.2)]
    exact ⟨fun _ => h.below ha.requestOf_eq, fun _ => h.sent ha.state⟩

theorem historyInv_sent {status : EmberStatus} {m : EmberOutgoingMessage} {o : Outcome}
    {g : Transfer} (h : HistoryInv s g) (ht : SentTrans cfg s status m o) :
    HistoryInv o.server g := by
  cases ht with
  | ignored _ => exact h
  | @succeeded r _ hs _ =>
    by_cases hr : r = .imageSegment
    · subst hr
      exact ⟨fun _ => h.below (congrArg requestOf hs), fun _ => h.sent (.inl hs)⟩
    · exact historyInv_of_requestOf_ne (by simpa [scheduled] using hr)
  | @failed r s1 _ _ hs _ he ho =>
    refine historyInv_failed ho fun hr => ?_
    have hb := h.below (by rw [hs, hr]; rfl)
    cases he <;> exact hb

/-- The segments of a submission. -/
theorem submittedSegments_frame {env : EventEnv} {m : EmberOutgoingMessage}
    (hf : IsFrame env s .imageSegment m) :
    s.nextSegment ∈ submittedSegments
      (Request.prelude s .imageSegment ++ [.messageSend m emberSuccess]) := by
  have hc := (carries_of_isFrame hf).2
  cases hf with
  | imageSegment _ =>
    rw [Request.commandId] at hc
    simp [submittedSegments, Request.prelude, segmentCallback, hc, segmentIndex_segmentFrame]

theorem historyInv_mono {g g' : Transfer} (h : HistoryInv s g) (hs : g'.start = g.start)
    (ha : g'.acknowledged = g.acknowledged) (hsub : g.submitted ⊆ g'.submitted) :
    HistoryInv s g' := by
  have hb : ∀ {n}, AcknowledgedBelow g n → AcknowledgedBelow g' n :=
    fun ⟨start, h1, h2⟩ => ⟨start, hs.trans h1, fun k h3 h4 => ha ▸ h2 k h3 h4⟩
  refine ⟨fun hr => hb (h.below hr), fun hr => ?_⟩
  obtain ⟨h1, h2⟩ := h.sent hr
  exact ⟨hsub h1, h2.imp_right fun h2 => ⟨h2.1, h2.2.1, hb h2.2.2⟩⟩

theorem historyInv_event {env : EventEnv} {o : Outcome} {g : Transfer} (h : HistoryInv s g)
    (ht : EventTrans cfg s env o) :
    HistoryInv o.server { g with submitted := submittedSegments o.actions ++ g.submitted } := by
  have hmono : ∀ s1 : Server, HistoryInv s1 g →
      HistoryInv s1 { g with submitted := submittedSegments o.actions ++ g.submitted } :=
    fun _ h1 => historyInv_mono h1 rfl rfl (List.subset_append_right _ _)
  cases ht with
  | underflow _ => exact historyInv_finished s _
  | @submitted r _ hs hf _ =>
    by_cases hr : r = .imageSegment
    · subst hr
      have hb := h.below (congrArg requestOf hs)
      exact ⟨fun _ => hb, fun _ => ⟨List.mem_append_left _ (submittedSegments_frame hf), .inl rfl⟩⟩
    · exact historyInv_of_requestOf_ne (by simpa using hr)
  | @notSubmitted r _ o hs _ _ ho =>
    refine hmono o.server (historyInv_failed ho fun hr => ?_)
    exact h.below (by rw [hs, hr]; rfl)
  | @timedOut r _ hs ho =>
    refine hmono _ (historyInv_failed ho fun hr => ?_)
    exact h.below (by rw [hs, hr]; rfl)
  | idle _ => exact hmono _ ⟨h.below, h.sent⟩

theorem historyInv_step {i : Input} {o : Outcome} {g : Transfer} (h : HistoryInv s g)
    (ht : Trans cfg s i o) : HistoryInv o.server (g.record s i o.actions) := by
  cases ht with
  | call ht => exact historyInv_call h ht
  | message ht => exact historyInv_message h ht
  | sent ht => exact historyInv_sent h ht
  | timer _ ht => exact historyInv_event h ht
  | timerIgnored _ => exact historyInv_mono h rfl rfl (List.subset_append_right _ _)
  | event _ ht => exact historyInv_event h ht

theorem historyInv_of_reach {ok : Server × Transfer → Input → Prop} {p : Server × Transfer}
    (h : (transfer cfg).Reach ok p) : HistoryInv p.1 p.2 := by
  refine System.Reach.invariant (I := fun p => HistoryInv p.1 p.2) (fun p hp => ?_)
    (fun p i p' as _ h _ hst => ?_) h
  · refine historyInv_of_requestOf_ne ?_
    rw [show p.1 = Server.init from hp.1]
    decide
  · obtain ⟨hs, hg⟩ := System.observe_step hst
    rw [hg]
    exact historyInv_step h (trans_of_step hs)

/-! ## SUCCESS -/

/-- A COMPLETED response that is accepted carries the index of the segment sent last, and this is
the last segment of the image. -/
def FinalCompleted (s : Server) : Input → Prop
  | .incomingMessage m => AcceptsSegmentResponse s m → respStatus m = respStatusCompleted →
    respIndex m = s.sentSegment ∧ (respIndex m).toNat + 1 = (getTotalSegmentsCount s).toNat
  | _ => True

instance (s : Server) (i : Input) : Decidable (FinalCompleted s i) := by
  refine i.casesOn ?_ ?_ ?_ ?_ ?_ ?_ ?_ <;> intros <;> unfold FinalCompleted <;> infer_instance

/-- The response that ends the transfer carries the index of the last segment, this segment was
submitted, and every one before it, from the start index on, was acknowledged. -/
def WholeImage (s : Server) (g : Transfer) (i : Input) : Prop :=
  ∃ m, i = .incomingMessage m ∧ (respIndex m).toNat + 1 = (getTotalSegmentsCount s).toNat ∧
    respIndex m ∈ g.submitted ∧ AcknowledgedBelow g (respIndex m)

/-- **SUCCESS, reported for a COMPLETED response to the last segment, means that the whole image was
sent and acknowledged.** -/
theorem wholeImage_of_success {p p' : Server × Transfer} {i : Input} {as : List Action}
    (hp : (transfer cfg).Reach (fun p i => FinalCompleted p.1 i) p) (hi : FinalCompleted p.1 i)
    (h : (transfer cfg).step p i = some (p', as))
    (hs : .imageDistributionComplete .success ∈ as) : WholeImage p.1 p.2 i := by
  obtain ⟨m, rfl, ha, hc⟩ := completed_of_success (trans_of_step (System.observe_step h).1) hs
  obtain ⟨hidx, hlast⟩ := hi ha hc
  have hinv := historyInv_of_reach hp
  obtain ⟨hsub, he | ⟨-, hle, -⟩⟩ := hinv.sent ha.state
  · refine ⟨m, rfl, hlast, hidx ▸ hsub, ?_⟩
    rw [hidx, he]
    exact hinv.below ha.requestOf_eq
  · -- after a reset the segment sent last lies behind the end
    have := UInt32.le_iff_toNat_le.mp hle
    rw [hidx] at hlast
    omega

/-- Two segments: the first one is not acknowledged by the radio and sent again, a response under
another tag is ignored. -/
def retriedRun (target : EmberNodeId) (imageTag : UInt8) : List Input :=
  openingRun target 100 imageTag ++ [.timerExpired plainEnv, .messageSent emberMacNoAckReceived
      (segmentFrame plainEnv.stack [] (transferServer target 100 imageTag .segmentUnicastInterval 0))] ++
    segmentRun target 100 imageTag 0 ++
    [.incomingMessage (segmentResponse target respStatusOngoing imageTag 0),
      .incomingMessage (segmentResponse target respStatusCompleted (imageTag + 1) 0)] ++
    segmentRun target 100 imageTag 1

theorem wholeImage_of_success_retried :
    WholeImage { transferServer 5 100 7 .segmentUnicastWaitingResponse 1 with sentSegment := 1 }
      ⟨some 0, [1, 0, 0], [0]⟩ (.incomingMessage (segmentResponse 5 respStatusCompleted 7 1)) := by
  have hp : (transfer defaultConfig).Reach (fun p i => FinalCompleted p.1 i)
      ({ transferServer 5 100 7 .segmentUnicastWaitingResponse 1 with sentSegment := 1 },
        ⟨some 0, [1, 0, 0], [0]⟩) :=
    System.reach_of_exec_fst (retriedRun 5 7) (reach_transfer_init _) (by decide +kernel)
  have hst : (transfer defaultConfig).step
      ({ transferServer 5 100 7 .segmentUnicastWaitingResponse 1 with sentSegment := 1 },
        ⟨some 0, [1, 0, 0], [0]⟩)
      (.incomingMessage (segmentResponse 5 respStatusCompleted 7 1)) =
        some (_, [.imageDistributionComplete .success]) := rfl
  exact (wholeImage_of_success hp (by decide) hst List.mem_cons_self :)

/-- **Without the condition SUCCESS says little**: of two segments the first is sent, a COMPLETED
response to it arrives, and the distribution is reported as successful. -/
theorem success_without_image : ∃ (p p' : Server × Transfer) (i : Input) (as : List Action),
    (transfer defaultConfig).Reach free p ∧ (transfer defaultConfig).step p i = some (p', as) ∧
      .imageDistributionComplete .success ∈ as ∧ p.2.submitted = [0] ∧ p.2.acknowledged = [] ∧
      (getTotalSegmentsCount p.1).toNat = 2 ∧ ¬ WholeImage p.1 p.2 i := by
  have hp : (transfer defaultConfig).Reach free
      (transferServer 5 100 7 .segmentUnicastWaitingResponse 0, ⟨some 0, [0], []⟩) :=
    System.reach_of_exec_fst (openingRun 5 100 7 ++ segmentRun 5 100 7 0)
      (reach_transfer_init _) (by decide +kernel)
  have hst : (transfer defaultConfig).step
      (transferServer 5 100 7 .segmentUnicastWaitingResponse 0, ⟨some 0, [0], []⟩)
      (.incomingMessage (segmentResponse 5 respStatusCompleted 7 0)) =
        some (_, [.imageDistributionComplete .success]) := rfl
  refine ⟨_, _, _, _, hp, hst, List.mem_cons_self, rfl, rfl, by decide, ?_⟩
  rintro ⟨m, hm, hlast, -⟩
  cases hm
  exact absurd hlast (by decide)

end ConnectNcpHost.Ota.History
