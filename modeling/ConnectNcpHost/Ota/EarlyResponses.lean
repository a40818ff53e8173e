import ConnectNcpHost.Ota.Reentrant
import ConnectNcpHost.Ota.SentCallbacks
import ConnectNcpHost.Ota.ShortResponses

/-! # Responses before the sent callback

The response to a frame can come before the sent callback of the frame. The callback and the response
are handled in either order, in the state that awaits the callback, and the two servers are compared
(`Commutes`). A handshake response or a bootload response that comes first is lost
(`early_handshakeResponse`). A segment response is taken, but the callback behind it no longer clears
the errors of the stack. The orders agree exactly where there are none, or the response makes the
segment index wrap (`commutes_iff`). -/

namespace ConnectNcpHost.Ota.EarlyResponses

open ConnectNcpHost.Lib.Runs ConnectNcpHost.Ota.Protocol ConnectNcpHost.Ota.BootloaderServer
open ConnectNcpHost.Ota.Transition ConnectNcpHost.Ota.Frames ConnectNcpHost.Ota.Reentrant
open ConnectNcpHost.Ota.SentCallbacks ConnectNcpHost.Ota.AwaitedAnswers
open ConnectNcpHost.Ota.ShortResponses

variable {cfg : Config} {s : Server} {r : Request} {f : EmberOutgoingMessage}
  {m : EmberIncomingMessage}

/-! ## Two orders -/

/-- A response to the request: of the target, of the kind that is awaited once the frame is sent,
with the tag of the process, and of the length its kind prescribes. -/
structure Answers (s : Server) (r : Request) (m : EmberIncomingMessage) : Prop where
  fromTarget : FromTarget s m
  kind : Awaits r.waiting (respCommandId m)
  tag : s.currentImageTagOrServerStatus = respTag m
  length : m.length = respHeaderLength (respCommandId m)

instance (s : Server) (r : Request) (m : EmberIncomingMessage) : Decidable (Answers s r m) :=
  decidable_of_iff (_ ∧ _ ∧ _ ∧ _)
    ⟨fun ⟨h1, h2, h3, h4⟩ => ⟨h1, h2, h3, h4⟩, fun ⟨h1, h2, h3, h4⟩ => ⟨h1, h2, h3, h4⟩⟩

/-- The sent callback of the frame, then the response. -/
def sentThenResponse (cfg : Config) (f : EmberOutgoingMessage) (m : EmberIncomingMessage)
    (s : Server) : Outcome :=
  let o := emAfPluginOtaUnicastBootloaderServerMessageSentCallback cfg emberSuccess f s
  (emAfPluginOtaUnicastBootloaderServerIncomingMessageCallback cfg m o.server).after o.actions

/-- The response, then the sent callback of the frame. -/
def responseThenSent (cfg : Config) (f : EmberOutgoingMessage) (m : EmberIncomingMessage)
    (s : Server) : Outcome :=
  let o := emAfPluginOtaUnicastBootloaderServerIncomingMessageCallback cfg m s
  (emAfPluginOtaUnicastBootloaderServerMessageSentCallback cfg emberSuccess f o.server).after
    o.actions

/-- **Both orders lead to the same server, with the same completion callback.** -/
structure Commutes (cfg : Config) (s : Server) (f : EmberOutgoingMessage)
    (m : EmberIncomingMessage) : Prop where
  server : (sentThenResponse cfg f m s).server = (responseThenSent cfg f m s).server
  completion : (sentThenResponse cfg f m s).actions.filterMap completion =
    (responseThenSent cfg f m s).actions.filterMap completion

/-- The segment response is taken before the sent callback as it is behind it. -/
structure TakenEarly (s : Server) (r : Request) (m : EmberIncomingMessage) : Prop where
  request : r = .imageSegment
  status : respStatus m ∈ actingStatuses
  errors : s.stackErrorsCount = 0 ∨ respStatus m = respStatusOngoing ∧
    respIndex m = s.sentSegment ∧ ¬ s.nextSegment < getTotalSegmentsCount s

instance (s : Server) (r : Request) (m : EmberIncomingMessage) : Decidable (TakenEarly s r m) :=
  decidable_of_iff (_ ∧ _ ∧ _) ⟨fun ⟨h1, h2, h3⟩ => ⟨h1, h2, h3⟩, fun ⟨h1, h2, h3⟩ => ⟨h1, h2, h3⟩⟩

/-! ## The sent callback -/

/-- The server once the sent callback of its frame has come. -/
def confirmed (r : Request) (s : Server) : Server :=
  scheduled r.waiting { s with stackErrorsCount := 0 }

theorem sent_pending (hs : s.internalState = r.pending) (hf : Carries f r) {o : Outcome}
    (ht : SentTrans cfg s emberSuccess f o) :
    o = ⟨confirmed r s, [.timerfdSettime (tvNsec responseTimeoutMs)]⟩ := by
  cases ht with
  | ignored h => exact absurd hs (h r hf)
  | failed _ _ h _ _ => exact absurd rfl h
  | succeeded hm _ _ =>
    obtain rfl := hm.eq hf
    rfl

/-- After the sent callback the response meets the server that awaits it. -/
theorem sentThenResponse_eq (hs : s.internalState = r.pending) (hf : Carries f r) :
    sentThenResponse cfg f m s =
      (emAfPluginOtaUnicastBootloaderServerIncomingMessageCallback cfg m (confirmed r s)).after
        [.timerfdSettime (tvNsec responseTimeoutMs)] := by
  unfold sentThenResponse
  rw [sent_pending hs hf (messageSent_trans cfg s emberSuccess f)]

/-! ## Responses that are lost -/

/-- The response is awaited once the frame is sent. -/
theorem awaited_confirmed (h : Answers s r m) : Awaited (confirmed r s) m :=
  ⟨⟨h.fromTarget.endpoint, h.fromTarget.secured, h.fromTarget.source⟩, h.kind, h.tag⟩

/-- Before the sent callback, a response to another request than a segment is ignored. -/
theorem responseThenSent_lost (hr : r ≠ .imageSegment) (hs : s.internalState = r.pending)
    (hf : Carries f r) :
    (responseThenSent cfg f m s).server = confirmed r s := by
  have hw : ∀ r' : Request, s.internalState ≠ r'.waiting :=
    fun r' h => waiting_ne_pending r' r (h.symm.trans hs)
  have hseg : ¬ AcceptsSegmentResponse s m := by
    intro ha
    have h1 := ha.requestOf_eq
    rw [hs, requestOf_pending] at h1
    exact hr (Option.some.inj h1)
  unfold responseThenSent
  rw [(incomingMessage_trans cfg s m).eq_of_not_waiting hw hseg]
  dsimp only
  rw [sent_pending hs hf (messageSent_trans cfg s emberSuccess f)]
  rfl

/-- A response to a handshake or a bootload request acts behind the sent callback. -/
theorem confirmed_acts (cfg : Config) (hr : r ≠ .imageSegment) (h : Answers s r m) :
    (emAfPluginOtaUnicastBootloaderServerIncomingMessageCallback cfg m (confirmed r s)).server ≠
      confirmed r s := by
  have ha := awaited_confirmed h
  have hkind := h.kind
  have ht := incomingMessage_trans cfg (confirmed r s) m
  cases r with
  | imageSegment => exact absurd rfl hr
  | handshake =>
    exact ne_of_handshake ⟨ha.fromTarget, rfl, by rw [ha.tag, respTag_eq]; rfl, hkind⟩ ht
  | bootloadRequest =>
    have hlen : m.length = bootloadRespHeaderLength := by
      have hl := h.length
      rw [show respCommandId m = commandIdBootloadResponse from hkind] at hl
      exact hl
    obtain ⟨st, ho⟩ := ends_of_bootload ⟨ha.fromTarget, rfl, hlen, hkind⟩ ht
    rw [ho]
    exact finished_ne (r := .bootloadRequest) rfl

theorem not_commutes_of_lost (hr : r ≠ .imageSegment) (hs : s.internalState = r.pending)
    (hf : Carries f r) (h : Answers s r m) : ¬ Commutes cfg s f m := by
  intro hc
  have he := hc.server
  rw [sentThenResponse_eq hs hf, responseThenSent_lost hr hs hf] at he
  exact confirmed_acts cfg hr h he

/-! ## Segment responses -/

/-- What an accepted segment response does. -/
theorem callback_of_segment (cfg : Config) (h : AcceptsSegmentResponse s m) :
    emAfPluginOtaUnicastBootloaderServerIncomingMessageCallback cfg m s =
      if respStatus m = respStatusOutOfSeq then imageDistributionProcessFinished .failed s
      else if respStatus m = respStatusRefused then imageDistributionProcessFinished .refused s
      else if respStatus m = respStatusOngoing then
        if respIndex m = s.sentSegment then
          if s.nextSegment < getTotalSegmentsCount s then
            ⟨scheduled .segmentUnicastInterval
              { s with currentTargetErrorsCount := 0, nextSegment := s.nextSegment + 1 },
              [.timerfdSettime (tvNsec cfg.txIntervalMs)]⟩
          else
            ⟨{ s with
                internalState := .segmentUnicastWaitingResponse
                stackErrorsCount := 0
                currentTargetErrorsCount := 0
                nextSegment := 0
                otaEventIsActive := false }, []⟩
        else imageDistributionProcessFinished .failed s
      else if respStatus m = respStatusCompleted then imageDistributionProcessFinished .success s
      else ⟨{ s with internalState := .segmentUnicastWaitingResponse }, []⟩ := by
  have hc := h.command
  have hsegment : emAfPluginOtaUnicastBootloaderServerIncomingMessageCallback cfg m s =
      handleSegmentResponse cfg m { s with internalState := .segmentUnicastWaitingResponse } := by
    unfold emAfPluginOtaUnicastBootloaderServerIncomingMessageCallback
    rw [if_neg (not_not.mpr h.fromTarget.endpoint), if_neg h.fromTarget.secured,
      if_neg (not_not.mpr h.fromTarget.source)]
    dsimp only
    rw [hc, if_neg (by decide), if_neg (by decide), if_pos rfl, if_pos ⟨h.state, h.tag⟩]
  rw [hsegment]
  rfl

theorem accepts_of_answers (hs : s.internalState = .segmentUnicastPending)
    (h : Answers s .imageSegment m) : AcceptsSegmentResponse s m :=
  ⟨h.fromTarget, .inl hs, by rw [h.tag, respTag_eq]; rfl, h.kind⟩

theorem accepts_confirmed (h : Answers s .imageSegment m) :
    AcceptsSegmentResponse (confirmed .imageSegment s) m :=
  ⟨(awaited_confirmed h).fromTarget, .inr rfl, by rw [(awaited_confirmed h).tag, respTag_eq]; rfl,
    h.kind⟩

/-- A segment response is taken before the sent callback, which is then ignored. -/
theorem responseThenSent_segment (h : AcceptsSegmentResponse s m) :
    responseThenSent cfg f m s =
      emAfPluginOtaUnicastBootloaderServerIncomingMessageCallback cfg m s := by
  have hne : ∀ r : Request, (emAfPluginOtaUnicastBootloaderServerIncomingMessageCallback cfg m
      s).server.internalState ≠ r.pending := by
    rw [callback_of_segment cfg h]
    split_ifs
    · exact fun _ => idle_ne.2.1
    · exact fun _ => idle_ne.2.1
    · exact fun r => interval_ne_pending .imageSegment r
    · exact fun r => waiting_ne_pending .imageSegment r
    · exact fun _ => idle_ne.2.1
    · exact fun _ => idle_ne.2.1
    · exact fun r => waiting_ne_pending .imageSegment r
  unfold responseThenSent
  dsimp only
  rw [(messageSent_trans cfg _ emberSuccess f).eq_of_not_pending fun r _ => hne r]
  simp only [Outcome.after, List.append_nil]

/-- A response that changes the confirmed server as it changes the other, errors of the stack apart,
leaves them equal exactly where there are no errors. -/
theorem eq_confirmed_iff {g : Server → Server}
    (hg : ∀ s, (g s).stackErrorsCount = s.stackErrorsCount)
    (hc : g (confirmed r s) = { g s with stackErrorsCount := 0 }) :
    g (confirmed r s) = g s ↔ s.stackErrorsCount = 0 := by
  rw [hc]
  constructor
  · intro h
    rw [← hg s, ← h]
  · intro h
    rw [← h, ← hg s]

theorem confirmed_sentSegment (s : Server) :
    (confirmed .imageSegment s).sentSegment = s.sentSegment := rfl

theorem confirmed_nextSegment (s : Server) :
    (confirmed .imageSegment s).nextSegment = s.nextSegment := rfl

theorem confirmed_getTotalSegmentsCount (s : Server) :
    getTotalSegmentsCount (confirmed .imageSegment s) = getTotalSegmentsCount s := rfl

/-- A segment response asks the same of the surroundings in either order. -/
theorem actions_confirmed (cfg : Config) (hc : AcceptsSegmentResponse (confirmed .imageSegment s) m)
    (h : AcceptsSegmentResponse s m) :
    (emAfPluginOtaUnicastBootloaderServerIncomingMessageCallback cfg m
      (confirmed .imageSegment s)).actions =
    (emAfPluginOtaUnicastBootloaderServerIncomingMessageCallback cfg m s).actions := by
  rw [callback_of_segment cfg hc, callback_of_segment cfg h, confirmed_sentSegment,
    confirmed_nextSegment, confirmed_getTotalSegmentsCount]
  split_ifs <;> rfl

/-- The orders differ in the server alone. -/
theorem commutes_iff_server (hs : s.internalState = .segmentUnicastPending)
    (hf : Carries f .imageSegment) (h : Answers s .imageSegment m) : Commutes cfg s f m ↔
      (emAfPluginOtaUnicastBootloaderServerIncomingMessageCallback cfg m
        (confirmed .imageSegment s)).server =
      (emAfPluginOtaUnicastBootloaderServerIncomingMessageCallback cfg m s).server := by
  have hseg := accepts_of_answers hs h
  have hfirst : sentThenResponse cfg f m s = _ := sentThenResponse_eq (r := .imageSegment) hs hf
  have hsecond : responseThenSent cfg f m s = _ := responseThenSent_segment hseg
  constructor
  · intro hc
    have he := hc.server
    rw [hfirst, hsecond] at he
    exact he
  · intro he
    constructor
    · rw [hfirst, hsecond]
      exact he
    · rw [hfirst, hsecond, Outcome.actions_after,
        actions_confirmed cfg (accepts_confirmed h) hseg]
      rfl

/-- Where the index does not wrap, the errors of the stack decide. -/
theorem takenEarly_iff (hmem : respStatus m ∈ actingStatuses)
    (hw : respStatus m = respStatusOngoing → respIndex m = s.sentSegment →
      s.nextSegment < getTotalSegmentsCount s) :
    TakenEarly s .imageSegment m ↔ s.stackErrorsCount = 0 := by
  constructor
  · rintro ⟨-, -, h | ⟨h1, h2, h3⟩⟩
    · exact h
    · exact absurd (hw h1 h2) h3
  · exact fun h => ⟨rfl, hmem, .inl h⟩

/-- **The two orders of a segment response.** One case for each branch of the response. -/
theorem commutes_segment_iff (hs : s.internalState = .segmentUnicastPending)
    (ha : s.otaEventIsActive = false) (hf : Carries f .imageSegment)
    (h : Answers s .imageSegment m) : Commutes cfg s f m ↔ TakenEarly s .imageSegment m := by
  have hfinished : finished (confirmed .imageSegment s) = finished s ↔ s.stackErrorsCount = 0 :=
    eq_confirmed_iff (fun _ => rfl) rfl
  rw [commutes_iff_server hs hf h, callback_of_segment cfg (accepts_confirmed h),
    callback_of_segment cfg (accepts_of_answers hs h), confirmed_sentSegment,
    confirmed_nextSegment, confirmed_getTotalSegmentsCount]
  split_ifs with h1 h2 h3 h4 h5 h6
  · rw [takenEarly_iff (by simp [actingStatuses, h1]) fun ho => absurd (h1.symm.trans ho) (by decide)]
    exact hfinished
  · rw [takenEarly_iff (by simp [actingStatuses, h2]) fun ho => absurd (h2.symm.trans ho) (by decide)]
    exact hfinished
  · rw [takenEarly_iff (by simp [actingStatuses, h3]) fun _ _ => h5]
    exact eq_confirmed_iff (g := fun s => scheduled .segmentUnicastInterval
      { s with currentTargetErrorsCount := 0, nextSegment := s.nextSegment + 1 }) (fun _ => rfl) rfl
  · exact iff_of_true rfl ⟨rfl, by simp [actingStatuses, h3], .inr ⟨h3, h4, h5⟩⟩
  · rw [takenEarly_iff (by simp [actingStatuses, h3]) fun _ hi => absurd hi h4]
    exact hfinished
  · rw [takenEarly_iff (by simp [actingStatuses, h6]) fun ho => absurd ho h3]
    exact hfinished
  · -- behind the callback the timer runs, before it the server awaits no event
    refine iff_of_false (fun he => ?_) fun ht => ?_
    · have hactive : true = s.otaEventIsActive := congrArg Server.otaEventIsActive he
      rw [ha] at hactive
      cases hactive
    · have hmem := ht.status
      simp [actingStatuses, h1, h2, h3, h6] at hmem

/-! ## The server that awaits a sent callback -/

/-- **Invariant.** No event is active while a sent callback is awaited. -/
def PendingInv (s : Server) : Prop :=
  ∀ r : Request, s.internalState = r.pending → s.otaEventIsActive = false

theorem pendingInv_of_ne (h : ∀ r : Request, s.internalState ≠ r.pending) : PendingInv s :=
  fun r hr => absurd hr (h r)

theorem pendingInv_call {i : Input} {o : Outcome} (h : PendingInv s) (ht : CallTrans s i o) :
    PendingInv o.server := by
  cases ht with
  | refused _ _ => exact h
  | imageStarted _ _ _ _ => exact pendingInv_of_ne fun r => interval_ne_pending .handshake r
  | bootloadStarted _ _ => exact pendingInv_of_ne fun r => interval_ne_pending .bootloadRequest r
  | aborted _ _ => exact pendingInv_of_ne fun _ => idle_ne.2.1

theorem pendingInv_message {o : Outcome} (h : PendingInv s) (ht : MessageTrans cfg s m o) :
    PendingInv o.server := by
  cases ht with
  | ignored _ _ _ => exact h
  | handshakeEnded _ _ => exact pendingInv_of_ne fun _ => idle_ne.2.1
  | handshakeAccepted _ _ ho => exact pendingInv_of_ne (not_pending_of_failed ho)
  | segmentEnded _ _ => exact pendingInv_of_ne fun _ => idle_ne.2.1
  | segmentAdvanced _ _ _ _ => exact pendingInv_of_ne fun r => interval_ne_pending .imageSegment r
  | segmentWrapped _ _ _ _ => exact pendingInv_of_ne fun r => waiting_ne_pending .imageSegment r
  | segmentIgnored _ _ => exact pendingInv_of_ne fun r => waiting_ne_pending .imageSegment r
  | bootloadAnswered _ => exact pendingInv_of_ne fun _ => idle_ne.2.1

theorem pendingInv_sent {status : EmberStatus} {o : Outcome} (h : PendingInv s)
    (ht : SentTrans cfg s status f o) : PendingInv o.server := by
  cases ht with
  | ignored _ => exact h
  | succeeded _ _ _ => exact pendingInv_of_ne fun r' => waiting_ne_pending _ r'
  | failed _ _ _ _ ho => exact pendingInv_of_ne (not_pending_of_failed ho)

theorem pendingInv_event {env : EventEnv} {o : Outcome} (ht : EventTrans cfg s env o) :
    PendingInv o.server := by
  cases ht with
  | @submitted r _ _ _ _ => cases r <;> exact fun _ _ => rfl
  | underflow _ => exact fun _ _ => rfl
  | @notSubmitted _ _ o _ _ _ ho =>
    show PendingInv o.server
    exact pendingInv_of_ne (not_pending_of_failed ho)
  | timedOut _ ho => exact pendingInv_of_ne (not_pending_of_failed ho)
  | idle _ => exact fun _ _ => rfl

theorem pendingInv_of_reach (h : (ota cfg).Reach free s) : PendingInv s := by
  refine System.Reach.invariant (fun s hs _ _ => ?_) (fun s i s' os _ h _ hst => ?_) h
  · rw [show s = Server.init from hs]
    rfl
  · cases trans_of_step hst with
    | call ht => exact pendingInv_call h ht
    | message ht => exact pendingInv_message h ht
    | sent ht => exact pendingInv_sent h ht
    | timer _ ht => exact pendingInv_event ht
    | timerIgnored _ => exact h
    | event _ ht => exact pendingInv_event ht

/-- **The sent callback and the response commute, exactly where the response is taken early.** -/
theorem commutes_iff (h : (ota cfg).Reach free s) (hs : s.internalState = r.pending)
    (hf : Carries f r) (hm : Answers s r m) : Commutes cfg s f m ↔ TakenEarly s r m := by
  cases r with
  | imageSegment => exact commutes_segment_iff hs (pendingInv_of_reach h _ hs) hf hm
  | handshake =>
    exact iff_of_false (not_commutes_of_lost (by decide) hs hf hm) fun h => by cases h.request
  | bootloadRequest =>
    exact iff_of_false (not_commutes_of_lost (by decide) hs hf hm) fun h => by cases h.request

/-- The server that has submitted a request of a transfer. -/
def submittedServer (target : EmberNodeId) (imageSize : UInt32) (imageTag : UInt8) (r : Request) :
    Server :=
  { transferServer target imageSize imageTag r.pending 0 with otaEventIsActive := false }

/-- An ONGOING response to the first segment. -/
theorem commutes_iff_segment :
    Commutes defaultConfig (submittedServer 5 150 7 .imageSegment)
      (segmentFrame plainEnv.stack [] (transferServer 5 150 7 .segmentUnicastInterval 0))
      (segmentResponse 5 respStatusOngoing 7 0) :=
  (commutes_iff (r := .imageSegment)
    (System.reach_of_exec_fst (openingRun 5 150 7 ++ [.timerExpired plainEnv]) (.start rfl)
      (by decide +kernel)) rfl (by decide +kernel) (by decide +kernel)).mpr (by decide +kernel)

/-- **A handshake response before the sent callback** is lost. -/
theorem early_handshakeResponse : ¬ ∀ (cfg : Config) (s : Server), (ota cfg).Reach free s →
    ∀ (r : Request) (f : EmberOutgoingMessage) (m : EmberIncomingMessage),
      s.internalState = r.pending → Carries f r → Answers s r m → Commutes cfg s f m := by
  intro h
  have hreach : (ota defaultConfig).Reach free (submittedServer 5 150 7 .handshake) :=
    System.reach_of_exec_fst [.initiateImageDistribution 5 150 7, .timerExpired plainEnv]
      (.start rfl) (by decide +kernel)
  have hc := h defaultConfig _ hreach .handshake
    (handshakeFrame plainEnv.stack (transferServer 5 150 7 .handshakeInterval 0))
    (handshakeResponse 5 respStatusOngoing 7) rfl (by decide +kernel) (by decide +kernel)
  exact absurd hc.server (by decide +kernel)

end ConnectNcpHost.Ota.EarlyResponses
