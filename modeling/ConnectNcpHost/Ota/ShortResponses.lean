import ConnectNcpHost.Ota.AwaitedAnswers
import ConnectNcpHost.Ota.Processes
import ConnectNcpHost.Ota.SegmentBounds

/-! # Responses shorter than their header

The payload of a message goes on behind its length: the buffer holds what it held before. Only the
filter of the bootload response looks at the length. A handshake response or a segment response is
read to the end of its header however short it is, and the bytes behind its length then decide what
the server does (`short_handshakeResponse`). Everywhere else the length decides: a short message is
ignored, and the bytes behind the length of a message have no influence (`lengthDecides_iff`). -/

namespace ConnectNcpHost.Ota.ShortResponses

open ConnectNcpHost.Lib.Runs ConnectNcpHost.Stack.ByteUtilities ConnectNcpHost.Ota.Protocol
open ConnectNcpHost.Ota.BootloaderServer ConnectNcpHost.Ota.Transition ConnectNcpHost.Ota.Frames
open ConnectNcpHost.Ota.Processes ConnectNcpHost.Ota.SegmentBounds
open ConnectNcpHost.Ota.AwaitedAnswers

variable {cfg : Config} {s : Server} {m m' : EmberIncomingMessage}

/-! ## Lengths -/

/-- The command of a response. -/
def respCommandId (m : EmberIncomingMessage) : UInt8 :=
  emOtaUnicastBootloaderProtocolCommandId m.payload

/-- The length of the header of a response. A message of no response command has a command id. -/
def respHeaderLength (commandId : UInt8) : UInt16 :=
  if commandId = commandIdHandshakeResponse then handshakeRespHeaderLength
  else if commandId = commandIdExtHandshakeResponse then extHshakeRespHeaderLength
  else if commandId = commandIdImageSegmentResponse then imageSegmentRespHeaderLength
  else if commandId = commandIdBootloadResponse then bootloadRespHeaderLength
  else 1

theorem respHeaderLength_pos (commandId : UInt8) : 0 < (respHeaderLength commandId).toNat := by
  unfold respHeaderLength
  split_ifs <;> decide

/-- A message shorter than the header its command prescribes. -/
def Short (m : EmberIncomingMessage) : Prop :=
  m.length.toNat < (respHeaderLength (respCommandId m)).toNat

instance (m : EmberIncomingMessage) : Decidable (Short m) := by unfold Short; infer_instance

/-- Messages that differ behind their length only. -/
structure SameUpToLength (m m' : EmberIncomingMessage) : Prop where
  options : m'.options = m.options
  source : m'.source = m.source
  endpoint : m'.endpoint = m.endpoint
  length : m'.length = m.length
  payload : ∀ i < m.length.toNat, m'.payload i = m.payload i

/-- **The length of a message decides what of it counts**: a short message changes nothing, and what
stands behind the length has no influence. -/
structure LengthDecides (cfg : Config) (s : Server) (m : EmberIncomingMessage) : Prop where
  short : Short m →
    emAfPluginOtaUnicastBootloaderServerIncomingMessageCallback cfg m s = ⟨s, []⟩
  behind : ∀ m', SameUpToLength m m' →
    emAfPluginOtaUnicastBootloaderServerIncomingMessageCallback cfg m' s =
      emAfPluginOtaUnicastBootloaderServerIncomingMessageCallback cfg m s

/-! ## The condition -/

/-- The states that await a handshake response or a segment response. -/
def AwaitsUnchecked (state : StateOtaServer) : Prop :=
  state = .handshakeWaitingResponse ∨ state = .segmentUnicastPending ∨
    state = .segmentUnicastWaitingResponse

instance (state : StateOtaServer) : Decidable (AwaitsUnchecked state) := by
  unfold AwaitsUnchecked; infer_instance

/-- The statuses of a segment response that a waiting server acts on. -/
def actingStatuses : List UInt8 :=
  [respStatusOutOfSeq, respStatusRefused, respStatusOngoing, respStatusCompleted]

/-- A short message of which as much as was received looks like an awaited handshake response or
segment response. -/
structure ShortAnswer (s : Server) (m : EmberIncomingMessage) : Prop where
  kind : Awaits s.internalState (respCommandId m)
  unchecked : respCommandId m ≠ commandIdBootloadResponse
  short : Short m
  tag : 2 ≤ m.length.toNat → s.currentImageTagOrServerStatus = respTag m
  status : s.internalState = .segmentUnicastWaitingResponse → respStatus m ∈ actingStatuses

instance (s : Server) (m : EmberIncomingMessage) : Decidable (ShortAnswer s m) :=
  decidable_of_iff (_ ∧ _ ∧ _ ∧ _ ∧ _) ⟨fun ⟨h1, h2, h3, h4, h5⟩ => ⟨h1, h2, h3, h4, h5⟩,
    fun ⟨h1, h2, h3, h4, h5⟩ => ⟨h1, h2, h3, h4, h5⟩⟩

/-- The message of the target is no short answer; of an empty message nothing was received. -/
def LengthChecked (s : Server) (m : EmberIncomingMessage) : Prop :=
  FromTarget s m →
    if m.length.toNat = 0 then ¬ AwaitsUnchecked s.internalState else ¬ ShortAnswer s m

instance (s : Server) (m : EmberIncomingMessage) : Decidable (LengthChecked s m) := by
  unfold LengthChecked; infer_instance

theorem awaitsUnchecked_of_awaits {state : StateOtaServer} {commandId : UInt8}
    (h : Awaits state commandId) (hc : commandId ≠ commandIdBootloadResponse) :
    AwaitsUnchecked state := by
  cases state with
  | handshakeWaitingResponse => exact .inl rfl
  | segmentUnicastPending => exact .inr (.inl rfl)
  | segmentUnicastWaitingResponse => exact .inr (.inr rfl)
  | bootloadRequestWaitingResponse => exact absurd h hc
  | _ => exact absurd h id

/-- A short message that is accepted does not meet the condition. -/
theorem not_lengthChecked (h : Awaited s m) (hc : respCommandId m ≠ commandIdBootloadResponse)
    (hs : Short m)
    (hst : s.internalState = .segmentUnicastWaitingResponse → respStatus m ∈ actingStatuses) :
    ¬ LengthChecked s m := by
  intro hl
  have hl := hl h.fromTarget
  split_ifs at hl with h0
  · exact hl (awaitsUnchecked_of_awaits h.kind hc)
  · exact hl ⟨h.kind, hc, hs, fun _ => h.tag, hst⟩

theorem handshake_ne_bootload (h : AcceptsHandshakeResponse s m) :
    respCommandId m ≠ commandIdBootloadResponse := by
  intro hb
  rcases h.command with hc | hc <;> exact absurd (hc.symm.trans hb) (by decide)

theorem segment_ne_bootload (h : AcceptsSegmentResponse s m) :
    respCommandId m ≠ commandIdBootloadResponse :=
  fun hb => absurd (h.command.symm.trans hb) (by decide)

/-- An accepted bootload response is not short. -/
theorem not_short_of_bootload (h : AcceptsBootloadResponse s m) : ¬ Short m := by
  have hc : respCommandId m = commandIdBootloadResponse := h.command
  unfold Short
  rw [hc, h.length]
  decide

/-- **Under the condition a short message is ignored.** -/
theorem eq_of_short {o : Outcome} (h : LengthChecked s m) (hs : Short m)
    (ht : MessageTrans cfg s m o) : o = ⟨s, []⟩ := by
  have hhand : ¬ AcceptsHandshakeResponse s m := fun ha =>
    not_lengthChecked (awaited_of_handshake ha) (handshake_ne_bootload ha) hs
      (fun hw => by cases ha.state.symm.trans hw) h
  have hseg : AcceptsSegmentResponse s m → ¬ (s.internalState = .segmentUnicastWaitingResponse →
      respStatus m ∈ actingStatuses) := fun ha hst =>
    not_lengthChecked (awaited_of_segment ha) (segment_ne_bootload ha) hs hst h
  cases ht with
  | ignored _ _ _ => rfl
  | handshakeEnded ha _ => exact absurd ha hhand
  | handshakeAccepted ha _ _ => exact absurd ha hhand
  | bootloadAnswered ha => exact absurd hs (not_short_of_bootload ha)
  | segmentEnded ha he =>
    refine absurd (fun _ => ?_) (hseg ha)
    cases he with
    | outOfSeq he => simp [actingStatuses, he]
    | refused he => simp [actingStatuses, he]
    | mismatch he _ => simp [actingStatuses, he]
    | completed he => simp [actingStatuses, he]
  | segmentAdvanced ha he _ _ => exact absurd (fun _ => by simp [actingStatuses, he]) (hseg ha)
  | segmentWrapped ha he _ _ => exact absurd (fun _ => by simp [actingStatuses, he]) (hseg ha)
  | segmentIgnored ha _ =>
    rcases ha.state with hst | hst
    · exact absurd (fun hw => by cases hst.symm.trans hw) (hseg ha)
    · rw [← hst]

/-! ## What the length decides -/

theorem SameUpToLength.fromTarget_iff (h : SameUpToLength m m') :
    FromTarget s m' ↔ FromTarget s m := by
  constructor
  · rintro ⟨he, ho, hs⟩
    exact ⟨h.endpoint ▸ he, h.options ▸ ho, h.source ▸ hs⟩
  · rintro ⟨he, ho, hs⟩
    exact ⟨h.endpoint.trans he, h.options.symm ▸ ho, h.source.trans hs⟩

/-- The frame control is received with the first byte. -/
theorem SameUpToLength.frameControl_eq (h : SameUpToLength m m') (h0 : 0 < m.length.toNat) :
    m'.payload frameControlOffset = m.payload frameControlOffset := h.payload 0 h0

theorem SameUpToLength.respCommandId_eq (h : SameUpToLength m m') (h0 : 0 < m.length.toNat) :
    respCommandId m' = respCommandId m := by
  unfold respCommandId emOtaUnicastBootloaderProtocolCommandId
  rw [h.frameControl_eq h0]

theorem SameUpToLength.respStatus_eq (h : SameUpToLength m m') (h0 : 0 < m.length.toNat) :
    respStatus m' = respStatus m := by
  unfold respStatus emOtaUnicastBootloaderProtocolResponseStatus
  rw [h.frameControl_eq h0]

theorem SameUpToLength.respIndex_eq (h : SameUpToLength m m') (h6 : 6 ≤ m.length.toNat) :
    respIndex m' = respIndex m := by
  have hp : ∀ i < 6, m'.payload i = m.payload i := fun i hi => h.payload i (by omega)
  simp only [respIndex, imageSegmentRespIndexOffset, emberFetchLowHighInt32u, emFetchInt32u, if_true,
    hp 2 (by omega), hp (2 + 1) (by omega), hp (2 + 2) (by omega), hp (2 + 3) (by omega)]

theorem SameUpToLength.short_iff (h : SameUpToLength m m') : Short m' ↔ Short m := by
  unfold Short
  rw [h.length]
  rcases Nat.eq_zero_or_pos m.length.toNat with h0 | h0
  · have hm := respHeaderLength_pos (respCommandId m)
    have hm' := respHeaderLength_pos (respCommandId m')
    omega
  · rw [h.respCommandId_eq h0]

/-- The condition looks at what was received only. -/
theorem SameUpToLength.lengthChecked (h : SameUpToLength m m') (hl : LengthChecked s m) :
    LengthChecked s m' := by
  intro hf
  have hl := hl (h.fromTarget_iff.mp hf)
  rw [h.length]
  split_ifs at hl ⊢ with h0
  · exact hl
  · have hpos := Nat.pos_of_ne_zero h0
    have hc := h.respCommandId_eq hpos
    rintro ⟨hk, hb, hs, ht, hst⟩
    refine hl ⟨hc ▸ hk, hc ▸ hb, h.short_iff.mp hs, fun h2 => ?_, fun hw => ?_⟩
    · rw [respTag_eq, ← h.payload 1 h2, ← respTag_eq]
      exact ht (h.length ▸ h2)
    · rw [← h.respStatus_eq hpos]
      exact hst hw

theorem handleHandshakeResponse_congr (hst : respStatus m' = respStatus m) (k : UInt32) :
    handleHandshakeResponse cfg m' k s = handleHandshakeResponse cfg m k s := by
  unfold respStatus at hst
  unfold handleHandshakeResponse
  rw [hst]

theorem handleSegmentResponse_congr (hst : respStatus m' = respStatus m)
    (hi : respIndex m' = respIndex m) :
    handleSegmentResponse cfg m' s = handleSegmentResponse cfg m s := by
  unfold respStatus at hst
  unfold respIndex at hi
  unfold handleSegmentResponse
  rw [hst, hi]

/-- **A message that is not short is read within its length.** One case per response command. -/
theorem callback_congr (h : SameUpToLength m m') (hs : ¬ Short m) :
    emAfPluginOtaUnicastBootloaderServerIncomingMessageCallback cfg m' s =
      emAfPluginOtaUnicastBootloaderServerIncomingMessageCallback cfg m s := by
  have hle : (respHeaderLength (respCommandId m)).toNat ≤ m.length.toNat := not_lt.mp hs
  have hpos := lt_of_lt_of_le (respHeaderLength_pos _) hle
  have hc := h.respCommandId_eq hpos
  have hst := h.respStatus_eq hpos
  unfold emAfPluginOtaUnicastBootloaderServerIncomingMessageCallback
  rw [h.endpoint, h.options, h.source, h.length]
  unfold respCommandId at hc hle
  dsimp only
  rw [hc]
  by_cases c1 : emOtaUnicastBootloaderProtocolCommandId m.payload = commandIdHandshakeResponse
  · have h3 : 3 ≤ m.length.toNat := by rw [c1] at hle; exact hle
    have htag : m'.payload handshakeRespTagOffset = m.payload handshakeRespTagOffset :=
      h.payload 1 (by omega)
    rw [if_pos c1, if_pos c1, htag, handleHandshakeResponse_congr hst]
  by_cases c2 : emOtaUnicastBootloaderProtocolCommandId m.payload = commandIdExtHandshakeResponse
  · have h6 : 6 ≤ m.length.toNat := by rw [c2] at hle; exact hle
    have htag : m'.payload extHshakeRespTagOffset = m.payload extHshakeRespTagOffset :=
      h.payload 1 (by omega)
    have hi : emberFetchLowHighInt32u m'.payload extHshakeRespSegmentIndexOffset =
        emberFetchLowHighInt32u m.payload extHshakeRespSegmentIndexOffset := h.respIndex_eq h6
    rw [if_neg c1, if_neg c1, if_pos c2, if_pos c2, htag, hi, handleHandshakeResponse_congr hst]
  by_cases c3 : emOtaUnicastBootloaderProtocolCommandId m.payload = commandIdImageSegmentResponse
  · have h7 : 7 ≤ m.length.toNat := by rw [c3] at hle; exact hle
    have htag : m'.payload imageSegmentRespTagOffset = m.payload imageSegmentRespTagOffset :=
      h.payload 1 (by omega)
    rw [if_neg c1, if_neg c1, if_neg c2, if_neg c2, if_pos c3, if_pos c3, htag,
      handleSegmentResponse_congr hst (h.respIndex_eq (by omega))]
  · unfold respStatus at hst
    rw [if_neg c1, if_neg c1, if_neg c2, if_neg c2, if_neg c3, if_neg c3, hst]

theorem lengthDecides_of_lengthChecked (cfg : Config) (h : LengthChecked s m) :
    LengthDecides cfg s m where
  short hs := eq_of_short h hs (incomingMessage_trans cfg s m)
  behind m' hm := by
    by_cases hs : Short m
    · rw [eq_of_short h hs (incomingMessage_trans cfg s m),
        eq_of_short (hm.lengthChecked h) (hm.short_iff.mpr hs) (incomingMessage_trans cfg s m')]
    · exact callback_congr hm hs

/-! ## The image size of a process -/

/-- **Invariant.** An image distribution has an image size that was accepted. -/
def SizeInv (s : Server) : Prop :=
  ∀ r : Request, requestOf s.internalState = some r → r.process = .imageDistribution →
    ImageSizeOk s.currentImageSizeOrBootloadTimeMs

theorem SizeInv.continues {s' : Server} (h : SizeInv s) (hc : Continues s s')
    (hz : s'.currentImageSizeOrBootloadTimeMs = s.currentImageSizeOrBootloadTimeMs) :
    SizeInv s' := by
  intro r hr hp
  rw [hz]
  cases hc with
  | ended hs => rw [hs] at hr; cases hr
  | kept hs => exact h r (hs ▸ hr) hp
  | @moved r1 r2 h1 h2 h12 =>
    obtain rfl : r2 = r := Option.some.inj (h2.symm.trans hr)
    exact h r1 h1 (h12.symm.trans hp)

theorem size_of_failed {r : Request} {o : Outcome} (ho : Failed cfg r s o) :
    o.server.currentImageSizeOrBootloadTimeMs = s.currentImageSizeOrBootloadTimeMs := by
  cases ho <;> rfl

theorem size_of_message {o : Outcome} (ht : MessageTrans cfg s m o) :
    o.server.currentImageSizeOrBootloadTimeMs = s.currentImageSizeOrBootloadTimeMs := by
  cases ht with
  | handshakeAccepted _ _ ho => exact (size_of_failed ho).trans rfl
  | _ => rfl

theorem size_of_sent {status : EmberStatus} {f : EmberOutgoingMessage} {o : Outcome}
    (ht : SentTrans cfg s status f o) :
    o.server.currentImageSizeOrBootloadTimeMs = s.currentImageSizeOrBootloadTimeMs := by
  cases ht with
  | failed _ _ _ he ho =>
    rw [size_of_failed ho]
    cases he <;> rfl
  | _ => rfl

theorem size_of_event {env : EventEnv} {o : Outcome} (ht : EventTrans cfg s env o) :
    o.server.currentImageSizeOrBootloadTimeMs = s.currentImageSizeOrBootloadTimeMs := by
  cases ht with
  | @submitted r _ _ _ _ => cases r <;> rfl
  | notSubmitted _ _ _ ho => exact (size_of_failed ho).trans rfl
  | timedOut _ ho => exact (size_of_failed ho).trans rfl
  | _ => rfl

theorem sizeInv_finished (s : Server) : SizeInv (finished s) := fun _ hr _ => by cases hr

theorem sizeInv_call {i : Input} {o : Outcome} (h : SizeInv s) (ht : CallTrans s i o) :
    SizeInv o.server := by
  cases ht with
  | refused _ _ => exact h
  | imageStarted _ _ h0 hm => exact fun _ _ _ => ⟨h0, hm⟩
  | bootloadStarted _ _ =>
    intro r hr hp
    cases hr
    cases hp
  | aborted _ _ => exact sizeInv_finished s

theorem sizeInv_of_reach (h : (ota cfg).Reach free s) : SizeInv s := by
  refine System.Reach.invariant (fun s hs => ?_) (fun s i s' os _ h _ hst => ?_) h
  · rw [show s = Server.init from hs]
    exact sizeInv_finished Server.init
  · cases trans_of_step hst with
    | call ht => exact sizeInv_call h ht
    | message ht => exact h.continues (continues_message ht) (size_of_message ht)
    | sent ht => exact h.continues (continues_sent ht) (size_of_sent ht)
    | timer _ ht => exact h.continues (continues_event ht) (size_of_event ht)
    | timerIgnored _ => exact h
    | event _ ht => exact h.continues (continues_event ht) (size_of_event ht)

/-! ## A short answer acts -/

/-- An awaited answer that is no bootload response passes the filter of its kind. -/
theorem accepts_of_awaited (h : Awaited s m) (hc : respCommandId m ≠ commandIdBootloadResponse) :
    AcceptsHandshakeResponse s m ∨ AcceptsSegmentResponse s m := by
  obtain ⟨hf, hk, ht⟩ := h
  rw [respTag_eq] at ht
  have hk' : Awaits s.internalState (respCommandId m) := hk
  generalize hst : s.internalState = st at hk'
  cases st with
  | handshakeWaitingResponse => exact .inl ⟨hf, hst, ht, hk'⟩
  | segmentUnicastPending => exact .inr ⟨hf, .inl hst, ht, hk'⟩
  | segmentUnicastWaitingResponse => exact .inr ⟨hf, .inr hst, ht, hk'⟩
  | bootloadRequestWaitingResponse => exact absurd hk' hc
  | _ => exact absurd hk' id

/-- A server in another state is not the server before. -/
theorem ne_of_internalState {s' : Server} (h : s'.internalState ≠ s.internalState) : s' ≠ s :=
  fun hs => h (by rw [hs])

theorem finished_ne {r : Request} (hs : requestOf s.internalState = some r) : finished s ≠ s := by
  refine ne_of_internalState fun h => ?_
  rw [← show StateOtaServer.idle = s.internalState from h] at hs
  cases hs

/-- An accepted handshake response never leaves the server as it was. -/
theorem ne_of_handshake {o : Outcome} (h : AcceptsHandshakeResponse s m)
    (ht : MessageTrans cfg s m o) : o.server ≠ s := by
  have hr : requestOf s.internalState = some .handshake := congrArg requestOf h.state
  have hseg : ¬ AcceptsSegmentResponse s m := fun ha => by cases hr.symm.trans ha.requestOf_eq
  cases ht with
  | ignored hh _ _ => exact absurd h hh
  | handshakeEnded _ _ => exact finished_ne hr
  | handshakeAccepted _ _ ho =>
    refine ne_of_internalState ?_
    rw [h.state]
    cases ho with
    | retried _ _ => exact interval_ne_waiting .imageSegment .handshake
    | gaveUp _ => exact (idle_ne (r := .handshake)).2.2
  | segmentEnded ha _ => exact absurd ha hseg
  | segmentAdvanced ha _ _ _ => exact absurd ha hseg
  | segmentWrapped ha _ _ _ => exact absurd ha hseg
  | segmentIgnored ha _ => exact absurd ha hseg
  | bootloadAnswered ha => cases h.state.symm.trans ha.state

/-- An accepted segment response leaves the server as it was only where it is waiting and the status
is none it acts on: the image has a segment, and the index that wraps was past it. -/
theorem ne_of_segment {o : Outcome} (hsize : SizeInv s) (h : AcceptsSegmentResponse s m)
    (hst : s.internalState = .segmentUnicastWaitingResponse → respStatus m ∈ actingStatuses)
    (ht : MessageTrans cfg s m o) : o.server ≠ s := by
  have hr := h.requestOf_eq
  cases ht with
  | ignored _ hs _ => exact absurd h hs
  | handshakeEnded ha _ => cases (congrArg requestOf ha.state).symm.trans hr
  | handshakeAccepted ha _ _ => cases (congrArg requestOf ha.state).symm.trans hr
  | segmentEnded _ _ => exact finished_ne hr
  | segmentAdvanced _ _ _ _ =>
    refine ne_of_internalState fun hi => ?_
    rcases h.state with hs | hs <;> cases hi.trans hs
  | segmentWrapped _ _ _ hn =>
    intro ho
    have h0 : (0 : UInt32) = s.nextSegment := congrArg Server.nextSegment ho
    have hpos := (hsize _ hr rfl).pos
    exact hn (lt_getTotalSegmentsCount_iff.mpr (by rw [← h0]; exact hpos))
  | segmentIgnored _ hne =>
    rcases h.state with hs | hs
    · refine ne_of_internalState ?_
      rw [hs]
      exact waiting_ne_pending .imageSegment .imageSegment
    · have hmem := hst hs
      simp only [actingStatuses, List.mem_cons, List.not_mem_nil, or_false] at hmem
      obtain ⟨h1, h2, h3, h4⟩ := hne
      rcases hmem with h | h | h | h
      · exact absurd h h1
      · exact absurd h h2
      · exact absurd h h3
      · exact absurd h h4
  | bootloadAnswered ha => cases (congrArg requestOf ha.state).symm.trans hr

theorem acts_of_awaited (cfg : Config) (hsize : SizeInv s) (h : Awaited s m)
    (hc : respCommandId m ≠ commandIdBootloadResponse)
    (hst : s.internalState = .segmentUnicastWaitingResponse → respStatus m ∈ actingStatuses) :
    (emAfPluginOtaUnicastBootloaderServerIncomingMessageCallback cfg m s).server ≠ s := by
  have ht := incomingMessage_trans cfg s m
  rcases accepts_of_awaited h hc with ha | ha
  · exact ne_of_handshake ha ht
  · exact ne_of_segment hsize ha hst ht

/-! ## The condition is needed -/

/-- Where another message of the same received bytes is accepted, the length does not decide. -/
theorem not_lengthDecides (cfg : Config) (hsize : SizeInv s) (h : SameUpToLength m m')
    (ha : Awaited s m') (hc : respCommandId m' ≠ commandIdBootloadResponse)
    (hst : s.internalState = .segmentUnicastWaitingResponse → respStatus m' ∈ actingStatuses)
    (hs : Short m) : ¬ LengthDecides cfg s m := by
  intro hd
  exact acts_of_awaited cfg hsize ha hc hst
    (congrArg Outcome.server ((hd.behind m' h).trans (hd.short hs)))

/-- The message with other first bytes. -/
def withHeader (m : EmberIncomingMessage) (frameControl tag : UInt8) : EmberIncomingMessage :=
  { m with payload := fun i => if i = 0 then frameControl else if i = 1 then tag else m.payload i }

/-- What an empty message can be taken for. -/
theorem exists_answer (h : AwaitsUnchecked s.internalState) (hf : FromTarget s m) :
    ∃ frameControl, let m' := withHeader m frameControl s.currentImageTagOrServerStatus
      Awaited s m' ∧ respCommandId m' ≠ commandIdBootloadResponse ∧
        respStatus m' = respStatusRefused := by
  have hf' : ∀ b t, FromTarget s (withHeader m b t) := fun _ _ =>
    ⟨hf.endpoint, hf.secured, hf.source⟩
  have htag : ∀ b t, t = respTag (withHeader m b t) := fun b t => by rw [respTag_eq]; rfl
  have hcommand : ∀ b t, respCommandId (withHeader m b t) =
      (b &&& frameControlCommandIdMask) >>> frameControlCommandIdOffset := fun _ _ => rfl
  have hstatus : ∀ b t, respStatus (withHeader m b t) =
      (b &&& frameControlRespStatusMask) >>> frameControlRespStatusOffset := fun _ _ => rfl
  -- the frame controls of a refusal
  rcases h with h | h | h
  · refine ⟨0x35, ⟨hf' _ _, ?_, htag _ _⟩, by rw [hcommand]; decide, by rw [hstatus]; decide⟩
    rw [h]
    exact .inl (hcommand _ _)
  · refine ⟨0x31, ⟨hf' _ _, ?_, htag _ _⟩, by rw [hcommand]; decide, by rw [hstatus]; decide⟩
    rw [h]
    exact hcommand _ _
  · refine ⟨0x31, ⟨hf' _ _, ?_, htag _ _⟩, by rw [hcommand]; decide, by rw [hstatus]; decide⟩
    rw [h]
    exact hcommand _ _

theorem lengthChecked_of_lengthDecides (hsize : SizeInv s) (hd : LengthDecides cfg s m) :
    LengthChecked s m := by
  intro hf
  split_ifs with h0
  · intro hu
    obtain ⟨b, ha, hc, hst⟩ := exists_answer hu hf
    have hsame : SameUpToLength m (withHeader m b s.currentImageTagOrServerStatus) :=
      ⟨rfl, rfl, rfl, rfl, fun i hi => by omega⟩
    have hs : Short m := by
      unfold Short
      rw [h0]
      exact respHeaderLength_pos _
    exact not_lengthDecides cfg hsize hsame ha hc (fun _ => by simp [actingStatuses, hst]) hs hd
  · rintro ⟨hk, hb, hs, ht, hst⟩
    -- the byte at the tag offset, where it was not received
    have hsame : SameUpToLength m
        (withHeader m (m.payload 0) s.currentImageTagOrServerStatus) := by
      refine ⟨rfl, rfl, rfl, rfl, fun i hi => ?_⟩
      by_cases h1 : i = 1
      · subst h1
        rw [← respTag_eq m, ← ht hi]
        rfl
      · by_cases hi0 : i = 0
        · subst hi0; rfl
        · simp only [withHeader, if_neg h1, if_neg hi0]
    exact not_lengthDecides cfg hsize hsame
      ⟨⟨hf.endpoint, hf.secured, hf.source⟩, hk, by rw [respTag_eq]; rfl⟩ hb hst hs hd

/-- **The length of a message decides exactly where the message is no short answer.** -/
theorem lengthDecides_iff (h : (ota cfg).Reach free s) (m : EmberIncomingMessage) :
    LengthDecides cfg s m ↔ LengthChecked s m :=
  ⟨lengthChecked_of_lengthDecides (sizeInv_of_reach h), lengthDecides_of_lengthChecked cfg⟩

/-- The server that awaits the handshake response of a transfer. -/
theorem reach_handshakeWaiting : (ota defaultConfig).Reach free
    (transferServer 5 150 7 .handshakeWaitingResponse 0) :=
  System.reach_of_exec_fst (handshakeRun 5 150 7) (.start rfl) (by decide +kernel)

/-- A handshake response of three bytes. -/
theorem lengthDecides_iff_handshake :
    LengthDecides defaultConfig (transferServer 5 150 7 .handshakeWaitingResponse 0)
      (handshakeResponse 5 respStatusOngoing 7) :=
  (lengthDecides_iff reach_handshakeWaiting _).mpr (by decide +kernel)

/-- **A handshake response of one byte** is taken, with the tag that stands behind it. -/
theorem short_handshakeResponse : ¬ ∀ (cfg : Config) (s : Server), (ota cfg).Reach free s →
    ∀ m, LengthDecides cfg s m := by
  intro h
  have hd := h defaultConfig _ reach_handshakeWaiting
    (response 5 commandIdHandshakeResponse respStatusRefused 7 0 1)
  have hf := congrArg (fun o => o.server.internalState) (hd.short (by decide +kernel))
  exact absurd hf (by decide +kernel)

/-! ## Runs

A handler copies as many bytes of a message as its length says; the bytes behind them are what the
array on its stack held before. `exec_congr` says of a whole run that the server never acts on
these. -/

/-- The same input, or a message that differs behind its length. Of a message that was sent, the
server reads the endpoint and the first byte. -/
inductive SameInput : Input → Input → Prop
  | refl (i : Input) : SameInput i i
  | message {m m' : EmberIncomingMessage} (h : SameUpToLength m m') :
      SameInput (.incomingMessage m) (.incomingMessage m')
  | sent (status : EmberStatus) {m m' : EmberOutgoingMessage} (he : m'.endpoint = m.endpoint)
      (h0 : m'.payload 0 = m.payload 0) :
      SameInput (.messageSent status m) (.messageSent status m')

/-- The condition on the steps of a run. -/
def LengthsChecked (s : Server) : Input → Prop
  | .incomingMessage m => LengthChecked s m
  | _ => True

instance (s : Server) (i : Input) : Decidable (LengthsChecked s i) := by
  refine i.casesOn ?_ ?_ ?_ ?_ ?_ ?_ ?_ <;> intros <;> unfold LengthsChecked <;> infer_instance

theorem step_congr {i i' : Input} (h : SameInput i i') (hi : LengthsChecked s i) :
    (ota cfg).step s i' = (ota cfg).step s i := by
  cases h with
  | refl => rfl
  | @message m m' h =>
    have hd : LengthDecides cfg s m := lengthDecides_of_lengthChecked cfg hi
    simp only [ota, handle, hd.behind m' h]
  | @sent status m m' he h0 =>
    have hcommand : emOtaUnicastBootloaderProtocolCommandId m'.payload =
        emOtaUnicastBootloaderProtocolCommandId m.payload := by
      unfold emOtaUnicastBootloaderProtocolCommandId
      rw [frameControlOffset, h0]
    have hsent : emAfPluginOtaUnicastBootloaderServerMessageSentCallback cfg status m' s =
        emAfPluginOtaUnicastBootloaderServerMessageSentCallback cfg status m s := by
      unfold emAfPluginOtaUnicastBootloaderServerMessageSentCallback
      rw [he, hcommand]
    simp only [ota, handle, hsent]

/-- **What stands behind the length of the messages has no influence on a run.** The induction goes
along the two lists of inputs. -/
theorem exec_congr {is is' : List Input} (h : List.Forall₂ SameInput is is') :
    ∀ {s : Server} {r : Server × List Action}, (ota cfg).exec LengthsChecked s is = some r →
      (ota cfg).exec free s is' = some r := by
  induction h with
  | nil => exact fun h => h
  | @cons i i' is is' hi _ ih =>
    rintro s ⟨s', as⟩ hr
    obtain ⟨s1, as1, as2, hok, hst, hrest, rfl⟩ := System.exec_cons hr
    exact System.exec_of_step trivial ((step_congr hi hok).trans hst) (ih hrest)

end ConnectNcpHost.Ota.ShortResponses
