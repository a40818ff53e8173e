import ConnectNcpHost.Ota.BootloaderServer

/-! # What one handler can do

The three requests of the server (handshake, image segment, bootload request) go through the same
three states: an interval, a submission that awaits its sent callback, a response that is awaited.
`Trans cfg s i o` lists every outcome `o` of the server `s` under the input `i`, with the conditions
that led there, and `trans_of_handle` is the inversion of `handle`. The invariants of the following
modules go through the cases of `Trans` and never unfold the handlers. -/

namespace ConnectNcpHost.Ota.Transition

open ConnectNcpHost.Stack.ByteUtilities ConnectNcpHost.Ota.Protocol
open ConnectNcpHost.Ota.BootloaderServer

/-! ## Requests and processes -/

/-- What the server asks of the target. -/
inductive Request
  | handshake
  | imageSegment
  | bootloadRequest
  deriving DecidableEq, Repr

/-- The two kinds of process. -/
inductive Process
  | imageDistribution
  | bootloadRequest
  deriving DecidableEq, Repr

namespace Request

def interval : Request → StateOtaServer
  | handshake => .handshakeInterval
  | imageSegment => .segmentUnicastInterval
  | bootloadRequest => .bootloadRequestUnicastInterval

def pending : Request → StateOtaServer
  | handshake => .handshakePending
  | imageSegment => .segmentUnicastPending
  | bootloadRequest => .bootloadRequestUnicastPending

def waiting : Request → StateOtaServer
  | handshake => .handshakeWaitingResponse
  | imageSegment => .segmentUnicastWaitingResponse
  | bootloadRequest => .bootloadRequestWaitingResponse

def commandId : Request → UInt8
  | handshake => commandIdHandshake
  | imageSegment => commandIdImageSegment
  | bootloadRequest => commandIdBootloadRequest

def process : Request → Process
  | handshake | imageSegment => .imageDistribution
  | bootloadRequest => .bootloadRequest

/-- The `emberMessageSend` of this request has returned. -/
def sent (cfg : Config) (status : EmberStatus) (s : Server) : Request → Outcome
  | handshake => unicastHandshakeSent cfg status s
  | imageSegment => unicastNextSegmentSent cfg status s
  | bootloadRequest => requestTargetForBootloadSent cfg status s

/-- The server once this request was accepted for transmission. -/
def submitted (s : Server) : Request → Server
  | imageSegment => { s with internalState := .segmentUnicastPending, sentSegment := s.nextSegment }
  | r => { s with internalState := r.pending }

end Request

/-- The request a state belongs to. -/
def requestOf : StateOtaServer → Option Request
  | .handshakeInterval | .handshakePending | .handshakeWaitingResponse => some .handshake
  | .segmentUnicastInterval | .segmentUnicastPending | .segmentUnicastWaitingResponse =>
    some .imageSegment
  | .bootloadRequestUnicastInterval | .bootloadRequestUnicastPending
  | .bootloadRequestWaitingResponse => some .bootloadRequest
  | .idle | .imageDistributionCompleted | .bootloadRequestCompleted => none

/-- The completion callback of a process. -/
def Process.complete (status : EmberAfOtaUnicastBootloaderStatus) : Process → Action
  | imageDistribution => .imageDistributionComplete status
  | bootloadRequest => .requestTargetBootloadComplete status

/-- The server after its process has finished. -/
def finished (s : Server) : Server := { s with otaEventIsActive := false, internalState := .idle }

theorem imageDistributionProcessFinished_eq (st : EmberAfOtaUnicastBootloaderStatus) (s : Server) :
    imageDistributionProcessFinished st s =
      ⟨finished s, [Process.complete st .imageDistribution]⟩ := rfl

theorem bootloadRequestProcessFinished_eq (st : EmberAfOtaUnicastBootloaderStatus) (s : Server) :
    bootloadRequestProcessFinished st s = ⟨finished s, [Process.complete st .bootloadRequest]⟩ :=
  rfl

/-- `it_value.tv_nsec` of `sli_connect_ota_unicast_server_schedule_next_event` -/
def tvNsec (timeMs : UInt16) : ℕ := if timeMs ≠ 0 then timeMs.toNat * 1000000 else 1

/-- Below one second `timerfd_settime` accepts it. -/
theorem tvNsec_range {timeMs : UInt16} (hle : timeMs ≤ 999) :
    tvNsec timeMs ≠ 0 ∧ tvNsec timeMs ≤ 999999999 := by
  have hle' := UInt16.le_iff_toNat_le.mp hle
  have h999 : (999 : UInt16).toNat = 999 := rfl
  unfold tvNsec
  split_ifs with h0
  · have : timeMs.toNat ≠ 0 := fun h => h0 (UInt16.toNat_inj.mp h)
    omega
  · omega

/-- The server with an event scheduled in the state `st`. -/
def scheduled (st : StateOtaServer) (s : Server) : Server :=
  { s with internalState := st, otaEventIsActive := true }

/-- The image-segment callback is asked before a segment is submitted, and nothing else before. -/
def Request.prelude (s : Server) : Request → List Action
  | .imageSegment => [segmentCallback s]
  | _ => []

/-- The frame a request is submitted with. -/
inductive IsFrame (env : EventEnv) (s : Server) : Request → EmberOutgoingMessage → Prop
  | handshake : IsFrame env s .handshake (handshakeFrame env.stack s)
  | imageSegment {imageSegment : List UInt8}
      (h : env.getImageSegment (segmentStartIndex s) (segmentEndIndex s)
        s.currentImageTagOrServerStatus = some imageSegment) :
      IsFrame env s .imageSegment (segmentFrame env.stack imageSegment s)
  | bootloadRequest :
      IsFrame env s .bootloadRequest (bootloadRequestFrame env.stack env.nowMs s)

@[simp] theorem requestOf_idle : requestOf .idle = none := rfl

@[simp] theorem requestOf_interval (r : Request) : requestOf r.interval = some r := by
  cases r <;> rfl

@[simp] theorem requestOf_pending (r : Request) : requestOf r.pending = some r := by
  cases r <;> rfl

@[simp] theorem requestOf_waiting (r : Request) : requestOf r.waiting = some r := by
  cases r <;> rfl

theorem interval_ne_pending (r r' : Request) : r.interval ≠ r'.pending := by
  cases r <;> cases r' <;> decide

theorem interval_ne_waiting (r r' : Request) : r.interval ≠ r'.waiting := by
  cases r <;> cases r' <;> decide

theorem waiting_ne_pending (r r' : Request) : r.waiting ≠ r'.pending := by
  cases r <;> cases r' <;> decide

theorem idle_ne {r : Request} :
    .idle ≠ r.interval ∧ .idle ≠ r.pending ∧ .idle ≠ r.waiting := by
  cases r <;> decide

/-- The states of a request. -/
theorem requestOf_eq_some_iff {st : StateOtaServer} {r : Request} :
    requestOf st = some r ↔ st = r.interval ∨ st = r.pending ∨ st = r.waiting := by
  constructor
  · intro h
    cases r <;> cases st <;> first | exact absurd h (by decide) | decide
  · rintro (rfl | rfl | rfl) <;> simp

/-- What a submission leaves unchanged. -/
@[simp] theorem Request.submitted_internalState (r : Request) (s : Server) :
    (r.submitted s).internalState = r.pending := by
  cases r <;> rfl

/-! ## Accepted messages -/

/-- The sent message is one of the server's and carries this request. -/
def Carries (m : EmberOutgoingMessage) (r : Request) : Prop :=
  m.endpoint = emberAfPluginOtaUnicastBootloaderServerEndpoint ∧
    emOtaUnicastBootloaderProtocolCommandId m.payload = r.commandId

instance (m : EmberOutgoingMessage) (r : Request) : Decidable (Carries m r) := by
  unfold Carries; infer_instance

instance {P : Request → Prop} [DecidablePred P] : Decidable (∃ r, P r) :=
  decidable_of_iff (P .handshake ∨ P .imageSegment ∨ P .bootloadRequest)
    ⟨fun h => h.elim (⟨_, ·⟩) fun h => h.elim (⟨_, ·⟩) (⟨_, ·⟩), fun ⟨r, h⟩ => by
      cases r with
      | handshake => exact .inl h
      | imageSegment => exact .inr (.inl h)
      | bootloadRequest => exact .inr (.inr h)⟩

/-- A secured message from the target, on the server's endpoint. -/
structure FromTarget (s : Server) (m : EmberIncomingMessage) : Prop where
  endpoint : m.endpoint = emberAfPluginOtaUnicastBootloaderServerEndpoint
  secured : m.options &&& emberOptionsSecurityEnabled ≠ 0
  source : m.source = s.targetId

/-- The server accepts the message as a handshake response. -/
structure AcceptsHandshakeResponse (s : Server) (m : EmberIncomingMessage) : Prop where
  fromTarget : FromTarget s m
  state : s.internalState = .handshakeWaitingResponse
  tag : s.currentImageTagOrServerStatus = m.payload handshakeRespTagOffset
  command : emOtaUnicastBootloaderProtocolCommandId m.payload = commandIdHandshakeResponse ∨
    emOtaUnicastBootloaderProtocolCommandId m.payload = commandIdExtHandshakeResponse

/-- The segment a handshake response starts at: the plain one starts at the first. -/
def startSegment (m : EmberIncomingMessage) : UInt32 :=
  if emOtaUnicastBootloaderProtocolCommandId m.payload = commandIdExtHandshakeResponse then
    emberFetchLowHighInt32u m.payload extHshakeRespSegmentIndexOffset
  else 0

/-- The server accepts the message as a response to a segment. -/
structure AcceptsSegmentResponse (s : Server) (m : EmberIncomingMessage) : Prop where
  fromTarget : FromTarget s m
  state : s.internalState = .segmentUnicastPending ∨
    s.internalState = .segmentUnicastWaitingResponse
  tag : s.currentImageTagOrServerStatus = m.payload imageSegmentRespTagOffset
  command : emOtaUnicastBootloaderProtocolCommandId m.payload = commandIdImageSegmentResponse

theorem AcceptsSegmentResponse.requestOf_eq {s : Server} {m : EmberIncomingMessage}
    (h : AcceptsSegmentResponse s m) : requestOf s.internalState = some .imageSegment := by
  rcases h.state with hs | hs <;> rw [hs] <;> rfl

/-- The server accepts the message as a bootload response. -/
structure AcceptsBootloadResponse (s : Server) (m : EmberIncomingMessage) : Prop where
  fromTarget : FromTarget s m
  state : s.internalState = .bootloadRequestWaitingResponse
  length : m.length = bootloadRespHeaderLength
  command : emOtaUnicastBootloaderProtocolCommandId m.payload = commandIdBootloadResponse

instance (s : Server) (m : EmberIncomingMessage) : Decidable (FromTarget s m) :=
  decidable_of_iff (_ ∧ _ ∧ _) ⟨fun ⟨h1, h2, h3⟩ => ⟨h1, h2, h3⟩, fun ⟨h1, h2, h3⟩ => ⟨h1, h2, h3⟩⟩

instance (s : Server) (m : EmberIncomingMessage) : Decidable (AcceptsHandshakeResponse s m) :=
  decidable_of_iff (_ ∧ _ ∧ _ ∧ _)
    ⟨fun ⟨h1, h2, h3, h4⟩ => ⟨h1, h2, h3, h4⟩, fun ⟨h1, h2, h3, h4⟩ => ⟨h1, h2, h3, h4⟩⟩

instance (s : Server) (m : EmberIncomingMessage) : Decidable (AcceptsSegmentResponse s m) :=
  decidable_of_iff (_ ∧ _ ∧ _ ∧ _)
    ⟨fun ⟨h1, h2, h3, h4⟩ => ⟨h1, h2, h3, h4⟩, fun ⟨h1, h2, h3, h4⟩ => ⟨h1, h2, h3, h4⟩⟩

instance (s : Server) (m : EmberIncomingMessage) : Decidable (AcceptsBootloadResponse s m) :=
  decidable_of_iff (_ ∧ _ ∧ _ ∧ _)
    ⟨fun ⟨h1, h2, h3, h4⟩ => ⟨h1, h2, h3, h4⟩, fun ⟨h1, h2, h3, h4⟩ => ⟨h1, h2, h3, h4⟩⟩

/-- The status and the index a response carries. -/
def respStatus (m : EmberIncomingMessage) : UInt8 :=
  emOtaUnicastBootloaderProtocolResponseStatus m.payload

def respIndex (m : EmberIncomingMessage) : UInt32 :=
  emberFetchLowHighInt32u m.payload imageSegmentRespIndexOffset

/-- The segment responses that end the process, with the status they end it with. -/
inductive SegmentEnd (s : Server) (m : EmberIncomingMessage) :
    EmberAfOtaUnicastBootloaderStatus → Prop
  | outOfSeq (h : respStatus m = respStatusOutOfSeq) : SegmentEnd s m .failed
  | refused (h : respStatus m = respStatusRefused) : SegmentEnd s m .refused
  | mismatch (h : respStatus m = respStatusOngoing) (hi : respIndex m ≠ s.sentSegment) :
      SegmentEnd s m .failed
  | completed (h : respStatus m = respStatusCompleted) : SegmentEnd s m .success

/-! ## Failed attempts -/

/-- One error more, on the side of the stack or of the target. -/
inductive ErrorCounted (s : Server) : Server → Prop
  | stack : ErrorCounted s { s with stackErrorsCount := s.stackErrorsCount + 1 }
  | noAck : ErrorCounted s
      { s with currentTargetErrorsCount := s.currentTargetErrorsCount + 1, stackErrorsCount := 0 }
  | noResponse : ErrorCounted s
      { s with currentTargetErrorsCount := s.currentTargetErrorsCount + 1 }

/-- What follows a failed attempt of the request `r`, its error counted in `s`: another attempt, or
the end of the process. -/
inductive Failed (cfg : Config) (r : Request) (s : Server) : Outcome → Prop
  | retried (ht : s.currentTargetErrorsCount < maxUnicastErrors)
      (hs : s.stackErrorsCount < maxStackErrors ∨ s.internalState = r.waiting) :
      Failed cfg r s ⟨scheduled r.interval s, [.timerfdSettime (tvNsec cfg.txIntervalMs)]⟩
  | gaveUp {st : EmberAfOtaUnicastBootloaderStatus}
      (h : st = .stackError ∧ maxStackErrors ≤ s.stackErrorsCount ∨
        st = .unreachable ∧ maxUnicastErrors ≤ s.currentTargetErrorsCount) :
      Failed cfg r s ⟨finished s, [r.process.complete st]⟩

/-! ## The transitions -/

/-- The calls of the API. -/
inductive IsCall : Input → Prop
  | initiateImageDistribution (target : EmberNodeId) (imageSize : UInt32) (imageTag : UInt8) :
      IsCall (.initiateImageDistribution target imageSize imageTag)
  | initiateRequestTargetBootload (bootloadDelayMs : UInt32) (imageTag : UInt8)
      (target : EmberNodeId) (nowMs : UInt32) :
      IsCall (.initiateRequestTargetBootload bootloadDelayMs imageTag target nowMs)
  | abortCurrentProcess : IsCall .abortCurrentProcess

/-- The outcomes of an API call. -/
inductive CallTrans (s : Server) : Input → Outcome → Prop
  | refused {i : Input} {st : EmberAfOtaUnicastBootloaderStatus} (hi : IsCall i)
      (h : st = .busy ∧ s.internalState ≠ .idle ∨ st = .invalidCall) :
      CallTrans s i ⟨s, [.returned st]⟩
  | imageStarted {target : EmberNodeId} {imageSize : UInt32} {imageTag : UInt8}
      (hs : s.internalState = .idle) (ht : target ≠ emberNullNodeId)
      (h0 : imageSize ≠ 0) (hm : imageSize ≤ maximumImageSize) :
      CallTrans s (.initiateImageDistribution target imageSize imageTag)
        ⟨{ s with
            internalState := .handshakeInterval
            targetId := target
            stackErrorsCount := 0
            currentTargetErrorsCount := 0
            nextSegment := 0
            currentImageSizeOrBootloadTimeMs := imageSize
            currentImageTagOrServerStatus := imageTag
            otaEventIsActive := true },
          [.pthreadCreate, .timerfdCreate, .timerfdSettime 1, .returned .success]⟩
  | bootloadStarted {bootloadDelayMs : UInt32} {imageTag : UInt8} {target : EmberNodeId}
      {nowMs : UInt32} (hs : s.internalState = .idle) (ht : target ≠ emberNullNodeId) :
      CallTrans s (.initiateRequestTargetBootload bootloadDelayMs imageTag target nowMs)
        ⟨{ s with
            internalState := .bootloadRequestUnicastInterval
            targetId := target
            stackErrorsCount := 0
            currentTargetErrorsCount := 0
            nextSegment := 0
            currentImageSizeOrBootloadTimeMs := nowMs + bootloadDelayMs
            currentImageTagOrServerStatus := imageTag
            otaEventIsActive := true },
          [.pthreadCreate, .timerfdCreate, .timerfdSettime 1, .returned .success]⟩
  | aborted {r : Request} (hr : r ≠ .handshake) (hs : requestOf s.internalState = some r) :
      CallTrans s .abortCurrentProcess
        ⟨finished s, [r.process.complete .aborted, .returned .success]⟩

/-- The outcomes of an incoming message. -/
inductive MessageTrans (cfg : Config) (s : Server) (m : EmberIncomingMessage) : Outcome → Prop
  | ignored (hh : ¬ AcceptsHandshakeResponse s m) (hs : ¬ AcceptsSegmentResponse s m)
      (hb : ¬ AcceptsBootloadResponse s m) : MessageTrans cfg s m ⟨s, []⟩
  | handshakeEnded {st : EmberAfOtaUnicastBootloaderStatus} (h : AcceptsHandshakeResponse s m)
      (hst : st = .refused ∧ respStatus m = respStatusRefused ∨
        st = .failed ∧ respStatus m ≠ respStatusOngoing) :
      MessageTrans cfg s m ⟨finished s, [.imageDistributionComplete st]⟩
  | handshakeAccepted {o : Outcome} (h : AcceptsHandshakeResponse s m)
      (hst : respStatus m = respStatusOngoing)
      (ho : Failed cfg .imageSegment
        { s with
          nextSegment := startSegment m
          currentTargetErrorsCount := 0
          internalState := .segmentUnicastInterval } o) :
      MessageTrans cfg s m o
  | segmentEnded {st : EmberAfOtaUnicastBootloaderStatus} (h : AcceptsSegmentResponse s m)
      (hst : SegmentEnd s m st) :
      MessageTrans cfg s m ⟨finished s, [.imageDistributionComplete st]⟩
  | segmentAdvanced (h : AcceptsSegmentResponse s m) (hst : respStatus m = respStatusOngoing)
      (hi : respIndex m = s.sentSegment) (hn : s.nextSegment < getTotalSegmentsCount s) :
      MessageTrans cfg s m
        ⟨scheduled .segmentUnicastInterval
          { s with currentTargetErrorsCount := 0, nextSegment := s.nextSegment + 1 },
          [.timerfdSettime (tvNsec cfg.txIntervalMs)]⟩
  /-- the branch "we sent all the segments": nothing is scheduled, nothing is completed -/
  | segmentWrapped (h : AcceptsSegmentResponse s m) (hst : respStatus m = respStatusOngoing)
      (hi : respIndex m = s.sentSegment) (hn : ¬ s.nextSegment < getTotalSegmentsCount s) :
      MessageTrans cfg s m
        ⟨{ s with
            internalState := .segmentUnicastWaitingResponse
            stackErrorsCount := 0
            currentTargetErrorsCount := 0
            nextSegment := 0
            otaEventIsActive := false }, []⟩
  /-- any other status leaves the server waiting -/
  | segmentIgnored (h : AcceptsSegmentResponse s m)
      (hst : respStatus m ≠ respStatusOutOfSeq ∧ respStatus m ≠ respStatusRefused ∧
        respStatus m ≠ respStatusOngoing ∧ respStatus m ≠ respStatusCompleted) :
      MessageTrans cfg s m ⟨{ s with internalState := .segmentUnicastWaitingResponse }, []⟩
  | bootloadAnswered {st : EmberAfOtaUnicastBootloaderStatus} (h : AcceptsBootloadResponse s m) :
      MessageTrans cfg s m ⟨finished s, [.requestTargetBootloadComplete st]⟩

/-- The outcomes of a sent callback. -/
inductive SentTrans (cfg : Config) (s : Server) (status : EmberStatus) (m : EmberOutgoingMessage) :
    Outcome → Prop
  /-- no request awaits it -/
  | ignored (h : ∀ r, Carries m r → s.internalState ≠ r.pending) : SentTrans cfg s status m ⟨s, []⟩
  | succeeded {r : Request} (hm : Carries m r) (hs : s.internalState = r.pending)
      (hst : status = emberSuccess) :
      SentTrans cfg s status m
        ⟨scheduled r.waiting { s with stackErrorsCount := 0 },
          [.timerfdSettime (tvNsec responseTimeoutMs)]⟩
  | failed {r : Request} {s1 : Server} {o : Outcome} (hm : Carries m r)
      (hs : s.internalState = r.pending) (hst : status ≠ emberSuccess) (he : ErrorCounted s s1)
      (ho : Failed cfg r { s1 with internalState := r.interval } o) :
      SentTrans cfg s status m o

/-- The outcomes of the event handler. -/
inductive EventTrans (cfg : Config) (s : Server) (env : EventEnv) : Outcome → Prop
  | submitted {r : Request} {m : EmberOutgoingMessage} (hs : s.internalState = r.interval)
      (hf : IsFrame env s r m) (hst : env.sendStatus = emberSuccess) :
      EventTrans cfg s env
        ⟨r.submitted { s with otaEventIsActive := false },
          r.prelude s ++ [.messageSend m emberSuccess]⟩
  | underflow (hs : s.internalState = .segmentUnicastInterval) :
      EventTrans cfg s env
        ⟨finished s, [segmentCallback s, .imageDistributionComplete .dataUnderflow]⟩
  | notSubmitted {r : Request} {m : EmberOutgoingMessage} {o : Outcome}
      (hs : s.internalState = r.interval) (hf : IsFrame env s r m)
      (hst : env.sendStatus ≠ emberSuccess)
      (ho : Failed cfg r
        { s with otaEventIsActive := false, stackErrorsCount := s.stackErrorsCount + 1 } o) :
      EventTrans cfg s env (o.after (r.prelude s ++ [.messageSend m env.sendStatus]))
  | timedOut {r : Request} {o : Outcome} (hs : s.internalState = r.waiting)
      (ho : Failed cfg r
        { s with
          otaEventIsActive := false
          currentTargetErrorsCount := s.currentTargetErrorsCount + 1 } o) :
      EventTrans cfg s env o
  /-- nothing to do -/
  | idle (hs : ∀ r : Request, s.internalState ≠ r.interval ∧ s.internalState ≠ r.waiting) :
      EventTrans cfg s env ⟨{ s with otaEventIsActive := false }, []⟩

/-- **Every outcome of one input.** -/
inductive Trans (cfg : Config) (s : Server) : Input → Outcome → Prop
  | call {i : Input} {o : Outcome} (h : CallTrans s i o) : Trans cfg s i o
  | message {m : EmberIncomingMessage} {o : Outcome} (h : MessageTrans cfg s m o) :
      Trans cfg s (.incomingMessage m) o
  | sent {status : EmberStatus} {m : EmberOutgoingMessage} {o : Outcome}
      (h : SentTrans cfg s status m o) : Trans cfg s (.messageSent status m) o
  | timer {env : EventEnv} {o : Outcome} (ha : s.otaEventIsActive = true)
      (h : EventTrans cfg s env o) : Trans cfg s (.timerExpired env) o
  | timerIgnored {env : EventEnv} (ha : s.otaEventIsActive = false) :
      Trans cfg s (.timerExpired env) ⟨s, []⟩
  | event {env : EventEnv} {o : Outcome} (ha : s.otaEventIsActive = true)
      (h : EventTrans cfg s env o) : Trans cfg s (.eventActive env) o

/-! ## The inversion -/

variable {cfg : Config} {s : Server}

theorem serverInBootloadRequestProcess_iff :
    s.serverInBootloadRequestProcess ↔ requestOf s.internalState = some .bootloadRequest := by
  unfold Server.serverInBootloadRequestProcess
  cases s.internalState <;> decide

theorem serverInImageDistributionProcess_iff :
    s.serverInImageDistributionProcess ↔ requestOf s.internalState = some .imageSegment := by
  unfold Server.serverInImageDistributionProcess
  cases s.internalState <;> decide

theorem process_eq {r : Request} (hr : r ≠ .bootloadRequest) : r.process = .imageDistribution := by
  cases r with
  | handshake => rfl
  | imageSegment => rfl
  | bootloadRequest => exact absurd rfl hr

/-- In an interval state the next attempt is scheduled, or an error counter has run full. -/
theorem schedule_interval {r : Request} (hr : r ≠ .bootloadRequest)
    (hs : s.internalState = r.interval) (newSegment : Bool) :
    Failed cfg r s (scheduleImageDistributionProcessNextTask cfg newSegment s) := by
  have h : scheduleImageDistributionProcessNextTask cfg newSegment s =
      if s.stackErrorsCount ≥ maxStackErrors then imageDistributionProcessFinished .stackError s
      else if s.currentTargetErrorsCount ≥ maxUnicastErrors then
        imageDistributionProcessFinished .unreachable s
      else sliConnectOtaUnicastServerScheduleNextEvent cfg.txIntervalMs s := by
    unfold scheduleImageDistributionProcessNextTask
    cases r with
    | handshake => rw [hs]; rfl
    | imageSegment => rw [hs]; rfl
    | bootloadRequest => exact absurd rfl hr
  have hsch : sliConnectOtaUnicastServerScheduleNextEvent cfg.txIntervalMs s =
      ⟨scheduled r.interval s, [.timerfdSettime (tvNsec cfg.txIntervalMs)]⟩ := by
    unfold scheduled; rw [← hs]; rfl
  rw [h, hsch]
  simp only [imageDistributionProcessFinished_eq, ← process_eq hr]
  split_ifs with h1 h2
  · exact .gaveUp (.inl ⟨rfl, h1⟩)
  · exact .gaveUp (.inr ⟨rfl, h2⟩)
  · exact .retried (UInt8.not_le.mp h2) (.inl (UInt8.not_le.mp h1))

/-- A response that did not come: the next attempt is scheduled, or the target counter is full. -/
theorem schedule_waiting {r : Request} (hr : r ≠ .bootloadRequest)
    (hs : s.internalState = r.waiting) :
    Failed cfg r s (scheduleImageDistributionProcessNextTask cfg false s) := by
  have h : scheduleImageDistributionProcessNextTask cfg false s =
      if s.currentTargetErrorsCount ≥ maxUnicastErrors then
        imageDistributionProcessFinished .unreachable s
      else ⟨scheduled r.interval s, [.timerfdSettime (tvNsec cfg.txIntervalMs)]⟩ := by
    unfold scheduleImageDistributionProcessNextTask
    cases r with
    | handshake => rw [hs]; rfl
    | imageSegment => rw [hs]; rfl
    | bootloadRequest => exact absurd rfl hr
  rw [h, imageDistributionProcessFinished_eq, ← process_eq hr]
  split_ifs with h1
  · exact .gaveUp (.inr ⟨rfl, h1⟩)
  · exact .retried (UInt8.not_le.mp h1) (.inr hs)

theorem schedule_bootload (hs : s.serverInBootloadRequestProcess) (status : UInt8) :
    Failed cfg .bootloadRequest s (scheduleBootloadRequestProcessNextTask cfg false status s) := by
  unfold scheduleBootloadRequestProcessNextTask
  simp only [bootloadRequestProcessFinished_eq, hs, not_true_eq_false, if_false,
    Bool.false_eq_true]
  split_ifs with h1 h2
  · exact .gaveUp (.inl ⟨rfl, h1⟩)
  · exact .gaveUp (.inr ⟨rfl, h2⟩)
  · exact .retried (UInt8.not_le.mp h2) (.inl (UInt8.not_le.mp h1))

/-- After `emberMessageSend`, in the interval state. -/
theorem sent_interval (cfg : Config) {r : Request} (hs : s.internalState = r.interval) (status : EmberStatus) :
    status = emberSuccess ∧ r.sent cfg status s = ⟨r.submitted s, []⟩ ∨
    status ≠ emberSuccess ∧
      Failed cfg r { s with stackErrorsCount := s.stackErrorsCount + 1 } (r.sent cfg status s) := by
  by_cases h : status = emberSuccess
  · subst h
    cases r <;> exact .inl ⟨rfl, rfl⟩
  · refine .inr ⟨h, ?_⟩
    have hs' : { s with stackErrorsCount := s.stackErrorsCount + 1 }.internalState = r.interval := hs
    cases r with
    | handshake =>
      simp only [Request.sent, unicastHandshakeSent, h, if_false]
      exact schedule_interval (by decide) hs' _
    | imageSegment =>
      simp only [Request.sent, unicastNextSegmentSent, h, if_false]
      exact schedule_interval (by decide) hs' _
    | bootloadRequest =>
      simp only [Request.sent, requestTargetForBootloadSent, h, if_false]
      exact schedule_bootload (serverInBootloadRequestProcess_iff.mpr (congrArg requestOf hs')) _

/-! ### Responses -/

theorem handleHandshakeResponse_trans {m : EmberIncomingMessage}
    (h : AcceptsHandshakeResponse s m) :
    MessageTrans cfg s m (handleHandshakeResponse cfg m (startSegment m) s) := by
  unfold handleHandshakeResponse
  simp only [imageDistributionProcessFinished_eq]
  split_ifs with h1 h2
  · exact .handshakeEnded h (.inl ⟨rfl, h1⟩)
  · exact .handshakeAccepted h h2 (schedule_interval (s := { s with
      nextSegment := startSegment m
      currentTargetErrorsCount := 0
      internalState := .segmentUnicastInterval }) (by decide) rfl _)
  · exact .handshakeEnded h (.inr ⟨rfl, h2⟩)

/-- An ONGOING response with the awaited index. -/
theorem schedule_newSegment (cfg : Config) (s : Server) :
    scheduleImageDistributionProcessNextTask cfg true
      { s with
        currentTargetErrorsCount := 0
        otaEventIsActive := false
        internalState := .segmentUnicastWaitingResponse } =
      if s.nextSegment < getTotalSegmentsCount s then
        ⟨scheduled .segmentUnicastInterval
          { s with currentTargetErrorsCount := 0, nextSegment := s.nextSegment + 1 },
          [.timerfdSettime (tvNsec cfg.txIntervalMs)]⟩
      else
        ⟨{ s with
            internalState := .segmentUnicastWaitingResponse
            stackErrorsCount := 0
            currentTargetErrorsCount := 0
            nextSegment := 0
            otaEventIsActive := false }, []⟩ := rfl

theorem handleSegmentResponse_trans {m : EmberIncomingMessage} (h : AcceptsSegmentResponse s m) :
    MessageTrans cfg s m
      (handleSegmentResponse cfg m
        { s with internalState := .segmentUnicastWaitingResponse }) := by
  unfold handleSegmentResponse
  simp only [imageDistributionProcessFinished_eq, schedule_newSegment]
  split_ifs with h1 h2 h3 h4 h5 h6
  · exact .segmentEnded h (.outOfSeq h1)
  · exact .segmentEnded h (.refused h2)
  · exact .segmentAdvanced h h3 h4 h5
  · exact .segmentWrapped h h3 h4 h5
  · exact .segmentEnded h (.mismatch h3 h4)
  · exact .segmentEnded h (.completed h6)
  · exact .segmentIgnored h ⟨h1, h2, h3, h6⟩

theorem ignored_of_not_fromTarget {m : EmberIncomingMessage} (h : ¬ FromTarget s m) :
    MessageTrans cfg s m ⟨s, []⟩ :=
  .ignored (fun ha => h ha.fromTarget) (fun ha => h ha.fromTarget) (fun ha => h ha.fromTarget)

theorem incomingMessage_trans (cfg : Config) (s : Server) (m : EmberIncomingMessage) :
    MessageTrans cfg s m
      (emAfPluginOtaUnicastBootloaderServerIncomingMessageCallback cfg m s) := by
  unfold emAfPluginOtaUnicastBootloaderServerIncomingMessageCallback
  by_cases he : m.endpoint = emberAfPluginOtaUnicastBootloaderServerEndpoint
  swap
  · rw [if_pos he]; exact ignored_of_not_fromTarget fun h => he h.endpoint
  by_cases hs : m.options &&& emberOptionsSecurityEnabled = 0
  · rw [if_neg (not_not.mpr he), if_pos hs]
    exact ignored_of_not_fromTarget fun h => h.secured hs
  by_cases ht : m.source = s.targetId
  swap
  · rw [if_neg (not_not.mpr he), if_neg hs, if_pos ht]
    exact ignored_of_not_fromTarget fun h => ht h.source
  have hft : FromTarget s m := ⟨he, hs, ht⟩
  rw [if_neg (not_not.mpr he), if_neg hs, if_neg (not_not.mpr ht)]
  generalize hc : emOtaUnicastBootloaderProtocolCommandId m.payload = commandId
  dsimp only
  split_ifs with c1 h1 c2 h2 c3 h3 c4 h4
  · have hstart : startSegment m = 0 := if_neg (by rw [hc, c1]; decide)
    exact hstart ▸ handleHandshakeResponse_trans ⟨hft, h1.1, h1.2, .inl (hc.trans c1)⟩
  · subst c1
    exact .ignored (fun h => h1 ⟨h.state, h.tag⟩)
      (fun h => absurd (hc.symm.trans h.command) (by decide))
      (fun h => absurd (hc.symm.trans h.command) (by decide))
  · have hstart : startSegment m =
        emberFetchLowHighInt32u m.payload extHshakeRespSegmentIndexOffset := if_pos (hc.trans c2)
    exact hstart ▸ handleHandshakeResponse_trans ⟨hft, h2.1, h2.2, .inr (hc.trans c2)⟩
  · subst c2
    exact .ignored (fun h => h2 ⟨h.state, h.tag⟩)
      (fun h => absurd (hc.symm.trans h.command) (by decide))
      (fun h => absurd (hc.symm.trans h.command) (by decide))
  · exact handleSegmentResponse_trans ⟨hft, h3.1, h3.2, hc.trans c3⟩
  · exact .ignored (fun h => h.command.elim (c1 <| hc.symm.trans ·) (c2 <| hc.symm.trans ·))
      (fun h => h3 ⟨h.state, h.tag⟩)
      (fun h => absurd (c3.symm.trans (hc.symm.trans h.command)) (by decide))
  · have hb := serverInBootloadRequestProcess_iff.mpr (congrArg requestOf h4.1)
    unfold scheduleBootloadRequestProcessNextTask
    simp only [bootloadRequestProcessFinished_eq, hb, not_true_eq_false, if_false, if_true]
    split_ifs <;> exact .bootloadAnswered ⟨hft, h4.1, h4.2, hc.trans c4⟩
  · exact .ignored (fun h => h.command.elim (c1 <| hc.symm.trans ·) (c2 <| hc.symm.trans ·))
      (fun h => c3 (hc.symm.trans h.command)) (fun h => h4 ⟨h.state, h.length⟩)
  · exact .ignored (fun h => h.command.elim (c1 <| hc.symm.trans ·) (c2 <| hc.symm.trans ·))
      (fun h => c3 (hc.symm.trans h.command)) (fun h => c4 (hc.symm.trans h.command))

/-! ### Sent callbacks and events -/

theorem errorCounted_bumpErrors (status : EmberStatus) (s : Server) :
    ErrorCounted s (bumpErrors status s) := by
  unfold bumpErrors
  split_ifs
  · exact .noAck
  · exact .stack

/-- A message carries at most one request. -/
theorem Carries.eq {m : EmberOutgoingMessage} {r r' : Request} (h : Carries m r)
    (h' : Carries m r') : r = r' := by
  have hc := h.2.symm.trans h'.2
  cases r <;> cases r' <;> first | rfl | exact absurd hc (by decide)

/-- A frame no request awaits is ignored. -/
theorem sentIgnored_of_carries {r : Request} {status : EmberStatus} {m : EmberOutgoingMessage}
    (hm : Carries m r) (hs : s.internalState ≠ r.pending) :
    SentTrans cfg s status m ⟨s, []⟩ :=
  .ignored fun r' hm' => by rw [hm'.eq hm]; exact hs

theorem ErrorCounted.internalState_eq {s s1 : Server} (h : ErrorCounted s s1) :
    s1.internalState = s.internalState := by
  cases h <;> rfl

/-- What follows a failed attempt does not depend on the state it failed in. -/
theorem Failed.withState {r : Request} {o : Outcome} (h : Failed cfg r s o)
    (hs : s.internalState ≠ r.waiting) (st : StateOtaServer) :
    Failed cfg r { s with internalState := st } o := by
  cases h with
  | retried ht h => exact .retried ht (.inl (h.resolve_right hs))
  | gaveUp h => exact .gaveUp (s := { s with internalState := st }) h

/-- The bootload request keeps its state while its error is counted. -/
theorem sentFailed_bootload {status : EmberStatus} {m : EmberOutgoingMessage}
    (hm : Carries m .bootloadRequest) (hs : s.internalState = .bootloadRequestUnicastPending)
    (hst : status ≠ emberSuccess) :
    SentTrans cfg s status m
      (scheduleBootloadRequestProcessNextTask cfg false 0xFF (bumpErrors status s)) := by
  have he := errorCounted_bumpErrors status s
  have hs1 := he.internalState_eq.trans hs
  have hb := serverInBootloadRequestProcess_iff.mpr (congrArg requestOf hs1)
  exact .failed hm hs hst he ((schedule_bootload hb _).withState (by rw [hs1]; decide) _)

theorem messageSent_trans (cfg : Config) (s : Server) (status : EmberStatus)
    (m : EmberOutgoingMessage) :
    SentTrans cfg s status m
      (emAfPluginOtaUnicastBootloaderServerMessageSentCallback cfg status m s) := by
  unfold emAfPluginOtaUnicastBootloaderServerMessageSentCallback
  by_cases he : m.endpoint = emberAfPluginOtaUnicastBootloaderServerEndpoint
  swap
  · rw [if_pos he]; exact .ignored fun r hm => absurd hm.1 he
  rw [if_neg (not_not.mpr he)]
  dsimp only
  split_ifs with c1 s1 t1 c2 s2 t2 c3 s3 t3
  · exact sentIgnored_of_carries (r := .handshake) ⟨he, c1⟩ s1
  · exact .succeeded (r := .handshake) ⟨he, c1⟩ (not_not.mp s1) t1
  · exact .failed (r := .handshake) ⟨he, c1⟩ (not_not.mp s1) t1
      (errorCounted_bumpErrors status s) (schedule_interval (by decide) rfl _)
  · exact sentIgnored_of_carries (r := .imageSegment) ⟨he, c2⟩ s2
  · exact .succeeded (r := .imageSegment) ⟨he, c2⟩ (not_not.mp s2) t2
  · exact .failed (r := .imageSegment) ⟨he, c2⟩ (not_not.mp s2) t2
      (errorCounted_bumpErrors status s) (schedule_interval (by decide) rfl _)
  · exact sentIgnored_of_carries (r := .bootloadRequest) ⟨he, c3⟩ s3
  · exact .succeeded (r := .bootloadRequest) ⟨he, c3⟩ (not_not.mp s3) t3
  · exact sentFailed_bootload ⟨he, c3⟩ (not_not.mp s3) t3
  · refine .ignored fun r hm => ?_
    cases r with
    | handshake => exact absurd hm.2 c1
    | imageSegment => exact absurd hm.2 c2
    | bootloadRequest => exact absurd hm.2 c3

/-- A sent callback that reports an error for the pending request. -/
theorem failed_of_callback {r : Request} {m : EmberOutgoingMessage} {status : EmberStatus}
    (hm : Carries m r) (hs : s.internalState = r.pending) (hst : status ≠ emberSuccess) :
    Failed cfg r { bumpErrors status s with internalState := r.interval }
      (emAfPluginOtaUnicastBootloaderServerMessageSentCallback cfg status m s) := by
  have hs1 := (errorCounted_bumpErrors status s).internalState_eq.trans hs
  unfold emAfPluginOtaUnicastBootloaderServerMessageSentCallback
  rw [if_neg (not_not.mpr hm.1)]
  dsimp only
  rw [hm.2]
  cases r with
  | handshake =>
    have hp : s.internalState = .handshakePending := hs
    simp only [Request.commandId, if_true, if_neg (not_not.mpr hp), if_neg hst]
    exact schedule_interval (by decide) rfl _
  | imageSegment =>
    have hp : s.internalState = .segmentUnicastPending := hs
    have hc : commandIdImageSegment ≠ commandIdHandshake := by decide
    simp only [Request.commandId, if_true, if_neg hc, if_neg (not_not.mpr hp), if_neg hst]
    exact schedule_interval (by decide) rfl _
  | bootloadRequest =>
    have hp : s.internalState = .bootloadRequestUnicastPending := hs
    have hc : commandIdBootloadRequest ≠ commandIdHandshake ∧
        commandIdBootloadRequest ≠ commandIdImageSegment := by decide
    simp only [Request.commandId, if_true, if_neg hc.1, if_neg hc.2, if_neg (not_not.mpr hp),
      if_neg hst]
    have hb := serverInBootloadRequestProcess_iff.mpr (congrArg requestOf hs1)
    exact (schedule_bootload hb _).withState (by rw [hs1]; decide) _

/-- An attempt in the interval state, up to the return of `emberMessageSend`. -/
theorem attempt_trans {r : Request} {env : EventEnv} {m : EmberOutgoingMessage}
    (hs : s.internalState = r.interval) (hf : IsFrame env s r m) :
    EventTrans cfg s env
      ((r.sent cfg env.sendStatus { s with otaEventIsActive := false }).after
        (r.prelude s ++ [.messageSend m env.sendStatus])) := by
  have hs' : { s with otaEventIsActive := false }.internalState = r.interval := hs
  obtain ⟨hst, ho⟩ | ⟨hst, ho⟩ := sent_interval cfg hs' env.sendStatus
  · rw [ho, hst]
    unfold Outcome.after
    rw [List.append_nil]
    exact .submitted hs hf hst
  · exact .notSubmitted hs hf hst ho

theorem eventHandler_trans (cfg : Config) (env : EventEnv) (s : Server) :
    EventTrans cfg s env (emAfPluginOtaUnicastBootloaderServerEventHandler cfg env s) := by
  have htimeout : ∀ r : Request, r ≠ .bootloadRequest → s.internalState = r.waiting →
      EventTrans cfg s env (scheduleImageDistributionProcessNextTask cfg false
        { s with
          otaEventIsActive := false
          currentTargetErrorsCount := s.currentTargetErrorsCount + 1 }) := fun r hr hs =>
    .timedOut hs (schedule_waiting hr (by exact hs))
  unfold emAfPluginOtaUnicastBootloaderServerEventHandler
  dsimp only
  split
  case h_1 hst => exact attempt_trans hst .handshake
  case h_2 hst =>
    unfold unicastNextSegment
    split
    · exact .underflow hst
    · exact attempt_trans hst (.imageSegment (by assumption))
  case h_3 hst => exact htimeout .handshake (by decide) hst
  case h_4 hst => exact htimeout .imageSegment (by decide) hst
  case h_5 hst => exact attempt_trans hst .bootloadRequest
  case h_6 hst =>
    exact .timedOut (r := .bootloadRequest) hst
      (schedule_bootload (serverInBootloadRequestProcess_iff.mpr (by exact congrArg requestOf hst)) _)
  case h_7 h1 h2 h3 h4 h5 h6 =>
    refine .idle fun r => ?_
    cases r with
    | handshake => exact ⟨h1, h3⟩
    | imageSegment => exact ⟨h2, h4⟩
    | bootloadRequest => exact ⟨h5, h6⟩

/-! ### API -/

theorem initiateImageDistribution_trans (s : Server) (target : EmberNodeId)
    (imageSize : UInt32) (imageTag : UInt8) :
    CallTrans s (.initiateImageDistribution target imageSize imageTag)
      (apiCall (emberAfPluginOtaUnicastBootloaderServerInitiateImageDistribution target imageSize
        imageTag s) true) := by
  unfold emberAfPluginOtaUnicastBootloaderServerInitiateImageDistribution
  split_ifs with h1 h2
  · exact .refused (.initiateImageDistribution _ _ _) (.inr rfl)
  · obtain ⟨ht, h0, hm⟩ := by simpa only [not_or] using h2
    exact .imageStarted h1 (Ne.symm ht) h0 (UInt32.not_lt.mp hm)
  · exact .refused (.initiateImageDistribution _ _ _) (.inl ⟨rfl, h1⟩)

theorem initiateRequestTargetBootload_trans (s : Server) (bootloadDelayMs : UInt32)
    (imageTag : UInt8) (target : EmberNodeId) (nowMs : UInt32) :
    CallTrans s (.initiateRequestTargetBootload bootloadDelayMs imageTag target nowMs)
      (apiCall (emberAfPluginUnicastBootloaderServerInitiateRequestTargetBootload bootloadDelayMs
        imageTag target nowMs s) true) := by
  unfold emberAfPluginUnicastBootloaderServerInitiateRequestTargetBootload
  split_ifs with h1 h2
  · exact .refused (.initiateRequestTargetBootload _ _ _ _) (.inr rfl)
  · exact .bootloadStarted h1 h2
  · exact .refused (.initiateRequestTargetBootload _ _ _ _) (.inl ⟨rfl, h1⟩)

theorem abortCurrentProcess_trans (s : Server) :
    CallTrans s .abortCurrentProcess
      (apiCall (emberAfPluginOtaUnicastBootloaderServerAbortCurrentProcess s) false) := by
  unfold emberAfPluginOtaUnicastBootloaderServerAbortCurrentProcess
  split_ifs with h1 h2
  · exact .aborted (r := .imageSegment) (by decide) (serverInImageDistributionProcess_iff.mp h1)
  · exact .aborted (r := .bootloadRequest) (by decide) (serverInBootloadRequestProcess_iff.mp h2)
  · exact .refused .abortCurrentProcess (.inr rfl)

/-- **Inversion of `handle`.** -/
theorem trans_of_handle {i : Input} {o : Outcome} (h : handle cfg s i = some o) :
    Trans cfg s i o := by
  cases i with
  | initiateImageDistribution target imageSize imageTag =>
    exact Option.some.inj h ▸ .call (initiateImageDistribution_trans s target imageSize imageTag)
  | initiateRequestTargetBootload delay imageTag target nowMs =>
    exact Option.some.inj h ▸ .call (initiateRequestTargetBootload_trans s delay imageTag target nowMs)
  | abortCurrentProcess => exact Option.some.inj h ▸ .call (abortCurrentProcess_trans s)
  | incomingMessage m => exact Option.some.inj h ▸ .message (incomingMessage_trans cfg s m)
  | messageSent status m => exact Option.some.inj h ▸ .sent (messageSent_trans cfg s status m)
  | timerExpired env =>
    cases ha : s.otaEventIsActive with
    | true =>
      simp only [handle, ha, if_true, Option.some.injEq] at h
      exact h ▸ .timer ha (eventHandler_trans cfg env s)
    | false =>
      simp only [handle, ha, Bool.false_eq_true, if_false, Option.some.injEq] at h
      exact h ▸ .timerIgnored ha
  | eventActive env =>
    cases ha : s.otaEventIsActive with
    | true =>
      simp only [handle, ha, if_true, Option.some.injEq] at h
      exact h ▸ .event ha (eventHandler_trans cfg env s)
    | false => simp [handle, ha] at h

/-- A step of the server, as a transition. -/
theorem trans_of_step {i : Input} {s' : Server} {as : List Action}
    (h : (ota cfg).step s i = some (s', as)) : Trans cfg s i ⟨s', as⟩ := by
  simp only [ota, Option.map_eq_some_iff, Prod.mk.injEq] at h
  obtain ⟨o, ho, rfl, rfl⟩ := h
  exact trans_of_handle ho

theorem Trans.messageTrans {m : EmberIncomingMessage} {o : Outcome}
    (ht : Trans cfg s (.incomingMessage m) o) : MessageTrans cfg s m o := by
  cases ht with
  | message h => exact h
  | call h => cases h with | refused hi _ => cases hi

theorem Trans.sentTrans {status : EmberStatus} {m : EmberOutgoingMessage} {o : Outcome}
    (ht : Trans cfg s (.messageSent status m) o) : SentTrans cfg s status m o := by
  cases ht with
  | sent h => exact h
  | call h => cases h with | refused hi _ => cases hi

/-- Where no response is awaited, only a segment response is not ignored. -/
theorem MessageTrans.eq_of_not_waiting {m : EmberIncomingMessage} {o : Outcome}
    (ht : MessageTrans cfg s m o) (hw : ∀ r : Request, s.internalState ≠ r.waiting)
    (hseg : ¬ AcceptsSegmentResponse s m) : o = ⟨s, []⟩ := by
  cases ht with
  | ignored _ _ _ => rfl
  | handshakeEnded h _ => exact absurd h.state (hw .handshake)
  | handshakeAccepted h _ _ => exact absurd h.state (hw .handshake)
  | segmentEnded h _ => exact absurd h hseg
  | segmentAdvanced h _ _ _ => exact absurd h hseg
  | segmentWrapped h _ _ _ => exact absurd h hseg
  | segmentIgnored h _ => exact absurd h hseg
  | bootloadAnswered h => exact absurd h.state (hw .bootloadRequest)

/-- A sent callback the server does not await is ignored. -/
theorem SentTrans.eq_of_not_pending {status : EmberStatus} {m : EmberOutgoingMessage} {o : Outcome}
    (ht : SentTrans cfg s status m o) (h : ∀ r, Carries m r → s.internalState ≠ r.pending) :
    o = ⟨s, []⟩ := by
  cases ht with
  | ignored _ => rfl
  | succeeded hm hs _ => exact absurd hs (h _ hm)
  | failed hm hs _ _ _ => exact absurd hs (h _ hm)

/-- In an interval state every message is ignored. -/
theorem MessageTrans.eq_of_interval {m : EmberIncomingMessage} {o : Outcome} {r : Request}
    (ht : MessageTrans cfg s m o) (hs : s.internalState = r.interval) : o = ⟨s, []⟩ := by
  have hw : ∀ r' : Request, s.internalState ≠ r'.waiting :=
    fun r' h => interval_ne_waiting r r' (hs.symm.trans h)
  refine ht.eq_of_not_waiting hw fun h => ?_
  rcases h.state with h | h
  · exact interval_ne_pending r .imageSegment (hs.symm.trans h)
  · exact hw .imageSegment h

/-! ## What is submitted -/

/-- What `unicastNextSegment` and `requestTargetForBootload` call to submit a frame. -/
def submits : Action → Bool
  | .getImageSegment _ _ _ | .messageSend _ _ => true
  | _ => false

theorem not_mem_of_failed {r : Request} {o : Outcome} {a : Action} (ha : submits a = true)
    (h : Failed cfg r s o) : a ∉ o.actions := by
  intro hm
  cases h with
  | retried _ _ =>
    rw [List.mem_singleton.mp hm] at ha
    cases ha
  | gaveUp _ =>
    rw [List.mem_singleton.mp hm] at ha
    cases r <;> cases ha

/-- **Only the event handler submits.** -/
theorem eventTrans_of_submits {i : Input} {o : Outcome} {a : Action} (ht : Trans cfg s i o)
    (ha : submits a = true) (h : a ∈ o.actions) :
    ∃ env, (i = .timerExpired env ∨ i = .eventActive env) ∧ EventTrans cfg s env o := by
  cases ht with
  | timer _ ht => exact ⟨_, .inl rfl, ht⟩
  | event _ ht => exact ⟨_, .inr rfl, ht⟩
  | timerIgnored _ => cases h
  | call ht =>
    cases ht with
    | @aborted r _ _ => cases r <;> cases a <;> simp_all [submits, Request.process, Process.complete]
    | _ => cases a <;> simp_all [submits]
  | message ht =>
    cases ht with
    | handshakeAccepted _ _ ho => exact absurd h (not_mem_of_failed ha ho)
    | _ => cases a <;> simp_all [submits]
  | sent ht =>
    cases ht with
    | failed _ _ _ _ ho => exact absurd h (not_mem_of_failed ha ho)
    | _ => cases a <;> simp_all [submits]

/-! ## Completion callbacks -/

/-- Why the completion callback of an image distribution is called with a status. -/
inductive ImageCompletes (s : Server) : Input → EmberAfOtaUnicastBootloaderStatus → Prop
  | aborted (hs : requestOf s.internalState = some .imageSegment) :
      ImageCompletes s .abortCurrentProcess .aborted
  | handshake {m : EmberIncomingMessage} {st : EmberAfOtaUnicastBootloaderStatus}
      (h : AcceptsHandshakeResponse s m)
      (hst : st = .refused ∧ respStatus m = respStatusRefused ∨
        st = .failed ∧ respStatus m ≠ respStatusOngoing) :
      ImageCompletes s (.incomingMessage m) st
  | segment {m : EmberIncomingMessage} {st : EmberAfOtaUnicastBootloaderStatus}
      (h : AcceptsSegmentResponse s m) (hst : SegmentEnd s m st) :
      ImageCompletes s (.incomingMessage m) st
  | gaveUp {i : Input} {st : EmberAfOtaUnicastBootloaderStatus}
      (h : st = .stackError ∨ st = .unreachable) : ImageCompletes s i st
  | underflow {i : Input} : ImageCompletes s i .dataUnderflow

theorem gaveUp_of_failed {s1 : Server} {r : Request} {o : Outcome}
    {st : EmberAfOtaUnicastBootloaderStatus} (ho : Failed cfg r s1 o)
    (h : .imageDistributionComplete st ∈ o.actions) : st = .stackError ∨ st = .unreachable := by
  cases ho with
  | retried _ _ => simp at h
  | gaveUp hst =>
    cases r with
    | bootloadRequest => simp [Request.process, Process.complete] at h
    | handshake => simp [Request.process, Process.complete] at h; exact h ▸ hst.imp (·.1) (·.1)
    | imageSegment => simp [Request.process, Process.complete] at h; exact h ▸ hst.imp (·.1) (·.1)

theorem not_mem_prelude (st : EmberAfOtaUnicastBootloaderStatus) (r : Request) :
    .imageDistributionComplete st ∉ r.prelude s := by
  cases r <;> simp [Request.prelude, segmentCallback]

theorem imageCompletes_of_event {env : EventEnv} {i : Input} {o : Outcome}
    {st : EmberAfOtaUnicastBootloaderStatus} (ht : EventTrans cfg s env o)
    (h : .imageDistributionComplete st ∈ o.actions) : ImageCompletes s i st := by
  cases ht with
  | submitted _ _ _ => simp [not_mem_prelude] at h
  | underflow _ =>
    obtain rfl : st = .dataUnderflow := by simpa [segmentCallback] using h
    exact .underflow
  | notSubmitted _ _ _ ho => exact .gaveUp (gaveUp_of_failed ho (by simpa [not_mem_prelude] using h))
  | timedOut _ ho => exact .gaveUp (gaveUp_of_failed ho h)
  | idle _ => simp at h

theorem imageCompletes_of_message {m : EmberIncomingMessage} {o : Outcome}
    {st : EmberAfOtaUnicastBootloaderStatus} (ht : MessageTrans cfg s m o)
    (h : .imageDistributionComplete st ∈ o.actions) : ImageCompletes s (.incomingMessage m) st := by
  cases ht with
  | handshakeEnded ha hst =>
    obtain rfl : st = _ := by simpa using h
    exact .handshake ha hst
  | segmentEnded ha hst =>
    obtain rfl : st = _ := by simpa using h
    exact .segment ha hst
  | handshakeAccepted _ _ ho => exact .gaveUp (gaveUp_of_failed ho h)
  | _ => simp at h

/-- **Why an image distribution completes.** -/
theorem imageCompletes_of_trans {i : Input} {o : Outcome} {st : EmberAfOtaUnicastBootloaderStatus}
    (ht : Trans cfg s i o) (h : .imageDistributionComplete st ∈ o.actions) :
    ImageCompletes s i st := by
  cases ht with
  | message ht => exact imageCompletes_of_message ht h
  | timer _ ht => exact imageCompletes_of_event ht h
  | event _ ht => exact imageCompletes_of_event ht h
  | timerIgnored _ => simp at h
  | sent ht =>
    cases ht with
    | failed _ _ _ _ ho => exact .gaveUp (gaveUp_of_failed ho h)
    | _ => simp at h
  | call ht =>
    cases ht with
    | @aborted r hr hs =>
      cases r with
      | handshake => exact absurd rfl hr
      | bootloadRequest => simp [Request.process, Process.complete] at h
      | imageSegment =>
        obtain rfl : st = .aborted := by simpa [Request.process, Process.complete] using h
        exact .aborted hs
    | _ => simp at h

/-- SUCCESS is reported for an accepted COMPLETED response only. -/
theorem completed_of_success {i : Input} {o : Outcome} (ht : Trans cfg s i o)
    (h : .imageDistributionComplete .success ∈ o.actions) :
    ∃ m, i = .incomingMessage m ∧ AcceptsSegmentResponse s m ∧
      respStatus m = respStatusCompleted := by
  generalize hst : EmberAfOtaUnicastBootloaderStatus.success = st at h
  cases imageCompletes_of_trans ht h with
  | aborted _ => cases hst
  | handshake _ h => rcases h with ⟨rfl, -⟩ | ⟨rfl, -⟩ <;> cases hst
  | gaveUp h => rcases h with rfl | rfl <;> cases hst
  | underflow => cases hst
  | segment ha he =>
    cases he with
    | completed hc => exact ⟨_, rfl, ha, hc⟩
    | _ => cases hst

end ConnectNcpHost.Ota.Transition
