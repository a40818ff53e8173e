import ConnectNcpHost.Lib.Runs
import ConnectNcpHost.Ota.Protocol

/-! # The OTA unicast bootloader server (`ota-unicast-bootloader-server.c`)

`Server` holds the static variables of the file. Every C function is a function from the server
before to an `Outcome`: the server after and what was asked of the surroundings on the way, in order
(`Action`): callbacks of the application, `emberMessageSend`, the timer, threads, failed assertions.
What the surroundings answer is an argument. The two functions that call the application and
`emberMessageSend` from the event handler are cut at the call: `…Sent` is what runs after
`emberMessageSend` has returned `status`.

`ota cfg` is the server with its handlers run one at a time. -/

namespace ConnectNcpHost.Ota.BootloaderServer

open ConnectNcpHost.Lib.Runs ConnectNcpHost.Stack.ByteUtilities ConnectNcpHost.Ota.Protocol

/-! ## State -/

/-- `STATE_OTA_SERVER_*` -/
inductive StateOtaServer
  | idle
  | segmentUnicastInterval
  | segmentUnicastPending
  | segmentUnicastWaitingResponse
  | imageDistributionCompleted
  | bootloadRequestUnicastInterval
  | bootloadRequestUnicastPending
  | bootloadRequestWaitingResponse
  | bootloadRequestCompleted
  | handshakeInterval
  | handshakePending
  | handshakeWaitingResponse
  deriving DecidableEq, Repr

/-- The numeric value of the macro. -/
def StateOtaServer.code : StateOtaServer → UInt8
  | .idle => 0x00
  | .segmentUnicastInterval => 0x01
  | .segmentUnicastPending => 0x02
  | .segmentUnicastWaitingResponse => 0x03
  | .imageDistributionCompleted => 0x04
  | .bootloadRequestUnicastInterval => 0x05
  | .bootloadRequestUnicastPending => 0x06
  | .bootloadRequestWaitingResponse => 0x07
  | .bootloadRequestCompleted => 0x08
  | .handshakeInterval => 0x09
  | .handshakePending => 0x0A
  | .handshakeWaitingResponse => 0x0B

/-- The static variables. -/
structure Server where
  internalState : StateOtaServer
  targetId : EmberNodeId
  sentSegment : UInt32
  stackErrorsCount : UInt8
  currentTargetErrorsCount : UInt8
  nextSegment : UInt32
  currentImageSizeOrBootloadTimeMs : UInt32
  currentImageTagOrServerStatus : UInt8
  otaEventIsActive : Bool
  deriving DecidableEq, Repr

/-- The variables at program start. -/
def Server.init : Server where
  internalState := .idle
  targetId := emberNullNodeId
  sentSegment := 0
  stackErrorsCount := 0
  currentTargetErrorsCount := 0
  nextSegment := 0
  currentImageSizeOrBootloadTimeMs := 0
  currentImageTagOrServerStatus := 0
  otaEventIsActive := false

/-- `serverIsIdle()` -/
def Server.serverIsIdle (s : Server) : Prop := s.internalState = .idle

/-- `serverInImageDistributionProcess()` -/
def Server.serverInImageDistributionProcess (s : Server) : Prop :=
  StateOtaServer.segmentUnicastInterval.code ≤ s.internalState.code ∧
    s.internalState.code ≤ StateOtaServer.segmentUnicastWaitingResponse.code

/-- `serverInBootloadRequestProcess()` -/
def Server.serverInBootloadRequestProcess (s : Server) : Prop :=
  StateOtaServer.bootloadRequestUnicastInterval.code ≤ s.internalState.code ∧
    s.internalState.code ≤ StateOtaServer.bootloadRequestWaitingResponse.code

instance (s : Server) : Decidable s.serverIsIdle := by
  unfold Server.serverIsIdle; infer_instance

instance (s : Server) : Decidable s.serverInImageDistributionProcess := by
  unfold Server.serverInImageDistributionProcess; infer_instance

instance (s : Server) : Decidable s.serverInBootloadRequestProcess := by
  unfold Server.serverInBootloadRequestProcess; infer_instance

/-! ## Actions and outcomes -/

/-- What the server asks of its surroundings. -/
inductive Action
  /-- `emberAfPluginOtaUnicastBootloaderServerGetImageSegmentCallback` -/
  | getImageSegment (startIndex endIndex : UInt32) (imageTag : UInt8)
  /-- `emberMessageSend`, and what it returned -/
  | messageSend (message : EmberOutgoingMessage) (status : EmberStatus)
  /-- `emberAfPluginOtaUnicastBootloaderServerImageDistributionCompleteCallback` -/
  | imageDistributionComplete (status : EmberAfOtaUnicastBootloaderStatus)
  /-- `emberAfPluginOtaUnicastBootloaderServerRequestTargetBootloadCompleteCallback` -/
  | requestTargetBootloadComplete (status : EmberAfOtaUnicastBootloaderStatus)
  /-- `timerfd_create` of the thread's own timer -/
  | timerfdCreate
  /-- `timerfd_settime`, with `it_value.tv_nsec` -/
  | timerfdSettime (tvNsec : ℕ)
  /-- `pthread_create` of `sli_connect_ota_unicast_server_process_events` -/
  | pthreadCreate
  /-- the value an API function returns -/
  | returned (status : EmberAfOtaUnicastBootloaderStatus)
  /-- an `assert` that fails -/
  | assertFailed

/-- The server after a function, and its actions. -/
structure Outcome where
  server : Server
  actions : List Action

/-- The outcome, with actions taken before it. -/
def Outcome.after (o : Outcome) (as : List Action) : Outcome := ⟨o.server, as ++ o.actions⟩

@[simp] theorem Outcome.server_after (o : Outcome) (as : List Action) :
    (o.after as).server = o.server := rfl

@[simp] theorem Outcome.actions_after (o : Outcome) (as : List Action) :
    (o.after as).actions = as ++ o.actions := rfl

/-- What the surroundings answer while the event handler runs. -/
structure EventEnv where
  /-- what the array `message` holds before it is written -/
  stack : Mem
  /-- the image-segment callback: the bytes it copied, or `none` where it returns `false` -/
  getImageSegment : UInt32 → UInt32 → UInt8 → Option (List UInt8)
  /-- what `emberMessageSend` returns -/
  sendStatus : EmberStatus
  /-- the monotonic clock in milliseconds -/
  nowMs : UInt32

/-! ## Scheduling and completion -/

/-- `sli_connect_ota_unicast_server_schedule_next_event` -/
def sliConnectOtaUnicastServerScheduleNextEvent (timeMs : UInt16) (s : Server) : Outcome where
  server := { s with otaEventIsActive := true }
  actions := [.timerfdSettime (if timeMs ≠ 0 then timeMs.toNat * 1000000 else 1)]

/-- `imageDistributionProcessFinished` -/
def imageDistributionProcessFinished (status : EmberAfOtaUnicastBootloaderStatus) (s : Server) :
    Outcome where
  server := { s with otaEventIsActive := false, internalState := .idle }
  actions := [.imageDistributionComplete status]

/-- `bootloadRequestProcessFinished` -/
def bootloadRequestProcessFinished (status : EmberAfOtaUnicastBootloaderStatus) (s : Server) :
    Outcome where
  server := { s with otaEventIsActive := false, internalState := .idle }
  actions := [.requestTargetBootloadComplete status]

/-- `getTotalSegmentsCount` -/
def getTotalSegmentsCount (s : Server) : UInt32 :=
  let totalSegments := s.currentImageSizeOrBootloadTimeMs / maxSegmentPayloadLength
  if s.currentImageSizeOrBootloadTimeMs % maxSegmentPayloadLength > 0 then totalSegments + 1
  else totalSegments

/-- `scheduleImageDistributionProcessNextTask`, the end of the case of the segment that was answered
or timed out. -/
def scheduleSegmentTransmission (cfg : Config) (s : Server) : Outcome :=
  let s := { s with internalState := .segmentUnicastInterval }
  if s.currentTargetErrorsCount ≥ maxUnicastErrors then
    imageDistributionProcessFinished .unreachable s
  else sliConnectOtaUnicastServerScheduleNextEvent cfg.txIntervalMs s

/-- `scheduleImageDistributionProcessNextTask` -/
def scheduleImageDistributionProcessNextTask (cfg : Config) (newSegment : Bool) (s : Server) :
    Outcome :=
  match s.internalState with
  | .handshakeInterval | .segmentUnicastInterval =>
    if s.stackErrorsCount ≥ maxStackErrors then imageDistributionProcessFinished .stackError s
    else if s.currentTargetErrorsCount ≥ maxUnicastErrors then
      imageDistributionProcessFinished .unreachable s
    else sliConnectOtaUnicastServerScheduleNextEvent cfg.txIntervalMs s
  | .segmentUnicastWaitingResponse =>
    if newSegment then
      if s.nextSegment < getTotalSegmentsCount s then
        scheduleSegmentTransmission cfg { s with nextSegment := s.nextSegment + 1 }
      else
        ⟨{ s with nextSegment := 0, stackErrorsCount := 0, currentTargetErrorsCount := 0 }, []⟩
    else scheduleSegmentTransmission cfg s
  | .handshakeWaitingResponse =>
    if s.currentTargetErrorsCount ≥ maxUnicastErrors then
      imageDistributionProcessFinished .unreachable s
    else
      sliConnectOtaUnicastServerScheduleNextEvent cfg.txIntervalMs
        { s with internalState := .handshakeInterval }
  | _ => ⟨s, [.assertFailed]⟩

/-- `scheduleBootloadRequestProcessNextTask` -/
def scheduleBootloadRequestProcessNextTask (cfg : Config) (targetResponeded : Bool)
    (targetResponseStatus : UInt8) (s : Server) : Outcome :=
  if ¬ s.serverInBootloadRequestProcess then ⟨s, [.assertFailed]⟩
  else if s.stackErrorsCount ≥ maxStackErrors then bootloadRequestProcessFinished .stackError s
  else if targetResponeded then
    if targetResponseStatus = respStatusCompleted then bootloadRequestProcessFinished .success s
    else if targetResponseStatus = respStatusRefused then
      bootloadRequestProcessFinished .refused s
    else bootloadRequestProcessFinished .failed s
  else if s.stackErrorsCount ≥ maxStackErrors then bootloadRequestProcessFinished .stackError s
  else if s.currentTargetErrorsCount ≥ maxUnicastErrors then
    bootloadRequestProcessFinished .unreachable s
  else
    sliConnectOtaUnicastServerScheduleNextEvent cfg.txIntervalMs
      { s with internalState := .bootloadRequestUnicastInterval }

/-! ## Submissions -/

/-- The handshake frame of `unicastHandshake`. -/
def handshakeFrame (stack : Mem) (s : Server) : EmberOutgoingMessage where
  options := unicastTxOptions
  destination := s.targetId
  endpoint := emberAfPluginOtaUnicastBootloaderServerEndpoint
  tag := 0
  length := handshakeHeaderLength
  payload :=
    let message := stack.write frameControlOffset [requestFrameControl commandIdHandshake]
    let message := message.write handshakeTagOffset [s.currentImageTagOrServerStatus]
    emberStoreLowHighInt32u message handshakeLengthOffset s.currentImageSizeOrBootloadTimeMs

/-- `unicastHandshake`, after `emberMessageSend`. -/
def unicastHandshakeSent (cfg : Config) (status : EmberStatus) (s : Server) : Outcome :=
  if status = emberSuccess then ⟨{ s with internalState := .handshakePending }, []⟩
  else
    scheduleImageDistributionProcessNextTask cfg false
      { s with stackErrorsCount := s.stackErrorsCount + 1 }

/-- `unicastHandshake` -/
def unicastHandshake (cfg : Config) (env : EventEnv) (s : Server) : Outcome :=
  (unicastHandshakeSent cfg env.sendStatus s).after
    [.messageSend (handshakeFrame env.stack s) env.sendStatus]

/-- The index of the first byte of the segment `nextSegment`, as `unicastNextSegment` computes it. -/
def segmentStartIndex (s : Server) : UInt32 := s.nextSegment * maxSegmentPayloadLength

/-- The index of its last byte, as `unicastNextSegment` computes it. -/
def segmentEndIndex (s : Server) : UInt32 :=
  let endIndex := segmentStartIndex s + maxSegmentPayloadLength - 1
  if endIndex ≥ s.currentImageSizeOrBootloadTimeMs then s.currentImageSizeOrBootloadTimeMs - 1
  else endIndex

/-- The segment frame of `unicastNextSegment`, with the bytes the callback copied behind the
header. -/
def segmentFrame (stack : Mem) (imageSegment : List UInt8) (s : Server) : EmberOutgoingMessage where
  options := unicastTxOptions
  destination := s.targetId
  endpoint := emberAfPluginOtaUnicastBootloaderServerEndpoint
  tag := 0
  length := (imageSegmentHeaderLength + segmentEndIndex s - segmentStartIndex s + 1).toUInt16
  payload :=
    let message := stack.write imageSegmentHeaderLength.toNat imageSegment
    let message := message.write frameControlOffset [requestFrameControl commandIdImageSegment]
    let message := message.write imageSegmentTagOffset [s.currentImageTagOrServerStatus]
    emberStoreLowHighInt32u message imageSegmentIndexOffset s.nextSegment

/-- `unicastNextSegment`, after `emberMessageSend`. -/
def unicastNextSegmentSent (cfg : Config) (status : EmberStatus) (s : Server) : Outcome :=
  if status = emberSuccess then
    ⟨{ s with internalState := .segmentUnicastPending, sentSegment := s.nextSegment }, []⟩
  else
    scheduleImageDistributionProcessNextTask cfg false
      { s with stackErrorsCount := s.stackErrorsCount + 1 }

/-- The call of the image-segment callback by `unicastNextSegment`. -/
def segmentCallback (s : Server) : Action :=
  .getImageSegment (segmentStartIndex s) (segmentEndIndex s) s.currentImageTagOrServerStatus

/-- `unicastNextSegment` -/
def unicastNextSegment (cfg : Config) (env : EventEnv) (s : Server) : Outcome :=
  match env.getImageSegment (segmentStartIndex s) (segmentEndIndex s)
    s.currentImageTagOrServerStatus with
  | none => (imageDistributionProcessFinished .dataUnderflow s).after [segmentCallback s]
  | some imageSegment =>
    (unicastNextSegmentSent cfg env.sendStatus s).after
      [segmentCallback s, .messageSend (segmentFrame env.stack imageSegment s) env.sendStatus]

/-- `elapsedTimeInt32u(oldTime, newTime)` -/
def elapsedTimeInt32u (oldTime newTime : UInt32) : UInt32 := newTime - oldTime

/-- `timeGTorEqualInt32u(t1, t2)` -/
def timeGTorEqualInt32u (t1 t2 : UInt32) : Prop := elapsedTimeInt32u t2 t1 ≤ 0x80000000

instance (t1 t2 : UInt32) : Decidable (timeGTorEqualInt32u t1 t2) := by
  unfold timeGTorEqualInt32u; infer_instance

/-- The delay `requestTargetForBootload` puts in its frame. -/
def bootloadDelay (nowMs : UInt32) (s : Server) : UInt32 :=
  if timeGTorEqualInt32u nowMs s.currentImageSizeOrBootloadTimeMs then 0
  else elapsedTimeInt32u nowMs s.currentImageSizeOrBootloadTimeMs

/-- The frame of `requestTargetForBootload`. -/
def bootloadRequestFrame (stack : Mem) (nowMs : UInt32) (s : Server) : EmberOutgoingMessage where
  options := unicastTxOptions
  destination := s.targetId
  endpoint := emberAfPluginOtaUnicastBootloaderServerEndpoint
  tag := 0
  length := bootloadReqHeaderLength
  payload :=
    let message := stack.write frameControlOffset [requestFrameControl commandIdBootloadRequest]
    let message := message.write bootloadReqTagOffset [s.currentImageTagOrServerStatus]
    emberStoreLowHighInt32u message bootloadReqDelayOffset (bootloadDelay nowMs s)

/-- `requestTargetForBootload`, after `emberMessageSend`. -/
def requestTargetForBootloadSent (cfg : Config) (status : EmberStatus) (s : Server) : Outcome :=
  if status = emberSuccess then ⟨{ s with internalState := .bootloadRequestUnicastPending }, []⟩
  else
    scheduleBootloadRequestProcessNextTask cfg false 0xFF
      { s with stackErrorsCount := s.stackErrorsCount + 1 }

/-- `requestTargetForBootload` -/
def requestTargetForBootload (cfg : Config) (env : EventEnv) (s : Server) : Outcome :=
  (requestTargetForBootloadSent cfg env.sendStatus s).after
    [.messageSend (bootloadRequestFrame env.stack env.nowMs s) env.sendStatus]

/-! ## Responses -/

/-- `handleSegmentResponse` -/
def handleSegmentResponse (cfg : Config) (message : EmberIncomingMessage) (s : Server) : Outcome :=
  let status := emOtaUnicastBootloaderProtocolResponseStatus message.payload
  if status = respStatusOutOfSeq then imageDistributionProcessFinished .failed s
  else if status = respStatusRefused then imageDistributionProcessFinished .refused s
  else if status = respStatusOngoing then
    let respSegment := emberFetchLowHighInt32u message.payload imageSegmentRespIndexOffset
    if respSegment = s.sentSegment then
      scheduleImageDistributionProcessNextTask cfg true
        { s with currentTargetErrorsCount := 0, otaEventIsActive := false }
    else imageDistributionProcessFinished .failed s
  else if status = respStatusCompleted then imageDistributionProcessFinished .success s
  else ⟨s, []⟩

/-- `handleHandshakeResponse` -/
def handleHandshakeResponse (cfg : Config) (message : EmberIncomingMessage) (startSegment : UInt32)
    (s : Server) : Outcome :=
  let status := emOtaUnicastBootloaderProtocolResponseStatus message.payload
  if status = respStatusRefused then imageDistributionProcessFinished .refused s
  else if status = respStatusOngoing then
    scheduleImageDistributionProcessNextTask cfg true
      { s with
        nextSegment := startSegment
        currentTargetErrorsCount := 0
        internalState := .segmentUnicastInterval }
  else imageDistributionProcessFinished .failed s

/-- `emAfPluginOtaUnicastBootloaderServerIncomingMessageCallback` -/
def emAfPluginOtaUnicastBootloaderServerIncomingMessageCallback (cfg : Config)
    (message : EmberIncomingMessage) (s : Server) : Outcome :=
  if message.endpoint ≠ emberAfPluginOtaUnicastBootloaderServerEndpoint then ⟨s, []⟩
  else if message.options &&& emberOptionsSecurityEnabled = 0 then ⟨s, []⟩
  else if message.source ≠ s.targetId then ⟨s, []⟩
  else
    let commandId := emOtaUnicastBootloaderProtocolCommandId message.payload
    if commandId = commandIdHandshakeResponse then
      if s.internalState = .handshakeWaitingResponse ∧
          s.currentImageTagOrServerStatus = message.payload handshakeRespTagOffset then
        handleHandshakeResponse cfg message 0 s
      else ⟨s, []⟩
    else if commandId = commandIdExtHandshakeResponse then
      if s.internalState = .handshakeWaitingResponse ∧
          s.currentImageTagOrServerStatus = message.payload extHshakeRespTagOffset then
        handleHandshakeResponse cfg message
          (emberFetchLowHighInt32u message.payload extHshakeRespSegmentIndexOffset) s
      else ⟨s, []⟩
    else if commandId = commandIdImageSegmentResponse then
      if (s.internalState = .segmentUnicastPending ∨
            s.internalState = .segmentUnicastWaitingResponse) ∧
          s.currentImageTagOrServerStatus = message.payload imageSegmentRespTagOffset then
        handleSegmentResponse cfg message { s with internalState := .segmentUnicastWaitingResponse }
      else ⟨s, []⟩
    else if commandId = commandIdBootloadResponse then
      if s.internalState = .bootloadRequestWaitingResponse ∧
          message.length = bootloadRespHeaderLength then
        scheduleBootloadRequestProcessNextTask cfg true
          (emOtaUnicastBootloaderProtocolResponseStatus message.payload) s
      else ⟨s, []⟩
    else ⟨s, []⟩

/-! ## Sent callback, event handler, API -/

/-- The counters after a frame was not sent, or not acknowledged. -/
def bumpErrors (status : EmberStatus) (s : Server) : Server :=
  if status = emberMacNoAckReceived then
    { s with currentTargetErrorsCount := s.currentTargetErrorsCount + 1, stackErrorsCount := 0 }
  else { s with stackErrorsCount := s.stackErrorsCount + 1 }

/-- `emAfPluginOtaUnicastBootloaderServerMessageSentCallback` -/
def emAfPluginOtaUnicastBootloaderServerMessageSentCallback (cfg : Config) (status : EmberStatus)
    (message : EmberOutgoingMessage) (s : Server) : Outcome :=
  if message.endpoint ≠ emberAfPluginOtaUnicastBootloaderServerEndpoint then ⟨s, []⟩
  else
    let commandId := emOtaUnicastBootloaderProtocolCommandId message.payload
    if commandId = commandIdHandshake then
      if s.internalState ≠ .handshakePending then ⟨s, []⟩
      else if status = emberSuccess then
        sliConnectOtaUnicastServerScheduleNextEvent responseTimeoutMs
          { s with stackErrorsCount := 0, internalState := .handshakeWaitingResponse }
      else
        scheduleImageDistributionProcessNextTask cfg false
          { bumpErrors status s with internalState := .handshakeInterval }
    else if commandId = commandIdImageSegment then
      if s.internalState ≠ .segmentUnicastPending then ⟨s, []⟩
      else if status = emberSuccess then
        sliConnectOtaUnicastServerScheduleNextEvent responseTimeoutMs
          { s with stackErrorsCount := 0, internalState := .segmentUnicastWaitingResponse }
      else
        scheduleImageDistributionProcessNextTask cfg false
          { bumpErrors status s with internalState := .segmentUnicastInterval }
    else if commandId = commandIdBootloadRequest then
      if s.internalState ≠ .bootloadRequestUnicastPending then ⟨s, []⟩
      else if status = emberSuccess then
        sliConnectOtaUnicastServerScheduleNextEvent responseTimeoutMs
          { s with stackErrorsCount := 0, internalState := .bootloadRequestWaitingResponse }
      else scheduleBootloadRequestProcessNextTask cfg false 0xFF (bumpErrors status s)
    else ⟨s, []⟩

/-- `emAfPluginOtaUnicastBootloaderServerEventHandler` -/
def emAfPluginOtaUnicastBootloaderServerEventHandler (cfg : Config) (env : EventEnv) (s : Server) :
    Outcome :=
  let s := { s with otaEventIsActive := false }
  match s.internalState with
  | .handshakeInterval => unicastHandshake cfg env s
  | .segmentUnicastInterval => unicastNextSegment cfg env s
  | .handshakeWaitingResponse | .segmentUnicastWaitingResponse =>
    scheduleImageDistributionProcessNextTask cfg false
      { s with currentTargetErrorsCount := s.currentTargetErrorsCount + 1 }
  | .bootloadRequestUnicastInterval => requestTargetForBootload cfg env s
  | .bootloadRequestWaitingResponse =>
    scheduleBootloadRequestProcessNextTask cfg false 0xFF
      { s with currentTargetErrorsCount := s.currentTargetErrorsCount + 1 }
  | _ => ⟨s, []⟩

/-- `emberAfPluginOtaUnicastBootloaderServerInitiateImageDistribution` -/
def emberAfPluginOtaUnicastBootloaderServerInitiateImageDistribution (target : EmberNodeId)
    (imageSize : UInt32) (imageTag : UInt8) (s : Server) :
    EmberAfOtaUnicastBootloaderStatus × Outcome :=
  if ¬ s.serverIsIdle then (.busy, ⟨s, []⟩)
  else if emberNullNodeId = target ∨ imageSize = 0 ∨ imageSize > maximumImageSize then
    (.invalidCall, ⟨s, []⟩)
  else
    (.success,
      ⟨{ s with
          currentImageSizeOrBootloadTimeMs := imageSize
          currentImageTagOrServerStatus := imageTag
          targetId := target
          nextSegment := 0
          stackErrorsCount := 0
          currentTargetErrorsCount := 0
          internalState := .handshakeInterval }, [.pthreadCreate]⟩)

/-- `emberAfPluginUnicastBootloaderServerInitiateRequestTargetBootload`, at the time `nowMs` of the
monotonic clock -/
def emberAfPluginUnicastBootloaderServerInitiateRequestTargetBootload (bootloadDelayMs : UInt32)
    (imageTag : UInt8) (target : EmberNodeId) (nowMs : UInt32) (s : Server) :
    EmberAfOtaUnicastBootloaderStatus × Outcome :=
  if ¬ s.serverIsIdle then (.busy, ⟨s, []⟩)
  else if target = emberNullNodeId then (.invalidCall, ⟨s, []⟩)
  else
    (.success,
      ⟨{ s with
          targetId := target
          nextSegment := 0
          stackErrorsCount := 0
          currentTargetErrorsCount := 0
          currentImageTagOrServerStatus := imageTag
          currentImageSizeOrBootloadTimeMs := nowMs + bootloadDelayMs
          internalState := .bootloadRequestUnicastInterval }, [.pthreadCreate]⟩)

/-- `emberAfPluginOtaUnicastBootloaderServerAbortCurrentProcess` -/
def emberAfPluginOtaUnicastBootloaderServerAbortCurrentProcess (s : Server) :
    EmberAfOtaUnicastBootloaderStatus × Outcome :=
  if s.serverInImageDistributionProcess then
    (.success, imageDistributionProcessFinished .aborted s)
  else if s.serverInBootloadRequestProcess then
    (.success, bootloadRequestProcessFinished .aborted s)
  else (.invalidCall, ⟨s, []⟩)

/-- `sli_connect_ota_unicast_server_process_events`, up to its first `poll`. -/
def processEventsStart (s : Server) : Outcome :=
  (sliConnectOtaUnicastServerScheduleNextEvent 0 s).after [.timerfdCreate]

/-! ## The server as a system -/

/-- What happens to the server. -/
inductive Input
  | initiateImageDistribution (target : EmberNodeId) (imageSize : UInt32) (imageTag : UInt8)
  | initiateRequestTargetBootload (bootloadDelayMs : UInt32) (imageTag : UInt8)
      (target : EmberNodeId) (nowMs : UInt32)
  | abortCurrentProcess
  | incomingMessage (message : EmberIncomingMessage)
  | messageSent (status : EmberStatus) (message : EmberOutgoingMessage)
  /-- `poll` returns, the timer is read, and the handler runs if an event is active -/
  | timerExpired (env : EventEnv)
  /-- the inner `while` of the thread finds an event still active -/
  | eventActive (env : EventEnv)

/-- An API call, with its return value shown; the thread it creates runs up to its first `poll`. -/
def apiCall (r : EmberAfOtaUnicastBootloaderStatus × Outcome) (spawns : Bool) : Outcome :=
  let o := if spawns ∧ r.1 = .success then
    (processEventsStart r.2.server).after r.2.actions else r.2
  ⟨o.server, o.actions ++ [.returned r.1]⟩

/-- One input, handled to the end. -/
def handle (cfg : Config) (s : Server) : Input → Option Outcome
  | .initiateImageDistribution target imageSize imageTag =>
    some (apiCall (emberAfPluginOtaUnicastBootloaderServerInitiateImageDistribution target imageSize
      imageTag s) true)
  | .initiateRequestTargetBootload bootloadDelayMs imageTag target nowMs =>
    some (apiCall (emberAfPluginUnicastBootloaderServerInitiateRequestTargetBootload bootloadDelayMs
      imageTag target nowMs s) true)
  | .abortCurrentProcess =>
    some (apiCall (emberAfPluginOtaUnicastBootloaderServerAbortCurrentProcess s) false)
  | .incomingMessage message =>
    some (emAfPluginOtaUnicastBootloaderServerIncomingMessageCallback cfg message s)
  | .messageSent status message =>
    some (emAfPluginOtaUnicastBootloaderServerMessageSentCallback cfg status message s)
  | .timerExpired env =>
    some (if s.otaEventIsActive then emAfPluginOtaUnicastBootloaderServerEventHandler cfg env s
      else ⟨s, []⟩)
  | .eventActive env =>
    if s.otaEventIsActive then some (emAfPluginOtaUnicastBootloaderServerEventHandler cfg env s)
    else none

/-- **The server, its handlers run one at a time.** -/
def ota (cfg : Config) : System Server Input Action where
  start s := s = Server.init
  step s i := (handle cfg s i).map fun o => (o.server, o.actions)

end ConnectNcpHost.Ota.BootloaderServer
