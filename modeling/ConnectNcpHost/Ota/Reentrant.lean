import ConnectNcpHost.Ota.Processes

/-! # The application within a completion callback

A completion callback may call the API, so it runs while a handler is still on the stack. Here every
function that can reach a completion is translated once more, with the application as a parameter: an
`Application` is any function from the server the callback finds to the server it leaves. The
handlers do nothing to the server after a callback has returned: what they leave is what the
application left (`server_handleWith`). -/

namespace ConnectNcpHost.Ota.Reentrant

open ConnectNcpHost.Stack.ByteUtilities ConnectNcpHost.Ota.Protocol
open ConnectNcpHost.Ota.BootloaderServer ConnectNcpHost.Ota.Transition ConnectNcpHost.Ota.Processes

/-- What the completion callback of a process does, given its status and the server. -/
abbrev Application : Type :=
  Process → EmberAfOtaUnicastBootloaderStatus → Server → Outcome

/-! ## The functions, the callbacks run inside -/

/-- `imageDistributionProcessFinished` -/
def imageDistributionProcessFinishedWith (app : Application)
    (status : EmberAfOtaUnicastBootloaderStatus) (s : Server) : Outcome :=
  let s := { s with otaEventIsActive := false, internalState := .idle }
  (app .imageDistribution status s).after [.imageDistributionComplete status]

/-- `bootloadRequestProcessFinished` -/
def bootloadRequestProcessFinishedWith (app : Application)
    (status : EmberAfOtaUnicastBootloaderStatus) (s : Server) : Outcome :=
  let s := { s with otaEventIsActive := false, internalState := .idle }
  (app .bootloadRequest status s).after [.requestTargetBootloadComplete status]

/-- The end of the case of the segment that was answered or timed out, in
`scheduleImageDistributionProcessNextTask`. -/
def scheduleSegmentTransmissionWith (app : Application) (cfg : Config) (s : Server) : Outcome :=
  let s := { s with internalState := .segmentUnicastInterval }
  if s.currentTargetErrorsCount ≥ maxUnicastErrors then
    imageDistributionProcessFinishedWith app .unreachable s
  else sliConnectOtaUnicastServerScheduleNextEvent cfg.txIntervalMs s

/-- `scheduleImageDistributionProcessNextTask` -/
def scheduleImageDistributionProcessNextTaskWith (app : Application) (cfg : Config)
    (newSegment : Bool) (s : Server) : Outcome :=
  match s.internalState with
  | .handshakeInterval | .segmentUnicastInterval =>
    if s.stackErrorsCount ≥ maxStackErrors then
      imageDistributionProcessFinishedWith app .stackError s
    else if s.currentTargetErrorsCount ≥ maxUnicastErrors then
      imageDistributionProcessFinishedWith app .unreachable s
    else sliConnectOtaUnicastServerScheduleNextEvent cfg.txIntervalMs s
  | .segmentUnicastWaitingResponse =>
    if newSegment then
      if s.nextSegment < getTotalSegmentsCount s then
        scheduleSegmentTransmissionWith app cfg { s with nextSegment := s.nextSegment + 1 }
      else
        ⟨{ s with nextSegment := 0, stackErrorsCount := 0, currentTargetErrorsCount := 0 }, []⟩
    else scheduleSegmentTransmissionWith app cfg s
  | .handshakeWaitingResponse =>
    if s.currentTargetErrorsCount ≥ maxUnicastErrors then
      imageDistributionProcessFinishedWith app .unreachable s
    else
      sliConnectOtaUnicastServerScheduleNextEvent cfg.txIntervalMs
        { s with internalState := .handshakeInterval }
  | _ => ⟨s, [.assertFailed]⟩

/-- `scheduleBootloadRequestProcessNextTask` -/
def scheduleBootloadRequestProcessNextTaskWith (app : Application) (cfg : Config)
    (targetResponeded : Bool) (targetResponseStatus : UInt8) (s : Server) : Outcome :=
  if ¬ s.serverInBootloadRequestProcess then ⟨s, [.assertFailed]⟩
  else if s.stackErrorsCount ≥ maxStackErrors then
    bootloadRequestProcessFinishedWith app .stackError s
  else if targetResponeded then
    if targetResponseStatus = respStatusCompleted then
      bootloadRequestProcessFinishedWith app .success s
    else if targetResponseStatus = respStatusRefused then
      bootloadRequestProcessFinishedWith app .refused s
    else bootloadRequestProcessFinishedWith app .failed s
  else if s.stackErrorsCount ≥ maxStackErrors then
    bootloadRequestProcessFinishedWith app .stackError s
  else if s.currentTargetErrorsCount ≥ maxUnicastErrors then
    bootloadRequestProcessFinishedWith app .unreachable s
  else
    sliConnectOtaUnicastServerScheduleNextEvent cfg.txIntervalMs
      { s with internalState := .bootloadRequestUnicastInterval }

/-- `unicastHandshake` -/
def unicastHandshakeWith (app : Application) (cfg : Config) (env : EventEnv) (s : Server) :
    Outcome :=
  Outcome.after
    (if env.sendStatus = emberSuccess then ⟨{ s with internalState := .handshakePending }, []⟩
    else
      scheduleImageDistributionProcessNextTaskWith app cfg false
        { s with stackErrorsCount := s.stackErrorsCount + 1 })
    [.messageSend (handshakeFrame env.stack s) env.sendStatus]

/-- `unicastNextSegment` -/
def unicastNextSegmentWith (app : Application) (cfg : Config) (env : EventEnv) (s : Server) :
    Outcome :=
  match env.getImageSegment (segmentStartIndex s) (segmentEndIndex s)
    s.currentImageTagOrServerStatus with
  | none => (imageDistributionProcessFinishedWith app .dataUnderflow s).after [segmentCallback s]
  | some imageSegment =>
    Outcome.after
      (if env.sendStatus = emberSuccess then
        ⟨{ s with internalState := .segmentUnicastPending, sentSegment := s.nextSegment }, []⟩
      else
        scheduleImageDistributionProcessNextTaskWith app cfg false
          { s with stackErrorsCount := s.stackErrorsCount + 1 })
      [segmentCallback s, .messageSend (segmentFrame env.stack imageSegment s) env.sendStatus]

/-- `requestTargetForBootload` -/
def requestTargetForBootloadWith (app : Application) (cfg : Config) (env : EventEnv) (s : Server) :
    Outcome :=
  Outcome.after
    (if env.sendStatus = emberSuccess then
      ⟨{ s with internalState := .bootloadRequestUnicastPending }, []⟩
    else
      scheduleBootloadRequestProcessNextTaskWith app cfg false 0xFF
        { s with stackErrorsCount := s.stackErrorsCount + 1 })
    [.messageSend (bootloadRequestFrame env.stack env.nowMs s) env.sendStatus]

/-- `handleSegmentResponse` -/
def handleSegmentResponseWith (app : Application) (cfg : Config) (message : EmberIncomingMessage)
    (s : Server) : Outcome :=
  let status := emOtaUnicastBootloaderProtocolResponseStatus message.payload
  if status = respStatusOutOfSeq then imageDistributionProcessFinishedWith app .failed s
  else if status = respStatusRefused then imageDistributionProcessFinishedWith app .refused s
  else if status = respStatusOngoing then
    let respSegment := emberFetchLowHighInt32u message.payload imageSegmentRespIndexOffset
    if respSegment = s.sentSegment then
      scheduleImageDistributionProcessNextTaskWith app cfg true
        { s with currentTargetErrorsCount := 0, otaEventIsActive := false }
    else imageDistributionProcessFinishedWith app .failed s
  else if status = respStatusCompleted then imageDistributionProcessFinishedWith app .success s
  else ⟨s, []⟩

/-- `handleHandshakeResponse` -/
def handleHandshakeResponseWith (app : Application) (cfg : Config) (message : EmberIncomingMessage)
    (startSegment : UInt32) (s : Server) : Outcome :=
  let status := emOtaUnicastBootloaderProtocolResponseStatus message.payload
  if status = respStatusRefused then imageDistributionProcessFinishedWith app .refused s
  else if status = respStatusOngoing then
    scheduleImageDistributionProcessNextTaskWith app cfg true
      { s with
        nextSegment := startSegment
        currentTargetErrorsCount := 0
        internalState := .segmentUnicastInterval }
  else imageDistributionProcessFinishedWith app .failed s

/-- `emAfPluginOtaUnicastBootloaderServerIncomingMessageCallback` -/
def emAfPluginOtaUnicastBootloaderServerIncomingMessageCallbackWith (app : Application)
    (cfg : Config) (message : EmberIncomingMessage) (s : Server) : Outcome :=
  if message.endpoint ≠ emberAfPluginOtaUnicastBootloaderServerEndpoint then ⟨s, []⟩
  else if message.options &&& emberOptionsSecurityEnabled = 0 then ⟨s, []⟩
  else if message.source ≠ s.targetId then ⟨s, []⟩
  else
    let commandId := emOtaUnicastBootloaderProtocolCommandId message.payload
    if commandId = commandIdHandshakeResponse then
      if s.internalState = .handshakeWaitingResponse ∧
          s.currentImageTagOrServerStatus = message.payload handshakeRespTagOffset then
        handleHandshakeResponseWith app cfg message 0 s
      else ⟨s, []⟩
    else if commandId = commandIdExtHandshakeResponse then
      if s.internalState = .handshakeWaitingResponse ∧
          s.currentImageTagOrServerStatus = message.payload extHshakeRespTagOffset then
        handleHandshakeResponseWith app cfg message
          (emberFetchLowHighInt32u message.payload extHshakeRespSegmentIndexOffset) s
      else ⟨s, []⟩
    else if commandId = commandIdImageSegmentResponse then
      if (s.internalState = .segmentUnicastPending ∨
            s.internalState = .segmentUnicastWaitingResponse) ∧
          s.currentImageTagOrServerStatus = message.payload imageSegmentRespTagOffset then
        handleSegmentResponseWith app cfg message
          { s with internalState := .segmentUnicastWaitingResponse }
      else ⟨s, []⟩
    else if commandId = commandIdBootloadResponse then
      if s.internalState = .bootloadRequestWaitingResponse ∧
          message.length = bootloadRespHeaderLength then
        scheduleBootloadRequestProcessNextTaskWith app cfg true
          (emOtaUnicastBootloaderProtocolResponseStatus message.payload) s
      else ⟨s, []⟩
    else ⟨s, []⟩

/-- `emAfPluginOtaUnicastBootloaderServerMessageSentCallback` -/
def emAfPluginOtaUnicastBootloaderServerMessageSentCallbackWith (app : Application) (cfg : Config)
    (status : EmberStatus) (message : EmberOutgoingMessage) (s : Server) : Outcome :=
  if message.endpoint ≠ emberAfPluginOtaUnicastBootloaderServerEndpoint then ⟨s, []⟩
  else
    let commandId := emOtaUnicastBootloaderProtocolCommandId message.payload
    if commandId = commandIdHandshake then
      if s.internalState ≠ .handshakePending then ⟨s, []⟩
      else if status = emberSuccess then
        sliConnectOtaUnicastServerScheduleNextEvent responseTimeoutMs
          { s with stackErrorsCount := 0, internalState := .handshakeWaitingResponse }
      else
        scheduleImageDistributionProcessNextTaskWith app cfg false
          { bumpErrors status s with internalState := .handshakeInterval }
    else if commandId = commandIdImageSegment then
      if s.internalState ≠ .segmentUnicastPending then ⟨s, []⟩
      else if status = emberSuccess then
        sliConnectOtaUnicastServerScheduleNextEvent responseTimeoutMs
          { s with stackErrorsCount := 0, internalState := .segmentUnicastWaitingResponse }
      else
        scheduleImageDistributionProcessNextTaskWith app cfg false
          { bumpErrors status s with internalState := .segmentUnicastInterval }
    else if commandId = commandIdBootloadRequest then
      if s.internalState ≠ .bootloadRequestUnicastPending then ⟨s, []⟩
      else if status = emberSuccess then
        sliConnectOtaUnicastServerScheduleNextEvent responseTimeoutMs
          { s with stackErrorsCount := 0, internalState := .bootloadRequestWaitingResponse }
      else scheduleBootloadRequestProcessNextTaskWith app cfg false 0xFF (bumpErrors status s)
    else ⟨s, []⟩

/-- `emAfPluginOtaUnicastBootloaderServerEventHandler` -/
def emAfPluginOtaUnicastBootloaderServerEventHandlerWith (app : Application) (cfg : Config)
    (env : EventEnv) (s : Server) : Outcome :=
  let s := { s with otaEventIsActive := false }
  match s.internalState with
  | .handshakeInterval => unicastHandshakeWith app cfg env s
  | .segmentUnicastInterval => unicastNextSegmentWith app cfg env s
  | .handshakeWaitingResponse | .segmentUnicastWaitingResponse =>
    scheduleImageDistributionProcessNextTaskWith app cfg false
      { s with currentTargetErrorsCount := s.currentTargetErrorsCount + 1 }
  | .bootloadRequestUnicastInterval => requestTargetForBootloadWith app cfg env s
  | .bootloadRequestWaitingResponse =>
    scheduleBootloadRequestProcessNextTaskWith app cfg false 0xFF
      { s with currentTargetErrorsCount := s.currentTargetErrorsCount + 1 }
  | _ => ⟨s, []⟩

/-- `emberAfPluginOtaUnicastBootloaderServerAbortCurrentProcess` -/
def emberAfPluginOtaUnicastBootloaderServerAbortCurrentProcessWith (app : Application)
    (s : Server) : EmberAfOtaUnicastBootloaderStatus × Outcome :=
  if s.serverInImageDistributionProcess then
    (.success, imageDistributionProcessFinishedWith app .aborted s)
  else if s.serverInBootloadRequestProcess then
    (.success, bootloadRequestProcessFinishedWith app .aborted s)
  else (.invalidCall, ⟨s, []⟩)

/-- One input, handled to the end, the completion callback included. -/
def handleWith (app : Application) (cfg : Config) (s : Server) : Input → Option Outcome
  | .abortCurrentProcess =>
    some (apiCall (emberAfPluginOtaUnicastBootloaderServerAbortCurrentProcessWith app s) false)
  | .incomingMessage message =>
    some (emAfPluginOtaUnicastBootloaderServerIncomingMessageCallbackWith app cfg message s)
  | .messageSent status message =>
    some (emAfPluginOtaUnicastBootloaderServerMessageSentCallbackWith app cfg status message s)
  | .timerExpired env =>
    some (if s.otaEventIsActive then
      emAfPluginOtaUnicastBootloaderServerEventHandlerWith app cfg env s else ⟨s, []⟩)
  | .eventActive env =>
    if s.otaEventIsActive then
      some (emAfPluginOtaUnicastBootloaderServerEventHandlerWith app cfg env s)
    else none
  -- no completion is reached from here
  | i => handle cfg s i

/-! ## Nothing runs after the callback -/

variable {app : Application} {cfg : Config} {s : Server}

/-- The process a completion callback tells the end of, and the status. -/
def completion : Action → Option (Process × EmberAfOtaUnicastBootloaderStatus)
  | .imageDistributionComplete status => some (.imageDistribution, status)
  | .requestTargetBootloadComplete status => some (.bootloadRequest, status)
  | _ => none

/-- The outcome of a handler, and of the completion callback it has invoked, as if the application
ran after the handler. -/
def resumed (app : Application) (o : Outcome) : Outcome :=
  match o.actions.findSome? completion with
  | none => o
  | some (process, status) => (app process status o.server).after o.actions

theorem resumed_after {o : Outcome} {as : List Action} (h : as.findSome? completion = none) :
    resumed app (o.after as) = (resumed app o).after as := by
  unfold resumed
  rw [Outcome.actions_after, List.findSome?_append, h, Option.none_or]
  split
  · rfl
  · simp [Outcome.after]

/-- The branches of a handler are resumed one by one. -/
theorem resumed_ite (p : Prop) [Decidable p] (o o' : Outcome) :
    resumed app (if p then o else o') = if p then resumed app o else resumed app o' :=
  apply_ite (resumed app) p o o'

/-- Without a completion callback nothing is resumed. -/
theorem resumed_nil (s : Server) : resumed app ⟨s, []⟩ = ⟨s, []⟩ := rfl

theorem resumed_scheduleNextEvent (timeMs : UInt16) (s : Server) :
    resumed app (sliConnectOtaUnicastServerScheduleNextEvent timeMs s) =
      sliConnectOtaUnicastServerScheduleNextEvent timeMs s := rfl

theorem scheduleSegmentTransmissionWith_eq (app : Application) (cfg : Config) (s : Server) :
    scheduleSegmentTransmissionWith app cfg s =
      resumed app (scheduleSegmentTransmission cfg s) := by
  unfold scheduleSegmentTransmissionWith scheduleSegmentTransmission
  dsimp only
  split_ifs <;> rfl

theorem scheduleImageDistributionProcessNextTaskWith_eq (newSegment : Bool) (s : Server) :
    scheduleImageDistributionProcessNextTaskWith app cfg newSegment s =
      resumed app (scheduleImageDistributionProcessNextTask cfg newSegment s) := by
  unfold scheduleImageDistributionProcessNextTaskWith scheduleImageDistributionProcessNextTask
  cases s.internalState with
  | handshakeInterval | segmentUnicastInterval | handshakeWaitingResponse =>
    dsimp only
    split_ifs <;> rfl
  | segmentUnicastWaitingResponse =>
    dsimp only
    split_ifs
    · exact scheduleSegmentTransmissionWith_eq app cfg _
    · rfl
    · exact scheduleSegmentTransmissionWith_eq app cfg s
  | _ => rfl

theorem scheduleBootloadRequestProcessNextTaskWith_eq (targetResponeded : Bool)
    (targetResponseStatus : UInt8) (s : Server) :
    scheduleBootloadRequestProcessNextTaskWith app cfg targetResponeded targetResponseStatus s =
      resumed app (scheduleBootloadRequestProcessNextTask cfg targetResponeded targetResponseStatus
        s) := by
  unfold scheduleBootloadRequestProcessNextTaskWith scheduleBootloadRequestProcessNextTask
  split_ifs <;> rfl

theorem unicastHandshakeWith_eq (env : EventEnv) (s : Server) :
    unicastHandshakeWith app cfg env s = resumed app (unicastHandshake cfg env s) := by
  unfold unicastHandshakeWith unicastHandshake unicastHandshakeSent
  rw [resumed_after rfl]
  split_ifs
  · rfl
  · rw [scheduleImageDistributionProcessNextTaskWith_eq]

theorem unicastNextSegmentWith_eq (env : EventEnv) (s : Server) :
    unicastNextSegmentWith app cfg env s = resumed app (unicastNextSegment cfg env s) := by
  unfold unicastNextSegmentWith unicastNextSegment unicastNextSegmentSent
  cases env.getImageSegment (segmentStartIndex s) (segmentEndIndex s)
    s.currentImageTagOrServerStatus with
  | none => rfl
  | some imageSegment =>
    dsimp only
    rw [resumed_after rfl]
    split_ifs
    · rfl
    · rw [scheduleImageDistributionProcessNextTaskWith_eq]

theorem requestTargetForBootloadWith_eq (env : EventEnv) (s : Server) :
    requestTargetForBootloadWith app cfg env s =
      resumed app (requestTargetForBootload cfg env s) := by
  unfold requestTargetForBootloadWith requestTargetForBootload requestTargetForBootloadSent
  rw [resumed_after rfl]
  split_ifs
  · rfl
  · rw [scheduleBootloadRequestProcessNextTaskWith_eq]

theorem handleSegmentResponseWith_eq (message : EmberIncomingMessage) (s : Server) :
    handleSegmentResponseWith app cfg message s =
      resumed app (handleSegmentResponse cfg message s) := by
  unfold handleSegmentResponseWith handleSegmentResponse
  dsimp only
  split_ifs
  · rfl
  · rfl
  · exact scheduleImageDistributionProcessNextTaskWith_eq true _
  · rfl
  · rfl
  · rfl

theorem handleHandshakeResponseWith_eq (message : EmberIncomingMessage) (startSegment : UInt32)
    (s : Server) : handleHandshakeResponseWith app cfg message startSegment s =
      resumed app (handleHandshakeResponse cfg message startSegment s) := by
  unfold handleHandshakeResponseWith handleHandshakeResponse
  dsimp only
  split_ifs
  · rfl
  · exact scheduleImageDistributionProcessNextTaskWith_eq true _
  · rfl

theorem incomingMessageCallbackWith_eq (message : EmberIncomingMessage) (s : Server) :
    emAfPluginOtaUnicastBootloaderServerIncomingMessageCallbackWith app cfg message s =
      resumed app
        (emAfPluginOtaUnicastBootloaderServerIncomingMessageCallback cfg message s) := by
  unfold emAfPluginOtaUnicastBootloaderServerIncomingMessageCallbackWith
    emAfPluginOtaUnicastBootloaderServerIncomingMessageCallback
  simp only [resumed_ite, resumed_nil, handleHandshakeResponseWith_eq,
    handleSegmentResponseWith_eq, scheduleBootloadRequestProcessNextTaskWith_eq]

theorem messageSentCallbackWith_eq (status : EmberStatus) (message : EmberOutgoingMessage)
    (s : Server) :
    emAfPluginOtaUnicastBootloaderServerMessageSentCallbackWith app cfg status message s =
      resumed app
        (emAfPluginOtaUnicastBootloaderServerMessageSentCallback cfg status message s) := by
  unfold emAfPluginOtaUnicastBootloaderServerMessageSentCallbackWith
    emAfPluginOtaUnicastBootloaderServerMessageSentCallback
  simp only [resumed_ite, resumed_nil, resumed_scheduleNextEvent,
    scheduleImageDistributionProcessNextTaskWith_eq, scheduleBootloadRequestProcessNextTaskWith_eq]

theorem eventHandlerWith_eq (env : EventEnv) (s : Server) :
    emAfPluginOtaUnicastBootloaderServerEventHandlerWith app cfg env s =
      resumed app (emAfPluginOtaUnicastBootloaderServerEventHandler cfg env s) := by
  unfold emAfPluginOtaUnicastBootloaderServerEventHandlerWith
    emAfPluginOtaUnicastBootloaderServerEventHandler
  dsimp only
  cases s.internalState with
  | handshakeInterval => exact unicastHandshakeWith_eq env _
  | segmentUnicastInterval => exact unicastNextSegmentWith_eq env _
  | handshakeWaitingResponse | segmentUnicastWaitingResponse =>
    exact scheduleImageDistributionProcessNextTaskWith_eq false _
  | bootloadRequestUnicastInterval => exact requestTargetForBootloadWith_eq env _
  | bootloadRequestWaitingResponse =>
    exact scheduleBootloadRequestProcessNextTaskWith_eq false 0xFF _
  | _ => rfl

/-- The abort call returns after the callback, and sets nothing. -/
theorem server_abortWith (s : Server) :
    (apiCall (emberAfPluginOtaUnicastBootloaderServerAbortCurrentProcessWith app s) false).server =
      (resumed app
        (apiCall (emberAfPluginOtaUnicastBootloaderServerAbortCurrentProcess s) false)).server := by
  unfold emberAfPluginOtaUnicastBootloaderServerAbortCurrentProcessWith
    emberAfPluginOtaUnicastBootloaderServerAbortCurrentProcess
  split_ifs <;> rfl

/-- **The server after a handler is the one its completion callback has left**: whatever the
application does there, nothing is overwritten. -/
theorem server_handleWith (app : Application) (cfg : Config) (s : Server) (i : Input) :
    (handleWith app cfg s i).map Outcome.server =
      (handle cfg s i).map fun o => (resumed app o).server := by
  have hcall : ∀ r : EmberAfOtaUnicastBootloaderStatus × Outcome,
      (apiCall r true).actions.findSome? completion = none →
      (apiCall r true).server = (resumed app (apiCall r true)).server := by
    intro r h
    unfold resumed
    rw [h]
  cases i with
  | abortCurrentProcess => exact congrArg some (server_abortWith s)
  | incomingMessage message =>
    exact congrArg (fun o => some (Outcome.server o)) (incomingMessageCallbackWith_eq message s)
  | messageSent status message =>
    exact congrArg (fun o => some (Outcome.server o)) (messageSentCallbackWith_eq status message s)
  | timerExpired env =>
    unfold handleWith handle
    dsimp only
    rw [eventHandlerWith_eq]
    split_ifs <;> rfl
  | eventActive env =>
    unfold handleWith handle
    dsimp only
    rw [eventHandlerWith_eq]
    split_ifs <;> rfl
  | initiateImageDistribution target imageSize imageTag =>
    refine congrArg some (hcall _ ?_)
    unfold emberAfPluginOtaUnicastBootloaderServerInitiateImageDistribution
    split_ifs <;> rfl
  | initiateRequestTargetBootload bootloadDelayMs imageTag target nowMs =>
    refine congrArg some (hcall _ ?_)
    unfold emberAfPluginUnicastBootloaderServerInitiateRequestTargetBootload
    split_ifs <;> rfl

end ConnectNcpHost.Ota.Reentrant
