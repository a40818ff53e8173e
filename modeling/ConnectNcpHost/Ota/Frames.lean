import ConnectNcpHost.Ota.Transition

/-! # Frames of the server and of the target

What a submitted frame carries (`carries_of_isFrame`, `segmentIndex_segmentFrame`,
`read_segmentFrame`), and the responses of a target with what the server reads out of them. -/

namespace ConnectNcpHost.Ota.Frames

open ConnectNcpHost.Lib.Bytes ConnectNcpHost.Stack.ByteUtilities ConnectNcpHost.Ota.Protocol
open ConnectNcpHost.Ota.BootloaderServer ConnectNcpHost.Ota.Transition

/-! ## Requests -/

/-- The index of a segment frame. -/
def segmentIndex (m : EmberOutgoingMessage) : UInt32 :=
  emberFetchLowHighInt32u m.payload imageSegmentIndexOffset

/-- Below another index, the next one does not wrap. -/
theorem toNat_add_one {k t : UInt32} (h : k < t) : (k + 1).toNat = k.toNat + 1 := by
  have hlt := UInt32.lt_iff_toNat_lt.mp h
  have ht := t.toNat_lt
  rw [UInt32.toNat_add]
  exact Nat.mod_eq_of_lt (by simp only [UInt32.reduceToNat]; omega)

variable {env : EventEnv} {s : Server} {r : Request} {m : EmberOutgoingMessage}

theorem payload_handshakeFrame (stack : Mem) (s : Server) :
    (handshakeFrame stack s).payload frameControlOffset = requestFrameControl commandIdHandshake := by
  simp only [handshakeFrame, emberStoreLowHighInt32u_eq]
  rfl

theorem payload_segmentFrame (stack : Mem) (bytes : List UInt8) (s : Server) :
    (segmentFrame stack bytes s).payload frameControlOffset =
      requestFrameControl commandIdImageSegment := by
  simp only [segmentFrame, emberStoreLowHighInt32u_eq]
  rfl

theorem payload_bootloadRequestFrame (stack : Mem) (nowMs : UInt32) (s : Server) :
    (bootloadRequestFrame stack nowMs s).payload frameControlOffset =
      requestFrameControl commandIdBootloadRequest := by
  simp only [bootloadRequestFrame, emberStoreLowHighInt32u_eq]
  rfl

/-- A submitted frame carries its request. -/
theorem carries_of_isFrame (h : IsFrame env s r m) : Carries m r := by
  cases h with
  | handshake =>
    refine ⟨rfl, ?_⟩
    rw [emOtaUnicastBootloaderProtocolCommandId, payload_handshakeFrame]
    decide
  | imageSegment h =>
    refine ⟨rfl, ?_⟩
    rw [emOtaUnicastBootloaderProtocolCommandId, payload_segmentFrame]
    decide
  | bootloadRequest =>
    refine ⟨rfl, ?_⟩
    rw [emOtaUnicastBootloaderProtocolCommandId, payload_bootloadRequestFrame]
    decide

theorem segmentIndex_segmentFrame (stack : Mem) (bytes : List UInt8) (s : Server) :
    segmentIndex (segmentFrame stack bytes s) = s.nextSegment := by
  refine fetch_of_readLowHigh32 ?_
  simp only [segmentFrame, emberStoreLowHighInt32u_eq]
  exact Memory.read_write_same _ _ (lowHighBytes32 s.nextSegment)

/-- Behind the header stand the bytes the callback copied. -/
theorem read_segmentFrame (stack : Mem) (bytes : List UInt8) (s : Server) :
    (segmentFrame stack bytes s).payload.read imageSegmentPayloadOffset bytes.length = bytes := by
  simp only [segmentFrame, emberStoreLowHighInt32u_eq]
  rw [Memory.read_write_of_ge _ _ (Nat.le_refl 6),
    Memory.read_write_of_ge _ _ (Nat.le_of_ble_eq_true rfl),
    Memory.read_write_of_ge _ _ (Nat.le_of_ble_eq_true rfl)]
  exact Memory.read_write_same _ _ _

/-! ## Responses -/

/-- A response of the node `source`: frame control, tag and, where the command has one, an index. -/
def response (source : EmberNodeId) (commandId status tag : UInt8) (index : UInt32)
    (length : EmberMessageLength) : EmberIncomingMessage where
  options := emberOptionsSecurityEnabled
  source := source
  endpoint := emberAfPluginOtaUnicastBootloaderServerEndpoint
  length := length
  payload := Memory.write (fun _ => 0) frameControlOffset
    ((commandId ||| (status <<< frameControlRespStatusOffset)) :: tag :: lowHighBytes32 index)

/-- A handshake response that starts at the first segment. -/
def handshakeResponse (source : EmberNodeId) (status tag : UInt8) : EmberIncomingMessage :=
  response source commandIdHandshakeResponse status tag 0 3

/-- A handshake response that starts at the segment `index`. -/
def extHandshakeResponse (source : EmberNodeId) (status tag : UInt8) (index : UInt32) :
    EmberIncomingMessage :=
  response source commandIdExtHandshakeResponse status tag index 6

/-- A response to a segment. -/
def segmentResponse (source : EmberNodeId) (status tag : UInt8) (index : UInt32) :
    EmberIncomingMessage :=
  response source commandIdImageSegmentResponse status tag index 7

variable {source : EmberNodeId} {commandId status tag : UInt8} {index : UInt32}
  {length : EmberMessageLength}

theorem respIndex_response :
    respIndex (response source commandId status tag index length) = index := by
  refine fetch_of_readLowHigh32 ?_
  unfold response
  rw [Memory.write_cons, Memory.write_cons]
  exact Memory.read_write_same _ _ (lowHighBytes32 index)

theorem payload_response : (response source commandId status tag index length).payload
    frameControlOffset = commandId ||| (status <<< frameControlRespStatusOffset) := rfl

theorem commandId_extHandshakeResponse :
    emOtaUnicastBootloaderProtocolCommandId
      (extHandshakeResponse source respStatusOngoing tag index).payload =
      commandIdExtHandshakeResponse := by
  rw [emOtaUnicastBootloaderProtocolCommandId, extHandshakeResponse, payload_response]
  decide

theorem respStatus_extHandshakeResponse :
    respStatus (extHandshakeResponse source respStatusOngoing tag index) = respStatusOngoing := by
  rw [respStatus, emOtaUnicastBootloaderProtocolResponseStatus, extHandshakeResponse,
    payload_response]
  decide

theorem startSegment_extHandshakeResponse :
    startSegment (extHandshakeResponse source respStatusOngoing tag index) = index := by
  rw [startSegment, if_pos commandId_extHandshakeResponse]
  exact respIndex_response

/-- The statuses a client answers a segment with. -/
def segmentStatuses : List UInt8 := [respStatusOngoing, respStatusCompleted, respStatusOutOfSeq]

theorem commandId_segmentResponse (h : status ∈ segmentStatuses) :
    emOtaUnicastBootloaderProtocolCommandId (segmentResponse source status tag index).payload =
      commandIdImageSegmentResponse := by
  rw [emOtaUnicastBootloaderProtocolCommandId, segmentResponse, payload_response]
  simp only [segmentStatuses, List.mem_cons, List.not_mem_nil, or_false] at h
  rcases h with rfl | rfl | rfl <;> decide

theorem respStatus_segmentResponse (h : status ∈ segmentStatuses) :
    respStatus (segmentResponse source status tag index) = status := by
  rw [respStatus, emOtaUnicastBootloaderProtocolResponseStatus, segmentResponse, payload_response]
  simp only [segmentStatuses, List.mem_cons, List.not_mem_nil, or_false] at h
  rcases h with rfl | rfl | rfl <;> decide

/-! ## Runs of a transfer

Lists of inputs for `System.exec`: a transfer to the node `target`, the surroundings answering
without an error. -/

/-- The callback delivers zeros, the stack accepts every frame. -/
def plainEnv : EventEnv where
  stack := fun _ => 0
  getImageSegment startIndex endIndex _ :=
    some (List.replicate (endIndex.toNat + 1 - startIndex.toNat) 0)
  sendStatus := emberSuccess
  nowMs := 0

/-- A server that transfers an image, its event scheduled. -/
def transferServer (target : EmberNodeId) (imageSize : UInt32) (imageTag : UInt8)
    (state : StateOtaServer) (segment : UInt32) : Server where
  internalState := state
  targetId := target
  sentSegment := 0
  stackErrorsCount := 0
  currentTargetErrorsCount := 0
  nextSegment := segment
  currentImageSizeOrBootloadTimeMs := imageSize
  currentImageTagOrServerStatus := imageTag
  otaEventIsActive := true

/-- From `Initiate` to the sent callback of the handshake. -/
def handshakeRun (target : EmberNodeId) (imageSize : UInt32) (imageTag : UInt8) : List Input :=
  [.initiateImageDistribution target imageSize imageTag, .timerExpired plainEnv,
    .messageSent emberSuccess (handshakeFrame plainEnv.stack
      (transferServer target imageSize imageTag .handshakeInterval 0))]

/-- From `Initiate` to the handshake response that accepts the image. -/
def openingRun (target : EmberNodeId) (imageSize : UInt32) (imageTag : UInt8) : List Input :=
  handshakeRun target imageSize imageTag ++
    [.incomingMessage (handshakeResponse target respStatusOngoing imageTag)]

/-- The submission of the segment `k` and its sent callback. -/
def segmentRun (target : EmberNodeId) (imageSize : UInt32) (imageTag : UInt8) (k : UInt32) :
    List Input :=
  [.timerExpired plainEnv, .messageSent emberSuccess (segmentFrame plainEnv.stack []
    (transferServer target imageSize imageTag .segmentUnicastInterval k))]

end ConnectNcpHost.Ota.Frames
