import ConnectNcpHost.Csp.Variables
import ConnectNcpHost.Csp.EncodedSize
import ConnectNcpHost.Ota.Protocol

/-! # The callbacks of the stack (`csp-command-callbacks.c`)

A callback comes as a frame: an identifier, and the parameters in the format of its handler. The
dispatcher picks the handler by the identifier, the handler fetches the parameters into its local
variables and calls the application and the framework with them (`callback_dispatcher.c`); both get
the same values, so one `Callback` stands for the two calls.

`Callback.items` is what the stack puts on the wire for a callback. `handleIndication_eq`: the
dispatcher decodes the frame of every callback to `Callback.received`, the callback itself with its
arrays cut at the size of the local ones. -/

namespace ConnectNcpHost.Csp.Callbacks

open ConnectNcpHost.Lib.Bytes ConnectNcpHost.Stack.ByteUtilities
open ConnectNcpHost.Csp.Format ConnectNcpHost.Csp.Codec ConnectNcpHost.Csp.Outputs
open ConnectNcpHost.Csp.EncodedSize ConnectNcpHost.Csp.Variables ConnectNcpHost.Csp.FrameBounds
open ConnectNcpHost.HostCommon.CpcHost ConnectNcpHost.Ota.Protocol

variable {V : Type} {long : Bool} {m : Mem} {p : ℕ}

/-! ## Data -/

/-- `emberFetchLowHighInt16u` -/
def emberFetchLowHighInt16u (m : Mem) (contents : ℕ) : UInt16 :=
  highLowToInt (m (contents + 1)) (m contents)

/-- `emberStoreLowHighInt16u` -/
def emberStoreLowHighInt16u (m : Mem) (contents : ℕ) (value : UInt16) : Mem :=
  (m.write contents [lowByte value]).write (contents + 1) [highByte value]

/-- `EmberMacAddress`: the members of the union share eight bytes, and on the hosts of the library
the short address is made of the first two, the low one first. -/
structure MacAddress where
  addr : Mem
  mode : UInt8

/-- `addr.shortAddress` -/
def MacAddress.shortAddress (a : MacAddress) : UInt16 := emberFetchLowHighInt16u a.addr 0

/-- `addr.longAddress` -/
def MacAddress.longAddress (a : MacAddress) : List UInt8 := a.addr.read 0 eui64Size.toNat

/-- An assignment to `addr.shortAddress`. -/
def MacAddress.setShortAddress (value : UInt16) (a : MacAddress) : MacAddress :=
  { a with addr := emberStoreLowHighInt16u a.addr 0 value }

/-- Bytes moved to `addr.longAddress`. -/
def MacAddress.setLongAddress (bytes : List UInt8) (a : MacAddress) : MacAddress :=
  { a with addr := a.addr.write 0 bytes }

/-- `EmberMacFrame` -/
structure MacFrame where
  srcAddress : MacAddress
  dstAddress : MacAddress
  srcPanId : UInt16
  dstPanId : UInt16
  srcPanIdSpecified : Bool
  dstPanIdSpecified : Bool

/-- `EmberIncomingMessage`, with the members the OTA server does not read -/
structure IncomingMessage extends EmberIncomingMessage where
  rssi : Int8
  timestamp : UInt32
  lqi : UInt8

/-- `EmberOutgoingMessage`, with the members the OTA server does not read -/
structure OutgoingMessage extends EmberOutgoingMessage where
  ackRssi : Int8
  timestamp : UInt32

/-- `EmberIncomingMacMessage` -/
structure IncomingMacMessage where
  options : UInt8
  macFrame : MacFrame
  rssi : Int8
  lqi : UInt8
  frameCounter : UInt32
  length : UInt16
  payload : Mem
  timestamp : UInt32

/-- `EmberOutgoingMacMessage` -/
structure OutgoingMacMessage where
  options : UInt8
  macFrame : MacFrame
  tag : UInt8
  frameCounter : UInt32
  length : UInt16
  payload : Mem
  ackRssi : Int8
  timestamp : UInt32

/-- The parameters of `emberAfIncomingBeacon`. -/
structure Beacon where
  panId : UInt16
  source : MacAddress
  rssi : Int8
  permitJoining : Bool
  beaconFieldsLength : UInt8
  beaconFields : Mem
  beaconPayloadLength : UInt8
  beaconPayload : Mem

/-- The parameters of `emberAfEnergyScanComplete`. -/
structure EnergyScan where
  mean : Int8
  min : Int8
  max : Int8
  variance : UInt16

/-- A callback: what a handler calls the application and the framework with. -/
inductive Callback
  | stackStatus (status : UInt8)
  | childJoin (nodeType : UInt8) (nodeId : UInt16)
  | radioNeedsCalibrating
  | messageSent (status : UInt8) (message : OutgoingMessage)
  | incomingMessage (message : IncomingMessage)
  | incomingMacMessage (message : IncomingMacMessage)
  | macMessageSent (status : UInt8) (message : OutgoingMacMessage)
  | incomingBeacon (beacon : Beacon)
  | activeScanComplete
  | energyScanComplete (scan : EnergyScan)
  | frequencyHoppingStartClientComplete (status : UInt8)

/-- What the variables of the handlers hold before they are assigned: the stack, and for the two
arrays of a beacon the one before. -/
structure Locals where
  stackStatus : UInt8
  childJoin : UInt8 × UInt16
  messageSent : UInt8 × OutgoingMessage
  incomingMessage : IncomingMessage
  incomingMacMessage : IncomingMacMessage
  macMessageSent : UInt8 × OutgoingMacMessage
  incomingBeacon : Beacon
  energyScanComplete : EnergyScan
  frequencyHoppingStartClientComplete : UInt8

/-! ## Identifiers -/

def emberStackStatusHandlerIpcCommandId : UInt16 := stackCallbackId + 0x00
def emberChildJoinHandlerIpcCommandId : UInt16 := stackCallbackId + 0x01
def emberRadioNeedsCalibratingHandlerIpcCommandId : UInt16 := stackCallbackId + 0x30
def emberMessageSentHandlerIpcCommandId : UInt16 := stackCallbackId + 0x02
def emberIncomingMessageHandlerIpcCommandId : UInt16 := stackCallbackId + 0x03
def emberIncomingMacMessageHandlerIpcCommandId : UInt16 := stackCallbackId + 0x0B
def emberMacMessageSentHandlerIpcCommandId : UInt16 := stackCallbackId + 0x0C
def emberIncomingBeaconHandlerIpcCommandId : UInt16 := stackCallbackId + 0x39
def emberActiveScanCompleteHandlerIpcCommandId : UInt16 := stackCallbackId + 0x05
def emberEnergyScanCompleteHandlerIpcCommandId : UInt16 := stackCallbackId + 0x06
def emberFrequencyHoppingStartClientCompleteHandlerIpcCommandId : UInt16 := stackCallbackId + 0x0A

/-! ## Handlers -/

/-- The pointers to an address: `"vbu"`. -/
def macAddressPointers (modify : (MacAddress → MacAddress) → V → V) : List (Pointer V) :=
  [.uint16 fun x => modify (MacAddress.setShortAddress x),
    .buffer cspFetchArgIsUint8 (fun _ => id) eui64Size fun bytes =>
      modify (MacAddress.setLongAddress bytes),
    .uint8 fun x => modify fun a => { a with mode := x }]

/-- The pointers to the addressing fields of a frame: `"vbuvbuvvuu"`. -/
def macFramePointers (modify : (MacFrame → MacFrame) → V → V) : List (Pointer V) :=
  macAddressPointers (fun g => modify fun f => { f with srcAddress := g f.srcAddress }) ++
  macAddressPointers (fun g => modify fun f => { f with dstAddress := g f.dstAddress }) ++
  [.uint16 fun x => modify fun f => { f with srcPanId := x },
    .uint16 fun x => modify fun f => { f with dstPanId := x },
    .uint8 fun x => modify fun f => { f with srcPanIdSpecified := x != 0 },
    .uint8 fun x => modify fun f => { f with dstPanIdSpecified := x != 0 }]

/-- The size of the arrays `payload` of the handlers. -/
def maxCallbackPayloadLength : UInt16 := 2048

def stackStatusCommandHandler (long : Bool) (m : Mem) (callbackParams : ℕ) (status : UInt8) :
    Option Callback :=
  (fetchCallbackParams long m callbackParams [.uint8 fun x _ => x] status).map .stackStatus

def childJoinCommandHandler (long : Bool) (m : Mem) (callbackParams : ℕ) (vars : UInt8 × UInt16) :
    Option Callback :=
  (fetchCallbackParams long m callbackParams
    [.uint8 fun x s => (x, s.2), .uint16 fun x s => (s.1, x)] vars).map fun s =>
      .childJoin s.1 s.2

def radioNeedsCalibratingCommandHandler : Option Callback := some .radioNeedsCalibrating

def messageSentCommandHandler (long : Bool) (m : Mem) (callbackParams : ℕ)
    (vars : UInt8 × OutgoingMessage) : Option Callback :=
  (fetchCallbackParams long m callbackParams
    [.uint8 fun x s => (x, s.2),
      .uint8 fun x s => (s.1, { s.2 with options := x }),
      .uint16 fun x s => (s.1, { s.2 with destination := x }),
      .uint8 fun x s => (s.1, { s.2 with endpoint := x }),
      .uint8 fun x s => (s.1, { s.2 with tag := x }),
      .length fun x s => (s.1, { s.2 with length := x }),
      .buffer cspFetchArgIsUint16 (fun x s => (s.1, { s.2 with length := x }))
        maxCallbackPayloadLength fun bytes s =>
          (s.1, { s.2 with payload := s.2.payload.write 0 bytes }),
      .uint8 fun x s => (s.1, { s.2 with ackRssi := x.toInt8 }),
      .uint32 fun x s => (s.1, { s.2 with timestamp := x })] vars).map fun s =>
        .messageSent s.1 s.2

def incomingMessageCommandHandler (long : Bool) (m : Mem) (callbackParams : ℕ)
    (message : IncomingMessage) : Option Callback :=
  (fetchCallbackParams long m callbackParams
    [.uint8 fun x s => { s with options := x },
      .uint16 fun x s => { s with source := x },
      .uint8 fun x s => { s with endpoint := x },
      .uint8 fun x s => { s with rssi := x.toInt8 },
      .length fun x s => { s with length := x },
      .buffer cspFetchArgIsUint16 (fun x s => { s with length := x }) maxCallbackPayloadLength
        fun bytes s => { s with payload := s.payload.write 0 bytes },
      .uint32 fun x s => { s with timestamp := x },
      .uint8 fun x s => { s with lqi := x }] message).map .incomingMessage

def incomingMacMessageCommandHandler (long : Bool) (m : Mem) (callbackParams : ℕ)
    (message : IncomingMacMessage) : Option Callback :=
  (fetchCallbackParams long m callbackParams
    (.uint8 (fun x s => { s with options := x }) ::
      (macFramePointers (fun g s => { s with macFrame := g s.macFrame }) ++
      [.uint8 fun x s => { s with rssi := x.toInt8 },
        .uint8 fun x s => { s with lqi := x },
        .uint32 fun x s => { s with frameCounter := x },
        .length fun x s => { s with length := x },
        .buffer cspFetchArgIsUint16 (fun x s => { s with length := x }) maxCallbackPayloadLength
          fun bytes s => { s with payload := s.payload.write 0 bytes },
        .uint32 fun x s => { s with timestamp := x }])) message).map .incomingMacMessage

def macMessageSentCommandHandler (long : Bool) (m : Mem) (callbackParams : ℕ)
    (vars : UInt8 × OutgoingMacMessage) : Option Callback :=
  (fetchCallbackParams long m callbackParams
    (.uint8 (fun x s => (x, s.2)) :: .uint8 (fun x s => (s.1, { s.2 with options := x })) ::
      (macFramePointers (fun g s => (s.1, { s.2 with macFrame := g s.2.macFrame })) ++
      [.uint8 fun x s => (s.1, { s.2 with tag := x }),
        .uint32 fun x s => (s.1, { s.2 with frameCounter := x }),
        .length fun x s => (s.1, { s.2 with length := x }),
        .buffer cspFetchArgIsUint16 (fun x s => (s.1, { s.2 with length := x }))
          maxCallbackPayloadLength fun bytes s =>
            (s.1, { s.2 with payload := s.2.payload.write 0 bytes }),
        .uint8 fun x s => (s.1, { s.2 with ackRssi := x.toInt8 }),
        .uint32 fun x s => (s.1, { s.2 with timestamp := x })])) vars).map fun s =>
          .macMessageSent s.1 s.2

def incomingBeaconCommandHandler (long : Bool) (m : Mem) (callbackParams : ℕ) (beacon : Beacon) :
    Option Callback :=
  (fetchCallbackParams long m callbackParams
    (.uint16 (fun x s => { s with panId := x }) ::
      (macAddressPointers (fun g s => { s with source := g s.source }) ++
      [.uint8 fun x s => { s with rssi := x.toInt8 },
        .uint8 fun x s => { s with permitJoining := x != 0 },
        .uint8 fun x s => { s with beaconFieldsLength := x },
        .buffer cspFetchArgIsUint8 (fun x s => { s with beaconFieldsLength := x.toUInt8 })
          maxBeaconFieldsLength fun bytes s =>
            { s with beaconFields := s.beaconFields.write 0 bytes },
        .uint8 fun x s => { s with beaconPayloadLength := x },
        .buffer cspFetchArgIsUint8 (fun x s => { s with beaconPayloadLength := x.toUInt8 })
          maxBeaconPayloadLength fun bytes s =>
            { s with beaconPayload := s.beaconPayload.write 0 bytes }])) beacon).map .incomingBeacon

def activeScanCompleteCommandHandler : Option Callback := some .activeScanComplete

def energyScanCompleteCommandHandler (long : Bool) (m : Mem) (callbackParams : ℕ)
    (scan : EnergyScan) : Option Callback :=
  (fetchCallbackParams long m callbackParams
    [.uint8 fun x s => { s with mean := x.toInt8 },
      .uint8 fun x s => { s with min := x.toInt8 },
      .uint8 fun x s => { s with max := x.toInt8 },
      .uint16 fun x s => { s with variance := x }] scan).map .energyScanComplete

def frequencyHoppingStartClientCompleteCommandHandler (long : Bool) (m : Mem)
    (callbackParams : ℕ) (status : UInt8) : Option Callback :=
  (fetchCallbackParams long m callbackParams [.uint8 fun x _ => x] status).map
    .frequencyHoppingStartClientComplete

/-- `sli_connect_ncp_handle_indication`; `none` is `FATAL`. -/
def sliConnectNcpHandleIndication (long : Bool) (vars : Locals) (m : Mem) (commandId : UInt16)
    (callbackParams : ℕ) : Option Callback :=
  if commandId = emberStackStatusHandlerIpcCommandId then
    stackStatusCommandHandler long m callbackParams vars.stackStatus
  else if commandId = emberChildJoinHandlerIpcCommandId then
    childJoinCommandHandler long m callbackParams vars.childJoin
  else if commandId = emberRadioNeedsCalibratingHandlerIpcCommandId then
    radioNeedsCalibratingCommandHandler
  else if commandId = emberMessageSentHandlerIpcCommandId then
    messageSentCommandHandler long m callbackParams vars.messageSent
  else if commandId = emberIncomingMessageHandlerIpcCommandId then
    incomingMessageCommandHandler long m callbackParams vars.incomingMessage
  else if commandId = emberIncomingMacMessageHandlerIpcCommandId then
    incomingMacMessageCommandHandler long m callbackParams vars.incomingMacMessage
  else if commandId = emberMacMessageSentHandlerIpcCommandId then
    macMessageSentCommandHandler long m callbackParams vars.macMessageSent
  else if commandId = emberIncomingBeaconHandlerIpcCommandId then
    incomingBeaconCommandHandler long m callbackParams vars.incomingBeacon
  else if commandId = emberActiveScanCompleteHandlerIpcCommandId then
    activeScanCompleteCommandHandler
  else if commandId = emberEnergyScanCompleteHandlerIpcCommandId then
    energyScanCompleteCommandHandler long m callbackParams vars.energyScanComplete
  else if commandId = emberFrequencyHoppingStartClientCompleteHandlerIpcCommandId then
    frequencyHoppingStartClientCompleteCommandHandler long m callbackParams
      vars.frequencyHoppingStartClientComplete
  else none

/-! ## On the wire -/

/-- The bytes of a payload. -/
def payloadBytes (payload : Mem) (length : ℕ) : List UInt8 := payload.read 0 length

def MacAddress.items (a : MacAddress) : List Item :=
  [.uint16 a.shortAddress, .buffer a.longAddress, .uint8 a.mode]

def MacFrame.items (f : MacFrame) : List Item :=
  f.srcAddress.items ++ f.dstAddress.items ++
  [.uint16 f.srcPanId, .uint16 f.dstPanId, .uint8 f.srcPanIdSpecified.toUInt8,
    .uint8 f.dstPanIdSpecified.toUInt8]

/-- The identifier of a callback. -/
def Callback.commandId : Callback → UInt16
  | stackStatus _ => emberStackStatusHandlerIpcCommandId
  | childJoin _ _ => emberChildJoinHandlerIpcCommandId
  | radioNeedsCalibrating => emberRadioNeedsCalibratingHandlerIpcCommandId
  | messageSent _ _ => emberMessageSentHandlerIpcCommandId
  | incomingMessage _ => emberIncomingMessageHandlerIpcCommandId
  | incomingMacMessage _ => emberIncomingMacMessageHandlerIpcCommandId
  | macMessageSent _ _ => emberMacMessageSentHandlerIpcCommandId
  | incomingBeacon _ => emberIncomingBeaconHandlerIpcCommandId
  | activeScanComplete => emberActiveScanCompleteHandlerIpcCommandId
  | energyScanComplete _ => emberEnergyScanCompleteHandlerIpcCommandId
  | frequencyHoppingStartClientComplete _ =>
    emberFrequencyHoppingStartClientCompleteHandlerIpcCommandId

/-- What the stack puts on the wire for a callback, in the format of its handler. -/
def Callback.items : Callback → List Item
  | stackStatus status => [.uint8 status]
  | childJoin nodeType nodeId => [.uint8 nodeType, .uint16 nodeId]
  | radioNeedsCalibrating => []
  | messageSent status x =>
    [.uint8 status, .uint8 x.options, .uint16 x.destination, .uint8 x.endpoint, .uint8 x.tag,
      .length x.length, .buffer (payloadBytes x.payload x.length.toNat), .uint8 x.ackRssi.toUInt8,
      .uint32 x.timestamp]
  | incomingMessage x =>
    [.uint8 x.options, .uint16 x.source, .uint8 x.endpoint, .uint8 x.rssi.toUInt8,
      .length x.length, .buffer (payloadBytes x.payload x.length.toNat), .uint32 x.timestamp,
      .uint8 x.lqi]
  | incomingMacMessage x =>
    .uint8 x.options :: (x.macFrame.items ++
    [.uint8 x.rssi.toUInt8, .uint8 x.lqi, .uint32 x.frameCounter, .length x.length,
      .buffer (payloadBytes x.payload x.length.toNat), .uint32 x.timestamp])
  | macMessageSent status x =>
    .uint8 status :: .uint8 x.options :: (x.macFrame.items ++
    [.uint8 x.tag, .uint32 x.frameCounter, .length x.length,
      .buffer (payloadBytes x.payload x.length.toNat), .uint8 x.ackRssi.toUInt8,
      .uint32 x.timestamp])
  | incomingBeacon x =>
    .uint16 x.panId :: (x.source.items ++
    [.uint8 x.rssi.toUInt8, .uint8 x.permitJoining.toUInt8, .uint8 x.beaconFieldsLength,
      .buffer (payloadBytes x.beaconFields x.beaconFieldsLength.toNat),
      .uint8 x.beaconPayloadLength,
      .buffer (payloadBytes x.beaconPayload x.beaconPayloadLength.toNat)])
  | activeScanComplete => []
  | energyScanComplete x =>
    [.uint8 x.mean.toUInt8, .uint8 x.min.toUInt8, .uint8 x.max.toUInt8, .uint16 x.variance]
  | frequencyHoppingStartClientComplete status => [.uint8 status]

/-- The bytes of a callback behind its identifier. -/
def Callback.params (long : Bool) (c : Callback) : List UInt8 := wire long c.items

/-- The frame of a callback. -/
def Callback.frame (long : Bool) (c : Callback) : List UInt8 :=
  highLowBytes16 c.commandId ++ c.params long

/-- The lengths of a callback fit the prefixes of the mode. -/
def Callback.Fits (long : Bool) (c : Callback) : Prop := ∀ f ∈ c.items, f.Fits long

/-! ## What is received -/

/-- The address, in the union of a local variable. -/
def MacAddress.received (old : MacAddress) (a : MacAddress) : MacAddress :=
  ⟨old.addr.write 0 a.longAddress, a.mode⟩

def MacFrame.received (old : MacFrame) (f : MacFrame) : MacFrame :=
  { f with
    srcAddress := old.srcAddress.received f.srcAddress
    dstAddress := old.dstAddress.received f.dstAddress }

/-- As much of a payload as the array takes. -/
def receivedPayload (old payload : Mem) (length available : ℕ) : Mem :=
  old.write 0 (payloadBytes payload (min length available))

/-- The length that is stored for it. -/
def receivedLength (length available : ℕ) : UInt16 := (min length available).toUInt16

/-- The callback the application and the framework are called with. -/
def Callback.received (vars : Locals) : Callback → Callback
  | messageSent status x =>
    messageSent status { x with
      length := receivedLength x.length.toNat maxCallbackPayloadLength.toNat
      payload := receivedPayload vars.messageSent.2.payload x.payload x.length.toNat
        maxCallbackPayloadLength.toNat }
  | incomingMessage x =>
    incomingMessage { x with
      length := receivedLength x.length.toNat maxCallbackPayloadLength.toNat
      payload := receivedPayload vars.incomingMessage.payload x.payload x.length.toNat
        maxCallbackPayloadLength.toNat }
  | incomingMacMessage x =>
    incomingMacMessage { x with
      macFrame := vars.incomingMacMessage.macFrame.received x.macFrame
      length := receivedLength x.length.toNat maxCallbackPayloadLength.toNat
      payload := receivedPayload vars.incomingMacMessage.payload x.payload x.length.toNat
        maxCallbackPayloadLength.toNat }
  | macMessageSent status x =>
    macMessageSent status { x with
      macFrame := vars.macMessageSent.2.macFrame.received x.macFrame
      length := receivedLength x.length.toNat maxCallbackPayloadLength.toNat
      payload := receivedPayload vars.macMessageSent.2.payload x.payload x.length.toNat
        maxCallbackPayloadLength.toNat }
  | incomingBeacon x =>
    incomingBeacon { x with
      source := vars.incomingBeacon.source.received x.source
      beaconFieldsLength :=
        (receivedLength x.beaconFieldsLength.toNat maxBeaconFieldsLength.toNat).toUInt8
      beaconFields := receivedPayload vars.incomingBeacon.beaconFields x.beaconFields
        x.beaconFieldsLength.toNat maxBeaconFieldsLength.toNat
      beaconPayloadLength :=
        (receivedLength x.beaconPayloadLength.toNat maxBeaconPayloadLength.toNat).toUInt8
      beaconPayload := receivedPayload vars.incomingBeacon.beaconPayload x.beaconPayload
        x.beaconPayloadLength.toNat maxBeaconPayloadLength.toNat }
  | c => c

/-! ## The handlers decode what the stack has encoded -/

/-- A write over a shorter one. -/
theorem write_write_of_length_le (m : Mem) (a : ℕ) {xs ys : List UInt8}
    (h : xs.length ≤ ys.length) : (m.write a xs).write a ys = m.write a ys := by
  funext i
  rcases Nat.lt_or_ge i a with hi | hi
  · rw [Memory.write_of_lt _ _ hi, Memory.write_of_lt _ _ hi, Memory.write_of_lt _ _ hi]
  · obtain ⟨j, rfl⟩ := Nat.exists_eq_add_of_le hi
    rcases Nat.lt_or_ge j ys.length with hj | hj
    · rw [Memory.write_add _ _ _ hj, Memory.write_add _ _ _ hj]
    · rw [Memory.write_of_ge _ _ (by omega), Memory.write_of_ge _ _ (by omega),
        Memory.write_of_ge _ _ (by omega)]

/-- **What is read behind the short address overwrites it**: the members share their bytes. -/
theorem setLongAddress_setShortAddress (a : MacAddress) (value : UInt16) {bytes : List UInt8}
    (h : 2 ≤ bytes.length) :
    (a.setShortAddress value).setLongAddress bytes = a.setLongAddress bytes := by
  have hstore : emberStoreLowHighInt16u a.addr 0 value =
      a.addr.write 0 [lowByte value, highByte value] :=
    a.addr.write_append 0 [lowByte value] [highByte value]
  simp only [MacAddress.setLongAddress, MacAddress.setShortAddress, hstore]
  rw [write_write_of_length_le _ _ (by simpa using h)]

@[simp] theorem length_longAddress (a : MacAddress) : a.longAddress.length = 8 :=
  Memory.length_read _ _ _

@[simp] theorem length_payloadBytes (payload : Mem) (n : ℕ) : (payloadBytes payload n).length = n :=
  Memory.length_read _ _ _

theorem take_payloadBytes (payload : Mem) (n k : ℕ) :
    (payloadBytes payload n).take (min n k) = payloadBytes payload (min n k) :=
  Memory.take_read payload 0 n _ (Nat.min_le_left n k)

@[simp] theorem toUInt8_ne_zero (b : Bool) : (b.toUInt8 != 0) = b := by
  cases b <;> rfl

/-- What is stored of a payload. -/
theorem stored_payload (payload : Mem) (n : ℕ) (isUint8 : UInt32) (available : UInt16) :
    stored (.buffer (payloadBytes payload n)) (.buffer false isUint8 available) =
      .buffer (receivedLength n available.toNat)
        (some (payloadBytes payload (min n available.toNat))) := by
  rw [stored, length_payloadBytes, take_payloadBytes]
  rfl

/-- What is stored of a long address. -/
theorem stored_longAddress (a : MacAddress) (isUint8 : UInt32) :
    stored (.buffer a.longAddress) (.buffer false isUint8 eui64Size) =
      .buffer 8 (some a.longAddress) := by
  have h8 : eui64Size.toNat = 8 := rfl
  have htake : a.longAddress.take 8 = a.longAddress :=
    List.take_of_length_le (by rw [length_longAddress])
  rw [stored, length_longAddress, h8, Nat.min_self, htake]
  rfl

theorem fills_macAddress (modify : (MacAddress → MacAddress) → V → V) (a : MacAddress) :
    List.Forall₂ (fun f x => Fills f x.param) a.items (macAddressPointers modify) := by
  refine .cons (.uint16 _) (.cons (.buffer fun _ => ?_) (.cons (.uint8 _) .nil))
  rw [length_longAddress]
  decide

theorem fills_macFrame (modify : (MacFrame → MacFrame) → V → V) (f : MacFrame) :
    List.Forall₂ (fun f x => Fills f x.param) f.items (macFramePointers modify) :=
  List.rel_append (List.rel_append (fills_macAddress _ f.srcAddress)
    (fills_macAddress _ f.dstAddress))
    (.cons (.uint16 _) (.cons (.uint16 _) (.cons (.uint8 _) (.cons (.uint8 _) .nil))))

/-- What the three pointers to an address leave in it. -/
theorem assigned_macAddress (modify : (MacAddress → MacAddress) → V → V)
    (hmodify : ∀ g h v, modify g (modify h v) = modify (fun a => g (h a)) v) (a : MacAddress)
    (v : V) :
    assigned (macAddressPointers modify) a.items v = modify (fun old => old.received a) v := by
  have hlong : 2 ≤ a.longAddress.length := by rw [length_longAddress]; decide
  simp only [macAddressPointers, MacAddress.items, assigned_cons, assigned_nil, Pointer.uint16,
    Pointer.buffer, Pointer.uint8, destOf, stored_longAddress, id]
  simp only [stored, unlessNull, Bool.false_eq_true, if_false, hmodify,
    setLongAddress_setShortAddress _ _ hlong]
  rfl

/-- What the pointers to the addressing fields leave in them. -/
theorem assigned_macFrame {modify : (MacFrame → MacFrame) → V → V}
    (hmodify : ∀ g h v, modify g (modify h v) = modify (fun a => g (h a)) v) (f : MacFrame)
    (v : V) :
    assigned (macFramePointers modify) f.items v = modify (fun old => old.received f) v := by
  have hsrc := assigned_macAddress
    (fun g => modify fun f => { f with srcAddress := g f.srcAddress })
    (fun g h v => hmodify _ _ v) f.srcAddress v
  have hdst := assigned_macAddress
    (fun g => modify fun f => { f with dstAddress := g f.dstAddress })
    (fun g h v => hmodify _ _ v) f.dstAddress
  rw [macFramePointers, MacFrame.items, assigned_append _ _ _ (List.rel_append
    (fills_macAddress _ f.srcAddress) (fills_macAddress _ f.dstAddress)),
    assigned_append _ _ _ (fills_macAddress _ f.srcAddress), hsrc, hdst]
  simp only [assigned_cons, assigned_nil, Pointer.uint16, Pointer.uint8, destOf, stored, unlessNull,
    Bool.false_eq_true, if_false, toUInt8_ne_zero, hmodify]
  rfl

/-! ### One handler after the other -/

variable (vars : Locals)

theorem handled_messageSent {status : UInt8} {x : OutgoingMessage}
    (hfit : (Callback.messageSent status x).Fits long)
    (h : m.read p ((Callback.messageSent status x).params long).length =
      (Callback.messageSent status x).params long) :
    messageSentCommandHandler long m p vars.messageSent =
      some ((Callback.messageSent status x).received vars) := by
  rw [messageSentCommandHandler, fetchCallbackParams_eq vars.messageSent hfit ?_ h]
  · simp only [Callback.items, assigned_cons, assigned_nil, Pointer.uint8, Pointer.uint16,
      Pointer.length, Pointer.uint32, Pointer.buffer, destOf, stored_payload]
    rfl
  · exact .cons (.uint8 _) (.cons (.uint8 _) (.cons (.uint16 _) (.cons (.uint8 _) (.cons (.uint8 _)
      (.cons (.length _) (.cons (.buffer fun h => absurd rfl h) (.cons (.uint8 _)
      (.cons (.uint32 _) .nil))))))))

theorem handled_incomingMessage {x : IncomingMessage}
    (hfit : (Callback.incomingMessage x).Fits long)
    (h : m.read p ((Callback.incomingMessage x).params long).length =
      (Callback.incomingMessage x).params long) :
    incomingMessageCommandHandler long m p vars.incomingMessage =
      some ((Callback.incomingMessage x).received vars) := by
  rw [incomingMessageCommandHandler, fetchCallbackParams_eq vars.incomingMessage hfit ?_ h]
  · simp only [Callback.items, assigned_cons, assigned_nil, Pointer.uint8, Pointer.uint16,
      Pointer.length, Pointer.uint32, Pointer.buffer, destOf, stored_payload]
    rfl
  · exact .cons (.uint8 _) (.cons (.uint16 _) (.cons (.uint8 _) (.cons (.uint8 _)
      (.cons (.length _) (.cons (.buffer fun h => absurd rfl h) (.cons (.uint32 _)
      (.cons (.uint8 _) .nil)))))))

theorem handled_incomingMacMessage {x : IncomingMacMessage}
    (hfit : (Callback.incomingMacMessage x).Fits long)
    (h : m.read p ((Callback.incomingMacMessage x).params long).length =
      (Callback.incomingMacMessage x).params long) :
    incomingMacMessageCommandHandler long m p vars.incomingMacMessage =
      some ((Callback.incomingMacMessage x).received vars) := by
  rw [incomingMacMessageCommandHandler, fetchCallbackParams_eq vars.incomingMacMessage hfit ?_ h]
  · rw [Callback.items, assigned_cons, assigned_append _ _ _ (fills_macFrame _ x.macFrame),
      assigned_macFrame (fun _ _ _ => rfl)]
    simp only [assigned_cons, assigned_nil, Pointer.uint8, Pointer.length, Pointer.uint32,
      Pointer.buffer, destOf, stored_payload]
    rfl
  · exact .cons (.uint8 _) (List.rel_append (fills_macFrame _ x.macFrame) (.cons (.uint8 _)
      (.cons (.uint8 _) (.cons (.uint32 _) (.cons (.length _)
      (.cons (.buffer fun h => absurd rfl h) (.cons (.uint32 _) .nil)))))))

theorem handled_macMessageSent {status : UInt8} {x : OutgoingMacMessage}
    (hfit : (Callback.macMessageSent status x).Fits long)
    (h : m.read p ((Callback.macMessageSent status x).params long).length =
      (Callback.macMessageSent status x).params long) :
    macMessageSentCommandHandler long m p vars.macMessageSent =
      some ((Callback.macMessageSent status x).received vars) := by
  rw [macMessageSentCommandHandler, fetchCallbackParams_eq vars.macMessageSent hfit ?_ h]
  · rw [Callback.items, assigned_cons, assigned_cons,
      assigned_append _ _ _ (fills_macFrame _ x.macFrame), assigned_macFrame (fun _ _ _ => rfl)]
    simp only [assigned_cons, assigned_nil, Pointer.uint8, Pointer.length, Pointer.uint32,
      Pointer.buffer, destOf, stored_payload]
    rfl
  · exact .cons (.uint8 _) (.cons (.uint8 _) (List.rel_append (fills_macFrame _ x.macFrame)
      (.cons (.uint8 _) (.cons (.uint32 _) (.cons (.length _)
      (.cons (.buffer fun h => absurd rfl h) (.cons (.uint8 _) (.cons (.uint32 _) .nil))))))))

/-- A length of up to 255 bytes. -/
theorem length_payloadBytes_le (payload : Mem) (n : UInt8) :
    (payloadBytes payload n.toNat).length ≤ 255 := by
  have := n.toNat_lt
  rw [length_payloadBytes]
  omega

theorem handled_incomingBeacon {x : Beacon}
    (hfit : (Callback.incomingBeacon x).Fits long)
    (h : m.read p ((Callback.incomingBeacon x).params long).length =
      (Callback.incomingBeacon x).params long) :
    incomingBeaconCommandHandler long m p vars.incomingBeacon =
      some ((Callback.incomingBeacon x).received vars) := by
  rw [incomingBeaconCommandHandler, fetchCallbackParams_eq vars.incomingBeacon hfit ?_ h]
  · rw [Callback.items, assigned_cons, assigned_append _ _ _ (fills_macAddress _ x.source),
      assigned_macAddress _ (fun _ _ _ => rfl)]
    simp only [assigned_cons, assigned_nil, Pointer.uint8, Pointer.uint16, Pointer.buffer, destOf,
      stored_payload]
    simp only [stored, unlessNull, toUInt8_ne_zero, Bool.false_eq_true, if_false]
    rfl
  · exact .cons (.uint16 _) (List.rel_append (fills_macAddress _ x.source)
      (.cons (.uint8 _) (.cons (.uint8 _) (.cons (.uint8 _)
      (.cons (.buffer fun _ => length_payloadBytes_le _ _) (.cons (.uint8 _)
      (.cons (.buffer fun _ => length_payloadBytes_le _ _) .nil)))))))

/-- **The dispatcher decodes the frame of every callback**, in both modes, wherever it stands and
whatever stands behind it. -/
theorem handleIndication_eq {c : Callback} (hfit : c.Fits long)
    (h : m.read p (c.params long).length = c.params long) :
    sliConnectNcpHandleIndication long vars m c.commandId p = some (c.received vars) := by
  cases c with
  | radioNeedsCalibrating => rfl
  | activeScanComplete => rfl
  | messageSent status x => exact handled_messageSent vars hfit h
  | incomingMessage x => exact handled_incomingMessage vars hfit h
  | incomingMacMessage x => exact handled_incomingMacMessage vars hfit h
  | macMessageSent status x => exact handled_macMessageSent vars hfit h
  | incomingBeacon x => exact handled_incomingBeacon vars hfit h
  | stackStatus status =>
    show stackStatusCommandHandler long m p vars.stackStatus = _
    rw [stackStatusCommandHandler, fetchCallbackParams_eq _ hfit (.cons (.uint8 _) .nil) h]
    rfl
  | childJoin nodeType nodeId =>
    show childJoinCommandHandler long m p vars.childJoin = _
    rw [childJoinCommandHandler,
      fetchCallbackParams_eq _ hfit (.cons (.uint8 _) (.cons (.uint16 _) .nil)) h]
    rfl
  | energyScanComplete x =>
    show energyScanCompleteCommandHandler long m p vars.energyScanComplete = _
    rw [energyScanCompleteCommandHandler, fetchCallbackParams_eq _ hfit
      (.cons (.uint8 _) (.cons (.uint8 _) (.cons (.uint8 _) (.cons (.uint16 _) .nil)))) h]
    rfl
  | frequencyHoppingStartClientComplete status =>
    show frequencyHoppingStartClientCompleteCommandHandler long m p
      vars.frequencyHoppingStartClientComplete = _
    rw [frequencyHoppingStartClientCompleteCommandHandler,
      fetchCallbackParams_eq _ hfit (.cons (.uint8 _) .nil) h]
    rfl

/-! ## Round trip -/

def MacAddress.arguments (a : MacAddress) : List Arg :=
  [.uint16 a.shortAddress, .buffer (some a.addr) eui64Size, .uint8 a.mode]

def MacFrame.arguments (f : MacFrame) : List Arg :=
  f.srcAddress.arguments ++ f.dstAddress.arguments ++
  [.uint16 f.srcPanId, .uint16 f.dstPanId, .uint8 f.srcPanIdSpecified.toUInt8,
    .uint8 f.dstPanIdSpecified.toUInt8]

/-! ### Sizes -/

theorem lengthWidth_le (long : Bool) : lengthWidth long ≤ 2 := by
  cases long <;> decide

theorem size_macAddress (long : Bool) (a : MacAddress) :
    (a.arguments.map (fieldSize long)).sum = lengthWidth long + 11 := by
  have h8 : eui64Size.toNat = 8 := rfl
  simp only [MacAddress.arguments, List.map_cons, List.map_nil, List.sum_cons, List.sum_nil,
    fieldSize, h8]
  omega

theorem size_macFrame (long : Bool) (f : MacFrame) :
    (f.arguments.map (fieldSize long)).sum = 2 * lengthWidth long + 28 := by
  simp only [MacFrame.arguments, List.map_append, List.sum_append, size_macAddress, List.map_cons,
    List.map_nil, List.sum_cons, List.sum_nil, fieldSize]
  omega

/-! ### The encoder -/

/-- The arguments with which the encoder writes a callback. -/
def Callback.arguments : Callback → List Arg
  | stackStatus status => [.uint8 status]
  | childJoin nodeType nodeId => [.uint8 nodeType, .uint16 nodeId]
  | radioNeedsCalibrating => []
  | messageSent status x =>
    [.uint8 status, .uint8 x.options, .uint16 x.destination, .uint8 x.endpoint, .uint8 x.tag,
      .length x.length, .buffer (some x.payload) x.length, .uint8 x.ackRssi.toUInt8,
      .uint32 x.timestamp]
  | incomingMessage x =>
    [.uint8 x.options, .uint16 x.source, .uint8 x.endpoint, .uint8 x.rssi.toUInt8,
      .length x.length, .buffer (some x.payload) x.length, .uint32 x.timestamp, .uint8 x.lqi]
  | incomingMacMessage x =>
    .uint8 x.options :: (x.macFrame.arguments ++
    [.uint8 x.rssi.toUInt8, .uint8 x.lqi, .uint32 x.frameCounter, .length x.length,
      .buffer (some x.payload) x.length, .uint32 x.timestamp])
  | macMessageSent status x =>
    .uint8 status :: .uint8 x.options :: (x.macFrame.arguments ++
    [.uint8 x.tag, .uint32 x.frameCounter, .length x.length, .buffer (some x.payload) x.length,
      .uint8 x.ackRssi.toUInt8, .uint32 x.timestamp])
  | incomingBeacon x =>
    .uint16 x.panId :: (x.source.arguments ++
    [.uint8 x.rssi.toUInt8, .uint8 x.permitJoining.toUInt8, .uint8 x.beaconFieldsLength,
      .buffer (some x.beaconFields) x.beaconFieldsLength.toUInt16,
      .uint8 x.beaconPayloadLength,
      .buffer (some x.beaconPayload) x.beaconPayloadLength.toUInt16])
  | activeScanComplete => []
  | energyScanComplete x =>
    [.uint8 x.mean.toUInt8, .uint8 x.min.toUInt8, .uint8 x.max.toUInt8, .uint16 x.variance]
  | frequencyHoppingStartClientComplete status => [.uint8 status]

theorem item_payload (payload : Mem) (n : UInt16) :
    (Arg.buffer (some payload) n).item = .buffer (payloadBytes payload n.toNat) := rfl

theorem items_arguments (c : Callback) : c.arguments.map Arg.item = c.items := by
  cases c with
  | incomingBeacon x =>
    have hfields : x.beaconFieldsLength.toUInt16.toNat = x.beaconFieldsLength.toNat := rfl
    have hpayload : x.beaconPayloadLength.toUInt16.toNat = x.beaconPayloadLength.toNat := rfl
    simp only [Callback.arguments, Callback.items, List.map_cons, List.map_append, item_payload,
      hfields, hpayload]
    rfl
  | _ => rfl

/-- The arrays of the handlers take what the callback carries. -/
def Callback.Within : Callback → Prop
  | messageSent _ x => x.length.toNat ≤ maxCallbackPayloadLength.toNat
  | incomingMessage x => x.length.toNat ≤ maxCallbackPayloadLength.toNat
  | incomingMacMessage x => x.length.toNat ≤ maxCallbackPayloadLength.toNat
  | macMessageSent _ x => x.length.toNat ≤ maxCallbackPayloadLength.toNat
  | incomingBeacon x => x.beaconFieldsLength.toNat ≤ maxBeaconFieldsLength.toNat ∧
    x.beaconPayloadLength.toNat ≤ maxBeaconPayloadLength.toNat
  | _ => True

theorem receivedPayload_apply (old payload : Mem) (n available i : ℕ) :
    receivedPayload old payload n available i =
      if i < min n available then payload i else old i := by
  have hlength : (payloadBytes payload (min n available)).length = min n available :=
    length_payloadBytes _ _
  unfold receivedPayload
  split_ifs with h
  · have hi : i < (payloadBytes payload (min n available)).length := by rw [hlength]; exact h
    have hwrite := Memory.write_add old 0 _ hi
    rw [Nat.zero_add] at hwrite
    rw [hwrite]
    simp [payloadBytes, Memory.getElem_read]
  · exact Memory.write_of_ge old _ (by omega)

/-- A payload is read back from the array of the handler. -/
theorem payloadBytes_received (old payload : Mem) {n available : ℕ} (h : n ≤ available) :
    payloadBytes (receivedPayload old payload n available) n = payloadBytes payload n := by
  have hsame := Memory.read_write_same old 0 (payloadBytes payload n)
  rw [length_payloadBytes] at hsame
  rw [receivedPayload, Nat.min_eq_left h]
  exact hsame

theorem receivedLength_eq {n : UInt16} {available : ℕ} (h : n.toNat ≤ available) :
    receivedLength n.toNat available = n := by
  rw [receivedLength, Nat.min_eq_left h]
  exact UInt16.ofNat_toNat

theorem receivedLength_toUInt8_eq {n : UInt8} {available : ℕ} (h : n.toNat ≤ available) :
    (receivedLength n.toNat available).toUInt8 = n := by
  rw [receivedLength, Nat.min_eq_left h]
  simp

/-- **Both views of an address survive**: the short address is made of the same bytes. -/
theorem items_receivedAddress (old a : MacAddress) : (old.received a).items = a.items := by
  have hlong : (old.received a).longAddress = a.longAddress := by
    have hsame := Memory.read_write_same old.addr 0 a.longAddress
    rw [length_longAddress] at hsame
    exact hsame
  have hbyte : ∀ i, i < 8 → (old.received a).addr i = a.addr i := by
    intro i hi
    have h := congrArg (fun bytes => bytes[i]?) hlong
    simpa [MacAddress.longAddress, Memory.read, eui64Size, hi] using h
  have hshort : (old.received a).shortAddress = a.shortAddress := by
    unfold MacAddress.shortAddress emberFetchLowHighInt16u
    rw [hbyte 0 (by decide), hbyte (0 + 1) (by decide)]
  rw [MacAddress.items, hlong, hshort]
  rfl

theorem items_receivedFrame (old f : MacFrame) : (old.received f).items = f.items := by
  have hsrc := items_receivedAddress old.srcAddress f.srcAddress
  have hdst := items_receivedAddress old.dstAddress f.dstAddress
  unfold MacFrame.items
  rw [show (old.received f).srcAddress = old.srcAddress.received f.srcAddress from rfl,
    show (old.received f).dstAddress = old.dstAddress.received f.dstAddress from rfl, hsrc, hdst]
  rfl

/-- **What is received shows every value that was sent**, where the arrays take it. -/
theorem items_received (vars : Locals) {c : Callback} (h : c.Within) :
    (c.received vars).items = c.items := by
  cases c with
  | messageSent status x =>
    simp only [Callback.received, Callback.items, receivedLength_eq h, payloadBytes_received _ _ h]
  | incomingMessage x =>
    simp only [Callback.received, Callback.items, receivedLength_eq h, payloadBytes_received _ _ h]
  | incomingMacMessage x =>
    simp only [Callback.received, Callback.items, receivedLength_eq h, payloadBytes_received _ _ h,
      items_receivedFrame]
  | macMessageSent status x =>
    simp only [Callback.received, Callback.items, receivedLength_eq h, payloadBytes_received _ _ h,
      items_receivedFrame]
  | incomingBeacon x =>
    simp only [Callback.received, Callback.items, receivedLength_toUInt8_eq h.1,
      receivedLength_toUInt8_eq h.2, payloadBytes_received _ _ h.1, payloadBytes_received _ _ h.2,
      items_receivedAddress]
  | _ => rfl

theorem commandId_received (vars : Locals) (c : Callback) :
    (c.received vars).commandId = c.commandId := by
  cases c <;> rfl

end ConnectNcpHost.Csp.Callbacks
