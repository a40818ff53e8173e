import ConnectNcpHost.Csp.Callbacks
import ConnectNcpHost.Csp.LengthPrefixes

/-! # The commands of the API (`csp-command-app.c`)

Every function of the API is the same sequence: its identifier and its arguments are encoded into
`apiCommandData`, the command is sent, and the parameters of the answer are fetched. An `ApiCall` is
one of these functions with the arguments it is called with; the functions differ in the identifier
(`csp-api-enum-gen.h`), in the arguments of `formatResponseCommand` and in the pointers they pass to
`fetchApiParams`, of which there are thirteen kinds (`Reply`).

* `read_of_encode`: every call is encoded as a whole, and read back.
* `call_of_frame_eq`: the frame tells the call; no two of the functions share an identifier.
* `items_assigned`: what the NCP has put into an answer is what the caller finds. -/

namespace ConnectNcpHost.Csp.ApiCommands

open ConnectNcpHost.Lib.Bytes ConnectNcpHost.Stack.ByteUtilities
open ConnectNcpHost.Csp.Format ConnectNcpHost.Csp.Codec ConnectNcpHost.Csp.RoundTrip
open ConnectNcpHost.Csp.LengthPrefixes ConnectNcpHost.Csp.FrameBounds
open ConnectNcpHost.Csp.EncodedSize ConnectNcpHost.Csp.Variables ConnectNcpHost.Csp.Callbacks
open ConnectNcpHost.HostCommon.CpcHost

variable {long : Bool}

/-! ## The functions -/

/-- `EmberNetworkParameters` -/
structure EmberNetworkParameters where
  panId : UInt16
  radioTxPower : Int16
  radioChannel : UInt16

def emberEncryptionKeySize : UInt16 := 16

/-- A call of a function of the API. A pointer that the encoder tests may be null; the output
parameters are not among the arguments. -/
inductive ApiCall
  | emberNetworkState
  | emberStackIsUp
  | emberSetSecurityKey (key : Option Mem)
  | emberGetSecurityKey (key : Mem)
  | emberSetPsaSecurityKey (keyId : UInt32)
  | emberRemovePsaSecurityKey
  | emberSetNcpSecurityKeyPersistent (key : Option Mem) (keyLength : UInt8) (keyId : UInt32)
  | emberSetNcpSecurityKey (key : Option Mem) (keyLength : UInt8)
  | emberGetKeyId
  | emberGetCounter (counterType : UInt8)
  | emberSetRadioChannelExtended (channel : UInt16) (persistent : Bool)
  | emberSetRadioChannel (channel : UInt16)
  | emberGetRadioChannel
  | emberSetRadioPower (power : Int16) (persistent : Bool)
  | emberGetRadioPower
  | emberSetRadioPowerMode (radioOn : Bool)
  | emberSetUnencryptedPacketsAcceptance (accept : Bool)
  | emberSetMacParams (ccaThreshold : Int8) (maxCcaAttempts minBackoffExp maxBackoffExp : UInt8)
      (ccaBackoff ccaDuration : UInt16) (maxRetries : UInt8) (csmaTimeout : UInt32)
      (ackTimeout : UInt16)
  | emberCurrentStackTasks
  | emberOkToNap
  | emberOkToHibernate
  | emberGetEui64
  | emberMacGetParentAddress (parentAddress : MacAddress)
  | emberIsLocalEui64 (eui64 : Option Mem)
  | emberGetNodeId
  | emberGetPanId
  | emberGetParentId
  | emberGetNodeType
  | emberCalibrateCurrentChannelExtended (calValueIn : UInt32)
  | emberApplyIrCalibration (calValue : UInt32)
  | emberTempCalibration
  | emberGetCalType
  | emberGetMaximumPayloadLength (srcAddressMode dstAddressMode : UInt8) (interpan secured : Bool)
  | emberSetIndirectQueueTimeout (timeoutMs : UInt32)
  | emberGetVersionInfo
  | emberOfdmSetMcs (mcs : UInt8)
  | emberOfdmGetMcs
  | emberNcpSetLongMessagesUse (useLongMessages : Bool)
  | emberUsingLongMessages
  | emberMessageSend (destination : UInt16) (endpoint messageTag : UInt8) (messageLength : UInt16)
      (message : Option Mem) (options : UInt8)
  | emberPollForData
  | emberMacMessageSend (macFrame : MacFrame) (messageTag : UInt8) (messageLength : UInt16)
      (message : Option Mem) (options : UInt8)
  | emberMacSetPanCoordinator (isCoordinator : Bool)
  | emberSetPollDestinationAddress (destination : MacAddress)
  | emberRemoveChild (address : MacAddress)
  | emberGetChildFlags (address : MacAddress)
  | emberGetChildInfo (address : MacAddress)
  | emberPurgeIndirectMessages
  | emberMacAddShortToLongAddressMapping (shortId : UInt16) (longId : Option Mem)
  | emberMacClearShortToLongAddressMappings
  | emberNetworkLeave
  | emberNetworkInit
  | emberStartActiveScan (channel : UInt16)
  | emberStartEnergyScan (channel : UInt16) (samples : UInt8)
  | emberSetApplicationBeaconPayload (payloadLength : UInt8) (payload : Option Mem)
  | emberSetSelectiveJoinPayload (payloadLength : UInt8) (payload : Option Mem)
  | emberClearSelectiveJoinPayload
  | emberFormNetwork (parameters : EmberNetworkParameters)
  | emberJoinNetworkExtended (nodeType : UInt8) (nodeId : UInt16)
      (parameters : EmberNetworkParameters)
  | emberJoinNetwork (nodeType : UInt8) (parameters : EmberNetworkParameters)
  | emberMacFormNetwork (parameters : EmberNetworkParameters)
  | emberPermitJoining (duration : UInt8)
  | emberJoinCommissioned (nodeType : UInt8) (nodeId : UInt16) (parameters : EmberNetworkParameters)
  | emberResetNetworkState
  | emberFrequencyHoppingSetChannelMask (channelMaskLength : UInt8) (channelMask : Option Mem)
  | emberFrequencyHoppingStartServer
  | emberFrequencyHoppingStartClient (serverNodeId serverPanId : UInt16)
  | emberFrequencyHoppingStop
  | emberSetAuxiliaryAddressFilteringEntry (nodeId : UInt16) (entryIndex : UInt8)
  | emberGetAuxiliaryAddressFilteringEntry (entryIndex : UInt8)
  | emberStartTxStream (parameters : UInt8) (channel : UInt16)
  | emberStopTxStream
  | emberSetActiveScanDuration (durationMs : UInt16)
  | emberGetActiveScanDuration
  | emberGetDefaultChannel

namespace ApiCall

/-- The identifier of the command: for `emberNetworkState` it is
`EMBER_NETWORK_STATE_IPC_COMMAND_ID`, and so on. -/
def commandId : ApiCall → UInt16
  | emberNetworkState => vncpCmdId + 0x02
  | emberStackIsUp => vncpCmdId + 0x03
  | emberSetSecurityKey .. => vncpCmdId + 0x04
  | emberGetSecurityKey .. => vncpCmdId + 0x4F
  | emberSetPsaSecurityKey .. => vncpCmdId + 0x4C
  | emberRemovePsaSecurityKey => vncpCmdId + 0x4D
  | emberSetNcpSecurityKeyPersistent .. => vncpCmdId + 0x52
  | emberSetNcpSecurityKey .. => vncpCmdId + 0x4E
  | emberGetKeyId => vncpCmdId + 0x50
  | emberGetCounter .. => vncpCmdId + 0x05
  | emberSetRadioChannelExtended .. => vncpCmdId + 0x4B
  | emberSetRadioChannel .. => vncpCmdId + 0x06
  | emberGetRadioChannel => vncpCmdId + 0x07
  | emberSetRadioPower .. => vncpCmdId + 0x08
  | emberGetRadioPower => vncpCmdId + 0x09
  | emberSetRadioPowerMode .. => vncpCmdId + 0x0A
  | emberSetUnencryptedPacketsAcceptance .. => vncpCmdId + 0x58
  | emberSetMacParams .. => vncpCmdId + 0x0B
  | emberCurrentStackTasks => vncpCmdId + 0x0C
  | emberOkToNap => vncpCmdId + 0x0D
  | emberOkToHibernate => vncpCmdId + 0x0E
  | emberGetEui64 => vncpCmdId + 0x0F
  | emberMacGetParentAddress .. => vncpCmdId + 0x3A
  | emberIsLocalEui64 .. => vncpCmdId + 0x10
  | emberGetNodeId => vncpCmdId + 0x11
  | emberGetPanId => vncpCmdId + 0x12
  | emberGetParentId => vncpCmdId + 0x13
  | emberGetNodeType => vncpCmdId + 0x14
  | emberCalibrateCurrentChannelExtended .. => vncpCmdId + 0x46
  | emberApplyIrCalibration .. => vncpCmdId + 0x47
  | emberTempCalibration => vncpCmdId + 0x48
  | emberGetCalType => vncpCmdId + 0x49
  | emberGetMaximumPayloadLength .. => vncpCmdId + 0x30
  | emberSetIndirectQueueTimeout .. => vncpCmdId + 0x4A
  | emberGetVersionInfo => vncpCmdId + 0x53
  | emberOfdmSetMcs .. => vncpCmdId + 0x54
  | emberOfdmGetMcs => vncpCmdId + 0x55
  | emberNcpSetLongMessagesUse .. => vncpCmdId + 0x56
  | emberUsingLongMessages => vncpCmdId + 0x57
  | emberMessageSend .. => vncpCmdId + 0x16
  | emberPollForData => vncpCmdId + 0x17
  | emberMacMessageSend .. => vncpCmdId + 0x2B
  | emberMacSetPanCoordinator .. => vncpCmdId + 0x38
  | emberSetPollDestinationAddress .. => vncpCmdId + 0x2D
  | emberRemoveChild .. => vncpCmdId + 0x31
  | emberGetChildFlags .. => vncpCmdId + 0x32
  | emberGetChildInfo .. => vncpCmdId + 0x33
  | emberPurgeIndirectMessages => vncpCmdId + 0x2E
  | emberMacAddShortToLongAddressMapping .. => vncpCmdId + 0x3E
  | emberMacClearShortToLongAddressMappings => vncpCmdId + 0x3F
  | emberNetworkLeave => vncpCmdId + 0x40
  | emberNetworkInit => vncpCmdId + 0x18
  | emberStartActiveScan .. => vncpCmdId + 0x19
  | emberStartEnergyScan .. => vncpCmdId + 0x1A
  | emberSetApplicationBeaconPayload .. => vncpCmdId + 0x1B
  | emberSetSelectiveJoinPayload .. => vncpCmdId + 0x3C
  | emberClearSelectiveJoinPayload => vncpCmdId + 0x3D
  | emberFormNetwork .. => vncpCmdId + 0x1C
  | emberJoinNetworkExtended .. => vncpCmdId + 0x1D
  | emberJoinNetwork .. => vncpCmdId + 0x1E
  | emberMacFormNetwork .. => vncpCmdId + 0x3B
  | emberPermitJoining .. => vncpCmdId + 0x1F
  | emberJoinCommissioned .. => vncpCmdId + 0x20
  | emberResetNetworkState => vncpCmdId + 0x21
  | emberFrequencyHoppingSetChannelMask .. => vncpCmdId + 0x2C
  | emberFrequencyHoppingStartServer => vncpCmdId + 0x26
  | emberFrequencyHoppingStartClient .. => vncpCmdId + 0x27
  | emberFrequencyHoppingStop => vncpCmdId + 0x28
  | emberSetAuxiliaryAddressFilteringEntry .. => vncpCmdId + 0x29
  | emberGetAuxiliaryAddressFilteringEntry .. => vncpCmdId + 0x2A
  | emberStartTxStream .. => vncpCmdId + 0x43
  | emberStopTxStream => vncpCmdId + 0x44
  | emberSetActiveScanDuration .. => vncpCmdId + 0x41
  | emberGetActiveScanDuration => vncpCmdId + 0x42
  | emberGetDefaultChannel => vncpCmdId + 0x45

/-- The arguments of `formatResponseCommand`. -/
def arguments : ApiCall → List Arg
  | emberSetSecurityKey key => [.buffer key emberEncryptionKeySize]
  | emberGetSecurityKey key => [.buffer (some key) emberEncryptionKeySize]
  | emberSetPsaSecurityKey keyId => [.uint32 keyId]
  | emberSetNcpSecurityKeyPersistent key keyLength keyId =>
    [.buffer key keyLength.toUInt16, .uint32 keyId]
  | emberSetNcpSecurityKey key keyLength => [.buffer key keyLength.toUInt16]
  | emberGetCounter counterType => [.uint8 counterType]
  | emberSetRadioChannelExtended channel persistent => [.uint16 channel, .uint8 persistent.toUInt8]
  | emberSetRadioChannel channel => [.uint16 channel]
  | emberSetRadioPower power persistent => [.uint16 power.toUInt16, .uint8 persistent.toUInt8]
  | emberSetRadioPowerMode radioOn => [.uint8 radioOn.toUInt8]
  | emberSetUnencryptedPacketsAcceptance accept => [.uint8 accept.toUInt8]
  | emberSetMacParams ccaThreshold maxCcaAttempts minBackoffExp maxBackoffExp ccaBackoff ccaDuration
      maxRetries csmaTimeout ackTimeout =>
    [.int8 ccaThreshold, .uint8 maxCcaAttempts, .uint8 minBackoffExp, .uint8 maxBackoffExp,
      .uint16 ccaBackoff, .uint16 ccaDuration, .uint8 maxRetries, .uint32 csmaTimeout,
      .uint16 ackTimeout]
  | emberMacGetParentAddress parentAddress => parentAddress.arguments
  | emberIsLocalEui64 eui64 => [.buffer eui64 eui64Size]
  | emberCalibrateCurrentChannelExtended calValueIn => [.uint32 calValueIn]
  | emberApplyIrCalibration calValue => [.uint32 calValue]
  | emberGetMaximumPayloadLength srcAddressMode dstAddressMode interpan secured =>
    [.uint8 srcAddressMode, .uint8 dstAddressMode, .uint8 interpan.toUInt8, .uint8 secured.toUInt8]
  | emberSetIndirectQueueTimeout timeoutMs => [.uint32 timeoutMs]
  | emberOfdmSetMcs mcs => [.uint8 mcs]
  | emberNcpSetLongMessagesUse useLongMessages => [.uint8 useLongMessages.toUInt8]
  | emberMessageSend destination endpoint messageTag messageLength message options =>
    emberMessageSendArguments destination endpoint messageTag messageLength message options
  | emberMacMessageSend macFrame messageTag messageLength message options =>
    macFrame.arguments ++ [.uint8 messageTag, .length messageLength,
      .buffer message messageLength, .uint8 options]
  | emberMacSetPanCoordinator isCoordinator => [.uint8 isCoordinator.toUInt8]
  | emberSetPollDestinationAddress destination => destination.arguments
  | emberRemoveChild address => address.arguments
  | emberGetChildFlags address => address.arguments
  | emberGetChildInfo address => address.arguments
  | emberMacAddShortToLongAddressMapping shortId longId =>
    [.uint16 shortId, .buffer longId eui64Size]
  | emberStartActiveScan channel => [.uint16 channel]
  | emberStartEnergyScan channel samples => [.uint16 channel, .uint8 samples]
  | emberSetApplicationBeaconPayload payloadLength payload =>
    [.buffer payload payloadLength.toUInt16]
  | emberSetSelectiveJoinPayload payloadLength payload => [.buffer payload payloadLength.toUInt16]
  | emberFormNetwork parameters =>
    [.uint16 parameters.panId, .uint16 parameters.radioTxPower.toUInt16,
      .uint16 parameters.radioChannel]
  | emberJoinNetworkExtended nodeType nodeId parameters =>
    [.uint8 nodeType, .uint16 nodeId, .uint16 parameters.panId,
      .uint16 parameters.radioTxPower.toUInt16, .uint16 parameters.radioChannel]
  | emberJoinNetwork nodeType parameters =>
    [.uint8 nodeType, .uint16 parameters.panId, .uint16 parameters.radioTxPower.toUInt16,
      .uint16 parameters.radioChannel]
  | emberMacFormNetwork parameters =>
    [.uint16 parameters.panId, .uint16 parameters.radioTxPower.toUInt16,
      .uint16 parameters.radioChannel]
  | emberPermitJoining duration => [.uint8 duration]
  | emberJoinCommissioned nodeType nodeId parameters =>
    [.uint8 nodeType, .uint16 nodeId, .uint16 parameters.panId,
      .uint16 parameters.radioTxPower.toUInt16, .uint16 parameters.radioChannel]
  | emberFrequencyHoppingSetChannelMask channelMaskLength channelMask =>
    [.buffer channelMask channelMaskLength.toUInt16]
  | emberFrequencyHoppingStartClient serverNodeId serverPanId =>
    [.uint16 serverNodeId, .uint16 serverPanId]
  | emberSetAuxiliaryAddressFilteringEntry nodeId entryIndex => [.uint16 nodeId, .uint8 entryIndex]
  | emberGetAuxiliaryAddressFilteringEntry entryIndex => [.uint8 entryIndex]
  | emberStartTxStream parameters channel => [.uint8 parameters, .uint16 channel]
  | emberSetActiveScanDuration durationMs => [.uint16 durationMs]
  | _ => []

/-- The values that are encoded. -/
def items (c : ApiCall) : List Item := c.arguments.map Arg.item

/-- The frame of the command. -/
def frame (long : Bool) (c : ApiCall) : List UInt8 :=
  highLowBytes16 c.commandId ++ wire long c.items

/-- The lengths of the arguments fit the prefixes of the mode. -/
def Fits (long : Bool) (c : ApiCall) : Prop := ∀ f ∈ c.items, f.Fits long

/-- The encoder fills `apiCommandData`; `none` is `BUG_ON`. -/
def encode (long : Bool) (apiCommandData : Mem) (c : ApiCall) : Option (Mem × UInt16) :=
  formatResponseCommandFromArgList long apiCommandData maxStackApiCommandSize.toUInt16 c.commandId
    (format c.items) (c.arguments.flatMap Arg.passed)

/-- The length of the message that is sent, if one is. -/
def messageLength : ApiCall → ℕ
  | emberMessageSend _ _ _ messageLength _ _ => messageLength.toNat
  | emberMacMessageSend _ _ messageLength _ _ => messageLength.toNat
  | _ => 0

end ApiCall

/-! ## Answers -/

/-- What a function fetches from the answer: the pointers it passes to `fetchApiParams`. -/
inductive Reply
  /-- no parameter is fetched -/
  | nothing
  /-- `"u"`, into a status or another byte -/
  | uint8
  /-- `"u"`, into a `bool` -/
  | bool
  /-- `"v"` -/
  | uint16
  /-- `"v"`, into an `int16_t` -/
  | int16
  /-- `"w"` -/
  | uint32
  /-- `"uu"` -/
  | statusUint8
  /-- `"uw"` -/
  | statusUint32
  /-- `"uvvw"` -/
  | versionInfo
  /-- `"ub"`, into `key->contents` -/
  | securityKey
  /-- `"b"`, into the static array `eui64` -/
  | eui64
  /-- `"uvbu"` -/
  | parentAddress
  /-- `"uvbuu"` -/
  | childInfo

namespace Reply

/-- The variables that are assigned. -/
abbrev Variables : Reply → Type
  | nothing => Unit
  | uint8 => UInt8
  | bool => Bool
  | uint16 => UInt16
  | int16 => Int16
  | uint32 => UInt32
  | statusUint8 => UInt8 × UInt8
  | statusUint32 => UInt8 × UInt32
  | versionInfo => UInt8 × UInt16 × UInt16 × UInt32
  | securityKey => UInt8 × Mem
  | eui64 => Mem
  | parentAddress => UInt8 × MacAddress
  | childInfo => UInt8 × MacAddress × UInt8

/-- The pointers, in the order of the format. -/
def pointers : (r : Reply) → List (Pointer r.Variables)
  | nothing => []
  | uint8 => [.uint8 fun x _ => x]
  | bool => [.uint8 fun x _ => x != 0]
  | uint16 => [.uint16 fun x _ => x]
  | int16 => [.uint16 fun x _ => x.toInt16]
  | uint32 => [.uint32 fun x _ => x]
  | statusUint8 => [.uint8 fun x v => (x, v.2), .uint8 fun x v => (v.1, x)]
  | statusUint32 => [.uint8 fun x v => (x, v.2), .uint32 fun x v => (v.1, x)]
  | versionInfo =>
    [.uint8 fun x v => (x, v.2), .uint16 fun x v => (v.1, x, v.2.2),
      .uint16 fun x v => (v.1, v.2.1, x, v.2.2.2), .uint32 fun x v => (v.1, v.2.1, v.2.2.1, x)]
  | securityKey =>
    [.uint8 fun x v => (x, v.2),
      .buffer cspFetchArgIsUint8 (fun _ => id) emberEncryptionKeySize fun bytes v =>
        (v.1, Memory.write v.2 0 bytes)]
  | eui64 =>
    [.buffer cspFetchArgIsUint8 (fun _ => id) eui64Size fun bytes v => Memory.write v 0 bytes]
  | parentAddress =>
    .uint8 (fun x v => (x, v.2)) :: macAddressPointers fun g v => (v.1, g v.2)
  | childInfo =>
    .uint8 (fun x v => (x, v.2)) ::
      (macAddressPointers (fun g v => (v.1, g v.2.1, v.2.2)) ++
        [.uint8 fun x v => (v.1, v.2.1, x)])

/-- Variables that hold zeros. -/
def zeros : (r : Reply) → r.Variables
  | nothing => ()
  | uint8 => (0 : UInt8)
  | bool => false
  | uint16 => (0 : UInt16)
  | int16 => (0 : Int16)
  | uint32 => (0 : UInt32)
  | statusUint8 => ((0 : UInt8), (0 : UInt8))
  | statusUint32 => ((0 : UInt8), (0 : UInt32))
  | versionInfo => ((0 : UInt8), (0 : UInt16), (0 : UInt16), (0 : UInt32))
  | securityKey => ((0 : UInt8), fun _ => (0 : UInt8))
  | eui64 => fun _ => (0 : UInt8)
  | parentAddress => ((0 : UInt8), ⟨fun _ => 0, 0⟩)
  | childInfo => ((0 : UInt8), ⟨fun _ => 0, 0⟩, (0 : UInt8))

/-- The values in an answer. -/
def items : (r : Reply) → r.Variables → List Item
  | nothing, _ => []
  | uint8, x => [.uint8 x]
  | bool, x => [.uint8 x.toUInt8]
  | uint16, x => [.uint16 x]
  | int16, x => [.uint16 x.toUInt16]
  | uint32, x => [.uint32 x]
  | statusUint8, x => [.uint8 x.1, .uint8 x.2]
  | statusUint32, x => [.uint8 x.1, .uint32 x.2]
  | versionInfo, x => [.uint8 x.1, .uint16 x.2.1, .uint16 x.2.2.1, .uint32 x.2.2.2]
  | securityKey, x => [.uint8 x.1, .buffer (payloadBytes x.2 emberEncryptionKeySize.toNat)]
  | eui64, x => [.buffer (payloadBytes x eui64Size.toNat)]
  | parentAddress, x => .uint8 x.1 :: x.2.items
  | childInfo, x => .uint8 x.1 :: (x.2.1.items ++ [.uint8 x.2.2])

end Reply

/-- What a function fetches. -/
def ApiCall.reply : ApiCall → Reply
  | emberResetNetworkState => .nothing
  | emberStackIsUp | emberOkToNap | emberOkToHibernate | emberIsLocalEui64 _
  | emberUsingLongMessages => .bool
  | emberGetRadioChannel | emberCurrentStackTasks | emberGetNodeId | emberGetPanId
  | emberGetParentId | emberGetMaximumPayloadLength .. | emberGetAuxiliaryAddressFilteringEntry _
  | emberGetActiveScanDuration | emberGetDefaultChannel => .uint16
  | emberGetRadioPower => .int16
  | emberGetKeyId | emberGetCalType => .uint32
  | emberOfdmGetMcs | emberGetChildFlags _ => .statusUint8
  | emberGetCounter _ | emberCalibrateCurrentChannelExtended _ => .statusUint32
  | emberGetVersionInfo => .versionInfo
  | emberGetSecurityKey _ => .securityKey
  | emberGetEui64 => .eui64
  | emberMacGetParentAddress _ => .parentAddress
  | emberGetChildInfo _ => .childInfo
  | _ => .uint8

/-! ## The identifiers -/

/-- The functions in their order: identifier, format of the arguments, and what is fetched. -/
def apiFunctions : List (UInt16 × List Char × Reply) :=
  [(vncpCmdId + 0x02, "".toList, .uint8), (vncpCmdId + 0x03, "".toList, .bool),
    (vncpCmdId + 0x04, "b".toList, .uint8), (vncpCmdId + 0x4F, "b".toList, .securityKey),
    (vncpCmdId + 0x4C, "w".toList, .uint8), (vncpCmdId + 0x4D, "".toList, .uint8),
    (vncpCmdId + 0x52, "bw".toList, .uint8), (vncpCmdId + 0x4E, "b".toList, .uint8),
    (vncpCmdId + 0x50, "".toList, .uint32), (vncpCmdId + 0x05, "u".toList, .statusUint32),
    (vncpCmdId + 0x4B, "vu".toList, .uint8), (vncpCmdId + 0x06, "v".toList, .uint8),
    (vncpCmdId + 0x07, "".toList, .uint16), (vncpCmdId + 0x08, "vu".toList, .uint8),
    (vncpCmdId + 0x09, "".toList, .int16), (vncpCmdId + 0x0A, "u".toList, .uint8),
    (vncpCmdId + 0x58, "u".toList, .uint8), (vncpCmdId + 0x0B, "suuuvvuwv".toList, .uint8),
    (vncpCmdId + 0x0C, "".toList, .uint16), (vncpCmdId + 0x0D, "".toList, .bool),
    (vncpCmdId + 0x0E, "".toList, .bool), (vncpCmdId + 0x0F, "".toList, .eui64),
    (vncpCmdId + 0x3A, "vbu".toList, .parentAddress), (vncpCmdId + 0x10, "b".toList, .bool),
    (vncpCmdId + 0x11, "".toList, .uint16), (vncpCmdId + 0x12, "".toList, .uint16),
    (vncpCmdId + 0x13, "".toList, .uint16), (vncpCmdId + 0x14, "".toList, .uint8),
    (vncpCmdId + 0x46, "w".toList, .statusUint32), (vncpCmdId + 0x47, "w".toList, .uint8),
    (vncpCmdId + 0x48, "".toList, .uint8), (vncpCmdId + 0x49, "".toList, .uint32),
    (vncpCmdId + 0x30, "uuuu".toList, .uint16), (vncpCmdId + 0x4A, "w".toList, .uint8),
    (vncpCmdId + 0x53, "".toList, .versionInfo), (vncpCmdId + 0x54, "u".toList, .uint8),
    (vncpCmdId + 0x55, "".toList, .statusUint8), (vncpCmdId + 0x56, "u".toList, .uint8),
    (vncpCmdId + 0x57, "".toList, .bool), (vncpCmdId + 0x16, "vuulbu".toList, .uint8),
    (vncpCmdId + 0x17, "".toList, .uint8), (vncpCmdId + 0x2B, "vbuvbuvvuuulbu".toList, .uint8),
    (vncpCmdId + 0x38, "u".toList, .uint8), (vncpCmdId + 0x2D, "vbu".toList, .uint8),
    (vncpCmdId + 0x31, "vbu".toList, .uint8), (vncpCmdId + 0x32, "vbu".toList, .statusUint8),
    (vncpCmdId + 0x33, "vbu".toList, .childInfo), (vncpCmdId + 0x2E, "".toList, .uint8),
    (vncpCmdId + 0x3E, "vb".toList, .uint8), (vncpCmdId + 0x3F, "".toList, .uint8),
    (vncpCmdId + 0x40, "".toList, .uint8), (vncpCmdId + 0x18, "".toList, .uint8),
    (vncpCmdId + 0x19, "v".toList, .uint8), (vncpCmdId + 0x1A, "vu".toList, .uint8),
    (vncpCmdId + 0x1B, "b".toList, .uint8), (vncpCmdId + 0x3C, "b".toList, .uint8),
    (vncpCmdId + 0x3D, "".toList, .uint8), (vncpCmdId + 0x1C, "vvv".toList, .uint8),
    (vncpCmdId + 0x1D, "uvvvv".toList, .uint8), (vncpCmdId + 0x1E, "uvvv".toList, .uint8),
    (vncpCmdId + 0x3B, "vvv".toList, .uint8), (vncpCmdId + 0x1F, "u".toList, .uint8),
    (vncpCmdId + 0x20, "uvvvv".toList, .uint8), (vncpCmdId + 0x21, "".toList, .nothing),
    (vncpCmdId + 0x2C, "b".toList, .uint8), (vncpCmdId + 0x26, "".toList, .uint8),
    (vncpCmdId + 0x27, "vv".toList, .uint8), (vncpCmdId + 0x28, "".toList, .uint8),
    (vncpCmdId + 0x29, "vu".toList, .uint8), (vncpCmdId + 0x2A, "u".toList, .uint16),
    (vncpCmdId + 0x43, "uv".toList, .uint8), (vncpCmdId + 0x44, "".toList, .uint8),
    (vncpCmdId + 0x41, "v".toList, .uint8), (vncpCmdId + 0x42, "".toList, .uint16),
    (vncpCmdId + 0x45, "".toList, .uint16)]

/-- **The identifier tells the formats.** -/
theorem lookup_apiFunctions (c : ApiCall) :
    apiFunctions.lookup c.commandId = some (format c.items, c.reply) := by
  cases c <;> rfl

/-- **The identifier tells the function.** -/
theorem findIdx_apiFunctions (c : ApiCall) :
    apiFunctions.findIdx (fun x => x.1 = c.commandId) = c.ctorIdx := by
  cases c <;> rfl

/-- The same function is called. -/
structure SameFunction (c c' : ApiCall) : Prop where
  ctorIdx : c.ctorIdx = c'.ctorIdx
  kinds : c.items.map Item.kind = c'.items.map Item.kind
  reply : c.reply = c'.reply

theorem char_injective : Function.Injective Kind.char := by
  intro k k' hk
  cases k <;> cases k' <;> first | rfl | exact absurd hk (by decide)

theorem sameFunction_of_commandId {c c' : ApiCall} (h : c.commandId = c'.commandId) :
    SameFunction c c' := by
  have hlookup := lookup_apiFunctions c
  rw [h, lookup_apiFunctions c'] at hlookup
  obtain ⟨hformat, hreply⟩ := Prod.mk.inj (Option.some.inj hlookup)
  refine ⟨?_, List.map_injective_iff.mpr char_injective ?_, hreply.symm⟩
  · rw [← findIdx_apiFunctions c, ← findIdx_apiFunctions c', h]
  · rw [List.map_map, List.map_map]
    exact hformat.symm

/-! ## The frame tells the call -/

/-- The item that stands in a memory is the only one of its kind. -/
theorem itemAt_eq {m : Mem} {p : ℕ} {f : Item} (hfit : f.Fits long)
    (h : m.read p (f.wire long).length = f.wire long) : itemAt long m p f.kind = f := by
  cases f with
  | uint8 v =>
    have hv : m p = v := (List.cons.inj h).1
    exact congrArg Item.uint8 hv
  | int8 v =>
    have hv : m p = v.toUInt8 := (List.cons.inj h).1
    show Item.int8 (m p).toInt8 = Item.int8 v
    rw [hv, Int8.toInt8_toUInt8]
  | uint16 v => exact congrArg Item.uint16 (fetch_of_read16 h)
  | length v => exact congrArg Item.length (congrArg Prod.fst (fetchLength_eq hfit h))
  | uint32 v => exact congrArg Item.uint32 (fetch_of_read32 h)
  | buffer bytes =>
    have hn := toNat_toUInt16_of_le hfit
    rw [Item.wire, List.length_append, Memory.read_add] at h
    obtain ⟨hlength, hbytes⟩ := List.append_inj h (by rw [Memory.length_read])
    have hfetch := fetchLength_eq (hn.trans_le hfit) hlength
    show Item.buffer (m.read (fetchLength long m p).2 (fetchLength long m p).1.toNat) = _
    rw [hfetch, hn, hbytes]

theorem itemsAt_eq {m : Mem} : ∀ {fs : List Item} {p : ℕ}, (∀ f ∈ fs, f.Fits long) →
    m.read p (wire long fs).length = wire long fs → itemsAt long m p (fs.map Item.kind) = fs
  | [], _, _, _ => rfl
  | f :: fs, p, hfit, h => by
    rw [wire_cons, List.length_append, Memory.read_add] at h
    obtain ⟨hf, hfs⟩ := List.append_inj h (by rw [Memory.length_read])
    have hitem := itemAt_eq (hfit f List.mem_cons_self) hf
    have hitems := itemsAt_eq (fun g hg => hfit g (List.mem_cons_of_mem f hg)) hfs
    rw [List.map_cons, itemsAt, hitem, hitems]

/-- **The bytes tell the items**, once their kinds are known. -/
theorem wire_injective {fs gs : List Item} (hkind : fs.map Item.kind = gs.map Item.kind)
    (hf : ∀ f ∈ fs, f.Fits long) (hg : ∀ g ∈ gs, g.Fits long)
    (h : wire long fs = wire long gs) : fs = gs := by
  have hread := Memory.read_write_same (fun _ => 0) 0 (wire long fs)
  calc fs = itemsAt long (Memory.write (fun _ => 0) 0 (wire long fs)) 0 (fs.map Item.kind) :=
        (itemsAt_eq hf hread).symm
    _ = itemsAt long (Memory.write (fun _ => 0) 0 (wire long fs)) 0 (gs.map Item.kind) := by
        rw [hkind]
    _ = gs := by
        rw [h] at hread ⊢
        exact itemsAt_eq hg hread

theorem sameFunction_of_frame {c c' : ApiCall} (hfit : c.Fits long) (hfit' : c'.Fits long)
    (h : c.frame long = c'.frame long) : SameFunction c c' ∧ c.items = c'.items := by
  obtain ⟨hid, hwire⟩ := List.append_inj h
    (by rw [length_highLowBytes16, length_highLowBytes16])
  have hcommand : c.commandId = c'.commandId := by
    have hread := Memory.read_write_same (fun _ => 0) 0 (highLowBytes16 c.commandId)
    rw [← fetch_of_read16 hread]
    exact fetch_of_read16 (hread.trans hid)
  have hfunction := sameFunction_of_commandId hcommand
  exact ⟨hfunction, wire_injective hfunction.kinds hfit hfit' hwire⟩

/-- **The frame tells the call**: two calls whose lengths fit are sent as the same bytes only where
they call the same function with the same values. -/
theorem call_of_frame_eq {c c' : ApiCall} (hfit : c.Fits long) (hfit' : c'.Fits long)
    (h : c.frame long = c'.frame long) : c.ctorIdx = c'.ctorIdx ∧ c.items = c'.items := by
  obtain ⟨hfunction, hitems⟩ := sameFunction_of_frame hfit hfit' h
  exact ⟨hfunction.ctorIdx, hitems⟩

/-- The values of a call are those that are sent: a null pointer is sent like an array of zeros, and
only up to this are calls told apart. -/
theorem call_of_frame_eq_mapping :
    (ApiCall.emberMacAddShortToLongAddressMapping 5 none).ctorIdx =
        (ApiCall.emberMacAddShortToLongAddressMapping 5 (some fun _ => 0)).ctorIdx ∧
      (ApiCall.emberMacAddShortToLongAddressMapping 5 none).items =
        (ApiCall.emberMacAddShortToLongAddressMapping 5 (some fun _ => 0)).items :=
  @call_of_frame_eq false _ _ (by simp [ApiCall.Fits, ApiCall.items, ApiCall.arguments, Arg.item,
    Item.Fits, maxLength, dataBytes, eui64Size]) (by simp [ApiCall.Fits, ApiCall.items,
    ApiCall.arguments, Arg.item, Item.Fits, maxLength, dataBytes, eui64Size]) (by decide)

/-! ## The size of a command -/

theorem toNat_toUInt16_le (n : UInt8) : n.toUInt16.toNat ≤ 255 := by
  have := n.toNat_lt
  rw [UInt8.toNat_toUInt16]
  omega

/-- The two commands that send a message are longer than it by up to `40` bytes, the others carry
`255` bytes at most. -/
theorem encodedSize_le (long : Bool) (c : ApiCall) :
    encodedSize long c.arguments ≤ max (c.messageLength + 40) 263 := by
  have hw := lengthWidth_le long
  have hkey : emberEncryptionKeySize.toNat = 16 := rfl
  have heui : eui64Size.toNat = 8 := rfl
  cases c <;>
    simp only [encodedSize, ApiCall.arguments, ApiCall.messageLength, emberMessageSendArguments,
      size_macAddress, size_macFrame, List.map_cons, List.map_append, List.map_nil,
      List.sum_cons, List.sum_append, List.sum_nil, fieldSize, hkey, heui]
  case emberSetNcpSecurityKeyPersistent key keyLength keyId =>
    have := toNat_toUInt16_le keyLength
    omega
  case emberSetNcpSecurityKey key keyLength =>
    have := toNat_toUInt16_le keyLength
    omega
  case emberSetApplicationBeaconPayload payloadLength payload =>
    have := toNat_toUInt16_le payloadLength
    omega
  case emberSetSelectiveJoinPayload payloadLength payload =>
    have := toNat_toUInt16_le payloadLength
    omega
  case emberFrequencyHoppingSetChannelMask channelMaskLength channelMask =>
    have := toNat_toUInt16_le channelMaskLength
    omega
  all_goals omega

/-- The length an argument declares. -/
def declared : Arg → ℕ
  | .length v => v.toNat
  | .buffer _ size => size.toNat
  | _ => 0

theorem fits_of_declared {a : Arg} (h : declared a ≤ maxLength long) : a.item.Fits long := by
  cases a with
  | length v => exact h
  | buffer data size =>
    show (dataBytes data size).length ≤ maxLength long
    rw [length_dataBytes]
    exact h
  | _ => trivial

/-- **No call but a message declares more than `255` bytes.** -/
theorem declared_le (c : ApiCall) :
    ∀ a ∈ c.arguments, declared a ≤ max c.messageLength 255 := by
  have hbyte : ∀ n : UInt8, n.toNat ≤ 255 := fun n => Nat.le_of_lt_succ n.toNat_lt
  cases c <;>
    simp [ApiCall.arguments, ApiCall.messageLength, emberMessageSendArguments, declared, hbyte,
      MacAddress.arguments, MacFrame.arguments, emberEncryptionKeySize, eui64Size]

theorem fits_of_message {c : ApiCall} (h : c.messageLength ≤ maxLength long) : c.Fits long := by
  have hmax : 255 ≤ maxLength long := by cases long <;> decide
  intro f hf
  obtain ⟨a, ha, rfl⟩ := List.mem_map.mp hf
  exact fits_of_declared ((declared_le c a ha).trans (max_le h hmax))

/-- The greatest length of a message with which the command fits the buffer. -/
def maxMessageLength : ℕ := maxStackApiCommandSize - 40

/-- The command is encoded as a whole. -/
theorem exists_encode (long : Bool) (apiCommandData : Mem) (c : ApiCall)
    (hmode : c.messageLength ≤ maxLength long) (hsize : c.messageLength ≤ maxMessageLength) :
    c.Fits long ∧ ∃ m length, c.encode long apiCommandData = some (m, length) ∧
      m.read 0 length.toNat = c.frame long ∧ length.toNat ≤ maxStackApiCommandSize := by
  have hle := encodedSize_le long c
  have hmax : maxMessageLength = 2056 := rfl
  have hbuffer : maxStackApiCommandSize.toUInt16.toNat = 2096 := rfl
  have hwire : encodedSize long c.arguments = 2 + (wire long c.items).length := by
    rw [ApiCall.items, length_wire]
    rfl
  have hroom : 2 + (wire long (c.arguments.map Arg.item)).length ≤
      maxStackApiCommandSize.toUInt16.toNat := by
    rw [hbuffer, ← ApiCall.items]
    omega
  obtain ⟨m, length, hrun, hlength, hread⟩ :=
    formatResponseCommandFromArgList_eq apiCommandData c.commandId hroom
  refine ⟨fits_of_message hmode, m, length, hrun, hread, ?_⟩
  rw [← ApiCall.items] at hlength
  show length.toNat ≤ 2096
  omega

/-- **Every function of the API is understood**, in both modes and whatever its arguments are, where
a message is not too long for the buffer and for the prefix of the mode: the command stays within
the buffer, and who reads it in the format of its identifier finds the values of the call. -/
theorem read_of_encode (long : Bool) (apiCommandData : Mem) (c : ApiCall)
    (hmode : c.messageLength ≤ maxLength long) (hsize : c.messageLength ≤ maxMessageLength) :
    ∃ m length, c.encode long apiCommandData = some (m, length) ∧
      length.toNat ≤ maxStackApiCommandSize ∧
      apiFunctions.lookup (emberFetchHighLowInt16u m 0) = some (format c.items, c.reply) ∧
      itemsAt long m 2 (c.items.map Item.kind) = c.items := by
  obtain ⟨hfits, m, length, hrun, hread, hle⟩ := exists_encode long apiCommandData c hmode hsize
  have hlength : length.toNat = (c.frame long).length := by
    rw [← hread, Memory.length_read]
  rw [hlength, ApiCall.frame, List.length_append, Memory.read_add] at hread
  obtain ⟨hid, hitems⟩ := List.append_inj hread (by rw [Memory.length_read])
  refine ⟨m, length, hrun, hle, ?_, itemsAt_eq hfits hitems⟩
  rw [fetch_of_read16 hid, lookup_apiFunctions]

/-- `emberMessageSend`, with a message of 200 bytes. -/
def longMessageSend : ApiCall := .emberMessageSend 5 1 7 200 (some fun i => i.toUInt8) 3

theorem read_of_encode_messageSend : ∃ m length,
    longMessageSend.encode false (fun _ => 0xFF) = some (m, length) ∧
      length.toNat ≤ maxStackApiCommandSize ∧
      apiFunctions.lookup (emberFetchHighLowInt16u m 0) =
        some (format longMessageSend.items, longMessageSend.reply) ∧
      itemsAt false m 2 (longMessageSend.items.map Item.kind) = longMessageSend.items :=
  read_of_encode false (fun _ => 0xFF) longMessageSend (show 200 ≤ maxLength false by decide)
    (show 200 ≤ maxMessageLength by decide)

/-! ## What the caller finds -/

/-- The pointers ask for the values of an answer. -/
theorem fills_reply (r : Reply) (x : r.Variables) :
    List.Forall₂ (fun f y => Fills f y.param) (r.items x) r.pointers := by
  cases r with
  | nothing => exact .nil
  | uint8 => exact .cons (.uint8 _) .nil
  | bool => exact .cons (.uint8 _) .nil
  | uint16 => exact .cons (.uint16 _) .nil
  | int16 => exact .cons (.uint16 _) .nil
  | uint32 => exact .cons (.uint32 _) .nil
  | statusUint8 => exact .cons (.uint8 _) (.cons (.uint8 _) .nil)
  | statusUint32 => exact .cons (.uint8 _) (.cons (.uint32 _) .nil)
  | versionInfo =>
    exact .cons (.uint8 _) (.cons (.uint16 _) (.cons (.uint16 _) (.cons (.uint32 _) .nil)))
  | securityKey =>
    refine .cons (.uint8 _) (.cons (.buffer fun _ => ?_) .nil)
    rw [length_payloadBytes]
    decide
  | eui64 =>
    refine .cons (.buffer fun _ => ?_) .nil
    rw [length_payloadBytes]
    decide
  | parentAddress => exact .cons (.uint8 _) (fills_macAddress _ x.2)
  | childInfo =>
    exact .cons (.uint8 _) (List.rel_append (fills_macAddress _ x.2.1) (.cons (.uint8 _) .nil))

/-- The lengths of an answer are short. -/
theorem fits_reply (long : Bool) (r : Reply) (x : r.Variables) :
    ∀ f ∈ r.items x, f.Fits long := by
  have hmax : 255 ≤ maxLength long := by cases long <;> decide
  have hkey : emberEncryptionKeySize.toNat ≤ maxLength long := le_trans (by decide) hmax
  have heui : eui64Size.toNat ≤ maxLength long := le_trans (by decide) hmax
  have h8 : 8 ≤ maxLength long := le_trans (by decide) hmax
  cases r <;>
    simp [Reply.items, MacAddress.items, Item.Fits, length_payloadBytes, length_longAddress, hkey,
      heui, h8]

/-- **What the NCP has put into an answer is what the caller finds**, whatever its variables held
before. -/
theorem items_assigned (r : Reply) (x v : r.Variables) :
    r.items (assigned r.pointers (r.items x) v) = r.items x := by
  cases r with
  | bool =>
    show [Item.uint8 (Bool.toUInt8 (Bool.toUInt8 x != 0))] = _
    rw [toUInt8_ne_zero]
    rfl
  | securityKey =>
    have hkey : emberEncryptionKeySize.toNat ≤ emberEncryptionKeySize.toNat := le_refl _
    have hassigned : assigned (Reply.pointers .securityKey) (Reply.items .securityKey x) v =
        (x.1, receivedPayload v.2 x.2 emberEncryptionKeySize.toNat
          emberEncryptionKeySize.toNat) := by
      simp only [Reply.pointers, Reply.items, assigned_cons, assigned_nil, Pointer.uint8,
        Pointer.buffer, destOf, stored_payload]
      rfl
    rw [hassigned, Reply.items, payloadBytes_received _ _ hkey]
    rfl
  | eui64 =>
    have hassigned : assigned (Reply.pointers .eui64) (Reply.items .eui64 x) v =
        receivedPayload v x eui64Size.toNat eui64Size.toNat := by
      simp only [Reply.pointers, Reply.items, assigned_cons, assigned_nil, Pointer.buffer, destOf,
        stored_payload]
      rfl
    rw [hassigned, Reply.items, payloadBytes_received _ _ (le_refl _)]
    rfl
  | parentAddress =>
    have hassigned : assigned (Reply.pointers .parentAddress) (Reply.items .parentAddress x) v =
        (x.1, v.2.received x.2) := by
      rw [Reply.pointers, Reply.items, assigned_cons,
        assigned_macAddress (fun g v => (v.1, g v.2)) (fun _ _ _ => rfl)]
      rfl
    rw [hassigned, Reply.items, items_receivedAddress]
    rfl
  | childInfo =>
    have hassigned : assigned (Reply.pointers .childInfo) (Reply.items .childInfo x) v =
        (x.1, v.2.1.received x.2.1, x.2.2) := by
      rw [Reply.pointers, Reply.items, assigned_cons,
        assigned_append _ _ _ (fills_macAddress _ x.2.1),
        assigned_macAddress (fun g v => (v.1, g v.2.1, v.2.2)) (fun _ _ _ => rfl)]
      rfl
    rw [hassigned, Reply.items, items_receivedAddress]
    rfl
  | _ => rfl

end ConnectNcpHost.Csp.ApiCommands
