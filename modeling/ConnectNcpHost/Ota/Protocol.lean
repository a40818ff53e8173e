import ConnectNcpHost.Stack.ByteUtilities

/-! # The unicast bootloader protocol: constants, frames, messages

The macros of `ota-unicast-bootloader-protocol.h` and `ota-unicast-bootloader-common-internal.h`
(the prefix `EMBER_OTA_UNICAST_BOOTLOADER_PROTOCOL_` is dropped), the status types, and the message
structures with the fields the server reads or sets. A payload is the memory the C pointer points
to: the bytes from `length` on are there too, as they are in the buffer. -/

namespace ConnectNcpHost.Ota.Protocol

open ConnectNcpHost.Stack.ByteUtilities

/-! ### Stack types (`ember-types.h`, `error-def.h`, `message.h`) -/

abbrev EmberNodeId : Type := UInt16
abbrev EmberStatus : Type := UInt8
abbrev EmberMessageOptions : Type := UInt8
abbrev EmberMessageLength : Type := UInt16

def emberNullNodeId : EmberNodeId := 0xFFFF
def emberSuccess : EmberStatus := 0x00
def emberMacNoAckReceived : EmberStatus := 0x40
def emberOptionsSecurityEnabled : EmberMessageOptions := 0x01
def emberOptionsAckRequested : EmberMessageOptions := 0x02
def emberMaxSecuredApplicationPayloadLength : UInt32 := 102

/-- `EmberIncomingMessage` -/
structure EmberIncomingMessage where
  options : EmberMessageOptions
  source : EmberNodeId
  endpoint : UInt8
  length : EmberMessageLength
  payload : Mem

/-- `EmberOutgoingMessage`, also the parameters of `emberMessageSend` -/
structure EmberOutgoingMessage where
  options : EmberMessageOptions
  destination : EmberNodeId
  endpoint : UInt8
  tag : UInt8
  length : EmberMessageLength
  payload : Mem

/-! ### Frame layout -/

def frameControlOffset : ℕ := 0
def frameControlCommandIdMask : UInt8 := 0x0F
def frameControlCommandIdOffset : UInt8 := 0
def frameControlReqFlagsOffset : UInt8 := 4
def frameControlRespStatusMask : UInt8 := 0x70
def frameControlRespStatusOffset : UInt8 := 4
def frameControlReqFlagResumeSupport : UInt8 := 0x01

def respStatusCompleted : UInt8 := 0x00
def respStatusOngoing : UInt8 := 0x01
def respStatusFailed : UInt8 := 0x02
def respStatusRefused : UInt8 := 0x03
def respStatusAborted : UInt8 := 0x04
def respStatusOutOfSeq : UInt8 := 0x05

def commandIdImageSegment : UInt8 := 0x00
def commandIdImageSegmentResponse : UInt8 := 0x01
def commandIdBootloadRequest : UInt8 := 0x02
def commandIdBootloadResponse : UInt8 := 0x03
def commandIdHandshake : UInt8 := 0x04
def commandIdHandshakeResponse : UInt8 := 0x05
def commandIdExtHandshakeResponse : UInt8 := 0x06

def handshakeHeaderLength : UInt16 := 6
def handshakeTagOffset : ℕ := 1
def handshakeLengthOffset : ℕ := 2
def handshakeRespHeaderLength : UInt16 := 3
def handshakeRespTagOffset : ℕ := 1
def extHshakeRespHeaderLength : UInt16 := 6
def extHshakeRespTagOffset : ℕ := 1
def extHshakeRespSegmentIndexOffset : ℕ := 2
def imageSegmentHeaderLength : UInt32 := 6
def imageSegmentTagOffset : ℕ := 1
def imageSegmentIndexOffset : ℕ := 2
def imageSegmentPayloadOffset : ℕ := 6
def imageSegmentRespHeaderLength : UInt16 := 7
def imageSegmentRespTagOffset : ℕ := 1
def imageSegmentRespIndexOffset : ℕ := 2
def bootloadReqHeaderLength : UInt16 := 6
def bootloadReqTagOffset : ℕ := 1
def bootloadReqDelayOffset : ℕ := 2
def bootloadRespHeaderLength : UInt16 := 3
def bootloadRespTagOffset : ℕ := 1

/-- `emOtaUnicastBootloaderProtocolCommandId(message)` -/
def emOtaUnicastBootloaderProtocolCommandId (message : Mem) : UInt8 :=
  (message frameControlOffset &&& frameControlCommandIdMask) >>> frameControlCommandIdOffset

/-- `emOtaUnicastBootloaderProtocolResponseStatus(message)` -/
def emOtaUnicastBootloaderProtocolResponseStatus (message : Mem) : UInt8 :=
  (message frameControlOffset &&& frameControlRespStatusMask) >>> frameControlRespStatusOffset

/-- The frame control byte of a request. -/
def requestFrameControl (commandId : UInt8) : UInt8 :=
  commandId ||| (frameControlReqFlagResumeSupport <<< frameControlReqFlagsOffset)

/-! ### Sizes: the server is built with security -/

def maxApplicationPayloadLength : UInt32 := emberMaxSecuredApplicationPayloadLength

def unicastTxOptions : EmberMessageOptions := emberOptionsAckRequested ||| emberOptionsSecurityEnabled

def maxSegmentPayloadLength : UInt32 :=
  (maxApplicationPayloadLength - imageSegmentHeaderLength) &&& 0xFC

def maximumImageSize : UInt32 := 0xFFFE * maxSegmentPayloadLength

theorem maxSegmentPayloadLength_eq : maxSegmentPayloadLength = 96 := by decide

theorem maximumImageSize_eq : maximumImageSize = 6291264 := by decide

/-! ### Server configuration and status -/

def emberAfPluginOtaUnicastBootloaderServerEndpoint : UInt8 := 13
def maxStackErrors : UInt8 := 8
def maxUnicastErrors : UInt8 := 4
def responseTimeoutMs : UInt16 := 250

/-- The transmission interval, with the range the configuration wizard admits. -/
structure Config where
  txIntervalMs : UInt16
  le_tx : 25 ≤ txIntervalMs
  tx_le : txIntervalMs ≤ 1000

/-- The configuration as shipped. -/
def defaultConfig : Config := ⟨100, by decide, by decide⟩

/-- `EmberAfOtaUnicastBootloaderStatus` -/
inductive EmberAfOtaUnicastBootloaderStatus
  | success
  | invalidCall
  | busy
  | dataUnderflow
  | stackError
  | timeout
  | failed
  | aborted
  | refused
  | unreachable
  deriving DecidableEq, Repr

end ConnectNcpHost.Ota.Protocol
