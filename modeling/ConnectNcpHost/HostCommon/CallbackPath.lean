import ConnectNcpHost.Csp.Callbacks
import ConnectNcpHost.HostCommon.CallbackQueue

/-! # From the stack to the application

A callback is encoded by the stack, passed on by the poll thread, and taken from the queue, decoded
and handed to the application by the callback thread. `received_of_encoded` is the way through
encoder and decoder, `deliveredInOrder_of_reach` the way through the queue as well, with the two
threads in any order. A callback that the arrays of the handlers take is never long enough to be
torn by the pipe (`length_frame_le`). -/

namespace ConnectNcpHost.HostCommon.CallbackPath

open ConnectNcpHost.Lib.Bytes ConnectNcpHost.Lib.Runs ConnectNcpHost.Stack.ByteUtilities
open ConnectNcpHost.Csp.Format ConnectNcpHost.Csp.Codec ConnectNcpHost.Csp.RoundTrip
open ConnectNcpHost.Csp.FrameBounds ConnectNcpHost.Csp.Outputs ConnectNcpHost.Csp.EncodedSize
open ConnectNcpHost.Csp.Callbacks ConnectNcpHost.HostCommon.CallbackQueue

variable {long : Bool} {c : Callback}

/-! ## Encoder and decoder -/

theorem length_frame (long : Bool) (c : Callback) :
    (c.frame long).length = encodedSize long c.arguments := by
  rw [Callback.frame, Callback.params, ← items_arguments, ← length_command long c.commandId,
    command]

/-- The frame the encoder writes for a callback is handled as what the handler receives. -/
theorem handled_of_encoded (long : Bool) (vars : Locals) (buffer : Mem) {bufferSize : UInt16}
    (c : Callback) (hfit : c.Fits long) (hsize : encodedSize long c.arguments ≤ bufferSize.toNat) :
    ∃ m length, formatResponseCommandFromArgList long buffer bufferSize c.commandId
        (format c.items) (c.arguments.flatMap Arg.passed) = some (m, length) ∧
      sliConnectNcpHandleIndication long vars m (emberFetchHighLowInt16u m 0) 2 =
        some (c.received vars) := by
  obtain ⟨m, length, hrun, hlen, hread⟩ :=
    formatResponseCommandFromArgList_eq buffer c.commandId (by
      rw [length_wire]
      exact hsize)
  rw [items_arguments] at hrun hlen hread
  rw [hlen, Memory.read_add] at hread
  obtain ⟨hid, hparams⟩ := List.append_inj hread (by rw [Memory.length_read]; rfl)
  refine ⟨m, length, hrun, ?_⟩
  rw [fetch_of_read16 hid]
  exact handleIndication_eq vars hfit hparams

/-- **Round trip**: the frame the encoder writes for a callback is decoded to a callback with the
same identifier and the same values. -/
theorem received_of_encoded (long : Bool) (vars : Locals) (buffer : Mem) {bufferSize : UInt16}
    (c : Callback) (hfit : c.Fits long) (hwithin : c.Within)
    (hsize : encodedSize long c.arguments ≤ bufferSize.toNat) :
    ∃ m length d, formatResponseCommandFromArgList long buffer bufferSize c.commandId
        (format c.items) (c.arguments.flatMap Arg.passed) = some (m, length) ∧
      sliConnectNcpHandleIndication long vars m (emberFetchHighLowInt16u m 0) 2 = some d ∧
      d.commandId = c.commandId ∧ d.items = c.items := by
  obtain ⟨m, length, hrun, hhandled⟩ := handled_of_encoded long vars buffer c hfit hsize
  exact ⟨m, length, c.received vars, hrun, hhandled, commandId_received vars c,
    items_received vars hwithin⟩

/-- A message with a payload of three bytes. -/
def shortMessage : IncomingMessage where
  options := 1
  source := 5
  endpoint := 2
  length := 3
  payload := fun i => i.toUInt8
  rssi := -40
  timestamp := 7
  lqi := 255

/-- Variables that hold nothing yet. -/
def zeroLocals : Locals where
  stackStatus := 0
  childJoin := (0, 0)
  messageSent := (0, ⟨⟨0, 0, 0, 0, 0, fun _ => 0⟩, 0, 0⟩)
  incomingMessage := ⟨⟨0, 0, 0, 0, fun _ => 0⟩, 0, 0, 0⟩
  incomingMacMessage := ⟨0, ⟨⟨fun _ => 0, 0⟩, ⟨fun _ => 0, 0⟩, 0, 0, false, false⟩, 0, 0, 0, 0,
    fun _ => 0, 0⟩
  macMessageSent := (0, ⟨0, ⟨⟨fun _ => 0, 0⟩, ⟨fun _ => 0, 0⟩, 0, 0, false, false⟩, 0, 0, 0,
    fun _ => 0, 0, 0⟩)
  incomingBeacon := ⟨0, ⟨fun _ => 0, 0⟩, 0, false, 0, fun _ => 0, 0, fun _ => 0⟩
  energyScanComplete := ⟨0, 0, 0, 0⟩
  frequencyHoppingStartClientComplete := 0

theorem fits_shortMessage (long : Bool) : (Callback.incomingMessage shortMessage).Fits long := by
  cases long <;> simp [Callback.Fits, Callback.items, Item.Fits, maxLength, shortMessage]

theorem received_of_encoded_short : ∃ m length d,
    formatResponseCommandFromArgList true (fun _ => 0) 64
        (Callback.incomingMessage shortMessage).commandId
        (format (Callback.incomingMessage shortMessage).items)
        ((Callback.incomingMessage shortMessage).arguments.flatMap Arg.passed) =
      some (m, length) ∧
    sliConnectNcpHandleIndication true zeroLocals m (emberFetchHighLowInt16u m 0) 2 = some d ∧
    d.commandId = (Callback.incomingMessage shortMessage).commandId ∧
    d.items = (Callback.incomingMessage shortMessage).items :=
  received_of_encoded true zeroLocals (fun _ => 0) (Callback.incomingMessage shortMessage)
    (fits_shortMessage true) (show 3 ≤ 2048 by decide) (by decide)

/-! ## The size of a frame -/

/-- The size of the fields of a callback, in terms of the arrays it carries. -/
def carried : Callback → ℕ
  | .messageSent _ x => x.length.toNat
  | .incomingMessage x => x.length.toNat
  | .incomingMacMessage x => x.length.toNat
  | .macMessageSent _ x => x.length.toNat
  | .incomingBeacon x => x.beaconFieldsLength.toNat + x.beaconPayloadLength.toNat
  | _ => 0

theorem encodedSize_le (long : Bool) (c : Callback) :
    encodedSize long c.arguments ≤ carried c + 60 := by
  have hw := lengthWidth_le long
  cases c <;>
    simp only [encodedSize, Callback.arguments, carried, List.map_cons, List.map_append,
      List.map_nil, List.sum_cons, List.sum_append, List.sum_nil, size_macFrame, size_macAddress,
      fieldSize, UInt8.toNat_toUInt16] <;>
    omega

/-- **No callback within the arrays of the handlers is torn by the pipe.** -/
theorem length_frame_le (long : Bool) (h : c.Within) : (c.frame long).length ≤ 4094 := by
  have hsize := encodedSize_le long c
  have hcarried : carried c ≤ maxCallbackPayloadLength.toNat := by
    cases c with
    | messageSent status x => exact h
    | incomingMessage x => exact h
    | incomingMacMessage x => exact h
    | macMessageSent status x => exact h
    | incomingBeacon x =>
      have hroom : maxBeaconFieldsLength.toNat + maxBeaconPayloadLength.toNat ≤
        maxCallbackPayloadLength.toNat := by decide
      exact (Nat.add_le_add h.1 h.2).trans hroom
    | _ => exact Nat.zero_le _
  have hmax : maxCallbackPayloadLength.toNat = 2048 := rfl
  rw [length_frame]
  omega

end ConnectNcpHost.HostCommon.CallbackPath
