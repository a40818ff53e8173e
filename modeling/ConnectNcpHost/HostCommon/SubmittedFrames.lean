import ConnectNcpHost.Csp.ApiCommands
import ConnectNcpHost.Ota.Network

/-! # The frames of the bootloader server on the link

The server submits its frames with `emberMessageSend`, which encodes them for the NCP. While the
accepted responses stay in range, a frame has at most `102` bytes: it fits the short length prefix
and the command buffer. What the NCP reads is the request of the server byte by byte: frame control,
tag, the size or the index or the delay, and behind them the bytes the callback copied. -/

namespace ConnectNcpHost.HostCommon.SubmittedFrames

open ConnectNcpHost.Lib.Bytes ConnectNcpHost.Lib.Runs ConnectNcpHost.Stack.ByteUtilities
open ConnectNcpHost.Csp.Codec ConnectNcpHost.Csp.Variables ConnectNcpHost.Csp.ApiCommands
open ConnectNcpHost.HostCommon.CpcHost ConnectNcpHost.Ota.Protocol
open ConnectNcpHost.Ota.BootloaderServer ConnectNcpHost.Ota.Transition ConnectNcpHost.Ota.Frames
open ConnectNcpHost.Ota.SegmentBounds ConnectNcpHost.Ota.Network

variable {cfg : Config} {s : Server} {env : EventEnv} {r : Request} {m : EmberOutgoingMessage}

/-! ## What a request says -/

/-- The call that submits a frame. -/
def submission (m : EmberOutgoingMessage) : ApiCall :=
  .emberMessageSend m.destination m.endpoint m.tag m.length (some m.payload) m.options

/-- The number behind the tag. -/
def headerNumber (env : EventEnv) (s : Server) : Request → UInt32
  | .handshake => s.currentImageSizeOrBootloadTimeMs
  | .imageSegment => s.nextSegment
  | .bootloadRequest => bootloadDelay env.nowMs s

/-- The header of a request. -/
def header (env : EventEnv) (s : Server) (r : Request) : List UInt8 :=
  requestFrameControl r.commandId :: s.currentImageTagOrServerStatus ::
    lowHighBytes32 (headerNumber env s r)

/-- The bytes the callback copies for a segment; the other requests carry none. -/
def body (env : EventEnv) (s : Server) : Request → List UInt8
  | .imageSegment => (env.getImageSegment (segmentStartIndex s) (segmentEndIndex s)
      s.currentImageTagOrServerStatus).getD []
  | _ => []

/-- The callback copies as many bytes as it is asked for, where it copies any. -/
def CopiesLength (env : EventEnv) (s : Server) : Prop :=
  ∀ bytes ∈ env.getImageSegment (segmentStartIndex s) (segmentEndIndex s)
    s.currentImageTagOrServerStatus,
    bytes.length = (segmentEndIndex s).toNat - (segmentStartIndex s).toNat + 1

theorem length_header : (header env s r).length = 6 := rfl

/-- Two bytes and a number, stored one after the other. -/
theorem read_stored (m : Mem) (control tag : UInt8) (v : UInt32) :
    (emberStoreLowHighInt32u ((m.write 0 [control]).write 1 [tag]) 2 v).read 0 6 =
      control :: tag :: lowHighBytes32 v := by
  have hwrite : emberStoreLowHighInt32u ((m.write 0 [control]).write 1 [tag]) 2 v =
      m.write 0 (control :: tag :: lowHighBytes32 v) := by
    rw [emberStoreLowHighInt32u_eq]
    exact (congrArg (Memory.write · 2 (lowHighBytes32 v))
      (m.write_append 0 [control] [tag])).trans (m.write_append 0 [control, tag] _)
  rw [hwrite]
  exact Memory.read_write_same m 0 (control :: tag :: lowHighBytes32 v)

theorem read_header (h : IsFrame env s r m) : m.payload.read 0 6 = header env s r := by
  cases h with
  | handshake => exact read_stored _ _ _ _
  | imageSegment h => exact read_stored _ _ _ _
  | bootloadRequest => exact read_stored _ _ _ _

/-! ## The length of a frame -/

theorem toNat_length_segmentFrame {stack : Mem} {bytes : List UInt8}
    (h : InImage s (segmentStartIndex s) (segmentEndIndex s)) :
    (segmentFrame stack bytes s).length.toNat =
      6 + ((segmentEndIndex s).toNat - (segmentStartIndex s).toNat + 1) := by
  have hle := UInt32.le_iff_toNat_le.mp h.le
  have hlength := h.length_le
  have hn : maxSegmentPayloadLength.toNat = 96 := rfl
  have h6 : imageSegmentHeaderLength.toNat = 6 := rfl
  have hend := (segmentEndIndex s).toNat_lt
  show (imageSegmentHeaderLength + segmentEndIndex s - segmentStartIndex s + 1).toUInt16.toNat = _
  rw [UInt32.toNat_toUInt16, UInt32.toNat_add, UInt32.toNat_sub, UInt32.toNat_add, h6]
  simp only [UInt32.reduceToNat]
  omega

/-- **The bytes of a frame**: the header, and what the callback copied. -/
theorem read_of_isFrame (hinv : SegmentInv s) (hs : s.internalState = r.interval)
    (hcopy : CopiesLength env s) (hf : IsFrame env s r m) :
    m.length.toNat ≤ 102 ∧ m.payload.read 0 m.length.toNat = header env s r ++ body env s r := by
  have hheader := read_header hf
  cases hf with
  | handshake => exact ⟨show 6 ≤ 102 by decide, hheader⟩
  | bootloadRequest => exact ⟨show 6 ≤ 102 by decide, hheader⟩
  | @imageSegment bytes hb =>
    have hseg : requestOf s.internalState = some .imageSegment := by rw [hs]; rfl
    have hin := (inImage_iff (hinv.size hseg rfl)).mpr (hinv.next hseg)
    have hlength : (segmentFrame env.stack bytes s).length.toNat =
        6 + ((segmentEndIndex s).toNat - (segmentStartIndex s).toNat + 1) :=
      toNat_length_segmentFrame hin
    have hmax : 6 + ((segmentEndIndex s).toNat - (segmentStartIndex s).toNat + 1) ≤ 102 := hin.fits
    have hbody : body env s .imageSegment = bytes := by rw [body, hb, Option.getD_some]
    refine ⟨by omega, ?_⟩
    rw [hlength, ← hcopy bytes hb, Memory.read_add, hheader, hbody]
    exact congrArg (header env s .imageSegment ++ ·) (read_segmentFrame env.stack bytes s)

/-! ## On the link -/

/-- What the NCP finds in the command of a submission. -/
theorem items_submission (hf : IsFrame env s r m)
    (hread : m.payload.read 0 m.length.toNat = header env s r ++ body env s r) :
    (submission m).items = [.uint16 s.targetId, .uint8 emberAfPluginOtaUnicastBootloaderServerEndpoint,
      .uint8 0, .length m.length, .buffer (header env s r ++ body env s r),
      .uint8 unicastTxOptions] := by
  have hitems : (submission m).items = [.uint16 m.destination, .uint8 m.endpoint, .uint8 m.tag,
      .length m.length, .buffer (m.payload.read 0 m.length.toNat), .uint8 m.options] := rfl
  rw [hitems, hread]
  cases hf with
  | handshake => rfl
  | imageSegment h => rfl
  | bootloadRequest => rfl

/-- **Every frame of a transfer reaches the NCP byte by byte**, in both length modes: while the
accepted responses stay in range, what the server submits is encoded as a whole, and the NCP reads
the request of the state, to the target, with its tag and its number, and behind them exactly the
bytes the callback copied. -/
theorem understood_of_submitted (long : Bool) (apiCommandData : Mem) {i : Input} {s' : Server}
    {as : List Action} {status : EmberStatus} (hs : (ota cfg).Reach InRange s)
    (h : (ota cfg).step s i = some (s', as)) (hm : .messageSend m status ∈ as)
    (hcopy : ∀ env, i = .timerExpired env ∨ i = .eventActive env → CopiesLength env s) :
    ∃ env r, (i = .timerExpired env ∨ i = .eventActive env) ∧
      requestOf s.internalState = some r ∧ m.length.toNat = 6 + (body env s r).length ∧
      ∃ buffer length, (submission m).encode long apiCommandData = some (buffer, length) ∧
        length.toNat ≤ maxStackApiCommandSize ∧
        emberFetchHighLowInt16u buffer 0 = (submission m).commandId ∧
        itemsAt long buffer 2 ((submission m).items.map Item.kind) =
          [.uint16 s.targetId, .uint8 emberAfPluginOtaUnicastBootloaderServerEndpoint, .uint8 0,
            .length m.length, .buffer (header env s r ++ body env s r),
            .uint8 unicastTxOptions] := by
  obtain ⟨env, hi, hev⟩ := eventTrans_of_submits (trans_of_step h) rfl hm
  obtain ⟨r, hst, hf⟩ := isFrame_of_event hev hm
  obtain ⟨hmax, hread⟩ := read_of_isFrame (segmentInv_of_reach hs) hst (hcopy env hi) hf
  have hmode : (submission m).messageLength ≤ maxLength long :=
    hmax.trans (by cases long <;> decide)
  have hsize : (submission m).messageLength ≤ maxMessageLength :=
    hmax.trans (by decide)
  obtain ⟨hfits, buffer, length, hencode, hframe, hle⟩ :=
    exists_encode long apiCommandData (submission m) hmode hsize
  have hlength := congrArg List.length hread
  rw [Memory.length_read, List.length_append, length_header] at hlength
  refine ⟨env, r, hi, by rw [hst, requestOf_interval], hlength, buffer, length, hencode, hle, ?_⟩
  have hwhole : length.toNat = ((submission m).frame long).length := by
    rw [← hframe, Memory.length_read]
  rw [hwhole, ApiCall.frame, List.length_append, Memory.read_add] at hframe
  obtain ⟨hid, hitems⟩ := List.append_inj hframe (by rw [Memory.length_read])
  exact ⟨fetch_of_read16 hid, (itemsAt_eq hfits hitems).trans (items_submission hf hread)⟩

/-- The second segment of an image of 100 bytes, in the short mode. -/
theorem understood_of_submitted_last : ∃ (m : EmberOutgoingMessage) (env : EventEnv) (r : Request),
    m.length.toNat = 6 + (body env (transferServer 5 100 7 .segmentUnicastInterval 1) r).length ∧
      ∃ buffer length, (submission m).encode false (fun _ => 0) = some (buffer, length) ∧
        length.toNat ≤ maxStackApiCommandSize := by
  have hs : (ota defaultConfig).Reach InRange (transferServer 5 100 7 .segmentUnicastInterval 1) :=
    System.reach_of_exec_fst (openingRun 5 100 7 ++ segmentRun 5 100 7 0 ++
      [.incomingMessage (segmentResponse 5 respStatusOngoing 7 0)]) (.start rfl) (by decide +kernel)
  have hst : (ota defaultConfig).step (transferServer 5 100 7 .segmentUnicastInterval 1)
      (.timerExpired plainEnv) = some (_, [.getImageSegment 96 99 7, .messageSend _ emberSuccess]) :=
    rfl
  have hcopy : ∀ env, Input.timerExpired plainEnv = .timerExpired env ∨
      Input.timerExpired plainEnv = .eventActive env →
      CopiesLength env (transferServer 5 100 7 .segmentUnicastInterval 1) := by
    rintro env (h | h)
    · obtain rfl := Input.timerExpired.inj h
      intro bytes hb
      obtain rfl := Option.mem_some_iff.mp hb
      decide
    · cases h
  obtain ⟨env, r, -, -, hlength, buffer, length, hencode, hle, -⟩ :=
    understood_of_submitted false (fun _ => 0) hs hst (.tail _ (.head _)) hcopy
  exact ⟨_, env, r, hlength, buffer, length, hencode, hle⟩

end ConnectNcpHost.HostCommon.SubmittedFrames
