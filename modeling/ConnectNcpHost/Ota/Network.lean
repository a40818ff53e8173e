import ConnectNcpHost.Ota.SegmentBounds

/-! # One transfer over a network

The server, a client, and what is in flight between them: frames to the client, its responses, and
the sent callbacks the server awaits. Each may be delayed, overtaken or lost, whatever happens to the
others, and comes once at most: only the server sends a segment again. A submission may be refused,
and a frame that was delivered may be reported as not acknowledged. The client appends the payload of
the segment it expects next; what it answers is a parameter.

* `netTrans_of_step`: a step is a step of the server, a delivery to the client or a loss.
* `SessionInv`: the server keeps the parameters of the session, and every frame in flight carries
  a segment of the image (`sessionInv_of_reach`). -/

namespace ConnectNcpHost.Ota.Network

open ConnectNcpHost.Lib.Runs ConnectNcpHost.Lib.Chunks ConnectNcpHost.Stack.ByteUtilities
open ConnectNcpHost.Ota.Protocol ConnectNcpHost.Ota.BootloaderServer ConnectNcpHost.Ota.Transition
open ConnectNcpHost.Ota.Frames ConnectNcpHost.Ota.SegmentBounds

/-! ## Session and network -/

/-- A transfer: the target and the image, and the segment the client starts at. -/
structure Session where
  target : EmberNodeId
  imageTag : UInt8
  image : List UInt8
  start : UInt32
  target_ne : target ≠ emberNullNodeId
  length_pos : 0 < image.length
  length_le : image.length ≤ maximumImageSize.toNat
  start_lt : maxSegmentPayloadLength.toNat * start.toNat < image.length

def Session.imageSize (σ : Session) : UInt32 := UInt32.ofNat σ.image.length

/-- The client at the start holds the segments before the one it starts at. -/
def Session.client (σ : Session) : Assembler UInt8 :=
  ⟨σ.start.toNat, σ.image.take (maxSegmentPayloadLength.toNat * σ.start.toNat)⟩

/-- The server, the client and what is in flight. -/
structure Net where
  server : Server
  /-- frames whose sent callback has not come -/
  awaiting : List EmberOutgoingMessage
  /-- frames on their way to the client -/
  frames : List EmberOutgoingMessage
  /-- responses on their way to the server -/
  responses : List EmberIncomingMessage
  client : Assembler UInt8

inductive Label
  /-- the server handles an input that is not one of the three below -/
  | handler (i : Input)
  | messageSent (k : ℕ) (status : EmberStatus)
  | loseSent (k : ℕ)
  | deliverFrame (k : ℕ)
  | loseFrame (k : ℕ)
  | deliverResponse (k : ℕ)
  | loseResponse (k : ℕ)

/-- The frames `emberMessageSend` accepted. -/
def acceptedFrames (as : List Action) : List EmberOutgoingMessage :=
  as.filterMap fun a => match a with
    | .messageSend m status => if status = emberSuccess then some m else none
    | _ => none

/-- The server has handled an input. -/
def Net.ran (n : Net) (o : Outcome) : Net :=
  { n with
    server := o.server
    awaiting := n.awaiting ++ acceptedFrames o.actions
    frames := n.frames ++ acceptedFrames o.actions }

/-- The bytes of the image in a segment frame. -/
def segmentPayload (m : EmberOutgoingMessage) : List UInt8 :=
  m.payload.read imageSegmentPayloadOffset (m.length.toNat - imageSegmentHeaderLength.toNat)

/-- The client has received a frame. -/
def received (a : Assembler UInt8) (m : EmberOutgoingMessage) : Assembler UInt8 :=
  if Carries m .imageSegment then a.accept (segmentIndex m).toNat (segmentPayload m) else a

/-- What a client answers to a frame it has received. -/
abbrev Reply : Type := Assembler UInt8 → EmberOutgoingMessage → Option EmberIncomingMessage

/-- The client has received a frame, and answers it. -/
def Net.answered (n : Net) (reply : Reply) (m : EmberOutgoingMessage) : Net :=
  { n with
    client := received n.client m
    responses := n.responses ++ (reply (received n.client m) m).toList }

/-- The server of `s`, asked for the image distribution of the session. -/
def Session.starts (cfg : Config) (σ : Session) (s s' : Server) : Prop :=
  ∃ as, (ota cfg).step s (.initiateImageDistribution σ.target σ.imageSize σ.imageTag) =
    some (s', as) ∧ .returned .success ∈ as

/-- **The network of a session**, from the `Initiate` that starts it on. Nothing is in flight
then. -/
def network (cfg : Config) (σ : Session) (reply : Reply) : System Net Label Action where
  start n := ∃ s s', σ.starts cfg s s' ∧ n = ⟨s', [], [], [], σ.client⟩
  step n
    | .handler i => (handle cfg n.server i).map fun o => (n.ran o, o.actions)
    | .messageSent k status => do
      let m ← n.awaiting[k]?
      let o ← handle cfg n.server (.messageSent status m)
      return ({ n with awaiting := n.awaiting.eraseIdx k }.ran o, o.actions)
    | .loseSent k => some ({ n with awaiting := n.awaiting.eraseIdx k }, [])
    | .deliverFrame k => do
      let m ← n.frames[k]?
      return ({ n with frames := n.frames.eraseIdx k }.answered reply m, [])
    | .loseFrame k => some ({ n with frames := n.frames.eraseIdx k }, [])
    | .deliverResponse k => do
      let r ← n.responses[k]?
      let o ← handle cfg n.server (.incomingMessage r)
      return ({ n with responses := n.responses.eraseIdx k }.ran o, o.actions)
    | .loseResponse k => some ({ n with responses := n.responses.eraseIdx k }, [])

/-- No other process: an `Initiate` call comes while the server is busy, a message that is not in
flight here comes from elsewhere, and so does a sent callback. -/
def OneProcess (n : Net) : Label → Prop
  | .handler (.initiateImageDistribution _ _ _) => n.server.internalState ≠ .idle
  | .handler (.initiateRequestTargetBootload _ _ _ _) => n.server.internalState ≠ .idle
  | .handler (.incomingMessage m) => ¬ FromTarget n.server m
  | .handler (.messageSent _ m) => m.endpoint ≠ emberAfPluginOtaUnicastBootloaderServerEndpoint
  | _ => True

instance (n : Net) (l : Label) : Decidable (OneProcess n l) := by
  rcases l with (_ | _ | _ | _ | _ | _ | _) | _ | _ | _ | _ | _ | _ <;> unfold OneProcess <;>
    infer_instance

/-! ## What a step does -/

variable {cfg : Config} {σ : Session} {reply : Reply} {s : Server} {n n' : Net}

/-- Something in flight is gone, and nothing else has changed. -/
structure Drops (n n' : Net) : Prop where
  server : n'.server = n.server
  client : n'.client = n.client
  frames : n'.frames ⊆ n.frames
  responses : n'.responses ⊆ n.responses

theorem Drops.refl (n : Net) : Drops n n := ⟨rfl, rfl, List.Subset.refl _, List.Subset.refl _⟩

/-- The inputs the server can get in one process. -/
def Comes (n : Net) : Input → Prop
  | .initiateImageDistribution _ _ _ => n.server.internalState ≠ .idle
  | .initiateRequestTargetBootload _ _ _ _ => n.server.internalState ≠ .idle
  | .incomingMessage m => m ∈ n.responses ∨ ¬ FromTarget n.server m
  | _ => True

/-- The input of the server in a step. -/
def Label.input (n : Net) : Label → Option Input
  | .handler i => some i
  | .messageSent k status => n.awaiting[k]?.map (.messageSent status)
  | .deliverResponse k => n.responses[k]?.map .incomingMessage
  | _ => none

/-- The outcomes of a step. -/
inductive NetTrans (cfg : Config) (reply : Reply) (n : Net) (l : Label) : Net → List Action → Prop
  | ran {n1 : Net} {i : Input} {o : Outcome} (hd : Drops n n1) (hl : l.input n = some i)
      (hi : Comes n i) (ht : Trans cfg n.server i o) : NetTrans cfg reply n l (n1.ran o) o.actions
  | delivered {n1 : Net} {m : EmberOutgoingMessage} (hd : Drops n n1) (hl : l.input n = none)
      (hm : m ∈ n.frames) : NetTrans cfg reply n l (n1.answered reply m) []
  | lost {n1 : Net} (hd : Drops n n1) (hl : l.input n = none) : NetTrans cfg reply n l n1 []

theorem comes_of_oneProcess {i : Input} (h : OneProcess n (.handler i)) : Comes n i := by
  cases i with
  | incomingMessage m => exact .inr h
  | initiateImageDistribution _ _ _ => exact h
  | initiateRequestTargetBootload _ _ _ _ => exact h
  | _ => trivial

theorem netTrans_of_step {l : Label} {as : List Action} (hl : OneProcess n l)
    (h : (network cfg σ reply).step n l = some (n', as)) : NetTrans cfg reply n l n' as := by
  have hsub : ∀ {α : Type} (xs : List α) (k : ℕ), xs.eraseIdx k ⊆ xs :=
    fun xs k => List.eraseIdx_subset
  cases l with
  | handler i =>
    simp only [network, Option.map_eq_some_iff, Prod.mk.injEq] at h
    obtain ⟨o, ho, rfl, rfl⟩ := h
    exact .ran (.refl n) rfl (comes_of_oneProcess hl) (trans_of_handle ho)
  | messageSent k status =>
    simp only [network, Option.bind_eq_bind, Option.bind_eq_some_iff, Option.pure_def,
      Option.some.injEq, Prod.mk.injEq] at h
    obtain ⟨m, hm, o, ho, rfl, rfl⟩ := h
    exact .ran (i := .messageSent status m) ⟨rfl, rfl, List.Subset.refl _, List.Subset.refl _⟩
      (by rw [Label.input, hm]; rfl) trivial (trans_of_handle ho)
  | deliverResponse k =>
    simp only [network, Option.bind_eq_bind, Option.bind_eq_some_iff, Option.pure_def,
      Option.some.injEq, Prod.mk.injEq] at h
    obtain ⟨r, hr, o, ho, rfl, rfl⟩ := h
    exact .ran (i := .incomingMessage r) ⟨rfl, rfl, List.Subset.refl _, hsub _ k⟩
      (by rw [Label.input, hr]; rfl) (.inl (List.mem_of_getElem? hr)) (trans_of_handle ho)
  | deliverFrame k =>
    simp only [network, Option.bind_eq_bind, Option.bind_eq_some_iff, Option.pure_def,
      Option.some.injEq, Prod.mk.injEq] at h
    obtain ⟨m, hm, rfl, rfl⟩ := h
    exact .delivered ⟨rfl, rfl, hsub _ k, List.Subset.refl _⟩ rfl (List.mem_of_getElem? hm)
  | loseSent k =>
    obtain ⟨rfl, rfl⟩ := by simpa only [network, Option.some.injEq, Prod.mk.injEq] using h
    exact .lost ⟨rfl, rfl, List.Subset.refl _, List.Subset.refl _⟩ rfl
  | loseFrame k =>
    obtain ⟨rfl, rfl⟩ := by simpa only [network, Option.some.injEq, Prod.mk.injEq] using h
    exact .lost ⟨rfl, rfl, hsub _ k, List.Subset.refl _⟩ rfl
  | loseResponse k =>
    obtain ⟨rfl, rfl⟩ := by simpa only [network, Option.some.injEq, Prod.mk.injEq] using h
    exact .lost ⟨rfl, rfl, List.Subset.refl _, hsub _ k⟩ rfl

/-! ## The parameters of the transfer -/

theorem Session.toNat_imageSize (σ : Session) : σ.imageSize.toNat = σ.image.length := by
  have h := σ.length_le
  have hm : maximumImageSize.toNat = 6291264 := by rw [maximumImageSize_eq]; rfl
  rw [Session.imageSize, UInt32.toNat_ofNat']
  exact Nat.mod_eq_of_lt (by omega)

theorem Session.imageSizeOk (σ : Session) : ImageSizeOk σ.imageSize := by
  have hpos := σ.length_pos
  constructor
  · intro h0
    have := σ.toNat_imageSize
    rw [h0] at this
    exact absurd this (by show 0 ≠ _; omega)
  · rw [UInt32.le_iff_toNat_le, σ.toNat_imageSize]
    exact σ.length_le

/-- The server runs the transfer of the session. -/
structure RunsSession (σ : Session) (s : Server) : Prop where
  target : s.targetId = σ.target
  size : s.currentImageSizeOrBootloadTimeMs = σ.imageSize
  tag : s.currentImageTagOrServerStatus = σ.imageTag

theorem RunsSession.failed {r : Request} {o : Outcome} (h : RunsSession σ s)
    (ho : Failed cfg r s o) : RunsSession σ o.server := by
  cases ho <;> exact ⟨h.target, h.size, h.tag⟩

/-- Only an `Initiate` call changes the parameters. -/
theorem RunsSession.step {i : Input} {o : Outcome} (h : RunsSession σ n.server) (hi : Comes n i)
    (ht : Trans cfg n.server i o) : RunsSession σ o.server := by
  have hevent : ∀ {env}, EventTrans cfg n.server env o → RunsSession σ o.server := by
    intro env ht
    cases ht with
    | @submitted r _ _ _ _ => cases r <;> exact ⟨h.target, h.size, h.tag⟩
    | @notSubmitted r _ o _ _ _ ho =>
      have h1 := RunsSession.failed (σ := σ) (by exact ⟨h.target, h.size, h.tag⟩) ho
      exact h1
    | timedOut _ ho => exact RunsSession.failed (by exact ⟨h.target, h.size, h.tag⟩) ho
    | _ => exact ⟨h.target, h.size, h.tag⟩
  cases ht with
  | call ht =>
    cases ht with
    | imageStarted hs _ _ _ => exact absurd hs hi
    | bootloadStarted hs _ => exact absurd hs hi
    | _ => exact ⟨h.target, h.size, h.tag⟩
  | message ht =>
    cases ht with
    | handshakeAccepted _ _ ho => exact RunsSession.failed (by exact ⟨h.target, h.size, h.tag⟩) ho
    | _ => exact ⟨h.target, h.size, h.tag⟩
  | sent ht =>
    cases ht with
    | failed _ _ _ he ho =>
      refine RunsSession.failed ?_ ho
      cases he <;> exact ⟨h.target, h.size, h.tag⟩
    | _ => exact ⟨h.target, h.size, h.tag⟩
  | timer _ ht => exact hevent ht
  | timerIgnored _ => exact h
  | event _ ht => exact hevent ht

/-! ## Submitted frames -/

theorem messageSend_not_mem_prelude {m : EmberOutgoingMessage} {status : EmberStatus}
    (r : Request) : .messageSend m status ∉ r.prelude s := by
  cases r <;> simp [Request.prelude, segmentCallback]

theorem isFrame_of_event {env : EventEnv} {o : Outcome} {m : EmberOutgoingMessage}
    {status : EmberStatus} (ht : EventTrans cfg s env o) (h : .messageSend m status ∈ o.actions) :
    ∃ r : Request, s.internalState = r.interval ∧ IsFrame env s r m := by
  cases ht with
  | @submitted r m' hs hf _ =>
    obtain ⟨rfl, -⟩ : m = m' ∧ status = emberSuccess := by
      simpa [messageSend_not_mem_prelude] using h
    exact ⟨r, hs, hf⟩
  | @notSubmitted r m' o hs hf _ ho =>
    obtain ⟨rfl, -⟩ : m = m' ∧ status = env.sendStatus := by
      simpa [messageSend_not_mem_prelude, not_mem_of_failed (a := .messageSend m status) rfl ho]
        using h
    exact ⟨r, hs, hf⟩
  | underflow _ => simp [segmentCallback] at h
  | timedOut _ ho => exact absurd h (not_mem_of_failed rfl ho)
  | idle _ => simp at h

/-- What the surroundings answer, where the event handler runs. -/
def Label.env (l : Label) : Option EventEnv :=
  match l with
  | .handler (.timerExpired env) | .handler (.eventActive env) => some env
  | _ => none

/-- **A frame is submitted by the event handler**, in the interval state of its request. -/
theorem isFrame_of_trans {l : Label} {i : Input} {o : Outcome} {m : EmberOutgoingMessage}
    {status : EmberStatus} (hl : l.input n = some i) (ht : Trans cfg s i o)
    (h : .messageSend m status ∈ o.actions) :
    ∃ env, ∃ r : Request, l.env = some env ∧ s.internalState = r.interval ∧ IsFrame env s r m := by
  obtain ⟨env, hi, hev⟩ := eventTrans_of_submits ht rfl h
  obtain ⟨r, hs, hf⟩ := isFrame_of_event hev h
  have henv : l.env = some env := by
    rcases hi with rfl | rfl <;> cases l <;> simp_all [Label.input, Label.env]
  exact ⟨env, r, henv, hs, hf⟩

theorem mem_acceptedFrames {as : List Action} {m : EmberOutgoingMessage} :
    m ∈ acceptedFrames as ↔ .messageSend m emberSuccess ∈ as := by
  unfold acceptedFrames
  rw [List.mem_filterMap]
  constructor
  · rintro ⟨a, ha, h⟩
    cases a with
    | messageSend m' status =>
      obtain ⟨rfl, rfl⟩ : status = emberSuccess ∧ m' = m := by simpa using h
      exact ha
    | _ => cases h
  · exact fun h => ⟨_, h, by simp⟩

/-! ## The invariant -/

/-- The frame of a segment of the image, short enough for the stack. -/
structure SegmentOf (σ : Session) (m : EmberOutgoingMessage) : Prop where
  index : maxSegmentPayloadLength.toNat * (segmentIndex m).toNat < σ.image.length
  length : m.length.toNat = imageSegmentHeaderLength.toNat +
    min maxSegmentPayloadLength.toNat
      (σ.image.length - maxSegmentPayloadLength.toNat * (segmentIndex m).toNat)

/-- What a client sends as long as it accepts the handshake with the start index of the session, and
acknowledges no segment behind the last but one. -/
structure StaysInImage (σ : Session) (r : EmberIncomingMessage) : Prop where
  handshake : emOtaUnicastBootloaderProtocolCommandId r.payload = commandIdHandshakeResponse ∨
      emOtaUnicastBootloaderProtocolCommandId r.payload = commandIdExtHandshakeResponse →
    respStatus r = respStatusOngoing →
    maxSegmentPayloadLength.toNat * (startSegment r).toNat < σ.image.length
  segment : emOtaUnicastBootloaderProtocolCommandId r.payload = commandIdImageSegmentResponse →
    respStatus r = respStatusOngoing →
    maxSegmentPayloadLength.toNat * ((respIndex r).toNat + 1) < σ.image.length

/-- **Invariant.** The server runs the transfer, and what is in flight stays in the image: the frames
carry segments of it, and every response answers such a frame. -/
structure SessionInv (σ : Session) (reply : Reply) (n : Net) : Prop where
  runs : RunsSession σ n.server
  segment : SegmentInv n.server
  frames : ∀ m ∈ n.frames, Carries m .imageSegment → SegmentOf σ m
  responses : ∀ r ∈ n.responses, ∃ a m, (Carries m .imageSegment → SegmentOf σ m) ∧
    reply a m = some r

/-- The client keeps what it sends in the image. -/
def KeepsInImage (σ : Session) (reply : Reply) : Prop :=
  ∀ a m r, (Carries m .imageSegment → SegmentOf σ m) → reply a m = some r → StaysInImage σ r

/-- The segment that is due is a range of the image. -/
theorem RunsSession.range (hr : RunsSession σ s) (h : SegmentInv s)
    (hs : s.internalState = .segmentUnicastInterval) :
    96 * s.nextSegment.toNat < σ.image.length ∧
      (segmentStartIndex s).toNat = 96 * s.nextSegment.toNat ∧
      (segmentEndIndex s).toNat = min (96 * s.nextSegment.toNat + 95) (σ.image.length - 1) := by
  have hreq : requestOf s.internalState = some .imageSegment := by rw [hs]; rfl
  have hsize := h.size hreq rfl
  have hle := hsize.le
  have hlt := lt_getTotalSegmentsCount_iff.mp (h.next hreq)
  have hend := toNat_segmentEndIndex hsize hlt
  have hstart := toNat_segmentStartIndex (s := s) (by omega)
  rw [hr.size, σ.toNat_imageSize] at hlt hend
  exact ⟨hlt, hstart, hend⟩

/-- A segment that `unicastNextSegment` submits is one of the image. -/
theorem segmentOf_of_isFrame {env : EventEnv} {m : EmberOutgoingMessage} (hr : RunsSession σ s)
    (h : SegmentInv s) (hs : s.internalState = .segmentUnicastInterval)
    (hf : IsFrame env s .imageSegment m) : SegmentOf σ m := by
  have hn : maxSegmentPayloadLength.toNat = 96 := rfl
  obtain ⟨hlt, hstart, hend⟩ := hr.range h hs
  have hle : σ.image.length ≤ maximumImageSize.toNat := σ.length_le
  have hmax : maximumImageSize.toNat < 4294967296 := UInt32.toNat_lt _
  cases hf with
  | @imageSegment bytes _ =>
    have hidx := segmentIndex_segmentFrame env.stack bytes s
    refine ⟨by rw [hidx]; exact hlt, ?_⟩
    have hlen : (imageSegmentHeaderLength + segmentEndIndex s - segmentStartIndex s + 1).toNat =
        6 + min 96 (σ.image.length - 96 * s.nextSegment.toNat) := by
      rw [UInt32.toNat_add, UInt32.toNat_sub, UInt32.toNat_add, hstart, hend]
      have h6 : imageSegmentHeaderLength.toNat = 6 := rfl
      rw [h6]
      simp only [UInt32.reduceToNat]
      omega
    rw [hidx, hn]
    show (imageSegmentHeaderLength + segmentEndIndex s - segmentStartIndex s + 1).toUInt16.toNat = _
    rw [UInt32.toNat_toUInt16, hlen]
    exact Nat.mod_eq_of_lt (by omega)

/-- What comes from the client takes the server to no segment behind the image. -/
theorem inRange_of_comes {i : Input} (hk : KeepsInImage σ reply) (h : SessionInv σ reply n)
    (hi : Comes n i) : InRange n.server i := by
  cases i with
  | incomingMessage m =>
    have hlt : ∀ k : UInt32, maxSegmentPayloadLength.toNat * k.toNat < σ.image.length →
        k < getTotalSegmentsCount n.server := fun k hk => by
      rw [lt_getTotalSegmentsCount_iff, h.runs.size, σ.toNat_imageSize]
      exact hk
    rcases hi with hm | hf
    · obtain ⟨a, m', hm', ha⟩ := h.responses m hm
      have hin := hk a m' m hm' ha
      refine ⟨fun hacc hst => hlt _ (hin.handshake hacc.command hst), fun hacc hst _ he => ?_⟩
      have h1 := hin.segment hacc.command hst
      have hbelow : maxSegmentPayloadLength.toNat * (respIndex m).toNat < σ.image.length :=
        lt_of_le_of_lt (Nat.mul_le_mul_left _ (Nat.le_succ _)) h1
      have hsucc := toNat_add_one (hlt _ hbelow)
      exact absurd he (UInt32.ne_of_lt (hlt _ (by rw [hsucc]; exact h1)))
    · exact ⟨fun hacc => absurd hacc.fromTarget hf, fun hacc => absurd hacc.fromTarget hf⟩
  | _ => trivial

theorem sessionInv_start {s' : Server} (h : σ.starts cfg s s') :
    SessionInv σ reply ⟨s', [], [], [], σ.client⟩ := by
  obtain ⟨as, hst, hret⟩ := h
  have ht := trans_of_step hst
  generalize ho : (⟨s', as⟩ : Outcome) = o at ht
  cases ht with
  | call ht =>
    cases ht with
    | @refused _ st _ hr =>
      obtain ⟨-, rfl⟩ := Outcome.mk.inj ho
      obtain rfl : EmberAfOtaUnicastBootloaderStatus.success = st := by simpa using hret
      rcases hr with ⟨hb, -⟩ | hb <;> cases hb
    | imageStarted _ _ _ _ =>
      obtain ⟨rfl, -⟩ := Outcome.mk.inj ho
      refine ⟨⟨rfl, rfl, rfl⟩, ⟨fun _ _ => σ.imageSizeOk, fun h => ?_, fun h => ?_⟩, ?_, ?_⟩
      · cases h
      · rcases h with h | h <;> cases h
      · exact fun m hm => absurd hm List.not_mem_nil
      · exact fun r hr => absurd hr List.not_mem_nil

theorem SessionInv.drops (h : SessionInv σ reply n) (hd : Drops n n') : SessionInv σ reply n' where
  runs := hd.server ▸ h.runs
  segment := hd.server ▸ h.segment
  frames m hm := h.frames m (hd.frames hm)
  responses r hr := h.responses r (hd.responses hr)

theorem sessionInv_step {l : Label} {as : List Action} (hk : KeepsInImage σ reply)
    (h : SessionInv σ reply n) (ht : NetTrans cfg reply n l n' as) : SessionInv σ reply n' := by
  cases ht with
  | lost hd _ => exact h.drops hd
  | @delivered n1 m hd _ hm =>
    have h1 := h.drops hd
    refine ⟨h1.runs, h1.segment, h1.frames, fun r hr => ?_⟩
    rcases List.mem_append.mp hr with hr | hr
    · exact h1.responses r hr
    · exact ⟨_, m, h.frames m hm, Option.mem_toList.mp hr⟩
  | @ran n1 i o hd hl hi ht =>
    have h1 := h.drops hd
    refine ⟨h.runs.step hi ht, segmentInv_step h.segment (inRange_of_comes hk h hi) ht,
      fun m hm hc => ?_, h1.responses⟩
    rcases List.mem_append.mp hm with hm | hm
    · exact h1.frames m hm hc
    · obtain ⟨env, r, -, hs, hf⟩ := isFrame_of_trans hl ht (mem_acceptedFrames.mp hm)
      obtain rfl := (carries_of_isFrame hf).eq hc
      exact segmentOf_of_isFrame h.runs h.segment hs hf

/-- **The session keeps its parameters, and what is in flight stays in the image.** -/
theorem sessionInv_of_reach {ok : Net → Label → Prop} (hk : KeepsInImage σ reply)
    (hok : ∀ n l, ok n l → OneProcess n l) (h : (network cfg σ reply).Reach ok n) :
    SessionInv σ reply n := by
  refine System.Reach.invariant (fun n hn => ?_) (fun n l n' as _ h hl hst => ?_) h
  · obtain ⟨s, s', hs, rfl⟩ := hn
    exact sessionInv_start hs
  · exact sessionInv_step hk h (netTrans_of_step (hok n l hl) hst)

/-! ## Responses of a client -/

/-- The response accepts the handshake, with the start index of the session. -/
structure AcceptsImage (σ : Session) (r : EmberIncomingMessage) : Prop where
  command : emOtaUnicastBootloaderProtocolCommandId r.payload = commandIdHandshakeResponse ∨
    emOtaUnicastBootloaderProtocolCommandId r.payload = commandIdExtHandshakeResponse
  status : respStatus r = respStatusOngoing
  start : startSegment r = σ.start

/-- The response answers the segment `m` with this status. -/
structure AnswersSegment (m : EmberOutgoingMessage) (status : UInt8) (r : EmberIncomingMessage) :
    Prop where
  command : emOtaUnicastBootloaderProtocolCommandId r.payload = commandIdImageSegmentResponse
  status : respStatus r = status
  index : respIndex r = segmentIndex m

theorem AcceptsImage.staysInImage {r : EmberIncomingMessage} (h : AcceptsImage σ r) :
    StaysInImage σ r where
  handshake _ _ := by rw [h.start]; exact σ.start_lt
  segment hc := by rcases h.command with h | h <;> exact absurd (h.symm.trans hc) (by decide)

theorem AnswersSegment.not_handshake {m : EmberOutgoingMessage} {status : UInt8}
    {r : EmberIncomingMessage} (h : AnswersSegment m status r) :
    ¬ (emOtaUnicastBootloaderProtocolCommandId r.payload = commandIdHandshakeResponse ∨
      emOtaUnicastBootloaderProtocolCommandId r.payload = commandIdExtHandshakeResponse) := by
  rw [h.command]
  decide

theorem acceptsImage_extHandshakeResponse (σ : Session) :
    AcceptsImage σ (extHandshakeResponse σ.target respStatusOngoing σ.imageTag σ.start) :=
  ⟨.inr commandId_extHandshakeResponse, respStatus_extHandshakeResponse,
    startSegment_extHandshakeResponse⟩

theorem answersSegment_segmentResponse (source : EmberNodeId) (m : EmberOutgoingMessage)
    {status : UInt8} (tag : UInt8) (h : status ∈ segmentStatuses) :
    AnswersSegment m status (segmentResponse source status tag (segmentIndex m)) :=
  ⟨commandId_segmentResponse h, respStatus_segmentResponse h, respIndex_response⟩

/-- A response accepted in this step was in flight. -/
theorem mem_responses_of_input {l : Label} {r : EmberIncomingMessage} (hl : OneProcess n l)
    (h : l.input n = some (.incomingMessage r)) (hr : FromTarget n.server r) : r ∈ n.responses := by
  cases l with
  | handler i =>
    obtain rfl : i = .incomingMessage r := by simpa [Label.input] using h
    exact absurd hr hl
  | deliverResponse k =>
    obtain ⟨r', hr', he⟩ := by simpa only [Label.input, Option.map_eq_some_iff] using h
    cases he
    exact List.mem_of_getElem? hr'
  | messageSent k status =>
    obtain ⟨m, -, he⟩ := by simpa only [Label.input, Option.map_eq_some_iff] using h
    cases he
  | _ => cases h

/-! ## Runs of a session -/

/-- The server after the first `Initiate`. -/
def Session.started (σ : Session) : Server :=
  transferServer σ.target σ.imageSize σ.imageTag .handshakeInterval 0

theorem Session.starts_init (cfg : Config) (σ : Session) : σ.starts cfg Server.init σ.started := by
  have h : ¬ (emberNullNodeId = σ.target ∨ σ.imageSize = 0 ∨ σ.imageSize > maximumImageSize) := by
    obtain ⟨h0, hm⟩ := σ.imageSizeOk
    rintro (h | h | h)
    · exact σ.target_ne h.symm
    · exact h0 h
    · exact UInt32.not_lt.mpr hm h
  refine ⟨[.pthreadCreate, .timerfdCreate, .timerfdSettime 1, .returned .success], ?_, by simp⟩
  simp only [ota, handle, emberAfPluginOtaUnicastBootloaderServerInitiateImageDistribution,
    Server.serverIsIdle, if_neg h]
  rfl

/-- The network at the start of a run. -/
theorem reach_network_started {ok : Net → Label → Prop} (cfg : Config) (σ : Session)
    (reply : Reply) : (network cfg σ reply).Reach ok ⟨σ.started, [], [], [], σ.client⟩ :=
  .start ⟨_, _, σ.starts_init cfg, rfl⟩

/-- The image distribution completes with `st`. -/
def reports (st : EmberAfOtaUnicastBootloaderStatus) (as : List Action) : Bool :=
  as.any fun a => match a with
    | .imageDistributionComplete st' => st' = st
    | _ => false

theorem mem_of_reports {st : EmberAfOtaUnicastBootloaderStatus} {as : List Action}
    (h : reports st as = true) : .imageDistributionComplete st ∈ as := by
  obtain ⟨a, ha, h⟩ := List.any_eq_true.mp h
  cases a with
  | imageDistributionComplete st' => exact of_decide_eq_true h ▸ ha
  | _ => cases h

/-- Submission of a frame, its delivery, and the sent callback. -/
def attempt (env : EventEnv) : List Label :=
  [.handler (.timerExpired env), .deliverFrame 0, .messageSent 0 emberSuccess]

/-- A run to a report: the inputs before the last step, and the report in the last. -/
theorem exists_report (ok : Net → Label → Prop) [∀ n l, Decidable (ok n l)] (cfg : Config)
    (σ : Session) (reply : Reply) (ls : List Label) (l : Label)
    (st : EmberAfOtaUnicastBootloaderStatus)
    (h : ((network cfg σ reply).exec ok ⟨σ.started, [], [], [], σ.client⟩ ls).map
      (fun r => (decide (ok r.1 l), ((network cfg σ reply).step r.1 l).map fun r' => reports st r'.2)) =
        some (true, some true)) :
    ∃ n n' as, (network cfg σ reply).Reach ok n ∧ ok n l ∧
      (network cfg σ reply).step n l = some (n', as) ∧ .imageDistributionComplete st ∈ as := by
  obtain ⟨n, hn, hb⟩ := System.exists_reach_of_exec ls
    (fun n => (decide (ok n l), ((network cfg σ reply).step n l).map fun r' => reports st r'.2))
    (reach_network_started cfg σ reply) h
  obtain ⟨hl, hst⟩ := Prod.mk.inj hb
  obtain ⟨⟨n', as⟩, hst, hr⟩ := Option.map_eq_some_iff.mp hst
  exact ⟨n, n', as, hn, of_decide_eq_true hl, hst, mem_of_reports hr⟩

end ConnectNcpHost.Ota.Network
