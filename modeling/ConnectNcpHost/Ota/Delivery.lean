import ConnectNcpHost.Ota.Network

/-! # A transfer that succeeds has delivered the image

A conforming client and an image-segment callback that returns the requested bytes. Every segment
frame in flight carries the chunk of the image its index says, and the client holds a prefix of
the image (`DeliveryInv`). A COMPLETED response is sent by a client that holds the whole image, so
SUCCESS means delivery, whatever was lost, delayed or submitted again by the server
(`delivered_of_success`). -/

namespace ConnectNcpHost.Ota.Delivery

open ConnectNcpHost.Lib.Runs ConnectNcpHost.Lib.Chunks ConnectNcpHost.Ota.Protocol
open ConnectNcpHost.Ota.BootloaderServer ConnectNcpHost.Ota.Transition ConnectNcpHost.Ota.Frames
open ConnectNcpHost.Ota.SegmentBounds ConnectNcpHost.Ota.Network

variable {cfg : Config} {σ : Session} {s : Server} {n n' : Net}

/-! ## The client -/

/-- What a conforming client answers to the frame `m` once it has received it: ONGOING to a segment it
has, where there is more to come; COMPLETED once it holds as many bytes as the image has; OUT_OF_SEQ
to a segment behind the one it expects. -/
inductive Answers (σ : Session) (a : Assembler UInt8) (m : EmberOutgoingMessage)
    (r : EmberIncomingMessage) : Prop
  | handshake (hm : Carries m .handshake) (hr : AcceptsImage σ r)
  | ongoing (hm : Carries m .imageSegment) (hk : (segmentIndex m).toNat < a.expected)
      (hmore : maxSegmentPayloadLength.toNat * ((segmentIndex m).toNat + 1) < σ.image.length)
      (hr : AnswersSegment m respStatusOngoing r)
  | completed (hm : Carries m .imageSegment) (hk : (segmentIndex m).toNat < a.expected)
      (hfull : a.held.length = σ.image.length) (hr : AnswersSegment m respStatusCompleted r)
  | outOfSeq (hm : Carries m .imageSegment) (hk : a.expected < (segmentIndex m).toNat)
      (hr : AnswersSegment m respStatusOutOfSeq r)

/-- A conforming client. -/
structure ConformingClient (σ : Session) where
  reply : Reply
  answers : ∀ {a m r}, reply a m = some r → Answers σ a m r

theorem keepsInImage_client (c : ConformingClient σ) : KeepsInImage σ c.reply := by
  intro a m r _ ha
  cases c.answers ha with
  | handshake _ hr => exact hr.staysInImage
  | ongoing _ _ hmore hr =>
    exact ⟨fun hc => absurd hc hr.not_handshake, fun _ _ => by rw [hr.index]; exact hmore⟩
  | completed _ _ _ hr =>
    refine ⟨fun hc => absurd hc hr.not_handshake, fun _ hs => ?_⟩
    exact absurd (hr.status.symm.trans hs) (by decide)
  | outOfSeq _ _ hr =>
    refine ⟨fun hc => absurd hc hr.not_handshake, fun _ hs => ?_⟩
    exact absurd (hr.status.symm.trans hs) (by decide)

/-! ## The callback -/

/-- The bytes `startIndex..endIndex` of the image. -/
def imageBytes (σ : Session) (startIndex endIndex : UInt32) : List UInt8 :=
  (σ.image.drop startIndex.toNat).take (endIndex.toNat + 1 - startIndex.toNat)

/-- The image-segment callback copies the requested bytes, where it copies any. -/
def CopiesImage (σ : Session) (s : Server) (env : EventEnv) : Prop :=
  ∀ bytes ∈ env.getImageSegment (segmentStartIndex s) (segmentEndIndex s)
    s.currentImageTagOrServerStatus, bytes = imageBytes σ (segmentStartIndex s) (segmentEndIndex s)

instance (σ : Session) (s : Server) (env : EventEnv) : Decidable (CopiesImage σ s env) := by
  unfold CopiesImage; infer_instance

/-- One process, with a callback that copies the image. -/
def Honest (σ : Session) (n : Net) (l : Label) : Prop :=
  OneProcess n l ∧ ∀ env ∈ l.env, CopiesImage σ n.server env

instance (σ : Session) (n : Net) (l : Label) : Decidable (Honest σ n l) := by
  unfold Honest; infer_instance

/-- The bytes requested for the next segment are a chunk of the image. -/
theorem imageBytes_eq_chunk (hr : RunsSession σ s) (h : SegmentInv s)
    (hs : s.internalState = .segmentUnicastInterval) :
    imageBytes σ (segmentStartIndex s) (segmentEndIndex s) =
      chunk maxSegmentPayloadLength.toNat σ.image s.nextSegment.toNat := by
  have hn : maxSegmentPayloadLength.toNat = 96 := rfl
  obtain ⟨hlt, hstart, hend⟩ := hr.range h hs
  rw [imageBytes, chunk, hstart, hend, hn]
  refine (List.take_eq_take_iff).mpr ?_
  rw [List.length_drop]
  omega

/-- **A segment frame carries the chunk of the image its index says.** -/
theorem segmentPayload_eq {env : EventEnv} {m : EmberOutgoingMessage} (hr : RunsSession σ s)
    (h : SegmentInv s) (hs : s.internalState = .segmentUnicastInterval)
    (hc : CopiesImage σ s env) (hf : IsFrame env s .imageSegment m) :
    segmentPayload m = chunk maxSegmentPayloadLength.toNat σ.image (segmentIndex m).toNat := by
  have hseg := segmentOf_of_isFrame hr h hs hf
  cases hf with
  | @imageSegment bytes hb =>
    have hbytes := (hc bytes hb).trans (imageBytes_eq_chunk hr h hs)
    rw [segmentIndex_segmentFrame, segmentPayload, hseg.length, segmentIndex_segmentFrame,
      Nat.add_sub_cancel_left, ← length_chunk, ← hbytes]
    exact read_segmentFrame _ _ _

/-! ## The invariant -/

/-- The response says that the image is complete. -/
def IsCompleted (r : EmberIncomingMessage) : Prop :=
  emOtaUnicastBootloaderProtocolCommandId r.payload = commandIdImageSegmentResponse ∧
    respStatus r = respStatusCompleted

/-- **Invariant.** Segment frames carry chunks of the image, the client holds a prefix of it, and the
whole of it once a COMPLETED response is in flight. -/
structure DeliveryInv (σ : Session) (n : Net) : Prop where
  frames : ∀ m ∈ n.frames, Carries m .imageSegment →
    segmentPayload m = chunk maxSegmentPayloadLength.toNat σ.image (segmentIndex m).toNat
  client : n.client.Holds maxSegmentPayloadLength.toNat σ.image
  completed : ∀ r ∈ n.responses, IsCompleted r → n.client.held = σ.image

theorem DeliveryInv.drops (h : DeliveryInv σ n) (hd : Drops n n') : DeliveryInv σ n' where
  frames m hm := h.frames m (hd.frames hm)
  client := hd.client ▸ h.client
  completed r hr := hd.client ▸ h.completed r (hd.responses hr)

theorem holds_session (σ : Session) : σ.client.Holds maxSegmentPayloadLength.toNat σ.image :=
  ⟨rfl, le_of_lt ((lt_ceilDiv_iff (by decide) _ _).mpr σ.start_lt)⟩

/-- A segment of the image is received. -/
theorem holds_received {a : Assembler UInt8} {m : EmberOutgoingMessage}
    (ha : a.Holds maxSegmentPayloadLength.toNat σ.image)
    (hm : Carries m .imageSegment → SegmentOf σ m)
    (hp : Carries m .imageSegment →
      segmentPayload m = chunk maxSegmentPayloadLength.toNat σ.image (segmentIndex m).toNat) :
    (received a m).Holds maxSegmentPayloadLength.toNat σ.image := by
  unfold received
  split_ifs with hc
  · exact ha.accept ((lt_ceilDiv_iff (by decide) _ _).mpr (hm hc).index) (hp hc)
  · exact ha

/-- A client that holds the image keeps it. -/
theorem held_received {a : Assembler UInt8} {m : EmberOutgoingMessage}
    (ha : a.Holds maxSegmentPayloadLength.toNat σ.image) (hf : a.held = σ.image)
    (hm : Carries m .imageSegment → SegmentOf σ m) : (received a m).held = σ.image := by
  unfold received Assembler.accept
  split_ifs with hc he
  · have hexp := (ha.length_eq_iff (by decide)).mp (congrArg List.length hf)
    have hlt := (lt_ceilDiv_iff (by decide) _ _).mpr (hm hc).index
    omega
  · exact hf
  · exact hf

theorem deliveryInv_step {c : ConformingClient σ} {l : Label} {as : List Action}
    (hs : SessionInv σ c.reply n) (h : DeliveryInv σ n) (hl : Honest σ n l)
    (ht : NetTrans cfg c.reply n l n' as) : DeliveryInv σ n' := by
  cases ht with
  | lost hd _ => exact h.drops hd
  | @delivered n1 m hd _ hm =>
    have h1 := h.drops hd
    have hrec := holds_received h1.client (hs.frames m hm) (h.frames m hm)
    refine ⟨h1.frames, hrec, fun r hr hcr => ?_⟩
    rcases List.mem_append.mp hr with hr | hr
    · exact held_received h1.client (h1.completed r hr hcr) (hs.frames m hm)
    · cases c.answers (Option.mem_toList.mp hr) with
      | handshake _ hr => rcases hr.command with hc | hc <;> cases hc.symm.trans hcr.1
      | ongoing _ _ _ hr => exact absurd (hr.status.symm.trans hcr.2) (by decide)
      | completed _ _ hfull _ => exact hrec.eq_of_length hfull
      | outOfSeq _ _ hr => exact absurd (hr.status.symm.trans hcr.2) (by decide)
  | @ran n1 i o hd hli _ ht =>
    have h1 := h.drops hd
    refine ⟨fun m hm hc => ?_, h1.client, h1.completed⟩
    rcases List.mem_append.mp hm with hm | hm
    · exact h1.frames m hm hc
    · obtain ⟨env, r, henv, hst, hf⟩ := isFrame_of_trans hli ht (mem_acceptedFrames.mp hm)
      obtain rfl := (carries_of_isFrame hf).eq hc
      exact segmentPayload_eq hs.runs hs.segment hst (hl.2 env henv) hf

theorem sessionInv_of_honest (c : ConformingClient σ)
    (h : (network cfg σ c.reply).Reach (Honest σ) n) : SessionInv σ c.reply n :=
  sessionInv_of_reach (keepsInImage_client c) (fun _ _ h => h.1) h

theorem deliveryInv_of_reach (c : ConformingClient σ)
    (h : (network cfg σ c.reply).Reach (Honest σ) n) : DeliveryInv σ n := by
  refine System.Reach.invariant_of (fun n hn => sessionInv_of_honest c hn) (fun n hn => ?_)
    (fun n l n' as hs h hl hst => deliveryInv_step hs h hl (netTrans_of_step hl.1 hst)) h
  obtain ⟨s, s', -, rfl⟩ := hn
  exact ⟨by simp, holds_session σ, by simp⟩

/-! ## SUCCESS -/

/-- What the end of a transfer has to do with the image: SUCCESS comes when the client holds it, and
no segment frame is longer than a payload may be. -/
structure Delivers (σ : Session) (n : Net) (as : List Action) : Prop where
  success : .imageDistributionComplete .success ∈ as → n.client.held = σ.image
  length : ∀ m status, .messageSend m status ∈ as → Carries m .imageSegment →
    m.length.toNat ≤ maxApplicationPayloadLength.toNat

/-- **In every run with a conforming client and an honest callback, SUCCESS means that the client
holds exactly the image.** -/
theorem delivered_of_success (c : ConformingClient σ) {l : Label} {as : List Action}
    (hn : (network cfg σ c.reply).Reach (Honest σ) n) (hl : Honest σ n l)
    (h : (network cfg σ c.reply).step n l = some (n', as)) : Delivers σ n' as := by
  have hs := sessionInv_of_honest c hn
  have hd := deliveryInv_of_reach c hn
  cases netTrans_of_step hl.1 h with
  | lost _ _ => exact ⟨by simp, by simp⟩
  | delivered _ _ _ => exact ⟨by simp, by simp⟩
  | @ran n1 i o hdrop hli _ ht =>
    constructor
    · intro hsucc
      obtain ⟨r, rfl, ha, hst⟩ := completed_of_success ht hsucc
      have hr := mem_responses_of_input hl.1 hli ha.fromTarget
      show n1.client.held = σ.image
      rw [hdrop.client]
      exact hd.completed r hr ⟨ha.command, hst⟩
    · intro m status hm hc
      obtain ⟨env, r, -, hstate, hf⟩ := isFrame_of_trans hli ht hm
      obtain rfl := (carries_of_isFrame hf).eq hc
      have hlen := (segmentOf_of_isFrame hs.runs hs.segment hstate hf).length
      have hmax : imageSegmentHeaderLength.toNat + maxSegmentPayloadLength.toNat =
        maxApplicationPayloadLength.toNat := rfl
      omega

/-! ### A run -/

/-- A conforming client, written out. -/
def conformingReply (σ : Session) : Reply := fun a m =>
  if Carries m .handshake then
    some (extHandshakeResponse σ.target respStatusOngoing σ.imageTag σ.start)
  else if Carries m .imageSegment then
    if a.expected < (segmentIndex m).toNat then
      some (segmentResponse σ.target respStatusOutOfSeq σ.imageTag (segmentIndex m))
    else if (segmentIndex m).toNat < a.expected ∧ a.held.length = σ.image.length then
      some (segmentResponse σ.target respStatusCompleted σ.imageTag (segmentIndex m))
    else if (segmentIndex m).toNat < a.expected ∧
        maxSegmentPayloadLength.toNat * ((segmentIndex m).toNat + 1) < σ.image.length then
      some (segmentResponse σ.target respStatusOngoing σ.imageTag (segmentIndex m))
    else none
  else none

def conformingClient (σ : Session) : ConformingClient σ where
  reply := conformingReply σ
  answers {a m r} h := by
    unfold conformingReply at h
    split_ifs at h with hh hs hk hf ho
    · exact Option.some.inj h ▸ .handshake hh (acceptsImage_extHandshakeResponse σ)
    · exact Option.some.inj h ▸
        .outOfSeq hs hk (answersSegment_segmentResponse _ m _ (by decide))
    · exact Option.some.inj h ▸
        .completed hs hf.1 hf.2 (answersSegment_segmentResponse _ m _ (by decide))
    · exact Option.some.inj h ▸
        .ongoing hs ho.1 ho.2 (answersSegment_segmentResponse _ m _ (by decide))

/-- An image of 100 bytes: a segment of 96 and one of 4. -/
def twoSegments : Session where
  target := 5
  imageTag := 7
  image := (List.range 100).map Nat.toUInt8
  start := 0
  target_ne := by decide
  length_pos := by decide
  length_le := by decide
  start_lt := by decide

/-- The callback of a session copies the image. -/
def imageEnv (σ : Session) : EventEnv :=
  { plainEnv with
    getImageSegment := fun startIndex endIndex _ => some (imageBytes σ startIndex endIndex) }

/-- An image is transferred, its first segment sent twice because the first copy was lost. -/
theorem delivered_of_success_two : ∃ (n n' : Net) (as : List Action),
    (network defaultConfig twoSegments (conformingReply twoSegments)).step n (.deliverResponse 0) =
      some (n', as) ∧ .imageDistributionComplete .success ∈ as ∧
      n'.client.held = twoSegments.image := by
  obtain ⟨n, n', as, hn, hl, h, hs⟩ := exists_report (Honest twoSegments) defaultConfig twoSegments
    (conformingReply twoSegments)
    (attempt (imageEnv twoSegments) ++ [.deliverResponse 0] ++
      [.handler (.timerExpired (imageEnv twoSegments)), .loseFrame 0, .messageSent 0 1] ++
      attempt (imageEnv twoSegments) ++ [.deliverResponse 0] ++ attempt (imageEnv twoSegments))
    (.deliverResponse 0) .success (by decide +kernel)
  exact ⟨n, n', as, h, hs, (delivered_of_success (conformingClient twoSegments) hn hl h).success hs⟩

end ConnectNcpHost.Ota.Delivery
