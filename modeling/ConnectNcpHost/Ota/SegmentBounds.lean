import ConnectNcpHost.Lib.Chunks
import ConnectNcpHost.Ota.Frames

/-! # The segments a server asks for lie inside the image

`InImage s a b`: the bytes `a..b` are those of the segment `s.nextSegment` of the image. The
indices `unicastNextSegment` computes are such a range exactly when `nextSegment` is below the
number of segments (`inImage_iff`). The server keeps it there (`SegmentInv`) as long as no
accepted response takes it past the end: `InRange` names the two that do, an extended handshake
response with an index past the end and an ONGOING response to the last segment. -/

namespace ConnectNcpHost.Ota.SegmentBounds

open ConnectNcpHost.Lib.Runs ConnectNcpHost.Lib.Chunks ConnectNcpHost.Ota.Protocol
open ConnectNcpHost.Ota.BootloaderServer ConnectNcpHost.Ota.Transition ConnectNcpHost.Ota.Frames

variable {cfg : Config} {s : Server}

/-! ## Arithmetic -/

/-- A size `InitiateImageDistribution` accepts. -/
def ImageSizeOk (size : UInt32) : Prop := size ≠ 0 ∧ size ≤ maximumImageSize

theorem ImageSizeOk.pos {size : UInt32} (h : ImageSizeOk size) : 0 < size.toNat :=
  Nat.pos_of_ne_zero fun h0 => h.1 (UInt32.toNat_inj.mp h0)

theorem ImageSizeOk.le {size : UInt32} (h : ImageSizeOk size) : size.toNat ≤ 6291264 :=
  UInt32.le_iff_toNat_le.mp (maximumImageSize_eq ▸ h.2)

/-- `getTotalSegmentsCount` counts the segments of the image. -/
theorem toNat_getTotalSegmentsCount (s : Server) : (getTotalSegmentsCount s).toNat =
    s.currentImageSizeOrBootloadTimeMs.toNat ⌈/⌉ maxSegmentPayloadLength.toNat := by
  have hn : maxSegmentPayloadLength.toNat = 96 := rfl
  have hlt := s.currentImageSizeOrBootloadTimeMs.toNat_lt
  have hmod : s.currentImageSizeOrBootloadTimeMs % maxSegmentPayloadLength > 0 ↔
      0 < s.currentImageSizeOrBootloadTimeMs.toNat % 96 := by
    rw [gt_iff_lt, UInt32.lt_iff_toNat_lt, UInt32.toNat_mod, hn]; rfl
  rw [ceilDiv_eq_div_add (by rw [hn]; omega), hn]
  unfold getTotalSegmentsCount
  simp only [hmod]
  split_ifs
  · rw [UInt32.toNat_add, UInt32.toNat_div, hn]
    exact Nat.mod_eq_of_lt (by simp only [UInt32.reduceToNat]; omega)
  · rw [UInt32.toNat_div, hn]; rfl

/-- A segment index is below the count when its first byte is in the image. -/
theorem lt_getTotalSegmentsCount_iff {k : UInt32} : k < getTotalSegmentsCount s ↔
    96 * k.toNat < s.currentImageSizeOrBootloadTimeMs.toNat := by
  rw [UInt32.lt_iff_toNat_lt, toNat_getTotalSegmentsCount, lt_ceilDiv_iff (by decide)]
  rfl

/-! ## The range of a segment -/

/-- The range of bytes of the segment `nextSegment`: computed without wrap, not empty, in the image,
and short enough for the frame. -/
structure InImage (s : Server) (startIndex endIndex : UInt32) : Prop where
  exact : startIndex.toNat = s.nextSegment.toNat * maxSegmentPayloadLength.toNat
  le : startIndex ≤ endIndex
  lt_size : endIndex < s.currentImageSizeOrBootloadTimeMs
  length_le : endIndex.toNat - startIndex.toNat + 1 ≤ maxSegmentPayloadLength.toNat
  fits : imageSegmentHeaderLength.toNat + (endIndex.toNat - startIndex.toNat + 1) ≤
    maxApplicationPayloadLength.toNat

theorem toNat_segmentStartIndex (h : 96 * s.nextSegment.toNat < 4294967296) :
    (segmentStartIndex s).toNat = 96 * s.nextSegment.toNat := by
  have hn : maxSegmentPayloadLength.toNat = 96 := rfl
  rw [segmentStartIndex, UInt32.toNat_mul, hn, Nat.mul_comm]
  exact Nat.mod_eq_of_lt h

theorem toNat_segmentEndIndex (hsize : ImageSizeOk s.currentImageSizeOrBootloadTimeMs)
    (h : 96 * s.nextSegment.toNat < s.currentImageSizeOrBootloadTimeMs.toNat) :
    (segmentEndIndex s).toNat =
      min (96 * s.nextSegment.toNat + 95) (s.currentImageSizeOrBootloadTimeMs.toNat - 1) := by
  have hle := hsize.le
  have hpos := hsize.pos
  have hstart := toNat_segmentStartIndex (s := s) (by omega)
  have hend : (segmentStartIndex s + maxSegmentPayloadLength - 1).toNat =
      96 * s.nextSegment.toNat + 95 := by
    rw [maxSegmentPayloadLength_eq, UInt32.toNat_sub, UInt32.toNat_add, hstart]
    simp only [UInt32.reduceToNat]
    omega
  have hlast : (s.currentImageSizeOrBootloadTimeMs - 1).toNat =
      s.currentImageSizeOrBootloadTimeMs.toNat - 1 := by
    have h1 : (1 : UInt32) ≤ s.currentImageSizeOrBootloadTimeMs := UInt32.le_iff_toNat_le.mpr hpos
    rw [UInt32.toNat_sub_of_le _ _ h1]
    rfl
  unfold segmentEndIndex
  simp only [ge_iff_le, UInt32.le_iff_toNat_le, hend]
  split_ifs
  · rw [hlast]; omega
  · rw [hend]; omega

/-- **The computed range is right exactly below the number of segments.** -/
theorem inImage_iff (hsize : ImageSizeOk s.currentImageSizeOrBootloadTimeMs) :
    InImage s (segmentStartIndex s) (segmentEndIndex s) ↔
      s.nextSegment < getTotalSegmentsCount s := by
  have hn : maxSegmentPayloadLength.toNat = 96 := rfl
  have hle := hsize.le
  rw [lt_getTotalSegmentsCount_iff]
  constructor
  · intro h
    have h1 := h.exact
    rw [hn] at h1
    have h2 := UInt32.le_iff_toNat_le.mp h.le
    have h3 := UInt32.lt_iff_toNat_lt.mp h.lt_size
    omega
  · intro h
    have hs := toNat_segmentStartIndex (s := s) (by omega)
    have he := toNat_segmentEndIndex hsize h
    have hlen : (segmentEndIndex s).toNat - (segmentStartIndex s).toNat + 1 ≤ 96 := by omega
    refine ⟨by rw [hs, hn]; omega, UInt32.le_iff_toNat_le.mpr (by omega),
      UInt32.lt_iff_toNat_lt.mpr (by omega), hlen, ?_⟩
    show 6 + _ ≤ 102
    omega

/-! ## The invariant -/

/-- The accepted responses that keep the next segment in the image: a handshake response starts
below the number of segments, and no ONGOING response answers the last segment. -/
def InRange (s : Server) : Input → Prop
  | .incomingMessage m =>
    (AcceptsHandshakeResponse s m → respStatus m = respStatusOngoing →
      startSegment m < getTotalSegmentsCount s) ∧
    (AcceptsSegmentResponse s m → respStatus m = respStatusOngoing →
      respIndex m = s.sentSegment → respIndex m + 1 ≠ getTotalSegmentsCount s)
  | _ => True

instance (s : Server) (i : Input) : Decidable (InRange s i) := by
  refine i.casesOn ?_ ?_ ?_ ?_ ?_ ?_ ?_ <;> intros <;> unfold InRange <;> infer_instance

/-- **Invariant.** The image size is one that was accepted, the next segment is one of the image,
and it is the one that was sent while its answer is awaited. -/
structure SegmentInv (s : Server) : Prop where
  size : ∀ {r : Request}, requestOf s.internalState = some r → r.process = .imageDistribution →
    ImageSizeOk s.currentImageSizeOrBootloadTimeMs
  next : requestOf s.internalState = some .imageSegment → s.nextSegment < getTotalSegmentsCount s
  sent : s.internalState = .segmentUnicastPending ∨
    s.internalState = .segmentUnicastWaitingResponse → s.sentSegment = s.nextSegment

theorem segmentInv_finished (s : Server) : SegmentInv (finished s) where
  size h := by cases h
  next h := by cases h
  sent h := by rcases h with h | h <;> cases h

/-- A failed attempt keeps the segment. -/
theorem segmentInv_failed {r : Request} {o : Outcome} (ho : Failed cfg r s o)
    (hsize : r.process = .imageDistribution → ImageSizeOk s.currentImageSizeOrBootloadTimeMs)
    (hnext : r = .imageSegment → s.nextSegment < getTotalSegmentsCount s) :
    SegmentInv o.server := by
  cases ho with
  | gaveUp _ => exact segmentInv_finished s
  | retried _ _ =>
    have hr : ∀ {r'}, requestOf (scheduled r.interval s).internalState = some r' → r = r' :=
      fun h => by simpa [scheduled] using h
    refine ⟨fun h hp => hsize (hr h ▸ hp), fun h => hnext (hr h), fun h => ?_⟩
    rcases h with h | h <;> cases r <;> cases h

/-- The next segment after an ONGOING response is still one of the image. -/
theorem succ_lt_getTotalSegmentsCount {k : UInt32} (h : k < getTotalSegmentsCount s)
    (hne : k + 1 ≠ getTotalSegmentsCount s) : k + 1 < getTotalSegmentsCount s := by
  have h' := UInt32.lt_iff_toNat_lt.mp h
  have hk := toNat_add_one h
  have hne' : k.toNat + 1 ≠ (getTotalSegmentsCount s).toNat :=
    fun he => hne (UInt32.toNat_inj.mp (hk.trans he))
  rw [UInt32.lt_iff_toNat_lt, hk]
  omega

theorem segmentInv_call {i : Input} {o : Outcome} (h : SegmentInv s) (ht : CallTrans s i o) :
    SegmentInv o.server := by
  cases ht with
  | refused _ _ => exact h
  | aborted _ _ => exact segmentInv_finished s
  | imageStarted _ _ h0 hm =>
    refine ⟨fun _ _ => ⟨h0, hm⟩, fun h => ?_, fun h => ?_⟩
    · cases h
    · rcases h with h | h <;> cases h
  | bootloadStarted _ _ =>
    refine ⟨fun hr hp => ?_, fun h => ?_, fun h => ?_⟩
    · cases hr; cases hp
    · cases h
    · rcases h with h | h <;> cases h

theorem segmentInv_message {m : EmberIncomingMessage} {o : Outcome} (h : SegmentInv s)
    (hi : InRange s (.incomingMessage m)) (ht : MessageTrans cfg s m o) : SegmentInv o.server := by
  cases ht with
  | ignored _ _ _ => exact h
  | handshakeEnded _ _ => exact segmentInv_finished s
  | segmentEnded _ _ => exact segmentInv_finished s
  | bootloadAnswered _ => exact segmentInv_finished s
  | handshakeAccepted ha hst ho =>
    exact segmentInv_failed ho (fun _ => h.size (r := .handshake) (congrArg requestOf ha.state) rfl)
      (fun _ => hi.1 ha hst)
  | segmentAdvanced ha hst hidx _ =>
    have hseg := ha.requestOf_eq
    refine ⟨fun _ _ => h.size hseg rfl, fun _ => ?_, fun h => ?_⟩
    · have hne := hi.2 ha hst hidx
      rw [hidx, h.sent ha.state] at hne
      exact succ_lt_getTotalSegmentsCount (h.next hseg) hne
    · rcases h with h | h <;> cases h
  | segmentWrapped ha _ _ hn => exact absurd (h.next ha.requestOf_eq) hn
  | segmentIgnored ha _ =>
    have hseg := ha.requestOf_eq
    exact ⟨fun _ _ => h.size hseg rfl, fun _ => h.next hseg, fun _ => h.sent ha.state⟩

theorem segmentInv_sent {status : EmberStatus} {m : EmberOutgoingMessage} {o : Outcome}
    (h : SegmentInv s) (ht : SentTrans cfg s status m o) : SegmentInv o.server := by
  cases ht with
  | ignored _ => exact h
  | @succeeded r _ hs _ =>
    have hr : requestOf s.internalState = some r := hs ▸ requestOf_pending r
    have hr' : ∀ {r'}, requestOf (scheduled r.waiting s).internalState = some r' → r = r' :=
      fun h => by simpa [scheduled] using h
    refine ⟨fun h1 hp => h.size (hr' h1 ▸ hr) hp, fun h1 => h.next (hr' h1 ▸ hr), fun h1 => ?_⟩
    refine h.sent (.inl ?_)
    rcases h1 with h1 | h1 <;> cases r <;> first | exact hs | cases h1
  | @failed r s1 _ _ hs _ he ho =>
    have hr : requestOf s.internalState = some r := hs ▸ requestOf_pending r
    refine segmentInv_failed ho (fun hp => ?_) (fun hp => ?_)
    · cases he <;> exact h.size hr hp
    · cases he <;> exact h.next (hp ▸ hr)

theorem segmentInv_event {env : EventEnv} {o : Outcome} (h : SegmentInv s)
    (ht : EventTrans cfg s env o) : SegmentInv o.server := by
  cases ht with
  | underflow _ => exact segmentInv_finished s
  | @submitted r _ hs _ _ =>
    have hr : requestOf s.internalState = some r := hs ▸ requestOf_interval r
    cases r with
    | imageSegment => exact ⟨fun _ _ => h.size hr rfl, fun _ => h.next hr, fun _ => rfl⟩
    | handshake =>
      refine ⟨fun _ _ => h.size hr rfl, fun h => (by cases h), fun h => ?_⟩
      rcases h with h | h <;> cases h
    | bootloadRequest =>
      refine ⟨fun h hp => (by cases h; cases hp), fun h => (by cases h), fun h => ?_⟩
      rcases h with h | h <;> cases h
  | @notSubmitted r _ o hs _ _ ho =>
    have hr : requestOf s.internalState = some r := hs ▸ requestOf_interval r
    show SegmentInv o.server
    exact segmentInv_failed ho (fun hp => h.size hr hp) (fun hp => h.next (hp ▸ hr))
  | @timedOut r _ hs ho =>
    have hr : requestOf s.internalState = some r := hs ▸ requestOf_waiting r
    exact segmentInv_failed ho (fun hp => h.size hr hp) (fun hp => h.next (hp ▸ hr))
  | idle _ => exact ⟨h.size, h.next, h.sent⟩

theorem segmentInv_step {i : Input} {o : Outcome} (h : SegmentInv s) (hi : InRange s i)
    (ht : Trans cfg s i o) : SegmentInv o.server := by
  cases ht with
  | call ht => exact segmentInv_call h ht
  | message ht => exact segmentInv_message h hi ht
  | sent ht => exact segmentInv_sent h ht
  | timer _ ht => exact segmentInv_event h ht
  | timerIgnored _ => exact h
  | event _ ht => exact segmentInv_event h ht

theorem segmentInv_of_reach (h : (ota cfg).Reach InRange s) : SegmentInv s := by
  refine System.Reach.invariant (fun s hs => ?_) (fun s i s' os _ h hi hst => ?_) h
  · rw [show s = Server.init from hs]
    exact segmentInv_finished Server.init
  · exact segmentInv_step h hi (trans_of_step hst)

/-! ## The callbacks of a run -/

theorem mem_prelude {r : Request} {a b : UInt32} {tag : UInt8}
    (h : .getImageSegment a b tag ∈ r.prelude s) :
    r = .imageSegment ∧ a = segmentStartIndex s ∧ b = segmentEndIndex s := by
  cases r with
  | imageSegment =>
    simp only [Request.prelude, segmentCallback, List.mem_singleton, Action.getImageSegment.injEq]
      at h
    exact ⟨rfl, h.1, h.2.1⟩
  | handshake => simp [Request.prelude] at h
  | bootloadRequest => simp [Request.prelude] at h

theorem getImageSegment_of_event {env : EventEnv} {o : Outcome} {a b : UInt32} {tag : UInt8}
    (ht : EventTrans cfg s env o) (h : .getImageSegment a b tag ∈ o.actions) :
    s.internalState = .segmentUnicastInterval ∧ a = segmentStartIndex s ∧ b = segmentEndIndex s := by
  cases ht with
  | @submitted r _ hs _ _ =>
    have hp : .getImageSegment a b tag ∈ r.prelude s := by simpa using h
    obtain ⟨rfl, ha, hb⟩ := mem_prelude hp
    exact ⟨hs, ha, hb⟩
  | @notSubmitted r _ o hs _ _ ho =>
    have hp : .getImageSegment a b tag ∈ r.prelude s := by
      simpa [not_mem_of_failed (a := .getImageSegment a b tag) rfl ho] using h
    obtain ⟨rfl, ha, hb⟩ := mem_prelude hp
    exact ⟨hs, ha, hb⟩
  | underflow hs =>
    obtain ⟨-, ha, hb⟩ := mem_prelude (s := s) (r := .imageSegment)
      (by simpa [Request.prelude] using h)
    exact ⟨hs, ha, hb⟩
  | timedOut _ ho => exact absurd h (not_mem_of_failed rfl ho)
  | idle _ => simp at h

/-- The image-segment callback is only called with the range `unicastNextSegment` computes, in the
interval state. -/
theorem getImageSegment_of_trans {i : Input} {o : Outcome} {a b : UInt32} {tag : UInt8}
    (ht : Trans cfg s i o) (h : .getImageSegment a b tag ∈ o.actions) :
    s.internalState = .segmentUnicastInterval ∧ a = segmentStartIndex s ∧ b = segmentEndIndex s := by
  obtain ⟨env, -, hev⟩ := eventTrans_of_submits ht rfl h
  exact getImageSegment_of_event hev h

/-- **While the accepted responses stay in range, every call of the image-segment callback asks for
exactly the bytes of the next segment of the image.** -/
theorem getImageSegment_in_image {i : Input} {s' : Server} {as : List Action} {a b : UInt32}
    {tag : UInt8} (hs : (ota cfg).Reach InRange s) (h : (ota cfg).step s i = some (s', as))
    (ha : .getImageSegment a b tag ∈ as) : InImage s a b := by
  obtain ⟨hst, rfl, rfl⟩ := getImageSegment_of_trans (trans_of_step h) ha
  have hinv := segmentInv_of_reach hs
  have hseg : requestOf s.internalState = some .imageSegment := by rw [hst]; rfl
  exact (inImage_iff (hinv.size hseg rfl)).mpr (hinv.next hseg)

/-- The server has finished, or will ask for bytes that are not those of a segment. -/
def LeavesImage (s : Server) : Prop :=
  s.internalState = .idle ∨ s.internalState = .segmentUnicastInterval ∧
    ¬ InImage s (segmentStartIndex s) (segmentEndIndex s)

theorem leavesImage_of_not_lt (hs : s.internalState = .segmentUnicastInterval)
    (hsize : ImageSizeOk s.currentImageSizeOrBootloadTimeMs)
    (hn : ¬ s.nextSegment < getTotalSegmentsCount s) : LeavesImage s :=
  .inr ⟨hs, fun h => hn ((inImage_iff hsize).mp h)⟩

/-- **The condition is sharp**: an accepted response out of range takes the server past the
image, unless it ends the process. -/
theorem leavesImage_of_not_inRange {i : Input} {s' : Server} {as : List Action}
    (hs : (ota cfg).Reach InRange s) (hi : ¬ InRange s i) (h : (ota cfg).step s i = some (s', as)) :
    LeavesImage s' := by
  have hinv := segmentInv_of_reach hs
  cases i with
  | incomingMessage m =>
    rw [InRange, not_and_or] at hi
    simp only [Classical.not_imp, not_not] at hi
    cases (trans_of_step h).messageTrans with
    | ignored hh hseg _ => exact absurd hi (by rintro (⟨ha, -⟩ | ⟨ha, -⟩) <;> contradiction)
    | handshakeEnded _ _ => exact .inl rfl
    | segmentEnded _ _ => exact .inl rfl
    | bootloadAnswered _ => exact .inl rfl
    | handshakeAccepted ha _ ho =>
      have hsize := hinv.size (r := .handshake) (congrArg requestOf ha.state) rfl
      obtain ⟨-, -, hn⟩ | ⟨ha', -⟩ := hi
      · rcases ho with _ | _
        · exact leavesImage_of_not_lt rfl hsize hn
        · exact .inl rfl
      · cases ha'.requestOf_eq.symm.trans (congrArg requestOf ha.state)
    | segmentAdvanced ha _ hidx _ =>
      obtain ⟨ha', -⟩ | ⟨-, -, -, hn⟩ := hi
      · cases ha.requestOf_eq.symm.trans (congrArg requestOf ha'.state)
      · refine leavesImage_of_not_lt rfl (hinv.size ha.requestOf_eq rfl) ?_
        show ¬ s.nextSegment + 1 < getTotalSegmentsCount s
        rw [← hinv.sent ha.state, ← hidx, hn]
        exact UInt32.lt_irrefl _
    | segmentWrapped ha _ _ hn => exact absurd (hinv.next ha.requestOf_eq) hn
    | segmentIgnored ha hst =>
      obtain ⟨ha', -⟩ | ⟨-, hst', -⟩ := hi
      · cases ha.requestOf_eq.symm.trans (congrArg requestOf ha'.state)
      · exact absurd hst' hst.2.2.1
  | _ => exact absurd trivial hi

/-- The first segment of an image of 100 bytes. -/
theorem getImageSegment_in_image_first :
    InImage (transferServer 5 100 7 .segmentUnicastInterval 0) 0 95 := by
  have hs : (ota defaultConfig).Reach InRange
      (transferServer 5 100 7 .segmentUnicastInterval 0) :=
    System.reach_of_exec_fst (openingRun 5 100 7) (.start rfl) (by decide +kernel)
  have hst : (ota defaultConfig).step (transferServer 5 100 7 .segmentUnicastInterval 0)
      (.timerExpired plainEnv) = some (_, .getImageSegment 0 95 7 :: [_]) := rfl
  exact getImageSegment_in_image hs hst List.mem_cons_self

/-- **Without the condition the bounds fail**: the only segment of an image of 96
bytes is answered with ONGOING, and the callback is asked for the bytes `96..95`. -/
theorem getImageSegment_past_image : ∃ (s s' : Server) (i : Input) (as : List Action),
    (ota defaultConfig).Reach free s ∧ (ota defaultConfig).step s i = some (s', as) ∧
      .getImageSegment 96 95 7 ∈ as ∧ s.currentImageSizeOrBootloadTimeMs = 96 ∧
      ¬ InImage s 96 95 := by
  have hs : (ota defaultConfig).Reach free (transferServer 5 96 7 .segmentUnicastInterval 1) :=
    System.reach_of_exec_fst (openingRun 5 96 7 ++ segmentRun 5 96 7 0 ++
      [.incomingMessage (segmentResponse 5 respStatusOngoing 7 0)]) (.start rfl) (by decide +kernel)
  have hst : (ota defaultConfig).step (transferServer 5 96 7 .segmentUnicastInterval 1)
      (.timerExpired plainEnv) = some (_, .getImageSegment 96 95 7 :: [_]) := rfl
  exact ⟨_, _, _, _, hs, hst, List.mem_cons_self, rfl, fun h => absurd h.le (by decide)⟩

end ConnectNcpHost.Ota.SegmentBounds
