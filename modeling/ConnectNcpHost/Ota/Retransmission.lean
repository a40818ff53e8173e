import ConnectNcpHost.Ota.Delivery

/-! # Late responses to a retransmitted segment

A client that accepts the image and acknowledges every copy of a segment. After a response timeout
the server retransmits, so that two responses to one segment can be in flight. What is in flight
never runs ahead of the server (`OrderInv`); the distribution ends with FAILED exactly when a
response to an earlier segment is accepted (`failed_iff_overtaken`). -/

namespace ConnectNcpHost.Ota.Retransmission

open ConnectNcpHost.Lib.Runs ConnectNcpHost.Lib.Chunks ConnectNcpHost.Ota.Protocol
open ConnectNcpHost.Ota.BootloaderServer ConnectNcpHost.Ota.Transition ConnectNcpHost.Ota.Frames
open ConnectNcpHost.Ota.SegmentBounds ConnectNcpHost.Ota.Network

variable {cfg : Config} {σ : Session} {s : Server} {n n' : Net}

/-! ## The client -/

/-- An answer that acknowledges: ONGOING to a segment before the last, COMPLETED to the last. -/
inductive Acknowledges (σ : Session) (m : EmberOutgoingMessage) (r : EmberIncomingMessage) : Prop
  | handshake (hm : Carries m .handshake) (hr : AcceptsImage σ r)
  | ongoing (hm : Carries m .imageSegment)
      (hk : maxSegmentPayloadLength.toNat * ((segmentIndex m).toNat + 1) < σ.image.length)
      (hr : AnswersSegment m respStatusOngoing r)
  | completed (hm : Carries m .imageSegment)
      (hk : σ.image.length ≤ maxSegmentPayloadLength.toNat * ((segmentIndex m).toNat + 1))
      (hr : AnswersSegment m respStatusCompleted r)

/-- A client that acknowledges every copy. -/
structure AcknowledgingClient (σ : Session) where
  reply : Reply
  acknowledges : ∀ {a m r}, reply a m = some r → Acknowledges σ m r

theorem keepsInImage_client (c : AcknowledgingClient σ) : KeepsInImage σ c.reply := by
  intro a m r _ ha
  cases c.acknowledges ha with
  | handshake _ hr => exact hr.staysInImage
  | ongoing _ hk hr =>
    exact ⟨fun hc => absurd hc hr.not_handshake, fun _ _ => by rw [hr.index]; exact hk⟩
  | completed _ _ hr =>
    refine ⟨fun hc => absurd hc hr.not_handshake, fun _ hs => ?_⟩
    exact absurd (hr.status.symm.trans hs) (by decide)

/-! ## The order of the segments in flight -/

/-- The response acknowledges a segment. -/
def IsOngoing (r : EmberIncomingMessage) : Prop :=
  emOtaUnicastBootloaderProtocolCommandId r.payload = commandIdImageSegmentResponse ∧
    respStatus r = respStatusOngoing

/-- **Invariant.** No segment in flight, and no acknowledgement, is ahead of the next segment, and
there are none before the handshake is over. -/
structure OrderInv (n : Net) : Prop where
  frames : ∀ m ∈ n.frames, Carries m .imageSegment → segmentIndex m ≤ n.server.nextSegment
  responses : ∀ r ∈ n.responses, IsOngoing r → respIndex r ≤ n.server.nextSegment
  opening : requestOf n.server.internalState = some .handshake →
    (∀ m ∈ n.frames, ¬ Carries m .imageSegment) ∧ ∀ r ∈ n.responses, ¬ IsOngoing r

/-- A server past the handshake goes on. -/
structure Proceeds (s s' : Server) : Prop where
  next : s.nextSegment ≤ s'.nextSegment
  past : requestOf s'.internalState ≠ some .handshake

theorem proceeds_failed {s1 : Server} {r : Request} {o : Outcome} (hr : r ≠ .handshake)
    (hn : s1.nextSegment = s.nextSegment) (ho : Failed cfg r s1 o) : Proceeds s o.server := by
  cases ho with
  | gaveUp _ => exact ⟨UInt32.le_of_eq hn.symm, by simp [finished]⟩
  | retried _ _ => exact ⟨UInt32.le_of_eq hn.symm, by simpa [scheduled] using hr⟩

theorem proceeds_finished (s : Server) : Proceeds s (finished s) :=
  ⟨UInt32.le_refl _, by simp [finished]⟩

theorem proceeds_message {m : EmberIncomingMessage} {o : Outcome} (h : SegmentInv s)
    (hs : requestOf s.internalState ≠ some .handshake) (ht : MessageTrans cfg s m o) :
    Proceeds s o.server := by
  have hseg : ∀ {s1 : Server}, requestOf s1.internalState = some .imageSegment →
      requestOf s1.internalState ≠ some .handshake := fun h1 => by rw [h1]; decide
  cases ht with
  | ignored _ _ _ => exact ⟨UInt32.le_refl _, hs⟩
  | handshakeEnded ha _ => exact absurd (congrArg requestOf ha.state) hs
  | handshakeAccepted ha _ _ => exact absurd (congrArg requestOf ha.state) hs
  | segmentEnded _ _ => exact proceeds_finished s
  | bootloadAnswered _ => exact proceeds_finished s
  | segmentAdvanced ha _ _ hn =>
    refine ⟨UInt32.le_iff_toNat_le.mpr ?_, hseg rfl⟩
    show s.nextSegment.toNat ≤ (s.nextSegment + 1).toNat
    rw [toNat_add_one hn]
    exact Nat.le_succ _
  | segmentWrapped ha _ _ hn => exact absurd (h.next ha.requestOf_eq) hn
  | segmentIgnored ha _ => exact ⟨UInt32.le_refl _, hseg rfl⟩

theorem proceeds_step {i : Input} {o : Outcome} (h : SegmentInv n.server) (hi : Comes n i)
    (hs : requestOf n.server.internalState ≠ some .handshake) (ht : Trans cfg n.server i o) :
    Proceeds n.server o.server := by
  have hreq : ∀ {r : Request} {st : StateOtaServer}, n.server.internalState = st →
      requestOf st = some r → r ≠ .handshake := fun h1 h2 h3 => hs (by rw [h1, h2, h3])
  have hevent : ∀ {env}, EventTrans cfg n.server env o → Proceeds n.server o.server := by
    intro env ht
    cases ht with
    | @submitted r _ hst _ _ =>
      have hr := hreq hst (requestOf_interval r)
      refine ⟨by cases r <;> exact UInt32.le_refl _, ?_⟩
      rw [Request.submitted_internalState, requestOf_pending]
      simpa using hr
    | underflow _ => exact proceeds_finished n.server
    | @notSubmitted r _ o hst _ _ ho =>
      show Proceeds n.server o.server
      exact proceeds_failed (hreq hst (requestOf_interval r)) (by rfl) ho
    | @timedOut r _ hst ho => exact proceeds_failed (hreq hst (requestOf_waiting r)) (by rfl) ho
    | idle _ => exact ⟨UInt32.le_refl _, hs⟩
  cases ht with
  | call ht =>
    cases ht with
    | refused _ _ => exact ⟨UInt32.le_refl _, hs⟩
    | imageStarted hst _ _ _ => exact absurd hst hi
    | bootloadStarted hst _ => exact absurd hst hi
    | aborted _ _ => exact proceeds_finished n.server
  | message ht => exact proceeds_message h hs ht
  | sent ht =>
    cases ht with
    | ignored _ => exact ⟨UInt32.le_refl _, hs⟩
    | @succeeded r _ hst _ =>
      exact ⟨UInt32.le_refl _, by simpa [scheduled] using hreq hst (requestOf_pending r)⟩
    | @failed r s1 _ _ hst _ he ho =>
      exact proceeds_failed (hreq hst (requestOf_pending r)) (by cases he <;> rfl) ho
  | timer _ ht => exact hevent ht
  | timerIgnored _ => exact ⟨UInt32.le_refl _, hs⟩
  | event _ ht => exact hevent ht

theorem OrderInv.drops (h : OrderInv n) (hd : Drops n n') : OrderInv n' where
  frames m hm hc := by rw [hd.server]; exact h.frames m (hd.frames hm) hc
  responses r hr ho := by rw [hd.server]; exact h.responses r (hd.responses hr) ho
  opening hs := by
    obtain ⟨h1, h2⟩ := h.opening (by rw [← hd.server]; exact hs)
    exact ⟨fun m hm => h1 m (hd.frames hm), fun r hr => h2 r (hd.responses hr)⟩

/-- A frame submitted in a step is the next segment. -/
theorem segmentIndex_of_mem_acceptedFrames {l : Label} {i : Input} {o : Outcome}
    {m : EmberOutgoingMessage} (hl : l.input n = some i) (ht : Trans cfg n.server i o)
    (hm : m ∈ acceptedFrames o.actions) (hc : Carries m .imageSegment) :
    n.server.internalState = .segmentUnicastInterval ∧ segmentIndex m = n.server.nextSegment := by
  obtain ⟨env, r, -, hs, hf⟩ := isFrame_of_trans hl ht (mem_acceptedFrames.mp hm)
  obtain rfl := (carries_of_isFrame hf).eq hc
  cases hf with
  | imageSegment _ => exact ⟨hs, segmentIndex_segmentFrame _ _ _⟩

theorem orderInv_step {c : AcknowledgingClient σ} {l : Label} {as : List Action}
    (hs : SessionInv σ c.reply n) (h : OrderInv n) (ht : NetTrans cfg c.reply n l n' as) :
    OrderInv n' := by
  cases ht with
  | lost hd _ => exact h.drops hd
  | @delivered n1 m hd _ hm =>
    have h1 := h.drops hd
    -- the answer to a segment carries its index
    have hnew : ∀ r ∈ (c.reply (received n1.client m) m).toList, IsOngoing r →
        Carries m .imageSegment ∧ respIndex r = segmentIndex m := fun r hr ho => by
      cases c.acknowledges (Option.mem_toList.mp hr) with
      | handshake _ hr => rcases hr.command with hc | hc <;> cases hc.symm.trans ho.1
      | ongoing hc _ hr => exact ⟨hc, hr.index⟩
      | completed hc _ hr => exact ⟨hc, hr.index⟩
    refine ⟨h1.frames, fun r hr ho => ?_, fun hst => ⟨(h1.opening hst).1, fun r hr ho => ?_⟩⟩
    · rcases List.mem_append.mp hr with hr | hr
      · exact h1.responses r hr ho
      · obtain ⟨hc, hi⟩ := hnew r hr ho
        show respIndex r ≤ n1.server.nextSegment
        rw [hi, hd.server]
        exact h.frames m hm hc
    · rcases List.mem_append.mp hr with hr | hr
      · exact (h1.opening hst).2 r hr ho
      · have hst' : requestOf n.server.internalState = some .handshake := hd.server ▸ hst
        exact (h.opening hst').1 m hm (hnew r hr ho).1
  | @ran n1 i o hd hl hi ht =>
    have h1 := h.drops hd
    by_cases hst : requestOf n.server.internalState = some .handshake
    · -- no segment has been submitted yet, and none is submitted now
      obtain ⟨hf, hr⟩ := h1.opening (by rw [hd.server]; exact hst)
      have hf' : ∀ m ∈ (n1.ran o).frames, ¬ Carries m .imageSegment := fun m hm hc => by
        rcases List.mem_append.mp hm with hm | hm
        · exact hf m hm hc
        · obtain ⟨hs', -⟩ := segmentIndex_of_mem_acceptedFrames hl ht hm hc
          rw [hs'] at hst
          cases hst
      exact ⟨fun m hm hc => absurd hc (hf' m hm), fun r hm ho => absurd ho (hr r hm),
        fun _ => ⟨hf', hr⟩⟩
    · obtain ⟨hle, hpast⟩ := proceeds_step hs.segment hi hst ht
      have hnext : n1.server.nextSegment ≤ o.server.nextSegment := by rw [hd.server]; exact hle
      refine ⟨fun m hm hc => ?_, fun r hr ho => UInt32.le_trans (h1.responses r hr ho) hnext,
        fun h => absurd h hpast⟩
      rcases List.mem_append.mp hm with hm | hm
      · exact UInt32.le_trans (h1.frames m hm hc) hnext
      · rw [(segmentIndex_of_mem_acceptedFrames hl ht hm hc).2]
        exact hle

theorem orderInv_of_reach (c : AcknowledgingClient σ)
    (h : (network cfg σ c.reply).Reach OneProcess n) : OrderInv n := by
  have hk := keepsInImage_client c
  refine System.Reach.invariant_of (fun n hn => sessionInv_of_reach hk (fun _ _ h => h) hn)
    (fun n hn => ?_) (fun n l n' as hs h hl hst => orderInv_step hs h (netTrans_of_step hl hst)) h
  obtain ⟨s, s', -, rfl⟩ := hn
  exact ⟨by simp, by simp, fun _ => by simp⟩

/-! ## FAILED -/

/-- The response the server gets in this step is an acknowledgement of a segment before the one it
sent last, and the server accepts it. -/
def Overtaken (n : Net) (l : Label) : Prop :=
  ∃ r, l.input n = some (.incomingMessage r) ∧ AcceptsSegmentResponse n.server r ∧
    respStatus r = respStatusOngoing ∧ respIndex r < n.server.sentSegment

/-- An acknowledgement of another segment ends the distribution. -/
theorem MessageTrans.failed_of_mismatch {m : EmberIncomingMessage} {o : Outcome}
    (ht : MessageTrans cfg s m o) (ha : AcceptsSegmentResponse s m)
    (hs : respStatus m = respStatusOngoing) (hi : respIndex m ≠ s.sentSegment) :
    .imageDistributionComplete .failed ∈ o.actions := by
  have hh : ¬ AcceptsHandshakeResponse s m := fun hh => by
    cases ha.requestOf_eq.symm.trans (congrArg requestOf hh.state)
  cases ht with
  | ignored _ h _ => exact absurd ha h
  | handshakeEnded h _ => exact absurd h hh
  | handshakeAccepted h _ _ => exact absurd h hh
  | segmentAdvanced _ _ h _ => exact absurd h hi
  | segmentWrapped _ _ h _ => exact absurd h hi
  | segmentIgnored _ h => exact absurd hs h.2.2.1
  | bootloadAnswered h => exact absurd (ha.command.symm.trans h.command) (by decide)
  | segmentEnded _ he =>
    cases he with
    | mismatch _ _ => exact List.mem_cons_self
    | outOfSeq h => exact absurd (h.symm.trans hs) (by decide)
    | refused h => exact absurd (h.symm.trans hs) (by decide)
    | completed h => exact absurd (h.symm.trans hs) (by decide)

/-- FAILED is reported for an accepted acknowledgement of another segment only. -/
theorem mismatch_of_failed (c : AcknowledgingClient σ) (hs : SessionInv σ c.reply n) {l : Label}
    {i : Input} {o : Outcome} (hl : OneProcess n l) (hli : l.input n = some i)
    (ht : Trans cfg n.server i o) (h : .imageDistributionComplete .failed ∈ o.actions) :
    ∃ r, i = .incomingMessage r ∧ AcceptsSegmentResponse n.server r ∧
      respStatus r = respStatusOngoing ∧ respIndex r ≠ n.server.sentSegment := by
  have hack : ∀ r, i = .incomingMessage r → FromTarget n.server r → ∃ m, Acknowledges σ m r :=
    fun r hi hf => by
      obtain ⟨a, m, -, ha⟩ := hs.responses r (mem_responses_of_input hl (hi ▸ hli) hf)
      exact ⟨m, c.acknowledges ha⟩
  generalize hst : EmberAfOtaUnicastBootloaderStatus.failed = st at h
  cases imageCompletes_of_trans ht h with
  | aborted _ => cases hst
  | underflow => cases hst
  | gaveUp h => rcases h with rfl | rfl <;> cases hst
  | @handshake r _ ha h =>
    obtain ⟨m, hm⟩ := hack r rfl ha.fromTarget
    have hno : respStatus r ≠ respStatusOngoing := by
      rcases h with ⟨-, h⟩ | ⟨-, h⟩
      · rw [h]; decide
      · exact h
    cases hm with
    | handshake _ hr => exact absurd hr.status hno
    | ongoing _ _ hr => exact absurd hr.status hno
    | completed _ _ hr => exact absurd ha.command hr.not_handshake
  | @segment r _ ha h =>
    cases h with
    | mismatch hs hi => exact ⟨r, rfl, ha, hs, hi⟩
    | refused _ => cases hst
    | completed _ => cases hst
    | outOfSeq ho =>
      obtain ⟨m, hm⟩ := hack r rfl ha.fromTarget
      cases hm with
      | handshake _ hr => exact absurd (hr.status.symm.trans ho) (by decide)
      | ongoing _ _ hr => exact absurd (hr.status.symm.trans ho) (by decide)
      | completed _ _ hr => exact absurd (hr.status.symm.trans ho) (by decide)

/-- **The distribution ends with FAILED exactly when a late response to an earlier segment is
accepted.** -/
theorem failed_iff_overtaken (c : AcknowledgingClient σ) {l : Label} {as : List Action}
    (hn : (network cfg σ c.reply).Reach OneProcess n) (hl : OneProcess n l)
    (h : (network cfg σ c.reply).step n l = some (n', as)) :
    .imageDistributionComplete .failed ∈ as ↔ Overtaken n l := by
  have hs := sessionInv_of_reach (keepsInImage_client c) (fun _ _ h => h) hn
  have ho := orderInv_of_reach c hn
  constructor
  · intro hf
    cases netTrans_of_step hl h with
    | lost _ _ => simp at hf
    | delivered _ _ _ => simp at hf
    | ran _ hli _ ht =>
      obtain ⟨r, rfl, ha, hst, hne⟩ := mismatch_of_failed c hs hl hli ht hf
      have hle := ho.responses r (mem_responses_of_input hl hli ha.fromTarget) ⟨ha.command, hst⟩
      rw [← hs.segment.sent ha.state] at hle
      exact ⟨r, hli, ha, hst, UInt32.lt_of_le_of_ne hle hne⟩
  · rintro ⟨r, hli, ha, hst, hlt⟩
    cases netTrans_of_step hl h with
    | lost _ hno => cases hno.symm.trans hli
    | delivered _ hno _ => cases hno.symm.trans hli
    | ran _ hli' _ ht =>
      obtain rfl := Option.some.inj (hli'.symm.trans hli)
      exact MessageTrans.failed_of_mismatch ht.messageTrans ha hst (UInt32.ne_of_lt hlt)

/-! ### A late duplicate -/

/-- The client of a session, written out. -/
def acknowledgingReply (σ : Session) : Reply := fun _ m =>
  if Carries m .handshake then
    some (extHandshakeResponse σ.target respStatusOngoing σ.imageTag σ.start)
  else if Carries m .imageSegment then
    if maxSegmentPayloadLength.toNat * ((segmentIndex m).toNat + 1) < σ.image.length then
      some (segmentResponse σ.target respStatusOngoing σ.imageTag (segmentIndex m))
    else some (segmentResponse σ.target respStatusCompleted σ.imageTag (segmentIndex m))
  else none

def acknowledgingClient (σ : Session) : AcknowledgingClient σ where
  reply := acknowledgingReply σ
  acknowledges {a m r} h := by
    unfold acknowledgingReply at h
    split_ifs at h with hh hs hk
    · exact Option.some.inj h ▸ .handshake hh (acceptsImage_extHandshakeResponse σ)
    · exact Option.some.inj h ▸
        .ongoing hs hk (answersSegment_segmentResponse _ m _ (by decide))
    · exact Option.some.inj h ▸
        .completed hs (not_lt.mp hk) (answersSegment_segmentResponse _ m _ (by decide))

/-- An image of 200 bytes: three segments. -/
def threeSegments : Session where
  target := 5
  imageTag := 7
  image := List.replicate 200 0
  start := 0
  target_ne := Delivery.twoSegments.target_ne
  length_pos := by rw [List.length_replicate]; decide
  length_le := by rw [List.length_replicate]; decide
  start_lt := by rw [List.length_replicate]; decide

/-- The first segment is sent twice and both copies are answered. One answer arrives, and the second
segment is submitted. -/
def retransmission : List Label :=
  attempt plainEnv ++ [.deliverResponse 0] ++ attempt plainEnv ++
    [.handler (.timerExpired plainEnv)] ++ attempt plainEnv ++
    [.deliverResponse 0, .handler (.timerExpired plainEnv)]

/-- The other answer. -/
theorem failed_iff_overtaken_duplicate : ∃ n : Net,
    (network defaultConfig threeSegments (acknowledgingReply threeSegments)).Reach OneProcess n ∧
      Overtaken n (.deliverResponse 0) := by
  obtain ⟨n, n', as, hn, hl, h, hf⟩ := exists_report OneProcess defaultConfig threeSegments
    (acknowledgingReply threeSegments) retransmission (.deliverResponse 0) .failed
    (by decide +kernel)
  exact ⟨n, hn, (failed_iff_overtaken (acknowledgingClient threeSegments) hn hl h).mp hf⟩

/-- **A late duplicate ends the distribution**: the second answer to the first segment comes while
the second segment is pending. -/
theorem late_duplicate_fails : ∃ (σ : Session) (c : AcknowledgingClient σ) (n n' : Net) (l : Label)
    (as : List Action), (network defaultConfig σ c.reply).Reach OneProcess n ∧ OneProcess n l ∧
      (network defaultConfig σ c.reply).step n l = some (n', as) ∧
      .imageDistributionComplete .failed ∈ as := by
  obtain ⟨n, n', as, h⟩ := exists_report OneProcess defaultConfig threeSegments
    (acknowledgingReply threeSegments) retransmission (.deliverResponse 0) .failed
    (by decide +kernel)
  exact ⟨threeSegments, acknowledgingClient threeSegments, n, n', _, as, h⟩

end ConnectNcpHost.Ota.Retransmission
