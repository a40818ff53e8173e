import ConnectNcpHost.Ota.Completion
import ConnectNcpHost.Ota.Delivery
import ConnectNcpHost.Ota.Parameters
import ConnectNcpHost.Ota.Retransmission
import ConnectNcpHost.Ota.Retries
import ConnectNcpHost.Ota.Timer

/-! # A transfer can be brought to its end

The network of a session with the timer of the server's thread, and a conforming client that answers
what it can. In a run frames and responses may have been lost, refused, delayed or overtaken. Where
the server still tolerates an error, steps in which nothing fails lead from there to SUCCESS, and to
a client that holds the image (`exists_success_of_reach`).

* `AheadInv`: the client has received every segment before the next one.
* `exists_submitted`, `exists_waiting`, `exists_answer`, `exists_advanced`: the four steps of an
  exchange.
* `exists_interval`: a server that awaits something submits once more. -/

namespace ConnectNcpHost.Ota.TransferProgress

open ConnectNcpHost.Lib.Runs ConnectNcpHost.Lib.Chunks ConnectNcpHost.Ota.Protocol
open ConnectNcpHost.Ota.BootloaderServer ConnectNcpHost.Ota.Transition ConnectNcpHost.Ota.Frames
open ConnectNcpHost.Ota.SegmentBounds ConnectNcpHost.Ota.Network ConnectNcpHost.Ota.Delivery
open ConnectNcpHost.Ota.Processes ConnectNcpHost.Ota.Parameters ConnectNcpHost.Ota.Retries
open ConnectNcpHost.Ota.Timer (Host TimerInv KeepsEvent timerInv_finished timerInv_of_armed
  timerInv_step)
open ConnectNcpHost.Ota.Completion (not_begins_of_running)
open ConnectNcpHost.Ota.Retransmission (IsOngoing)

variable {cfg : Config} {σ : Session} {reply : Reply} {s : Server} {n n' : Net}

/-! ## The timer -/

/-- The timer expires in this step. -/
def expires : Label → Bool
  | .handler (.timerExpired _) => true
  | _ => false

/-- A sent callback is lost. -/
def losesSent : Label → Bool
  | .loseSent _ => true
  | _ => false

/-- Whether the timer is armed after a step. -/
def armedAfter (armed expired : Bool) (as : List Action) : Bool :=
  (Host.acts ⟨armed && !expired, []⟩ as).armed

/-- **The network with the timer of the server's thread**, which the thread has armed at its
start. -/
def timedNetwork (cfg : Config) (σ : Session) (reply : Reply) : System (Net × Bool) Label Action :=
  (network cfg σ reply).observe true fun armed _ l as => armedAfter armed (expires l) as

/-- The timer expires when it is armed, and a sent callback comes for every accepted frame. -/
structure Timely (armed : Bool) (l : Label) : Prop where
  armed : expires l = true → armed = true
  sent : losesSent l = false

instance (armed : Bool) (l : Label) : Decidable (Timely armed l) :=
  decidable_of_iff ((expires l = true → armed = true) ∧ losesSent l = false)
    ⟨fun h => ⟨h.1, h.2⟩, fun h => ⟨h.1, h.2⟩⟩

/-- One process, a callback that copies the image, and what the surroundings owe. -/
def Attended (σ : Session) (p : Net × Bool) (l : Label) : Prop :=
  Honest σ p.1 l ∧ Timely p.2 l

/-- The steps in which nothing fails: the timer expires, the callback copies the segment and the
frame is accepted and acknowledged; what is in flight arrives. -/
def Faultless (σ : Session) (p : Net × Bool) (l : Label) : Prop :=
  Timely p.2 l ∧ match l with
    | .handler i => i = .timerExpired (imageEnv σ)
    | .messageSent _ status => status = emberSuccess
    | .deliverFrame _ | .deliverResponse _ => True
    | _ => False

theorem Faultless.attended {p : Net × Bool} {l : Label} (h : Faultless σ p l) :
    Attended σ p l := by
  obtain ⟨htimely, hl⟩ := h
  refine ⟨?_, htimely⟩
  cases l with
  | handler i =>
    obtain rfl : i = .timerExpired (imageEnv σ) := hl
    refine ⟨trivial, fun env henv bytes hb => ?_⟩
    cases henv
    exact (Option.some.inj hb).symm
  | messageSent _ _ => exact ⟨trivial, fun env henv => by cases henv⟩
  | deliverFrame _ => exact ⟨trivial, fun env henv => by cases henv⟩
  | deliverResponse _ => exact ⟨trivial, fun env henv => by cases henv⟩
  | _ => exact absurd hl id

/-! ## The client -/

/-- The response reaches the server: secured, from the target, under the tag of the transfer. -/
structure Addressed (σ : Session) (r : EmberIncomingMessage) : Prop where
  endpoint : r.endpoint = emberAfPluginOtaUnicastBootloaderServerEndpoint
  secured : r.options &&& emberOptionsSecurityEnabled ≠ 0
  source : r.source = σ.target
  tag : r.payload handshakeRespTagOffset = σ.imageTag

/-- A conforming client that answers every handshake, and every segment it has. -/
structure AnsweringClient (σ : Session) extends ConformingClient σ where
  addressed : ∀ {a m r}, reply a m = some r → Addressed σ r
  answered : ∀ {a m}, a.Holds maxSegmentPayloadLength.toNat σ.image →
    Carries m .handshake ∨ Carries m .imageSegment ∧ (segmentIndex m).toNat < a.expected →
    ∃ r, reply a m = some r

theorem addressed_response {commandId status : UInt8} {index : UInt32}
    {length : EmberMessageLength} :
    Addressed σ (response σ.target commandId status σ.imageTag index length) where
  endpoint := rfl
  secured := show emberOptionsSecurityEnabled &&& emberOptionsSecurityEnabled ≠ 0 by decide
  source := rfl
  tag := rfl

/-- A client that has the segment asked about holds the image, or there is more to come. -/
theorem length_held_or_more {a : Assembler UInt8} {k : ℕ}
    (ha : a.Holds maxSegmentPayloadLength.toNat σ.image) (hk : k < a.expected) :
    a.held.length = σ.image.length ∨
      maxSegmentPayloadLength.toNat * (k + 1) < σ.image.length := by
  have hpos : 0 < maxSegmentPayloadLength.toNat := by decide
  rcases ha.le.eq_or_lt with he | hlt
  · exact .inl ((ha.length_eq_iff hpos).mpr he)
  · exact .inr ((lt_ceilDiv_iff hpos _ _).mp (lt_of_le_of_lt hk hlt))

/-- The conforming client that is written out answers what it can. -/
def answeringClient (σ : Session) : AnsweringClient σ where
  toConformingClient := conformingClient σ
  addressed {a m r} h := by
    change conformingReply σ a m = some r at h
    unfold conformingReply at h
    split_ifs at h <;> exact Option.some.inj h ▸ addressed_response
  answered {a m} ha hm := by
    show ∃ r, conformingReply σ a m = some r
    unfold conformingReply
    rcases hm with hm | ⟨hm, hk⟩
    · rw [if_pos hm]
      exact ⟨_, rfl⟩
    · rw [if_neg fun h => (by cases hm.eq h), if_pos hm, if_neg (not_lt.mpr hk.le)]
      split_ifs with hfull hmore
      · exact ⟨_, rfl⟩
      · exact ⟨_, rfl⟩
      · rcases length_held_or_more ha hk with h | h
        · exact absurd ⟨hk, h⟩ hfull
        · exact absurd ⟨hk, h⟩ hmore

/-! ## The next segment -/

/-- What becomes of the next segment. -/
inductive NextSegment (s : Server) (i : Input) (s' : Server) : Prop
  | kept (h : s'.nextSegment = s.nextSegment)
      (hr : requestOf s'.internalState = some .imageSegment →
        requestOf s.internalState = some .imageSegment)
  | opened {m : EmberIncomingMessage} (hi : i = .incomingMessage m)
      (ha : AcceptsHandshakeResponse s m) (hst : respStatus m = respStatusOngoing)
      (h : s'.nextSegment = startSegment m)
  | advanced {m : EmberIncomingMessage} (hi : i = .incomingMessage m)
      (ha : AcceptsSegmentResponse s m) (hst : respStatus m = respStatusOngoing)
      (hidx : respIndex m = s.sentSegment) (hn : s.nextSegment < getTotalSegmentsCount s)
      (h : s'.nextSegment = s.nextSegment + 1)
  | wrapped {m : EmberIncomingMessage} (hi : i = .incomingMessage m)
      (ha : AcceptsSegmentResponse s m) (hn : ¬ s.nextSegment < getTotalSegmentsCount s)
  | left (h : requestOf s'.internalState ≠ some .imageSegment)

theorem nextSegment_failed {s1 : Server} {i : Input} {r : Request} {o : Outcome}
    (hr : requestOf s.internalState = some r) (hn : s1.nextSegment = s.nextSegment)
    (ho : Failed cfg r s1 o) : NextSegment s i o.server := by
  cases ho with
  | gaveUp _ => exact .left (by simp [finished])
  | retried _ _ =>
    refine .kept hn fun h => ?_
    obtain rfl : r = .imageSegment := by simpa [scheduled] using h
    exact hr

theorem nextSegment_event {env : EventEnv} {i : Input} {o : Outcome}
    (ht : EventTrans cfg s env o) : NextSegment s i o.server := by
  cases ht with
  | @submitted r _ hs _ _ =>
    refine .kept (by cases r <;> rfl) fun h => ?_
    rw [Request.submitted_internalState, requestOf_pending] at h
    rw [hs, requestOf_interval, h]
  | underflow _ => exact .left (by simp [finished])
  | @notSubmitted r _ o hs _ _ ho =>
    show NextSegment s i o.server
    exact nextSegment_failed (by rw [hs]; exact requestOf_interval r) (by rfl) ho
  | @timedOut r _ hs ho =>
    exact nextSegment_failed (by rw [hs]; exact requestOf_waiting r) (by rfl) ho
  | idle _ => exact .kept rfl id

theorem nextSegment_of_trans {i : Input} {o : Outcome} (ht : Trans cfg s i o) :
    NextSegment s i o.server := by
  cases ht with
  | call ht =>
    cases ht with
    | refused _ _ => exact .kept rfl id
    | imageStarted _ _ _ _ => exact .left (by simp [requestOf])
    | bootloadStarted _ _ => exact .left (by simp [requestOf])
    | aborted _ _ => exact .left (by simp [finished])
  | message ht =>
    cases ht with
    | ignored _ _ _ => exact .kept rfl id
    | handshakeEnded _ _ => exact .left (by simp [finished])
    | segmentEnded _ _ => exact .left (by simp [finished])
    | bootloadAnswered _ => exact .left (by simp [finished])
    | segmentAdvanced ha hst hidx hn => exact .advanced rfl ha hst hidx hn rfl
    | segmentWrapped ha _ _ hn => exact .wrapped rfl ha hn
    | segmentIgnored ha _ => exact .kept rfl fun _ => ha.requestOf_eq
    | handshakeAccepted ha hst ho =>
      cases ho with
      | gaveUp _ => exact .left (by simp [finished])
      | retried _ _ => exact .opened rfl ha hst rfl
  | sent ht =>
    cases ht with
    | ignored _ => exact .kept rfl id
    | @succeeded r _ hs _ =>
      refine .kept rfl fun h => ?_
      rw [hs, requestOf_pending]
      simpa [scheduled] using h
    | @failed r s1 _ _ hs _ he ho =>
      refine nextSegment_failed (by rw [hs]; exact requestOf_pending r) ?_ ho
      cases he <;> rfl
  | timer _ ht => exact nextSegment_event ht
  | timerIgnored _ => exact .kept rfl id
  | event _ ht => exact nextSegment_event ht

/-- **Invariant.** The client has received every segment before the next one, and every segment a
response on its way acknowledges. -/
structure AheadInv (σ : Session) (n : Net) : Prop where
  request : requestOf n.server.internalState ≠ some .bootloadRequest
  start : σ.start.toNat ≤ n.client.expected
  next : requestOf n.server.internalState = some .imageSegment →
    n.server.nextSegment.toNat ≤ n.client.expected
  responses : ∀ r ∈ n.responses, IsOngoing r → (respIndex r).toNat < n.client.expected

theorem expected_received (a : Assembler UInt8) (m : EmberOutgoingMessage) :
    a.expected ≤ (received a m).expected := by
  unfold received Assembler.accept
  split_ifs
  · exact Nat.le_succ _
  · exact le_rfl
  · exact le_rfl

/-- A client that is not behind has the segment it has received. -/
theorem lt_expected_received {a : Assembler UInt8} {m : EmberOutgoingMessage}
    (hm : Carries m .imageSegment) (h : (segmentIndex m).toNat ≤ a.expected) :
    (segmentIndex m).toNat < (received a m).expected := by
  unfold received Assembler.accept
  rw [if_pos hm]
  split_ifs with he
  · exact Nat.lt_succ_of_le h
  · exact lt_of_le_of_ne h he

theorem AheadInv.drops (h : AheadInv σ n) (hd : Drops n n') : AheadInv σ n' where
  request := hd.server ▸ h.request
  start := hd.client ▸ h.start
  next := by rw [hd.server, hd.client]; exact h.next
  responses r hr ho := by rw [hd.client]; exact h.responses r (hd.responses hr) ho

/-- The start index of a response the server accepts is that of the session. -/
theorem startSegment_of_accepts (c : ConformingClient σ) (hs : SessionInv σ c.reply n)
    {r : EmberIncomingMessage} (hr : r ∈ n.responses) (ha : AcceptsHandshakeResponse n.server r) :
    startSegment r = σ.start := by
  obtain ⟨a, m, -, hreply⟩ := hs.responses r hr
  cases c.answers hreply with
  | handshake _ hr => exact hr.start
  | ongoing _ _ _ hr => exact absurd ha.command hr.not_handshake
  | completed _ _ _ hr => exact absurd ha.command hr.not_handshake
  | outOfSeq _ _ hr => exact absurd ha.command hr.not_handshake

/-- No process is started in the network of a session. -/
theorem not_begins_of_comes {i : Input} {o : Outcome} (hi : Comes n i)
    (ht : Trans cfg n.server i o) : begins i o.actions = false := by
  cases i with
  | initiateImageDistribution _ _ _ => exact not_begins_of_running hi ht
  | initiateRequestTargetBootload _ _ _ _ => exact not_begins_of_running hi ht
  | _ => rfl

theorem aheadInv_step (c : ConformingClient σ) {l : Label} {as : List Action}
    (hs : SessionInv σ c.reply n) (h : AheadInv σ n) (ht : NetTrans cfg c.reply n l n' as) :
    AheadInv σ n' := by
  cases ht with
  | lost hd _ => exact h.drops hd
  | @delivered n1 m hd _ hm =>
    have h1 := h.drops hd
    have hle := expected_received n1.client m
    refine ⟨h1.request, h1.start.trans hle, fun hr => (h1.next hr).trans hle, fun r hr ho => ?_⟩
    rcases List.mem_append.mp hr with hr | hr
    · exact lt_of_lt_of_le (h1.responses r hr ho) hle
    · cases c.answers (Option.mem_toList.mp hr) with
      | handshake _ hr => rcases hr.command with hc | hc <;> cases hc.symm.trans ho.1
      | ongoing _ hk _ hr => rw [hr.index]; exact hk
      | completed _ _ _ hr => exact absurd (hr.status.symm.trans ho.2) (by decide)
      | outOfSeq _ _ hr => exact absurd (hr.status.symm.trans ho.2) (by decide)
  | @ran n1 i o hd hl hi ht =>
    have h1 := h.drops hd
    have hcomes : ∀ {m}, i = .incomingMessage m → FromTarget n.server m → m ∈ n.responses :=
      fun he hf => by subst he; exact hi.resolve_right (not_not.mpr hf)
    refine ⟨fun hb => ?_, h1.start, fun hr => ?_, h1.responses⟩
    · change requestOf o.server.internalState = _ at hb
      cases (keeps_of_trans ht (not_begins_of_comes hi ht)).2 with
      | ended h' => rw [h'] at hb; cases hb
      | kept h' => exact h.request (h' ▸ hb)
      | moved r r' hr hr' hp =>
        obtain rfl : r' = .bootloadRequest := Option.some.inj (hr'.symm.trans hb)
        cases r with
        | bootloadRequest => exact h.request hr
        | _ => cases hp
    · show o.server.nextSegment.toNat ≤ n1.client.expected
      rw [hd.client]
      cases nextSegment_of_trans ht with
      | kept hn hk => rw [hn]; exact h.next (hk hr)
      | opened he ha _ hn =>
        rw [hn, startSegment_of_accepts c hs (hcomes he ha.fromTarget) ha]
        exact h.start
      | @advanced m he ha hst hidx hn hn' =>
        have hlt := h.responses m (hcomes he ha.fromTarget) ⟨ha.command, hst⟩
        rw [hidx, hs.segment.sent ha.state] at hlt
        rw [hn', toNat_add_one hn]
        exact hlt
      | wrapped _ ha hn => exact absurd (hs.segment.next ha.requestOf_eq) hn
      | left hr' => exact absurd hr hr'

/-! ## The invariant -/

/-- The timer and the sent callbacks to come after an action. -/
theorem act_eq (h : Host) (a : Action) :
    h.act a = ⟨(Host.act ⟨h.armed, []⟩ a).armed, h.awaiting ++ acceptedFrames [a]⟩ := by
  cases a with
  | timerfdSettime tvNsec =>
    simp only [Host.act]
    split_ifs <;> simp [acceptedFrames]
  | messageSend m status =>
    simp only [Host.act]
    split_ifs with hst <;> simp [acceptedFrames, hst]
  | _ => simp [Host.act, acceptedFrames]

/-- The same after a list of actions. -/
theorem acts_eq (h : Host) (as : List Action) :
    h.acts as = ⟨(Host.acts ⟨h.armed, []⟩ as).armed, h.awaiting ++ acceptedFrames as⟩ := by
  induction as generalizing h with
  | nil => simp [acceptedFrames]
  | cons a as ih =>
    have hcons : ∀ h : Host, h.acts (a :: as) = (h.act a).acts as := fun _ => rfl
    have happend : acceptedFrames (a :: as) = acceptedFrames [a] ++ acceptedFrames as :=
      List.filterMap_append (l := [a])
    rw [hcons, hcons, ih, ih (Host.act _ a), act_eq h a, happend, List.append_assoc]

/-- **Invariant.** What is known of every state of a run: the transfer of the session, what is in
flight and what the client holds; a timer or a sent callback is to come, and another attempt is
left. -/
structure ProgressInv (σ : Session) (reply : Reply) (p : Net × Bool) : Prop where
  session : SessionInv σ reply p.1
  delivery : DeliveryInv σ p.1
  ahead : AheadInv σ p.1
  timer : TimerInv p.1.server ⟨p.2, p.1.awaiting⟩
  retries : ∃ g, RetryInv p.1.server g

theorem progressInv_start {p : Net × Bool} (h : (timedNetwork cfg σ reply).start p) :
    ProgressInv σ reply p := by
  obtain ⟨n, armed⟩ := p
  obtain ⟨⟨s, s', hstarts, rfl⟩, rfl⟩ := h
  have hfresh : s'.internalState = .handshakeInterval ∧ s'.otaEventIsActive = true ∧
      s'.stackErrorsCount = 0 ∧ s'.currentTargetErrorsCount = 0 := by
    obtain ⟨as, hst, hret⟩ := hstarts
    have ht := trans_of_step hst
    generalize ho : (⟨s', as⟩ : Outcome) = o at ht
    cases ht with
    | call ht =>
      cases ht with
      | @refused _ st _ hr =>
        obtain ⟨-, rfl⟩ := Outcome.mk.inj ho
        obtain rfl : EmberAfOtaUnicastBootloaderStatus.success = st := by simpa using hret
        rcases hr with ⟨hb, -⟩ | hb <;> cases hb
      | imageStarted _ _ _ _ =>
        obtain ⟨rfl, -⟩ := Outcome.mk.inj ho
        exact ⟨rfl, rfl, rfl, rfl⟩
  obtain ⟨hst, hactive, hstack, htarget⟩ := hfresh
  have hreq : requestOf s'.internalState = some .handshake := by rw [hst]; rfl
  refine ⟨sessionInv_start hstarts, ⟨by simp, holds_session σ, by simp⟩,
    ⟨fun h => ?_, le_rfl, fun h => ?_, by simp⟩,
    timerInv_of_armed (r := .handshake) (.inl hst) rfl hactive,
    ?_⟩
  · cases hreq.symm.trans h
  · cases hreq.symm.trans h
  · exact ⟨.none, .interval .handshake hst (remaining_of_zero hstack htarget) (Nat.zero_le _)
      (Nat.zero_le _)⟩

/-- A conforming client takes no timer away. -/
theorem keepsEvent_of_mem (c : ConformingClient σ) (hs : SessionInv σ c.reply n)
    {r : EmberIncomingMessage} (hr : r ∈ n.responses) :
    KeepsEvent n.server (.other (.incomingMessage r)) := by
  intro ha
  refine ⟨fun _ => ?_, fun _ _ => hs.segment.next ha.requestOf_eq⟩
  obtain ⟨a, m, -, hreply⟩ := hs.responses r hr
  cases c.answers hreply with
  | handshake _ hr => rcases hr.command with hc | hc <;> cases hc.symm.trans ha.command
  | ongoing _ _ _ hr => exact .inr (.inl hr.status)
  | completed _ _ _ hr => exact .inl hr.status
  | outOfSeq _ _ hr => exact .inr (.inr (.inr hr.status))

theorem timerInv_timed (htx : cfg.txIntervalMs ≤ 999) (c : ConformingClient σ) {p p' : Net × Bool}
    {l : Label} {as : List Action} (hs : SessionInv σ c.reply p.1)
    (h : TimerInv p.1.server ⟨p.2, p.1.awaiting⟩) (hl : Attended σ p l)
    (hst : (timedNetwork cfg σ c.reply).step p l = some (p', as)) :
    TimerInv p'.1.server ⟨p'.2, p'.1.awaiting⟩ := by
  obtain ⟨n, armed⟩ := p
  obtain ⟨n', armed'⟩ := p'
  obtain ⟨hnet, harmed⟩ := System.observe_step hst
  obtain ⟨⟨hone, -⟩, htimely⟩ := hl
  dsimp only at hnet harmed htimely h hs ⊢
  subst harmed
  -- a stimulus of the server and its timer
  have htaken : ∀ (st : Timer.Stimulus) {i : Input} {o : Outcome} {awaiting},
      KeepsEvent n.server st →
      Host.take ⟨armed, n.awaiting⟩ st = some (i, ⟨armed && !expires l, awaiting⟩) →
      handle cfg n.server i = some o →
      TimerInv o.server ⟨armedAfter armed (expires l) o.actions,
        awaiting ++ acceptedFrames o.actions⟩ := by
    intro st i o awaiting hk htake ho
    have := timerInv_step htx h hk htake (trans_of_handle ho)
    rwa [acts_eq] at this
  cases l with
  | loseSent k => cases htimely.sent
  | loseFrame k =>
    obtain ⟨rfl, rfl⟩ := Prod.mk.inj (Option.some.inj hnet)
    simpa [armedAfter, expires] using h
  | loseResponse k =>
    obtain ⟨rfl, rfl⟩ := Prod.mk.inj (Option.some.inj hnet)
    simpa [armedAfter, expires] using h
  | deliverFrame k =>
    simp only [network, Option.bind_eq_bind, Option.bind_eq_some_iff, Option.pure_def,
      Option.some.injEq, Prod.mk.injEq] at hnet
    obtain ⟨m, -, rfl, rfl⟩ := hnet
    simpa [armedAfter, expires, Net.answered] using h
  | messageSent k status =>
    simp only [network, Option.bind_eq_bind, Option.bind_eq_some_iff, Option.pure_def,
      Option.some.injEq, Prod.mk.injEq] at hnet
    obtain ⟨m, hm, o, ho, rfl, rfl⟩ := hnet
    refine htaken (.messageSent status k) trivial ?_ ho
    simp [Host.take, hm, expires]
  | deliverResponse k =>
    simp only [network, Option.bind_eq_bind, Option.bind_eq_some_iff, Option.pure_def,
      Option.some.injEq, Prod.mk.injEq] at hnet
    obtain ⟨r, hr, o, ho, rfl, rfl⟩ := hnet
    refine htaken (.other (.incomingMessage r))
      (keepsEvent_of_mem c hs (List.mem_of_getElem? hr)) ?_ ho
    simp [Host.take, expires]
  | handler i =>
    obtain ⟨o, ho, he⟩ := Option.map_eq_some_iff.mp hnet
    obtain ⟨rfl, rfl⟩ := Prod.mk.inj he
    cases i with
    | timerExpired env =>
      obtain rfl : armed = true := htimely.armed rfl
      exact htaken (.timerExpired env) trivial (by simp [Host.take, expires]) ho
    | messageSent status m =>
      have hforeign : o = ⟨n.server, []⟩ :=
        (trans_of_handle ho).sentTrans.eq_of_not_pending fun r hr => absurd hr.1 hone
      subst hforeign
      simpa [Net.ran, acceptedFrames, armedAfter, expires] using h
    | incomingMessage m =>
      exact htaken (.other (.incomingMessage m)) (fun ha => absurd ha.fromTarget hone)
        (by simp [Host.take, expires]) ho
    | initiateImageDistribution target imageSize imageTag =>
      exact htaken (.other (.initiateImageDistribution target imageSize imageTag)) trivial
        (by simp [Host.take, expires]) ho
    | initiateRequestTargetBootload delay imageTag target nowMs =>
      exact htaken (.other (.initiateRequestTargetBootload delay imageTag target nowMs))
        trivial (by simp [Host.take, expires]) ho
    | abortCurrentProcess =>
      exact htaken (.other .abortCurrentProcess) trivial (by simp [Host.take, expires]) ho
    | eventActive env =>
      exact htaken (.other (.eventActive env)) trivial (by simp [Host.take, expires]) ho

theorem retryInv_timed {l : Label} {as : List Action} (h : ∃ g, RetryInv n.server g)
    (ht : NetTrans cfg reply n l n' as) : ∃ g, RetryInv n'.server g := by
  cases ht with
  | lost hd _ => rw [hd.server]; exact h
  | delivered hd _ _ => exact (congrArg (fun s => ∃ g, RetryInv s g) hd.server).mpr h
  | ran _ _ _ ht =>
    obtain ⟨g, hg⟩ := h
    exact ⟨_, retryInv_step hg ht⟩

theorem progressInv_step (htx : cfg.txIntervalMs ≤ 999) (c : ConformingClient σ)
    {p p' : Net × Bool} {l : Label} {as : List Action} (h : ProgressInv σ c.reply p)
    (hl : Attended σ p l) (hst : (timedNetwork cfg σ c.reply).step p l = some (p', as)) :
    ProgressInv σ c.reply p' := by
  have ht := netTrans_of_step hl.1.1 (System.observe_step hst).1
  exact ⟨sessionInv_step (keepsInImage_client c) h.session ht,
    deliveryInv_step h.session h.delivery hl.1 ht, aheadInv_step c h.session h.ahead ht,
    timerInv_timed htx c h.session h.timer hl hst, retryInv_timed h.retries ht⟩

theorem progressInv_of_reach (htx : cfg.txIntervalMs ≤ 999) (c : ConformingClient σ)
    {p : Net × Bool} (h : (timedNetwork cfg σ c.reply).Reach (Attended σ) p) :
    ProgressInv σ c.reply p :=
  System.Reach.invariant (fun _ => progressInv_start)
    (fun _ _ _ _ _ hinv hl hst => progressInv_step htx c hinv hl hst) h

/-! ## The steps of an exchange -/

variable {c : AnsweringClient σ} {p : Net × Bool} {r : Request}

theorem timed_step {l : Label} {as : List Action}
    (h : (network cfg σ reply).step p.1 l = some (n', as)) :
    (timedNetwork cfg σ reply).step p l = some ((n', armedAfter p.2 (expires l) as), as) := by
  simp only [timedNetwork, System.observe, h, Option.map_some]

theorem timed_handler {i : Input} {o : Outcome} (h : handle cfg p.1.server i = some o) :
    (timedNetwork cfg σ reply).step p (.handler i) =
      some ((p.1.ran o, armedAfter p.2 (expires (.handler i)) o.actions), o.actions) :=
  timed_step (by simp only [network, h, Option.map_some])

/-- `unicastNextSegment`, where the callback has copied the segment. -/
theorem unicastNextSegment_of_copied {env : EventEnv} {bytes : List UInt8}
    (h : env.getImageSegment (segmentStartIndex s) (segmentEndIndex s)
      s.currentImageTagOrServerStatus = some bytes) :
    unicastNextSegment cfg env s = (unicastNextSegmentSent cfg env.sendStatus s).after
      [segmentCallback s, .messageSend (segmentFrame env.stack bytes s) env.sendStatus] := by
  rw [unicastNextSegment, h]

/-- The event handler in an interval state, up to the return of `emberMessageSend`. -/
theorem eventHandler_interval {env : EventEnv} {m : EmberOutgoingMessage}
    (hs : s.internalState = r.interval) (hf : IsFrame env s r m) :
    emAfPluginOtaUnicastBootloaderServerEventHandler cfg env s =
      (r.sent cfg env.sendStatus { s with otaEventIsActive := false }).after
        (r.prelude s ++ [.messageSend m env.sendStatus]) := by
  obtain ⟨st, _, _, _, _, _, _, _, _⟩ := s
  obtain rfl : st = r.interval := hs
  cases hf with
  | handshake => rfl
  | imageSegment hbytes => exact unicastNextSegment_of_copied (by exact hbytes)
  | bootloadRequest => rfl

/-- `emberMessageSend` has accepted the frame. -/
theorem sent_success (r : Request) (s : Server) :
    r.sent cfg emberSuccess s = ⟨r.submitted s, []⟩ := by cases r <;> rfl

/-- The frame of a request, where the callback copies the image. -/
theorem exists_isFrame (σ : Session) (s : Server) (r : Request) :
    ∃ m, IsFrame (imageEnv σ) s r m ∧ Carries m r ∧
      (r = .imageSegment → segmentIndex m = s.nextSegment) := by
  cases r with
  | handshake => exact ⟨_, .handshake, carries_of_isFrame .handshake, fun h => by cases h⟩
  | bootloadRequest =>
    exact ⟨_, .bootloadRequest, carries_of_isFrame .bootloadRequest, fun h => by cases h⟩
  | imageSegment =>
    have hf : IsFrame (imageEnv σ) s .imageSegment _ := .imageSegment rfl
    exact ⟨_, hf, carries_of_isFrame hf, fun _ => segmentIndex_segmentFrame _ _ _⟩

/-- The frame `m` is on its way to the client `a`, the server in the state `st` with the next segment
`k`. -/
structure OnItsWay (st : StateOtaServer) (k : UInt32) (a : Assembler UInt8)
    (m : EmberOutgoingMessage) (n : Net) : Prop where
  state : n.server.internalState = st
  next : n.server.nextSegment = k
  client : n.client = a
  frame : m ∈ n.frames

/-- The timer expires, and the frame of the request is accepted. -/
theorem exists_submitted (cfg : Config) (h : ProgressInv σ reply p)
    (hs : p.1.server.internalState = r.interval) :
    ∃ m l p' as, Faultless σ p l ∧ (timedNetwork cfg σ reply).step p l = some (p', as) ∧
      OnItsWay r.pending p.1.server.nextSegment p.1.client m p'.1 ∧ Carries m r ∧
      (r = .imageSegment → segmentIndex m = p.1.server.nextSegment) := by
  obtain ⟨harmed, hactive⟩ := h.timer.timer (.inl hs)
  obtain ⟨m, hf, hc, hidx⟩ := exists_isFrame σ p.1.server r
  have ho : handle cfg p.1.server (.timerExpired (imageEnv σ)) = some
      ⟨r.submitted { p.1.server with otaEventIsActive := false },
        r.prelude p.1.server ++ [.messageSend m emberSuccess]⟩ := by
    rw [handle, if_pos hactive, eventHandler_interval hs hf,
      show (imageEnv σ).sendStatus = emberSuccess from rfl, sent_success, Outcome.after,
      List.append_nil]
  refine ⟨m, .handler (.timerExpired (imageEnv σ)), _, _, ⟨⟨fun _ => harmed, rfl⟩, rfl⟩,
    timed_handler ho, ⟨?_, ?_, rfl, ?_⟩, hc, hidx⟩
  · exact Request.submitted_internalState r _
  · cases r <;> rfl
  · refine List.mem_append_right _ (mem_acceptedFrames.mpr ?_)
    simp

/-- The frame is acknowledged. -/
theorem exists_waiting (cfg : Config) (h : ProgressInv σ reply p)
    (hs : p.1.server.internalState = r.pending) :
    ∃ l p' as, Faultless σ p l ∧ (timedNetwork cfg σ reply).step p l = some (p', as) ∧
      p'.1.server = scheduled r.waiting { p.1.server with stackErrorsCount := 0 } ∧
      p'.1.client = p.1.client ∧ p'.1.frames = p.1.frames := by
  obtain ⟨-, m, hm, hc⟩ := h.timer.pending hs
  obtain ⟨k, hk⟩ := List.getElem?_of_mem hm
  have hst := messageSent_trans cfg p.1.server emberSuccess m
  generalize ho : emAfPluginOtaUnicastBootloaderServerMessageSentCallback cfg emberSuccess m
    p.1.server = o at hst
  have hnet : (network cfg σ reply).step p.1 (.messageSent k emberSuccess) =
      some ({ p.1 with awaiting := p.1.awaiting.eraseIdx k }.ran o, o.actions) := by
    simp only [network, show p.1.awaiting[k]? = some m from hk, Option.bind_eq_bind,
      Option.bind_some, handle, ho, Option.pure_def]
  refine ⟨_, _, _, ⟨⟨fun h => (by cases h), rfl⟩, rfl⟩, timed_step hnet, ?_⟩
  cases hst with
  | ignored hn => exact absurd hs (hn r hc)
  | failed _ _ hne _ _ => exact absurd rfl hne
  | succeeded hc' _ _ =>
    obtain rfl := hc.eq hc'
    exact ⟨rfl, rfl, by simp [Net.ran, acceptedFrames]⟩

/-- The response does not come in time, and another attempt follows. -/
theorem exists_retried (cfg : Config) (h : ProgressInv σ reply p)
    (hs : p.1.server.internalState = r.waiting)
    (hspare : p.1.server.currentTargetErrorsCount + 1 < maxUnicastErrors) :
    ∃ l p' as, Faultless σ p l ∧ (timedNetwork cfg σ reply).step p l = some (p', as) ∧
      p'.1.server.internalState = r.interval := by
  obtain ⟨harmed, hactive⟩ := h.timer.timer (.inr hs)
  have hst := eventHandler_trans cfg (imageEnv σ) p.1.server
  generalize ho : emAfPluginOtaUnicastBootloaderServerEventHandler cfg (imageEnv σ) p.1.server = o
    at hst
  have ho : handle cfg p.1.server (.timerExpired (imageEnv σ)) = some o := by
    rw [handle, if_pos hactive, ho]
  refine ⟨.handler (.timerExpired (imageEnv σ)), _, _, ⟨⟨fun _ => harmed, rfl⟩, rfl⟩,
    timed_handler ho, ?_⟩
  show o.server.internalState = r.interval
  have hne : ∀ r' : Request, p.1.server.internalState ≠ r'.interval := fun _ h' =>
    interval_ne_waiting _ r (h'.symm.trans hs)
  cases hst with
  | submitted h' _ _ => exact absurd h' (hne _)
  | underflow h' => exact absurd h' (hne .imageSegment)
  | notSubmitted h' _ _ _ => exact absurd h' (hne _)
  | idle h' => exact absurd hs (h' r).2
  | @timedOut r' _ h' hfailed =>
    obtain rfl : r = r' := by
      have := congrArg requestOf (hs.symm.trans h')
      simpa using this
    obtain ⟨g, hg⟩ := h.retries
    have hbusy : p.1.server.internalState ≠ .idle := fun hi => idle_ne.2.2 (hi.symm.trans hs)
    cases hfailed with
    | retried _ _ => rfl
    | gaveUp hst =>
      rcases hst with ⟨-, hle⟩ | ⟨-, hle⟩
      · exact absurd (hg.busy hbusy).1.stack (not_lt.mpr (UInt8.le_iff_toNat_le.mp hle))
      · exact absurd hspare (UInt8.not_lt.mpr hle)

/-- The client receives the frame, and answers it. -/
theorem exists_answer (cfg : Config) (h : ProgressInv σ c.reply p) {st : StateOtaServer} {k : UInt32}
    {a : Assembler UInt8} {m : EmberOutgoingMessage} (hway : OnItsWay st k a m p.1)
    (hm : Carries m .handshake ∨
      Carries m .imageSegment ∧ (segmentIndex m).toNat ≤ p.1.client.expected) :
    ∃ resp l p' as, Faultless σ p l ∧
      (timedNetwork cfg σ c.reply).step p l = some (p', as) ∧
      p'.1.server = p.1.server ∧ resp ∈ p'.1.responses ∧ c.reply p'.1.client m = some resp := by
  obtain ⟨j, hj⟩ := List.getElem?_of_mem hway.frame
  have hrec := holds_received h.delivery.client (h.session.frames m hway.frame)
    (h.delivery.frames m hway.frame)
  obtain ⟨resp, hresp⟩ :=
    c.answered hrec (hm.imp_right fun hm => ⟨hm.1, lt_expected_received hm.1 hm.2⟩)
  have hnet : (network cfg σ c.reply).step p.1 (.deliverFrame j) =
      some ({ p.1 with frames := p.1.frames.eraseIdx j }.answered c.reply m, []) := by
    simp only [network, show p.1.frames[j]? = some m from hj, Option.bind_eq_bind,
      Option.bind_some, Option.pure_def]
  refine ⟨resp, _, _, _, ⟨⟨fun h => (by cases h), rfl⟩, trivial⟩, timed_step hnet, rfl, ?_, hresp⟩
  exact List.mem_append_right _ (Option.mem_toList.mpr hresp)

/-- How many segments are left, and the handshake. -/
def segmentsLeft (σ : Session) (n : Net) : ℕ :=
  σ.image.length ⌈/⌉ maxSegmentPayloadLength.toNat + 1 -
    if requestOf n.server.internalState = some .handshake then 0
    else n.server.nextSegment.toNat + 1

/-- The last step: SUCCESS is reported, and the client holds the image. -/
def Succeeds (cfg : Config) (σ : Session) (reply : Reply) (p : Net × Bool) : Prop :=
  ∃ l p' as, Faultless σ p l ∧ (timedNetwork cfg σ reply).step p l = some (p', as) ∧
    .imageDistributionComplete .success ∈ as ∧ p'.1.client.held = σ.image

/-- A response of the client that is delivered. -/
theorem timed_deliverResponse (cfg : Config) (reply : Reply) {resp : EmberIncomingMessage}
    (hr : resp ∈ p.1.responses) :
    ∃ l p1, Faultless σ p l ∧ Drops p.1 p1 ∧ (timedNetwork cfg σ reply).step p l =
      some ((p1.ran (emAfPluginOtaUnicastBootloaderServerIncomingMessageCallback cfg resp
        p.1.server), armedAfter p.2 (expires l)
        (emAfPluginOtaUnicastBootloaderServerIncomingMessageCallback cfg resp p.1.server).actions),
        (emAfPluginOtaUnicastBootloaderServerIncomingMessageCallback cfg resp
          p.1.server).actions) := by
  obtain ⟨j, hj⟩ := List.getElem?_of_mem hr
  refine ⟨.deliverResponse j, { p.1 with responses := p.1.responses.eraseIdx j },
    ⟨⟨fun h => (by cases h), rfl⟩, trivial⟩,
    ⟨rfl, rfl, List.Subset.refl _, List.eraseIdx_subset⟩, timed_step ?_⟩
  simp only [network, show p.1.responses[j]? = some resp from hj, Option.bind_eq_bind,
    Option.bind_some, handle, Option.pure_def]

theorem fromTarget_of_addressed (h : ProgressInv σ reply p) {resp : EmberIncomingMessage}
    (ha : Addressed σ resp) : FromTarget p.1.server resp :=
  ⟨ha.endpoint, ha.secured, ha.source.trans h.session.runs.target.symm⟩

/-- No response of another kind is accepted. -/
theorem not_acceptsSegmentResponse {resp : EmberIncomingMessage}
    (ha : AcceptsHandshakeResponse s resp) : ¬ AcceptsSegmentResponse s resp := fun h => by
  cases h.requestOf_eq.symm.trans (congrArg requestOf ha.state)

/-- A handshake response that is accepted with ONGOING opens the transfer. -/
theorem opened_of_accepts {resp : EmberIncomingMessage} {o : Outcome}
    (ht : MessageTrans cfg s resp o) (ha : AcceptsHandshakeResponse s resp)
    (hst : respStatus resp = respStatusOngoing) (hstack : s.stackErrorsCount < maxStackErrors) :
    o.server.internalState = .segmentUnicastInterval := by
  have hseg := not_acceptsSegmentResponse ha
  cases ht with
  | ignored hh _ _ => exact absurd ha hh
  | handshakeEnded _ hstatus =>
    rcases hstatus with ⟨-, hstatus⟩ | ⟨-, hstatus⟩
    · exact absurd (hst.symm.trans hstatus) (by decide)
    · exact absurd hst hstatus
  | segmentEnded h _ => exact absurd h hseg
  | segmentAdvanced h _ _ _ => exact absurd h hseg
  | segmentWrapped h _ _ _ => exact absurd h hseg
  | segmentIgnored h _ => exact absurd h hseg
  | bootloadAnswered h => cases ha.state.symm.trans h.state
  | handshakeAccepted _ _ hfailed =>
    cases hfailed with
    | retried _ _ => rfl
    | gaveUp hstatus =>
      rcases hstatus with ⟨-, hle⟩ | ⟨-, hle⟩
      · exact absurd hstack (UInt8.not_lt.mpr hle)
      · exact absurd hle (show ¬ maxUnicastErrors ≤ 0 by decide)

/-- An acknowledgement of the segment sent last makes the next one due. -/
theorem advanced_of_accepts {resp : EmberIncomingMessage} {o : Outcome}
    (ht : MessageTrans cfg s resp o) (ha : AcceptsSegmentResponse s resp)
    (hst : respStatus resp = respStatusOngoing) (hidx : respIndex resp = s.sentSegment)
    (hn : s.nextSegment < getTotalSegmentsCount s) :
    o.server.internalState = .segmentUnicastInterval ∧
      o.server.nextSegment = s.nextSegment + 1 := by
  cases ht with
  | segmentAdvanced _ _ _ _ => exact ⟨rfl, rfl⟩
  | ignored _ h _ => exact absurd ha h
  | handshakeEnded h _ => exact absurd ha (not_acceptsSegmentResponse h)
  | handshakeAccepted h _ _ => exact absurd ha (not_acceptsSegmentResponse h)
  | segmentWrapped _ _ _ h => exact absurd hn h
  | segmentIgnored _ h => exact absurd hst h.2.2.1
  | bootloadAnswered h => exact absurd (ha.command.symm.trans h.command) (by decide)
  | segmentEnded _ he =>
    cases he with
    | mismatch _ h => exact absurd hidx h
    | outOfSeq h => exact absurd (h.symm.trans hst) (by decide)
    | refused h => exact absurd (h.symm.trans hst) (by decide)
    | completed h => exact absurd (h.symm.trans hst) (by decide)

/-- COMPLETED ends the distribution with SUCCESS. -/
theorem success_of_accepts {resp : EmberIncomingMessage} {o : Outcome}
    (ht : MessageTrans cfg s resp o) (ha : AcceptsSegmentResponse s resp)
    (hst : respStatus resp = respStatusCompleted) :
    .imageDistributionComplete .success ∈ o.actions := by
  cases ht with
  | ignored _ h _ => exact absurd ha h
  | handshakeEnded h _ => exact absurd ha (not_acceptsSegmentResponse h)
  | handshakeAccepted h _ _ => exact absurd ha (not_acceptsSegmentResponse h)
  | segmentAdvanced _ h _ _ => exact absurd (h.symm.trans hst) (by decide)
  | segmentWrapped _ h _ _ => exact absurd (h.symm.trans hst) (by decide)
  | segmentIgnored _ h => exact absurd hst h.2.2.2
  | bootloadAnswered h => exact absurd (ha.command.symm.trans h.command) (by decide)
  | segmentEnded _ he =>
    cases he with
    | completed _ => exact List.mem_cons_self
    | outOfSeq h => exact absurd (h.symm.trans hst) (by decide)
    | refused h => exact absurd (h.symm.trans hst) (by decide)
    | mismatch h _ => exact absurd (h.symm.trans hst) (by decide)

/-- The handshake is accepted. -/
theorem exists_opened (cfg : Config) (h : ProgressInv σ reply p)
    (hs : p.1.server.internalState = .handshakeWaitingResponse) {resp : EmberIncomingMessage}
    (hr : resp ∈ p.1.responses) (ha : Addressed σ resp) (hacc : AcceptsImage σ resp) :
    ∃ l p' as, Faultless σ p l ∧ (timedNetwork cfg σ reply).step p l = some (p', as) ∧
      p'.1.server.internalState = .segmentUnicastInterval ∧
      segmentsLeft σ p'.1 < segmentsLeft σ p.1 := by
  have haccepts : AcceptsHandshakeResponse p.1.server resp :=
    ⟨fromTarget_of_addressed h ha, hs, h.session.runs.tag.trans ha.tag.symm, hacc.command⟩
  obtain ⟨g, hg⟩ := h.retries
  have hstack := (hg.busy (by rw [hs]; decide)).1.stack
  obtain ⟨l, p1, hl, -, hst⟩ := timed_deliverResponse cfg reply hr
  have hopened := opened_of_accepts (incomingMessage_trans cfg p.1.server resp) haccepts hacc.status
    (UInt8.lt_iff_toNat_lt.mpr hstack)
  refine ⟨l, _, _, hl, hst, hopened, ?_⟩
  simp only [segmentsLeft, Net.ran, hopened, hs]
  simp only [requestOf, if_true, Option.some.injEq, reduceCtorEq, if_false]
  omega

/-- A segment is acknowledged, and the next one is due; the last one ends the distribution. -/
theorem exists_advanced (cfg : Config) (h : ProgressInv σ c.reply p)
    (hs : p.1.server.internalState = .segmentUnicastWaitingResponse) {resp : EmberIncomingMessage}
    {m : EmberOutgoingMessage} (hr : resp ∈ p.1.responses) (ha : Addressed σ resp)
    (hm : Carries m .imageSegment) (hidx : segmentIndex m = p.1.server.nextSegment)
    (hnext : (segmentIndex m).toNat ≤ p.1.client.expected)
    (hreply : c.reply p.1.client m = some resp) :
    Succeeds cfg σ c.reply p ∨
      ∃ l p' as, Faultless σ p l ∧ (timedNetwork cfg σ c.reply).step p l = some (p', as) ∧
        p'.1.server.internalState = .segmentUnicastInterval ∧
        segmentsLeft σ p'.1 < segmentsLeft σ p.1 := by
  have haccepts (hc : emOtaUnicastBootloaderProtocolCommandId resp.payload =
      commandIdImageSegmentResponse) : AcceptsSegmentResponse p.1.server resp :=
    ⟨fromTarget_of_addressed h ha, .inr hs, h.session.runs.tag.trans ha.tag.symm, hc⟩
  have htrans := incomingMessage_trans cfg p.1.server resp
  obtain ⟨l, p1, hl, hdrops, hst⟩ := timed_deliverResponse cfg c.reply hr
  cases c.answers hreply with
  | handshake hm' _ => cases hm.eq hm'
  | outOfSeq _ hk _ => exact absurd hk (not_lt.mpr hnext)
  | completed _ _ hfull hans =>
    refine .inl ⟨l, _, _, hl, hst, success_of_accepts htrans (haccepts hans.command) hans.status, ?_⟩
    show p1.client.held = σ.image
    rw [hdrops.client]
    exact h.delivery.client.eq_of_length hfull
  | ongoing _ hk hmore hans =>
    have hlt := h.session.segment.next (by rw [hs]; rfl)
    have hsent := h.session.segment.sent (.inr hs)
    obtain ⟨hstate, hnext'⟩ := advanced_of_accepts htrans (haccepts hans.command) hans.status
      (by rw [hans.index, hidx, hsent]) hlt
    refine .inr ⟨l, _, _, hl, hst, hstate, ?_⟩
    have htotal := (lt_ceilDiv_iff (n := maxSegmentPayloadLength.toNat) (by decide)
      σ.image.length (p.1.server.nextSegment.toNat + 1)).mpr (hidx ▸ hmore)
    simp only [segmentsLeft, Net.ran, hstate, hs, hnext', toNat_add_one hlt]
    simp only [requestOf, Option.some.injEq, reduceCtorEq, if_false]
    omega

/-! ## The run -/

theorem segmentsLeft_congr (hr : requestOf n'.server.internalState = requestOf n.server.internalState)
    (hn : n'.server.nextSegment = n.server.nextSegment) : segmentsLeft σ n' = segmentsLeft σ n := by
  rw [segmentsLeft, segmentsLeft, hr, hn]

/-- **An exchange.** From a state in which a submission is due, four steps lead to the next one, or
to the last step of the transfer. -/
theorem exists_exchange (htx : cfg.txIntervalMs ≤ 999) (h : ProgressInv σ c.reply p)
    (hs : p.1.server.internalState = r.interval) :
    ∃ t, (timedNetwork cfg σ c.reply).Leads (Faultless σ) p t ∧ (Succeeds cfg σ c.reply t ∨
      (ProgressInv σ c.reply t ∧ ∃ r' : Request, t.1.server.internalState = r'.interval) ∧
        segmentsLeft σ t.1 < segmentsLeft σ p.1) := by
  have hinv : ∀ {q q' : Net × Bool} {l : Label} {as : List Action}, ProgressInv σ c.reply q →
      Faultless σ q l → (timedNetwork cfg σ c.reply).step q l = some (q', as) →
      ProgressInv σ c.reply q' :=
    fun hq hl hst => progressInv_step htx c.toConformingClient hq hl.attended hst
  have hreq : requestOf p.1.server.internalState = some r := by rw [hs, requestOf_interval]
  obtain ⟨m, l1, p1, as1, hl1, hst1, hway, hc, hidx⟩ := exists_submitted cfg h hs
  have h1 := hinv h hl1 hst1
  obtain ⟨l2, p2, as2, hl2, hst2, hserver2, hclient2, hframes2⟩ :=
    exists_waiting cfg h1 hway.state
  have h2 := hinv h1 hl2 hst2
  have hstate2 : p2.1.server.internalState = r.waiting := by rw [hserver2]; rfl
  have hnext2 : p2.1.server.nextSegment = p.1.server.nextSegment := by
    rw [hserver2]; exact hway.next
  have hway2 : OnItsWay r.waiting p.1.server.nextSegment p.1.client m p2.1 :=
    ⟨hstate2, hnext2, hclient2.trans hway.client, hframes2 ▸ hway.frame⟩
  have hm : Carries m .handshake ∨
      Carries m .imageSegment ∧ (segmentIndex m).toNat ≤ p2.1.client.expected := by
    cases r with
    | handshake => exact .inl hc
    | imageSegment =>
      refine .inr ⟨hc, ?_⟩
      rw [hidx rfl, hway2.client]
      exact h.ahead.next hreq
    | bootloadRequest => exact absurd hreq h.ahead.request
  obtain ⟨resp, l3, p3, as3, hl3, hst3, hserver3, hresp, hreply⟩ :=
    exists_answer cfg h2 hway2 hm
  have h3 := hinv h2 hl3 hst3
  have hstate3 : p3.1.server.internalState = r.waiting := hserver3 ▸ hstate2
  have hnext3 : p3.1.server.nextSegment = p.1.server.nextSegment := hserver3 ▸ hnext2
  have hleads : (timedNetwork cfg σ c.reply).Leads (Faultless σ) p p3 :=
    .step hl1 hst1 (.step hl2 hst2 (.single hl3 hst3))
  have hleft : segmentsLeft σ p3.1 = segmentsLeft σ p.1 :=
    segmentsLeft_congr (by rw [hstate3, requestOf_waiting, hreq]) hnext3
  cases r with
  | bootloadRequest => exact absurd hreq h.ahead.request
  | handshake =>
    cases c.answers hreply with
    | handshake _ hacc =>
      obtain ⟨l4, p4, as4, hl4, hst4, hstate4, hlt⟩ :=
        exists_opened cfg h3 hstate3 hresp (c.addressed hreply) hacc
      exact ⟨p4, hleads.trans (.single hl4 hst4),
        .inr ⟨⟨hinv h3 hl4 hst4, .imageSegment, hstate4⟩, hleft ▸ hlt⟩⟩
    | ongoing hc' _ _ _ => cases hc.eq hc'
    | completed hc' _ _ _ => cases hc.eq hc'
    | outOfSeq hc' _ _ => cases hc.eq hc'
  | imageSegment =>
    have hidx3 : segmentIndex m = p3.1.server.nextSegment := (hidx rfl).trans hnext3.symm
    have hnext : (segmentIndex m).toNat ≤ p3.1.client.expected := by
      rw [hidx3]
      exact h3.ahead.next (by rw [hstate3]; rfl)
    rcases exists_advanced cfg h3 hstate3 hresp (c.addressed hreply) hc hidx3 hnext hreply
      with hsucceeds | ⟨l4, p4, as4, hl4, hst4, hstate4, hlt⟩
    · exact ⟨p3, hleads, .inl hsucceeds⟩
    · exact ⟨p4, hleads.trans (.single hl4 hst4),
        .inr ⟨⟨hinv h3 hl4 hst4, .imageSegment, hstate4⟩, hleft ▸ hlt⟩⟩

/-- A submission is due, or the target may fail to answer once more. -/
def Tolerates (s : Server) : Prop :=
  (∃ r : Request, s.internalState = r.interval) ∨
    s.currentTargetErrorsCount + 1 < maxUnicastErrors

instance (s : Server) : Decidable (Tolerates s) := by unfold Tolerates; infer_instance

/-- A server that awaits something submits once more. -/
theorem exists_interval (htx : cfg.txIntervalMs ≤ 999) (h : ProgressInv σ c.reply p)
    (hbusy : p.1.server.internalState ≠ .idle) (htolerates : Tolerates p.1.server) :
    ∃ t, (timedNetwork cfg σ c.reply).Leads (Faultless σ) p t ∧ ProgressInv σ c.reply t ∧
      ∃ r : Request, t.1.server.internalState = r.interval := by
  rcases htolerates with hr | hspare
  · exact ⟨p, .refl p, h, hr⟩
  obtain ⟨r, hr⟩ := h.timer.busy.resolve_left hbusy
  have hretried : ∀ {q : Net × Bool}, ProgressInv σ c.reply q →
      q.1.server.internalState = r.waiting →
      q.1.server.currentTargetErrorsCount + 1 < maxUnicastErrors →
      ∃ t, (timedNetwork cfg σ c.reply).Leads (Faultless σ) q t ∧ ProgressInv σ c.reply t ∧
        ∃ r : Request, t.1.server.internalState = r.interval := by
    intro q hq hs hspare
    obtain ⟨l, t, as, hl, hst, hstate⟩ := exists_retried cfg hq hs hspare
    exact ⟨t, .single hl hst, progressInv_step htx c.toConformingClient hq hl.attended hst, r, hstate⟩
  rcases requestOf_eq_some_iff.mp hr with hs | hs | hs
  · exact ⟨p, .refl p, h, r, hs⟩
  · obtain ⟨l, q, as, hl, hst, hserver, -, -⟩ := exists_waiting cfg h hs
    obtain ⟨t, hleads, ht⟩ := hretried
      (progressInv_step htx c.toConformingClient h hl.attended hst) (by rw [hserver]; rfl)
      (by rw [hserver]; exact hspare)
    exact ⟨t, .step hl hst hleads, ht⟩
  · exact hretried h hs hspare

/-- **Wherever a transfer stands, it can succeed**, as long as the server tolerates one more error. -/
theorem exists_success (htx : cfg.txIntervalMs ≤ 999) (h : ProgressInv σ c.reply p)
    (hbusy : p.1.server.internalState ≠ .idle) (htolerates : Tolerates p.1.server) :
    ∃ t, (timedNetwork cfg σ c.reply).Leads (Faultless σ) p t ∧ Succeeds cfg σ c.reply t := by
  obtain ⟨q, hleads, hq⟩ := exists_interval htx h hbusy htolerates
  obtain ⟨t, hleads', ht⟩ := System.exists_leads_of_progress
    (I := fun q => ProgressInv σ c.reply q ∧ ∃ r : Request, q.1.server.internalState = r.interval)
    (fun q => segmentsLeft σ q.1) (fun q ⟨hq, r, hs⟩ => exists_exchange htx hq hs) hq
  exact ⟨t, hleads.trans hleads', ht⟩

instance (σ : Session) (p : Net × Bool) (l : Label) : Decidable (Attended σ p l) := by
  unfold Attended
  infer_instance

/-- The first segment has been lost, refused and not acknowledged, and lost again. -/
def lossyRun : List Label :=
  attempt (imageEnv twoSegments) ++ [.deliverResponse 0,
    .handler (.timerExpired (imageEnv twoSegments)), .loseFrame 0, .messageSent 0 emberSuccess,
    .handler (.timerExpired (imageEnv twoSegments)),
    .handler (.timerExpired { imageEnv twoSegments with sendStatus := 1 }),
    .handler (.timerExpired (imageEnv twoSegments)), .loseFrame 0, .messageSent 0 1,
    .handler (.timerExpired (imageEnv twoSegments)), .loseFrame 0, .messageSent 0 emberSuccess]

end ConnectNcpHost.Ota.TransferProgress
