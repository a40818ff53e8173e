import ConnectNcpHost.Ota.Processes

/-! # The parameters of a process

Both processes keep their arguments in the same variables. A history variable remembers the
arguments of the `Initiate` call that started the running process. Only a successful `Initiate`
writes the variables (`keeps_of_trans`), and an idle server is the only one that accepts it, so the
variables of a busy server are those arguments (`ParameterInv`), and so are the destination, the tag
and the size in every frame it submits. -/

namespace ConnectNcpHost.Ota.Parameters

open ConnectNcpHost.Lib.Bytes ConnectNcpHost.Lib.Runs ConnectNcpHost.Stack.ByteUtilities
open ConnectNcpHost.Ota.Protocol ConnectNcpHost.Ota.BootloaderServer ConnectNcpHost.Ota.Transition
open ConnectNcpHost.Ota.Frames ConnectNcpHost.Ota.Processes

variable {cfg : Config} {s : Server}

/-! ## The history -/

/-- The arguments of a successful `Initiate` call, and the time at which a bootload was requested. -/
inductive ProcessParameters
  | imageDistribution (target : EmberNodeId) (imageSize : UInt32) (imageTag : UInt8)
  | bootloadRequest (bootloadDelayMs : UInt32) (imageTag : UInt8) (target : EmberNodeId)
      (nowMs : UInt32)
  deriving DecidableEq

namespace ProcessParameters

def process : ProcessParameters → Process
  | imageDistribution _ _ _ => .imageDistribution
  | bootloadRequest _ _ _ _ => .bootloadRequest

def target : ProcessParameters → EmberNodeId
  | imageDistribution target _ _ | bootloadRequest _ _ target _ => target

def imageTag : ProcessParameters → UInt8
  | imageDistribution _ _ imageTag | bootloadRequest _ imageTag _ _ => imageTag

/-- The image size, or the time of the bootload. -/
def imageSizeOrBootloadTimeMs : ProcessParameters → UInt32
  | imageDistribution _ imageSize _ => imageSize
  | bootloadRequest bootloadDelayMs _ _ nowMs => nowMs + bootloadDelayMs

end ProcessParameters

/-- One step of the history: the parameters are set by an `Initiate` call that succeeds, and
forgotten when the process completes. -/
def record (g : Option ProcessParameters) (_ : Server) : Input → List Action →
    Option ProcessParameters
  | .initiateImageDistribution target imageSize imageTag, as =>
    if succeeded as then some (.imageDistribution target imageSize imageTag) else g
  | .initiateRequestTargetBootload bootloadDelayMs imageTag target nowMs, as =>
    if succeeded as then some (.bootloadRequest bootloadDelayMs imageTag target nowMs) else g
  | _, as => if completed as then none else g

/-- The server, with the parameters of its process. -/
def parameters (cfg : Config) : System (Server × Option ProcessParameters) Input Action :=
  (ota cfg).observe none record

theorem reach_parameters_init {ok : Server × Option ProcessParameters → Input → Prop}
    (cfg : Config) : (parameters cfg).Reach ok (Server.init, none) := .start ⟨rfl, rfl⟩

/-! ## What a step leaves unchanged -/

/-- The variables with the parameters are unchanged. -/
structure Keeps (s s' : Server) : Prop where
  targetId : s'.targetId = s.targetId
  imageTag : s'.currentImageTagOrServerStatus = s.currentImageTagOrServerStatus
  imageSizeOrTime : s'.currentImageSizeOrBootloadTimeMs = s.currentImageSizeOrBootloadTimeMs

theorem Keeps.refl (s : Server) : Keeps s s := ⟨rfl, rfl, rfl⟩

/-- What follows a failed attempt writes none of them. -/
theorem Keeps.failed {s1 : Server} {r : Request} {o : Outcome} (h : Keeps s s1)
    (ho : Failed cfg r s1 o) : Keeps s o.server := by
  cases ho with
  | retried _ _ => exact ⟨h.targetId, h.imageTag, h.imageSizeOrTime⟩
  | gaveUp _ => exact ⟨h.targetId, h.imageTag, h.imageSizeOrTime⟩

theorem keeps_errorCounted {s1 : Server} (h : ErrorCounted s s1) (st : StateOtaServer) :
    Keeps s { s1 with internalState := st } := by
  cases h <;> exact ⟨rfl, rfl, rfl⟩

theorem keeps_message {m : EmberIncomingMessage} {o : Outcome} (ht : MessageTrans cfg s m o) :
    Keeps s o.server := by
  cases ht with
  | handshakeAccepted _ _ ho =>
    have h : Keeps s { s with
      nextSegment := startSegment m
      currentTargetErrorsCount := 0
      internalState := .segmentUnicastInterval } := ⟨rfl, rfl, rfl⟩
    exact h.failed ho
  | _ => exact ⟨rfl, rfl, rfl⟩

theorem keeps_sent {status : EmberStatus} {m : EmberOutgoingMessage} {o : Outcome}
    (ht : SentTrans cfg s status m o) : Keeps s o.server := by
  cases ht with
  | ignored _ => exact Keeps.refl s
  | succeeded _ _ _ => exact ⟨rfl, rfl, rfl⟩
  | failed _ _ _ he ho => exact (keeps_errorCounted he _).failed ho

theorem keeps_event {env : EventEnv} {o : Outcome} (ht : EventTrans cfg s env o) :
    Keeps s o.server := by
  cases ht with
  | @submitted r m _ _ _ => cases r <;> exact ⟨rfl, rfl, rfl⟩
  | underflow _ => exact ⟨rfl, rfl, rfl⟩
  | @notSubmitted r m o _ _ _ ho =>
    have h : Keeps s { s with
      otaEventIsActive := false
      stackErrorsCount := s.stackErrorsCount + 1 } := ⟨rfl, rfl, rfl⟩
    show Keeps s o.server
    exact h.failed ho
  | timedOut _ ho =>
    have h : Keeps s { s with
      otaEventIsActive := false
      currentTargetErrorsCount := s.currentTargetErrorsCount + 1 } := ⟨rfl, rfl, rfl⟩
    exact h.failed ho
  | idle _ => exact ⟨rfl, rfl, rfl⟩

/-- **Only a successful `Initiate` writes the parameters, or changes the process of a server.** -/
theorem keeps_of_trans {i : Input} {o : Outcome} (ht : Trans cfg s i o)
    (hb : begins i o.actions = false) : Keeps s o.server ∧ Continues s o.server := by
  cases ht with
  | call ht =>
    cases ht with
    | refused _ _ => exact ⟨Keeps.refl s, .kept rfl⟩
    | imageStarted _ _ _ _ => cases hb
    | bootloadStarted _ _ => cases hb
    | aborted _ _ => exact ⟨⟨rfl, rfl, rfl⟩, .ended rfl⟩
  | message ht => exact ⟨keeps_message ht, continues_message ht⟩
  | sent ht => exact ⟨keeps_sent ht, continues_sent ht⟩
  | timer _ ht => exact ⟨keeps_event ht, continues_event ht⟩
  | timerIgnored _ => exact ⟨Keeps.refl s, .kept rfl⟩
  | event _ ht => exact ⟨keeps_event ht, continues_event ht⟩

/-! ## The invariant -/

/-- The server is in a process with these parameters. -/
structure Runs (s : Server) (ps : ProcessParameters) : Prop where
  request : ∃ r, requestOf s.internalState = some r ∧ r.process = ps.process
  targetId : s.targetId = ps.target
  imageTag : s.currentImageTagOrServerStatus = ps.imageTag
  imageSizeOrTime : s.currentImageSizeOrBootloadTimeMs = ps.imageSizeOrBootloadTimeMs

/-- **Invariant.** A server that is not idle is in the process that was started last. -/
def ParameterInv (p : Server × Option ProcessParameters) : Prop :=
  p.1.internalState = .idle ∨ ∃ ps, p.2 = some ps ∧ Runs p.1 ps

theorem Runs.continues {s' : Server} {ps : ProcessParameters} (h : Runs s ps) (hk : Keeps s s')
    (hc : Continues s s') : s'.internalState = .idle ∨ Runs s' ps := by
  have hrest : (∃ r, requestOf s'.internalState = some r ∧ r.process = ps.process) → Runs s' ps :=
    fun hr => ⟨hr, hk.targetId.trans h.targetId, hk.imageTag.trans h.imageTag,
      hk.imageSizeOrTime.trans h.imageSizeOrTime⟩
  obtain ⟨r0, hr0, hp0⟩ := h.request
  cases hc with
  | ended hs => exact .inl hs
  | kept hs => exact .inr (hrest ⟨r0, by rw [hs, hr0], hp0⟩)
  | moved r r' hr hr' hp =>
    have he : r = r0 := Option.some.inj (hr.symm.trans hr0)
    exact .inr (hrest ⟨r', hr', by rw [hp, he, hp0]⟩)

theorem record_of_not_begins {g : Option ProcessParameters} {i : Input} {as : List Action}
    (hb : begins i as = false) (hc : completed as = false) : record g s i as = g := by
  cases i <;> simp_all [record, begins]

/-- An `Initiate` call that succeeds. -/
theorem runs_of_begins {g : Option ProcessParameters} {i : Input} {o : Outcome}
    (ht : Trans cfg s i o) (hb : begins i o.actions = true) :
    ∃ ps, record g s i o.actions = some ps ∧ Runs o.server ps := by
  cases ht with
  | call ht =>
    cases ht with
    | imageStarted _ _ _ _ => exact ⟨_, rfl, ⟨.handshake, rfl, rfl⟩, rfl, rfl, rfl⟩
    | bootloadStarted _ _ => exact ⟨_, rfl, ⟨.bootloadRequest, rfl, rfl⟩, rfl, rfl, rfl⟩
    | aborted _ _ => cases hb
    | refused hi hst =>
      have hno := succeeded_refused hst
      cases hi with
      | abortCurrentProcess => cases hb
      | _ => exact absurd (hno.symm.trans hb) (by decide)
  | _ => cases hb

theorem parameterInv_step {i : Input} {o : Outcome} {g : Option ProcessParameters}
    (h : ParameterInv (s, g)) (ht : Trans cfg s i o) :
    ParameterInv (o.server, record g s i o.actions) := by
  cases hb : begins i o.actions with
  | true => exact .inr (runs_of_begins ht hb)
  | false =>
    obtain ⟨hk, hc⟩ := keeps_of_trans ht hb
    cases hcomp : completed o.actions with
    | true => exact .inl ((endsWell_of_trans ht).idle hcomp)
    | false =>
      rw [record_of_not_begins hb hcomp]
      rcases h with hs | ⟨ps, hg, hr⟩
      · refine .inl ?_
        cases hc with
        | ended h' => exact h'
        | kept h' => exact h'.trans hs
        | moved r r' hr hr' hp =>
          rw [show s.internalState = .idle from hs] at hr
          cases hr
      · exact (hr.continues hk hc).imp_right fun hr' => ⟨ps, hg, hr'⟩

theorem parameterInv_of_reach {p : Server × Option ProcessParameters}
    (h : (parameters cfg).Reach free p) : ParameterInv p := by
  refine System.Reach.invariant (I := ParameterInv) (fun p hp => .inl ?_)
    (fun p i p' as _ h _ hst => ?_) h
  · rw [show p.1 = Server.init from hp.1]; rfl
  · obtain ⟨hs, hg⟩ := System.observe_step hst
    obtain ⟨s, g⟩ := p
    obtain ⟨s', g'⟩ := p'
    subst hg
    exact parameterInv_step h (trans_of_step hs)

/-! ## The frames -/

/-- Where a request carries the image tag. -/
def tagOffset : Request → ℕ
  | .handshake => handshakeTagOffset
  | .imageSegment => imageSegmentTagOffset
  | .bootloadRequest => bootloadReqTagOffset

/-- The image size a handshake frame carries. -/
def handshakeImageSize (m : EmberOutgoingMessage) : UInt32 :=
  emberFetchLowHighInt32u m.payload handshakeLengthOffset

/-- A frame of a process with these parameters: a request of this process with its image tag, to its
target, and a handshake carries its image size. -/
structure IsFrameOf (ps : ProcessParameters) (m : EmberOutgoingMessage) : Prop where
  destination : m.destination = ps.target
  request : ∃ r, Carries m r ∧ r.process = ps.process ∧ m.payload (tagOffset r) = ps.imageTag
  imageSize : Carries m .handshake → handshakeImageSize m = ps.imageSizeOrBootloadTimeMs

theorem destination_of_isFrame {env : EventEnv} {r : Request} {m : EmberOutgoingMessage}
    (h : IsFrame env s r m) : m.destination = s.targetId := by
  cases h <;> rfl

/-- The word stored behind the tag leaves the tag. -/
theorem write_tag (m : Mem) (tag : UInt8) (xs : List UInt8) :
    ((m.write 1 [tag]).write 2 xs) 1 = tag := by
  rw [Memory.write_of_lt _ _ (by decide)]
  exact Memory.write_add m 1 [tag] Nat.zero_lt_one

theorem imageTag_of_isFrame {env : EventEnv} {r : Request} {m : EmberOutgoingMessage}
    (h : IsFrame env s r m) : m.payload (tagOffset r) = s.currentImageTagOrServerStatus := by
  cases h with
  | handshake =>
    simp only [handshakeFrame, emberStoreLowHighInt32u_eq]
    exact write_tag _ _ _
  | imageSegment _ =>
    simp only [segmentFrame, emberStoreLowHighInt32u_eq]
    exact write_tag _ _ _
  | bootloadRequest =>
    simp only [bootloadRequestFrame, emberStoreLowHighInt32u_eq]
    exact write_tag _ _ _

theorem handshakeImageSize_handshakeFrame (stack : Mem) (s : Server) :
    handshakeImageSize (handshakeFrame stack s) = s.currentImageSizeOrBootloadTimeMs := by
  refine fetch_of_readLowHigh32 ?_
  simp only [handshakeFrame, emberStoreLowHighInt32u_eq]
  exact Memory.read_write_same _ _ (lowHighBytes32 s.currentImageSizeOrBootloadTimeMs)

/-- A server submits the frames of its process. -/
theorem Runs.isFrameOf {env : EventEnv} {r : Request} {m : EmberOutgoingMessage}
    {ps : ProcessParameters} (h : Runs s ps) (hs : s.internalState = r.interval)
    (hf : IsFrame env s r m) : IsFrameOf ps m := by
  obtain ⟨r0, hr0, hp0⟩ := h.request
  have he : r = r0 := by
    rw [hs, requestOf_interval] at hr0
    exact Option.some.inj hr0
  have hc := carries_of_isFrame hf
  refine ⟨(destination_of_isFrame hf).trans h.targetId,
    ⟨r, hc, by rw [he, hp0], (imageTag_of_isFrame hf).trans h.imageTag⟩, fun hh => ?_⟩
  cases hf with
  | handshake => exact (handshakeImageSize_handshakeFrame _ _).trans h.imageSizeOrTime
  | imageSegment _ => cases hc.eq hh
  | bootloadRequest => cases hc.eq hh

/-- Where a frame is submitted: in the interval of its request. -/
theorem isFrame_of_submitted {i : Input} {o : Outcome} {m : EmberOutgoingMessage}
    {status : EmberStatus} (ht : Trans cfg s i o) (hm : .messageSend m status ∈ o.actions) :
    ∃ env r, (i = .timerExpired env ∨ i = .eventActive env) ∧ s.internalState = r.interval ∧
      IsFrame env s r m := by
  obtain ⟨env, hi, ht⟩ := eventTrans_of_submits ht rfl hm
  refine ⟨env, ?_⟩
  have hprelude : ∀ {r : Request} {m' : EmberOutgoingMessage} {st : EmberStatus},
      .messageSend m status ∈ r.prelude s ++ [.messageSend m' st] → m = m' := by
    intro r m' st h
    cases r <;> simp_all [Request.prelude, segmentCallback]
  cases ht with
  | @submitted r m' hs hf _ => exact ⟨r, hi, hs, hprelude hm ▸ hf⟩
  | underflow _ => simp [segmentCallback] at hm
  | @notSubmitted r m' o hs hf _ ho =>
    rcases List.mem_append.mp hm with h | h
    · exact ⟨r, hi, hs, hprelude h ▸ hf⟩
    · exact absurd h (not_mem_of_failed rfl ho)
  | timedOut _ ho => exact absurd hm (not_mem_of_failed rfl ho)
  | idle _ => cases hm

/-! ## The property -/

/-- The two `Initiate` calls. -/
inductive IsInitiate : Input → Prop
  | imageDistribution (target : EmberNodeId) (imageSize : UInt32) (imageTag : UInt8) :
      IsInitiate (.initiateImageDistribution target imageSize imageTag)
  | requestTargetBootload (bootloadDelayMs : UInt32) (imageTag : UInt8) (target : EmberNodeId)
      (nowMs : UInt32) :
      IsInitiate (.initiateRequestTargetBootload bootloadDelayMs imageTag target nowMs)

/-- A step of the server `s`, in the process with the parameters `g`: an `Initiate` that is refused
changes nothing, and every frame is one of this process. -/
structure KeepsParameters (s : Server) (g : Option ProcessParameters) (i : Input) (s' : Server)
    (as : List Action) : Prop where
  refused : IsInitiate i → ∀ st, st = .busy ∨ st = .invalidCall → .returned st ∈ as →
    s' = s ∧ as = [.returned st]
  frames : ∀ m status, .messageSend m status ∈ as → ∃ ps, g = some ps ∧ IsFrameOf ps m

theorem refused_of_trans {i : Input} {o : Outcome} {st : EmberAfOtaUnicastBootloaderStatus}
    (ht : Trans cfg s i o) (hi : IsInitiate i) (hst : st = .busy ∨ st = .invalidCall)
    (hm : .returned st ∈ o.actions) : o = ⟨s, [.returned st]⟩ := by
  have hne : st ≠ .success := by rcases hst with rfl | rfl <;> decide
  cases ht with
  | call ht =>
    cases ht with
    | refused _ _ =>
      obtain rfl : st = _ := by simpa using hm
      rfl
    | imageStarted _ _ _ _ => exact absurd (by simpa using hm) hne
    | bootloadStarted _ _ => exact absurd (by simpa using hm) hne
    | aborted _ _ => cases hi
  | _ => cases hi

/-- **In every run a process keeps its parameters.** -/
theorem keepsParameters_of_reach {p p' : Server × Option ProcessParameters} {i : Input}
    {as : List Action} (h : (parameters cfg).Reach free p)
    (hst : (parameters cfg).step p i = some (p', as)) :
    KeepsParameters p.1 p.2 i p'.1 as := by
  have ht := trans_of_step (System.observe_step hst).1
  constructor
  · intro hi st hs hm
    have ho := refused_of_trans ht hi hs hm
    exact ⟨congrArg Outcome.server ho, congrArg Outcome.actions ho⟩
  · intro m status hm
    obtain ⟨env, r, -, hs, hf⟩ := isFrame_of_submitted ht hm
    rcases parameterInv_of_reach h with hidle | ⟨ps, hg, hr⟩
    · exact absurd (hidle.symm.trans hs) idle_ne.1
    · exact ⟨ps, hg, hr.isFrameOf hs hf⟩

/-- The handshake of a transfer. -/
theorem keepsParameters_handshake : ∃ s' as,
    (parameters defaultConfig).step (transferServer 5 100 7 .handshakeInterval 0,
        some (.imageDistribution 5 100 7)) (.timerExpired plainEnv) = some (s', as) ∧
      KeepsParameters (transferServer 5 100 7 .handshakeInterval 0)
        (some (.imageDistribution 5 100 7)) (.timerExpired plainEnv) s'.1 as := by
  have h : (parameters defaultConfig).Reach free
      (transferServer 5 100 7 .handshakeInterval 0, some (.imageDistribution 5 100 7)) :=
    System.reach_of_exec_fst [.initiateImageDistribution 5 100 7] (reach_parameters_init _)
      (by decide +kernel)
  exact ⟨_, _, rfl, keepsParameters_of_reach h rfl⟩

end ConnectNcpHost.Ota.Parameters
