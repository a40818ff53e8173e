import ConnectNcpHost.Ota.Frames

/-! # The answers a server awaits

A message is an awaited answer if it comes from the target, secured and on the endpoint of the server,
is the response command of the state, and carries the image tag of the process. Handshake and segment
responses are filtered by all of this. A bootload response is filtered by its length in place of its
tag, and an answer about another image ends the process (`stale_bootloadResponse`). Apart from
such an answer, only awaited messages act, and a run without the others is the same run
(`awaitedAnswers_iff`). -/

namespace ConnectNcpHost.Ota.AwaitedAnswers

open ConnectNcpHost.Lib.Runs ConnectNcpHost.Ota.Protocol ConnectNcpHost.Ota.BootloaderServer
open ConnectNcpHost.Ota.Transition ConnectNcpHost.Ota.Frames

variable {cfg : Config} {s : Server} {m : EmberIncomingMessage}

/-! ## Awaited messages -/

/-- The response commands a state awaits. A segment may be answered before its sent callback. -/
def Awaits (state : StateOtaServer) (commandId : UInt8) : Prop :=
  match state with
  | .handshakeWaitingResponse =>
    commandId = commandIdHandshakeResponse ∨ commandId = commandIdExtHandshakeResponse
  | .segmentUnicastPending | .segmentUnicastWaitingResponse =>
    commandId = commandIdImageSegmentResponse
  | .bootloadRequestWaitingResponse => commandId = commandIdBootloadResponse
  | _ => False

instance (state : StateOtaServer) (commandId : UInt8) : Decidable (Awaits state commandId) := by
  unfold Awaits; cases state <;> infer_instance

/-- Where the tag stands in a response. -/
def respTagOffset (commandId : UInt8) : ℕ :=
  if commandId = commandIdHandshakeResponse then handshakeRespTagOffset
  else if commandId = commandIdExtHandshakeResponse then extHshakeRespTagOffset
  else if commandId = commandIdImageSegmentResponse then imageSegmentRespTagOffset
  else bootloadRespTagOffset

/-- The image tag of a response. -/
def respTag (m : EmberIncomingMessage) : UInt8 :=
  m.payload (respTagOffset (emOtaUnicastBootloaderProtocolCommandId m.payload))

/-- The tag stands behind the frame control, in every response. -/
theorem respTagOffset_eq (commandId : UInt8) : respTagOffset commandId = 1 := by
  unfold respTagOffset
  split_ifs <;> rfl

theorem respTag_eq (m : EmberIncomingMessage) : respTag m = m.payload 1 := by
  rw [respTag, respTagOffset_eq]

/-- **An awaited answer.** -/
structure Awaited (s : Server) (m : EmberIncomingMessage) : Prop where
  fromTarget : FromTarget s m
  kind : Awaits s.internalState (emOtaUnicastBootloaderProtocolCommandId m.payload)
  tag : s.currentImageTagOrServerStatus = respTag m

instance (s : Server) (m : EmberIncomingMessage) : Decidable (Awaited s m) :=
  decidable_of_iff (_ ∧ _ ∧ _) ⟨fun ⟨h1, h2, h3⟩ => ⟨h1, h2, h3⟩, fun ⟨h1, h2, h3⟩ => ⟨h1, h2, h3⟩⟩

theorem awaited_of_handshake (h : AcceptsHandshakeResponse s m) : Awaited s m := by
  refine ⟨h.fromTarget, ?_, ?_⟩
  · rw [h.state]
    exact h.command
  · rw [respTag_eq]
    exact h.tag

theorem awaited_of_segment (h : AcceptsSegmentResponse s m) : Awaited s m := by
  refine ⟨h.fromTarget, ?_, ?_⟩
  · rcases h.state with hs | hs <;> rw [hs] <;> exact h.command
  · rw [respTag_eq]
    exact h.tag

theorem awaited_of_bootload (h : AcceptsBootloadResponse s m)
    (ht : s.currentImageTagOrServerStatus = respTag m) : Awaited s m := by
  refine ⟨h.fromTarget, ?_, ht⟩
  rw [h.state]
  exact h.command

/-! ## One message -/

/-- A message the server does not await changes nothing: no variable, no timer, no callback. -/
def ActsOnlyIfAwaited (cfg : Config) (s : Server) (m : EmberIncomingMessage) : Prop :=
  ¬ Awaited s m →
    emAfPluginOtaUnicastBootloaderServerIncomingMessageCallback cfg m s = ⟨s, []⟩

/-- A bootload response that is accepted carries the tag of the process. -/
def TagChecked (s : Server) (m : EmberIncomingMessage) : Prop :=
  AcceptsBootloadResponse s m → s.currentImageTagOrServerStatus = respTag m

instance (s : Server) (m : EmberIncomingMessage) : Decidable (TagChecked s m) := by
  unfold TagChecked; infer_instance

/-- What no filter lets through changes nothing. -/
theorem eq_of_not_accepted {o : Outcome} (hh : ¬ AcceptsHandshakeResponse s m)
    (hs : ¬ AcceptsSegmentResponse s m) (hb : ¬ AcceptsBootloadResponse s m)
    (ht : MessageTrans cfg s m o) : o = ⟨s, []⟩ := by
  cases ht with
  | ignored _ _ _ => rfl
  | handshakeEnded h _ => exact absurd h hh
  | handshakeAccepted h _ _ => exact absurd h hh
  | segmentEnded h _ => exact absurd h hs
  | segmentAdvanced h _ _ _ => exact absurd h hs
  | segmentWrapped h _ _ _ => exact absurd h hs
  | segmentIgnored h _ => exact absurd h hs
  | bootloadAnswered h => exact absurd h hb

/-- An accepted bootload response ends the process. -/
theorem ends_of_bootload {o : Outcome} (h : AcceptsBootloadResponse s m)
    (ht : MessageTrans cfg s m o) :
    ∃ st, o = ⟨finished s, [.requestTargetBootloadComplete st]⟩ := by
  have hseg : ¬ AcceptsSegmentResponse s m := fun ha => by
    rcases ha.state with hs | hs <;> cases h.state.symm.trans hs
  have hhand : ¬ AcceptsHandshakeResponse s m := fun ha => by cases h.state.symm.trans ha.state
  cases ht with
  | ignored _ _ hb => exact absurd h hb
  | handshakeEnded ha _ => exact absurd ha hhand
  | handshakeAccepted ha _ _ => exact absurd ha hhand
  | segmentEnded ha _ => exact absurd ha hseg
  | segmentAdvanced ha _ _ _ => exact absurd ha hseg
  | segmentWrapped ha _ _ _ => exact absurd ha hseg
  | segmentIgnored ha _ => exact absurd ha hseg
  | bootloadAnswered _ => exact ⟨_, rfl⟩

theorem actsOnlyIfAwaited_of_tagChecked (cfg : Config) (h : TagChecked s m) :
    ActsOnlyIfAwaited cfg s m := by
  intro hm
  have hb : ¬ AcceptsBootloadResponse s m := fun ha => hm (awaited_of_bootload ha (h ha))
  exact eq_of_not_accepted (fun ha => hm (awaited_of_handshake ha))
    (fun ha => hm (awaited_of_segment ha)) hb (incomingMessage_trans cfg s m)

/-- A bootload response about another image acts. -/
theorem not_actsOnlyIfAwaited (cfg : Config) (h : AcceptsBootloadResponse s m)
    (ht : s.currentImageTagOrServerStatus ≠ respTag m) : ¬ ActsOnlyIfAwaited cfg s m := by
  intro ha
  obtain ⟨st, ho⟩ := ends_of_bootload h (incomingMessage_trans cfg s m)
  have hs := congrArg Outcome.actions (ho.symm.trans (ha fun hm => ht hm.tag))
  cases hs

/-! ## Runs without the other messages -/

/-- A message that is not awaited. -/
def Unawaited (s : Server) : Input → Prop
  | .incomingMessage m => ¬ Awaited s m
  | _ => False

instance (s : Server) (i : Input) : Decidable (Unawaited s i) := by
  cases i <;> unfold Unawaited <;> infer_instance

/-- The condition on the steps of a run. -/
def TagsChecked (s : Server) : Input → Prop
  | .incomingMessage m => TagChecked s m
  | _ => True

instance (s : Server) (i : Input) : Decidable (TagsChecked s i) := by
  cases i <;> unfold TagsChecked <;> infer_instance

/-- The inputs of a run, without the messages that are not awaited where they come. -/
def awaitedInputs (cfg : Config) : Server → List Input → List Input
  | _, [] => []
  | s, i :: is =>
    let rest := match handle cfg s i with
      | some o => awaitedInputs cfg o.server is
      | none => []
    if Unawaited s i then rest else i :: rest

/-- An unawaited message is a step that changes nothing. -/
theorem step_unawaited {i : Input} {s' : Server} {as : List Action} (hi : TagsChecked s i)
    (hu : Unawaited s i) (h : (ota cfg).step s i = some (s', as)) : s' = s ∧ as = [] := by
  cases i with
  | incomingMessage m =>
    have ho := actsOnlyIfAwaited_of_tagChecked cfg hi hu
    simp only [ota, handle, ho, Option.map_some, Option.some.injEq, Prod.mk.injEq] at h
    exact ⟨h.1.symm, h.2.symm⟩
  | _ => exact absurd hu id

/-- **A run without the messages that are not awaited is the same run.** The induction goes along the
inputs. -/
theorem exec_awaitedInputs (cfg : Config) : ∀ (is : List Input) {s s' : Server} {as : List Action},
    (ota cfg).exec TagsChecked s is = some (s', as) →
    (ota cfg).exec free s (awaitedInputs cfg s is) = some (s', as)
  | [], _, _, _, h => h
  | i :: is, s, s', as, h => by
    obtain ⟨s1, as1, as2, hi, hst, hrest, rfl⟩ := System.exec_cons h
    have ih := exec_awaitedInputs cfg is hrest
    have hhandle : ∃ o, handle cfg s i = some o ∧ o.server = s1 := by
      simp only [ota, Option.map_eq_some_iff, Prod.mk.injEq] at hst
      obtain ⟨o, ho, hs1, -⟩ := hst
      exact ⟨o, ho, hs1⟩
    obtain ⟨o, ho, rfl⟩ := hhandle
    unfold awaitedInputs
    simp only [ho]
    split_ifs with hu
    · obtain ⟨hs, rfl⟩ := step_unawaited hi hu hst
      rw [List.nil_append, ← hs]
      exact ih
    · exact System.exec_of_step trivial hst ih

/-- **Only awaited answers act, exactly where a bootload response that is accepted carries the tag of
the process**; and in a run of such steps, the messages that are not awaited can be removed: the same
frames are submitted, and the run ends in the same way. -/
theorem awaitedAnswers_iff (cfg : Config) :
    (∀ s m, ActsOnlyIfAwaited cfg s m ↔ TagChecked s m) ∧
    ∀ is s as, (ota cfg).exec TagsChecked Server.init is = some (s, as) →
      (ota cfg).exec free Server.init (awaitedInputs cfg Server.init is) = some (s, as) := by
  constructor
  · intro s m
    constructor
    · intro h ha
      by_contra ht
      exact not_actsOnlyIfAwaited cfg ha ht h
    · exact actsOnlyIfAwaited_of_tagChecked cfg
  · intro is s as h
    exact exec_awaitedInputs cfg is h

/-- A bootload request, and a handshake response nobody awaits. -/
theorem awaitedAnswers_iff_handshake :
    (ota defaultConfig).exec free Server.init (awaitedInputs defaultConfig Server.init
      [.initiateRequestTargetBootload 0 7 5 0,
        .incomingMessage (handshakeResponse 5 respStatusRefused 7)]) =
    some (⟨.bootloadRequestUnicastInterval, 5, 0, 0, 0, 0, 0, 7, true⟩,
      [.pthreadCreate, .timerfdCreate, .timerfdSettime 1, .returned .success]) :=
  (awaitedAnswers_iff defaultConfig).2 _ _ _ rfl

/-- The server that awaits a bootload response. -/
def bootloadWaiting (target : EmberNodeId) (imageTag : UInt8) : Server where
  internalState := .bootloadRequestWaitingResponse
  targetId := target
  sentSegment := 0
  stackErrorsCount := 0
  currentTargetErrorsCount := 0
  nextSegment := 0
  currentImageSizeOrBootloadTimeMs := 0
  currentImageTagOrServerStatus := imageTag
  otaEventIsActive := true

/-- From the call to the sent callback of the bootload request. -/
def bootloadRun (target : EmberNodeId) (imageTag : UInt8) : List Input :=
  [.initiateRequestTargetBootload 0 imageTag target 0, .timerExpired plainEnv,
    .messageSent emberSuccess (bootloadRequestFrame plainEnv.stack plainEnv.nowMs
      (bootloadWaiting target imageTag))]

/-- **A bootload response about another image** ends the process. -/
theorem stale_bootloadResponse : ¬ ∀ (cfg : Config) (s : Server), (ota cfg).Reach free s →
    ∀ m, ActsOnlyIfAwaited cfg s m := by
  intro h
  have hreach : (ota defaultConfig).Reach free (bootloadWaiting 5 7) :=
    System.reach_of_exec_fst (bootloadRun 5 7) (.start rfl) (by decide +kernel)
  exact not_actsOnlyIfAwaited defaultConfig
    (m := response 5 commandIdBootloadResponse respStatusCompleted 9 0 3)
    (by decide +kernel) (by decide +kernel) (h defaultConfig _ hreach _)

end ConnectNcpHost.Ota.AwaitedAnswers
