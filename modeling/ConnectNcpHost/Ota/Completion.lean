import ConnectNcpHost.Ota.Reentrant

/-! # One completion for each process

The completion callback of a process is called in the one step that makes the server idle, and in no
other (`CompletesOnce`). A history variable collects the callbacks since the last successful
`Initiate`: while the process runs there are none, and once the server is idle there is one, of the
process that was started (`completesOnce_of_reach`). -/

namespace ConnectNcpHost.Ota.Completion

open ConnectNcpHost.Lib.Runs ConnectNcpHost.Ota.Protocol
open ConnectNcpHost.Ota.BootloaderServer ConnectNcpHost.Ota.Transition ConnectNcpHost.Ota.Frames
open ConnectNcpHost.Ota.Processes ConnectNcpHost.Ota.Reentrant

variable {cfg : Config} {s : Server}

/-! ## A step of a running process -/

/-- A step of a process: it completes it, with its own callback, or goes on without one. -/
inductive Ends (process : Process) (o : Outcome) : Prop
  | completed (st : EmberAfOtaUnicastBootloaderStatus) (hs : o.server.internalState = .idle)
      (h : o.actions.filterMap completion = [(process, st)]) : Ends process o
  | continues (hs : o.server.internalState ≠ .idle) (h : o.actions.filterMap completion = []) :
      Ends process o

theorem completion_complete (r : Request) (st : EmberAfOtaUnicastBootloaderStatus) :
    completion (r.process.complete st) = some (r.process, st) := by
  cases r <;> rfl

theorem ends_failed {r : Request} {o : Outcome} (ho : Failed cfg r s o) : Ends r.process o := by
  cases ho with
  | retried _ _ => exact .continues (fun h => idle_ne.1 h.symm) rfl
  | @gaveUp st _ =>
    refine .completed st rfl ?_
    rw [List.filterMap_cons, completion_complete]
    rfl

theorem Ends.after {process : Process} {o : Outcome} {as : List Action} (h : Ends process o)
    (has : as.filterMap completion = []) : Ends process (o.after as) := by
  cases h with
  | completed st hs h =>
    exact .completed st hs (by rw [Outcome.actions_after, List.filterMap_append, has, h]; rfl)
  | continues hs h =>
    exact .continues hs (by rw [Outcome.actions_after, List.filterMap_append, has, h]; rfl)

theorem prelude_completion (r : Request) (m : EmberOutgoingMessage) (status : EmberStatus) :
    (r.prelude s ++ [Action.messageSend m status]).filterMap completion = [] := by
  cases r <;> rfl

theorem ends_event {r : Request} {env : EventEnv} {o : Outcome}
    (hr : requestOf s.internalState = some r) (ht : EventTrans cfg s env o) :
    Ends r.process o := by
  cases ht with
  | @submitted r' m hs _ _ =>
    refine .continues ?_ (prelude_completion r' m _)
    show (r'.submitted { s with otaEventIsActive := false }).internalState ≠ .idle
    rw [Request.submitted_internalState]
    exact fun h => idle_ne.2.1 h.symm
  | underflow hs =>
    rw [hs] at hr
    cases hr
    exact .completed _ rfl rfl
  | @notSubmitted r' m o hs _ _ ho =>
    obtain rfl : r' = r := Option.some.inj ((requestOf_interval r').symm.trans (hs ▸ hr))
    exact (ends_failed ho).after (prelude_completion r' m _)
  | @timedOut r' _ hs ho =>
    obtain rfl : r' = r := Option.some.inj ((requestOf_waiting r').symm.trans (hs ▸ hr))
    exact ends_failed ho
  | idle _ =>
    refine .continues (fun h => ?_) rfl
    rw [show s.internalState = .idle from h] at hr
    cases hr

theorem ends_message {r : Request} {m : EmberIncomingMessage} {o : Outcome}
    (hr : requestOf s.internalState = some r) (ht : MessageTrans cfg s m o) :
    Ends r.process o := by
  have hidle : s.internalState ≠ .idle := fun h => by rw [h] at hr; cases hr
  cases ht with
  | ignored _ _ _ => exact .continues hidle rfl
  | handshakeEnded h _ =>
    obtain rfl : r = .handshake := Option.some.inj (hr.symm.trans (congrArg requestOf h.state))
    exact .completed _ rfl rfl
  | handshakeAccepted h _ ho =>
    obtain rfl : r = .handshake := Option.some.inj (hr.symm.trans (congrArg requestOf h.state))
    have hends : Ends Request.imageSegment.process o := ends_failed ho
    exact hends
  | segmentEnded h _ =>
    obtain rfl : r = .imageSegment := Option.some.inj (hr.symm.trans h.requestOf_eq)
    exact .completed _ rfl rfl
  | segmentAdvanced _ _ _ _ => exact .continues (by intro h; cases h) rfl
  | segmentWrapped _ _ _ _ => exact .continues (by intro h; cases h) rfl
  | segmentIgnored _ _ => exact .continues (by intro h; cases h) rfl
  | bootloadAnswered h =>
    obtain rfl : r = .bootloadRequest :=
      Option.some.inj (hr.symm.trans (congrArg requestOf h.state))
    exact .completed _ rfl rfl

theorem ends_sent {r : Request} {status : EmberStatus} {m : EmberOutgoingMessage} {o : Outcome}
    (hr : requestOf s.internalState = some r) (ht : SentTrans cfg s status m o) :
    Ends r.process o := by
  cases ht with
  | ignored _ =>
    refine .continues (fun h => ?_) rfl
    rw [show s.internalState = .idle from h] at hr
    cases hr
  | succeeded _ _ _ => exact .continues (fun h => idle_ne.2.2 h.symm) rfl
  | @failed r' _ _ _ hs _ _ ho =>
    obtain rfl : r' = r := Option.some.inj ((requestOf_pending r').symm.trans (hs ▸ hr))
    exact ends_failed ho

/-- **Every step of a running process completes it, or goes on.** -/
theorem ends_of_trans {r : Request} {i : Input} {o : Outcome}
    (hr : requestOf s.internalState = some r) (ht : Trans cfg s i o) : Ends r.process o := by
  have hidle : s.internalState ≠ .idle := fun h => by rw [h] at hr; cases hr
  cases ht with
  | message ht => exact ends_message hr ht
  | sent ht => exact ends_sent hr ht
  | timer _ ht => exact ends_event hr ht
  | event _ ht => exact ends_event hr ht
  | timerIgnored _ => exact .continues hidle rfl
  | call ht =>
    cases ht with
    | refused _ _ => exact .continues hidle rfl
    | imageStarted hs _ _ _ => exact absurd hs hidle
    | bootloadStarted hs _ => exact absurd hs hidle
    | @aborted r' _ hs =>
      obtain rfl : r' = r := Option.some.inj (hs.symm.trans hr)
      refine .completed .aborted rfl ?_
      rw [List.filterMap_cons, completion_complete]
      rfl

/-! ## The callbacks since the start of the process -/

/-- One step of the history: what the step completes, before what was completed since the start. -/
def recordCompletions (since : List (Process × EmberAfOtaUnicastBootloaderStatus))
    (_ : Server × Option Process) (i : Input) (as : List Action) :
    List (Process × EmberAfOtaUnicastBootloaderStatus) :=
  as.filterMap completion ++ if begins i as then [] else since

/-- The server, with the process started last and the completion callbacks since. -/
def completions (cfg : Config) :
    System ((Server × Option Process) × List (Process × EmberAfOtaUnicastBootloaderStatus))
      Input Action :=
  (running cfg).observe [] recordCompletions

theorem filterMap_completion {as : List Action} (h : completed as = false) :
    as.filterMap completion = [] := by
  rw [List.filterMap_eq_nil_iff]
  intro a ha
  have hc := List.any_eq_false.mp h a ha
  cases a with
  | imageDistributionComplete _ => exact absurd rfl hc
  | requestTargetBootloadComplete _ => exact absurd rfl hc
  | _ => rfl

theorem begins_refused {i : Input} {st : EmberAfOtaUnicastBootloaderStatus} (hi : IsCall i)
    (h : st = .busy ∧ s.internalState ≠ .idle ∨ st = .invalidCall) :
    begins i [.returned st] = false := by
  cases hi <;> simp [begins, succeeded_refused h]

/-- A process is started by an idle server only, and then the server is not idle any more. -/
theorem idle_step {i : Input} {o : Outcome} (hs : s.internalState = .idle)
    (ht : Trans cfg s i o) :
    begins i o.actions = true ∧ o.server.internalState ≠ .idle ∨
      begins i o.actions = false ∧ o.server.internalState = .idle := by
  have hidle : ∀ {s' : Server}, Continues s s' → s'.internalState = .idle := by
    intro s' hc
    cases hc with
    | ended h => exact h
    | kept h => exact h.trans hs
    | moved r r' h _ _ => rw [hs] at h; cases h
  cases ht with
  | message ht => exact .inr ⟨rfl, hidle (continues_message ht)⟩
  | sent ht => exact .inr ⟨rfl, hidle (continues_sent ht)⟩
  | timer _ ht => exact .inr ⟨rfl, hidle (continues_event ht)⟩
  | event _ ht => exact .inr ⟨rfl, hidle (continues_event ht)⟩
  | timerIgnored _ => exact .inr ⟨rfl, hs⟩
  | call ht =>
    cases ht with
    | refused hi hst => exact .inr ⟨begins_refused hi hst, hs⟩
    | imageStarted _ _ _ _ => exact .inl ⟨rfl, by intro h; cases h⟩
    | bootloadStarted _ _ => exact .inl ⟨rfl, by intro h; cases h⟩
    | aborted _ hr => rw [hs] at hr; cases hr

theorem not_begins_of_running {i : Input} {o : Outcome} (hs : s.internalState ≠ .idle)
    (ht : Trans cfg s i o) : begins i o.actions = false := by
  cases ht with
  | call ht =>
    cases ht with
    | refused hi hst => exact begins_refused hi hst
    | imageStarted h _ _ _ => exact absurd h hs
    | bootloadStarted h _ => exact absurd h hs
    | aborted _ _ => rfl
  | _ => rfl

theorem started_of_not_begins {process : Option Process} {i : Input} {as : List Action}
    (h : begins i as = false) : started process s i as = process := by
  cases i with
  | initiateImageDistribution _ _ _ => exact if_neg (by rw [show succeeded as = false from h]; decide)
  | initiateRequestTargetBootload _ _ _ _ =>
    exact if_neg (by rw [show succeeded as = false from h]; decide)
  | _ => rfl

/-- **Invariant.** While a process runs nothing was completed; an idle server has completed the
process started last, if there is one, and nothing else. -/
structure OncePerProcess (s : Server) (process : Option Process)
    (since : List (Process × EmberAfOtaUnicastBootloaderStatus)) : Prop where
  running : s.internalState ≠ .idle → since = []
  idle : s.internalState = .idle → since.map Prod.fst = process.toList

theorem oncePerProcess_step {p : Server × Option Process} {i : Input} {o : Outcome}
    {since : List (Process × EmberAfOtaUnicastBootloaderStatus)} (hp : ProcessInv p)
    (h : OncePerProcess p.1 p.2 since) (ht : Trans cfg p.1 i o) :
    OncePerProcess o.server (started p.2 p.1 i o.actions)
      (recordCompletions since p i o.actions) := by
  unfold recordCompletions
  rcases hp with hi | ⟨r, hr, hg⟩
  · rw [filterMap_completion (idle_of_trans hi ht).1, List.nil_append]
    rcases idle_step hi ht with ⟨hb, hs⟩ | ⟨hb, hs⟩
    · rw [if_pos hb]
      exact ⟨fun _ => rfl, fun hs' => absurd hs' hs⟩
    · rw [if_neg (by rw [hb]; decide), started_of_not_begins hb]
      exact ⟨fun hs' => absurd hs hs', fun _ => h.idle hi⟩
  · have hne : p.1.internalState ≠ .idle := fun hi => by rw [hi] at hr; cases hr
    have hb := not_begins_of_running hne ht
    rw [if_neg (by rw [hb]; decide), started_of_not_begins hb, h.running hne, List.append_nil]
    cases ends_of_trans hr ht with
    | completed _ hs hc =>
      rw [hc, hg]
      exact ⟨fun hs' => absurd hs hs', fun _ => rfl⟩
    | continues hs hc =>
      rw [hc]
      exact ⟨fun _ => rfl, fun hs' => absurd hs' hs⟩

theorem reach_completions_init (cfg : Config) :
    (completions cfg).Reach free ((Server.init, none), []) := .start ⟨⟨rfl, rfl⟩, rfl⟩

theorem reach_running_of_completions
    {p : (Server × Option Process) × List (Process × EmberAfOtaUnicastBootloaderStatus)}
    (h : (completions cfg).Reach free p) : (running cfg).Reach free p.1 :=
  System.reach_fst_of_observe h

theorem oncePerProcess_of_reach
    {p : (Server × Option Process) × List (Process × EmberAfOtaUnicastBootloaderStatus)}
    (h : (completions cfg).Reach free p) : OncePerProcess p.1.1 p.1.2 p.2 := by
  refine System.Reach.invariant_of (J := fun p => ProcessInv p.1)
    (I := fun p => OncePerProcess p.1.1 p.1.2 p.2)
    (fun p hp => processInv_of_reach (reach_running_of_completions hp)) (fun p hp => ?_)
    (fun p i p' as hJ h _ hst => ?_) h
  · obtain ⟨⟨h1, h2⟩, h3⟩ := hp
    rw [h1, h2, h3]
    exact ⟨fun hs => absurd rfl hs, fun _ => rfl⟩
  · obtain ⟨hst, hg⟩ := System.observe_step hst
    obtain ⟨hs, hg'⟩ := System.observe_step hst
    rw [hg, hg']
    exact oncePerProcess_step hJ h (trans_of_step hs)

/-- An idle server submits no frame. -/
theorem not_submits_of_idle {i : Input} {o : Outcome} (hi : s.internalState = .idle)
    (ht : Trans cfg s i o) : ∀ a ∈ o.actions, submits a = false := by
  intro a ha
  by_contra hsub
  obtain ⟨env, -, he⟩ := eventTrans_of_submits ht (by simpa using hsub) ha
  cases he with
  | submitted hs _ _ => exact idle_ne.1 (hi.symm.trans hs)
  | underflow hs => cases hi.symm.trans hs
  | notSubmitted hs _ _ _ => exact idle_ne.1 (hi.symm.trans hs)
  | timedOut hs _ => exact idle_ne.2.2 (hi.symm.trans hs)
  | idle _ => cases ha

/-! ## One completion -/

/-- What a step, from a state with its history, does about completion. -/
structure CompletesOnce (cfg : Config) (s : Server) (process : Option Process)
    (since : List (Process × EmberAfOtaUnicastBootloaderStatus)) (i : Input) (s' : Server)
    (as : List Action) : Prop where
  /-- in between the process was not completed, at its end it was, once and by its own callback -/
  before : OncePerProcess s process since
  /-- the step that makes the server idle calls the callback of the process, once -/
  ends : s.internalState ≠ .idle → s'.internalState = .idle →
    ∃ q st, process = some q ∧ as.filterMap completion = [(q, st)]
  /-- no other step calls one -/
  others : s.internalState = .idle ∨ s'.internalState ≠ .idle → as.filterMap completion = []
  /-- an idle server submits no frame -/
  quiet : s.internalState = .idle → ∀ a ∈ as, submits a = false
  asserts : .assertFailed ∉ as
  /-- whatever the application does in the callback, the server it leaves is the one after the
  step -/
  reentrant : ∀ app : Application, (handleWith app cfg s i).map Outcome.server =
    some (match as.findSome? completion with
      | none => s'
      | some (q, st) => (app q st s').server)

/-- **Every process is completed once, by its own callback, in the step that ends it.** -/
theorem completesOnce_of_reach
    {p p' : (Server × Option Process) × List (Process × EmberAfOtaUnicastBootloaderStatus)}
    {i : Input} {as : List Action} (hp : (completions cfg).Reach free p)
    (h : (completions cfg).step p i = some (p', as)) :
    CompletesOnce cfg p.1.1 p.1.2 p.2 i p'.1.1 as := by
  obtain ⟨hst, -⟩ := System.observe_step h
  obtain ⟨hs, -⟩ := System.observe_step hst
  have ht := trans_of_step hs
  have hinv := processInv_of_reach (reach_running_of_completions hp)
  refine ⟨oncePerProcess_of_reach hp, fun hne hi => ?_, fun hor => ?_, fun hi a ha => ?_,
    (endsWell_of_trans ht).noAssert, fun app => ?_⟩
  · obtain ⟨r, hr, hg⟩ := hinv.resolve_left hne
    cases ends_of_trans hr ht with
    | completed st _ hc => exact ⟨r.process, st, hg, hc⟩
    | continues hs' _ => exact absurd hi hs'
  · by_cases hi : p.1.1.internalState = .idle
    · exact filterMap_completion (idle_of_trans hi ht).1
    · obtain ⟨r, hr, -⟩ := hinv.resolve_left hi
      cases ends_of_trans hr ht with
      | completed _ hs' _ => exact absurd hs' (hor.resolve_left hi)
      | continues _ hc => exact hc
  · exact not_submits_of_idle hi ht a ha
  · simp only [ota, Option.map_eq_some_iff, Prod.mk.injEq] at hs
    obtain ⟨o, ho, hserver, hactions⟩ := hs
    rw [server_handleWith, ho, ← hserver, ← hactions, Option.map_some, resumed]
    cases o.actions.findSome? completion with
    | none => rfl
    | some c => rfl

/-- A process that is refused: its completion callback starts the next one, which stays as it was
started. -/
theorem completesOnce_of_reach_refused :
    CompletesOnce defaultConfig
      (transferServer 5 96 7 .handshakeWaitingResponse 0) (some .imageDistribution) []
      (.incomingMessage (handshakeResponse 5 respStatusRefused 7))
      { transferServer 5 96 7 .idle 0 with otaEventIsActive := false }
      [.imageDistributionComplete .refused] := by
  have hp : (completions defaultConfig).Reach free
      ((transferServer 5 96 7 .handshakeWaitingResponse 0, some .imageDistribution), []) :=
    System.reach_of_exec_fst (handshakeRun 5 96 7) (reach_completions_init _) (by decide +kernel)
  have hst : (completions defaultConfig).step
      ((transferServer 5 96 7 .handshakeWaitingResponse 0, some .imageDistribution), [])
      (.incomingMessage (handshakeResponse 5 respStatusRefused 7)) =
        some (_, [.imageDistributionComplete .refused]) := rfl
  exact (completesOnce_of_reach hp hst :)

end ConnectNcpHost.Ota.Completion
