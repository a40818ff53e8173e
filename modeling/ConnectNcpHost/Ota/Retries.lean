import ConnectNcpHost.Ota.History

/-! # How often a frame is sent

Two counters bound the attempts: `stackErrorsCount` up to `maxStackErrors`, and it starts again when
`currentTargetErrorsCount` advances, up to `maxUnicastErrors`. Read as one number, `spent s`, the
target errors being worth `maxStackErrors` stack errors, they count every failed attempt since the
process started, or since a response was last accepted as progress. A server that is not idle has
not spent all of the `maxAttempts` (`RetryInv`). -/

namespace ConnectNcpHost.Ota.Retries

open ConnectNcpHost.Lib.Runs ConnectNcpHost.Ota.Protocol
open ConnectNcpHost.Ota.BootloaderServer ConnectNcpHost.Ota.Transition ConnectNcpHost.Ota.Frames
open ConnectNcpHost.Ota.Processes

variable {cfg : Config} {s : Server}

/-! ## The history of the attempts -/

/-- The attempts since the process started, or since the last progress. -/
structure Attempts where
  /-- calls of `emberMessageSend` -/
  sends : ℕ
  /-- frames that were refused, not sent, not acknowledged or not answered in time -/
  failures : ℕ
  /-- the status of the completion callback, once it was called -/
  ended : Option EmberAfOtaUnicastBootloaderStatus
  deriving DecidableEq

def Attempts.none : Attempts := ⟨0, 0, .none⟩

/-- A response that is accepted as progress. -/
def Progress (s : Server) : Input → Prop
  | .incomingMessage m => respStatus m = respStatusOngoing ∧
      (AcceptsHandshakeResponse s m ∨ AcceptsSegmentResponse s m ∧ respIndex m = s.sentSegment)
  | _ => False

/-- The attempt that is under way fails: the sent callback reports an error, or the response is
late. -/
def OutstandingFails (s : Server) : Input → Prop
  | .messageSent status m =>
    status ≠ emberSuccess ∧ ∃ r, Carries m r ∧ s.internalState = r.pending
  | .timerExpired _ | .eventActive _ =>
    s.otaEventIsActive = true ∧ ∃ r : Request, s.internalState = r.waiting
  | _ => False

instance (s : Server) (i : Input) : Decidable (Progress s i) := by
  refine i.casesOn ?_ ?_ ?_ ?_ ?_ ?_ ?_ <;> intros <;> unfold Progress <;> infer_instance

instance (s : Server) (i : Input) : Decidable (OutstandingFails s i) := by
  refine i.casesOn ?_ ?_ ?_ ?_ ?_ ?_ ?_ <;> intros <;> unfold OutstandingFails <;> infer_instance

def isSend : Action → Bool
  | .messageSend _ _ => true
  | _ => false

def isRefusal : Action → Bool
  | .messageSend _ status => status ≠ emberSuccess
  | _ => false

/-- The status a completion callback is called with. -/
def completionStatus : Action → Option EmberAfOtaUnicastBootloaderStatus
  | .imageDistributionComplete status | .requestTargetBootloadComplete status => some status
  | _ => .none

/-- One step of the history. -/
def Attempts.record (g : Attempts) (s : Server) (i : Input) (as : List Action) : Attempts :=
  let g := if Progress s i ∨ begins i as = true then Attempts.none else g
  { sends := g.sends + as.countP isSend
    failures := g.failures + as.countP isRefusal + if OutstandingFails s i then 1 else 0
    ended := (as.findSome? completionStatus).or g.ended }

/-- The server, with its attempts. -/
def attempts (cfg : Config) : System (Server × Attempts) Input Action :=
  (ota cfg).observe Attempts.none Attempts.record

/-! ## The invariant -/

/-- `MAX_UNICAST_ERRORS * MAX_STACK_ERRORS` -/
def maxAttempts : ℕ := maxUnicastErrors.toNat * maxStackErrors.toNat

/-- The two counters as one number. -/
def spent (s : Server) : ℕ :=
  maxStackErrors.toNat * s.currentTargetErrorsCount.toNat + s.stackErrorsCount.toNat

/-- The counters of a server that has attempts left. -/
structure Remaining (s : Server) : Prop where
  stack : s.stackErrorsCount.toNat < maxStackErrors.toNat
  target : s.currentTargetErrorsCount.toNat < maxUnicastErrors.toNat

theorem remaining_of_zero (hs : s.stackErrorsCount = 0) (ht : s.currentTargetErrorsCount = 0) :
    Remaining s := ⟨by rw [hs]; decide, by rw [ht]; decide⟩

/-- **Invariant.** In an interval every attempt has failed, and the counters know it; while a frame
awaits its sent callback there is one attempt more, and while a response is awaited the stack errors
are forgotten: the target error that may follow is worth as many. -/
inductive RetryInv (s : Server) (g : Attempts) : Prop
  | interval (r : Request) (hs : s.internalState = r.interval) (hr : Remaining s)
      (h1 : g.sends ≤ spent s) (h2 : g.failures ≤ spent s)
  | pending (r : Request) (hs : s.internalState = r.pending) (hr : Remaining s)
      (h1 : g.sends ≤ spent s + 1) (h2 : g.failures ≤ spent s)
  | waiting (r : Request) (hs : s.internalState = r.waiting) (hr : Remaining s)
      (h1 : g.sends ≤ maxStackErrors.toNat * (s.currentTargetErrorsCount.toNat + 1))
      (h2 : g.failures < maxStackErrors.toNat * (s.currentTargetErrorsCount.toNat + 1))
  | idle (hs : s.internalState = .idle)
      (hstack : s.stackErrorsCount.toNat ≤ maxStackErrors.toNat)
      (htarget : s.currentTargetErrorsCount.toNat ≤ maxUnicastErrors.toNat)
      (h1 : g.sends ≤ maxAttempts) (h2 : g.failures ≤ maxAttempts)
      (he : g.failures = maxAttempts → g.ended = some .stackError ∨ g.ended = some .unreachable)

theorem maxStackErrors_toNat : maxStackErrors.toNat = 8 := rfl

theorem maxUnicastErrors_toNat : maxUnicastErrors.toNat = 4 := rfl

theorem maxAttempts_eq : maxAttempts = 32 := rfl

/-- What holds in every state but the idle one. -/
theorem RetryInv.busy {g : Attempts} (h : RetryInv s g) (hs : s.internalState ≠ .idle) :
    Remaining s ∧ g.sends ≤ maxAttempts ∧ g.failures < maxAttempts := by
  rw [maxAttempts_eq]
  cases h with
  | idle hi => exact absurd hi hs
  | interval r _ hr h1 h2 | pending r _ hr h1 h2 | waiting r _ hr h1 h2 =>
    obtain ⟨hstack, htarget⟩ := hr
    refine ⟨⟨hstack, htarget⟩, ?_⟩
    simp only [spent, maxStackErrors_toNat, maxUnicastErrors_toNat] at *
    omega

/-- While the server awaits a sent callback or a response, the bound of the responses holds. -/
theorem RetryInv.awaiting {g : Attempts} (h : RetryInv s g) (hi : s.internalState ≠ .idle)
    (hn : ∀ r : Request, s.internalState ≠ r.interval) :
    g.sends ≤ maxStackErrors.toNat * (s.currentTargetErrorsCount.toNat + 1) ∧
      g.failures < maxStackErrors.toNat * (s.currentTargetErrorsCount.toNat + 1) := by
  cases h with
  | interval r hs _ _ _ => exact absurd hs (hn r)
  | waiting r _ _ h1 h2 => exact ⟨h1, h2⟩
  | idle hs _ _ _ _ _ => exact absurd hs hi
  | pending r _ hr h1 h2 =>
    have hstack := hr.stack
    simp only [spent, maxStackErrors_toNat] at *
    omega

/-- The end of a process. -/
theorem RetryInv.finished {g : Attempts} (h : RetryInv s g) (hs : s.internalState ≠ .idle)
    (e : Option EmberAfOtaUnicastBootloaderStatus) :
    RetryInv (finished s) ⟨g.sends, g.failures, e⟩ := by
  obtain ⟨hr, h1, h2⟩ := h.busy hs
  exact .idle rfl hr.stack.le hr.target.le h1 h2.le fun he => absurd he h2.ne

/-- The counters after a failed attempt: another one follows, or the process ends. -/
theorem retryInv_failed {r : Request} {o : Outcome} {n k : ℕ}
    {e : Option EmberAfOtaUnicastBootloaderStatus} (ho : Failed cfg r s o)
    (hstack : s.stackErrorsCount.toNat ≤ maxStackErrors.toNat)
    (hwaiting : s.internalState = r.waiting → s.stackErrorsCount.toNat < maxStackErrors.toNat)
    (htarget : s.currentTargetErrorsCount.toNat ≤ maxUnicastErrors.toNat)
    (h1 : n ≤ spent s) (h1' : n ≤ maxAttempts) (h2 : k ≤ spent s) (h2' : k ≤ maxAttempts) :
    RetryInv o.server ⟨n, k, (o.actions.findSome? completionStatus).or e⟩ := by
  cases ho with
  | retried ht hs =>
    have hlt : s.stackErrorsCount.toNat < maxStackErrors.toNat :=
      hs.elim UInt8.lt_iff_toNat_lt.mp hwaiting
    exact .interval r rfl ⟨hlt, UInt8.lt_iff_toNat_lt.mp ht⟩ h1 h2
  | @gaveUp st hst =>
    refine .idle rfl hstack htarget h1' h2' fun _ => ?_
    have hstatus : completionStatus (r.process.complete st) = some st := by cases r <;> rfl
    simp only [List.findSome?_cons, hstatus, Option.some_or]
    rcases hst with ⟨rfl, -⟩ | ⟨rfl, -⟩
    · exact .inl rfl
    · exact .inr rfl

/-! ## What a step adds to the history -/

/-- A step that is neither a start nor progress. -/
theorem record_of_not {g : Attempts} {i : Input} {as : List Action} (hp : ¬ Progress s i)
    (hb : begins i as = false) : g.record s i as =
      { sends := g.sends + as.countP isSend
        failures := g.failures + as.countP isRefusal + if OutstandingFails s i then 1 else 0
        ended := (as.findSome? completionStatus).or g.ended } := by
  unfold Attempts.record
  rw [if_neg (by simp [hp, hb])]

/-- A start or progress: nothing was sent since. -/
theorem record_of_restart {g : Attempts} {i : Input} {as : List Action}
    (h : Progress s i ∨ begins i as = true) (hf : ¬ OutstandingFails s i)
    (hs : as.countP isSend = 0) (hr : as.countP isRefusal = 0) :
    g.record s i as = ⟨0, 0, (as.findSome? completionStatus).or .none⟩ := by
  unfold Attempts.record
  rw [if_pos h, if_neg hf, hs, hr]
  rfl

/-- A step without an attempt. -/
theorem record_quiet {g : Attempts} {i : Input} {as : List Action} (hp : ¬ Progress s i)
    (hb : begins i as = false) (hf : ¬ OutstandingFails s i) (hs : as.countP isSend = 0)
    (hr : as.countP isRefusal = 0) :
    g.record s i as = ⟨g.sends, g.failures, (as.findSome? completionStatus).or g.ended⟩ := by
  rw [record_of_not hp hb, if_neg hf, hs, hr]
  rfl

/-- Neither another attempt nor the end of the process submits a frame. -/
theorem countP_failed {r : Request} {o : Outcome} (ho : Failed cfg r s o) :
    o.actions.countP isSend = 0 ∧ o.actions.countP isRefusal = 0 := by
  cases ho with
  | retried _ _ => exact ⟨rfl, rfl⟩
  | gaveUp _ => cases r <;> exact ⟨rfl, rfl⟩

theorem retryInv_call {i : Input} {o : Outcome} {g : Attempts} (h : RetryInv s g)
    (ht : CallTrans s i o) : RetryInv o.server (g.record s i o.actions) := by
  cases ht with
  | @refused i st hi hst =>
    have hb : begins i [.returned st] = false := by
      cases hi <;> simp [begins, succeeded_refused hst]
    have hg : g.record s i [.returned st] = g := by
      cases hi <;> rw [record_quiet id hb id rfl rfl] <;> rfl
    show RetryInv s (g.record s i [.returned st])
    rwa [hg]
  | imageStarted _ _ _ _ =>
    rw [record_of_restart (.inr rfl) id rfl rfl]
    exact .interval .handshake rfl (remaining_of_zero rfl rfl) (Nat.zero_le _) (Nat.zero_le _)
  | bootloadStarted _ _ =>
    rw [record_of_restart (.inr rfl) id rfl rfl]
    exact .interval .bootloadRequest rfl (remaining_of_zero rfl rfl) (Nat.zero_le _) (Nat.zero_le _)
  | @aborted r _ hs =>
    have hne : s.internalState ≠ .idle := fun hi => by rw [hi] at hs; cases hs
    rw [record_quiet id rfl id (by cases r <;> rfl) (by cases r <;> rfl)]
    exact h.finished hne _

theorem notIdle_of_requestOf {r : Request} (h : requestOf s.internalState = some r) :
    s.internalState ≠ .idle := fun hi => by rw [hi] at h; cases h

theorem retryInv_message {m : EmberIncomingMessage} {o : Outcome} {g : Attempts}
    (h : RetryInv s g) (ht : MessageTrans cfg s m o) :
    RetryInv o.server (g.record s (.incomingMessage m) o.actions) := by
  -- a step that is no progress records what it completes
  have hquiet : ∀ as : List Action, ¬ Progress s (.incomingMessage m) → as.countP isSend = 0 →
      as.countP isRefusal = 0 → g.record s (.incomingMessage m) as =
        ⟨g.sends, g.failures, (as.findSome? completionStatus).or g.ended⟩ :=
    fun as hp h1 h2 => record_quiet hp rfl id h1 h2
  have hrestart : ∀ as : List Action, Progress s (.incomingMessage m) → as.countP isSend = 0 →
      as.countP isRefusal = 0 → g.record s (.incomingMessage m) as =
        ⟨0, 0, (as.findSome? completionStatus).or .none⟩ :=
    fun as hp h1 h2 => record_of_restart (.inl hp) id h1 h2
  cases ht with
  | ignored hh hs _ =>
    rw [hquiet [] (fun hp => hp.2.elim hh fun hp => hs hp.1) rfl rfl]
    exact h
  | handshakeEnded ha hst =>
    have hne : respStatus m ≠ respStatusOngoing := by
      rcases hst with ⟨-, hst⟩ | ⟨-, hst⟩
      · rw [hst]; decide
      · exact hst
    rw [hquiet _ (fun hp => hne hp.1) rfl rfl]
    exact h.finished (notIdle_of_requestOf (congrArg requestOf ha.state)) _
  | handshakeAccepted ha hst ho =>
    have hb := (h.busy (notIdle_of_requestOf (congrArg requestOf ha.state))).1.stack
    obtain ⟨hc1, hc2⟩ := countP_failed ho
    rw [hrestart _ ⟨hst, .inl ha⟩ hc1 hc2]
    refine retryInv_failed ho hb.le (fun _ => hb) ?_ (Nat.zero_le _) (Nat.zero_le _)
      (Nat.zero_le _) (Nat.zero_le _)
    exact Nat.zero_le _
  | segmentEnded ha hst =>
    have hp : ¬ Progress s (.incomingMessage m) := by
      rintro ⟨hon, hh | ⟨-, hidx⟩⟩
      · cases ha.requestOf_eq.symm.trans (congrArg requestOf hh.state)
      · cases hst with
        | outOfSeq h | refused h | completed h => rw [hon] at h; exact absurd h (by decide)
        | mismatch _ hi => exact hi hidx
    rw [hquiet _ hp rfl rfl]
    exact h.finished (notIdle_of_requestOf ha.requestOf_eq) _
  | segmentAdvanced ha hst hi _ =>
    have hb := (h.busy (notIdle_of_requestOf ha.requestOf_eq)).1.stack
    rw [hrestart _ ⟨hst, .inr ⟨ha, hi⟩⟩ rfl rfl]
    exact .interval .imageSegment rfl ⟨hb, Nat.zero_lt_succ 3⟩ (Nat.zero_le _) (Nat.zero_le _)
  | segmentWrapped ha hst hi _ =>
    rw [hrestart _ ⟨hst, .inr ⟨ha, hi⟩⟩ rfl rfl]
    exact .waiting .imageSegment rfl (remaining_of_zero rfl rfl) (Nat.zero_le _)
      (Nat.zero_lt_succ 7)
  | segmentIgnored ha hst =>
    have hne := notIdle_of_requestOf ha.requestOf_eq
    have hr := (h.busy hne).1
    have hbound := h.awaiting hne fun r hs => by
      rcases ha.state with hs' | hs'
      · exact interval_ne_pending r .imageSegment (hs.symm.trans hs')
      · exact interval_ne_waiting r .imageSegment (hs.symm.trans hs')
    rw [hquiet _ (fun hp => hst.2.2.1 hp.1) rfl rfl]
    exact .waiting .imageSegment rfl ⟨hr.stack, hr.target⟩ hbound.1 hbound.2
  | bootloadAnswered ha =>
    have hp : ¬ Progress s (.incomingMessage m) := by
      rintro ⟨-, hh | ⟨hh, -⟩⟩
      · cases ha.state.symm.trans hh.state
      · cases (congrArg requestOf ha.state).symm.trans hh.requestOf_eq
    rw [hquiet _ hp rfl rfl]
    exact h.finished (notIdle_of_requestOf (congrArg requestOf ha.state)) _

theorem toNat_succ {x : UInt8} {n : ℕ} (h : x.toNat ≤ n) (hn : n < 255) :
    (x + 1).toNat = x.toNat + 1 := by
  rw [UInt8.toNat_add]
  exact Nat.mod_eq_of_lt (by simp only [UInt8.reduceToNat]; omega)

/-- One more error is one more attempt spent, and the counters stay within their limits. -/
theorem spent_errorCounted {s1 : Server} (hr : Remaining s) (he : ErrorCounted s s1) :
    spent s + 1 ≤ spent s1 ∧ s1.stackErrorsCount.toNat ≤ maxStackErrors.toNat ∧
      s1.currentTargetErrorsCount.toNat ≤ maxUnicastErrors.toNat ∧ spent s + 1 ≤ maxAttempts := by
  obtain ⟨hstack, htarget⟩ := hr
  simp only [spent, maxStackErrors_toNat, maxUnicastErrors_toNat, maxAttempts_eq] at *
  have h1 := toNat_succ hstack.le (by omega)
  have h2 := toNat_succ htarget.le (by omega)
  cases he with
  | stack => dsimp only; omega
  | noAck =>
    have h0 : (0 : UInt8).toNat = 0 := rfl
    dsimp only
    omega
  | noResponse => dsimp only; omega

theorem RetryInv.ofInterval {g : Attempts} {r : Request} (h : RetryInv s g)
    (hs : s.internalState = r.interval) : Remaining s ∧ g.sends ≤ spent s ∧ g.failures ≤ spent s := by
  cases h with
  | interval _ _ hr h1 h2 => exact ⟨hr, h1, h2⟩
  | pending r' hs' _ _ _ => exact absurd (hs.symm.trans hs') (interval_ne_pending r r')
  | waiting r' hs' _ _ _ => exact absurd (hs.symm.trans hs') (interval_ne_waiting r r')
  | idle hs' _ _ _ _ _ => exact absurd (hs'.symm.trans hs) idle_ne.1

theorem RetryInv.ofPending {g : Attempts} {r : Request} (h : RetryInv s g)
    (hs : s.internalState = r.pending) :
    Remaining s ∧ g.sends ≤ spent s + 1 ∧ g.failures ≤ spent s := by
  cases h with
  | interval r' hs' _ _ _ => exact absurd (hs'.symm.trans hs) (interval_ne_pending r' r)
  | pending _ _ hr h1 h2 => exact ⟨hr, h1, h2⟩
  | waiting r' hs' _ _ _ => exact absurd (hs'.symm.trans hs) (waiting_ne_pending r' r)
  | idle hs' _ _ _ _ _ => exact absurd (hs'.symm.trans hs) idle_ne.2.1

theorem retryInv_sent {status : EmberStatus} {m : EmberOutgoingMessage} {o : Outcome}
    {g : Attempts} (h : RetryInv s g) (ht : SentTrans cfg s status m o) :
    RetryInv o.server (g.record s (.messageSent status m) o.actions) := by
  cases ht with
  | ignored hn =>
    have hf : ¬ OutstandingFails s (.messageSent status m) := by
      rintro ⟨-, r, hm, hs⟩
      exact hn r hm hs
    rw [record_quiet id rfl hf rfl rfl]
    exact h
  | @succeeded r hm hs hst =>
    have hf : ¬ OutstandingFails s (.messageSent status m) := fun hf => hf.1 hst
    have hne : s.internalState ≠ .idle := fun hi => idle_ne.2.1 (hi.symm.trans hs)
    have hr := (h.busy hne).1
    have hbound := h.awaiting hne fun r' hs' => interval_ne_pending r' r (hs'.symm.trans hs)
    rw [record_quiet id rfl hf rfl rfl]
    exact .waiting r rfl ⟨Nat.zero_lt_succ 7, hr.target⟩ hbound.1 hbound.2
  | @failed r s1 _ hm hs hst he ho =>
    obtain ⟨hr, h1, h2⟩ := h.ofPending hs
    obtain ⟨hsp, hstack, htarget, hmax⟩ := spent_errorCounted hr he
    obtain ⟨hc1, hc2⟩ := countP_failed ho
    rw [record_of_not id rfl, hc1, hc2, if_pos ⟨hst, r, hm, hs⟩]
    have hspent : spent { s1 with internalState := r.interval } = spent s1 := rfl
    refine retryInv_failed ho hstack (fun hw => absurd hw (interval_ne_waiting r r)) htarget ?_ ?_ ?_ ?_
    all_goals omega

/-- The timeout of a response costs as much as all the stack errors. -/
theorem RetryInv.timedOut {g : Attempts} {r : Request} {o : Outcome}
    {e : Option EmberAfOtaUnicastBootloaderStatus} (h : RetryInv s g)
    (hs : s.internalState = r.waiting)
    (ho : Failed cfg r
      { s with
        otaEventIsActive := false
        currentTargetErrorsCount := s.currentTargetErrorsCount + 1 } o) :
    RetryInv o.server
      ⟨g.sends, g.failures + 1, (o.actions.findSome? completionStatus).or e⟩ := by
  have hne : s.internalState ≠ .idle := fun hi => idle_ne.2.2 (hi.symm.trans hs)
  obtain ⟨hr, hmax, -⟩ := h.busy hne
  obtain ⟨h1, h2⟩ := h.awaiting hne fun r' hs' => interval_ne_waiting r' r (hs'.symm.trans hs)
  have hsucc := toNat_succ hr.target.le (by decide)
  have htarget := hr.target
  refine retryInv_failed ho hr.stack.le (fun _ => hr.stack) ?_ ?_ hmax ?_ ?_
  all_goals
    simp only [spent, maxStackErrors_toNat, maxUnicastErrors_toNat, maxAttempts_eq] at *
    omega

/-- The flag of the event does not count. -/
theorem RetryInv.inactive {g : Attempts} (h : RetryInv s g) :
    RetryInv { s with otaEventIsActive := false } g := by
  cases h with
  | interval r hs hr h1 h2 => exact .interval r hs ⟨hr.stack, hr.target⟩ h1 h2
  | pending r hs hr h1 h2 => exact .pending r hs ⟨hr.stack, hr.target⟩ h1 h2
  | waiting r hs hr h1 h2 => exact .waiting r hs ⟨hr.stack, hr.target⟩ h1 h2
  | idle hs hstack htarget h1 h2 he => exact .idle hs hstack htarget h1 h2 he

theorem RetryInv.submitted {g : Attempts} {r : Request}
    {e : Option EmberAfOtaUnicastBootloaderStatus} (h : RetryInv s g)
    (hs : s.internalState = r.interval) :
    RetryInv (r.submitted { s with otaEventIsActive := false }) ⟨g.sends + 1, g.failures, e⟩ := by
  obtain ⟨hr, h1, h2⟩ := h.ofInterval hs
  have hcounters : (r.submitted { s with otaEventIsActive := false }).stackErrorsCount =
        s.stackErrorsCount ∧
      (r.submitted { s with otaEventIsActive := false }).currentTargetErrorsCount =
        s.currentTargetErrorsCount := by cases r <;> exact ⟨rfl, rfl⟩
  have hspent : spent (r.submitted { s with otaEventIsActive := false }) = spent s := by
    rw [spent, hcounters.1, hcounters.2, spent]
  refine .pending r (Request.submitted_internalState r _) ⟨?_, ?_⟩ ?_ ?_
  · rw [hcounters.1]; exact hr.stack
  · rw [hcounters.2]; exact hr.target
  · rw [hspent]; exact Nat.succ_le_succ h1
  · rw [hspent]; exact h2

/-- A frame that `emberMessageSend` refuses. -/
theorem RetryInv.notSubmitted {g : Attempts} {r : Request} {o : Outcome}
    {e : Option EmberAfOtaUnicastBootloaderStatus} (h : RetryInv s g)
    (hs : s.internalState = r.interval)
    (ho : Failed cfg r
      { s with otaEventIsActive := false, stackErrorsCount := s.stackErrorsCount + 1 } o) :
    RetryInv o.server
      ⟨g.sends + 1, g.failures + 1, (o.actions.findSome? completionStatus).or e⟩ := by
  obtain ⟨hr, h1, h2⟩ := h.ofInterval hs
  obtain ⟨hsp, hstack, htarget, hmax⟩ := spent_errorCounted hr .stack
  have hspent : spent
      { s with otaEventIsActive := false, stackErrorsCount := s.stackErrorsCount + 1 } =
      spent { s with stackErrorsCount := s.stackErrorsCount + 1 } := rfl
  refine retryInv_failed ho hstack (fun hw => ?_) htarget ?_ ?_ ?_ ?_
  · exact absurd (hs.symm.trans hw) (interval_ne_waiting r r)
  all_goals omega

theorem retryInv_event {env : EventEnv} {i : Input} {o : Outcome} {g : Attempts}
    (h : RetryInv s g) (hi : i = .timerExpired env ∨ i = .eventActive env)
    (ha : s.otaEventIsActive = true) (ht : EventTrans cfg s env o) :
    RetryInv o.server (g.record s i o.actions) := by
  have hp : ¬ Progress s i := by rcases hi with rfl | rfl <;> exact id
  have hb : begins i o.actions = false := by rcases hi with rfl | rfl <;> rfl
  have hf : OutstandingFails s i ↔ ∃ r : Request, s.internalState = r.waiting := by
    rcases hi with rfl | rfl <;> exact and_iff_right ha
  have hinterval : ∀ r : Request, s.internalState = r.interval → ¬ OutstandingFails s i := by
    intro r hs hw
    obtain ⟨r', hw⟩ := hf.mp hw
    exact interval_ne_waiting r r' (hs.symm.trans hw)
  rw [record_of_not hp hb]
  cases ht with
  | @submitted r m hs hfr hst =>
    have hc : (r.prelude s ++ [Action.messageSend m emberSuccess]).countP isSend = 1 ∧
        (r.prelude s ++ [Action.messageSend m emberSuccess]).countP isRefusal = 0 := by
      cases r <;> exact ⟨rfl, rfl⟩
    rw [hc.1, hc.2, if_neg (hinterval r hs)]
    exact h.submitted hs
  | underflow hs =>
    rw [if_neg (hinterval .imageSegment hs)]
    exact h.finished (fun hi => by rw [hi] at hs; cases hs) _
  | @notSubmitted r m o hs hfr hst ho =>
    obtain ⟨hc1, hc2⟩ := countP_failed ho
    have hrefusal : isRefusal (.messageSend m env.sendStatus) = true := decide_eq_true hst
    have hprelude : (r.prelude s).countP isSend = 0 ∧ (r.prelude s).countP isRefusal = 0 ∧
        (r.prelude s).findSome? completionStatus = .none := by
      cases r <;> exact ⟨rfl, rfl, rfl⟩
    rw [Outcome.actions_after, if_neg (hinterval r hs)]
    simp only [List.countP_append, List.findSome?_append, hprelude.1, hprelude.2.1, hprelude.2.2,
      hc1, hc2, List.countP_singleton, hrefusal, isSend, List.findSome?_singleton, completionStatus,
      if_true, Option.none_or, Nat.zero_add, Nat.add_zero]
    exact h.notSubmitted hs ho
  | @timedOut r _ hs ho =>
    obtain ⟨hc1, hc2⟩ := countP_failed ho
    rw [hc1, hc2, if_pos (hf.mpr ⟨r, hs⟩)]
    exact h.timedOut hs ho
  | idle hs =>
    have hn : ¬ OutstandingFails s i := fun hw => by
      obtain ⟨r, hw⟩ := hf.mp hw
      exact (hs r).2 hw
    rw [if_neg hn]
    exact h.inactive

theorem retryInv_step {i : Input} {o : Outcome} {g : Attempts} (h : RetryInv s g)
    (ht : Trans cfg s i o) : RetryInv o.server (g.record s i o.actions) := by
  cases ht with
  | call ht => exact retryInv_call h ht
  | message ht => exact retryInv_message h ht
  | sent ht => exact retryInv_sent h ht
  | timer ha ht => exact retryInv_event h (.inl rfl) ha ht
  | event ha ht => exact retryInv_event h (.inr rfl) ha ht
  | @timerIgnored env ha =>
    have hn : ¬ OutstandingFails s (.timerExpired env) := by
      rintro ⟨hactive, -⟩
      cases ha.symm.trans hactive
    rw [record_quiet id rfl hn rfl rfl]
    exact h

theorem reach_attempts_init (cfg : Config) :
    (attempts cfg).Reach free (Server.init, Attempts.none) := .start ⟨rfl, rfl⟩

theorem retryInv_of_reach {p : Server × Attempts} (h : (attempts cfg).Reach free p) :
    RetryInv p.1 p.2 := by
  refine System.Reach.invariant (I := fun p => RetryInv p.1 p.2) (fun p hp => ?_)
    (fun p i p' as _ h _ hst => ?_) h
  · obtain ⟨h1, h2⟩ := hp
    rw [h1, h2]
    exact .idle rfl (Nat.zero_le _) (Nat.zero_le _) (Nat.zero_le _) (Nat.zero_le _)
      (fun he => absurd he (by decide))
  · obtain ⟨hs, hg⟩ := System.observe_step hst
    rw [hg]
    exact retryInv_step h (trans_of_step hs)

/-! ## The bound -/

/-- The bounds of the attempts and of the counters. -/
structure BoundedRetries (s : Server) (g : Attempts) : Prop where
  sends : g.sends ≤ maxAttempts
  stack : s.stackErrorsCount ≤ maxStackErrors
  target : s.currentTargetErrorsCount ≤ maxUnicastErrors
  /-- when every attempt has failed the process is over -/
  exhausted : g.failures = maxAttempts →
    s.internalState = .idle ∧ (g.ended = some .stackError ∨ g.ended = some .unreachable)

/-- **At most `maxAttempts` frames are submitted between two responses that are accepted as progress,
and as many failures end the process; the counters stay within their limits.** -/
theorem boundedRetries_of_reach {p : Server × Attempts} (h : (attempts cfg).Reach free p) :
    BoundedRetries p.1 p.2 := by
  have hinv := retryInv_of_reach h
  by_cases hi : p.1.internalState = .idle
  · cases hinv with
    | idle _ hstack htarget h1 h2 he =>
      exact ⟨h1, UInt8.le_iff_toNat_le.mpr hstack, UInt8.le_iff_toNat_le.mpr htarget,
        fun hf => ⟨hi, he hf⟩⟩
    | interval r hs _ _ _ => exact absurd (hi.symm.trans hs) idle_ne.1
    | pending r hs _ _ _ => exact absurd (hi.symm.trans hs) idle_ne.2.1
    | waiting r hs _ _ _ => exact absurd (hi.symm.trans hs) idle_ne.2.2
  · obtain ⟨hr, h1, h2⟩ := hinv.busy hi
    exact ⟨h1, UInt8.le_iff_toNat_le.mpr hr.stack.le, UInt8.le_iff_toNat_le.mpr hr.target.le,
      fun hf => absurd hf h2.ne⟩

/-- The stack refuses every frame. -/
def refusingEnv : EventEnv := { plainEnv with sendStatus := 0x01 }

/-- Seven refused handshakes, and one that is sent but not acknowledged. -/
def unacknowledgedRun (target : EmberNodeId) (imageSize : UInt32) (imageTag : UInt8) : List Input :=
  List.replicate 7 (.timerExpired refusingEnv) ++
    [.timerExpired plainEnv, .messageSent emberMacNoAckReceived (handshakeFrame plainEnv.stack
      (transferServer target imageSize imageTag .handshakeInterval 0))]

/-- The bound is reached: 32 handshakes, and the process ends as UNREACHABLE. -/
theorem boundedRetries_of_reach_all :
    BoundedRetries
      { transferServer 5 96 7 .idle 0 with currentTargetErrorsCount := 4, otaEventIsActive := false }
      ⟨32, 32, some .unreachable⟩ := by
  have h : (attempts defaultConfig).Reach free
      ({ transferServer 5 96 7 .idle 0 with
          currentTargetErrorsCount := 4, otaEventIsActive := false },
        ⟨32, 32, some .unreachable⟩) :=
    System.reach_of_exec_fst (.initiateImageDistribution 5 96 7 ::
        (List.replicate 4 (unacknowledgedRun 5 96 7)).flatten)
      (reach_attempts_init _) (by decide +kernel)
  exact boundedRetries_of_reach h

end ConnectNcpHost.Ota.Retries
