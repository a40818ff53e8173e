import ConnectNcpHost.Lib.Streaks
import ConnectNcpHost.Ota.Retries

/-! # Stack errors in a row

`Trail` is the list of the attempts at a transmission, every call of `emberMessageSend`, with what
became of each: refused, reported by its sent callback, answered. `stackErrorsCount` is to count the
attempts at the end of this list that failed on the side of the stack (`StreakInv`). It does as long
as no answer that comes before its sent callback leaves errors counted, and no sent callback is
taken for that of a later frame (`Consecutive`); then STACK_ERROR means `maxStackErrors` failed
attempts in a row (`stackError_of_consecutive`). A segment that is answered early shows the rest
(`stackError_after_answer`). -/

namespace ConnectNcpHost.Ota.StackErrors

open ConnectNcpHost.Lib.Runs ConnectNcpHost.Lib.Streaks ConnectNcpHost.Ota.Protocol
open ConnectNcpHost.Ota.BootloaderServer ConnectNcpHost.Ota.Transition ConnectNcpHost.Ota.Frames
open ConnectNcpHost.Ota.Processes ConnectNcpHost.Ota.Retries

variable {cfg : Config} {s : Server}

/-! ## The attempts -/

/-- What became of a frame. -/
inductive Result
  /-- accepted by `emberMessageSend`, its sent callback is to come -/
  | awaited
  /-- refused by `emberMessageSend` -/
  | refused
  /-- reported by its sent callback -/
  | sent (status : EmberStatus)
  deriving DecidableEq

/-- An attempt at a transmission. -/
structure Attempt where
  frame : EmberOutgoingMessage
  result : Result
  /-- the server has taken a response for it -/
  answered : Bool

/-- A status that stands for an error of the stack. -/
def IsStackError (status : EmberStatus) : Prop :=
  status ≠ emberSuccess ∧ status ≠ emberMacNoAckReceived

instance (status : EmberStatus) : Decidable (IsStackError status) := by
  unfold IsStackError; infer_instance

/-- The attempt failed on the side of the stack. -/
structure Attempt.StackFailed (x : Attempt) : Prop where
  failed : x.result = .refused ∨ ∃ status, x.result = .sent status ∧ IsStackError status
  unanswered : x.answered = false

/-- The attempts so far, and the number of the first one of the process that was started last. -/
structure Trail where
  attempts : List Attempt
  first : ℕ

namespace Trail

def init : Trail := ⟨[], 0⟩

/-- A call of `emberMessageSend`. -/
def submit (g : Trail) : Action → Trail
  | .messageSend m status =>
    { g with
      attempts := g.attempts ++ [⟨m, if status = emberSuccess then .awaited else .refused, false⟩] }
  | _ => g

/-- The sent callback of the attempt number `k`. -/
def report (g : Trail) (k : ℕ) (status : EmberStatus) : Trail :=
  { g with attempts := g.attempts.modify k fun x => { x with result := .sent status } }

/-- A response is taken for the last attempt. -/
def answer (g : Trail) : Trail :=
  { g with
    attempts := g.attempts.modify (g.attempts.length - 1) fun x => { x with answered := true } }

/-- What a handler adds. -/
def record (g : Trail) (i : Input) (as : List Action) : Trail :=
  as.foldl submit (if begins i as then { g with first := g.attempts.length } else g)

end Trail

/-- The server takes the message for a response. -/
def Accepts (s : Server) (m : EmberIncomingMessage) : Prop :=
  AcceptsHandshakeResponse s m ∨ AcceptsSegmentResponse s m ∨ AcceptsBootloadResponse s m

instance (s : Server) (m : EmberIncomingMessage) : Decidable (Accepts s m) := by
  unfold Accepts; infer_instance

/-- What happens to the server: the sent callback of the attempt number `k`, or another input. -/
inductive Event
  | messageSent (status : EmberStatus) (k : ℕ)
  | other (i : Input)

/-- The input an event is for the server: every frame that was accepted has one sent callback. -/
def Trail.take (g : Trail) (s : Server) : Event → Option (Input × Trail)
  | .messageSent status k =>
    match g.attempts[k]? with
    | some ⟨frame, .awaited, _⟩ => some (.messageSent status frame, g.report k status)
    | _ => none
  | .other (.messageSent status m) =>
    if ∃ r, Carries m r then none else some (.messageSent status m, g)
  | .other (.incomingMessage m) =>
    some (.incomingMessage m, if Accepts s m then g.answer else g)
  | .other i => some (i, g)

/-- **The server with its attempts.** -/
def attempted (cfg : Config) : System (Server × Trail) Event Action where
  start p := p = (Server.init, Trail.init)
  step p e := do
    let (i, g) ← p.2.take p.1 e
    let (s', as) ← (ota cfg).step p.1 i
    return ((s', g.record i as), as)

theorem reach_attempted_init {ok : Server × Trail → Event → Prop} (cfg : Config) :
    (attempted cfg).Reach ok (Server.init, Trail.init) := .start rfl

theorem attempted_step {p p' : Server × Trail} {e : Event} {as : List Action}
    (h : (attempted cfg).step p e = some (p', as)) : ∃ i g, p.2.take p.1 e = some (i, g) ∧
      Trans cfg p.1 i ⟨p'.1, as⟩ ∧ (ota cfg).step p.1 i = some (p'.1, as) ∧
      p'.2 = g.record i as := by
  simp only [attempted, Option.bind_eq_bind, Option.bind_eq_some_iff, Option.pure_def,
    Option.some.injEq, Prod.mk.injEq] at h
  obtain ⟨⟨i, g⟩, ht, ⟨s', as'⟩, hs, rfl, rfl⟩ := h
  exact ⟨i, g, ht, trans_of_step hs, hs, rfl⟩

/-! ## The property and its condition -/

/-- The last `maxStackErrors` attempts of the process all failed on the side of the stack. -/
def FailedInARow (g : Trail) : Prop :=
  Streak Attempt.StackFailed g.attempts g.first g.attempts.length maxStackErrors.toNat

/-- The process completes with STACK_ERROR. -/
def CompletesStackError (as : List Action) : Prop :=
  .imageDistributionComplete .stackError ∈ as ∨ .requestTargetBootloadComplete .stackError ∈ as

/-- The condition on the steps of a run: a segment response that asks for the next segment finds no
stack error counted, and a sent callback that counts one is that of the last attempt. -/
def Consecutive (p : Server × Trail) : Event → Prop
  | .messageSent status k => IsStackError status →
    (∃ x ∈ p.2.attempts[k]?, ∃ r, Carries x.frame r ∧ p.1.internalState = r.pending) →
      k + 1 = p.2.attempts.length
  | .other (.incomingMessage m) => AcceptsSegmentResponse p.1 m →
    respStatus m = respStatusOngoing → respIndex m = p.1.sentSegment →
      p.1.nextSegment < getTotalSegmentsCount p.1 → p.1.stackErrorsCount = 0
  | _ => True

instance (p : Server × Trail) (e : Event) : Decidable (Consecutive p e) := by
  unfold Consecutive; split <;> infer_instance

/-! ## The trail along a handler -/

variable {g : Trail} {i : Input} {as : List Action}

theorem foldl_submit_of_not_mem (h : ∀ m status, .messageSend m status ∉ as) :
    as.foldl Trail.submit g = g := by
  refine foldl_eq_self fun a ha => ?_
  cases a with
  | messageSend m status => exact absurd ha (h m status)
  | _ => rfl

/-- A handler that submits nothing. -/
theorem record_quiet (hb : begins i as = false) (h : ∀ m status, .messageSend m status ∉ as) :
    g.record i as = g := by
  unfold Trail.record
  rw [hb]
  exact foldl_submit_of_not_mem h

theorem not_send_of_failed {r : Request} {o : Outcome} (ho : Failed cfg r s o) :
    ∀ m status, .messageSend m status ∉ o.actions := fun _ _ => not_mem_of_failed rfl ho

/-- The event handler submits one frame, and then does what follows. -/
theorem record_submission {r : Request} {m : EmberOutgoingMessage} {status : EmberStatus}
    {bs : List Action} (hi : ∀ as, begins i as = false)
    (h : ∀ m status, .messageSend m status ∉ bs) :
    g.record i ((r.prelude s ++ [.messageSend m status]) ++ bs) =
      { g with
        attempts := g.attempts ++
          [⟨m, if status = emberSuccess then .awaited else .refused, false⟩] } := by
  unfold Trail.record
  rw [hi, List.foldl_append, foldl_submit_of_not_mem h]
  cases r <;> rfl

/-! ## The invariant -/

/-- **Invariant.** The errors counted are those of the attempts at the end, before the one whose sent
callback is awaited; while a response is awaited none are counted, or nothing but another response
can come. -/
structure StreakInv (s : Server) (g : Trail) : Prop where
  first : g.first ≤ g.attempts.length
  interval : ∀ {r : Request}, s.internalState = r.interval → s.stackErrorsCount.toNat < 8 ∧
    Streak Attempt.StackFailed g.attempts g.first g.attempts.length s.stackErrorsCount.toNat
  pending : ∀ {r : Request}, s.internalState = r.pending → s.stackErrorsCount.toNat < 8 ∧
    s.otaEventIsActive = false ∧
    ∃ n x, g.attempts.length = n + 1 ∧ g.attempts[n]? = some x ∧ x.answered = false ∧
      Streak Attempt.StackFailed g.attempts g.first n s.stackErrorsCount.toNat
  waiting : ∀ {r : Request}, s.internalState = r.waiting →
    s.stackErrorsCount = 0 ∨ r = .imageSegment ∧ s.otaEventIsActive = false

theorem streakInv_idle (hf : g.first ≤ g.attempts.length) (hs : s.internalState = .idle) :
    StreakInv s g where
  first := hf
  interval h := absurd (hs.symm.trans h) idle_ne.1
  pending h := absurd (hs.symm.trans h) idle_ne.2.1
  waiting h := absurd (hs.symm.trans h) idle_ne.2.2

theorem streakInv_interval {r : Request} (hs : s.internalState = r.interval)
    (hlt : s.stackErrorsCount.toNat < 8)
    (h : Streak Attempt.StackFailed g.attempts g.first g.attempts.length s.stackErrorsCount.toNat) :
    StreakInv s g where
  first := by have := h.le; omega
  interval _ := ⟨hlt, h⟩
  pending h' := absurd (hs.symm.trans h') (interval_ne_pending r _)
  waiting h' := absurd (hs.symm.trans h') (interval_ne_waiting r _)

theorem streakInv_waiting {r : Request} (hf : g.first ≤ g.attempts.length)
    (hs : s.internalState = r.waiting)
    (h : s.stackErrorsCount = 0 ∨ r = .imageSegment ∧ s.otaEventIsActive = false) :
    StreakInv s g where
  first := hf
  interval h' := absurd (h'.symm.trans hs) (interval_ne_waiting _ r)
  pending h' := absurd (hs.symm.trans h') (waiting_ne_pending r _)
  waiting {r'} h' := by
    have he := congrArg requestOf (hs.symm.trans h')
    rw [requestOf_waiting, requestOf_waiting] at he
    exact Option.some.inj he ▸ h

/-- A handler keeps the invariant, and the end with STACK_ERROR means what it says. -/
structure Keeps (o : Outcome) (g : Trail) : Prop where
  inv : StreakInv o.server g
  stackError : CompletesStackError o.actions → FailedInARow g

theorem keeps_of_not_completed {o : Outcome} (h : StreakInv o.server g)
    (hc : ¬ CompletesStackError o.actions) : Keeps o g := ⟨h, fun h' => absurd h' hc⟩

theorem not_completesStackError (h : ∀ a ∈ as, completionStatus a ≠ some .stackError) :
    ¬ CompletesStackError as := by
  rintro (hm | hm)
  · exact h _ hm rfl
  · exact h _ hm rfl

/-- **After a failed attempt**, its error counted in `s`. -/
theorem keeps_failed {r : Request} {o : Outcome} (ho : Failed cfg r s o)
    (hw : s.internalState = r.waiting → s.stackErrorsCount = 0)
    (h : Streak Attempt.StackFailed g.attempts g.first g.attempts.length s.stackErrorsCount.toNat) :
    Keeps o g := by
  cases ho with
  | retried ht hs =>
    have hlt : s.stackErrorsCount.toNat < 8 := by
      rcases hs with hs | hs
      · exact UInt8.lt_iff_toNat_lt.mp hs
      · rw [hw hs]; decide
    refine keeps_of_not_completed (streakInv_interval (r := r) rfl hlt h) ?_
    exact not_completesStackError fun a ha => by
      rw [List.mem_singleton.mp ha]; exact nofun
  | @gaveUp st hst =>
    have hf : g.first ≤ g.attempts.length := by have := h.le; omega
    refine ⟨streakInv_idle hf rfl, fun hc => ?_⟩
    have hst' : st = .stackError := by
      rcases hc with hc | hc
      · cases r <;> simp_all [Request.process, Process.complete]
      · cases r <;> simp_all [Request.process, Process.complete]
    rcases hst with ⟨-, hle⟩ | ⟨rfl, -⟩
    · exact h.mono (UInt8.le_iff_toNat_le.mp hle)
    · cases hst'

/-! ## The handlers -/

theorem keeps_call {o : Outcome} (h : StreakInv s g) (ht : CallTrans s i o) :
    Keeps o (g.record i o.actions) := by
  cases ht with
  | @refused i st hi hst =>
    have hb : begins i [.returned st] = false := by
      cases hi <;> simp [begins, succeeded_refused hst]
    rw [record_quiet hb (by simp)]
    exact keeps_of_not_completed h (by simp [CompletesStackError])
  | imageStarted _ _ _ _ =>
    exact keeps_of_not_completed (streakInv_interval (r := .handshake) rfl (Nat.zero_lt_succ 7)
      (Streak.zero _ _ (Nat.le_refl _))) (by simp [CompletesStackError])
  | bootloadStarted _ _ =>
    exact keeps_of_not_completed (streakInv_interval (r := .bootloadRequest) rfl (Nat.zero_lt_succ 7)
      (Streak.zero _ _ (Nat.le_refl _))) (by simp [CompletesStackError])
  | @aborted r _ _ =>
    rw [record_quiet rfl (by cases r <;> simp [Request.process, Process.complete])]
    refine keeps_of_not_completed (streakInv_idle h.first rfl) ?_
    cases r <;> simp [CompletesStackError, Request.process, Process.complete]

/-- A bootload response ends the process with STACK_ERROR only if the errors have run full. -/
theorem stackErrors_of_bootloadAnswer {m : EmberIncomingMessage}
    (hb : AcceptsBootloadResponse s m) (hc : CompletesStackError
      (emAfPluginOtaUnicastBootloaderServerIncomingMessageCallback cfg m s).actions) :
    maxStackErrors ≤ s.stackErrorsCount := by
  have hprocess : s.serverInBootloadRequestProcess :=
    serverInBootloadRequestProcess_iff.mpr (congrArg requestOf hb.state)
  unfold emAfPluginOtaUnicastBootloaderServerIncomingMessageCallback at hc
  rw [if_neg (not_not.mpr hb.fromTarget.endpoint), if_neg hb.fromTarget.secured,
    if_neg (not_not.mpr hb.fromTarget.source)] at hc
  dsimp only at hc
  rw [hb.command, if_neg (by decide), if_neg (by decide), if_neg (by decide), if_pos rfl,
    if_pos ⟨hb.state, hb.length⟩] at hc
  unfold scheduleBootloadRequestProcessNextTask at hc
  rw [if_neg (not_not.mpr hprocess)] at hc
  by_contra hlt
  rw [if_neg hlt, if_pos rfl] at hc
  split_ifs at hc <;> simp [CompletesStackError, bootloadRequestProcessFinished] at hc

theorem length_answer : g.answer.attempts.length = g.attempts.length := List.length_modify _ _ _

theorem keeps_message {m : EmberIncomingMessage} {o : Outcome} (h : StreakInv s g)
    (hok : Consecutive (s, g) (.other (.incomingMessage m)))
    (hstep : o = emAfPluginOtaUnicastBootloaderServerIncomingMessageCallback cfg m s)
    (ht : MessageTrans cfg s m o) :
    Keeps o (if Accepts s m then g.answer else g) := by
  have hf : g.answer.first ≤ g.answer.attempts.length := by rw [length_answer]; exact h.first
  have hzero : Streak Attempt.StackFailed g.answer.attempts g.answer.first
      g.answer.attempts.length 0 := Streak.zero _ _ hf
  cases ht with
  | ignored hh hs hb =>
    rw [if_neg fun ha => ha.elim hh fun ha => ha.elim hs hb]
    exact keeps_of_not_completed h (by simp [CompletesStackError])
  | handshakeEnded ha hst =>
    rw [if_pos (.inl ha)]
    refine keeps_of_not_completed (streakInv_idle hf rfl) ?_
    rcases hst with ⟨rfl, -⟩ | ⟨rfl, -⟩ <;> simp [CompletesStackError]
  | handshakeAccepted ha _ ho =>
    rw [if_pos (.inl ha)]
    have h0 : s.stackErrorsCount = 0 :=
      (h.waiting (r := .handshake) ha.state).resolve_right fun hr => by cases hr.1
    refine keeps_failed ho (fun hw => absurd hw (interval_ne_waiting .imageSegment _)) ?_
    dsimp only
    rw [h0]
    exact hzero
  | segmentEnded ha hst =>
    rw [if_pos (.inr (.inl ha))]
    refine keeps_of_not_completed (streakInv_idle hf rfl) ?_
    cases hst <;> simp [CompletesStackError]
  | segmentAdvanced ha hst hi hn =>
    rw [if_pos (.inr (.inl ha))]
    have h0 : s.stackErrorsCount = 0 := hok ha hst hi hn
    refine keeps_of_not_completed (streakInv_interval (r := .imageSegment) rfl ?_ ?_)
      (by simp [CompletesStackError])
    · show s.stackErrorsCount.toNat < 8
      rw [h0]; decide
    · show Streak _ _ _ _ s.stackErrorsCount.toNat
      rw [h0]; exact hzero
  | segmentWrapped ha _ _ _ =>
    rw [if_pos (.inr (.inl ha))]
    exact keeps_of_not_completed (streakInv_waiting (r := .imageSegment) hf rfl (.inl rfl))
      (by simp [CompletesStackError])
  | segmentIgnored ha _ =>
    rw [if_pos (.inr (.inl ha))]
    have hw : s.stackErrorsCount = 0 ∨ s.otaEventIsActive = false := by
      rcases ha.state with hs | hs
      · exact .inr (h.pending (r := .imageSegment) hs).2.1
      · exact (h.waiting (r := .imageSegment) hs).imp_right And.right
    refine keeps_of_not_completed (streakInv_waiting (r := .imageSegment) hf rfl ?_)
      (by simp [CompletesStackError])
    exact hw.imp_right fun ha' => ⟨rfl, ha'⟩
  | bootloadAnswered ha =>
    rw [if_pos (.inr (.inr ha))]
    refine keeps_of_not_completed (streakInv_idle hf rfl) fun hc => ?_
    rw [hstep] at hc
    have hle := UInt8.le_iff_toNat_le.mp (stackErrors_of_bootloadAnswer ha hc)
    have h0 : s.stackErrorsCount = 0 :=
      (h.waiting (r := .bootloadRequest) ha.state).resolve_right fun hr => by cases hr.1
    rw [h0] at hle
    exact absurd hle (by decide)

theorem length_report (k : ℕ) (status : EmberStatus) :
    (g.report k status).attempts.length = g.attempts.length := List.length_modify _ _ _

theorem not_stackFailed_of_awaited {x : Attempt} (hx : x.result = .awaited) : ¬ x.StackFailed := by
  intro h
  rcases h.failed with h | ⟨_, h, -⟩
  · cases hx.symm.trans h
  · cases hx.symm.trans h

/-- The report of a frame that was awaited takes nothing from a streak. -/
theorem streak_report {n c k : ℕ} {x : Attempt} (status : EmberStatus)
    (h : Streak Attempt.StackFailed g.attempts g.first n c) (hx : g.attempts[k]? = some x)
    (hr : x.result = .awaited) :
    Streak Attempt.StackFailed (g.report k status).attempts g.first n c :=
  h.modify hx (not_stackFailed_of_awaited hr) _

/-- A sent callback on which the server does not act. -/
theorem streakInv_report {k : ℕ} {x : Attempt} (status : EmberStatus) (h : StreakInv s g)
    (hx : g.attempts[k]? = some x) (hr : x.result = .awaited) :
    StreakInv s (g.report k status) where
  first := by rw [length_report]; exact h.first
  interval hs := by
    obtain ⟨hlt, hst⟩ := h.interval hs
    rw [length_report]
    exact ⟨hlt, streak_report status hst hx hr⟩
  pending hs := by
    obtain ⟨hlt, ha, n, y, hn, hy, hans, hst⟩ := h.pending hs
    have hy' : ∃ y', (g.report k status).attempts[n]? = some y' ∧ y'.answered = false := by
      by_cases hk : k = n
      · subst hk
        exact ⟨{ y with result := .sent status },
          by rw [Trail.report, List.getElem?_modify_eq, hy]; rfl, hans⟩
      · exact ⟨y, by rw [Trail.report, List.getElem?_modify_ne _ _ hk, hy], hans⟩
    obtain ⟨y', hy', hans'⟩ := hy'
    exact ⟨hlt, ha, n, y', by rw [length_report, hn], hy', hans', streak_report status hst hx hr⟩
  waiting hs := h.waiting hs

theorem keeps_sent {status : EmberStatus} {k : ℕ} {x : Attempt} {o : Outcome}
    (h : StreakInv s g) (hok : Consecutive (s, g) (.messageSent status k))
    (hx : g.attempts[k]? = some x) (hr : x.result = .awaited)
    (hstep : o = emAfPluginOtaUnicastBootloaderServerMessageSentCallback cfg status x.frame s)
    (ht : SentTrans cfg s status x.frame o) : Keeps o (g.report k status) := by
  have hinv := streakInv_report status h hx hr
  cases ht with
  | ignored _ => exact keeps_of_not_completed hinv (by simp [CompletesStackError])
  | @succeeded r _ _ _ =>
    exact keeps_of_not_completed (streakInv_waiting (r := r) hinv.first rfl (.inl rfl))
      (by simp [CompletesStackError])
  | @failed r s1 _ hm hs hst _ _ =>
    have ho : Failed cfg r _ _ := failed_of_callback hm hs hst
    rw [← hstep] at ho
    refine keeps_failed ho (fun hw => absurd hw (interval_ne_waiting r r)) ?_
    by_cases hno : status = emberMacNoAckReceived
    · -- the target did not acknowledge: no error of the stack is counted
      rw [show (bumpErrors status s).stackErrorsCount = 0 by rw [bumpErrors, if_pos hno]]
      exact Streak.zero _ _ hinv.first
    · obtain ⟨hlt, -, n, y, hn, hy, hans, hstreak⟩ := h.pending hs
      have hk : k = n := by
        have := hok ⟨hst, hno⟩ ⟨x, hx, r, hm, hs⟩
        dsimp only at this
        omega
      subst hk
      have hcount : (bumpErrors status s).stackErrorsCount.toNat = s.stackErrorsCount.toNat + 1 := by
        rw [bumpErrors, if_neg hno]
        exact toNat_succ hlt.le (by decide)
      rw [length_report, hn]
      dsimp only
      rw [hcount]
      have hx' : (g.report k status).attempts[k]? = some { x with result := .sent status } := by
        rw [Trail.report, List.getElem?_modify_eq, hx]
        rfl
      obtain rfl : x = y := Option.some.inj (hx.symm.trans hy)
      exact (streak_report status hstreak hx hr).succ hx'
        ⟨.inr ⟨status, rfl, hst, hno⟩, hans⟩

theorem keeps_event {env : EventEnv} {o : Outcome} (h : StreakInv s g)
    (hi : i = .timerExpired env ∨ i = .eventActive env) (ha : s.otaEventIsActive = true)
    (ht : EventTrans cfg s env o) : Keeps o (g.record i o.actions) := by
  have hb : ∀ as, begins i as = false := by
    intro as
    rcases hi with rfl | rfl <;> rfl
  cases ht with
  | @submitted r m hs _ _ =>
    obtain ⟨hlt, hst⟩ := h.interval hs
    have hrec : g.record i ((r.prelude s ++ [.messageSend m emberSuccess]) ++ []) = _ :=
      record_submission hb (by simp)
    rw [List.append_nil] at hrec
    dsimp only
    rw [hrec]
    have hc : (r.submitted { s with otaEventIsActive := false }).stackErrorsCount =
        s.stackErrorsCount ∧
        (r.submitted { s with otaEventIsActive := false }).otaEventIsActive = false := by
      cases r <;> exact ⟨rfl, rfl⟩
    have hstate := Request.submitted_internalState r { s with otaEventIsActive := false }
    refine keeps_of_not_completed ⟨?_, fun hs' => ?_, fun hs' => ?_, fun hs' => ?_⟩ ?_
    · dsimp only
      rw [List.length_append]
      exact h.first.trans (Nat.le_add_right _ _)
    · exact absurd (hs'.symm.trans hstate) (interval_ne_pending _ r)
    · dsimp only
      rw [hc.1, hc.2]
      exact ⟨hlt, rfl, g.attempts.length, _, by rw [List.length_append]; rfl,
        by rw [List.getElem?_append_right (Nat.le_refl _), Nat.sub_self]; rfl, rfl,
        hst.append (Nat.le_refl _) _⟩
    · exact absurd (hs'.symm.trans hstate) (waiting_ne_pending _ r)
    · cases r <;> simp [CompletesStackError, Request.prelude, segmentCallback]
  | underflow _ =>
    rw [record_quiet (hb _) (by simp [segmentCallback])]
    exact keeps_of_not_completed (streakInv_idle h.first rfl)
      (by simp [CompletesStackError, segmentCallback])
  | @notSubmitted r m o hs _ hne ho =>
    obtain ⟨hlt, hst⟩ := h.interval hs
    rw [Outcome.actions_after, record_submission hb (not_send_of_failed ho), if_neg hne]
    have hcount := toNat_succ hlt.le (by decide)
    have hlen : (g.attempts ++ [Attempt.mk m .refused false]).length = g.attempts.length + 1 := by
      rw [List.length_append]; rfl
    have hlast : (g.attempts ++ [Attempt.mk m .refused false])[g.attempts.length]? =
        some ⟨m, .refused, false⟩ := by
      rw [List.getElem?_append_right (Nat.le_refl _), Nat.sub_self]; rfl
    have hk : Keeps o { g with attempts := g.attempts ++ [⟨m, .refused, false⟩] } := by
      refine keeps_failed ho (fun hw => absurd (hs.symm.trans hw) (interval_ne_waiting r r)) ?_
      dsimp only
      rw [hcount, hlen]
      exact (hst.append (Nat.le_refl _) _).succ hlast ⟨.inl rfl, rfl⟩
    refine ⟨hk.inv, fun hc => hk.stackError ?_⟩
    -- what was done before is no completion
    rw [Outcome.actions_after] at hc
    cases r <;> simpa [CompletesStackError, Request.prelude, segmentCallback] using hc
  | @timedOut r _ hs ho =>
    rw [record_quiet (hb _) (not_send_of_failed ho)]
    have h0 : s.stackErrorsCount = 0 :=
      (h.waiting hs).resolve_right fun hw => by cases ha.symm.trans hw.2
    refine keeps_failed ho (fun _ => h0) ?_
    dsimp only
    rw [h0]
    exact Streak.zero _ _ h.first
  | idle hs =>
    rw [record_quiet (hb _) (by simp)]
    have hinv : StreakInv { s with otaEventIsActive := false } g := by
      refine ⟨h.first, fun hs' => absurd hs' (hs _).1, fun hs' => ?_,
        fun hs' => absurd hs' (hs _).2⟩
      obtain ⟨hlt, -, hrest⟩ := h.pending hs'
      exact ⟨hlt, rfl, hrest⟩
    exact keeps_of_not_completed hinv (by simp [CompletesStackError])

theorem not_send {o : Outcome} (ht : Trans cfg s i o) (h1 : ∀ env, i ≠ .timerExpired env)
    (h2 : ∀ env, i ≠ .eventActive env) : ∀ m status, .messageSend m status ∉ o.actions := by
  intro m status hm
  obtain ⟨env, hi, -⟩ := eventTrans_of_submits ht rfl hm
  exact hi.elim (h1 env) (h2 env)

theorem outcome_of_step {s' : Server} {o : Outcome} (ho : handle cfg s i = some o)
    (h : (ota cfg).step s i = some (s', as)) : (⟨s', as⟩ : Outcome) = o := by
  simp only [ota, ho, Option.map_some, Option.some.injEq, Prod.mk.injEq] at h
  rw [← h.1, ← h.2]

/-- **Every step that meets the condition.** -/
theorem keeps_step {p p' : Server × Trail} {e : Event} (h : StreakInv p.1 p.2)
    (hok : Consecutive p e) (hst : (attempted cfg).step p e = some (p', as)) :
    Keeps ⟨p'.1, as⟩ p'.2 := by
  obtain ⟨i, g, htake, ht, hstep, hg⟩ := attempted_step hst
  obtain ⟨s, g0⟩ := p
  rw [hg]
  cases e with
  | messageSent status k =>
    simp only [Trail.take] at htake
    split at htake
    · rename_i frame answered hx
      simp only [Option.some.injEq, Prod.mk.injEq] at htake
      obtain ⟨rfl, rfl⟩ := htake
      rw [record_quiet rfl (not_send ht (by simp) (by simp))]
      exact keeps_sent (x := ⟨frame, .awaited, answered⟩) h hok hx rfl (outcome_of_step rfl hstep)
        ht.sentTrans
    · cases htake
  | other j =>
    cases j with
    | incomingMessage m =>
      simp only [Trail.take, Option.some.injEq, Prod.mk.injEq] at htake
      obtain ⟨rfl, rfl⟩ := htake
      rw [record_quiet rfl (not_send ht (by simp) (by simp))]
      exact keeps_message h hok (outcome_of_step rfl hstep) ht.messageTrans
    | messageSent status m =>
      -- the message is none of the server
      simp only [Trail.take, Option.ite_none_left_eq_some, Option.some.injEq, Prod.mk.injEq] at htake
      obtain ⟨hno, rfl, rfl⟩ := htake
      have ho := ht.sentTrans.eq_of_not_pending fun r hr => absurd ⟨r, hr⟩ hno
      rw [record_quiet rfl (not_send ht (by simp) (by simp)), ho]
      exact keeps_of_not_completed h (by simp [CompletesStackError])
    | timerExpired env =>
      simp only [Trail.take, Option.some.injEq, Prod.mk.injEq] at htake
      obtain ⟨rfl, rfl⟩ := htake
      cases ht with
      | call ht => exact keeps_call h ht
      | timer ha ht => exact keeps_event h (.inl rfl) ha ht
      | timerIgnored _ =>
        rw [record_quiet rfl (by simp)]
        exact keeps_of_not_completed h (by simp [CompletesStackError])
    | eventActive env =>
      simp only [Trail.take, Option.some.injEq, Prod.mk.injEq] at htake
      obtain ⟨rfl, rfl⟩ := htake
      cases ht with
      | call ht => exact keeps_call h ht
      | event ha ht => exact keeps_event h (.inr rfl) ha ht
    | _ =>
      simp only [Trail.take, Option.some.injEq, Prod.mk.injEq] at htake
      obtain ⟨rfl, rfl⟩ := htake
      cases ht with
      | call ht => exact keeps_call h ht

theorem streakInv_of_reach {p : Server × Trail} (h : (attempted cfg).Reach Consecutive p) :
    StreakInv p.1 p.2 := by
  refine System.Reach.invariant (I := fun p => StreakInv p.1 p.2) (fun p hp => ?_)
    (fun p e p' as _ hinv hok hst => (keeps_step hinv hok hst).inv) h
  rw [show p = (Server.init, Trail.init) from hp]
  exact streakInv_idle (Nat.le_refl 0) rfl

/-- **STACK_ERROR means `maxStackErrors` stack errors in a row**, in every run whose steps meet the
condition. -/
theorem stackError_of_consecutive {p p' : Server × Trail} {e : Event}
    (h : (attempted cfg).Reach Consecutive p) (hok : Consecutive p e)
    (hst : (attempted cfg).step p e = some (p', as)) (hc : CompletesStackError as) :
    FailedInARow p'.2 :=
  (keeps_step (streakInv_of_reach h) hok hst).stackError hc

/-! ## Runs -/

/-- Seven handshakes are refused. -/
def refusedRun (target : EmberNodeId) (imageSize : UInt32) (imageTag : UInt8) : List Event :=
  .other (.initiateImageDistribution target imageSize imageTag) ::
    List.replicate 7 (.other (.timerExpired refusingEnv))

/-- From `Initiate` to the acceptance of the handshake. -/
def handshakeEvents (target : EmberNodeId) (imageSize : UInt32) (imageTag : UInt8) : List Event :=
  [.other (.initiateImageDistribution target imageSize imageTag), .other (.timerExpired plainEnv),
    .messageSent emberSuccess 0,
    .other (.incomingMessage (handshakeResponse target respStatusOngoing imageTag))]

/-- The first segment is refused seven times and then accepted; it is answered before its sent
callback comes. -/
def earlyAnswerEvents (target : EmberNodeId) (imageTag : UInt8) : List Event :=
  List.replicate 7 (.other (.timerExpired refusingEnv)) ++
    [.other (.timerExpired plainEnv),
      .other (.incomingMessage (segmentResponse target respStatusOngoing imageTag 0)),
      .messageSent emberSuccess 8]

/-- A transfer to the node 5, `n` stack errors counted. -/
def countedServer (state : StateOtaServer) (segment : UInt32) (n : UInt8) : Server :=
  { transferServer 5 150 7 state segment with stackErrorsCount := n }

/-- The eighth error ends the process: its frame is refused. -/
theorem exists_last_refusal (state : StateOtaServer) (segment : UInt32) (g : Trail)
    (hs : state = .handshakeInterval ∨ state = .segmentUnicastInterval ∧ segment = 1) :
    ∃ (s' : Server) (m : EmberOutgoingMessage) (as : List Action),
      (attempted defaultConfig).step (countedServer state segment 7, g)
          (.other (.timerExpired refusingEnv)) =
        some ((s', { g with attempts := g.attempts ++ [⟨m, .refused, false⟩] }), as) ∧
      CompletesStackError as := by
  rcases hs with rfl | ⟨rfl, rfl⟩
  · exact ⟨_, _, [_, .imageDistributionComplete .stackError], rfl, .inl (by simp)⟩
  · exact ⟨_, _, [_, _, .imageDistributionComplete .stackError], rfl, .inl (by simp)⟩

/-- A transfer whose eighth handshake is refused as the seven before. -/
theorem stackError_of_refusals : ∃ (p p' : Server × Trail) (as : List Action),
    (attempted defaultConfig).step p (.other (.timerExpired refusingEnv)) = some (p', as) ∧
      CompletesStackError as ∧ FailedInARow p'.2 := by
  have h0 : (attempted defaultConfig).Reach Consecutive _ := reach_attempted_init _
  obtain ⟨⟨s, g⟩, hp, hs⟩ := System.exists_reach_of_exec (refusedRun 5 150 7)
    (fun p : Server × Trail => p.1) h0 (b := countedServer .handshakeInterval 0 7)
    (by decide +kernel)
  obtain rfl : s = _ := hs
  obtain ⟨s', m, as, hst, hc⟩ := exists_last_refusal .handshakeInterval 0 g (.inl rfl)
  have hok : Consecutive (countedServer .handshakeInterval 0 7, g)
      (.other (.timerExpired refusingEnv)) := trivial
  exact ⟨_, _, as, hst, hc, stackError_of_consecutive hp hok hst hc⟩

/-- **STACK_ERROR after a frame that was sent and answered**: the first segment is answered before
its sent callback, the seven errors before it stay counted, and one more ends the process. -/
theorem stackError_after_answer : ∃ (p p' : Server × Trail) (as : List Action),
    (attempted defaultConfig).Reach free p ∧
      (attempted defaultConfig).step p (.other (.timerExpired refusingEnv)) = some (p', as) ∧
      CompletesStackError as ∧ p'.2.attempts.length = 10 ∧
      (∃ x, p'.2.attempts[8]? = some x ∧ x.result = .sent emberSuccess ∧ x.answered = true) ∧
      ¬ FailedInARow p'.2 := by
  have h0 : (attempted defaultConfig).Reach free _ := reach_attempted_init _
  obtain ⟨⟨s, g⟩, hp, hs⟩ := System.exists_reach_of_exec
    (handshakeEvents 5 150 7 ++ earlyAnswerEvents 5 7)
    (fun p : Server × Trail => (p.1, p.2.attempts.length,
      p.2.attempts[8]?.map fun x => (x.result, x.answered))) h0
    (b := (countedServer .segmentUnicastInterval 1 7, 9, some (.sent emberSuccess, true)))
    (by decide +kernel)
  simp only [Prod.mk.injEq, Option.map_eq_some_iff] at hs
  obtain ⟨rfl, hlen, x, hx, hresult, hanswered⟩ := hs
  obtain ⟨s', m, as, hst, hc⟩ := exists_last_refusal .segmentUnicastInterval 1 g (.inr ⟨rfl, rfl⟩)
  have hlen' : (g.attempts ++ [Attempt.mk m .refused false]).length = 10 := by
    rw [List.length_append, hlen]
    rfl
  have hx' : (g.attempts ++ [Attempt.mk m .refused false])[8]? = some x := by
    rw [List.getElem?_append_left (by omega), hx]
  refine ⟨_, _, as, hp, hst, hc, hlen', ⟨x, hx', hresult, hanswered⟩, fun h => ?_⟩
  have hfailed := h.all 8 x (by rw [hlen']; decide) (by rw [hlen']; decide) hx'
  exact absurd (hanswered.symm.trans hfailed.unanswered) (by decide)

end ConnectNcpHost.Ota.StackErrors
