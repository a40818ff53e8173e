import ConnectNcpHost.Ota.Interleaved

/-! # The sent callback of a frame just accepted

A frame is live as soon as the NCP has accepted it, and its sent callback is delivered by the
callback thread. The state that recognises the callback is stored by the thread that sends, after
`emberMessageSend` has returned to it. All three functions that send are cut at the call, and the
answer of the NCP, the return of the call and the sent callback are steps of their own. A callback
delivered before the return is discarded, and the process hangs (`callback_before_return`). The
callback is acted upon exactly where the call of its frame has returned (`actedUpon_iff`). -/

namespace ConnectNcpHost.Ota.SentCallbacks

open ConnectNcpHost.Lib.Runs ConnectNcpHost.Ota.Protocol
open ConnectNcpHost.Ota.BootloaderServer ConnectNcpHost.Ota.Transition ConnectNcpHost.Ota.Frames
open ConnectNcpHost.Ota.Processes

variable {cfg : Config} {s : Server}

/-! ## The model -/

/-- A call of `emberMessageSend` that has not returned, with what the NCP has answered. -/
structure Call where
  request : Request
  frame : EmberOutgoingMessage
  answer : Option EmberStatus

/-- The server, the open calls, and the frames whose sent callback is still to come. -/
structure Threads where
  server : Server
  calls : List Call
  live : List EmberOutgoingMessage

/-- The atomic steps. -/
inductive Label
  /-- a handler, run to its end -/
  | handler (i : Input)
  /-- the event handler, up to the call of `emberMessageSend` -/
  | sendBegin (env : EventEnv)
  /-- the NCP answers the call number `k`; the frame is live if it accepts it -/
  | answer (k : ℕ) (status : EmberStatus)
  /-- the call number `k` returns what the NCP has answered -/
  | sendEnd (k : ℕ)
  /-- the sent callback of the live frame number `j` -/
  | deliver (j : ℕ) (status : EmberStatus)

/-- The event handler runs into one of the functions that send. -/
def Splits (s : Server) : Input → Prop
  | .timerExpired _ | .eventActive _ => s.otaEventIsActive = true ∧
    ∃ r : Request, s.internalState = r.interval
  | _ => False

/-- The sent callback of a frame of the server: it is a step of its own. -/
def OwnCallback : Input → Prop
  | .messageSent _ m => ∃ r, Carries m r
  | _ => False

instance (s : Server) (i : Input) : Decidable (Splits s i) := by
  refine i.casesOn ?_ ?_ ?_ ?_ ?_ ?_ ?_ <;> intros <;> unfold Splits <;> infer_instance

instance (i : Input) : Decidable (OwnCallback i) := by
  refine i.casesOn ?_ ?_ ?_ ?_ ?_ ?_ ?_ <;> intros <;> unfold OwnCallback <;> infer_instance

/-- The event handler, up to the call of `emberMessageSend`: `unicastHandshake` as well. -/
def sendBegin (env : EventEnv) (s : Server) :
    Option (Outcome × Option (Request × EmberOutgoingMessage)) :=
  if s.otaEventIsActive = true ∧ s.internalState = .handshakeInterval then
    let s := { s with otaEventIsActive := false }
    some (⟨s, []⟩, some (.handshake, handshakeFrame env.stack s))
  else Interleaved.sendBegin env s

/-- **The server, its sends cut at the call, and the callbacks of its frames.** -/
def sentCallbacks (cfg : Config) : System Threads Label Action where
  start t := t = ⟨Server.init, [], []⟩
  step t
    | .handler i =>
      if Splits t.server i ∨ OwnCallback i then none
      else (handle cfg t.server i).map fun o => ({ t with server := o.server }, o.actions)
    | .sendBegin env =>
      (sendBegin env t.server).map fun (o, call) =>
        (⟨o.server, t.calls ++ call.toList.map fun (r, m) => ⟨r, m, none⟩, t.live⟩, o.actions)
    | .answer k status =>
      t.calls[k]?.bind fun c =>
        if c.answer = none then
          some (⟨t.server, t.calls.set k { c with answer := some status },
            t.live ++ if status = emberSuccess then [c.frame] else []⟩, [])
        else none
    | .sendEnd k =>
      t.calls[k]?.bind fun c => c.answer.map fun status =>
        let o := c.request.sent cfg status t.server
        (⟨o.server, t.calls.eraseIdx k, t.live⟩, .messageSend c.frame status :: o.actions)
    | .deliver j status =>
      t.live[j]?.map fun m =>
        let o := emAfPluginOtaUnicastBootloaderServerMessageSentCallback cfg status m t.server
        (⟨o.server, t.calls, t.live.eraseIdx j⟩, o.actions)

theorem reach_sentCallbacks_init {ok : Threads → Label → Prop} (cfg : Config) :
    (sentCallbacks cfg).Reach ok ⟨Server.init, [], []⟩ := .start rfl

/-- What the atomic steps do. -/
inductive ThreadsTrans (cfg : Config) (t : Threads) : Label → Threads → List Action → Prop
  | handled {i : Input} {o : Outcome} (hi : ¬ (Splits t.server i ∨ OwnCallback i))
      (ho : handle cfg t.server i = some o) :
      ThreadsTrans cfg t (.handler i) { t with server := o.server } o.actions
  | begun {env : EventEnv} {o : Outcome} {call : Option (Request × EmberOutgoingMessage)}
      (ho : sendBegin env t.server = some (o, call)) :
      ThreadsTrans cfg t (.sendBegin env)
        ⟨o.server, t.calls ++ call.toList.map fun (r, m) => ⟨r, m, none⟩, t.live⟩ o.actions
  | answered {k : ℕ} {status : EmberStatus} {c : Call} (hk : t.calls[k]? = some c)
      (hans : c.answer = none) :
      ThreadsTrans cfg t (.answer k status)
        ⟨t.server, t.calls.set k { c with answer := some status },
          t.live ++ if status = emberSuccess then [c.frame] else []⟩ []
  | ended {k : ℕ} {status : EmberStatus} {c : Call} (hk : t.calls[k]? = some c)
      (hans : c.answer = some status) :
      ThreadsTrans cfg t (.sendEnd k)
        ⟨(c.request.sent cfg status t.server).server, t.calls.eraseIdx k, t.live⟩
        (.messageSend c.frame status :: (c.request.sent cfg status t.server).actions)
  | delivered {j : ℕ} {status : EmberStatus} {m : EmberOutgoingMessage} {o : Outcome}
      (hj : t.live[j]? = some m) (ht : SentTrans cfg t.server status m o) :
      ThreadsTrans cfg t (.deliver j status) ⟨o.server, t.calls, t.live.eraseIdx j⟩ o.actions

theorem threadsTrans_of_step {l : Label} {t t' : Threads} {as : List Action}
    (h : (sentCallbacks cfg).step t l = some (t', as)) : ThreadsTrans cfg t l t' as := by
  cases l with
  | handler i =>
    simp only [sentCallbacks, Option.ite_none_left_eq_some, Option.map_eq_some_iff,
      Prod.mk.injEq] at h
    obtain ⟨hi, o, ho, rfl, rfl⟩ := h
    exact .handled hi ho
  | sendBegin env =>
    simp only [sentCallbacks, Option.map_eq_some_iff, Prod.mk.injEq] at h
    obtain ⟨⟨o, call⟩, ho, rfl, rfl⟩ := h
    exact .begun ho
  | answer k status =>
    simp only [sentCallbacks, Option.bind_eq_some_iff] at h
    obtain ⟨c, hk, h⟩ := h
    by_cases hans : c.answer = none
    · rw [if_pos hans] at h
      simp only [Option.some.injEq, Prod.mk.injEq] at h
      obtain ⟨rfl, rfl⟩ := h
      exact .answered hk hans
    · rw [if_neg hans] at h
      cases h
  | sendEnd k =>
    simp only [sentCallbacks, Option.bind_eq_some_iff, Option.map_eq_some_iff,
      Prod.mk.injEq] at h
    obtain ⟨c, hk, status, hans, rfl, rfl⟩ := h
    exact .ended hk hans
  | deliver j status =>
    simp only [sentCallbacks, Option.map_eq_some_iff, Prod.mk.injEq] at h
    obtain ⟨m, hj, rfl, rfl⟩ := h
    exact .delivered hj (messageSent_trans cfg t.server status m)

/-- The two halves, one after the other, are the event handler. -/
theorem eventHandler_eq_halves {env : EventEnv} {o : Outcome} {r : Request}
    {m : EmberOutgoingMessage} (h : sendBegin env s = some (o, some (r, m))) :
    emAfPluginOtaUnicastBootloaderServerEventHandler cfg env s =
      (r.sent cfg env.sendStatus o.server).after (o.actions ++ [.messageSend m env.sendStatus]) := by
  unfold sendBegin at h
  split_ifs at h with hh
  · simp only [Option.some.injEq, Prod.mk.injEq] at h
    obtain ⟨rfl, rfl, rfl⟩ := h
    unfold emAfPluginOtaUnicastBootloaderServerEventHandler
    dsimp only
    rw [hh.2]
    rfl
  · exact Interleaved.eventHandler_eq_halves h

/-- What the first half does with a call. -/
theorem begins_of_sendBegin {env : EventEnv} {o : Outcome} {r : Request}
    {m : EmberOutgoingMessage} (h : sendBegin env s = some (o, some (r, m))) :
    s.otaEventIsActive = true ∧ s.internalState = r.interval ∧ IsFrame env s r m ∧
      o.server = { s with otaEventIsActive := false } := by
  unfold sendBegin at h
  split_ifs at h with hh
  · simp only [Option.some.injEq, Prod.mk.injEq] at h
    obtain ⟨rfl, rfl, rfl⟩ := h
    exact ⟨hh.1, hh.2, .handshake, rfl⟩
  · obtain ⟨ha, hb⟩ := Interleaved.begins_of_sendBegin h
    cases hb with
    | calls _ hs hf => exact ⟨ha, hs, hf, rfl⟩

/-- The first half without a call: the image-segment callback has no data. -/
theorem finished_of_sendBegin {env : EventEnv} {o : Outcome} (h : sendBegin env s = some (o, none)) :
    s.otaEventIsActive = true ∧ o.server = finished s := by
  unfold sendBegin at h
  split_ifs at h with hh
  · simp at h
  · obtain ⟨ha, hb⟩ := Interleaved.begins_of_sendBegin h
    cases hb with
    | underflow _ => exact ⟨ha, rfl⟩

/-! ## What a handler can do while a frame is under way -/

/-- The condition on the order of the steps: a sent callback comes after the call of its frame has
returned, and in between, neither the abort call nor a response to the segment has overtaken it. -/
def InTurn (t : Threads) : Label → Prop
  | .deliver _ _ => t.calls.length = 0
  | .handler .abortCurrentProcess => t.calls.length = 0 ∧ t.live.length = 0
  | .handler (.incomingMessage m) => AcceptsSegmentResponse t.server m → t.live.length = 0
  | _ => True

instance (t : Threads) (l : Label) : Decidable (InTurn t l) := by
  rcases l with (_ | _ | _ | _ | _ | _ | _) | _ | _ | _ | _ <;> unfold InTurn <;> infer_instance

/-- Without the abort call and a response nothing moves a server that awaits a sent callback. -/
theorem handler_of_pending {r : Request} {i : Input} {o : Outcome}
    (hs : s.internalState = r.pending) (ha : s.otaEventIsActive = false)
    (hi : i ≠ .abortCurrentProcess) (hm : ∀ m, i = .incomingMessage m → ¬ AcceptsSegmentResponse s m)
    (hown : ¬ OwnCallback i) (ht : Trans cfg s i o) : o.server = s := by
  have hidle : s.internalState ≠ .idle := fun h => idle_ne.2.1 (h.symm.trans hs)
  have hw : ∀ r' : Request, s.internalState ≠ r'.waiting :=
    fun r' h => waiting_ne_pending r' r (h.symm.trans hs)
  cases ht with
  | call ht =>
    cases ht with
    | refused _ _ => rfl
    | imageStarted h _ _ _ => exact absurd h hidle
    | bootloadStarted h _ => exact absurd h hidle
    | aborted _ _ => exact absurd rfl hi
  | message ht => rw [ht.eq_of_not_waiting hw (hm _ rfl)]
  | sent ht =>
    rw [ht.eq_of_not_pending fun r hc => absurd ⟨r, hc⟩ hown]
  | timer h _ => cases ha.symm.trans h
  | timerIgnored _ => rfl
  | event h _ => cases ha.symm.trans h

theorem not_pending_of_failed {r : Request} {o : Outcome} (h : Failed cfg r s o) :
    ∀ r' : Request, o.server.internalState ≠ r'.pending := by
  intro r'
  cases h with
  | retried _ _ => exact interval_ne_pending r r'
  | gaveUp _ => exact idle_ne.2.1

/-- A sent callback does not make the server await another one. -/
theorem pending_of_sentTrans {status : EmberStatus} {m : EmberOutgoingMessage} {o : Outcome}
    (ht : SentTrans cfg s status m o) {r : Request} (h : o.server.internalState = r.pending) :
    s.internalState = r.pending := by
  cases ht with
  | ignored _ => exact h
  | succeeded _ _ _ => exact absurd h (waiting_ne_pending _ r)
  | failed _ _ _ _ ho => exact absurd h (not_pending_of_failed ho r)

/-- Only the return of a call makes the server await a sent callback. -/
theorem pending_of_trans {i : Input} {o : Outcome} (hi : ¬ Splits s i) (ht : Trans cfg s i o)
    {r : Request} (h : o.server.internalState = r.pending) : s.internalState = r.pending := by
  have hevent : ∀ {env : EventEnv}, (s.otaEventIsActive = true → ∀ r : Request,
      s.internalState ≠ r.interval) → s.otaEventIsActive = true → EventTrans cfg s env o →
        s.internalState = r.pending := by
    intro env hne ha he
    cases he with
    | submitted hs _ _ => exact absurd hs (hne ha _)
    | underflow hs => exact absurd hs (hne ha .imageSegment)
    | notSubmitted hs _ _ _ => exact absurd hs (hne ha _)
    | timedOut _ ho => exact absurd h (not_pending_of_failed ho r)
    | idle _ => exact h
  cases ht with
  | call ht =>
    cases ht with
    | refused _ _ => exact h
    | imageStarted _ _ _ _ => exact absurd h (interval_ne_pending .handshake r)
    | bootloadStarted _ _ => exact absurd h (interval_ne_pending .bootloadRequest r)
    | aborted _ _ => exact absurd h idle_ne.2.1
  | message ht =>
    cases ht with
    | ignored _ _ _ => exact h
    | handshakeEnded _ _ => exact absurd h idle_ne.2.1
    | handshakeAccepted _ _ ho => exact absurd h (not_pending_of_failed ho r)
    | segmentEnded _ _ => exact absurd h idle_ne.2.1
    | segmentAdvanced _ _ _ _ => exact absurd h (interval_ne_pending .imageSegment r)
    | segmentWrapped _ _ _ _ => exact absurd h (waiting_ne_pending .imageSegment r)
    | segmentIgnored _ _ => exact absurd h (waiting_ne_pending .imageSegment r)
    | bootloadAnswered _ => exact absurd h idle_ne.2.1
  | sent ht => exact pending_of_sentTrans ht h
  | timer ha he => exact hevent (fun ha r hs => hi ⟨ha, r, hs⟩) ha he
  | timerIgnored _ => exact h
  | event ha he => exact hevent (fun ha r hs => hi ⟨ha, r, hs⟩) ha he

theorem not_pending_of_trans {i : Input} {o : Outcome}
    (hs : ∀ r : Request, s.internalState ≠ r.pending) (hi : ¬ Splits s i) (ht : Trans cfg s i o) :
    ∀ r : Request, o.server.internalState ≠ r.pending :=
  fun r h => hs r (pending_of_trans hi ht h)

/-! ## The invariant -/

/-- **Invariant.** One frame is under way at most: its call is open, and the server stands where the
call left it; or its call has returned, and the server awaits the sent callback. -/
inductive FrameInv (t : Threads) : Prop
  | quiet (hc : t.calls = []) (hl : t.live = [])
      (hs : ∀ r : Request, t.server.internalState ≠ r.pending)
  | calling {r : Request} {m : EmberOutgoingMessage} {answer : Option EmberStatus}
      (hc : t.calls = [⟨r, m, answer⟩])
      (hl : t.live = if answer = some emberSuccess then [m] else [])
      (hs : t.server.internalState = r.interval) (ha : t.server.otaEventIsActive = false)
      (hm : Carries m r)
  | awaiting {r : Request} {m : EmberOutgoingMessage} (hc : t.calls = []) (hl : t.live = [m])
      (hs : t.server.internalState = r.pending) (ha : t.server.otaEventIsActive = false)
      (hm : Carries m r)

variable {t t' : Threads} {as : List Action}

theorem frameInv_handler {i : Input} {o : Outcome} (hinv : FrameInv t)
    (hok : InTurn t (.handler i)) (hi : ¬ (Splits t.server i ∨ OwnCallback i))
    (ht : Trans cfg t.server i o) : FrameInv { t with server := o.server } := by
  rw [not_or] at hi
  cases hinv with
  | quiet hc hl hs => exact .quiet hc hl (not_pending_of_trans hs hi.1 ht)
  | calling hc hl hs ha hm =>
    have hab : i ≠ .abortCurrentProcess := by
      rintro rfl
      obtain ⟨h, -⟩ := hok
      rw [hc] at h
      cases h
    obtain ⟨ho, -, -⟩ := Interleaved.handler_during_send hs ha hab ht
    rw [ho]
    exact .calling hc hl hs ha hm
  | awaiting hc hl hs ha hm =>
    have hab : i ≠ .abortCurrentProcess := by
      rintro rfl
      obtain ⟨-, h⟩ := hok
      rw [hl] at h
      cases h
    have hseg : ∀ m, i = .incomingMessage m → ¬ AcceptsSegmentResponse t.server m := by
      rintro m rfl hacc
      have h := hok hacc
      rw [hl] at h
      cases h
    rw [handler_of_pending hs ha hab hseg hi.2 ht]
    exact .awaiting hc hl hs ha hm

theorem frameInv_sendBegin {env : EventEnv} {o : Outcome}
    {call : Option (Request × EmberOutgoingMessage)} (hinv : FrameInv t)
    (h : sendBegin env t.server = some (o, call)) :
    FrameInv ⟨o.server, t.calls ++ call.toList.map fun (r, m) => ⟨r, m, none⟩, t.live⟩ := by
  have hactive : t.server.otaEventIsActive = true := by
    cases call with
    | none => exact (finished_of_sendBegin h).1
    | some c => exact (begins_of_sendBegin h).1
  cases hinv with
  | calling _ _ _ ha _ => cases hactive.symm.trans ha
  | awaiting _ _ _ ha _ => cases hactive.symm.trans ha
  | quiet hc hl hs =>
    rw [hc, hl]
    cases call with
    | none =>
      rw [(finished_of_sendBegin h).2]
      exact .quiet rfl rfl fun _ => idle_ne.2.1
    | some c =>
      obtain ⟨-, hs, hf, ho⟩ := begins_of_sendBegin h
      rw [ho]
      exact .calling rfl rfl hs rfl (carries_of_isFrame hf)

/-- An open call is the only one, and the server stands where it left it. -/
theorem FrameInv.of_call {k : ℕ} {c : Call} (hinv : FrameInv t) (hk : t.calls[k]? = some c) :
    k = 0 ∧ t.calls = [c] ∧ t.live = (if c.answer = some emberSuccess then [c.frame] else []) ∧
      t.server.internalState = c.request.interval ∧ t.server.otaEventIsActive = false ∧
      Carries c.frame c.request := by
  cases hinv with
  | quiet hc _ _ => rw [hc] at hk; cases hk
  | awaiting hc _ _ _ _ => rw [hc] at hk; cases hk
  | calling hc hl hs ha hm =>
    rw [hc] at hk
    rcases k with _ | k
    · obtain rfl := Option.some.inj hk
      exact ⟨rfl, hc, hl, hs, ha, hm⟩
    · cases hk

theorem frameInv_answer {k : ℕ} {status : EmberStatus} {c : Call} (hinv : FrameInv t)
    (hk : t.calls[k]? = some c) (hans : c.answer = none) :
    FrameInv ⟨t.server, t.calls.set k { c with answer := some status },
      t.live ++ if status = emberSuccess then [c.frame] else []⟩ := by
  obtain ⟨rfl, hc, hl, hs, ha, hm⟩ := hinv.of_call hk
  rw [hc, hl, hans]
  exact .calling rfl (by simp) hs ha hm

theorem frameInv_sendEnd {k : ℕ} {status : EmberStatus} {c : Call} (hinv : FrameInv t)
    (hk : t.calls[k]? = some c) (hans : c.answer = some status) :
    FrameInv ⟨(c.request.sent cfg status t.server).server, t.calls.eraseIdx k, t.live⟩ := by
  obtain ⟨rfl, hc, hl, hs, ha, hm⟩ := hinv.of_call hk
  rw [hc, hl, hans]
  obtain ⟨rfl, ho⟩ | ⟨hst, ho⟩ := sent_interval cfg hs status
  · rw [ho]
    refine .awaiting rfl ?_ (Request.submitted_internalState c.request t.server) ?_ hm
    · show (if some emberSuccess = some emberSuccess then [c.frame] else []) = [c.frame]
      exact if_pos rfl
    · cases c.request <;> exact ha
  · exact .quiet rfl (if_neg fun h => hst (Option.some.inj h)) (not_pending_of_failed ho)

/-! ## The sent callback -/

/-- A sent callback is acted upon: the response is awaited; or the attempt has failed, and is
repeated or ends the process. -/
inductive ActedUpon (m : EmberOutgoingMessage) (status : EmberStatus) (o : Outcome) : Prop
  | awaits {r : Request} (hm : Carries m r) (hst : status = emberSuccess)
      (hs : o.server.internalState = r.waiting) (ha : o.server.otaEventIsActive = true)
  | retries {r : Request} (hm : Carries m r) (hst : status ≠ emberSuccess)
      (hs : o.server.internalState = r.interval) (ha : o.server.otaEventIsActive = true)
  | completes {r : Request} {st : EmberAfOtaUnicastBootloaderStatus} (hm : Carries m r)
      (hst : status ≠ emberSuccess) (hs : o.server.internalState = .idle)
      (ha : r.process.complete st ∈ o.actions)

theorem actedUpon_of_pending {r : Request} {m : EmberOutgoingMessage} {status : EmberStatus}
    {o : Outcome} (hs : s.internalState = r.pending) (hm : Carries m r)
    (ht : SentTrans cfg s status m o) : ActedUpon m status o := by
  cases ht with
  | ignored h => exact absurd hs (h r hm)
  | succeeded hm' _ hst => exact .awaits hm' hst rfl rfl
  | failed hm' _ hst _ ho =>
    cases ho with
    | retried _ _ => exact .retries hm' hst rfl rfl
    | gaveUp _ => exact .completes hm' hst rfl List.mem_cons_self

/-- In the interval the callback is discarded. -/
theorem discarded_of_interval {r : Request} {m : EmberOutgoingMessage} {status : EmberStatus}
    {o : Outcome} (hs : s.internalState = r.interval) (ht : SentTrans cfg s status m o) :
    o = ⟨s, []⟩ :=
  ht.eq_of_not_pending fun r' _ h => interval_ne_pending r r' (hs.symm.trans h)

theorem not_actedUpon_of_discarded {m : EmberOutgoingMessage} {status : EmberStatus}
    (ha : s.otaEventIsActive = false) : ¬ ActedUpon m status ⟨s, []⟩ := by
  rintro (⟨-, -, -, h⟩ | ⟨-, -, -, h⟩ | ⟨-, -, -, h⟩)
  · cases ha.symm.trans h
  · cases ha.symm.trans h
  · cases h

theorem frameInv_deliver {j : ℕ} {status : EmberStatus} {m : EmberOutgoingMessage} {o : Outcome}
    (hinv : FrameInv t) (hok : t.calls.length = 0) (hj : t.live[j]? = some m)
    (ht : SentTrans cfg t.server status m o) :
    FrameInv ⟨o.server, t.calls, t.live.eraseIdx j⟩ := by
  cases hinv with
  | quiet _ hl _ => rw [hl] at hj; cases hj
  | calling hc _ _ _ _ => rw [hc] at hok; cases hok
  | awaiting hc hl hs _ hm =>
    rw [hl] at hj ⊢
    rcases j with _ | j
    · obtain rfl := Option.some.inj hj
      refine .quiet hc rfl fun r' => ?_
      cases ht with
      | ignored h => exact absurd hs (h _ hm)
      | succeeded _ _ _ => exact waiting_ne_pending _ r'
      | failed _ _ _ _ ho => exact not_pending_of_failed ho r'
    · cases hj

theorem frameInv_step {l : Label} (hinv : FrameInv t) (hok : InTurn t l)
    (h : (sentCallbacks cfg).step t l = some (t', as)) : FrameInv t' := by
  cases threadsTrans_of_step h with
  | handled hi ho => exact frameInv_handler hinv hok hi (trans_of_handle ho)
  | begun ho => exact frameInv_sendBegin hinv ho
  | answered hk hans => exact frameInv_answer hinv hk hans
  | ended hk hans => exact frameInv_sendEnd hinv hk hans
  | delivered hj ht => exact frameInv_deliver hinv hok hj ht

theorem frameInv_of_reach (h : (sentCallbacks cfg).Reach InTurn t) : FrameInv t := by
  refine System.Reach.invariant (fun t ht => ?_) (fun t l t' as _ hinv hok hst => ?_) h
  · rw [show t = ⟨Server.init, [], []⟩ from ht]
    exact .quiet rfl rfl fun _ => idle_ne.2.1
  · exact frameInv_step hinv hok hst

theorem eq_of_getElem?_singleton {α : Type*} {a b : α} {j : ℕ} (h : [a][j]? = some b) : a = b := by
  rcases j with _ | j
  · exact Option.some.inj h
  · cases h

/-- **The sent callback of a live frame is acted upon exactly where the call of the frame has
returned.** -/
theorem actedUpon_iff {j : ℕ} {status : EmberStatus} {m : EmberOutgoingMessage}
    (hp : (sentCallbacks cfg).Reach InTurn t) (hj : t.live[j]? = some m)
    (h : (sentCallbacks cfg).step t (.deliver j status) = some (t', as)) :
    ActedUpon m status ⟨t'.server, as⟩ ↔ ∀ c ∈ t.calls, c.frame ≠ m := by
  simp only [sentCallbacks, hj, Option.map_some, Option.some.injEq, Prod.mk.injEq] at h
  obtain ⟨rfl, rfl⟩ := h
  have ht := messageSent_trans cfg t.server status m
  cases frameInv_of_reach hp with
  | quiet _ hl _ => rw [hl] at hj; cases hj
  | @awaiting r m' hc hl hs _ hm =>
    have hmm : m' = m := eq_of_getElem?_singleton (hl ▸ hj)
    rw [hmm] at hm
    exact iff_of_true (actedUpon_of_pending hs hm ht) (by rw [hc]; exact fun _ h => by cases h)
  | @calling r m' answer hc hl hs ha _ =>
    have hmm : m' = m := by
      rw [hl] at hj
      split_ifs at hj
      · exact eq_of_getElem?_singleton hj
      · cases hj
    refine iff_of_false (fun hacted => ?_) fun hall => ?_
    · rw [discarded_of_interval hs ht] at hacted
      exact not_actedUpon_of_discarded ha hacted
    · exact hall ⟨r, m', answer⟩ (by rw [hc]; exact List.mem_cons_self) hmm

/-- Up to the acceptance of a handshake by the NCP. -/
def acceptedRun (target : EmberNodeId) (imageSize : UInt32) (imageTag : UInt8) : List Label :=
  [.handler (.initiateImageDistribution target imageSize imageTag), .sendBegin plainEnv,
    .answer 0 emberSuccess]

/-- A live frame whose callback can be delivered. -/
theorem exists_deliver (cfg : Config) (status : EmberStatus) (h : t.live.length = 1) :
    ∃ m t' as, t.live[0]? = some m ∧
      (sentCallbacks cfg).step t (.deliver 0 status) = some (t', as) := by
  obtain ⟨m, hm⟩ := List.length_eq_one_iff.mp h
  have hj : t.live[0]? = some m := by rw [hm]; rfl
  exact ⟨m, _, _, hj, by simp only [sentCallbacks, hj, Option.map_some]; rfl⟩

/-- A handshake whose call has returned. -/
theorem actedUpon_iff_returned : ∃ t t' m as,
    (sentCallbacks defaultConfig).step t (.deliver 0 emberSuccess) = some (t', as) ∧
      ActedUpon m emberSuccess ⟨t'.server, as⟩ := by
  have h0 : (sentCallbacks defaultConfig).Reach InTurn ⟨Server.init, [], []⟩ :=
    reach_sentCallbacks_init _
  obtain ⟨t, hp, hf⟩ := System.exists_reach_of_exec (acceptedRun 5 96 7 ++ [.sendEnd 0])
    (fun t => (t.calls.length, t.live.length)) (b := (0, 1)) h0 (by decide +kernel)
  obtain ⟨hc, hl⟩ := Prod.mk.inj hf
  obtain ⟨m, t', as, hj, hst⟩ := exists_deliver defaultConfig emberSuccess hl
  refine ⟨t, t', m, as, hst, (actedUpon_iff hp hj hst).mpr ?_⟩
  rw [List.length_eq_zero_iff.mp hc]
  exact fun _ h => by cases h

/-- **A callback that comes before the return is discarded, and nothing follows**: the handshake was
accepted and its callback delivered, and when the call returns, the server awaits the callback with
no event and nothing under way. -/
theorem callback_before_return :
    (∃ t t' m as, (sentCallbacks defaultConfig).Reach free t ∧ t.live[0]? = some m ∧
      (sentCallbacks defaultConfig).step t (.deliver 0 emberSuccess) = some (t', as) ∧
      t'.server = t.server ∧ ¬ ActedUpon m emberSuccess ⟨t'.server, as⟩) ∧
    ∃ t, (sentCallbacks defaultConfig).Reach free t ∧
      t.server.internalState = .handshakePending ∧ t.server.otaEventIsActive = false ∧
      t.calls = [] ∧ t.live = [] := by
  have h0 : (sentCallbacks defaultConfig).Reach free ⟨Server.init, [], []⟩ :=
    reach_sentCallbacks_init _
  constructor
  · obtain ⟨t, hp, hf⟩ := System.exists_reach_of_exec (acceptedRun 5 96 7)
      (fun t => (t.server.internalState, t.server.otaEventIsActive, t.live.length))
      (b := (.handshakeInterval, false, 1)) h0 (by decide +kernel)
    simp only [Prod.mk.injEq] at hf
    obtain ⟨hs, ha, hl⟩ := hf
    obtain ⟨m, t', as, hj, hst⟩ := exists_deliver defaultConfig emberSuccess hl
    have ho := hst
    simp only [sentCallbacks, hj, Option.map_some, Option.some.injEq, Prod.mk.injEq] at ho
    have hd := discarded_of_interval (r := .handshake) hs
      (messageSent_trans defaultConfig t.server emberSuccess m)
    rw [hd] at ho
    obtain ⟨rfl, rfl⟩ := ho
    exact ⟨t, _, m, _, hp, hj, hst, rfl, not_actedUpon_of_discarded ha⟩
  · obtain ⟨t, hp, hf⟩ := System.exists_reach_of_exec
      (acceptedRun 5 96 7 ++ [.deliver 0 emberSuccess, .sendEnd 0])
      (fun t => (t.server.internalState, t.server.otaEventIsActive, t.calls.length, t.live.length))
      (b := (.handshakePending, false, 0, 0)) h0 (by decide +kernel)
    simp only [Prod.mk.injEq] at hf
    obtain ⟨hs, ha, hc, hl⟩ := hf
    exact ⟨t, hp, hs, ha, List.length_eq_zero_iff.mp hc, List.length_eq_zero_iff.mp hl⟩

end ConnectNcpHost.Ota.SentCallbacks
