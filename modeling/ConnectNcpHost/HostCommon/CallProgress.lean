import ConnectNcpHost.HostCommon.RemoteCalls

/-! # A call comes to its end

Between a call and its results stand the NCP, the poll thread and the caller. Whatever frames are on
the link before the answer, and wherever the call stands, as long as no `poll` has timed out these
three alone bring it to its end (`exists_returned`): there is always one of them that has a step,
and the steps come closer to the `memcpy` of the answer. -/

namespace ConnectNcpHost.HostCommon.CallProgress

open ConnectNcpHost.Lib.Runs ConnectNcpHost.Stack.ByteUtilities ConnectNcpHost.Csp.ApiCommands
open ConnectNcpHost.Csp.Variables
open ConnectNcpHost.HostCommon.CpcHost ConnectNcpHost.HostCommon.ResponseIntegrity
open ConnectNcpHost.HostCommon.RemoteCalls

variable {long : Bool} {s s' : Remote long}

/-- The steps of the NCP, of the poll thread and of the caller. -/
def bringsAnswer : RemoteCalls.Label long → Bool
  | .serve _ => true
  | .exchange .rx => true
  | .exchange .dispatch => true
  | .exchange .readToken => true
  | .exchange .memcpy => true
  | _ => false

/-- The same, where no frame is read between the token of an answer and its `memcpy`. -/
def BringsAnswer (s : Remote long) (l : RemoteCalls.Label long) : Prop :=
  KeepsAnswer s l ∧ bringsAnswer l = true

/-- A call is on its way, and no `poll` has timed out. -/
structure Underway (calls : List (FittingCall long)) (s : Remote long) : Prop where
  reach : (remote long).Reach KeepsAnswer s
  running : s.exchange.exited = false
  phase : s.exchange.phase = .waiting ∨ s.exchange.phase = .tokenRead ∨ s.exchange.phase = .returned
  calls : s.calls = calls

/-- How far the call is from its end. -/
def distance (s : Remote long) : ℕ :=
  5 * s.exchange.toNcp.length + 3 * s.exchange.fromNcp.length +
    (if s.exchange.host.commandLength.isSome then 2 else 0) +
    s.exchange.host.responsePipe.length +
    (match s.exchange.phase with
      | .waiting => 2
      | .tokenRead => 1
      | _ => 0)

/-! ## There is always a step -/

/-- Every identifier of the API is one of a response. -/
theorem origin_commandId (c : ApiCall) : (c.commandId >>> 8).toUInt8 = responseOrigin := by
  cases c <;> (dsimp only [ApiCall.commandId]; decide)

theorem origin_frame (d : Served long) : d.frame.origin = responseOrigin :=
  origin_commandId d.call

/-- A step that is neither a call nor an answer. -/
theorem step_exchange {l : CpcHost.Label} {e : Exchange} (hl : other l = true)
    (hrun : s.exchange.exited = false) (hnext : s.exchange.next l = some e) :
    (remote long).step s (.exchange l) = some (⟨e, s.calls, s.served⟩, []) := by
  simp only [remote, if_pos hl, exchange, hrun, Bool.false_eq_true, if_false, hnext,
    Option.map_some]

/-- What is read is dispatched: the NCP sends responses and callbacks only. -/
theorem exists_dispatch {e : Exchange} {n : UInt16} (h : ExchangeInv e false)
    (hn : e.host.commandLength = some n) : ∃ host, e.next .dispatch = some { e with host := host } ∧
      host.commandLength = none ∧
      host.responsePipe.length ≤ e.host.responsePipe.length + 1 := by
  obtain ⟨f, hf, -, hread⟩ := h.buffer n hn
  have horigin := apply_zero_of_read hread
  by_cases hr : f.origin = responseOrigin
  · rw [hr] at horigin
    refine ⟨{ e.host with commandLength := none }.slConnectNcpHandleResponse, ?_, rfl,
      List.length_append.le⟩
    simp only [Exchange.next, hn, Host.dispatch, horigin, if_true]
  · have hc := hf.eq_callback h.answers hr
    rw [hc] at horigin
    refine ⟨{ e.host with commandLength := none }.sliConnectNcpAppendCallbackCommand n, ?_, rfl,
      Nat.le_succ _⟩
    simp only [Exchange.next, hn, Host.dispatch, horigin, if_neg responseOrigin_ne.symm, if_true]

/-- The command that is on its way, as the NCP takes it. -/
theorem exists_serve (h : RemoteInv s) {command : List UInt8} {toNcp : List (List UInt8)}
    (ht : s.exchange.toNcp = command :: toNcp) :
    ∃ d : Served long, s.exchange.toNcp.head? = some (d.call.frame long) := by
  have hdrop := h.toNcp
  rw [ht] at hdrop
  obtain ⟨c, rest, -, hcommand, -⟩ := List.map_eq_cons_iff.mp hdrop.symm
  refine ⟨⟨c.call, fits_of_message c.mode, c.call.reply.zeros⟩, ?_⟩
  rw [ht, ← hcommand]
  rfl

variable {calls : List (FittingCall long)}

/-- A step that keeps the call underway. -/
theorem underway_step {e : Exchange} {l : CpcHost.Label} (h : Underway calls s)
    (hl : other l = true) (hkeeps : KeepsResponse s.exchange l)
    (hnext : s.exchange.next l = some e) (hrun : e.exited = false)
    (hphase : e.phase = .waiting ∨ e.phase = .tokenRead ∨ e.phase = .returned) :
    Underway calls ⟨e, s.calls, s.served⟩ :=
  ⟨h.reach.step (i := .exchange l) hkeeps (step_exchange hl h.running hnext), hrun, hphase, h.calls⟩

/-- The NCP takes the command and answers it. -/
theorem exists_step_serve (h : Underway calls s) (hp : s.exchange.phase = .waiting)
    {command : List UInt8} {toNcp : List (List UInt8)} (ht : s.exchange.toNcp = command :: toNcp) :
    ∃ l s' os, BringsAnswer s l ∧ (remote long).step s l = some (s', os) ∧ Underway calls s' ∧
      distance s' < distance s := by
  obtain ⟨d, hd⟩ := exists_serve (remoteInv_of_reach h.reach).1 ht
  have hnext : s.exchange.next (.answer d.frame) = some { s.exchange with
      toNcp := toNcp
      fromNcp := s.exchange.fromNcp ++ [d.frame]
      answers := s.exchange.answers ++ [d.frame] } := by
    simp only [Exchange.next, ht, origin_frame, if_true]
  have hst : (remote long).step s (.serve d) = some (⟨{ s.exchange with
      toNcp := toNcp
      fromNcp := s.exchange.fromNcp ++ [d.frame]
      answers := s.exchange.answers ++ [d.frame] }, s.calls, s.served ++ [d]⟩, []) := by
    simp only [remote, if_pos hd, exchange, h.running, Bool.false_eq_true, if_false, hnext,
      Option.map_some]
  refine ⟨.serve d, _, [], ⟨trivial, rfl⟩, hst,
    ⟨h.reach.step (i := .serve d) trivial hst, h.running, Or.inl hp, h.calls⟩, ?_⟩
  simp only [distance, ht, List.length_append, List.length_cons, List.length_nil]
  omega

/-- **One of the three has a step**, and it comes closer to the end of the call. -/
theorem exists_step (h : Underway calls s) (hp : s.exchange.phase ≠ .returned) :
    ∃ l s' os, BringsAnswer s l ∧ (remote long).step s l = some (s', os) ∧ Underway calls s' ∧
      distance s' < distance s := by
  have hinv := exchangeInv_of_keepsAnswer h.reach
  rcases h.phase with hwaiting | htoken | hreturned
  · rcases htokens : s.exchange.host.responsePipe with _ | ⟨token, tokens⟩
    · have hfree : ¬ Undelivered s.exchange := by
        rintro (hp' | ⟨-, ht⟩)
        · rw [hwaiting] at hp'
          cases hp'
        · exact ht htokens
      rcases hn : s.exchange.host.commandLength with _ | n
      · rcases hlink : s.exchange.fromNcp with _ | ⟨f, fs⟩
        · -- nothing is on the way back: the NCP has not taken the command yet
          have hcount := hinv.count
          have hempty : onLink s.exchange = 0 := by rw [onLink, hlink, List.countP_nil]
          rw [hempty, arrived_of_none hn, tokens_of_ne (by rw [hwaiting]; decide), htokens,
            hwaiting] at hcount
          obtain ⟨command, toNcp, ht⟩ := List.exists_cons_of_length_pos
            (show 0 < s.exchange.toNcp.length by
              have : outstanding .waiting = 1 := rfl
              rw [List.length_nil] at hcount
              omega)
          exact exists_step_serve h hwaiting ht
        · have hnext : s.exchange.next .rx = some { s.exchange with
              host := s.exchange.host.cpcRx f, fromNcp := fs } := by
            simp only [Exchange.next, hn, hlink]
          refine ⟨.exchange .rx, _, [], ⟨fun _ => hfree, rfl⟩, step_exchange rfl h.running hnext,
            underway_step h rfl (fun _ => hfree) hnext h.running (Or.inl hwaiting), ?_⟩
          simp only [distance, hn, hlink, Host.cpcRx, List.length_cons, Option.isSome_none,
            Option.isSome_some, if_true, Bool.false_eq_true, if_false]
          omega
      · obtain ⟨host, hnext, hnone, hpipe⟩ := exists_dispatch hinv hn
        refine ⟨.exchange .dispatch, _, [], ⟨by rintro ⟨⟩, rfl⟩,
          step_exchange rfl h.running hnext,
          underway_step h rfl (by rintro ⟨⟩) hnext h.running (Or.inl hwaiting), ?_⟩
        simp only [distance, hn, hnone, Option.isSome_none, Option.isSome_some, if_true,
          Bool.false_eq_true, if_false]
        omega
    · have hnext : s.exchange.next .readToken = some { s.exchange with
          host := { s.exchange.host with responsePipe := tokens }, phase := .tokenRead } := by
        simp only [Exchange.next, htokens, hwaiting]
      refine ⟨.exchange .readToken, _, [], ⟨by rintro ⟨⟩, rfl⟩, step_exchange rfl h.running hnext,
        underway_step h rfl (by rintro ⟨⟩) hnext h.running (Or.inr (Or.inl rfl)), ?_⟩
      simp only [distance, htokens, hwaiting, List.length_cons]
      omega
  · have hnext : s.exchange.next .memcpy = some { s.exchange with
        host := s.exchange.host.memcpyResponse, phase := .returned } := if_pos htoken
    refine ⟨.exchange .memcpy, _, [], ⟨by rintro ⟨⟩, rfl⟩, step_exchange rfl h.running hnext,
      underway_step h rfl (by rintro ⟨⟩) hnext h.running (Or.inr (Or.inr rfl)), ?_⟩
    simp only [distance, htoken, Host.memcpyResponse_commandLength,
      Host.memcpyResponse_responsePipe]
    omega
  · exact absurd hreturned hp

/-- **A call comes to its end**: from every state in which a call is on its way and no `poll` has
timed out, the NCP, the poll thread and the caller alone lead to its results. -/
theorem exists_returned (h : Underway calls s) :
    ∃ t, (remote long).Leads BringsAnswer s t ∧ Underway calls t ∧
      t.exchange.phase = .returned :=
  System.exists_leads_of_measure distance (fun _ hs hgoal => exists_step hs hgoal) h

end ConnectNcpHost.HostCommon.CallProgress
