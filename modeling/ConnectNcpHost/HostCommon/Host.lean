import ConnectNcpHost.HostCommon.CallbackPath
import ConnectNcpHost.Ota.ShortResponses

/-! # The host, from the pipe to the server

The callback thread goes through its buffer entry by entry; the handler of an entry fetches the
parameters where they stand, and the framework hands the messages among the callbacks to the server
(`callback_dispatcher.c`). Here the queue and the server are put together, the poll thread, the
callback thread, the calls of the API and the timer in any order.

`ota_of_host`: the server does what the server alone does, fed with the callbacks the stack has
encoded, every one once and in order. What holds of every run of the server holds of the host.
`exec_of_sameEvents`: where the lengths of the messages decide what is read of them, this does not
depend on what the arrays of the handlers held before. -/

namespace ConnectNcpHost.HostCommon.Host

open ConnectNcpHost.Lib.Bytes ConnectNcpHost.Lib.Runs ConnectNcpHost.Lib.Pipes
open ConnectNcpHost.Stack.ByteUtilities ConnectNcpHost.Csp.Callbacks
open ConnectNcpHost.HostCommon.CallbackQueue ConnectNcpHost.HostCommon.CallbackPath
open ConnectNcpHost.Ota.Protocol ConnectNcpHost.Ota.BootloaderServer
open ConnectNcpHost.Ota.ShortResponses (SameInput LengthsChecked exec_congr)

variable {cfg : Config} {long : Bool}

/-! ## The model -/

/-- The framework's part of a callback (`callback_dispatcher.c`): `emberAfMessageSent` and
`emberAfIncomingMessage` call the server, the other functions do nothing. -/
def dispatched : Callback → Option Input
  | .messageSent status message => some (.messageSent status message.toEmberOutgoingMessage)
  | .incomingMessage message => some (.incomingMessage message.toEmberIncomingMessage)
  | _ => none

/-- The input is a callback of the stack. -/
def fromStack : Input → Bool
  | .incomingMessage _ => true
  | .messageSent _ _ => true
  | _ => false

/-- The call of `sli_connect_ncp_handle_indication` in a turn of the loop; `vars` is what the
variables of the handler hold before. `none` is `FATAL`. -/
def execute (cfg : Config) (long : Bool) (vars : Locals) (d : Drain) (s : Server) :
    Option Outcome :=
  (sliConnectNcpHandleIndication long vars d.pipeBuffer d.turn.1.commandId (d.finger + 2 + 2)).bind
    fun c => match dispatched c with
      | some i => handle cfg s i
      | none => some ⟨s, []⟩

/-- The queue, and the server behind it. -/
structure HostState where
  queue : Queue
  server : Server

/-- The atomic steps. -/
inductive Label
  /-- a step of the poll thread or of the callback thread -/
  | queue (l : CallbackQueue.Label) (vars : Locals)
  /-- a call of the API, or the timer -/
  | server (i : Input)

/-- **The host, its threads in any order.** -/
def host (cfg : Config) (long : Bool) (fs : List CallbackFrame) : System HostState Label Action where
  start h := h.queue = Queue.init fs ∧ h.server = Server.init
  step h
    | .queue l vars => ((callbackQueue fs).step h.queue l).map fun r =>
      match h.queue.drain, r.2 with
      | some d, _ :: _ =>
        match execute cfg long vars d h.server with
        | some o => (⟨r.1, o.server⟩, o.actions)
        | none => (⟨{ r.1 with exited := true }, h.server⟩, [])
      | _, _ => (⟨r.1, h.server⟩, [])
    | .server i =>
      if h.queue.exited ∨ fromStack i then none
      else (handle cfg h.server i).map fun o => (⟨h.queue, o.server⟩, o.actions)

/-! ## The history of a run -/

/-- What the threads do that the server may notice. -/
inductive Mark
  /-- the callback thread makes a call; `vars` is what the variables of the handler hold before -/
  | call (c : Call) (vars : Locals)
  /-- a call of the API, or the timer -/
  | own (i : Input)

/-- The calls that a step of the queue makes. -/
def callsOf (fs : List CallbackFrame) (q : Queue) (l : CallbackQueue.Label) : List Call :=
  ((callbackQueue fs).step q l).elim [] Prod.snd

/-- The history of a run: what the threads have done, in order, and what the server has done on it. -/
structure History where
  marks : List Mark
  actions : List Action

/-- What a step adds to the marks. -/
def Label.marks (fs : List CallbackFrame) (q : Queue) : Label → List Mark
  | .queue l vars => (callsOf fs q l).map fun c => .call c vars
  | .server i => [.own i]

def History.record (fs : List CallbackFrame) (g : History) (h : HostState) (l : Label)
    (as : List Action) : History := ⟨g.marks ++ l.marks fs h.queue, g.actions ++ as⟩

/-! ## The callbacks of the stack -/

/-- A callback, as the stack encodes it: its lengths fit the prefixes, and the arrays of the
handler. -/
structure StackCallback (long : Bool) where
  callback : Callback
  fits : callback.Fits long
  within : callback.Within

/-- The frame the poll thread passes on. -/
def StackCallback.frame (c : StackCallback long) : CallbackFrame where
  bytes := c.callback.frame long
  two_le := by
    rw [Callback.frame, List.length_append, length_highLowBytes16]
    exact Nat.le_add_right 2 _
  length_le := (length_frame_le long c.within).trans (by decide)

/-- What happens to the server, in order. -/
inductive Event (long : Bool)
  /-- a callback is executed -/
  | callback (c : StackCallback long) (vars : Locals)
  /-- a call of the API, or the timer -/
  | own (i : Input) (h : fromStack i = false)

/-- The input of the server. -/
def Event.input : Event long → Option Input
  | callback c vars => dispatched (c.callback.received vars)
  | own i _ => some i

/-- The mark it leaves. -/
def Event.mark : Event long → Mark
  | callback c vars => .call c.frame.call vars
  | own i _ => .own i

/-- The callback that is executed. -/
def Event.stackCallback : Event long → Option (StackCallback long)
  | callback c _ => some c
  | own _ _ => none

/-! ## One step -/

/-- **A call is handled as the callback its frame was made from.** -/
theorem handleIndication_of_call {d : Drain} {c : StackCallback long} (vars : Locals)
    (h : d.turn.1 = c.frame.call) :
    sliConnectNcpHandleIndication long vars d.pipeBuffer d.turn.1.commandId (d.finger + 2 + 2) =
      some (c.callback.received vars) := by
  have hsame := Memory.read_write_same (fun _ => 0) 0 (c.callback.frame long)
  rw [Callback.frame, List.length_append, Memory.read_add, length_highLowBytes16] at hsame
  have hid : c.frame.call.commandId = c.callback.commandId :=
    fetch_of_read16 (List.append_inj_left hsame (by rw [Memory.length_read, length_highLowBytes16]))
  have hparams : c.frame.call.params = c.callback.params long :=
    List.drop_left' (length_highLowBytes16 _)
  have hread : d.turn.1.params = c.callback.params long := by rw [h, hparams]
  have hlength := congrArg List.length hread
  rw [h, hid]
  refine handleIndication_eq vars c.fits ?_
  rw [← hlength, ← hread]
  exact congrArg (d.pipeBuffer.read (d.finger + 2 + 2)) (Memory.length_read _ _ _)

theorem execute_of_call {d : Drain} {c : StackCallback long} (vars : Locals) (s : Server)
    (h : d.turn.1 = c.frame.call) :
    execute cfg long vars d s = match dispatched (c.callback.received vars) with
      | some i => handle cfg s i
      | none => some ⟨s, []⟩ := by
  rw [execute, handleIndication_of_call vars h]
  rfl

/-- The server is always ready for a callback. -/
theorem exists_handle_dispatched (cfg : Config) (s : Server) {c : Callback} {i : Input}
    (h : dispatched c = some i) : ∃ o, handle cfg s i = some o := by
  unfold dispatched at h
  split at h
  · rw [← Option.some.inj h]
    exact ⟨_, rfl⟩
  · rw [← Option.some.inj h]
    exact ⟨_, rfl⟩
  · cases h

section Queue

variable {fs : List CallbackFrame} {q q' : Queue} {done buffered piped written : List CallbackFrame}
  {as : List Call}

/-- **A turn leaves the loop, or makes the call of the first frame in the buffer.** -/
theorem queueInv_turn_cases (h : QueueInv fs q done buffered piped written)
    (hst : (callbackQueue fs).step q .turn = some (q', as)) :
    (as = [] ∧ QueueInv fs q' done buffered piped written) ∨
      ∃ d f rest, q.drain = some d ∧ buffered = f :: rest ∧ as = [f.call] ∧ d.turn.1 = f.call ∧
        QueueInv fs q' (done ++ [f]) rest piped written := by
  obtain ⟨hfs, hc, hb, hp, hw, hr⟩ := h
  simp only [callbackQueue, hr, Bool.false_eq_true, if_false, Option.map_eq_some_iff] at hst
  obtain ⟨d, hd, hst⟩ := hst
  rw [hd] at hb
  obtain ⟨hn, hread⟩ := hb
  by_cases hpos : 0 < d.bytesToRead
  · right
    rw [if_pos hpos] at hst
    obtain ⟨f, rest, rfl⟩ := length_stream_pos (by omega : 0 < (stream buffered).length)
    obtain ⟨hcall, hn', hread'⟩ := turn_of_read hn hread
    simp only [Prod.mk.injEq] at hst
    obtain ⟨rfl, rfl⟩ := hst
    refine ⟨d, f, rest, hd, rfl, congrArg (fun c => [c]) hcall, hcall, by rw [hfs]; simp, ?_,
      ⟨hn', hread'⟩, hp, hw, ?_⟩
    · rw [hcall, hc, List.map_append]
      rfl
    · have hge : ¬ ((stream rest).length : ℤ) < 0 := by omega
      rw [hn']
      exact decide_eq_false hge
  · left
    rw [if_neg hpos] at hst
    simp only [Prod.mk.injEq] at hst
    obtain ⟨rfl, rfl⟩ := hst
    have hnil : buffered = [] := by
      rcases buffered with _ | ⟨f, rest⟩
      · rfl
      · rw [stream_cons, List.length_append, f.length_entry] at hn
        omega
    exact ⟨rfl, hfs, hc, hnil, hp, hw, rfl⟩

/-- Only a turn makes a call. -/
theorem calls_eq_nil {l : CallbackQueue.Label} (hl : l ≠ .turn)
    (hst : (callbackQueue fs).step q l = some (q', as)) : as = [] := by
  cases l with
  | turn => exact absurd rfl hl
  | append stack =>
    simp only [callbackQueue] at hst
    split at hst
    · cases hst
    · split at hst
      · exact (Prod.mk.inj (Option.some.inj hst)).2.symm
      · cases hst
  | write k =>
    simp only [callbackQueue] at hst
    split at hst
    · cases hst
    · simp only [Option.bind_eq_some_iff, Option.map_eq_some_iff, Prod.mk.injEq] at hst
      obtain ⟨w, -, x, -, -, hnil⟩ := hst
      exact hnil.symm
  | read stack =>
    simp only [callbackQueue] at hst
    split_ifs at hst
    simp only [Option.map_eq_some_iff, Prod.mk.injEq] at hst
    obtain ⟨x, -, -, hnil⟩ := hst
    exact hnil.symm

end Queue

/-! ## The callbacks that are executed -/

/-- Nothing is left in the queue. -/
structure Quiet (q : Queue) : Prop where
  incoming : q.incoming = []
  writing : q.writing = none
  pipe : q.pipe.items = []
  drain : q.drain = none

/-- The callbacks executed so far are the first ones, and the queue holds the others. -/
def Executed (cs : List (StackCallback long)) (q : Queue) (done : List (StackCallback long)) :
    Prop :=
  done <+: cs ∧ ∃ buffered piped written, QueueInv (cs.map StackCallback.frame) q
    (done.map StackCallback.frame) buffered piped written

section Executed

variable {cs done : List (StackCallback long)} {q q' : Queue} {calls : List Call}

theorem executed_init (cs : List (StackCallback long)) :
    Executed cs (Queue.init (cs.map StackCallback.frame)) [] :=
  ⟨List.nil_prefix, _, _, _, queueInv_init _⟩

theorem Executed.running (h : Executed cs q done) : q.exited = false := by
  obtain ⟨-, _, _, _, hqueue⟩ := h
  exact hqueue.running

/-- **A step of the queue executes nothing, or the next callback.** -/
theorem executed_step {l : CallbackQueue.Label} (h : Executed cs q done)
    (hst : (callbackQueue (cs.map StackCallback.frame)).step q l = some (q', calls)) :
    (calls = [] ∧ Executed cs q' done) ∨
      ∃ d c, q.drain = some d ∧ calls = [c.frame.call] ∧ d.turn.1 = c.frame.call ∧
        Executed cs q' (done ++ [c]) := by
  obtain ⟨hfirst, buffered, piped, written, hqueue⟩ := h
  have hshort : ∀ f ∈ cs.map StackCallback.frame, f.bytes.length ≤ 4094 := by
    intro f hf
    obtain ⟨c, -, rfl⟩ := List.mem_map.mp hf
    exact length_frame_le long c.within
  by_cases hl : l = .turn
  · subst hl
    rcases queueInv_turn_cases hqueue hst with ⟨hnil, hq⟩ | ⟨d, f, rest, hd, rfl, hcalls, hcall, hq⟩
    · exact Or.inl ⟨hnil, hfirst, _, _, _, hq⟩
    · -- the frame is that of the next callback
      obtain ⟨todo, hcs⟩ := hfirst
      have hframes := hqueue.frames
      rw [← hcs, List.map_append, List.append_cancel_left_eq, List.cons_append,
        List.map_eq_cons_iff] at hframes
      obtain ⟨c, todo, rfl, rfl, -⟩ := hframes
      refine Or.inr ⟨d, c, hd, hcalls, hcall, ⟨todo, ?_⟩, rest, piped, written, ?_⟩
      · rw [List.append_assoc]
        exact hcs
      · rw [List.map_append]
        exact hq
  · refine Or.inl ⟨calls_eq_nil hl hst, hfirst, ?_⟩
    rw [calls_eq_nil hl hst] at hst
    cases l with
    | turn => exact absurd rfl hl
    | append stack =>
      obtain ⟨f, hq⟩ := queueInv_append hshort hqueue hst
      exact ⟨_, _, _, hq⟩
    | write k => exact ⟨_, _, _, queueInv_write hqueue hst⟩
    | read stack => exact ⟨_, _, _, queueInv_read hqueue hst⟩

theorem executed_of_quiet (h : Executed cs q done) (hq : Quiet q) : done = cs := by
  obtain ⟨⟨todo, hcs⟩, buffered, piped, written, hframes, -, hb, hp, hw, -⟩ := h
  rw [hq.drain] at hb
  rw [hq.writing] at hw
  have hpiped : piped = [] := by
    rcases piped with _ | ⟨f, rest⟩
    · rfl
    · have hlen := congrArg List.length (hp.symm.trans hq.pipe)
      rw [stream_cons, List.length_append, f.length_entry] at hlen
      simp at hlen
  rw [show buffered = [] from hb, show written = [] from hw, hpiped, hq.incoming, ← hcs,
    List.map_append, List.append_cancel_left_eq] at hframes
  rw [← hcs, List.map_eq_nil_iff.mp hframes, List.append_nil]

end Executed

/-! ## What a step does -/

variable {cs done : List (StackCallback long)} {h h' : HostState} {l : Label} {as : List Action}

/-- A step of the host, as what it does to the server. -/
inductive HostStep (cfg : Config) (cs done : List (StackCallback long)) (h : HostState) (l : Label)
    (h' : HostState) (as : List Action) : Prop
  | silent (hexecuted : Executed cs h'.queue done) (hserver : h'.server = h.server) (has : as = [])
      (hmarks : l.marks (cs.map StackCallback.frame) h.queue = [])
  | event (e : Event long) (hexecuted : Executed cs h'.queue (done ++ e.stackCallback.toList))
      (hmarks : l.marks (cs.map StackCallback.frame) h.queue = [e.mark])
      (hran : (ota cfg).exec free h.server e.input.toList = some (h'.server, as))

theorem exec_singleton {i : Input} {s : Server} {o : Outcome} (ho : handle cfg s i = some o) :
    (ota cfg).exec free s [i] = some (o.server, o.actions) := by
  have hst : (ota cfg).step s i = some (o.server, o.actions) := by
    simp only [ota, ho, Option.map_some]
  rw [System.exec_of_step trivial hst rfl, List.append_nil]

/-- A callback is executed. -/
theorem exists_execute {d : Drain} {c : StackCallback long} (cfg : Config) (vars : Locals)
    (s : Server) (hcall : d.turn.1 = c.frame.call) :
    ∃ o, execute cfg long vars d s = some o ∧
      (ota cfg).exec free s (Event.callback c vars).input.toList = some (o.server, o.actions) := by
  rw [execute_of_call vars s hcall]
  rcases hi : dispatched (c.callback.received vars) with _ | i
  · have hnone : (Event.callback c vars).input = none := hi
    exact ⟨⟨s, []⟩, rfl, by rw [hnone]; rfl⟩
  · have hsome : (Event.callback c vars).input = some i := hi
    obtain ⟨o, ho⟩ := exists_handle_dispatched cfg s hi
    exact ⟨o, ho, by rw [hsome]; exact exec_singleton ho⟩

theorem callsOf_of_step {l : CallbackQueue.Label} {q q' : Queue} {calls : List Call}
    {fs : List CallbackFrame} (hstep : (callbackQueue fs).step q l = some (q', calls)) :
    callsOf fs q l = calls := by
  rw [callsOf, hstep, Option.elim_some]

/-- **What a step of the host does to its server.** -/
theorem hostStep_of_step (hexecuted : Executed cs h.queue done)
    (hst : (host cfg long (cs.map StackCallback.frame)).step h l = some (h', as)) :
    HostStep cfg cs done h l h' as := by
  cases l with
  | server i =>
    simp only [host] at hst
    split_ifs at hst with hi
    obtain ⟨o, ho, he⟩ := Option.map_eq_some_iff.mp hst
    obtain ⟨rfl, rfl⟩ := Prod.mk.inj he
    have hown : fromStack i = false := Bool.eq_false_iff.mpr fun hs => hi (.inr hs)
    refine .event (.own i hown) ?_ rfl (exec_singleton ho)
    rw [show (Event.own i hown : Event long).stackCallback.toList = [] from rfl, List.append_nil]
    exact hexecuted
  | queue l vars =>
    simp only [host, Option.map_eq_some_iff] at hst
    obtain ⟨⟨q, calls⟩, hstep, hst⟩ := hst
    have hmarks : (Label.queue l vars).marks (cs.map StackCallback.frame) h.queue =
        calls.map fun c => .call c vars := by rw [Label.marks, callsOf_of_step hstep]
    rcases executed_step hexecuted hstep with ⟨rfl, hq⟩ | ⟨d, c, hd, rfl, hcall, hq⟩
    · have hsame : ((⟨q, h.server⟩, []) : HostState × List Action) = (h', as) := by
        rcases hd : h.queue.drain with _ | d
        · rw [hd] at hst
          exact hst
        · rw [hd] at hst
          exact hst
      obtain ⟨rfl, rfl⟩ := Prod.mk.inj hsame
      exact .silent hq rfl rfl hmarks
    · obtain ⟨o, ho, hran⟩ := exists_execute cfg vars h.server hcall
      simp only [hd, ho] at hst
      obtain ⟨rfl, rfl⟩ := Prod.mk.inj hst
      exact .event (.callback c vars) hq hmarks hran

/-! ## Whole runs -/

/-- The host with the history of its run. -/
def observedHost (cfg : Config) (long : Bool) (fs : List CallbackFrame) :
    System (HostState × History) Label Action :=
  (host cfg long fs).observe ⟨[], []⟩ (History.record fs)

/-- **Invariant**: the events are those of the run, the callbacks among them are the first ones, and
the server is where the events lead, with the same actions. -/
structure HostInv (cfg : Config) (cs : List (StackCallback long)) (h : HostState) (g : History)
    (es : List (Event long)) : Prop where
  executed : Executed cs h.queue (es.filterMap Event.stackCallback)
  marks : es.map Event.mark = g.marks
  server : (ota cfg).exec free Server.init (es.filterMap Event.input) = some (h.server, g.actions)

theorem filterMap_concat {α β : Type*} (f : α → Option β) (as : List α) (a : α) :
    (as ++ [a]).filterMap f = as.filterMap f ++ (f a).toList := by
  rw [List.filterMap_append, List.filterMap_cons, List.filterMap_nil]
  rcases f a with _ | b
  · rfl
  · rfl

theorem hostInv_of_reach {g : History}
    (hr : (observedHost cfg long (cs.map StackCallback.frame)).Reach free (h, g)) :
    ∃ es, HostInv cfg cs h g es := by
  refine System.Reach.invariant (I := fun p => ∃ es, HostInv cfg cs p.1 p.2 es)
    (fun p hstart => ?_) (fun p l p' as _ hinv _ hst => ?_) hr
  · obtain ⟨⟨hq, hs⟩, hg⟩ := hstart
    refine ⟨[], ?_, ?_, ?_⟩
    · rw [hq]
      exact executed_init cs
    · rw [hg]
      rfl
    · rw [hs, hg]
      rfl
  · obtain ⟨es, hexecuted, hmarks, hserver⟩ := hinv
    obtain ⟨hst, hg⟩ := System.observe_step hst
    cases hostStep_of_step hexecuted hst with
    | silent hexecuted' hserver' has hsilent =>
      refine ⟨es, hexecuted', ?_, ?_⟩
      · rw [hg, History.record, hsilent, List.append_nil]
        exact hmarks
      · rw [hg, History.record, hserver', has, List.append_nil]
        exact hserver
    | event e hexecuted' hmark hran =>
      refine ⟨es ++ [e], ?_, ?_, ?_⟩
      · rw [filterMap_concat]
        exact hexecuted'
      · rw [hg, History.record, hmark, List.map_append, hmarks, List.map_singleton]
      · rw [hg, History.record, filterMap_concat]
        exact System.exec_append hran hserver

/-- What the server of a host has done. -/
structure Refines (cfg : Config) (cs : List (StackCallback long)) (h : HostState) (g : History)
    (es : List (Event long)) : Prop where
  /-- the events are what the threads have done, in the same order -/
  marks : es.map Event.mark = g.marks
  first : es.filterMap Event.stackCallback <+: cs
  /-- fed with them, the server alone comes to the same state and does the same -/
  server : (ota cfg).exec free Server.init (es.filterMap Event.input) = some (h.server, g.actions)
  all : Quiet h.queue → es.filterMap Event.stackCallback = cs

/-- The short message, as a callback of the stack. -/
def shortCallback : StackCallback true :=
  ⟨.incomingMessage shortMessage, fits_shortMessage true, show 3 ≤ 2048 by decide⟩

/-- The message goes through the queue while a transfer is started. -/
def shortRun : List Label :=
  [.queue (.append fun _ => 0) zeroLocals, .server (.initiateImageDistribution 5 150 7),
    .queue (.write 21) zeroLocals, .queue (.read fun _ => 0) zeroLocals, .queue .turn zeroLocals,
    .queue .turn zeroLocals]

/-- The same event, with other variables of the handler. -/
inductive SameEvent : Event long → Event long → Prop
  | callback (c : StackCallback long) (vars vars' : Locals) :
      SameEvent (.callback c vars) (.callback c vars')
  | own (i : Input) (h : fromStack i = false) : SameEvent (.own i h) (.own i h)

/-- A message that was sent has its first byte. -/
def HasFirstByte : Callback → Prop
  | .messageSent _ x => 0 < x.length.toNat
  | _ => True

/-- The payload that is received, as far as its length goes. -/
theorem receivedPayload_congr (old old' payload : Mem) {n : ℕ} {available : UInt16} {i : ℕ}
    (h : i < (receivedLength n available.toNat).toNat) :
    receivedPayload old' payload n available.toNat i =
      receivedPayload old payload n available.toNat i := by
  have hlt : i < min n available.toNat := by
    rw [receivedLength, Nat.toUInt16_eq, UInt16.toNat_ofNat'] at h
    exact Nat.lt_of_lt_of_le h (Nat.mod_le _ _)
  rw [receivedPayload_apply, receivedPayload_apply, if_pos hlt, if_pos hlt]

/-- **The inputs differ behind the length of a message only.** -/
theorem sameInput_of_sameEvent {e e' : Event long} (h : SameEvent e e')
    (hfirst : ∀ c ∈ e.stackCallback, HasFirstByte c.callback) :
    Option.Rel SameInput e.input e'.input := by
  cases h with
  | own i h => exact .some (.refl i)
  | callback c vars vars' =>
    obtain ⟨c, hfits, hwithin⟩ := c
    cases c with
    | messageSent status x =>
      refine .some (.sent status rfl (receivedPayload_congr _ _ _ ?_))
      have hlength := receivedLength_eq (n := x.length) hwithin
      rw [hlength]
      exact hfirst _ rfl
    | incomingMessage x =>
      exact .some (.message ⟨rfl, rfl, rfl, rfl, fun i hi => receivedPayload_congr _ _ _ hi⟩)
    | _ => exact .none

/-- **What the arrays of the handlers held before has no influence on the server**, in a run in which
the length decides what it reads of each message. -/
theorem exec_of_sameEvents {es es' : List (Event long)} (h : List.Forall₂ SameEvent es es')
    (hfirst : ∀ c ∈ es.filterMap Event.stackCallback, HasFirstByte c.callback)
    {r : Server × List Action}
    (hr : (ota cfg).exec LengthsChecked Server.init (es.filterMap Event.input) = some r) :
    (ota cfg).exec free Server.init (es'.filterMap Event.input) = some r := by
  refine exec_congr ?_ hr
  clear hr
  induction h with
  | nil => exact .nil
  | @cons e e' es es' he _ ih =>
    have htail := ih fun c hc => hfirst c (by
      rw [List.filterMap_cons]
      split
      · exact hc
      · exact List.mem_cons_of_mem _ hc)
    have hhead := sameInput_of_sameEvent he fun c hc => hfirst c (by
      rw [List.filterMap_cons, hc]
      exact List.mem_cons_self)
    rw [List.filterMap_cons, List.filterMap_cons]
    revert hhead
    rcases e.input with _ | i <;> rcases e'.input with _ | i' <;> rintro ⟨⟩
    · exact htail
    · exact .cons ‹_› htail

end ConnectNcpHost.HostCommon.Host
