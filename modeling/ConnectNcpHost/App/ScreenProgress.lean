import ConnectNcpHost.App.Screen

/-! # Every reading comes to the screen

A callback waits for the poll thread, which waits for room in the pipe, and for the callback thread,
which waits for something to read. `exists_shown_of_reach`: the two never wait for each other for
good; wherever they stand, and whatever the user has typed, their steps alone bring everything the
stack has encoded to the screen. -/

namespace ConnectNcpHost.App.ScreenProgress

open ConnectNcpHost.Lib.Bytes ConnectNcpHost.Lib.Runs ConnectNcpHost.Lib.Pipes
open ConnectNcpHost.Csp.Callbacks ConnectNcpHost.HostCommon.CallbackQueue
open ConnectNcpHost.HostCommon.CallbackPath ConnectNcpHost.HostCommon.Host
open ConnectNcpHost.Ota.Protocol ConnectNcpHost.Ota.BootloaderServer ConnectNcpHost.App.Commands
open ConnectNcpHost.App.GblImage ConnectNcpHost.App.SensorData ConnectNcpHost.App.Screen
open ConnectNcpHost.HostCommon.CpcHost (responseBufferSize)

variable {cfg : Config} {long : Bool}

/-! ## The queue -/

/-- The bytes that are still to be gone through, the more often counted the further they are from
the loop. -/
def waiting (q : Queue) : ℕ :=
  4 * (stream q.incoming).length + 3 * (q.writing.elim 0 fun w => w.rest.length) +
    2 * q.pipe.items.length + q.drain.elim 0 fun d => d.bytesToRead.toNat + 1

section Queue

variable {fs : List CallbackFrame} {q : Queue} {done buffered piped written : List CallbackFrame}

/-- The callback thread is in its loop: it makes a turn. -/
theorem exists_turn {d : Drain} (h : QueueInv fs q done buffered piped written)
    (hd : q.drain = some d) : ∃ q' calls, (callbackQueue fs).step q .turn = some (q', calls) ∧
      waiting q' + calls.length < waiting q := by
  obtain ⟨-, -, hb, -, -, hr⟩ := h
  rw [hd] at hb
  obtain ⟨hn, hread⟩ := hb
  by_cases hpos : 0 < d.bytesToRead
  · obtain ⟨f, rest, rfl⟩ := length_stream_pos (by omega : 0 < (stream buffered).length)
    obtain ⟨-, hn', -⟩ := turn_of_read hn hread
    have hlen : (stream (f :: rest)).length = f.bytes.length + 2 + (stream rest).length := by
      rw [stream_cons, List.length_append, f.length_entry]
    have hstep : (callbackQueue fs).step q .turn = some ({ q with
        drain := some d.turn.2
        calls := q.calls ++ [d.turn.1]
        exited := d.turn.2.bytesToRead < 0 }, [d.turn.1]) := by
      simp only [callbackQueue, hr, hd, Bool.false_eq_true, if_false, if_pos hpos, Option.map_some]
    refine ⟨_, _, hstep, ?_⟩
    have hturn : d.turn.2.bytesToRead = (stream rest).length := hn'
    simp only [waiting, hd, Option.elim_some, hn, hturn, hlen, List.length_cons, List.length_nil,
      Int.toNat_natCast]
    omega
  · have hstep : (callbackQueue fs).step q .turn = some ({ q with drain := none }, []) := by
      simp only [callbackQueue, hr, hd, Bool.false_eq_true, if_false, if_neg hpos, Option.map_some]
    refine ⟨_, _, hstep, ?_⟩
    simp only [waiting, hd, Option.elim_some, Option.elim_none, List.length_nil]
    omega

/-- There is something in the pipe: the callback thread reads it. -/
theorem exists_read (h : QueueInv fs q done buffered piped written) (hd : q.drain = none)
    (hp : q.pipe.items ≠ []) :
    ∃ q' calls, (callbackQueue fs).step q (.read fun _ => 0) = some (q', calls) ∧
      waiting q' + calls.length < waiting q := by
  have hread : q.pipe.read maxPipeQueueSize = some (q.pipe.items, .empty) :=
    Pipe.read_eq_some (by decide) hp
  have hlength : 2 ≤ q.pipe.items.length := by
    rw [h.pipe] at hp ⊢
    rcases piped with _ | ⟨f, rest⟩
    · exact absurd rfl hp
    · rw [stream_cons, List.length_append, f.length_entry]
      omega
  have hstep : (callbackQueue fs).step q (.read fun _ => 0) = some ({ q with
      pipe := .empty, drain := some (.start (fun _ => 0) q.pipe.items) }, []) := by
    simp only [callbackQueue, h.running, hd, Bool.false_eq_true, if_false, Option.isNone_none,
      if_true, hread, Option.map_some]
  refine ⟨_, _, hstep, ?_⟩
  simp only [waiting, hd, Option.elim_some, Option.elim_none, Drain.start, Pipe.items_empty,
    List.length_nil, Int.toNat_natCast]
  omega

/-- The pipe is empty: the poll thread goes on with its write. -/
theorem exists_write {w : Write UInt8} (h : QueueInv fs q done buffered piped written)
    (hp : q.pipe.items = []) (hw : q.writing = some w) :
    ∃ q' calls, (callbackQueue fs).step q (.write w.rest.length) = some (q', calls) ∧
      waiting q' + calls.length < waiting q := by
  obtain ⟨f, -, hrest, -⟩ : ∃ f, written = [f] ∧ w.rest = f.entry ∧ w.total ≤ pipeBuf := by
    have hwrite := h.write
    rwa [hw] at hwrite
  have hlength : w.rest.length = f.bytes.length + 2 := by rw [hrest, f.length_entry]
  have hroom : w.rest.length ≤ pipeCapacity := by
    have hle := f.length_le
    have hsize : responseBufferSize + 2 ≤ pipeCapacity := by decide
    omega
  have hwrite : w.step pipeBuf w.rest.length q.pipe = some (none, ⟨w.rest, hroom⟩) := by
    refine Write.step_all (List.ne_nil_of_length_pos (by omega)) ?_
    rw [hp, List.nil_append]
  have hstep : (callbackQueue fs).step q (.write w.rest.length) = some ({ q with
      writing := none, pipe := ⟨w.rest, hroom⟩ }, []) := by
    simp only [callbackQueue, h.running, hw, Bool.false_eq_true, if_false, Option.bind_some,
      hwrite, Option.map_some]
  refine ⟨_, _, hstep, ?_⟩
  simp only [waiting, hw, hp, Option.elim_some, Option.elim_none, List.length_nil]
  omega

/-- Nothing is being written: the poll thread goes on with the next frame. -/
theorem exists_append {f : CallbackFrame} {rest : List CallbackFrame}
    (h : QueueInv fs q done buffered piped written) (hw : q.writing = none)
    (hi : q.incoming = f :: rest) :
    ∃ q' calls, (callbackQueue fs).step q (.append fun _ => 0) = some (q', calls) ∧
      waiting q' + calls.length < waiting q := by
  have hstep : (callbackQueue fs).step q (.append fun _ => 0) = some ({ q with
      incoming := rest
      writing := some (sliConnectNcpAppendCallbackCommand (fun _ => 0) f.bytes) }, []) := by
    simp only [callbackQueue, h.running, hw, hi, Bool.false_eq_true, if_false]
  refine ⟨_, _, hstep, ?_⟩
  simp only [waiting, hw, hi, append_eq, Option.elim_some, Option.elim_none, stream_cons,
    List.length_append, f.length_entry, List.length_nil]
  omega

end Queue

/-- **The queue never stands still**, as long as there is something in it. -/
theorem exists_queue_step {cs done : List (StackCallback long)} {q : Queue}
    (h : Executed cs q done) (hq : ¬ Quiet q) : ∃ l q' calls,
      (callbackQueue (cs.map StackCallback.frame)).step q l = some (q', calls) ∧
      waiting q' + calls.length < waiting q := by
  obtain ⟨-, buffered, piped, written, hinv⟩ := h
  rcases hd : q.drain with _ | d
  · by_cases hp : q.pipe.items = []
    · rcases hw : q.writing with _ | w
      · rcases hi : q.incoming with _ | ⟨f, rest⟩
        · exact absurd ⟨hi, hw, hp, hd⟩ hq
        · exact ⟨_, exists_append hinv hw hi⟩
      · exact ⟨_, exists_write hinv hp hw⟩
    · exact ⟨_, exists_read hinv hd hp⟩
  · exact ⟨_, exists_turn hinv hd⟩

/-! ## The host -/

variable {cs : List (StackCallback long)} {h : SinkHost}

/-- The steps of the poll thread and of the callback thread. -/
def Delivers (_ : SinkHost) : Screen.Label → Prop
  | .queue _ _ => True
  | .framework => True
  | _ => False

/-- How far it is to the end of the queue. -/
def distance (h : SinkHost) : ℕ := waiting h.queue + if h.pending.isSome then 1 else 0

/-- A step of the queue is one of the host, and leaves no more to the framework than it executes. -/
theorem exists_sink_step (cfg : Config) (long : Bool) {fs : List CallbackFrame}
    {l : HostCommon.CallbackQueue.Label}
    {q : Queue} {calls : List Call} (vars : Locals) (hpending : h.pending = none)
    (hstep : (callbackQueue fs).step h.queue l = some (q, calls)) :
    ∃ h', (sinkHost cfg long fs).step h (.queue l vars) = some (h', []) ∧
      distance h' ≤ waiting q + calls.length := by
  have hfree : ¬ (h.pending.isSome = true ∧ isCallbackThread l = true) := by
    rw [hpending]
    exact fun hp => Bool.noConfusion hp.1
  simp only [sinkHost, if_neg hfree, hstep, Option.map_some]
  have hsame : distance { h with queue := q } ≤ waiting q + calls.length := by
    simp only [distance, hpending, Option.isSome_none, Bool.false_eq_true, if_false]
    omega
  split
  · rcases executeCallback long vars _ h with _ | h'
    · exact ⟨_, rfl, hsame⟩
    · refine ⟨_, rfl, ?_⟩
      have hle : (if h'.pending.isSome = true then 1 else 0) ≤ 1 := by split_ifs <;> omega
      simp only [distance, List.length_cons]
      omega
  · exact ⟨_, rfl, hsame⟩

/-- **One of the two threads has a step**, and it comes closer to the end of the queue. -/
theorem exists_step (hformat : ∀ c ∈ cs, KeepsFormat c.callback)
    (hr : (sinkHost cfg long (cs.map StackCallback.frame)).Reach KeepsSecurity h)
    (hmore : ¬ (Quiet h.queue ∧ h.pending = none)) : ∃ l h' os, Delivers h l ∧
      (sinkHost cfg long (cs.map StackCallback.frame)).step h l = some (h', os) ∧
      (sinkHost cfg long (cs.map StackCallback.frame)).Reach KeepsSecurity h' ∧
      distance h' < distance h := by
  obtain ⟨done, hexecuted, hfrom, -, -⟩ := securedInv_of_reach hformat hr
  rcases hpending : h.pending with _ | i
  · obtain ⟨l, q, calls, hstep, hlt⟩ :=
      exists_queue_step hexecuted fun hq => hmore ⟨hq, hpending⟩
    obtain ⟨h', hst, hle⟩ := exists_sink_step cfg long zeroLocals hpending hstep
    refine ⟨.queue l zeroLocals, h', [], trivial, hst,
      hr.step (i := .queue l zeroLocals) trivial hst, ?_⟩
    have heq : distance h = waiting h.queue := by
      simp only [distance, hpending, Option.isSome_none, Bool.false_eq_true, if_false, Nat.add_zero]
    omega
  · obtain ⟨c, hc⟩ := hfrom i hpending
    obtain ⟨r, happ, -⟩ := step_of_appInput cfg hc h.app
    have hst : (sinkHost cfg long (cs.map StackCallback.frame)).step h .framework =
        some ({ h with app := r.1, pending := none, screen := h.screen ++ texts r.2 }, r.2) := by
      simp only [sinkHost, hexecuted.running, Bool.false_eq_true, if_false, hpending,
        Option.bind_some, happ, Option.map_some]
    refine ⟨.framework, _, r.2, trivial, hst, hr.step (i := .framework) trivial hst, ?_⟩
    simp only [distance, hpending, Option.isSome_none, Option.isSome_some, Bool.false_eq_true,
      if_false, if_true]
    omega

/-- **Everything comes to the screen.** In every run in which the user does not switch security off,
wherever the threads stand and whatever was typed, the steps of the poll thread and of the callback
thread alone lead to where the readings on the screen are those of all secured messages the stack
has encoded, in order. -/
theorem exists_shown_of_reach (hformat : ∀ c ∈ cs, KeepsFormat c.callback)
    (hr : (sinkHost cfg long (cs.map StackCallback.frame)).Reach KeepsSecurity h) :
    ∃ t, (sinkHost cfg long (cs.map StackCallback.frame)).Leads Delivers h t ∧
      t.screen.filterMap readLine = cs.filterMap securedReading := by
  obtain ⟨t, hleads, ht, hq, -⟩ := System.exists_leads_of_measure distance
    (fun _ hs hmore => exists_step hformat hs hmore) hr
  obtain ⟨done, hexecuted, -, -, hreadings⟩ := securedInv_of_reach hformat ht
  obtain rfl := executed_of_quiet hexecuted hq
  exact ⟨t, hleads, hreadings⟩

/-- The first callback is in the pipe, and the second one still to come. -/
theorem exists_shown_of_reach_sensor : ∃ h : SinkHost, h.queue.pipe.items.length = 26 ∧
    ∃ t, (sinkHost defaultConfig true
        ([sensorCallback, unsecuredCallback].map StackCallback.frame)).Leads Delivers h t ∧
      t.screen.filterMap readLine =
        [sensorCallback, unsecuredCallback].filterMap securedReading := by
  have hformat : ∀ c ∈ [sensorCallback, unsecuredCallback], KeepsFormat c.callback := by decide
  have h0 : (sinkHost defaultConfig true
      ([sensorCallback, unsecuredCallback].map StackCallback.frame)).Reach KeepsSecurity
      ⟨Queue.init _, Settings.init, SinkApp.init, none, []⟩ := .start rfl
  obtain ⟨h, hr, hlength⟩ := System.exists_reach_of_exec
    [.queue (.append fun _ => 0) zeroLocals, .queue (.write 26) zeroLocals]
    (fun h => h.queue.pipe.items.length) (b := 26) h0 (by decide +kernel)
  exact ⟨h, hlength, exists_shown_of_reach hformat hr⟩

end ConnectNcpHost.App.ScreenProgress
