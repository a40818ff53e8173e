import ConnectNcpHost.Lib.Pipes
import ConnectNcpHost.HostCommon.CpcHost
import Mathlib.Data.List.Induction

/-! # The callback queue (`callback-queue.c`)

The poll thread appends every callback frame to a pipe, its length in front; the callback thread
reads all there is into a buffer on its stack and goes through it entry by entry, trusting that the
read ended with a whole one. The two bytes of the length make an entry longer than its frame: a frame
of up to `4094` bytes is written as a whole, a longer one may be read in parts, and then the process
exits. `queueOk_iff` says that this is the only way to lose, repeat or tear a callback. -/

namespace ConnectNcpHost.HostCommon.CallbackQueue

open ConnectNcpHost.Lib.Bytes ConnectNcpHost.Lib.Runs ConnectNcpHost.Lib.Pipes
open ConnectNcpHost.Stack.ByteUtilities ConnectNcpHost.HostCommon.CpcHost

/-! ## The functions -/

/-- `MAX_CALLBACK_COMMAND_QUEUE_SIZE` -/
def maxCallbackCommandQueueSize : ℕ := 50

/-- `MAX_PIPE_QUEUE_SIZE` -/
def maxPipeQueueSize : ℕ := maxCallbackCommandQueueSize * maxStackApiCommandSize

/-- The nominal capacity of a pipe, in bytes. A write may block before so many are in it: Linux keeps
them in pages, and how many bytes go to a page depends on the size of the writes. -/
def pipeCapacity : ℕ := 65536

/-- `PIPE_BUF`: a longer write may appear in parts. -/
def pipeBuf : ℕ := 4096

/-- A callback frame, as `sl_connect_ncp_poll_cb` passes it on: with an identifier. -/
structure CallbackFrame where
  bytes : List UInt8
  two_le : 2 ≤ bytes.length
  length_le : bytes.length ≤ responseBufferSize

/-- The call of `write` in `sli_connect_ncp_append_callback_command`; `stack` is what the array
`pipe_command` holds before. -/
def sliConnectNcpAppendCallbackCommand (stack : Mem) (callbackCommand : List UInt8) :
    Write UInt8 where
  total := callbackCommand.length + 2
  rest :=
    let pipeCommand := emberStoreHighLowInt16u stack 0 callbackCommand.length.toUInt16
    (pipeCommand.write 2 callbackCommand).read 0 (callbackCommand.length + 2)

/-- A call of `sli_connect_ncp_handle_indication`: the identifier, and the parameters behind the
pointer. -/
structure Call where
  commandId : UInt16
  params : List UInt8
  deriving DecidableEq

/-- The variables of `sl_connect_ncp_handle_pending_callback_commands`. -/
structure Drain where
  pipeBuffer : Mem
  bytesToRead : ℤ
  finger : ℕ

/-- After the `read`. -/
def Drain.start (stack : Mem) (bytes : List UInt8) : Drain := ⟨stack.write 0 bytes, bytes.length, 0⟩

/-- One turn of the loop: the call it makes, and the variables after it. -/
def Drain.turn (d : Drain) : Call × Drain :=
  let commandLength := emberFetchHighLowInt16u d.pipeBuffer d.finger
  let finger := d.finger + 2
  let commandId := emberFetchHighLowInt16u d.pipeBuffer finger
  (⟨commandId, d.pipeBuffer.read (finger + 2) (commandLength.toNat - 2)⟩,
    ⟨d.pipeBuffer, d.bytesToRead - (commandLength.toNat + 2), finger + commandLength.toNat⟩)

/-! ## The two threads -/

/-- The queue, with the frames the poll thread is still to pass on, and the calls made so far. -/
structure Queue where
  incoming : List CallbackFrame
  writing : Option (Write UInt8)
  pipe : Pipe UInt8 pipeCapacity
  drain : Option Drain
  calls : List Call
  exited : Bool

def Queue.init (fs : List CallbackFrame) : Queue := ⟨fs, none, .empty, none, [], false⟩

/-- The atomic steps. -/
inductive Label
  /-- the poll thread calls `write` for the next frame -/
  | append (stack : Mem)
  /-- `k` bytes of the write appear in the pipe -/
  | write (k : ℕ)
  /-- the callback thread reads the pipe -/
  | read (stack : Mem)
  /-- it makes a turn of its loop, or leaves it; `FATAL` exits the process -/
  | turn

/-- **The callback queue, with the poll thread and the callback thread in any order.** -/
def callbackQueue (fs : List CallbackFrame) : System Queue Label Call where
  start q := q = Queue.init fs
  step q l :=
    if q.exited then none
    else match l with
    | .append stack =>
      match q.writing, q.incoming with
      | none, f :: fs => some ({ q with
          incoming := fs
          writing := some (sliConnectNcpAppendCallbackCommand stack f.bytes) }, [])
      | _, _ => none
    | .write k => q.writing.bind fun w => (w.step pipeBuf k q.pipe).map fun (w, p) =>
        ({ q with writing := w, pipe := p }, [])
    | .read stack =>
      if q.drain.isNone then (q.pipe.read maxPipeQueueSize).map fun (bytes, p) =>
        ({ q with pipe := p, drain := some (.start stack bytes) }, [])
      else none
    | .turn => q.drain.map fun d =>
        if 0 < d.bytesToRead then
          let (call, d) := d.turn
          ({ q with
              drain := some d
              calls := q.calls ++ [call]
              exited := d.bytesToRead < 0 }, [call])
        else ({ q with drain := none }, [])

/-- The call a frame is meant for. -/
def CallbackFrame.call (f : CallbackFrame) : Call :=
  ⟨emberFetchHighLowInt16u (Memory.write (fun _ => 0) 0 f.bytes) 0, f.bytes.drop 2⟩

/-- **Every callback is handled once, in order, as it came**: in every state reached the calls made
are those of the first frames, and of all of them where nothing is left; the process never exits. -/
def QueueOk (fs : List CallbackFrame) : Prop :=
  ∀ q, (callbackQueue fs).Reach free q →
    q.exited = false ∧ q.calls <+: fs.map CallbackFrame.call ∧
      (q.incoming = [] → q.writing.isNone → q.pipe.items = [] → q.drain.isNone →
        q.calls = fs.map CallbackFrame.call)

/-! ## Entries -/

/-- Some bytes with their length in front. -/
def entryOf (bytes : List UInt8) : List UInt8 := highLowBytes16 bytes.length.toUInt16 ++ bytes

@[simp] theorem length_entryOf (bytes : List UInt8) : (entryOf bytes).length = bytes.length + 2 := by
  rw [entryOf, List.length_append, length_highLowBytes16, Nat.add_comm]

theorem toNat_length_of_lt {bytes : List UInt8} (h : bytes.length < 65536) :
    bytes.length.toUInt16.toNat = bytes.length := by
  rw [Nat.toUInt16_eq, UInt16.toNat_ofNat']
  exact Nat.mod_eq_of_lt h

/-- The write is that of an entry. -/
theorem append_entryOf (stack : Mem) (bytes : List UInt8) :
    sliConnectNcpAppendCallbackCommand stack bytes = ⟨bytes.length + 2, entryOf bytes⟩ := by
  unfold sliConnectNcpAppendCallbackCommand
  have h := Memory.write_append stack 0 (highLowBytes16 bytes.length.toUInt16) bytes
  have hr := Memory.read_write_same stack 0 (entryOf bytes)
  rw [length_entryOf] at hr
  simp only [emberStoreHighLowInt16u_eq]
  rw [show (2 : ℕ) = 0 + (highLowBytes16 bytes.length.toUInt16).length from rfl, h]
  exact congrArg (Write.mk _) hr

/-- The parts of a whole entry: the length, the bytes, and what follows. -/
theorem parts_of_entry {m : Mem} {a : ℕ} {bytes rest : List UInt8} (hlt : bytes.length < 65536)
    (hr : m.read a (entryOf bytes ++ rest).length = entryOf bytes ++ rest) :
    (emberFetchHighLowInt16u m a).toNat = bytes.length ∧
      m.read (a + 2) bytes.length = bytes ∧
      m.read (a + 2 + bytes.length) rest.length = rest := by
  rw [List.length_append, length_entryOf, entryOf, Nat.add_comm bytes.length 2, Memory.read_add,
    Memory.read_add, List.append_assoc] at hr
  obtain ⟨hlen, hr⟩ := List.append_inj (by simpa only [List.append_assoc] using hr)
    (by rw [Memory.length_read, length_highLowBytes16])
  obtain ⟨hbytes, hrest⟩ := List.append_inj hr (by rw [Memory.length_read])
  refine ⟨?_, hbytes, ?_⟩
  · rw [fetch_of_read16 hlen, toNat_length_of_lt hlt]
  · rw [← Nat.add_assoc] at hrest
    exact hrest

/-- The identifier and the parameters of a frame, where it stands. -/
theorem parts_of_frame {m : Mem} {a : ℕ} {bytes : List UInt8} (h2 : 2 ≤ bytes.length)
    (h : m.read a bytes.length = bytes) :
    highLowBytes16 (emberFetchHighLowInt16u m a) ++ m.read (a + 2) (bytes.length - 2) = bytes := by
  have hsplit : bytes.length = 2 + (bytes.length - 2) := by omega
  rw [read_of_fetch16, ← Memory.read_add, ← hsplit, h]

/-- A frame with its length in front. -/
def CallbackFrame.entry (f : CallbackFrame) : List UInt8 := entryOf f.bytes

theorem CallbackFrame.length_lt (f : CallbackFrame) : f.bytes.length < 65536 :=
  Nat.lt_of_le_of_lt f.length_le (by decide)

theorem CallbackFrame.toNat_length (f : CallbackFrame) :
    f.bytes.length.toUInt16.toNat = f.bytes.length := toNat_length_of_lt f.length_lt

@[simp] theorem CallbackFrame.length_entry (f : CallbackFrame) :
    f.entry.length = f.bytes.length + 2 := length_entryOf f.bytes

theorem append_eq (stack : Mem) (f : CallbackFrame) :
    sliConnectNcpAppendCallbackCommand stack f.bytes = ⟨f.bytes.length + 2, f.entry⟩ :=
  append_entryOf stack f.bytes

/-- The entries of frames, one after the other. -/
def stream (fs : List CallbackFrame) : List UInt8 := fs.flatMap CallbackFrame.entry

@[simp] theorem stream_nil : stream [] = [] := rfl

@[simp] theorem stream_cons (f : CallbackFrame) (fs : List CallbackFrame) :
    stream (f :: fs) = f.entry ++ stream fs := rfl

theorem stream_concat (fs : List CallbackFrame) (f : CallbackFrame) :
    stream (fs ++ [f]) = stream fs ++ f.entry := by
  unfold stream
  rw [List.flatMap_append, List.flatMap_singleton]

theorem length_stream_pos {fs : List CallbackFrame} (h : 0 < (stream fs).length) :
    ∃ f rest, fs = f :: rest := by
  cases fs with
  | nil => cases h
  | cons f rest => exact ⟨f, rest, rfl⟩

/-- The identifier depends on the first two bytes alone. -/
theorem commandId_eq {f : CallbackFrame} {m : Mem} {a : ℕ}
    (h : m.read a f.bytes.length = f.bytes) :
    emberFetchHighLowInt16u m a = f.call.commandId := by
  have h2 := f.two_le
  refine fetch_of_read16 ?_
  rw [CallbackFrame.call, read_of_fetch16, ← Memory.take_read m a _ 2 h2, h,
    ← Memory.take_read _ 0 _ 2 h2, Memory.read_write_same]

/-- **A turn where a whole entry stands.** -/
theorem turn_of_read {d : Drain} {f : CallbackFrame} {rest : List UInt8}
    (hn : d.bytesToRead = (f.entry ++ rest).length)
    (hr : d.pipeBuffer.read d.finger (f.entry ++ rest).length = f.entry ++ rest) :
    d.turn.1 = f.call ∧ d.turn.2.bytesToRead = rest.length ∧
      d.turn.2.pipeBuffer.read d.turn.2.finger rest.length = rest := by
  obtain ⟨m, n, a⟩ := d
  dsimp only at hn hr
  obtain ⟨hlnat, hbytes, hrest⟩ := parts_of_entry f.length_lt hr
  have hparams : m.read (a + 2 + 2) (f.bytes.length - 2) = f.bytes.drop 2 := by
    have hdrop := congrArg (List.drop 2) (parts_of_frame f.two_le hbytes)
    rwa [List.drop_left' (length_highLowBytes16 _)] at hdrop
  have hcall : (Drain.turn ⟨m, n, a⟩).1 = f.call := by
    simp only [Drain.turn, hlnat, commandId_eq hbytes, hparams, CallbackFrame.call]
  refine ⟨hcall, ?_, ?_⟩
  · simp only [Drain.turn, hlnat, hn, List.length_append, f.length_entry]
    omega
  · simp only [Drain.turn, hlnat]
    exact hrest

/-! ## Short frames -/

/-- The buffer holds the entries of these frames, and nothing else is left to go through. -/
def Holds (fs : List CallbackFrame) : Option Drain → Prop
  | none => fs = []
  | some d => d.bytesToRead = (stream fs).length ∧
    d.pipeBuffer.read d.finger (stream fs).length = stream fs

/-- The write in progress is that of these frames, one at most, and it is atomic. -/
def Writes (fs : List CallbackFrame) : Option (Write UInt8) → Prop
  | none => fs = []
  | some w => ∃ f, fs = [f] ∧ w.rest = f.entry ∧ w.total ≤ pipeBuf

/-- **Invariant.** Every frame is in one place: handled, in the buffer, in the pipe, being written,
or still to come; and everywhere the entries are whole. -/
structure QueueInv (fs : List CallbackFrame) (q : Queue)
    (done buffered piped written : List CallbackFrame) : Prop where
  frames : fs = done ++ (buffered ++ (piped ++ (written ++ q.incoming)))
  calls : q.calls = done.map CallbackFrame.call
  buffer : Holds buffered q.drain
  pipe : q.pipe.items = stream piped
  write : Writes written q.writing
  running : q.exited = false

variable {fs : List CallbackFrame} {q q' : Queue} {done buffered piped written : List CallbackFrame}
  {as : List Call}

theorem queueInv_init (fs : List CallbackFrame) : QueueInv fs (Queue.init fs) [] [] [] [] :=
  ⟨rfl, rfl, rfl, rfl, rfl, rfl⟩

theorem queueInv_append {stack : Mem} (hshort : ∀ f ∈ fs, f.bytes.length ≤ 4094)
    (h : QueueInv fs q done buffered piped written)
    (hst : (callbackQueue fs).step q (.append stack) = some (q', as)) :
    ∃ f, QueueInv fs q' done buffered piped [f] := by
  obtain ⟨hfs, hc, hb, hp, hw, hr⟩ := h
  simp only [callbackQueue, hr, Bool.false_eq_true, if_false] at hst
  split at hst
  · rename_i f rest hwn hin
    rw [hwn] at hw
    obtain rfl : written = [] := hw
    simp only [Option.some.injEq, Prod.mk.injEq] at hst
    obtain ⟨rfl, -⟩ := hst
    rw [hin] at hfs
    have hf : f ∈ fs := by rw [hfs]; simp
    refine ⟨f, by rw [hfs]; simp, hc, hb, hp, ⟨f, rfl, ?_, ?_⟩, rfl⟩
    · rw [append_eq]
    · have := hshort f hf
      rw [append_eq]
      show f.bytes.length + 2 ≤ 4096
      omega
  · cases hst

theorem queueInv_write {k : ℕ} (h : QueueInv fs q done buffered piped written)
    (hst : (callbackQueue fs).step q (.write k) = some (q', as)) :
    QueueInv fs q' done buffered (piped ++ written) [] := by
  obtain ⟨hfs, hc, hb, hp, hw, hr⟩ := h
  simp only [callbackQueue, hr, Bool.false_eq_true, if_false, Option.bind_eq_some_iff,
    Option.map_eq_some_iff, Prod.mk.injEq] at hst
  obtain ⟨w, hwn, ⟨w', p⟩, hstep, rfl, -⟩ := hst
  rw [hwn] at hw
  obtain ⟨f, rfl, hrest, htotal⟩ := hw
  obtain ⟨rfl, hitems⟩ := Write.step_atomic htotal hstep
  refine ⟨by rw [hfs]; simp, hc, hb, ?_, rfl, rfl⟩
  rw [stream_concat, ← hp, ← hrest]
  exact hitems

theorem queueInv_read {stack : Mem} (h : QueueInv fs q done buffered piped written)
    (hst : (callbackQueue fs).step q (.read stack) = some (q', as)) :
    QueueInv fs q' done piped [] written := by
  obtain ⟨hfs, hc, hb, hp, hw, hr⟩ := h
  simp only [callbackQueue, hr, Bool.false_eq_true, if_false] at hst
  split_ifs at hst with hd
  simp only [Option.map_eq_some_iff, Prod.mk.injEq] at hst
  obtain ⟨⟨bytes, p⟩, hread, rfl, -⟩ := hst
  -- the buffer is larger than the pipe
  obtain ⟨rfl, rfl⟩ := Pipe.read_all (by decide) hread
  rw [Option.isNone_iff_eq_none.mp hd] at hb
  obtain rfl : buffered = [] := hb
  refine ⟨by rw [hfs]; simp, hc, ⟨?_, ?_⟩, rfl, hw, rfl⟩
  · rw [Drain.start, hp]
  · rw [← hp]
    exact Memory.read_write_same stack 0 q.pipe.items

theorem queueInv_turn (h : QueueInv fs q done buffered piped written)
    (hst : (callbackQueue fs).step q .turn = some (q', as)) :
    ∃ done' buffered', QueueInv fs q' done' buffered' piped written := by
  obtain ⟨hfs, hc, hb, hp, hw, hr⟩ := h
  simp only [callbackQueue, hr, Bool.false_eq_true, if_false, Option.map_eq_some_iff] at hst
  obtain ⟨d, hd, hst⟩ := hst
  rw [hd] at hb
  obtain ⟨hn, hread⟩ := hb
  by_cases hpos : 0 < d.bytesToRead
  · rw [if_pos hpos] at hst
    obtain ⟨f, rest, rfl⟩ := length_stream_pos (by omega : 0 < (stream buffered).length)
    obtain ⟨hcall, hn', hread'⟩ := turn_of_read hn hread
    simp only [Prod.mk.injEq] at hst
    obtain ⟨rfl, -⟩ := hst
    refine ⟨done ++ [f], rest, by rw [hfs]; simp, ?_, ⟨hn', hread'⟩, hp, hw, ?_⟩
    · rw [hcall, hc, List.map_append]
      rfl
    · have hge : ¬ ((stream rest).length : ℤ) < 0 := by omega
      rw [hn']
      exact decide_eq_false hge
  · rw [if_neg hpos] at hst
    simp only [Prod.mk.injEq] at hst
    obtain ⟨rfl, -⟩ := hst
    have hnil : buffered = [] := by
      rcases buffered with _ | ⟨f, rest⟩
      · rfl
      · rw [stream_cons, List.length_append, f.length_entry] at hn
        omega
    exact ⟨done, [], by rw [hfs, hnil], hc, rfl, hp, hw, rfl⟩

theorem queueInv_of_reach (hshort : ∀ f ∈ fs, f.bytes.length ≤ 4094)
    (h : (callbackQueue fs).Reach free q) : ∃ done buffered piped written,
      QueueInv fs q done buffered piped written := by
  refine System.Reach.invariant (I := fun q => ∃ done buffered piped written,
    QueueInv fs q done buffered piped written) (fun q hq => ?_) (fun q l q' as _ hinv _ hst => ?_) h
  · rw [show q = Queue.init fs from hq]
    exact ⟨[], [], [], [], queueInv_init fs⟩
  · obtain ⟨done, buffered, piped, written, hinv⟩ := hinv
    cases l with
    | append stack =>
      obtain ⟨f, hf⟩ := queueInv_append hshort hinv hst
      exact ⟨_, _, _, _, hf⟩
    | write k => exact ⟨_, _, _, _, queueInv_write hinv hst⟩
    | read stack => exact ⟨_, _, _, _, queueInv_read hinv hst⟩
    | turn =>
      obtain ⟨done', buffered', hinv'⟩ := queueInv_turn hinv hst
      exact ⟨_, _, _, _, hinv'⟩

theorem queueOk_of_short (hshort : ∀ f ∈ fs, f.bytes.length ≤ 4094) : QueueOk fs := by
  intro q hq
  obtain ⟨done, buffered, piped, written, hfs, hc, hb, hp, hw, hr⟩ := queueInv_of_reach hshort hq
  refine ⟨hr, ?_, fun hin hwn hpn hdn => ?_⟩
  · rw [hc, hfs, List.map_append]
    exact List.prefix_append _ _
  · rw [Option.isNone_iff_eq_none.mp hdn] at hb
    rw [Option.isNone_iff_eq_none.mp hwn] at hw
    have hpiped : piped = [] := by
      rcases piped with _ | ⟨f, rest⟩
      · rfl
      · have hlen := congrArg List.length (hp.symm.trans hpn)
        rw [stream_cons, List.length_append, f.length_entry] at hlen
        simp at hlen
    rw [hc, hfs, show buffered = [] from hb, hpiped, show written = [] from hw, hin]
    simp

/-! ## Long frames -/

section Steps

variable {rest : List CallbackFrame} {f : CallbackFrame} {w : Write UInt8}
  {p : Pipe UInt8 pipeCapacity} {d : Drain} {calls : List Call}

theorem reach_append {d : Option Drain} (stack : Mem)
    (h : (callbackQueue fs).Reach free ⟨f :: rest, none, p, d, calls, false⟩) :
    (callbackQueue fs).Reach free
      ⟨rest, some ⟨f.bytes.length + 2, f.entry⟩, p, d, calls, false⟩ := by
  have hst : (callbackQueue fs).step ⟨f :: rest, none, p, d, calls, false⟩ (.append stack) =
      some (⟨rest, some ⟨f.bytes.length + 2, f.entry⟩, p, d, calls, false⟩, []) := by
    simp [callbackQueue, append_eq]
  exact h.step trivial hst

theorem reach_write {k : ℕ} {w' : Option (Write UInt8)} {p' : Pipe UInt8 pipeCapacity}
    {d : Option Drain} (hw : w.step pipeBuf k p = some (w', p'))
    (h : (callbackQueue fs).Reach free ⟨rest, some w, p, d, calls, false⟩) :
    (callbackQueue fs).Reach free ⟨rest, w', p', d, calls, false⟩ := by
  have hst : (callbackQueue fs).step ⟨rest, some w, p, d, calls, false⟩ (.write k) =
      some (⟨rest, w', p', d, calls, false⟩, []) := by
    simp [callbackQueue, hw]
  exact h.step trivial hst

/-- The buffer of the callback thread takes the whole pipe. -/
theorem reach_read {w : Option (Write UInt8)} (stack : Mem) (hp : p.items ≠ [])
    (h : (callbackQueue fs).Reach free ⟨rest, w, p, none, calls, false⟩) :
    (callbackQueue fs).Reach free
      ⟨rest, w, .empty, some (.start stack p.items), calls, false⟩ := by
  have hr : p.read maxPipeQueueSize = some (p.items, .empty) := Pipe.read_eq_some (by decide) hp
  have hst : (callbackQueue fs).step ⟨rest, w, p, none, calls, false⟩ (.read stack) =
      some (⟨rest, w, .empty, some (.start stack p.items), calls, false⟩, []) := by
    simp [callbackQueue, hr]
  exact h.step trivial hst

theorem reach_turn {w : Option (Write UInt8)} (hd : 0 < d.bytesToRead)
    (h : (callbackQueue fs).Reach free ⟨rest, w, p, some d, calls, false⟩) :
    (callbackQueue fs).Reach free ⟨rest, w, p, some d.turn.2, calls ++ [d.turn.1],
      d.turn.2.bytesToRead < 0⟩ := by
  have hst : (callbackQueue fs).step ⟨rest, w, p, some d, calls, false⟩ .turn =
      some (⟨rest, w, p, some d.turn.2, calls ++ [d.turn.1], d.turn.2.bytesToRead < 0⟩,
        [d.turn.1]) := by
    simp [callbackQueue, hd]
  exact h.step trivial hst

theorem reach_leave {w : Option (Write UInt8)} (hd : d.bytesToRead = 0)
    (h : (callbackQueue fs).Reach free ⟨rest, w, p, some d, calls, false⟩) :
    (callbackQueue fs).Reach free ⟨rest, w, p, none, calls, false⟩ := by
  have hst : (callbackQueue fs).step ⟨rest, w, p, some d, calls, false⟩ .turn =
      some (⟨rest, w, p, none, calls, false⟩, []) := by
    simp [callbackQueue, hd]
  exact h.step trivial hst

end Steps

theorem CallbackFrame.entry_ne (f : CallbackFrame) : f.entry ≠ [] :=
  List.ne_nil_of_length_pos (by rw [f.length_entry]; omega)

theorem CallbackFrame.length_entry_le (f : CallbackFrame) : f.entry.length ≤ pipeCapacity := by
  have hle : f.bytes.length ≤ 4096 := f.length_le
  rw [f.length_entry, pipeCapacity]
  omega

/-- Frames can be appended, read and handled one after the other. -/
theorem reach_handled (fs : List CallbackFrame) (stack : Mem) (done : List CallbackFrame) :
    ∀ rest, fs = done ++ rest → (callbackQueue fs).Reach free
      ⟨rest, none, .empty, none, done.map CallbackFrame.call, false⟩ := by
  induction done using List.reverseRecOn with
  | nil =>
    rintro rest rfl
    exact .start rfl
  | append_singleton done f ih =>
    intro rest hfs
    have h := reach_append stack (ih (f :: rest) (by rw [hfs]; simp))
    have hw : (Write.mk (f.bytes.length + 2) f.entry).step pipeBuf f.entry.length .empty =
        some (none, ⟨f.entry, f.length_entry_le⟩) :=
      Write.step_all (w := ⟨f.bytes.length + 2, f.entry⟩) f.entry_ne rfl
    replace h := reach_read stack f.entry_ne (reach_write hw h)
    have hpos : 0 < (Drain.start stack f.entry).bytesToRead := by
      show (0 : ℤ) < f.entry.length
      rw [f.length_entry]
      omega
    obtain ⟨hcall, hn, -⟩ : (Drain.start stack f.entry).turn.1 = f.call ∧
        (Drain.start stack f.entry).turn.2.bytesToRead = ([] : List UInt8).length ∧ _ :=
      turn_of_read (by rw [List.append_nil]; rfl)
        (by rw [List.append_nil]; exact Memory.read_write_same stack 0 f.entry)
    replace h := reach_turn hpos h
    rw [hcall, hn] at h
    rw [List.map_append]
    exact reach_leave hn h

/-- The first four bytes of a long entry may be read alone: then the process exits. -/
theorem exits_of_long {f : CallbackFrame} (hf : f ∈ fs) (hlong : 4094 < f.bytes.length) :
    ∃ q, (callbackQueue fs).Reach free q ∧ q.exited = true := by
  obtain ⟨done, rest, rfl⟩ := List.append_of_mem hf
  have stack : Mem := fun _ => 0
  have h := reach_append stack (reach_handled _ stack done (f :: rest) rfl)
  have hlen : (f.entry.take 4).length ≤ pipeCapacity := by
    rw [List.length_take]
    exact Nat.le_trans (Nat.min_le_left _ _) (by decide)
  have hw : (Write.mk (f.bytes.length + 2) f.entry).step pipeBuf 4 .empty =
      some (some ⟨f.bytes.length + 2, f.entry.drop 4⟩, ⟨f.entry.take 4, hlen⟩) := by
    refine Write.step_part ?_ (by decide) ?_ rfl
    · show 4096 < f.bytes.length + 2
      omega
    · show 4 < f.entry.length
      rw [f.length_entry]
      omega
  have htake : (f.entry.take 4).length = 4 := by
    rw [List.length_take, f.length_entry]
    omega
  have hne : f.entry.take 4 ≠ [] := List.ne_nil_of_length_pos (by omega)
  replace h := reach_read stack hne (reach_write hw h)
  set d := Drain.start stack (f.entry.take 4) with hd
  have hn : d.bytesToRead = 4 := congrArg Nat.cast htake
  -- the length stands in the first two bytes
  have hlow : d.pipeBuffer.read 0 2 = highLowBytes16 f.bytes.length.toUInt16 := by
    have hread : d.pipeBuffer.read 0 4 = f.entry.take 4 := by
      have hsame := Memory.read_write_same stack 0 (f.entry.take 4)
      rw [htake] at hsame
      exact hsame
    rw [← Memory.take_read _ 0 4 2 (by decide), hread, List.take_take]
    rfl
  have hl : (emberFetchHighLowInt16u d.pipeBuffer d.finger).toNat = f.bytes.length := by
    rw [hd, Drain.start, ← f.toNat_length]
    exact congrArg _ (fetch_of_read16 hlow)
  refine ⟨_, reach_turn (by omega) h, decide_eq_true ?_⟩
  show d.bytesToRead - ((emberFetchHighLowInt16u d.pipeBuffer d.finger).toNat + 2) < 0
  rw [hl, hn]
  omega

/-- **The callback queue works exactly for the sequences of frames of at most `4094` bytes.** -/
theorem queueOk_iff (fs : List CallbackFrame) : QueueOk fs ↔ ∀ f ∈ fs, f.bytes.length ≤ 4094 := by
  refine ⟨fun h f hf => ?_, queueOk_of_short⟩
  by_contra hlong
  obtain ⟨q, hq, hexit⟩ := exits_of_long hf (by omega)
  cases hexit.symm.trans (h q hq).1

/-- A callback of `4096` bytes, the longest one that is passed on. -/
def longestFrame : CallbackFrame where
  bytes := callbackOrigin :: List.replicate 4095 0
  two_le := by rw [List.length_cons, List.length_replicate]; decide
  length_le := by rw [List.length_cons, List.length_replicate]; decide

/-- **It can end the process**, and then it is not handled. -/
theorem not_queueOk_longestFrame : ¬ QueueOk [longestFrame] ∧
    ∃ q, (callbackQueue [longestFrame]).Reach free q ∧ q.exited = true := by
  have hlong : 4094 < longestFrame.bytes.length := by
    show 4094 < (callbackOrigin :: List.replicate 4095 0).length
    rw [List.length_cons, List.length_replicate]
    decide
  obtain ⟨q, hq, hexit⟩ := exits_of_long (List.mem_cons_self (l := [])) hlong
  refine ⟨fun h => ?_, q, hq, hexit⟩
  cases hexit.symm.trans (h q hq).1

end ConnectNcpHost.HostCommon.CallbackQueue
