import ConnectNcpHost.HostCommon.CallbackQueue
import Mathlib.Data.List.Forall2

/-! # The loop over the callback queue

`sl_connect_ncp_handle_pending_callback_commands`, for whatever the one `read` returns: every entry is
a length of two bytes and as many bytes of a frame. `bytes_to_read` is a machine word here, and the
`size_t` it is decreased by wraps around; the loop ends since the word goes down all the same
(`popEntry_lt`).

* `exec_handlePending`: this is what the callback thread of `callbackQueue` does, turn by turn.
* `drained_frames`: whole entries are handled one by one, and nothing is left.
* `completeOnly_iff`: only whole entries are handled, exactly when nothing else was read. The test for
  missing data comes behind the call. -/

namespace ConnectNcpHost.HostCommon.QueueFraming

open ConnectNcpHost.Lib.Bytes ConnectNcpHost.Lib.Runs ConnectNcpHost.Lib.Pipes
open ConnectNcpHost.Stack.ByteUtilities ConnectNcpHost.HostCommon.CallbackQueue

variable {m : Mem} {finger n : ℕ} {bytesToRead : Int64}

/-! ## The counter -/

/-- `bytes_to_read += -(command_length + sizeof(uint16_t))`: the right side is a `size_t`, and so is
the sum. -/
def popEntry (bytesToRead : Int64) (commandLength : UInt16) : Int64 :=
  (bytesToRead.toUInt64 + -(commandLength.toUInt64 + 2)).toInt64

/-- **The counter is decreased by the size of the entry**, and may go below zero. -/
theorem toInt_popEntry (h : 0 ≤ bytesToRead.toInt) (commandLength : UInt16) :
    (popEntry bytesToRead commandLength).toInt =
      bytesToRead.toInt - (commandLength.toNat + 2) := by
  have hc := commandLength.toNat_lt
  have hb := bytesToRead.toInt_lt
  have hsize : (commandLength.toUInt64 + 2).toNat = commandLength.toNat + 2 := by
    rw [UInt64.toNat_add, UInt16.toNat_toUInt64]
    exact Nat.mod_eq_of_lt (by simp only [UInt64.reduceToNat]; omega)
  have hint : (commandLength.toUInt64 + 2).toBitVec.toInt = commandLength.toNat + 2 := by
    rw [BitVec.toInt_eq_toNat_of_lt (by rw [UInt64.toNat_toBitVec, hsize]; omega),
      UInt64.toNat_toBitVec, hsize]
    rfl
  calc (popEntry bytesToRead commandLength).toInt
      = (bytesToRead.toBitVec + -(commandLength.toUInt64 + 2).toBitVec).toInt := rfl
    _ = (bytesToRead.toInt + (-((commandLength.toNat : ℤ) + 2)).bmod (2 ^ 64)).bmod (2 ^ 64) := by
        rw [BitVec.toInt_add, BitVec.toInt_neg, hint]
        rfl
    _ = (bytesToRead.toInt - (commandLength.toNat + 2)).bmod (2 ^ 64) := by
        rw [Int.add_bmod_bmod, ← Int.sub_eq_add_neg]
    _ = bytesToRead.toInt - (commandLength.toNat + 2) := by
        refine Int.bmod_eq_of_le ?_ ?_ <;> omega

theorem pos_iff : 0 < bytesToRead ↔ 0 < bytesToRead.toInt := Int64.lt_iff_toInt_lt

theorem neg_iff : bytesToRead < 0 ↔ bytesToRead.toInt < 0 := Int64.lt_iff_toInt_lt

theorem toInt_ofNat (h : n ≤ maxPipeQueueSize) : (Int64.ofNat n).toInt = n :=
  Int64.toInt_ofNat_of_lt (Nat.lt_of_le_of_lt h (by decide))

/-- What the termination of the loop rests on. -/
theorem popEntry_lt (h : 0 < bytesToRead) (commandLength : UInt16) :
    (popEntry bytesToRead commandLength).toInt.toNat < bytesToRead.toInt.toNat := by
  have hpos := pos_iff.mp h
  rw [toInt_popEntry (le_of_lt hpos)]
  omega

/-! ## The loop -/

/-- A call of `sli_connect_ncp_handle_indication`: the entry it is made for, and its arguments. -/
structure Dispatch where
  /-- the address of the entry, and the length found there -/
  entry : ℕ
  commandLength : UInt16
  commandId : UInt16
  callbackParams : ℕ
  deriving DecidableEq

/-- What the loop has done: its calls, the counter, and whether `FATAL_ON` has exited the process. -/
structure Drained where
  dispatched : List Dispatch
  bytesToRead : Int64
  fatal : Bool

/-- The call for the entry at `finger`. -/
def dispatchAt (m : Mem) (finger : ℕ) : Dispatch where
  entry := finger
  commandLength := emberFetchHighLowInt16u m finger
  commandId := emberFetchHighLowInt16u m (finger + 2)
  callbackParams := finger + 2 + 2

/-- The loop, from `finger` on. -/
def drain (m : Mem) (finger : ℕ) (bytesToRead : Int64) : Drained :=
  if 0 < bytesToRead then
    let d := dispatchAt m finger
    let left := popEntry bytesToRead d.commandLength
    if left < 0 then ⟨[d], left, true⟩
    else
      let r := drain m (finger + 2 + d.commandLength.toNat) left
      ⟨d :: r.dispatched, r.bytesToRead, r.fatal⟩
  else ⟨[], bytesToRead, false⟩
termination_by bytesToRead.toInt.toNat
decreasing_by exact popEntry_lt ‹_› _

/-- `sl_connect_ncp_handle_pending_callback_commands`, where the `read` has returned `bytes`; `stack`
is what the array `pipe_buffer` holds before. -/
def slConnectNcpHandlePendingCallbackCommands (stack : Mem) (bytes : List UInt8) : Drained :=
  drain (stack.write 0 bytes) 0 (Int64.ofNat bytes.length)

theorem drain_of_not_pos (m : Mem) (finger : ℕ) (h : ¬ 0 < bytesToRead) :
    drain m finger bytesToRead = ⟨[], bytesToRead, false⟩ := by
  rw [drain, if_neg h]

/-- **The call is made before the counter is tested.** -/
theorem drain_of_pos (m : Mem) (finger : ℕ) (h : 0 < bytesToRead) :
    drain m finger bytesToRead =
      if popEntry bytesToRead (dispatchAt m finger).commandLength < 0 then
        ⟨[dispatchAt m finger], popEntry bytesToRead (dispatchAt m finger).commandLength, true⟩
      else
        let r := drain m (finger + 2 + (dispatchAt m finger).commandLength.toNat)
          (popEntry bytesToRead (dispatchAt m finger).commandLength)
        ⟨dispatchAt m finger :: r.dispatched, r.bytesToRead, r.fatal⟩ := by
  rw [drain, if_pos h]

/-- The first entry is handled, whatever it is. -/
theorem dispatchAt_mem (m : Mem) (finger : ℕ) (h : 0 < bytesToRead) :
    dispatchAt m finger ∈ (drain m finger bytesToRead).dispatched := by
  rw [drain_of_pos m finger h]
  split_ifs
  · exact List.mem_cons_self
  · exact List.mem_cons_self

/-! ## The turns of the callback thread -/

/-- The call as the callback thread makes it: the parameters are the bytes behind the pointer, as many
as the length says. -/
def Dispatch.call (m : Mem) (d : Dispatch) : Call :=
  ⟨d.commandId, m.read d.callbackParams (d.commandLength.toNat - 2)⟩

/-- **A turn with the counter as an integer is one with the machine word.** -/
theorem turn_eq {d : Drain} (h : bytesToRead.toInt = d.bytesToRead) (h0 : 0 ≤ bytesToRead.toInt) :
    d.turn = ((dispatchAt d.pipeBuffer d.finger).call d.pipeBuffer,
      { pipeBuffer := d.pipeBuffer
        bytesToRead := (popEntry bytesToRead
          (dispatchAt d.pipeBuffer d.finger).commandLength).toInt
        finger := d.finger + 2 + (dispatchAt d.pipeBuffer d.finger).commandLength.toNat }) := by
  rw [toInt_popEntry h0, h]
  rfl

/-- Where the callback thread stands after the loop: it has made these calls, and has left the loop or
exited the process. -/
structure LeavesLoop (m : Mem) (r : Drained) (q q' : Queue) : Prop where
  calls : q'.calls = q.calls ++ r.dispatched.map (Dispatch.call m)
  exited : q'.exited = r.fatal
  left : r.fatal = false → q'.drain = none
  pipe : q'.pipe = q.pipe

/-- **The turns of the callback thread are the loop.** The induction is on the counter. -/
theorem exec_turns (fs : List CallbackFrame) (k : ℕ) : ∀ {q : Queue} {d : Drain}
    {bytesToRead : Int64}, q.drain = some d → q.exited = false →
    bytesToRead.toInt = d.bytesToRead → bytesToRead.toInt = k →
    ∃ n q', (callbackQueue fs).exec free q (List.replicate n .turn) =
        some (q', (drain d.pipeBuffer d.finger bytesToRead).dispatched.map
          (Dispatch.call d.pipeBuffer)) ∧
      LeavesLoop d.pipeBuffer (drain d.pipeBuffer d.finger bytesToRead) q q' := by
  induction k using Nat.strong_induction_on with
  | _ k ih =>
    intro q d bytesToRead hd hr hb hk
    rcases Nat.eq_zero_or_pos k with rfl | hpos
    · have hstep : (callbackQueue fs).step q .turn = some ({ q with drain := none }, []) := by
        simp only [callbackQueue, hr, Bool.false_eq_true, if_false, hd, Option.map_some, ← hb, hk,
          Nat.cast_zero, lt_irrefl]
      rw [drain_of_not_pos _ _ fun h => absurd (pos_iff.mp h) (by omega)]
      exact ⟨1, _, System.exec_of_step trivial hstep rfl,
        (List.append_nil _).symm, hr, fun _ => rfl, rfl⟩
    · have hword : 0 < bytesToRead := pos_iff.mpr (by omega)
      have h0 : 0 ≤ bytesToRead.toInt := by omega
      set c := dispatchAt d.pipeBuffer d.finger with hc
      have hleft := toInt_popEntry h0 c.commandLength
      set left := popEntry bytesToRead c.commandLength with hl
      let d1 : Drain := ⟨d.pipeBuffer, left.toInt, d.finger + 2 + c.commandLength.toNat⟩
      let q1 : Queue := { q with
        drain := some d1
        calls := q.calls ++ [c.call d.pipeBuffer]
        exited := left.toInt < 0 }
      have hstep : (callbackQueue fs).step q .turn = some (q1, [c.call d.pipeBuffer]) := by
        have hpositive : 0 < d.bytesToRead := by omega
        simp only [callbackQueue, hr, Bool.false_eq_true, if_false, hd, Option.map_some,
          if_pos hpositive, turn_eq hb h0]
        rfl
      rw [drain_of_pos _ _ hword, ← hc, ← hl]
      by_cases hneg : left < 0
      · rw [if_pos hneg]
        refine ⟨1, q1, System.exec_of_step trivial hstep rfl, rfl, ?_, by rintro ⟨⟩, rfl⟩
        exact decide_eq_true (neg_iff.mp hneg)
      · have hnonneg : ¬ left.toInt < 0 := fun h => hneg (neg_iff.mpr h)
        have hdrain : q1.drain = some d1 := rfl
        have hcounter : left.toInt = d1.bytesToRead := rfl
        obtain ⟨n, q', hexec, hleaves⟩ := ih left.toInt.toNat (by omega) hdrain
          (decide_eq_false hnonneg) hcounter (by omega)
        rw [if_neg hneg]
        refine ⟨n + 1, q', System.exec_of_step trivial hstep hexec, ?_, hleaves.exited,
          hleaves.left, hleaves.pipe⟩
        rw [hleaves.calls, List.append_assoc]
        rfl

/-- **The callback thread runs `sl_connect_ncp_handle_pending_callback_commands`**: the read, and the
turns of the loop, make the calls of the function, with the counter a machine word. -/
theorem exec_handlePending (fs : List CallbackFrame) (stack : Mem) {q : Queue} {bytes : List UInt8}
    {p : Pipe UInt8 pipeCapacity} (hr : q.exited = false) (hd : q.drain = none)
    (hread : q.pipe.read maxPipeQueueSize = some (bytes, p)) :
    let r := slConnectNcpHandlePendingCallbackCommands stack bytes
    ∃ n q', (callbackQueue fs).exec free q (.read stack :: List.replicate n .turn) =
        some (q', r.dispatched.map (Dispatch.call (stack.write 0 bytes))) ∧
      LeavesLoop (stack.write 0 bytes) r { q with pipe := p } q' := by
  have hstep : (callbackQueue fs).step q (.read stack) =
      some ({ q with pipe := p, drain := some (.start stack bytes) }, []) := by
    simp only [callbackQueue, hr, hd, Bool.false_eq_true, if_false, Option.isNone_none, if_true, hread,
      Option.map_some]
  have hlength : (Int64.ofNat bytes.length).toInt = bytes.length :=
    toInt_ofNat (Pipe.length_read_le hread)
  obtain ⟨n, q', hexec, hleaves⟩ := exec_turns fs bytes.length
    (q := { q with pipe := p, drain := some (.start stack bytes) }) (d := .start stack bytes)
    rfl hr hlength hlength
  exact ⟨n, q', System.exec_of_step trivial hstep hexec, hleaves.calls, hleaves.exited,
    hleaves.left, hleaves.pipe⟩

/-! ## Whole entries -/

/-- A frame that a length can describe. -/
structure Frame where
  bytes : List UInt8
  two_le : 2 ≤ bytes.length
  length_lt : bytes.length < 65536

/-- The entries of frames, one after the other. -/
def entries (fs : List Frame) : List UInt8 := fs.flatMap fun f => entryOf f.bytes

@[simp] theorem entries_nil : entries [] = [] := rfl

@[simp] theorem entries_cons (f : Frame) (fs : List Frame) :
    entries (f :: fs) = entryOf f.bytes ++ entries fs := rfl

/-- The call is the one a frame is meant for: its first two bytes are the identifier, and the pointer
leads to the remaining ones. -/
def Dispatch.Carries (m : Mem) (d : Dispatch) (f : Frame) : Prop :=
  highLowBytes16 d.commandId ++ m.read d.callbackParams (f.bytes.length - 2) = f.bytes

/-- The length, the identifier and the bytes that are declared lie inside the first `n` bytes. -/
def Dispatch.Inside (n : ℕ) (d : Dispatch) : Prop :=
  2 ≤ d.commandLength.toNat ∧ d.entry + 2 + d.commandLength.toNat ≤ n

/-- **Whole entries are handled one by one**, and nothing is left. -/
theorem drain_entries : ∀ {fs : List Frame} {finger : ℕ} {bytesToRead : Int64},
    m.read finger (entries fs).length = entries fs →
    bytesToRead.toInt = (entries fs).length →
    List.Forall₂ (Dispatch.Carries m) (drain m finger bytesToRead).dispatched fs ∧
      (∀ d ∈ (drain m finger bytesToRead).dispatched, d.Inside (finger + (entries fs).length)) ∧
      (drain m finger bytesToRead).bytesToRead = 0 ∧ (drain m finger bytesToRead).fatal = false
  | [], finger, bytesToRead, _, hn => by
    have hzero : bytesToRead = 0 := Int64.toInt_inj.mp hn
    rw [drain_of_not_pos m finger (by rw [hzero]; decide)]
    exact ⟨.nil, by simp, hzero, rfl⟩
  | f :: fs, finger, bytesToRead, hread, hn => by
    obtain ⟨hlen, hbytes, hrest⟩ := parts_of_entry f.length_lt hread
    have h2 := f.two_le
    have htotal : (entries (f :: fs)).length = f.bytes.length + 2 + (entries fs).length := by
      rw [entries_cons, List.length_append, length_entryOf]
    have hpos : 0 < bytesToRead := pos_iff.mpr (by omega)
    have hd : (dispatchAt m finger).commandLength.toNat = f.bytes.length := hlen
    have hleft : (popEntry bytesToRead (dispatchAt m finger).commandLength).toInt =
        (entries fs).length := by
      rw [toInt_popEntry (by omega), hd]
      omega
    obtain ⟨hcarries, hinside, hzero, hfatal⟩ := drain_entries hrest hleft
    rw [drain_of_pos m finger hpos, if_neg (fun h => absurd (neg_iff.mp h) (by omega)), hd]
    refine ⟨.cons (parts_of_frame h2 hbytes) hcarries, ?_, hzero, hfatal⟩
    intro d hmem
    rcases List.mem_cons.mp hmem with rfl | hmem
    · refine ⟨by rw [hd]; exact h2, ?_⟩
      rw [hd, htotal]
      show finger + 2 + f.bytes.length ≤ _
      omega
    · have := hinside d hmem
      rw [htotal, show finger + (f.bytes.length + 2 + (entries fs).length) =
        finger + 2 + f.bytes.length + (entries fs).length by omega]
      exact this

/-- What is written for frames, whatever the arrays `pipe_command` held before. -/
theorem flatMap_append (written : List (Mem × Frame)) :
    (written.flatMap fun w => (sliConnectNcpAppendCallbackCommand w.1 w.2.bytes).rest) =
      entries (written.map Prod.snd) := by
  rw [entries, List.flatMap_map]
  refine congrArg (List.flatMap · written) (funext fun w => ?_)
  rw [append_entryOf]

theorem length_entries (fs : List Frame) :
    (entries fs).length = (fs.map fun f => f.bytes.length + 2).sum := by
  induction fs with
  | nil => rfl
  | cons f fs ih =>
    rw [entries_cons, List.length_append, length_entryOf, ih, List.map_cons, List.sum_cons]

/-- **Round trip**: frames that were appended, and are read at once, are handled one by one, in order;
the loop ends with no byte left, and without `FATAL`. -/
theorem drained_frames (stack : Mem) (written : List (Mem × Frame))
    (h : (written.map fun w => w.2.bytes.length + 2).sum ≤ maxPipeQueueSize) :
    let bytes := written.flatMap fun w => (sliConnectNcpAppendCallbackCommand w.1 w.2.bytes).rest
    let drained := slConnectNcpHandlePendingCallbackCommands stack bytes
    List.Forall₂ (Dispatch.Carries (stack.write 0 bytes)) drained.dispatched
        (written.map Prod.snd) ∧
      drained.bytesToRead = 0 ∧ drained.fatal = false := by
  have hlen : (entries (written.map Prod.snd)).length ≤ maxPipeQueueSize := by
    rw [length_entries, List.map_map]
    exact h
  dsimp only
  rw [flatMap_append]
  obtain ⟨hcarries, -, hzero, hfatal⟩ := drain_entries
    (Memory.read_write_same stack 0 (entries (written.map Prod.snd))) (toInt_ofNat hlen)
  exact ⟨hcarries, hzero, hfatal⟩

/-- Two frames, the second of which looks like a length. -/
def shortFrames : List (Mem × Frame) :=
  [(fun _ => 0, ⟨[0x63, 0x01], by decide, by decide⟩),
    (fun _ => 0xFF, ⟨[0x00, 0x02, 0x09], by decide, by decide⟩)]

theorem drained_frames_short :
    let bytes := shortFrames.flatMap fun w =>
      (sliConnectNcpAppendCallbackCommand w.1 w.2.bytes).rest
    let drained := slConnectNcpHandlePendingCallbackCommands (fun _ => 0xFF) bytes
    List.Forall₂ (Dispatch.Carries (Memory.write (fun _ => 0xFF) 0 bytes)) drained.dispatched
        (shortFrames.map Prod.snd) ∧
      drained.bytesToRead = 0 ∧ drained.fatal = false :=
  drained_frames (fun _ => 0xFF) shortFrames (by decide)

/-! ## Anything else -/

/-- What the `read` may return. -/
structure PipeRead where
  bytes : List UInt8
  length_le : bytes.length ≤ maxPipeQueueSize

/-- **Incomplete entries are never executed.** -/
structure CompleteOnly (stack : Mem) (r : PipeRead) : Prop where
  /-- a call is made for an entry that was read as a whole, and declares two bytes at least -/
  inside : ∀ d ∈ (slConnectNcpHandlePendingCallbackCommands stack r.bytes).dispatched,
    d.Inside r.bytes.length
  /-- where something else was read, `FATAL_ON` exits the process -/
  fatal : (¬ ∃ fs, r.bytes = entries fs) →
    (slConnectNcpHandlePendingCallbackCommands stack r.bytes).fatal = true

/-- Every memory holds an entry at every address. -/
theorem read_entry (m : Mem) (finger k : ℕ) {c : UInt16}
    (hc : c = emberFetchHighLowInt16u m finger) :
    m.read finger (c.toNat + 2 + k) =
      entryOf (m.read (finger + 2) c.toNat) ++ m.read (finger + 2 + c.toNat) k := by
  have hlength : c.toNat.toUInt16 = c := UInt16.ofNat_toNat
  rw [show c.toNat + 2 + k = 2 + (c.toNat + k) by omega, Memory.read_add, Memory.read_add,
    entryOf, Memory.length_read, hlength, hc, read_of_fetch16, List.append_assoc]

/-- **Where every call is made for a whole entry, nothing but whole entries was read.** The induction
follows the loop. -/
theorem exists_entries (m : Mem) (n : ℕ) : ∀ (k : ℕ) {finger : ℕ} {bytesToRead : Int64},
    bytesToRead.toInt = k → n = finger + k →
    (∀ d ∈ (drain m finger bytesToRead).dispatched, d.Inside n) →
    ∃ fs, m.read finger k = entries fs := by
  intro k
  induction k using Nat.strong_induction_on with
  | _ k ih =>
    intro finger bytesToRead hk hn h
    rcases Nat.eq_zero_or_pos k with rfl | hpos
    · exact ⟨[], rfl⟩
    · have hb : 0 < bytesToRead := pos_iff.mpr (by omega)
      obtain ⟨h2, hin⟩ := h _ (dispatchAt_mem m finger hb)
      set c := (dispatchAt m finger).commandLength with hc
      have hentry : finger + 2 + c.toNat ≤ n := hin
      have hleft : (popEntry bytesToRead c).toInt = (k - (c.toNat + 2) : ℕ) := by
        rw [toInt_popEntry (by omega), hk]
        omega
      rw [drain_of_pos m finger hb, ← hc,
        if_neg (fun h => absurd (neg_iff.mp h) (by omega))] at h
      obtain ⟨fs, hfs⟩ := ih (k - (c.toNat + 2)) (by omega) hleft (by omega)
        fun d hd => h d (List.mem_cons_of_mem _ hd)
      have hread := read_entry m finger (k - (c.toNat + 2)) hc
      rw [hfs, show c.toNat + 2 + (k - (c.toNat + 2)) = k by omega] at hread
      have hlength : (m.read (finger + 2) c.toNat).length = c.toNat := Memory.length_read _ _ _
      exact ⟨⟨m.read (finger + 2) c.toNat, by rw [hlength]; exact h2,
        by rw [hlength]; exact c.toNat_lt⟩ :: fs, hread⟩

theorem entries_of_completeOnly {stack : Mem} {r : PipeRead} (h : CompleteOnly stack r) :
    ∃ fs, r.bytes = entries fs := by
  obtain ⟨fs, hfs⟩ := exists_entries (stack.write 0 r.bytes) r.bytes.length r.bytes.length
    (toInt_ofNat r.length_le) (Nat.zero_add _).symm h.inside
  exact ⟨fs, by rw [← hfs, Memory.read_write_same]⟩

/-- **Incomplete entries are never executed, exactly when none was read.** -/
theorem completeOnly_iff (stack : Mem) (r : PipeRead) :
    CompleteOnly stack r ↔ ∃ fs, r.bytes = entries fs := by
  constructor
  · exact entries_of_completeOnly
  · rintro ⟨fs, hfs⟩
    refine ⟨?_, fun hn => absurd ⟨fs, hfs⟩ hn⟩
    have hread := Memory.read_write_same stack 0 r.bytes
    rw [hfs] at hread
    have hinside := (drain_entries hread (toInt_ofNat (hfs ▸ r.length_le))).2.1
    rw [Nat.zero_add, ← hfs] at hinside
    exact hinside

/-- An entry that was read in part: the length says sixteen bytes, and two are there. -/
def tornEntry : PipeRead := ⟨[0x00, 0x10, 0x63, 0x0A], by decide⟩

/-- **A torn entry is executed**, with fourteen bytes of the stack as parameters. -/
theorem executed_tornEntry : ¬ ∀ (stack : Mem) (r : PipeRead), CompleteOnly stack r := by
  intro h
  have hmem := dispatchAt_mem (Memory.write (fun _ => 0) 0 tornEntry.bytes) 0
    (by decide : 0 < Int64.ofNat tornEntry.bytes.length)
  exact absurd ((h (fun _ => 0) tornEntry).inside _ hmem).2 (by decide)

end ConnectNcpHost.HostCommon.QueueFraming
