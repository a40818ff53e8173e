import ConnectNcpHost.HostCommon.CallbackQueue

/-! # Interlocking of the poll thread and the callback thread

The poll thread blocks in the `write` of a callback while the callback pipe has no room for it, and
only the callback thread makes room. A callback may call a command: then the callback thread waits
for the command mutex and for the token of the response, and only the poll thread writes the token.
`not_deadlock_of_reach` says what keeps the two from waiting for each other; where it fails they do
(`exists_deadlock_of_not_leavesRoom`), and nothing ends it, as the `poll` that times out is followed by
a `read` that blocks again.

The threads are numbered, the callback thread is `0`. The NCP sends any frames. -/

namespace ConnectNcpHost.HostCommon.Interlocking

open ConnectNcpHost.Lib.Bytes ConnectNcpHost.Lib.Runs ConnectNcpHost.Lib.Pipes
open ConnectNcpHost.Stack.ByteUtilities ConnectNcpHost.HostCommon.CpcHost
open ConnectNcpHost.HostCommon.CallbackQueue

/-! ## The threads -/

/-- Where a thread stands in a command. -/
inductive Stage
  | outside
  /-- in `acquireCommandMutex` -/
  | acquiring
  /-- holds the mutex, the command is not sent -/
  | acquired
  /-- in the `poll` of `wait_for_response` -/
  | waiting
  /-- this `poll` has returned 0: `read` waits for the token, and then `FATAL` -/
  | timedOut
  /-- `wait_for_response` has returned -/
  | returned
  deriving DecidableEq

/-- The process, and the frames that `cpc_read_endpoint` is still to return. -/
structure Process where
  link : List CpcFrame
  /-- the poll thread, in the `write` of a callback -/
  writing : Option (Write UInt8)
  callbackPipe : Pipe UInt8 pipeCapacity
  responsePipe : Pipe UInt8 pipeCapacity
  /-- the callback thread, in `sl_connect_ncp_handle_pending_callback_commands` -/
  drain : Option Drain
  /-- the thread that holds the command mutex -/
  lock : Option ℕ
  stage : ℕ → Stage
  exited : Bool

def Process.init : Process := ⟨[], none, .empty, .empty, none, none, fun _ => .outside, false⟩

/-- The thread `n` goes on to a stage. -/
def Process.goto (t : Process) (n : ℕ) (s : Stage) : Process :=
  { t with stage := Function.update t.stage n s }

inductive Label
  /-- the NCP sends a frame -/
  | arrive (f : CpcFrame)
  /-- `sl_connect_ncp_poll_cb` of the poll thread, up to the `write` of a callback -/
  | poll (stack : Mem)
  /-- `k` bytes of this write appear in the callback pipe -/
  | write (k : ℕ)
  /-- the callback thread reads the callback pipe -/
  | read (stack : Mem)
  /-- it calls the next callback, or leaves the loop -/
  | turn
  /-- a thread calls a command -/
  | request (n : ℕ)
  /-- `acquireCommandMutex` returns -/
  | acquire (n : ℕ)
  /-- `cpc_tx` of `sendBlockingCommand` -/
  | send (n : ℕ)
  /-- the `poll` of `wait_for_response` returns 0 -/
  | timeout (n : ℕ)
  /-- the `read` of `wait_for_response` -/
  | readToken (n : ℕ)
  /-- `releaseCommandMutex` -/
  | release (n : ℕ)

/-- A step, while the process runs. -/
def Process.next (t : Process) : Label → Option Process
  | .arrive f => some { t with link := t.link ++ [f] }
  | .poll stack =>
    match t.writing, t.link with
    | none, f :: fs =>
      if f.origin = responseOrigin then
        (t.responsePipe.write [0]).map fun p => { t with link := fs, responsePipe := p }
      else if f.origin = callbackOrigin then
        some { t with
          link := fs
          writing := some (sliConnectNcpAppendCallbackCommand stack f.bytes) }
      else some { t with link := fs, exited := true }
    | _, _ => none
  | .write k => t.writing.bind fun w => (w.step pipeBuf k t.callbackPipe).map fun (w, p) =>
      { t with writing := w, callbackPipe := p }
  | .read stack =>
    if t.stage 0 = .outside ∧ t.drain = none then
      (t.callbackPipe.read maxPipeQueueSize).map fun (bytes, p) =>
        { t with callbackPipe := p, drain := some (.start stack bytes) }
    else none
  | .turn =>
    if t.stage 0 = .outside then t.drain.map fun d =>
      -- the callback has returned before the next turn, and before `FATAL_ON`
      if 0 < d.bytesToRead then { t with drain := some d.turn.2 }
      else if d.bytesToRead < 0 then { t with exited := true }
      else { t with drain := none }
    else none
  | .request n => if t.stage n = .outside then some (t.goto n .acquiring) else none
  | .acquire n =>
    if t.stage n = .acquiring ∧ t.lock = none then
      some { t.goto n .acquired with lock := some n }
    else none
  | .send n => if t.stage n = .acquired then some (t.goto n .waiting) else none
  | .timeout n =>
    if t.stage n = .waiting ∧ t.responsePipe.items = [] then some (t.goto n .timedOut) else none
  | .readToken n =>
    if t.stage n = .waiting then (t.responsePipe.read 1).map fun (_, p) =>
      { t.goto n .returned with responsePipe := p }
    else if t.stage n = .timedOut then (t.responsePipe.read 1).map fun _ =>
      { t with exited := true }
    else none
  | .release n =>
    if t.stage n = .returned then some { t.goto n .outside with lock := none } else none

/-- **The poll thread, the callback thread and the threads that call commands, in any order.** -/
def process : System Process Label Empty where
  start t := t = Process.init
  step t l := if t.exited then none else (t.next l).map fun t' => (t', [])

/-! ## Waiting for each other -/

/-- The thread waits for the token of a response, and there is none. -/
def Waits (t : Process) (n : ℕ) : Prop :=
  (t.stage n = .waiting ∨ t.stage n = .timedOut) ∧ t.responsePipe.items = []

/-- The mutex is held by a thread that waits for a token. -/
def HolderWaits (t : Process) : Prop := ∃ m ∈ t.lock, Waits t m

/-- The callback thread waits for a token, or for the mutex that is held by a thread that does. -/
def HeldUp (t : Process) : Prop := Waits t 0 ∨ t.stage 0 = .acquiring ∧ HolderWaits t

/-- The poll thread is blocked in the `write` of a callback. -/
def PollBlocked (t : Process) : Prop := ∃ w ∈ t.writing, w.Blocked pipeBuf t.callbackPipe

/-- **The poll thread waits for room in the callback pipe, the callback thread for a token.** -/
def Deadlock (t : Process) : Prop := t.exited = false ∧ PollBlocked t ∧ HeldUp t

/-- The callback pipe has room for what the poll thread is writing. -/
def Fits (t : Process) : Prop :=
  ∀ w ∈ t.writing, t.callbackPipe.items.length + w.rest.length ≤ pipeCapacity

/-- **While the callback thread is held up there is room for the callback that is written**: when it
starts to wait, and for each one that the poll thread takes then. -/
def LeavesRoom (t : Process) : Label → Prop
  | .poll _ => HeldUp t → ∀ f ∈ t.link.head?, f.origin = callbackOrigin →
      t.callbackPipe.items.length + (f.bytes.length + 2) ≤ pipeCapacity
  | .request n => n = 0 → HolderWaits t → Fits t
  | .send n => (n = 0 ∨ t.stage 0 = .acquiring) → t.responsePipe.items = [] → Fits t
  | _ => True

instance (t : Process) (n : ℕ) : Decidable (Waits t n) := by unfold Waits; infer_instance

instance (t : Process) : Decidable (HolderWaits t) := by unfold HolderWaits; infer_instance

instance (t : Process) : Decidable (HeldUp t) := by unfold HeldUp; infer_instance

instance (t : Process) : Decidable (Fits t) := by unfold Fits; infer_instance

instance (t : Process) (l : Label) : Decidable (LeavesRoom t l) :=
  match l with
  | .poll _ => inferInstanceAs (Decidable (HeldUp t → ∀ f ∈ t.link.head?,
      f.origin = callbackOrigin →
        t.callbackPipe.items.length + (f.bytes.length + 2) ≤ pipeCapacity))
  | .request n => inferInstanceAs (Decidable (n = 0 → HolderWaits t → Fits t))
  | .send n => inferInstanceAs (Decidable ((n = 0 ∨ t.stage 0 = .acquiring) →
      t.responsePipe.items = [] → Fits t))
  | .arrive _ | .write _ | .read _ | .turn | .acquire _ | .timeout _ | .readToken _ | .release _ =>
    isTrue trivial

/-! ## What a step can do -/

/-- The steps that are enabled. -/
inductive ProcessTrans (t : Process) : Label → Process → Prop
  | arrive (f : CpcFrame) : ProcessTrans t (.arrive f) { t with link := t.link ++ [f] }
  | response {stack : Mem} {f : CpcFrame} {fs : List CpcFrame} {p : Pipe UInt8 pipeCapacity}
      (hw : t.writing = none) (hl : t.link = f :: fs) (ho : f.origin = responseOrigin)
      (hp : p.items = t.responsePipe.items ++ [0]) :
      ProcessTrans t (.poll stack) { t with link := fs, responsePipe := p }
  | append {stack : Mem} {f : CpcFrame} {fs : List CpcFrame} (hw : t.writing = none)
      (hl : t.link = f :: fs) (ho : f.origin = callbackOrigin) :
      ProcessTrans t (.poll stack) { t with
        link := fs
        writing := some (sliConnectNcpAppendCallbackCommand stack f.bytes) }
  | unknown {stack : Mem} {f : CpcFrame} {fs : List CpcFrame} (hw : t.writing = none)
      (hl : t.link = f :: fs) (ho : f.origin ≠ callbackOrigin) :
      ProcessTrans t (.poll stack) { t with link := fs, exited := true }
  | write {k : ℕ} {w : Write UInt8} {w' : Option (Write UInt8)} {p : Pipe UInt8 pipeCapacity}
      (hw : t.writing = some w) (hst : w.step pipeBuf k t.callbackPipe = some (w', p)) :
      ProcessTrans t (.write k) { t with writing := w', callbackPipe := p }
  | read {stack : Mem} {d : Drain} {p : Pipe UInt8 pipeCapacity} (h0 : t.stage 0 = .outside) :
      ProcessTrans t (.read stack) { t with callbackPipe := p, drain := some d }
  | turn {d : Option Drain} (h0 : t.stage 0 = .outside) : ProcessTrans t .turn { t with drain := d }
  | missing (h0 : t.stage 0 = .outside) : ProcessTrans t .turn { t with exited := true }
  | request {n : ℕ} (hn : t.stage n = .outside) :
      ProcessTrans t (.request n) (t.goto n .acquiring)
  | acquire {n : ℕ} (hn : t.stage n = .acquiring) (hl : t.lock = none) :
      ProcessTrans t (.acquire n) { t.goto n .acquired with lock := some n }
  | send {n : ℕ} (hn : t.stage n = .acquired) : ProcessTrans t (.send n) (t.goto n .waiting)
  | timeout {n : ℕ} (hn : t.stage n = .waiting) : ProcessTrans t (.timeout n) (t.goto n .timedOut)
  | readToken {n : ℕ} {p : Pipe UInt8 pipeCapacity} (hn : t.stage n = .waiting)
      (ht : t.responsePipe.items ≠ []) :
      ProcessTrans t (.readToken n) { t.goto n .returned with responsePipe := p }
  | late {n : ℕ} (ht : t.responsePipe.items ≠ []) :
      ProcessTrans t (.readToken n) { t with exited := true }
  | release {n : ℕ} (hn : t.stage n = .returned) :
      ProcessTrans t (.release n) { t.goto n .outside with lock := none }

variable {t t' : Process} {l : Label} {out : List Empty}

theorem processTrans_poll {stack : Mem} (hst : t.next (.poll stack) = some t') :
    ProcessTrans t (.poll stack) t' := by
  simp only [Process.next] at hst
  split at hst
  · next f fs hw hl =>
    by_cases hr : f.origin = responseOrigin
    · rw [if_pos hr, Option.map_eq_some_iff] at hst
      obtain ⟨p, hp, rfl⟩ := hst
      exact .response hw hl hr (Pipe.write_eq_some_iff.mp hp)
    rw [if_neg hr] at hst
    by_cases hc : f.origin = callbackOrigin
    · rw [if_pos hc] at hst
      obtain rfl := Option.some.inj hst
      exact .append hw hl hc
    · rw [if_neg hc] at hst
      obtain rfl := Option.some.inj hst
      exact .unknown hw hl hc
  · cases hst

theorem processTrans_turn (hst : t.next .turn = some t') : ProcessTrans t .turn t' := by
  simp only [Process.next, Option.ite_none_right_eq_some, Option.map_eq_some_iff] at hst
  obtain ⟨h0, d, -, hst⟩ := hst
  split_ifs at hst
  · exact hst ▸ .turn h0
  · exact hst ▸ .missing h0
  · exact hst ▸ .turn h0

theorem processTrans_readToken {n : ℕ} (hst : t.next (.readToken n) = some t') :
    ProcessTrans t (.readToken n) t' := by
  have hne : ∀ {r : List UInt8 × Pipe UInt8 pipeCapacity}, t.responsePipe.read 1 = some r →
      t.responsePipe.items ≠ [] := fun hr => Pipe.ne_nil_of_read hr
  simp only [Process.next] at hst
  split_ifs at hst with hn hn
  · obtain ⟨⟨_, p⟩, hp, rfl⟩ := Option.map_eq_some_iff.mp hst
    exact .readToken hn (hne hp)
  · obtain ⟨r, hr, rfl⟩ := Option.map_eq_some_iff.mp hst
    exact .late (hne hr)

theorem processTrans_next (hst : t.next l = some t') : ProcessTrans t l t' := by
  cases l with
  | poll stack => exact processTrans_poll hst
  | turn => exact processTrans_turn hst
  | readToken n => exact processTrans_readToken hst
  | arrive f =>
    obtain rfl := Option.some.inj hst
    exact .arrive f
  | write k =>
    simp only [Process.next, Option.bind_eq_some_iff, Option.map_eq_some_iff] at hst
    obtain ⟨w, hw, ⟨w', p⟩, hstep, rfl⟩ := hst
    exact .write hw hstep
  | read stack =>
    simp only [Process.next, Option.ite_none_right_eq_some, Option.map_eq_some_iff] at hst
    obtain ⟨⟨h0, -⟩, ⟨bytes, p⟩, -, rfl⟩ := hst
    exact .read h0
  | request n =>
    simp only [Process.next, Option.ite_none_right_eq_some, Option.some.injEq] at hst
    obtain ⟨hn, rfl⟩ := hst
    exact .request hn
  | acquire n =>
    simp only [Process.next, Option.ite_none_right_eq_some, Option.some.injEq] at hst
    obtain ⟨⟨hn, hl⟩, rfl⟩ := hst
    exact .acquire hn hl
  | send n =>
    simp only [Process.next, Option.ite_none_right_eq_some, Option.some.injEq] at hst
    obtain ⟨hn, rfl⟩ := hst
    exact .send hn
  | timeout n =>
    simp only [Process.next, Option.ite_none_right_eq_some, Option.some.injEq] at hst
    obtain ⟨⟨hn, -⟩, rfl⟩ := hst
    exact .timeout hn
  | release n =>
    simp only [Process.next, Option.ite_none_right_eq_some, Option.some.injEq] at hst
    obtain ⟨hn, rfl⟩ := hst
    exact .release hn

theorem processTrans_of_step (hst : process.step t l = some (t', out)) :
    t.exited = false ∧ ProcessTrans t l t' := by
  simp only [process, Option.ite_none_left_eq_some, Option.map_eq_some_iff, Prod.mk.injEq] at hst
  obtain ⟨hr, t1, hnext, rfl, -⟩ := hst
  exact ⟨Bool.not_eq_true _ ▸ hr, processTrans_next hnext⟩

/-! ## Who waits after a step -/

@[simp] theorem Process.stage_goto_self (t : Process) (n : ℕ) (s : Stage) :
    (t.goto n s).stage n = s := Function.update_self _ _ _

theorem Process.stage_goto_of_ne {n k : ℕ} (hk : k ≠ n) (t : Process) (s : Stage) :
    (t.goto n s).stage k = t.stage k := Function.update_of_ne hk _ _

theorem Waits.stage_ne {n : ℕ} {s : Stage} (h : Waits t n) (hw : s ≠ .waiting)
    (ht : s ≠ .timedOut) : t.stage n ≠ s := by
  rintro rfl
  rcases h.1 with h1 | h1
  · exact hw h1
  · exact ht h1

theorem waits_goto_of_ne {n k : ℕ} {s : Stage} (hk : k ≠ n) :
    Waits (t.goto n s) k ↔ Waits t k := by
  unfold Waits
  rw [t.stage_goto_of_ne hk]
  rfl

/-- A thread that goes on to a stage where it does not wait. -/
theorem Waits.of_goto {n k : ℕ} {s : Stage} (h : Waits (t.goto n s) k) (hw : s ≠ .waiting)
    (ht : s ≠ .timedOut) : k ≠ n ∧ Waits t k := by
  have hk : k ≠ n := by
    rintro rfl
    exact h.stage_ne hw ht (t.stage_goto_self k s)
  exact ⟨hk, (waits_goto_of_ne hk).mp h⟩

theorem not_heldUp_of_outside (h : t.stage 0 = .outside) : ¬ HeldUp t := by
  rintro (h0 | ⟨h0, -⟩)
  · exact h0.stage_ne (by decide) (by decide) h
  · rw [h] at h0
    cases h0

theorem not_heldUp_of_token (h : t.responsePipe.items ≠ []) : ¬ HeldUp t := by
  rintro (h0 | ⟨-, m, -, hm⟩)
  · exact h h0.2
  · exact h hm.2

/-- **Invariant.** A thread past `acquireCommandMutex` holds the mutex, and a write in progress has
something left. -/
structure ProcessInv (t : Process) : Prop where
  holder : ∀ n, t.stage n ≠ .outside → t.stage n ≠ .acquiring → t.lock = some n
  rest : ∀ w ∈ t.writing, w.rest ≠ []

theorem ProcessInv.lock_of_stage {n : ℕ} {s : Stage} (h : ProcessInv t) (hn : t.stage n = s)
    (ho : s ≠ .outside) (ha : s ≠ .acquiring) : t.lock = some n := by
  subst hn
  exact h.holder n ho ha

theorem ProcessInv.lock_of_waits {n : ℕ} (h : ProcessInv t) (hw : Waits t n) :
    t.lock = some n :=
  h.holder n (hw.stage_ne (by decide) (by decide)) (hw.stage_ne (by decide) (by decide))

/-- Where a thread holds the mutex and does not wait, the callback thread is not held up. -/
theorem ProcessInv.not_heldUp {n : ℕ} (h : ProcessInv t) (hl : t.lock = some n)
    (hn : ¬ Waits t n) : ¬ HeldUp t := by
  rintro (h0 | ⟨-, m, hm, hw⟩)
  · have hsome := (h.lock_of_waits h0).symm.trans hl
    exact hn (Option.some.inj hsome ▸ h0)
  · exact hn (Option.some.inj ((Option.mem_def.mp hm).symm.trans hl) ▸ hw)

theorem length_append_rest (stack : Mem) (bytes : List UInt8) :
    (sliConnectNcpAppendCallbackCommand stack bytes).rest.length = bytes.length + 2 :=
  Memory.length_read _ _ _

/-- The holder stays the holder while other threads go on, and a thread that holds the mutex may go
on anywhere. -/
theorem ProcessInv.goto {n : ℕ} {s : Stage} (h : ProcessInv t)
    (hs : s = .outside ∨ s = .acquiring ∨ t.lock = some n) : ProcessInv (t.goto n s) where
  holder k ho ha := by
    by_cases hk : k = n
    · subst hk
      rw [t.stage_goto_self] at ho ha
      exact (hs.resolve_left ho).resolve_left ha
    · rw [t.stage_goto_of_ne hk] at ho ha
      exact h.holder k ho ha
  rest := h.rest

theorem processInv_step (h : ProcessInv t) (htr : ProcessTrans t l t') : ProcessInv t' := by
  cases htr with
  | arrive f => exact ⟨h.holder, h.rest⟩
  | response hw' hl ho hp => exact ⟨h.holder, h.rest⟩
  | unknown hw' hl ho => exact ⟨h.holder, h.rest⟩
  | read h0 => exact ⟨h.holder, h.rest⟩
  | turn h0 => exact ⟨h.holder, h.rest⟩
  | missing h0 => exact ⟨h.holder, h.rest⟩
  | late ht => exact ⟨h.holder, h.rest⟩
  | @append stack f fs hw hl ho =>
    refine ⟨h.holder, fun w hw => List.ne_nil_of_length_pos ?_⟩
    obtain rfl := Option.some.inj hw
    rw [length_append_rest]
    omega
  | write hw hst =>
    refine ⟨h.holder, fun w hw' => ?_⟩
    rcases Write.step_eq_some hst with ⟨-, rfl, -⟩ | ⟨-, hk, -, rfl, -⟩
    · cases hw'
    · obtain rfl := Option.some.inj hw'
      refine List.ne_nil_of_length_pos ?_
      rw [List.length_drop]
      omega
  | request hn => exact h.goto (.inr (.inl rfl))
  | send hn => exact h.goto (.inr (.inr (h.lock_of_stage hn (by decide) (by decide))))
  | timeout hn => exact h.goto (.inr (.inr (h.lock_of_stage hn (by decide) (by decide))))
  | readToken hn ht =>
    have hg : ProcessInv (t.goto _ .returned) :=
      h.goto (.inr (.inr (h.lock_of_stage hn (by decide) (by decide))))
    exact ⟨hg.holder, hg.rest⟩
  | @acquire n hn hl =>
    refine ⟨fun k ho ha => ?_, h.rest⟩
    by_cases hk : k = n
    · exact congrArg some hk.symm
    · -- nobody else is past the mutex
      have hstage := t.stage_goto_of_ne hk .acquired
      have hk' := h.holder k (hstage ▸ ho) (hstage ▸ ha)
      cases hl.symm.trans hk'
  | @release n hn =>
    have hln := h.lock_of_stage hn (by decide) (by decide)
    refine ⟨fun k ho ha => ?_, h.rest⟩
    exfalso
    by_cases hk : k = n
    · subst hk
      exact ho (t.stage_goto_self k .outside)
    · have hstage := t.stage_goto_of_ne hk .outside
      have hk' := h.holder k (hstage ▸ ho) (hstage ▸ ha)
      exact hk (Option.some.inj (hk'.symm.trans hln))

theorem processInv_init : ProcessInv Process.init where
  holder n ho := absurd rfl ho
  rest w hw := by cases hw

theorem processInv_of_reach {ok : Process → Label → Prop} (h : process.Reach ok t) :
    ProcessInv t := by
  refine System.Reach.invariant (fun t ht => ?_) (fun t l t' out _ hinv _ hst => ?_) h
  · rw [show t = Process.init from ht]
    exact processInv_init
  · exact processInv_step hinv (processTrans_of_step hst).2

/-! ## Room for the callback -/

theorem fits_poll {stack : Mem} (hroom : HeldUp t → Fits t)
    (hok : LeavesRoom t (.poll stack)) (htr : ProcessTrans t (.poll stack) t') :
    HeldUp t' → Fits t' := by
  cases htr with
  | response hw' hl ho hp =>
    have hne : ∀ {p : Pipe UInt8 pipeCapacity}, p.items = t.responsePipe.items ++ [0] →
        p.items ≠ [] := fun h => by rw [h]; exact List.concat_ne_nil _ _
    exact fun hheld => absurd hheld (not_heldUp_of_token (hne hp))
  | unknown hw' hl ho => exact hroom
  | @append _ f fs hw hl ho =>
    intro hheld w hw
    obtain rfl := Option.some.inj hw
    have hle := hok hheld f (by rw [hl]; rfl) ho
    rw [length_append_rest]
    exact hle

theorem fits_write {k : ℕ} (hroom : HeldUp t → Fits t) (htr : ProcessTrans t (.write k) t') :
    HeldUp t' → Fits t' := by
  cases htr with
  | @write _ w w' p hw hst =>
    intro hheld w1 hw1
    have hle := hroom hheld w hw
    rcases Write.step_eq_some hst with ⟨-, rfl, -⟩ | ⟨-, hk, -, rfl, hq⟩
    · cases hw1
    · obtain rfl := Option.some.inj hw1
      show p.items.length + (w.rest.drop k).length ≤ pipeCapacity
      rw [hq, List.length_append, List.length_take, List.length_drop]
      omega

theorem fits_request {n : ℕ} (hroom : HeldUp t → Fits t) (hok : LeavesRoom t (.request n)) :
    HeldUp (t.goto n .acquiring) → Fits t := by
  have hother : ∀ {k}, Waits (t.goto n .acquiring) k → k ≠ n ∧ Waits t k := fun hw =>
    hw.of_goto (by decide) (by decide)
  rintro (h0 | ⟨h0, m, hm, hw⟩)
  · exact hroom (.inl (hother h0).2)
  · have hholder : HolderWaits t := ⟨m, hm, (hother hw).2⟩
    by_cases h : n = 0
    · exact hok h hholder
    · rw [t.stage_goto_of_ne (Ne.symm h)] at h0
      exact hroom (.inr ⟨h0, hholder⟩)

theorem fits_acquire {n : ℕ} (h : ProcessInv t) (hl : t.lock = none) :
    ¬ HeldUp { t.goto n .acquired with lock := some n } := by
  have hother : ∀ {k}, Waits (t.goto n .acquired) k → k ≠ n ∧ Waits t k := fun hw =>
    hw.of_goto (by decide) (by decide)
  have hnobody : ∀ {k}, ¬ Waits (t.goto n .acquired) k := fun hw => by
    cases hl.symm.trans (h.lock_of_waits (hother hw).2)
  rintro (h0 | ⟨-, m, -, hw⟩)
  · exact hnobody h0
  · exact hnobody hw

theorem fits_send {n : ℕ} (hroom : HeldUp t → Fits t) (hok : LeavesRoom t (.send n)) :
    HeldUp (t.goto n .waiting) → Fits t := by
  by_cases hn : n = 0 ∨ t.stage 0 = .acquiring
  · rintro (h0 | ⟨-, m, -, hw⟩)
    · exact hok hn h0.2
    · exact hok hn hw.2
  · obtain ⟨hn, ha⟩ := not_or.mp hn
    rintro (h0 | ⟨h0, -⟩)
    · exact hroom (.inl ((waits_goto_of_ne (Ne.symm hn)).mp h0))
    · rw [t.stage_goto_of_ne (Ne.symm hn)] at h0
      exact absurd h0 ha

/-- A timeout changes nobody's waiting. -/
theorem waits_timedOut {n k : ℕ} (hn : t.stage n = .waiting) :
    Waits (t.goto n .timedOut) k ↔ Waits t k := by
  by_cases hk : k = n
  · subst hk
    exact ⟨fun h => ⟨.inl hn, h.2⟩, fun h => ⟨.inr (t.stage_goto_self k .timedOut), h.2⟩⟩
  · exact waits_goto_of_ne hk

theorem heldUp_timedOut {n : ℕ} (hn : t.stage n = .waiting) :
    HeldUp (t.goto n .timedOut) ↔ HeldUp t := by
  have hacq : (t.goto n .timedOut).stage 0 = .acquiring ↔ t.stage 0 = .acquiring := by
    by_cases hk : 0 = n
    · subst hk
      rw [t.stage_goto_self, hn]
      simp
    · rw [t.stage_goto_of_ne hk]
  have hholder : HolderWaits (t.goto n .timedOut) ↔ HolderWaits t :=
    exists_congr fun m => and_congr_right fun _ => waits_timedOut hn
  exact or_congr (waits_timedOut hn) (and_congr hacq hholder)

/-- **Invariant.** -/
structure RoomInv (t : Process) : Prop where
  process : ProcessInv t
  room : t.exited = false → HeldUp t → Fits t

theorem roomInv_step (h : RoomInv t) (hok : LeavesRoom t l) (hr : t.exited = false)
    (htr : ProcessTrans t l t') : RoomInv t' := by
  refine ⟨processInv_step h.process htr, fun hr' => ?_⟩
  have hroom := h.room hr
  cases l with
  | poll stack => exact fits_poll hroom hok htr
  | write k => exact fits_write hroom htr
  | arrive f =>
    cases htr
    exact hroom
  | read stack =>
    cases htr with
    | read h0 => exact fun hheld => absurd hheld (not_heldUp_of_outside h0)
  | turn =>
    cases htr with
    | turn h0 => exact fun hheld => absurd hheld (not_heldUp_of_outside h0)
    | missing h0 => cases hr'
  | request n =>
    cases htr
    exact fits_request hroom hok
  | acquire n =>
    cases htr with
    | acquire hn hl => exact fun hheld => absurd hheld (fits_acquire h.process hl)
  | send n =>
    cases htr
    exact fits_send hroom hok
  | timeout n =>
    cases htr with
    | timeout hn => exact fun hheld => hroom ((heldUp_timedOut hn).mp hheld)
  | readToken n =>
    cases htr with
    | late ht => cases hr'
    | readToken hn ht =>
      -- the thread that holds the mutex waits no longer
      intro hheld
      refine absurd hheld ((processInv_step h.process (.readToken hn ht)).not_heldUp
        (h.process.lock_of_stage hn (by decide) (by decide)) fun hw => ?_)
      exact hw.stage_ne (by decide) (by decide) (t.stage_goto_self n .returned)
  | release n =>
    cases htr with
    | release hn =>
      rintro (h0 | ⟨-, m, hm, -⟩)
      · have h1 : Waits (t.goto n .outside) 0 := h0
        exact hroom (.inl (h1.of_goto (by decide) (by decide)).2)
      · cases hm

theorem roomInv_of_reach (h : process.Reach LeavesRoom t) : RoomInv t := by
  refine System.Reach.invariant (fun t ht => ?_) (fun t l t' out _ hinv hok hst => ?_) h
  · rw [show t = Process.init from ht]
    exact ⟨processInv_init, fun _ hheld => absurd hheld (not_heldUp_of_outside rfl)⟩
  · obtain ⟨hr, htr⟩ := processTrans_of_step hst
    exact roomInv_step hinv hok hr htr

/-- **Where the callback that is written always has room while the callback thread is held up, the
two threads never wait for each other.** -/
theorem not_deadlock_of_reach (h : process.Reach LeavesRoom t) : ¬ Deadlock t := by
  rintro ⟨hr, ⟨w, hw, hblocked⟩, hheld⟩
  have hinv := roomInv_of_reach h
  exact Write.not_blocked_of_le (hinv.process.rest w hw) (hinv.room hr hheld w hw) hblocked

/-- `emberChildJoinHandler` -/
def childJoinCallback : CpcFrame := ⟨[0x63, 0x01, 0x05, 0x00, 0x01], by decide, by decide⟩

/-- A callback comes and is written, the callback thread calls it, and it calls a command. -/
def callbackCalls (f : CpcFrame) : List Label :=
  [.arrive f, .poll fun _ => 0, .write (f.bytes.length + 2), .read fun _ => 0, .turn, .request 0,
    .acquire 0, .send 0]

/-- Another callback comes then. -/
theorem not_deadlock_of_reach_callback :
    ∃ t, process.Reach LeavesRoom t ∧ HeldUp t ∧ t.writing.isSome ∧ ¬ Deadlock t := by
  have h0 : process.Reach LeavesRoom Process.init := .start rfl
  obtain ⟨t, ht, hf⟩ := System.exists_reach_of_exec
    (callbackCalls childJoinCallback ++ [.arrive childJoinCallback, .poll fun _ => 0])
    (fun t : Process => (decide (HeldUp t), t.writing.isSome)) (b := (true, true)) h0
    (by decide +kernel)
  simp only [Prod.mk.injEq, decide_eq_true_eq] at hf
  exact ⟨t, ht, hf.1, hf.2, not_deadlock_of_reach ht⟩

/-! ## The deadlock -/

theorem ProcessInv.lock_ne_none (h : ProcessInv t) (hheld : HeldUp t) : t.lock ≠ none := by
  intro hl
  rcases hheld with h0 | ⟨-, m, hm, -⟩
  · cases hl.symm.trans (h.lock_of_waits h0)
  · cases hl.symm.trans hm

/-- A thread that asks for the mutex changes nothing for the others. -/
theorem HeldUp.request {n : ℕ} (h : HeldUp t) (hn : t.stage n = .outside) :
    HeldUp (t.goto n .acquiring) := by
  have hwaits : ∀ {k}, Waits t k → Waits (t.goto n .acquiring) k := by
    intro k hk
    refine (waits_goto_of_ne ?_).mpr hk
    rintro rfl
    exact hk.stage_ne (by decide) (by decide) hn
  have h0n : 0 ≠ n := by
    rintro rfl
    exact not_heldUp_of_outside hn h
  rcases h with h0 | ⟨h0, m, hm, hw⟩
  · exact .inl (hwaits h0)
  · exact .inr ⟨(t.stage_goto_of_ne h0n _).trans h0, m, hm, hwaits hw⟩

theorem Deadlock.step (h : ProcessInv t) (hd : Deadlock t) (htr : ProcessTrans t l t') :
    Deadlock t' := by
  obtain ⟨hr, ⟨w, hw, hblocked⟩, hheld⟩ := hd
  have hempty : t.responsePipe.items = [] := by
    by_contra hne
    exact not_heldUp_of_token hne hheld
  have hwriting : t.writing ≠ none := by
    intro hnone
    cases hnone.symm.trans hw
  -- the thread that holds the mutex waits, and so does nothing else
  have hholder : ∀ {n s}, t.stage n = s → s ≠ .outside → s ≠ .acquiring → Waits t n := by
    intro n s hn ho ha
    by_contra hnw
    exact h.not_heldUp (h.lock_of_stage hn ho ha) hnw hheld
  cases htr with
  | arrive f => exact ⟨hr, ⟨w, hw, hblocked⟩, hheld⟩
  | response hw' hl ho hp => exact absurd hw' hwriting
  | append hw' hl ho => exact absurd hw' hwriting
  | unknown hw' hl ho => exact absurd hw' hwriting
  | write hw' hst =>
    obtain rfl := Option.some.inj ((Option.mem_def.mp hw).symm.trans hw')
    cases (hblocked _).symm.trans hst
  | read h0 => exact absurd hheld (not_heldUp_of_outside h0)
  | turn h0 => exact absurd hheld (not_heldUp_of_outside h0)
  | missing h0 => exact absurd hheld (not_heldUp_of_outside h0)
  | request hn => exact ⟨hr, ⟨w, hw, hblocked⟩, hheld.request hn⟩
  | acquire hn hl => exact absurd hl (h.lock_ne_none hheld)
  | send hn =>
    have hwait := hholder hn (by decide) (by decide)
    exact absurd hn (hwait.stage_ne (by decide) (by decide))
  | timeout hn => exact ⟨hr, ⟨w, hw, hblocked⟩, (heldUp_timedOut hn).mpr hheld⟩
  | readToken hn ht => exact absurd hempty ht
  | late ht => exact absurd hempty ht
  | release hn =>
    have hwait := hholder hn (by decide) (by decide)
    exact absurd hn (hwait.stage_ne (by decide) (by decide))

/-- **A deadlock is for ever.** -/
theorem deadlock_of_deadlock {t0 : Process} (h0 : process.Reach free t0) (hd : Deadlock t0)
    {ls : List Label} (h : process.exec free t0 ls = some (t, out)) : Deadlock t := by
  have hstep : ∀ t l t' out, ProcessInv t ∧ Deadlock t → free t l →
      process.step t l = some (t', out) → ProcessInv t' ∧ Deadlock t' := by
    rintro t l t' out ⟨hinv, hd⟩ - hst
    have htr := (processTrans_of_step hst).2
    exact ⟨processInv_step hinv htr, hd.step hinv htr⟩
  exact (System.exec_invariant hstep ⟨processInv_of_reach h0, hd⟩ h).2

/-- Where the callback thread is held up and there is no room for the callback that is written, the
poll thread blocks. -/
theorem exists_deadlock_of_not_fits (h : process.Reach free t) (hr : t.exited = false)
    (hheld : HeldUp t) (hfits : ¬ Fits t) :
    ∃ t', process.Reach free t' ∧ Deadlock t' ∧ t'.stage = t.stage ∧ t'.link = t.link := by
  unfold Fits at hfits
  push Not at hfits
  obtain ⟨w, hw, hlt⟩ := hfits
  have hblocks : w.Blocked pipeBuf t.callbackPipe ∨ ∃ k w' q,
      w.step pipeBuf k t.callbackPipe = some (some w', q) ∧ w'.Blocked pipeBuf q :=
    Write.exists_blocked hlt
  rcases hblocks with hb | ⟨k, w', q, hst, hb⟩
  · exact ⟨t, h, ⟨hr, ⟨w, hw, hb⟩, hheld⟩, rfl, rfl⟩
  · have hstep : process.step t (.write k) =
        some ({ t with writing := some w', callbackPipe := q }, []) := by
      simp [process, Process.next, hr, Option.mem_def.mp hw, hst]
    exact ⟨_, h.step trivial hstep, ⟨hr, ⟨w', rfl, hb⟩, hheld⟩, rfl, rfl⟩

/-- **A step that leaves no room leads to a deadlock.** -/
theorem exists_deadlock_of_not_leavesRoom (h : process.Reach free t) (hok : ¬ LeavesRoom t l)
    (hst : process.step t l = some (t', out)) :
    ∃ t'', process.Reach free t'' ∧ Deadlock t'' ∧ t''.stage = t'.stage ∧ t''.link = t'.link := by
  have h' : process.Reach free t' := h.step trivial hst
  have hinv := processInv_of_reach h
  obtain ⟨hr, htr⟩ := processTrans_of_step hst
  cases l with
  | poll stack =>
    simp only [LeavesRoom, not_forall] at hok
    obtain ⟨hheld, f, hf, ho, hle⟩ := hok
    have heq : ∀ {g fs}, t.link = g :: fs → g = f := by
      intro g fs hl
      rw [hl] at hf
      exact Option.some.inj hf
    cases htr with
    | response hw hl hr' hp =>
      rw [heq hl] at hr'
      exact absurd (hr'.symm.trans ho) (by decide)
    | unknown hw hl hc =>
      rw [heq hl] at hc
      exact absurd ho hc
    | append hw hl hc =>
      refine exists_deadlock_of_not_fits h' hr hheld fun hfits => hle ?_
      have hlen := hfits _ rfl
      rw [length_append_rest, heq hl] at hlen
      exact hlen
  | request n =>
    simp only [LeavesRoom, not_forall] at hok
    obtain ⟨rfl, ⟨m, hm, hw⟩, hfits⟩ := hok
    cases htr with
    | request hn =>
      refine exists_deadlock_of_not_fits h' hr (.inr ⟨t.stage_goto_self 0 _, m, hm, ?_⟩) hfits
      refine (waits_goto_of_ne ?_).mpr hw
      rintro rfl
      exact hw.stage_ne (by decide) (by decide) hn
  | send n =>
    simp only [LeavesRoom, not_forall] at hok
    obtain ⟨hn0, hempty, hfits⟩ := hok
    cases htr with
    | send hn =>
      have hwait : Waits (t.goto n .waiting) n := ⟨.inl (t.stage_goto_self n _), hempty⟩
      refine exists_deadlock_of_not_fits h' hr ?_ hfits
      by_cases hz : n = 0
      · subst hz
        exact .inl hwait
      · refine .inr ⟨?_, n, hinv.lock_of_stage hn (by decide) (by decide), hwait⟩
        rw [t.stage_goto_of_ne (Ne.symm hz)]
        exact hn0.resolve_left hz
  | arrive _ => exact absurd trivial hok
  | write _ => exact absurd trivial hok
  | read _ => exact absurd trivial hok
  | turn => exact absurd trivial hok
  | acquire _ => exact absurd trivial hok
  | timeout _ => exact absurd trivial hok
  | readToken _ => exact absurd trivial hok
  | release _ => exact absurd trivial hok

/-! ## A burst of callbacks -/

section Burst

variable {f : CpcFrame} {stack : Mem} {p r : Pipe UInt8 pipeCapacity} {d : Option Drain}
  {lock : Option ℕ} {stage : ℕ → Stage}

theorem reach_arrive {link : List CpcFrame} (f : CpcFrame)
    (h : process.Reach free ⟨link, none, p, r, d, lock, stage, false⟩) :
    process.Reach free ⟨link ++ [f], none, p, r, d, lock, stage, false⟩ := by
  have hst : process.step ⟨link, none, p, r, d, lock, stage, false⟩ (.arrive f) =
      some (⟨link ++ [f], none, p, r, d, lock, stage, false⟩, []) := rfl
  exact h.step trivial hst

/-- A callback comes, and there is room for it. -/
theorem reach_callback (stack : Mem) (hf : f.origin = callbackOrigin)
    (hle : p.items.length + (f.bytes.length + 2) ≤ pipeCapacity)
    (h : process.Reach free ⟨[], none, p, r, d, lock, stage, false⟩) :
    ∃ q : Pipe UInt8 pipeCapacity, q.items.length = p.items.length + (f.bytes.length + 2) ∧
      process.Reach free ⟨[], none, q, r, d, lock, stage, false⟩ := by
  set w := sliConnectNcpAppendCallbackCommand stack f.bytes with hw
  have hlen : w.rest.length = f.bytes.length + 2 := length_append_rest stack f.bytes
  have hne : ¬ f.origin = responseOrigin := by
    rw [hf]
    decide
  have hpoll : process.step ⟨[f], none, p, r, d, lock, stage, false⟩ (.poll stack) =
      some (⟨[], some w, p, r, d, lock, stage, false⟩, []) := by
    simp only [process, Process.next, if_neg hne, if_pos hf]
    rfl
  have hroom : (p.items ++ w.rest).length ≤ pipeCapacity := by
    rw [List.length_append, hlen]
    exact hle
  have hstep : w.step pipeBuf w.rest.length p = some (none, ⟨p.items ++ w.rest, hroom⟩) :=
    Write.step_all (List.ne_nil_of_length_pos (by omega)) rfl
  have hwrite : process.step ⟨[], some w, p, r, d, lock, stage, false⟩ (.write w.rest.length) =
      some (⟨[], none, ⟨p.items ++ w.rest, hroom⟩, r, d, lock, stage, false⟩, []) := by
    simp [process, Process.next, hstep]
  refine ⟨⟨p.items ++ w.rest, hroom⟩, ?_,
    ((reach_arrive f h).step trivial hpoll).step trivial hwrite⟩
  rw [List.length_append, hlen]

/-- Callbacks come until the pipe is full. -/
theorem reach_callbacks (stack : Mem) (hf : f.origin = callbackOrigin)
    (h : process.Reach free ⟨[], none, p, r, d, lock, stage, false⟩) :
    ∃ q : Pipe UInt8 pipeCapacity, pipeCapacity < q.items.length + (f.bytes.length + 2) ∧
      process.Reach free ⟨[], none, q, r, d, lock, stage, false⟩ := by
  induction hn : pipeCapacity - p.items.length using Nat.strong_induction_on generalizing p with
  | _ n ih =>
    by_cases hle : p.items.length + (f.bytes.length + 2) ≤ pipeCapacity
    · obtain ⟨q, hq, hreach⟩ := reach_callback stack hf hle h
      exact ih _ (by omega) hreach rfl
    · exact ⟨p, by omega, h⟩

/-- The callback thread reads the pipe and calls a callback, which calls a command. -/
theorem reach_command (stack : Mem) (hp : p.items ≠ [])
    (h : process.Reach free ⟨[], none, p, r, none, none, fun _ => .outside, false⟩) :
    ∃ d stage, stage 0 = .waiting ∧
      process.Reach free ⟨[], none, .empty, r, d, some 0, stage, false⟩ := by
  set d := Drain.start stack p.items with hd
  have hread : p.read maxPipeQueueSize = some (p.items, .empty) := Pipe.read_eq_some (by decide) hp
  have hpos : 0 < d.bytesToRead := by
    have := List.length_pos_iff.mpr hp
    show (0 : ℤ) < p.items.length
    omega
  have h1 : process.step ⟨[], none, p, r, none, none, fun _ => .outside, false⟩ (.read stack) =
      some (⟨[], none, .empty, r, some d, none, fun _ => .outside, false⟩, []) := by
    simp [process, Process.next, hread, hd]
  have h2 : process.step ⟨[], none, .empty, r, some d, none, fun _ => .outside, false⟩ .turn =
      some (⟨[], none, .empty, r, some d.turn.2, none, fun _ => .outside, false⟩, []) := by
    simp [process, Process.next, hpos]
  -- the command: `request`, `acquire`, `send`
  have h3 := ((((h.step trivial h1).step trivial h2).step (i := .request 0) trivial rfl).step
    (i := .acquire 0) trivial rfl).step (i := .send 0) trivial rfl
  exact ⟨_, _, rfl, h3⟩

/-- **A callback that calls a command, and then a burst of callbacks before its answer**: the two
threads wait for each other, and the `poll` of `wait_for_response` has timed out. -/
theorem exists_deadlock_of_burst (hf : f.origin = callbackOrigin) (answer : CpcFrame) :
    ∃ t, process.Reach free t ∧ Deadlock t ∧ t.stage 0 = .timedOut ∧ t.link = [answer] := by
  have stack : Mem := fun _ => 0
  have hfirst : (Pipe.empty : Pipe UInt8 pipeCapacity).items.length + (f.bytes.length + 2) ≤
      pipeCapacity := by
    have := f.length_le
    show 0 + (f.bytes.length + 2) ≤ 65536
    unfold responseBufferSize at this
    omega
  obtain ⟨p, hp, h1⟩ := reach_callback stack hf hfirst (.start rfl)
  obtain ⟨d, stage, hstage, h2⟩ := reach_command stack (List.ne_nil_of_length_pos (by omega)) h1
  obtain ⟨q, hq, h3⟩ := reach_callbacks stack hf h2
  have htimeout : process.step ⟨[], none, q, .empty, d, some 0, stage, false⟩ (.timeout 0) =
      some (⟨[], none, q, .empty, d, some 0, Function.update stage 0 .timedOut, false⟩, []) := by
    simp [process, Process.next, hstage, Process.goto]
  have h4 := reach_arrive answer (reach_arrive f (h3.step trivial htimeout))
  set t : Process :=
    ⟨[f, answer], none, q, .empty, d, some 0, Function.update stage 0 .timedOut, false⟩ with ht
  have hpoll : ∃ t', process.step t (.poll stack) = some (t', []) ∧ t'.stage = t.stage ∧
      t'.link = [answer] := by
    have hne : ¬ f.origin = responseOrigin := by
      rw [hf]
      decide
    simp only [ht, process, Process.next, if_neg hne, if_pos hf]
    exact ⟨_, rfl, rfl, rfl⟩
  obtain ⟨t', hst, hstage', hlink⟩ := hpoll
  have htimed : t.stage 0 = .timedOut := by
    rw [ht]
    exact Function.update_self (0 : ℕ) Stage.timedOut stage
  have hok : ¬ LeavesRoom t (.poll stack) := by
    intro hok
    have hle := hok (.inl ⟨.inr htimed, rfl⟩) f rfl hf
    have hgt : pipeCapacity < t.callbackPipe.items.length + (f.bytes.length + 2) := hq
    omega
  obtain ⟨u, hu, hdead, hus, hul⟩ := exists_deadlock_of_not_leavesRoom h4 hok hst
  refine ⟨u, hu, hdead, ?_, hul.trans hlink⟩
  rw [hus, hstage', htimed]

end Burst

/-- The answer to `emberGetNodeId`. -/
def nodeIdAnswer : CpcFrame := ⟨[0x69, 0x11, 0x00, 0x00], by decide, by decide⟩

/-- **`emberGetNodeId` in `emberChildJoinHandler`**: the answer is the next frame, and is never
read. -/
theorem deadlock_childJoin :
    ∃ t, process.Reach free t ∧ Deadlock t ∧ t.stage 0 = .timedOut ∧ t.link = [nodeIdAnswer] :=
  exists_deadlock_of_burst (f := childJoinCallback) rfl nodeIdAnswer

end ConnectNcpHost.HostCommon.Interlocking
