import ConnectNcpHost.Ota.SentCallbacks
import Mathlib.Logic.Function.Basic

/-! # The threads of the event loop

Every successful `Initiate` creates a thread that runs
`sli_connect_ota_unicast_server_process_events` while the server is not idle. Nothing ends this
thread but its own test of the server's state, and it waits in `poll` on its own timer, while
`timer_fd` names the timer of the thread that started last. A thread whose process was ended by
another thread is still there when the next process starts, and takes part in it (`two_loops`).
Where every earlier thread has left or sleeps for good when a process starts, at most one thread is
able to run the event handler (`oneLoop_of_reach`). -/

namespace ConnectNcpHost.Ota.EventLoops

open ConnectNcpHost.Lib.Runs ConnectNcpHost.Ota.Protocol
open ConnectNcpHost.Ota.BootloaderServer ConnectNcpHost.Ota.Transition ConnectNcpHost.Ota.Frames
open ConnectNcpHost.Ota.Processes

variable {cfg : Config} {s : Server}

/-! ## The model -/

/-- Where a thread stands. -/
inductive Pc
  /-- not created, or returned -/
  | outside
  /-- created, before its first statement -/
  | created
  /-- before the test of the outer `while` -/
  | test
  /-- in `poll`, on its own timer -/
  | polling
  /-- `poll` has returned, before the call of `read` -/
  | polled
  /-- in `read`, on the timer that `timer_fd` named at the call -/
  | reading (k : ℕ)
  /-- before the test of the inner `while` -/
  | inner
  /-- in the event handler, in the call of `emberMessageSend` -/
  | sending (r : Request) (m : EmberOutgoingMessage)

/-- A one-shot timer: an expired one can be read once. -/
inductive Timer
  | silent
  | armed
  | expired
  deriving DecidableEq

/-- `timerfd_settime` disarms with zero and fails with a second or more. -/
def Timer.settime (tvNsec : ℕ) (tm : Timer) : Timer :=
  if tvNsec = 0 then .silent else if tvNsec ≤ 999999999 then .armed else tm

/-- The server and the threads created so far, numbered. A thread creates one timer, which has its
number. -/
structure Loops where
  server : Server
  count : ℕ
  pc : ℕ → Pc
  timer : ℕ → Timer
  timerFd : Option ℕ

namespace Loops

def init : Loops := ⟨Server.init, 0, fun _ => .outside, fun _ => .silent, none⟩

/-- The effect of an action on the timers. -/
def act (t : Loops) : Action → Loops
  | .timerfdSettime tvNsec =>
    match t.timerFd with
    | some k => { t with timer := Function.update t.timer k ((t.timer k).settime tvNsec) }
    | none => t
  | _ => t

def acts (t : Loops) (as : List Action) : Loops := as.foldl act t

/-- The outcome of a function, with its actions carried out. -/
def perform (t : Loops) (o : Outcome) : Loops := { t with server := o.server }.acts o.actions

def goto (t : Loops) (n : ℕ) (pc : Pc) : Loops := { t with pc := Function.update t.pc n pc }

/-- The next atomic step of the thread `n`: `sli_connect_ota_unicast_server_process_events`. -/
def run (cfg : Config) (env : EventEnv) (n : ℕ) (t : Loops) : Option (Loops × List Action) :=
  match t.pc n with
  | .outside => none
  | .created =>
    let o := processEventsStart t.server
    some (({ t.goto n .test with
      timer := Function.update t.timer n .silent
      timerFd := some n }).perform o, o.actions)
  | .test => some (t.goto n (if t.server.serverIsIdle then .outside else .polling), [])
  | .polling => if t.timer n = .expired then some (t.goto n .polled, []) else none
  | .polled => t.timerFd.map fun k => (t.goto n (.reading k), [])
  | .reading k =>
    if t.timer k = .expired then
      some ({ t.goto n .inner with timer := Function.update t.timer k .silent }, [])
    else none
  | .inner =>
    if t.server.otaEventIsActive then
      match SentCallbacks.sendBegin env t.server with
      | some (o, some (r, m)) => some ((t.goto n (.sending r m)).perform o, o.actions)
      | some (o, none) => some (t.perform o, o.actions)
      | none =>
        let o := emAfPluginOtaUnicastBootloaderServerEventHandler cfg env t.server
        some (t.perform o, o.actions)
    else some (t.goto n .test, [])
  | .sending r m =>
    let o := r.sent cfg env.sendStatus t.server
    some ((t.goto n .inner).perform o, .messageSend m env.sendStatus :: o.actions)

end Loops

/-- The two `Initiate` calls, with what they return. -/
def initiate (s : Server) : Input → Option (EmberAfOtaUnicastBootloaderStatus × Outcome)
  | .initiateImageDistribution target imageSize imageTag =>
    some (emberAfPluginOtaUnicastBootloaderServerInitiateImageDistribution target imageSize imageTag s)
  | .initiateRequestTargetBootload bootloadDelayMs imageTag target nowMs =>
    some (emberAfPluginUnicastBootloaderServerInitiateRequestTargetBootload bootloadDelayMs imageTag
      target nowMs s)
  | _ => none

/-- The handlers that run in the callback and the application threads. -/
def runsOutside : Input → Bool
  | .abortCurrentProcess | .incomingMessage _ | .messageSent _ _ => true
  | _ => false

/-- The atomic steps. An `Initiate` call inside a completion callback comes right after the handler
that completes, which does nothing more. -/
inductive Label
  | initiate (i : Input)
  | handler (i : Input)
  /-- the armed timer number `k` expires -/
  | expire (k : ℕ)
  /-- the thread number `n` makes a step -/
  | thread (n : ℕ) (env : EventEnv)

/-- **The server with the threads of its event loop.** -/
def eventLoops (cfg : Config) : System Loops Label Action where
  start t := t = Loops.init
  step t
    | .initiate i => (initiate t.server i).map fun (st, o) =>
      if st = .success then
        ({ t with
            server := o.server
            count := t.count + 1
            pc := Function.update t.pc t.count .created }, o.actions ++ [.returned st])
      else (t, [.returned st])
    | .handler i =>
      if runsOutside i then (handle cfg t.server i).map fun o => (t.perform o, o.actions) else none
    | .expire k =>
      if t.timer k = .armed then
        some ({ t with timer := Function.update t.timer k .expired }, [])
      else none
    | .thread n env => t.run cfg env n

theorem reach_eventLoops_init {ok : Loops → Label → Prop} (cfg : Config) :
    (eventLoops cfg).Reach ok Loops.init := .start rfl

/-! ## Threads that can run the event handler -/

/-- The timer a thread waits for. -/
def Pc.waitsFor (n : ℕ) : Pc → Option ℕ
  | .polling => some n
  | .reading k => some k
  | _ => none

/-- The thread waits for a timer that never expires: only the timer `timer_fd` names is armed. -/
def Stuck (t : Loops) (n : ℕ) : Prop :=
  ∃ k, (t.pc n).waitsFor n = some k ∧ t.timer k = .silent ∧ t.timerFd ≠ some k

/-- The thread is inside the loop, and executes the event handler or is able to. -/
def Able (t : Loops) (n : ℕ) : Prop :=
  t.pc n ≠ .outside ∧ t.pc n ≠ .created ∧ ¬ Stuck t n

/-- **At most one thread executes the event handler or is able to.** -/
def OneLoop (t : Loops) : Prop := ∀ n k, Able t n → Able t k → n = k

/-- The thread has left, or waits for a timer that is not armed. -/
def Over (t : Loops) (n : ℕ) : Prop :=
  match t.pc n with
  | .outside => True
  | pc => (pc.waitsFor n).map t.timer = some .silent

instance (t : Loops) (n : ℕ) : Decidable (Over t n) := by
  unfold Over; split <;> infer_instance

/-- When a process starts, every earlier thread has left or waits for a timer that is not armed. -/
def StartsAlone (t : Loops) : Label → Prop
  | .initiate i => (initiate t.server i).map Prod.fst = some .success → ∀ n < t.count, Over t n
  | _ => True

instance (t : Loops) (l : Label) : Decidable (StartsAlone t l) := by
  cases l <;> unfold StartsAlone <;> infer_instance

theorem over_iff {t : Loops} {n : ℕ} : Over t n ↔
    t.pc n = .outside ∨ ∃ k, (t.pc n).waitsFor n = some k ∧ t.timer k = .silent := by
  unfold Over
  split
  · rename_i h
    exact iff_of_true trivial (.inl h)
  · rename_i h
    rw [Option.map_eq_some_iff]
    exact ⟨fun h' => .inr h', fun h' => h'.resolve_left h⟩

/-! ## The steps -/

/-- The steps of a thread. -/
inductive RunTrans (cfg : Config) (env : EventEnv) (n : ℕ) (t : Loops) :
    Loops → List Action → Prop
  | started (hpc : t.pc n = .created) :
      RunTrans cfg env n t
        (({ t.goto n .test with
          timer := Function.update t.timer n .silent
          timerFd := some n }).perform (processEventsStart t.server))
        (processEventsStart t.server).actions
  | tested (hpc : t.pc n = .test) :
      RunTrans cfg env n t (t.goto n (if t.server.serverIsIdle then .outside else .polling)) []
  | polled (hpc : t.pc n = .polling) (hk : t.timer n = .expired) :
      RunTrans cfg env n t (t.goto n .polled) []
  | readCalled {k : ℕ} (hpc : t.pc n = .polled) (hfd : t.timerFd = some k) :
      RunTrans cfg env n t (t.goto n (.reading k)) []
  | read {k : ℕ} (hpc : t.pc n = .reading k) (hk : t.timer k = .expired) :
      RunTrans cfg env n t { t.goto n .inner with timer := Function.update t.timer k .silent } []
  | innerLeft (hpc : t.pc n = .inner) (ha : ¬ t.server.otaEventIsActive = true) :
      RunTrans cfg env n t (t.goto n .test) []
  | sendCalled {o : Outcome} {r : Request} {m : EmberOutgoingMessage} (hpc : t.pc n = .inner)
      (ha : t.server.otaEventIsActive = true)
      (hb : SentCallbacks.sendBegin env t.server = some (o, some (r, m))) :
      RunTrans cfg env n t ((t.goto n (.sending r m)).perform o) o.actions
  /-- the image-segment callback has no data -/
  | underflow {o : Outcome} (hpc : t.pc n = .inner) (ha : t.server.otaEventIsActive = true)
      (hb : SentCallbacks.sendBegin env t.server = some (o, none)) :
      RunTrans cfg env n t (t.perform o) o.actions
  /-- the event handler submits nothing -/
  | handled {o : Outcome} (hpc : t.pc n = .inner) (ha : t.server.otaEventIsActive = true)
      (hb : SentCallbacks.sendBegin env t.server = none)
      (ho : o = emAfPluginOtaUnicastBootloaderServerEventHandler cfg env t.server) :
      RunTrans cfg env n t (t.perform o) o.actions
  | sent {r : Request} {m : EmberOutgoingMessage} (hpc : t.pc n = .sending r m) :
      RunTrans cfg env n t ((t.goto n .inner).perform (r.sent cfg env.sendStatus t.server))
        (.messageSend m env.sendStatus :: (r.sent cfg env.sendStatus t.server).actions)

theorem runTrans_of_run {n : ℕ} {env : EventEnv} {t t' : Loops} {as : List Action}
    (h : t.run cfg env n = some (t', as)) : RunTrans cfg env n t t' as := by
  unfold Loops.run at h
  split at h
  · cases h
  · next hpc =>
    simp only [Option.some.injEq, Prod.mk.injEq] at h
    obtain ⟨rfl, rfl⟩ := h
    exact .started hpc
  · next hpc =>
    simp only [Option.some.injEq, Prod.mk.injEq] at h
    obtain ⟨rfl, rfl⟩ := h
    exact .tested hpc
  · next hpc =>
    split_ifs at h with hk
    simp only [Option.some.injEq, Prod.mk.injEq] at h
    obtain ⟨rfl, rfl⟩ := h
    exact .polled hpc hk
  · next hpc =>
    simp only [Option.map_eq_some_iff, Prod.mk.injEq] at h
    obtain ⟨k, hfd, rfl, rfl⟩ := h
    exact .readCalled hpc hfd
  · next k hpc =>
    split_ifs at h with hk
    simp only [Option.some.injEq, Prod.mk.injEq] at h
    obtain ⟨rfl, rfl⟩ := h
    exact .read hpc hk
  · next hpc =>
    split_ifs at h with ha
    · split at h
      all_goals
        rename_i hb
        simp only [Option.some.injEq, Prod.mk.injEq] at h
        obtain ⟨rfl, rfl⟩ := h
      · exact .sendCalled hpc ha hb
      · exact .underflow hpc ha hb
      · exact .handled hpc ha hb rfl
    · simp only [Option.some.injEq, Prod.mk.injEq] at h
      obtain ⟨rfl, rfl⟩ := h
      exact .innerLeft hpc ha
  · next hpc =>
    simp only [Option.some.injEq, Prod.mk.injEq] at h
    obtain ⟨rfl, rfl⟩ := h
    exact .sent hpc

/-- The atomic steps. -/
inductive LoopsTrans (cfg : Config) (t : Loops) : Label → Loops → List Action → Prop
  | initiated {i : Input} {o : Outcome} (hi : initiate t.server i = some (.success, o)) :
      LoopsTrans cfg t (.initiate i)
        { t with
          server := o.server
          count := t.count + 1
          pc := Function.update t.pc t.count .created } (o.actions ++ [.returned .success])
  | refused {i : Input} {st : EmberAfOtaUnicastBootloaderStatus} :
      LoopsTrans cfg t (.initiate i) t [.returned st]
  | handled {i : Input} {o : Outcome} (hi : runsOutside i = true)
      (ho : handle cfg t.server i = some o) :
      LoopsTrans cfg t (.handler i) (t.perform o) o.actions
  | expired {k : ℕ} (hk : t.timer k = .armed) :
      LoopsTrans cfg t (.expire k) { t with timer := Function.update t.timer k .expired } []
  | ran {n : ℕ} {env : EventEnv} {t' : Loops} {as : List Action}
      (h : t.run cfg env n = some (t', as)) : LoopsTrans cfg t (.thread n env) t' as

theorem loopsTrans_of_step {l : Label} {t t' : Loops} {as : List Action}
    (h : (eventLoops cfg).step t l = some (t', as)) : LoopsTrans cfg t l t' as := by
  cases l with
  | initiate i =>
    simp only [eventLoops, Option.map_eq_some_iff] at h
    obtain ⟨⟨st, o⟩, hi, h⟩ := h
    by_cases hs : st = .success
    · subst hs
      rw [if_pos rfl] at h
      simp only [Prod.mk.injEq] at h
      obtain ⟨rfl, rfl⟩ := h
      exact .initiated hi
    · rw [if_neg hs] at h
      simp only [Prod.mk.injEq] at h
      obtain ⟨rfl, rfl⟩ := h
      exact .refused
  | handler i =>
    simp only [eventLoops] at h
    split_ifs at h with hi
    simp only [Option.map_eq_some_iff, Prod.mk.injEq] at h
    obtain ⟨o, ho, rfl, rfl⟩ := h
    exact .handled hi ho
  | expire k =>
    simp only [eventLoops] at h
    split_ifs at h with hk
    simp only [Option.some.injEq, Prod.mk.injEq] at h
    obtain ⟨rfl, rfl⟩ := h
    exact .expired hk
  | thread n env => exact .ran h

/-! ## What a step leaves as it was -/

/-- A step at the thread `n`: no other thread moves, and a timer that is not armed stays so unless
`timer_fd` names it. -/
structure Moves (n : ℕ) (t t' : Loops) : Prop where
  fd : t'.timerFd = t.timerFd
  count : t'.count = t.count
  pc : ∀ k, k ≠ n → t'.pc k = t.pc k
  timer : ∀ k, t.timer k = .silent → t.timerFd ≠ some k → t'.timer k = .silent

theorem Moves.trans {n : ℕ} {t t1 t' : Loops} (h : Moves n t t1) (h' : Moves n t1 t') :
    Moves n t t' where
  fd := h'.fd.trans h.fd
  count := h'.count.trans h.count
  pc k hk := (h'.pc k hk).trans (h.pc k hk)
  timer k hs hfd := h'.timer k (h.timer k hs hfd) (by rw [h.fd]; exact hfd)

theorem moves_goto (t : Loops) (n : ℕ) (pc : Pc) : Moves n t (t.goto n pc) where
  fd := rfl
  count := rfl
  pc _ hk := Function.update_of_ne hk _ _
  timer _ hs _ := hs

@[simp] theorem goto_pc_self (t : Loops) (n : ℕ) (pc : Pc) : (t.goto n pc).pc n = pc :=
  Function.update_self _ _ _

theorem act_pc (t : Loops) (a : Action) : (t.act a).pc = t.pc ∧ (t.act a).server = t.server := by
  cases a with
  | timerfdSettime _ => unfold Loops.act; dsimp only; split <;> exact ⟨rfl, rfl⟩
  | _ => exact ⟨rfl, rfl⟩

theorem moves_act (n : ℕ) (t : Loops) (a : Action) : Moves n t (t.act a) := by
  have hrefl : Moves n t t := ⟨rfl, rfl, fun _ _ => rfl, fun _ hs _ => hs⟩
  cases a with
  | timerfdSettime tvNsec =>
    unfold Loops.act
    dsimp only
    split
    · rename_i j hj
      refine ⟨rfl, rfl, fun _ _ => rfl, fun k hs hfd => ?_⟩
      have hkj : k ≠ j := fun he => hfd (he ▸ hj)
      rw [← hs]
      exact Function.update_of_ne hkj _ _
    · exact hrefl
  | _ => exact hrefl

theorem acts_pc (as : List Action) : ∀ t : Loops,
    (t.acts as).pc = t.pc ∧ (t.acts as).server = t.server := by
  induction as with
  | nil => exact fun _ => ⟨rfl, rfl⟩
  | cons a as ih =>
    intro t
    obtain ⟨h1, h2⟩ := ih (t.act a)
    exact ⟨h1.trans (act_pc t a).1, h2.trans (act_pc t a).2⟩

theorem moves_acts (n : ℕ) (as : List Action) : ∀ t : Loops, Moves n t (t.acts as) := by
  induction as with
  | nil => exact fun _ => ⟨rfl, rfl, fun _ _ => rfl, fun _ hs _ => hs⟩
  | cons a as ih => exact fun t => (moves_act n t a).trans (ih (t.act a))

theorem moves_perform (n : ℕ) (t : Loops) (o : Outcome) : Moves n t (t.perform o) :=
  have h := moves_acts n o.actions { t with server := o.server }
  ⟨h.fd, h.count, h.pc, h.timer⟩

@[simp] theorem perform_pc (t : Loops) (o : Outcome) : (t.perform o).pc = t.pc := (acts_pc _ _).1

@[simp] theorem perform_server (t : Loops) (o : Outcome) : (t.perform o).server = o.server :=
  (acts_pc _ _).2

/-- Only the timer that `timer_fd` names is armed. -/
theorem acts_timer {k : ℕ} (as : List Action) : ∀ t : Loops, t.timerFd ≠ some k →
    (t.acts as).timer k = t.timer k := by
  induction as with
  | nil => exact fun _ _ => rfl
  | cons a as ih =>
    intro t hfd
    have hact : (t.act a).timer k = t.timer k := by
      cases a with
      | timerfdSettime tvNsec =>
        unfold Loops.act
        dsimp only
        split
        · rename_i j hj
          have hkj : k ≠ j := fun he => hfd (he ▸ hj)
          exact Function.update_of_ne hkj _ _
        · rfl
      | _ => rfl
    exact (ih (t.act a) (by rw [(moves_act 0 t a).fd]; exact hfd)).trans hact

/-- The created thread `n` has made its first step: from now on `timer_fd` names its timer. -/
structure Started (n : ℕ) (t t' : Loops) : Prop where
  fd : t'.timerFd = some n
  count : t'.count = t.count
  pc : t'.pc = Function.update t.pc n .test
  timer : ∀ k, k ≠ n → t'.timer k = t.timer k

theorem started_of_run {n : ℕ} {env : EventEnv} {t t' : Loops} {as : List Action}
    (hn : t.pc n = .created) (h : t.run cfg env n = some (t', as)) : Started n t t' := by
  unfold Loops.run at h
  rw [hn] at h
  simp only [Option.some.injEq, Prod.mk.injEq] at h
  obtain ⟨rfl, -⟩ := h
  set t1 : Loops := { t.goto n .test with
    timer := Function.update t.timer n .silent
    timerFd := some n }
  have hm := moves_perform n t1 (processEventsStart t.server)
  refine ⟨hm.fd, hm.count, perform_pc _ _, fun k hk => ?_⟩
  have hne : t1.timerFd ≠ some k := fun he => hk (Option.some.inj he).symm
  have hact := acts_timer (processEventsStart t.server).actions
    { t1 with server := (processEventsStart t.server).server } hne
  exact hact.trans (Function.update_of_ne hk _ _)

theorem run_created {n : ℕ} {t : Loops} (env : EventEnv) (hn : t.pc n = .created) :
    ∃ t' as, t.run cfg env n = some (t', as) := by
  unfold Loops.run
  rw [hn]
  exact ⟨_, _, rfl⟩

/-- The thread `n` has made its step to a place of the code. -/
inductive Stepped (n : ℕ) (t t' : Loops) : Prop
  | mk (hm : Moves n t t') (hc : t'.pc n ≠ .created)
      (hr : ∀ k, t'.pc n = .reading k → t.timerFd = some k ∨ t.pc n = .reading k) : Stepped n t t'

theorem stepped_goto {n : ℕ} {t t' : Loops} {pc : Pc} (hm : Moves n (t.goto n pc) t')
    (hpc : t'.pc n = pc) (hc : pc ≠ .created) (hr : ∀ k, pc = .reading k → t.timerFd = some k) :
    Stepped n t t' :=
  .mk ((moves_goto t n pc).trans hm) (hpc ▸ hc) fun k hk => .inl (hr k (hpc.symm.trans hk))

/-- **What a thread does after its start.** -/
theorem stepped_of_run {n : ℕ} {env : EventEnv} {t t' : Loops} {as : List Action}
    (hn : t.pc n ≠ .created) (h : t.run cfg env n = some (t', as)) : Stepped n t t' := by
  have hrefl : ∀ t : Loops, Moves n t t := fun _ => ⟨rfl, rfl, fun _ _ => rfl, fun _ hs _ => hs⟩
  -- the thread stays in the inner loop
  have hstays : ∀ o : Outcome, t.pc n = .inner → Stepped n t (t.perform o) := by
    intro o hpc
    refine .mk (moves_perform n _ _) (by simpa using hn) fun k hk => ?_
    rw [perform_pc, hpc] at hk
    cases hk
  cases runTrans_of_run h with
  | started hpc => exact absurd hpc hn
  | tested _ =>
    refine stepped_goto (hrefl _) (goto_pc_self _ _ _) ?_ ?_
    · split_ifs <;> exact fun h => by cases h
    · split_ifs <;> exact fun _ h => by cases h
  | polled _ _ => exact stepped_goto (hrefl _) (goto_pc_self _ _ _) (by simp) (by simp)
  | readCalled _ hfd =>
    refine stepped_goto (hrefl _) (goto_pc_self _ _ _) (by simp) fun j hj => ?_
    rw [hfd]
    exact congrArg some (Pc.reading.inj hj)
  | @read k _ _ =>
    refine stepped_goto ⟨rfl, rfl, fun _ _ => rfl, fun j hs _ => ?_⟩ (goto_pc_self _ _ _) (by simp)
      (by simp)
    show Function.update t.timer k .silent j = .silent
    by_cases hjk : j = k
    · rw [hjk, Function.update_self]
    · rw [Function.update_of_ne hjk]
      exact hs
  | innerLeft _ _ => exact stepped_goto (hrefl _) (goto_pc_self _ _ _) (by simp) (by simp)
  | sendCalled _ _ _ => exact stepped_goto (moves_perform n _ _) (by simp) (by simp) (by simp)
  | underflow hpc _ _ => exact hstays _ hpc
  | handled hpc _ _ _ => exact hstays _ hpc
  | sent _ => exact stepped_goto (moves_perform n _ _) (by simp) (by simp) (by simp)

/-! ## A server without an event scheduled by another thread -/

/-- No sent callback and no response is awaited. -/
def Calm (s : Server) : Prop :=
  ∀ r : Request, s.internalState ≠ r.pending ∧ s.internalState ≠ r.waiting

/-- Then no handler outside of the event threads touches a timer. -/
theorem calm_of_trans {i : Input} {o : Outcome} (hs : Calm s) (hi : runsOutside i = true)
    (ht : Trans cfg s i o) : Calm o.server ∧ ∀ t : Loops, t.acts o.actions = t := by
  have hidle : Calm (finished s) := fun _ => ⟨idle_ne.2.1, idle_ne.2.2⟩
  cases ht with
  | call ht =>
    cases ht with
    | refused _ _ => exact ⟨hs, fun _ => rfl⟩
    | imageStarted _ _ _ _ => cases hi
    | bootloadStarted _ _ => cases hi
    | @aborted r _ _ => cases r <;> exact ⟨hidle, fun _ => rfl⟩
  | @message m _ ht =>
    have hseg : ¬ AcceptsSegmentResponse s m := fun h =>
      h.state.elim (hs .imageSegment).1 (hs .imageSegment).2
    rw [ht.eq_of_not_waiting (fun r => (hs r).2) hseg]
    exact ⟨hs, fun _ => rfl⟩
  | sent ht =>
    cases ht with
    | ignored _ => exact ⟨hs, fun _ => rfl⟩
    | succeeded _ h _ => exact absurd h (hs _).1
    | failed _ h _ _ _ => exact absurd h (hs _).1
  | timer _ _ => cases hi
  | timerIgnored _ => cases hi
  | event _ _ => cases hi

theorem calm_of_initiate {i : Input} {o : Outcome} (h : initiate s i = some (.success, o)) :
    Calm o.server := by
  cases i with
  | initiateImageDistribution target imageSize imageTag =>
    simp only [initiate, emberAfPluginOtaUnicastBootloaderServerInitiateImageDistribution,
      Option.some.injEq] at h
    split_ifs at h
    · cases h
    · obtain ⟨-, rfl⟩ := Prod.mk.inj h
      exact fun r => ⟨interval_ne_pending .handshake r, interval_ne_waiting .handshake r⟩
    · cases h
  | initiateRequestTargetBootload delay imageTag target nowMs =>
    simp only [initiate, emberAfPluginUnicastBootloaderServerInitiateRequestTargetBootload,
      Option.some.injEq] at h
    split_ifs at h
    · cases h
    · obtain ⟨-, rfl⟩ := Prod.mk.inj h
      exact fun r => ⟨interval_ne_pending .bootloadRequest r, interval_ne_waiting .bootloadRequest r⟩
    · cases h
  | _ => cases h

/-! ## The invariant -/

/-- The thread has left, or waits for good. -/
def Gone (t : Loops) (n : ℕ) : Prop := t.pc n = .outside ∨ Stuck t n

/-- All threads but one are gone, or one was created and the others are over. -/
inductive Phase (t : Loops) : Prop
  | one (n : ℕ) (hn : t.pc n ≠ .created) (hg : ∀ k, k ≠ n → Gone t k)
  | starting (n m : ℕ) (hn : t.pc n = .created) (ho : ∀ k, k ≠ n → Over t k)
      (hg : ∀ k, k ≠ n → k ≠ m → Gone t k) (hs : Calm t.server)

/-- The thread `k` has created its timer. -/
def Used (t : Loops) (k : ℕ) : Prop := k < t.count ∧ t.pc k ≠ .created

/-- **Invariant.** One thread is inside the loop, or about to enter it, and all others are gone. -/
structure LoopsInv (t : Loops) : Prop where
  fresh : ∀ k, t.count ≤ k → t.pc k = .outside
  fd : ∀ k, t.timerFd = some k → Used t k
  reads : ∀ n k, t.pc n = .reading k → Used t k
  phase : Phase t

variable {t t' : Loops} {as : List Action}

theorem Gone.over {n : ℕ} (h : Gone t n) : Over t n :=
  over_iff.mpr (h.imp_right fun ⟨k, hk, hs, _⟩ => ⟨k, hk, hs⟩)

theorem not_over_of_created {n : ℕ} (h : t.pc n = .created) : ¬ Over t n := by
  rw [over_iff, h]
  rintro (h | ⟨k, h, -⟩) <;> cases h

theorem LoopsInv.lt_count {n : ℕ} (h : LoopsInv t) (hn : t.pc n ≠ .outside) : n < t.count := by
  by_contra hge
  exact hn (h.fresh n (by omega))

/-- A process that starts alone finds all threads over. -/
theorem LoopsInv.over {i : Input} {o : Outcome} (h : LoopsInv t)
    (hi : initiate t.server i = some (.success, o)) (hok : StartsAlone t (.initiate i)) (k : ℕ) :
    Over t k := by
  by_cases hk : k < t.count
  · exact hok (by rw [hi]; rfl) k hk
  · exact over_iff.mpr (.inl (h.fresh k (by omega)))

/-- While a thread is still to start, the others are over. -/
theorem Phase.of_created {n : ℕ} (h : Phase t) (hn : t.pc n = .created) :
    (∀ k, k ≠ n → Over t k) ∧ Calm t.server := by
  cases h with
  | one n' hn' hg =>
    by_cases hnn : n = n'
    · exact absurd (hnn ▸ hn) hn'
    · exact absurd (hg n hnn).over (not_over_of_created hn)
  | starting n' _ _ ho _ hs =>
    obtain rfl : n = n' := by
      by_contra hnn
      exact not_over_of_created hn (ho n hnn)
    exact ⟨ho, hs⟩

/-- A thread that is over makes no step. -/
theorem run_eq_none {n : ℕ} {env : EventEnv} (h : Over t n) : t.run cfg env n = none := by
  unfold Loops.run
  rcases over_iff.mp h with h | ⟨k, hk, hs⟩
  · rw [h]
  · cases hpc : t.pc n with
    | polling =>
      rw [hpc] at hk
      obtain rfl := Option.some.inj hk
      exact if_neg (by rw [hs]; decide)
    | reading j =>
      rw [hpc] at hk
      obtain rfl := Option.some.inj hk
      exact if_neg (by rw [hs]; decide)
    | _ => simp [hpc, Pc.waitsFor] at hk

theorem Gone.moves {n k : ℕ} (h : Gone t k) (hk : k ≠ n) (hm : Moves n t t') : Gone t' k := by
  have hpc := hm.pc k hk
  rcases h with h | ⟨j, hj, hs, hfd⟩
  · exact .inl (hpc.trans h)
  · exact .inr ⟨j, by rw [hpc]; exact hj, hm.timer j hs hfd, by rw [hm.fd]; exact hfd⟩

/-- Where only the server changes and timers that are not armed stay so. -/
theorem Over.kept {k : ℕ} (h : Over t k) (hpc : t'.pc k = t.pc k)
    (ht : ∀ j, t.timer j = .silent → t'.timer j = .silent) : Over t' k := by
  rw [over_iff, hpc]
  exact (over_iff.mp h).imp_right fun ⟨j, hj, hs⟩ => ⟨j, hj, ht j hs⟩

theorem Used.moves {n k : ℕ} (h : Used t k) (hm : Moves n t t') (hn : t'.pc n ≠ .created) :
    Used t' k := by
  refine ⟨by rw [hm.count]; exact h.1, ?_⟩
  by_cases hk : k = n
  · rw [hk]
    exact hn
  · rw [hm.pc k hk]
    exact h.2

/-- A step of the one thread that is not gone, or of none. -/
theorem LoopsInv.stepped {n : ℕ} (h : LoopsInv t) (hg : ∀ k, k ≠ n → Gone t k) (hn : n < t.count)
    (hst : Stepped n t t') : LoopsInv t' := by
  obtain ⟨hm, hc, hr⟩ := hst
  refine ⟨fun k hk => ?_, fun k hk => ?_, fun k j hk => ?_, .one n hc fun k hk => (hg k hk).moves hk hm⟩
  · rw [hm.count] at hk
    rw [hm.pc k (by omega)]
    exact h.fresh k hk
  · rw [hm.fd] at hk
    exact (h.fd k hk).moves hm hc
  · by_cases hkn : k = n
    · subst hkn
      rcases hr j hk with hj | hj
      · exact (h.fd j hj).moves hm hc
      · exact (h.reads k j hj).moves hm hc
    · rw [hm.pc k hkn] at hk
      exact (h.reads k j hk).moves hm hc

/-- A step that moves no thread. -/
theorem LoopsInv.unmoved (h : LoopsInv t) (hpc : t'.pc = t.pc) (hm : ∀ n, Moves n t t')
    (hs : ∀ n, t.pc n = .created → (∀ j, t.timer j = .silent → t'.timer j = .silent) ∧
      Calm t'.server) : LoopsInv t' := by
  have hused : ∀ k, Used t k → Used t' k := fun k hk =>
    ⟨by rw [(hm 0).count]; exact hk.1, by rw [hpc]; exact hk.2⟩
  refine ⟨fun k hk => ?_, fun k hk => ?_, fun n k hk => ?_, ?_⟩
  · rw [hpc]
    exact h.fresh k (by rw [← (hm 0).count]; exact hk)
  · exact hused k (h.fd k (by rw [← (hm 0).fd]; exact hk))
  · exact hused k (h.reads n k (by rw [← hpc]; exact hk))
  · cases h.phase with
    | one n hn hg => exact .one n (by rw [hpc]; exact hn) fun k hk => (hg k hk).moves hk (hm n)
    | starting n m hn ho hg _ =>
      obtain ⟨ht, hcalm⟩ := hs n hn
      exact .starting n m (by rw [hpc]; exact hn)
        (fun k hk => (ho k hk).kept (by rw [hpc]) ht)
        (fun k hk hkm => (hg k hk hkm).moves hk (hm n)) hcalm

/-! ### The steps -/

theorem loopsInv_initiate {i : Input} {o : Outcome} (h : LoopsInv t)
    (hi : initiate t.server i = some (.success, o)) (hok : StartsAlone t (.initiate i)) :
    LoopsInv { t with
      server := o.server
      count := t.count + 1
      pc := Function.update t.pc t.count .created } := by
  have hover := h.over hi hok
  have hpc : ∀ k, k ≠ t.count → Function.update t.pc t.count .created k = t.pc k :=
    fun k hk => Function.update_of_ne hk _ _
  have hused : ∀ k, Used t k → Used { t with
      server := o.server
      count := t.count + 1
      pc := Function.update t.pc t.count .created } k := by
    rintro k ⟨hlt, hc⟩
    refine ⟨Nat.lt_succ_of_lt hlt, ?_⟩
    show Function.update t.pc t.count .created k ≠ .created
    rw [hpc k (by omega)]
    exact hc
  refine ⟨fun k hk => ?_, fun k hk => hused k (h.fd k hk), fun n k hk => ?_, ?_⟩
  · show Function.update t.pc t.count .created k = .outside
    have hk' : t.count + 1 ≤ k := hk
    rw [hpc k (by omega)]
    exact h.fresh k (by omega)
  · change Function.update t.pc t.count .created n = .reading k at hk
    by_cases hn : n = t.count
    · rw [hn, Function.update_self] at hk
      cases hk
    · rw [hpc n hn] at hk
      exact hused k (h.reads n k hk)
  · cases h.phase with
    | starting n _ hn _ _ _ => exact absurd (hover n) (not_over_of_created hn)
    | one n hn hg =>
      refine .starting t.count n (Function.update_self _ _ _) (fun k hk => ?_) (fun k hk hkn => ?_)
        (calm_of_initiate hi)
      · exact (hover k).kept (hpc k hk) fun _ hs => hs
      · refine (hg k hkn).imp (fun hk' => (hpc k hk).trans hk') ?_
        rintro ⟨j, hj, hs⟩
        exact ⟨j, by rw [← hj]; exact congrArg _ (hpc k hk), hs⟩

theorem loopsInv_handler {i : Input} {o : Outcome} (h : LoopsInv t) (hi : runsOutside i = true)
    (ht : Trans cfg t.server i o) : LoopsInv (t.perform o) := by
  refine h.unmoved (perform_pc t o) (fun n => moves_perform n t o) fun n hn => ?_
  obtain ⟨hcalm, hacts⟩ := calm_of_trans (h.phase.of_created hn).2 hi ht
  refine ⟨fun j hj => ?_, by rw [perform_server]; exact hcalm⟩
  rw [Loops.perform, hacts]
  exact hj

theorem loopsInv_expire {k : ℕ} (h : LoopsInv t) (hk : t.timer k = .armed) :
    LoopsInv { t with timer := Function.update t.timer k .expired } := by
  have hsilent : ∀ j, t.timer j = .silent → Function.update t.timer k .expired j = .silent := by
    intro j hj
    have hjk : j ≠ k := by
      rintro rfl
      cases hj.symm.trans hk
    rw [Function.update_of_ne hjk]
    exact hj
  exact h.unmoved rfl (fun n => ⟨rfl, rfl, fun _ _ => rfl, fun j hj _ => hsilent j hj⟩)
    fun n hn => ⟨hsilent, (h.phase.of_created hn).2⟩

/-- The start of the thread that was created: whoever waits for another timer waits for good. -/
theorem loopsInv_start {n : ℕ} {env : EventEnv} (h : LoopsInv t) (hn : t.pc n = .created)
    (hst : t.run cfg env n = some (t', as)) : LoopsInv t' := by
  have hlt : n < t.count := h.lt_count (by rw [hn]; exact nofun)
  obtain ⟨ho, -⟩ := h.phase.of_created hn
  obtain ⟨hfd, hcount, hpc, htimer⟩ := started_of_run hn hst
  have hpcn : t'.pc n = .test := by rw [hpc, Function.update_self]
  have hpck : ∀ k, k ≠ n → t'.pc k = t.pc k := fun k hk => by rw [hpc, Function.update_of_ne hk]
  have hused : ∀ k, Used t k → Used t' k := by
    rintro k ⟨hk, hc⟩
    have hkn : k ≠ n := fun he => hc (he ▸ hn)
    exact ⟨by rw [hcount]; exact hk, by rw [hpck k hkn]; exact hc⟩
  refine ⟨fun k hk => ?_, fun k hk => ?_, fun m k hk => ?_, .one n (by rw [hpcn]; simp) fun k hk => ?_⟩
  · rw [hcount] at hk
    rw [hpck k (by omega)]
    exact h.fresh k hk
  · obtain rfl : n = k := Option.some.inj (hfd.symm.trans hk)
    exact ⟨by rw [hcount]; exact hlt, by rw [hpcn]; simp⟩
  · by_cases hmn : m = n
    · rw [hmn, hpcn] at hk
      cases hk
    · rw [hpck m hmn] at hk
      exact hused k (h.reads m k hk)
  · rcases over_iff.mp (ho k hk) with hout | ⟨j, hj, hs⟩
    · exact .inl ((hpck k hk).trans hout)
    · -- the timer it waits for is not the one just created
      have hjn : j ≠ n := by
        rintro rfl
        cases hwait : t.pc k with
        | polling =>
          rw [hwait] at hj
          exact hk (Option.some.inj hj)
        | reading j' =>
          rw [hwait] at hj
          obtain rfl := Option.some.inj hj
          exact (h.reads k _ hwait).2 hn
        | _ => simp [hwait, Pc.waitsFor] at hj
      refine .inr ⟨j, by rw [hpck k hk]; exact hj, (htimer j hjn).trans hs, fun he => ?_⟩
      exact hjn (Option.some.inj (hfd.symm.trans he)).symm

theorem loopsInv_thread {n : ℕ} {env : EventEnv} (h : LoopsInv t)
    (hst : t.run cfg env n = some (t', as)) : LoopsInv t' := by
  have hnot : ¬ Over t n := fun ho => by rw [run_eq_none ho] at hst; cases hst
  by_cases hn : t.pc n = .created
  · exact loopsInv_start h hn hst
  · cases h.phase with
    | starting n' _ hn' ho _ _ =>
      have hnn : n ≠ n' := fun he => hn (he ▸ hn')
      exact absurd (ho n hnn) hnot
    | one n' hn' hg =>
      obtain rfl : n = n' := by
        by_contra hnn
        exact hnot (hg n hnn).over
      have hlt : n < t.count := h.lt_count fun hout => hnot (over_iff.mpr (.inl hout))
      exact h.stepped hg hlt (stepped_of_run hn hst)

theorem loopsInv_step {l : Label} (h : LoopsInv t) (hok : StartsAlone t l)
    (hst : (eventLoops cfg).step t l = some (t', as)) : LoopsInv t' := by
  cases loopsTrans_of_step hst with
  | initiated hi => exact loopsInv_initiate h hi hok
  | refused => exact h
  | handled hi ho => exact loopsInv_handler h hi (trans_of_handle ho)
  | expired hk => exact loopsInv_expire h hk
  | ran hst => exact loopsInv_thread h hst

theorem loopsInv_init : LoopsInv Loops.init where
  fresh _ _ := rfl
  fd _ h := by cases h
  reads _ _ h := by cases h
  phase := .one 0 (fun h => by cases h) fun _ _ => .inl rfl

theorem loopsInv_of_reach (h : (eventLoops cfg).Reach StartsAlone t) : LoopsInv t := by
  refine System.Reach.invariant (fun t ht => ?_) (fun t l t' as _ hinv hok hst => ?_) h
  · rw [show t = Loops.init from ht]
    exact loopsInv_init
  · exact loopsInv_step hinv hok hst

/-! ## One loop -/

theorem Gone.not_able {n : ℕ} (h : Gone t n) : ¬ Able t n := by
  rintro ⟨h1, -, h2⟩
  exact h.elim h1 h2

/-- **Where every process starts alone, at most one thread executes the event handler or is able
to.** -/
theorem oneLoop_of_reach (h : (eventLoops cfg).Reach StartsAlone t) : OneLoop t := by
  intro n k hn hk
  cases (loopsInv_of_reach h).phase with
  | one n' _ hg =>
    have hone : ∀ j, Able t j → j = n' := by
      intro j hj
      by_contra hne
      exact (hg j hne).not_able hj
    exact (hone n hn).trans (hone k hk).symm
  | starting n' m hn' _ hg _ =>
    have hone : ∀ j, Able t j → j = m := by
      intro j hj
      have hjn : j ≠ n' := fun he => hj.2.1 (he ▸ hn')
      by_contra hne
      exact (hg j hjn hne).not_able hj
    exact (hone n hn).trans (hone k hk).symm

theorem able_of_not_over {n : ℕ} (hc : t.pc n ≠ .created) (h : ¬ Over t n) : Able t n := by
  rw [over_iff, not_or] at h
  exact ⟨h.1, hc, fun ⟨k, hk, hs, _⟩ => h.2 ⟨k, hk, hs⟩⟩

theorem Started.able {n : ℕ} (h : Started n t t') : Able t' n := by
  have hpc : t'.pc n = .test := by rw [h.pc, Function.update_self]
  refine ⟨by rw [hpc]; simp, by rw [hpc]; simp, ?_⟩
  rintro ⟨k, hk, -⟩
  rw [hpc] at hk
  cases hk

/-- A thread that was not over is not over after the start of another one. -/
theorem Started.not_over {n k : ℕ} (h : Started n t t') (hk : k ≠ n) (ho : ¬ Over t k)
    (hn : ∀ j, (t.pc k).waitsFor k = some j → j ≠ n) : ¬ Over t' k := by
  have hpc : t'.pc k = t.pc k := by rw [h.pc, Function.update_of_ne hk]
  rw [over_iff, hpc]
  rw [over_iff] at ho
  rintro (hout | ⟨j, hj, hs⟩)
  · exact ho (.inl hout)
  · exact ho (.inr ⟨j, hj, (h.timer j (hn j hj)).symm.trans hs⟩)

/-- **The condition is sharp**: where a process does not start alone, the start of its thread, or of
an earlier one that was still to start, makes two threads able to run the event handler. -/
theorem not_oneLoop_of_not_startsAlone {i : Input} (env : EventEnv)
    (hp : (eventLoops cfg).Reach StartsAlone t) (hi : ¬ StartsAlone t (.initiate i))
    (hst : (eventLoops cfg).step t (.initiate i) = some (t', as)) :
    ∃ t1 as1, t'.run cfg env t.count = some (t1, as1) ∧ (¬ OneLoop t1 ∨
      ∃ k t2 as2, t1.run cfg env k = some (t2, as2) ∧ ¬ OneLoop t2) := by
  have hinv := loopsInv_of_reach hp
  simp only [StartsAlone, Classical.not_imp, not_forall] at hi
  obtain ⟨hs, k, hk, ho⟩ := hi
  obtain ⟨⟨st, o⟩, hr, rfl⟩ := Option.map_eq_some_iff.mp hs
  simp only [eventLoops, hr, Option.map_some, if_pos, Option.some.injEq, Prod.mk.injEq] at hst
  obtain ⟨rfl, -⟩ := hst
  set t' : Loops := { t with
    server := o.server
    count := t.count + 1
    pc := Function.update t.pc t.count .created }
  have hkc : k ≠ t.count := by omega
  have hpc : t'.pc k = t.pc k := Function.update_of_ne hkc _ _
  have ho' : ¬ Over t' k := fun h => ho (h.kept hpc.symm fun _ hj => hj)
  have hcreated : t'.pc t.count = .created := Function.update_self _ _ _
  obtain ⟨t1, as1, h1⟩ := run_created env hcreated
  have hst1 := started_of_run hcreated h1
  refine ⟨t1, as1, h1, ?_⟩
  by_cases hc : t.pc k = .created
  · -- the earlier thread is still to start as well
    have hc1 : t1.pc k = .created := by
      rw [hst1.pc, Function.update_of_ne hkc, hpc]
      exact hc
    obtain ⟨t2, as2, h2⟩ := run_created env hc1
    have hst2 := started_of_run hc1 h2
    refine .inr ⟨k, t2, as2, h2, fun hone => hkc (hone k t.count hst2.able ?_)⟩
    have hpc2 : t2.pc t.count = .test := by
      rw [hst2.pc, Function.update_of_ne (Ne.symm hkc), hst1.pc, Function.update_self]
    refine ⟨by rw [hpc2]; simp, by rw [hpc2]; simp, ?_⟩
    rintro ⟨j, hj, -⟩
    rw [hpc2] at hj
    cases hj
  · refine .inl fun hone => hkc (hone k t.count ?_ hst1.able)
    refine able_of_not_over ?_ (hst1.not_over hkc ho' fun j hj => ?_)
    · rw [hst1.pc, Function.update_of_ne hkc, hpc]
      exact hc
    · rw [hpc] at hj
      cases hpk : t.pc k with
      | polling =>
        rw [hpk] at hj
        exact Option.some.inj hj ▸ hkc
      | reading j' =>
        rw [hpk] at hj
        obtain rfl := Option.some.inj hj
        have := (hinv.reads k _ hpk).1
        omega
      | _ => simp [hpk, Pc.waitsFor] at hj

/-- A bootload request whose thread has left, and the next one. -/
def twoProcessesRun : List Label :=
  [.initiate (.initiateRequestTargetBootload 0 7 5 0), .thread 0 plainEnv, .thread 0 plainEnv,
    .expire 0, .thread 0 plainEnv, .thread 0 plainEnv, .thread 0 plainEnv, .thread 0 plainEnv,
    .thread 0 plainEnv, .handler .abortCurrentProcess, .thread 0 plainEnv, .thread 0 plainEnv,
    .initiate (.initiateRequestTargetBootload 0 7 5 0), .thread 1 plainEnv]

theorem oneLoop_of_reach_two : ∃ t : Loops, t.count = 2 ∧ OneLoop t := by
  have h0 : (eventLoops defaultConfig).Reach StartsAlone Loops.init := reach_eventLoops_init _
  obtain ⟨t, hp, hc⟩ := System.exists_reach_of_exec twoProcessesRun Loops.count (b := 2) h0
    (by decide +kernel)
  exact ⟨t, hc, oneLoop_of_reach hp⟩

/-- The target refuses the image while the thread sleeps in `poll` with its timer armed, and the
next process is started at once. -/
def refusedRun : List Label :=
  [.initiate (.initiateImageDistribution 5 96 7), .thread 0 plainEnv, .thread 0 plainEnv,
    .expire 0, .thread 0 plainEnv, .thread 0 plainEnv, .thread 0 plainEnv, .thread 0 plainEnv,
    .thread 0 plainEnv, .thread 0 plainEnv, .thread 0 plainEnv,
    .handler (.messageSent emberSuccess (handshakeFrame plainEnv.stack
      (transferServer 5 96 7 .handshakeInterval 0))),
    .handler (.incomingMessage (handshakeResponse 5 respStatusRefused 7)),
    .initiate (.initiateImageDistribution 5 96 7), .thread 1 plainEnv, .thread 1 plainEnv,
    .expire 0, .thread 0 plainEnv, .thread 0 plainEnv, .expire 1, .thread 1 plainEnv,
    .thread 0 plainEnv, .thread 0 plainEnv]

/-- **Two loops**: the thread of the process that was refused runs the event handler of the next
one, whose own thread is about to. -/
theorem two_loops : ∃ t m, (eventLoops defaultConfig).Reach free t ∧
    t.pc 0 = .sending .handshake m ∧ t.pc 1 = .polled ∧ ¬ OneLoop t := by
  have h0 : (eventLoops defaultConfig).Reach free Loops.init := reach_eventLoops_init _
  obtain ⟨t, hp, hf⟩ := System.exists_reach_of_exec refusedRun
    (fun t => (match t.pc 0, t.pc 1 with
      | .sending .handshake _, .polled => true
      | _, _ => false)) (b := true) h0 (by decide +kernel)
  split at hf
  · rename_i m h0 h1
    refine ⟨t, m, hp, h0, h1, fun hone => ?_⟩
    have ha0 : Able t 0 := ⟨by rw [h0]; simp, by rw [h0]; simp, by
      rintro ⟨k, hk, -⟩
      rw [h0] at hk
      cases hk⟩
    have ha1 : Able t 1 := ⟨by rw [h1]; simp, by rw [h1]; simp, by
      rintro ⟨k, hk, -⟩
      rw [h1] at hk
      cases hk⟩
    exact absurd (hone 0 1 ha0 ha1) (by decide)
  · cases hf

end ConnectNcpHost.Ota.EventLoops
