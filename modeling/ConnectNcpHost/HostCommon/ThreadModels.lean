import ConnectNcpHost.HostCommon.Pairing
import ConnectNcpHost.HostCommon.Interlocking

/-! # The models of the two threads

Three systems model the poll thread and the threads that call commands, each for what is asked of it.
`exchange` has every access to `responseBuffer` as a step of its own, `commands` takes the accesses of
one turn of the poll thread, and those of one wait, together, and `process` numbers the threads and
bounds the pipes, but leaves the buffers out.

* `exec_of_commands`: the runs of `commands` are runs of `exchange`, whatever frames come in.
* `commands_of_process`: the thread that holds the mutex in `process` is the one of `commands`.
* `exchange_of_process`: so are its token and its phase those of `exchange`. -/

namespace ConnectNcpHost.HostCommon.ThreadModels

open ConnectNcpHost.Lib.Runs ConnectNcpHost.Lib.Pipes ConnectNcpHost.Stack.ByteUtilities
open ConnectNcpHost.HostCommon.CpcHost ConnectNcpHost.HostCommon.ResponseIntegrity
open ConnectNcpHost.HostCommon.Pairing (Commands Returned commands CommandsTrans)
open ConnectNcpHost.HostCommon.Interlocking (Process Stage process ProcessInv ProcessTrans)

/-! ## Two accesses in one step -/

/-- The frame that a step of the poll thread takes. -/
def frameOf : Pairing.Label → Option CpcFrame
  | .poll f => some f
  | _ => none

/-- The accesses of a step, one by one. -/
inductive Splits : Pairing.Label → List CpcHost.Label → Prop
  | send (m : Mem) (length : UInt16) : Splits (.send m) [.send m length]
  | poll (f : CpcFrame) : Splits (.poll f) [.rx, .dispatch]
  | timeout : Splits .timeout [.timeout]
  | waitAndCopy : Splits .waitAndCopy [.readToken, .memcpy]
  /-- `FATAL` comes before the copy -/
  | late : Splits .waitAndCopy [.readToken]
  | release : Splits .release [.release]

/-- **The exchange stands where the command does**, with the frames `fs` still to come, and the poll
thread between two turns; after the exit nothing more is said. -/
structure Matches (fs : List CpcFrame) (s : Exchange) (c : Commands) : Prop where
  exited : s.exited = c.exited
  host : c.exited = false → s.host = c.host
  phase : c.exited = false → s.phase = c.phase
  between : c.exited = false → s.host.commandLength = none
  link : c.exited = false → s.fromNcp = fs

variable {fs : List CpcFrame} {s : Exchange} {c c' : Commands} {out : List Returned}

theorem matches_of_exited (hs : s.exited = true) (hc : c.exited = true) : Matches fs s c := by
  have hne : c.exited ≠ false := by rw [hc]; decide
  exact ⟨hs.trans hc.symm, fun h => absurd h hne, fun h => absurd h hne, fun h => absurd h hne,
    fun h => absurd h hne⟩

theorem exec_next {l : CpcHost.Label} {ls : List CpcHost.Label} {s1 s' : Exchange}
    (hr : s.exited = false) (hn : s.next l = some s1)
    (h : exchange.exec free s1 ls = some (s', [])) :
    exchange.exec free s (l :: ls) = some (s', []) := by
  have hst : exchange.step s l = some (s1, []) := by
    simp only [exchange, hr, Bool.false_eq_true, if_false, hn, Option.map_some]
  exact System.exec_of_step trivial hst h

theorem commandLength_of_dispatch {h h' : Host} {n : UInt16} (hd : h.dispatch n = some h') :
    h'.commandLength = none := by
  simp only [Host.dispatch] at hd
  split_ifs at hd
  · obtain rfl := Option.some.inj hd
    rfl
  · obtain rfl := Option.some.inj hd
    rfl

/-- A turn of the poll thread: the read, and the switch. -/
theorem exec_poll {f : CpcFrame} (h : Matches (f :: fs) s c) (hr : c.exited = false)
    (hst : c.next (.poll f) = some (c', out)) :
    ∃ s', exchange.exec free s [.rx, .dispatch] = some (s', []) ∧ Matches fs s' c' := by
  have hs : s.exited = false := h.exited.trans hr
  have hrx : s.next .rx = some { s with host := s.host.cpcRx f, fromNcp := fs } := by
    simp only [Exchange.next, h.between hr, h.link hr]
  have hlength : (s.host.cpcRx f).commandLength = some f.bytes.length.toUInt16 := rfl
  simp only [Commands.next] at hst
  split at hst
  · next host hd =>
    obtain ⟨rfl, -⟩ := Prod.mk.inj (Option.some.inj hst)
    rw [← h.host hr] at hd
    refine ⟨{ s with host := host, fromNcp := fs }, exec_next hs hrx (exec_next hs ?_ rfl),
      h.exited, fun _ => rfl, h.phase, fun _ => commandLength_of_dispatch hd, fun _ => rfl⟩
    simp only [Exchange.next, hlength, hd]
  · next hd =>
    obtain ⟨rfl, -⟩ := Prod.mk.inj (Option.some.inj hst)
    rw [← h.host hr] at hd
    refine ⟨{ s with host := s.host.cpcRx f, fromNcp := fs, exited := true },
      exec_next hs hrx (exec_next hs ?_ rfl), matches_of_exited rfl rfl⟩
    simp only [Exchange.next, hlength, hd]

/-- A wait: the token, and the copy. -/
theorem exec_waitAndCopy (h : Matches fs s c) (hr : c.exited = false)
    (hst : c.next .waitAndCopy = some (c', out)) :
    ∃ ls s', Splits .waitAndCopy ls ∧ exchange.exec free s ls = some (s', []) ∧
      Matches fs s' c' := by
  have hs : s.exited = false := h.exited.trans hr
  have hbetween := h.between hr
  simp only [Commands.next, ← h.host hr, ← h.phase hr] at hst
  split at hst
  · next token tokens ht hp =>
    obtain ⟨rfl, -⟩ := Prod.mk.inj (Option.some.inj hst)
    let s1 : Exchange :=
      { s with host := { s.host with responsePipe := tokens }, phase := .tokenRead }
    have htoken : s.next .readToken = some s1 := by simp only [Exchange.next, ht, hp, s1]
    have hcopy : s1.next .memcpy =
        some { s1 with host := s1.host.memcpyResponse, phase := .returned } := by
      simp only [Exchange.next, s1, if_true]
    exact ⟨_, _, .waitAndCopy, exec_next hs htoken (exec_next hs hcopy rfl), h.exited,
      fun _ => rfl, fun _ => rfl, fun _ => hbetween, h.link⟩
  · next token tokens ht hp =>
    obtain ⟨rfl, -⟩ := Prod.mk.inj (Option.some.inj hst)
    refine ⟨_, { s with exited := true }, .late, exec_next hs ?_ rfl, matches_of_exited rfl rfl⟩
    simp only [Exchange.next, ht, hp]
  · cases hst

/-- **A step of the command is a few steps of the exchange.** -/
theorem exec_of_step {l : Pairing.Label} (h : Matches ((frameOf l).toList ++ fs) s c)
    (hst : commands.step c l = some (c', out)) :
    ∃ ls s', Splits l ls ∧ exchange.exec free s ls = some (s', []) ∧ Matches fs s' c' := by
  simp only [commands, Option.ite_none_left_eq_some, Bool.not_eq_true] at hst
  obtain ⟨hr, hst⟩ := hst
  have hs : s.exited = false := h.exited.trans hr
  have hhost := h.host hr
  cases l with
  | poll f =>
    obtain ⟨s', hexec, hmatches⟩ := exec_poll h hr hst
    exact ⟨_, s', .poll f, hexec, hmatches⟩
  | waitAndCopy => exact exec_waitAndCopy h hr hst
  | send m =>
    simp only [Commands.next, ← h.phase hr, Option.ite_none_right_eq_some, Option.some.injEq,
      Prod.mk.injEq] at hst
    obtain ⟨hp, rfl, -⟩ := hst
    refine ⟨_, _, .send m 0, exec_next hs (if_pos hp) rfl, h.exited, fun _ => ?_, fun _ => rfl,
      h.between, h.link⟩
    rw [hhost]
  | timeout =>
    simp only [Commands.next, ← h.phase hr, ← hhost, Option.ite_none_right_eq_some,
      Option.some.injEq, Prod.mk.injEq] at hst
    obtain ⟨hp, rfl, -⟩ := hst
    exact ⟨_, _, .timeout, exec_next hs (if_pos hp) rfl, h.exited, fun _ => rfl, fun _ => rfl,
      h.between, h.link⟩
  | release =>
    simp only [Commands.next, ← h.phase hr, Option.ite_none_right_eq_some, Option.some.injEq,
      Prod.mk.injEq] at hst
    obtain ⟨hp, rfl, -⟩ := hst
    exact ⟨_, _, .release, exec_next hs (if_pos hp) rfl, h.exited, h.host, fun _ => rfl, h.between,
      h.link⟩

/-- **The runs of the command are runs of the exchange**, in which nothing comes between the accesses
of a step: with any frames on the link, in the order in which they are taken. -/
theorem exec_of_commands : ∀ {ls : List Pairing.Label} {s : Exchange} {c c' : Commands}
    {out : List Returned}, Matches (ls.filterMap frameOf ++ fs) s c →
    commands.exec free c ls = some (c', out) →
    ∃ lss s', List.Forall₂ Splits ls lss ∧ exchange.exec free s lss.flatten = some (s', []) ∧
      Matches fs s' c'
  | [], s, c, c', out, h, hexec => by
    obtain ⟨rfl, -⟩ := Prod.mk.inj (Option.some.inj hexec)
    exact ⟨[], s, .nil, rfl, h⟩
  | l :: ls, s, c, c', out, h, hexec => by
    obtain ⟨c1, out1, out2, -, hst, hrest, -⟩ := System.exec_cons hexec
    have hframes : (l :: ls).filterMap frameOf ++ fs =
        (frameOf l).toList ++ (ls.filterMap frameOf ++ fs) := by
      rw [List.filterMap_cons]
      cases frameOf l <;> rfl
    rw [hframes] at h
    obtain ⟨split, s1, hsplit, hexec1, hmatches⟩ := exec_of_step h hst
    obtain ⟨lss, s', hsplits, hexec', hmatches'⟩ := exec_of_commands hmatches hrest
    exact ⟨split :: lss, s', .cons hsplit hsplits, System.exec_append hexec' hexec1, hmatches'⟩

/-! ## One of many threads -/

/-- A thread in its command. -/
def phaseOf : Stage → Phase
  | .outside | .acquiring | .acquired => .idle
  | .waiting => .waiting
  | .timedOut => .timedOut
  | .returned => .returned

/-- The phase of the thread that holds the mutex. -/
def holderPhase (t : Process) : Phase :=
  match t.lock with
  | none => .idle
  | some n => phaseOf (t.stage n)

/-- **The command is the one that holds the mutex**, and its tokens are those in the pipe. -/
structure Follows (t : Process) (c : Commands) : Prop where
  running : c.exited = false
  tokens : c.host.responsePipe = t.responsePipe.items
  phase : c.phase = holderPhase t

variable {t t' : Process}

theorem holderPhase_of_lock {n : ℕ} (h : t.lock = some n) : holderPhase t = phaseOf (t.stage n) := by
  rw [holderPhase, h]

/-- A thread that does not hold the mutex goes on. -/
theorem holderPhase_goto {n : ℕ} {st : Stage} (h : phaseOf (t.stage n) = phaseOf st) :
    holderPhase (t.goto n st) = holderPhase t := by
  rcases hl : t.lock with _ | m
  · rw [holderPhase, holderPhase, hl]
    simp only [Process.goto, hl]
  · rw [holderPhase_of_lock hl, holderPhase_of_lock (t := t.goto n st) hl]
    by_cases hm : m = n
    · rw [hm, Interlocking.Process.stage_goto_self, h]
    · rw [Interlocking.Process.stage_goto_of_ne hm]

theorem step_of_next {l : Pairing.Label} (hr : c.exited = false)
    (h : c.next l = some (c', out)) : commands.step c l = some (c', out) := by
  simp only [commands, hr, Bool.false_eq_true, if_false, h]

/-- The poll thread takes a response, and writes a token. -/
theorem exists_poll_response {f : CpcFrame} (ho : f.origin = responseOrigin)
    (hr : c.exited = false) :
    ∃ c', commands.step c (.poll f) = some (c', []) ∧ c'.exited = false ∧ c'.phase = c.phase ∧
      c'.host.responsePipe = c.host.responsePipe ++ [0] := by
  have h0 : (c.host.cpcRx f).responseBuffer 0 = responseOrigin := (cpcRx_apply_zero _ _).trans ho
  have hnext : c.next (.poll f) = some ({ c with
      host := { c.host.cpcRx f with
        commandLength := none
        responsePipe := c.host.responsePipe ++ [0] } }, []) := by
    simp only [Commands.next, Host.dispatch, h0, if_true]
    rfl
  exact ⟨_, step_of_next hr hnext, hr, rfl, rfl⟩

/-- It takes a callback, and writes none. -/
theorem exists_poll_callback {f : CpcFrame} (ho : f.origin = callbackOrigin)
    (hr : c.exited = false) :
    ∃ c', commands.step c (.poll f) = some (c', []) ∧ c'.exited = false ∧ c'.phase = c.phase ∧
      c'.host.responsePipe = c.host.responsePipe := by
  have h0 : (c.host.cpcRx f).responseBuffer 0 = callbackOrigin := (cpcRx_apply_zero _ _).trans ho
  have hne : callbackOrigin ≠ responseOrigin := by decide
  have hnext : c.next (.poll f) = some ({ c with
      host := { c.host.cpcRx f with commandLength := none }.sliConnectNcpAppendCallbackCommand
        f.bytes.length.toUInt16 }, []) := by
    simp only [Commands.next, Host.dispatch, h0, if_neg hne, if_true]
  exact ⟨_, step_of_next hr hnext, hr, rfl, rfl⟩

theorem follows_poll {stack : Mem} (h : Follows t c) (htr : ProcessTrans t (.poll stack) t') :
    ∃ c', commands.Leads free c c' ∧ (t'.exited = false → Follows t' c') := by
  cases htr with
  | response _ _ ho hp =>
    obtain ⟨c', hst, hr, hphase, htokens⟩ := exists_poll_response ho h.running
    refine ⟨c', .single trivial hst, fun _ => ⟨hr, ?_, hphase.trans h.phase⟩⟩
    rw [htokens, h.tokens]
    exact hp.symm
  | append _ _ ho =>
    obtain ⟨c', hst, hr, hphase, htokens⟩ := exists_poll_callback ho h.running
    exact ⟨c', .single trivial hst, fun _ => ⟨hr, htokens.trans h.tokens, hphase.trans h.phase⟩⟩
  | unknown _ _ _ => exact ⟨c, .refl c, by rintro ⟨⟩⟩

/-- The holder goes on: its phase is the command's. -/
theorem holderPhase_goto_self {n : ℕ} (hl : t.lock = some n) (st : Stage) :
    holderPhase (t.goto n st) = phaseOf st := by
  have hgoto : (t.goto n st).lock = some n := hl
  rw [holderPhase_of_lock hgoto, Interlocking.Process.stage_goto_self]

/-- The token is taken, or it comes too late. -/
theorem follows_readToken {n : ℕ} (hinv : ProcessInv t) (h : Follows t c)
    (hst : t.next (.readToken n) = some t') :
    ∃ c', commands.Leads free c c' ∧ (t'.exited = false → Follows t' c') := by
  simp only [Process.next] at hst
  split_ifs at hst with hn hn
  · obtain ⟨⟨xs, p⟩, hread, rfl⟩ := Option.map_eq_some_iff.mp hst
    obtain ⟨token, htokens⟩ := Pipe.exists_of_read_one hread
    have hl : t.lock = some n := hinv.lock_of_stage hn (by decide) (by decide)
    have hphase : c.phase = .waiting := by rw [h.phase, holderPhase_of_lock hl, hn, phaseOf]
    have hpipe : c.host.responsePipe = token :: p.items := h.tokens.trans htokens
    have hnext : ∃ out, c.next .waitAndCopy = some ({ c with
        host := { c.host with responsePipe := p.items }.memcpyResponse
        phase := .returned }, out) := by
      simp only [Commands.next, hpipe, hphase]
      exact ⟨_, rfl⟩
    obtain ⟨out, hnext⟩ := hnext
    exact ⟨_, .single trivial (step_of_next h.running hnext), fun _ =>
      ⟨h.running, rfl, (holderPhase_goto_self hl .returned).symm⟩⟩
  · obtain ⟨r, -, rfl⟩ := Option.map_eq_some_iff.mp hst
    exact ⟨c, .refl c, by rintro ⟨⟩⟩

/-- **A step of the threads is one of the command, or none**, until the process exits. -/
theorem follows_step {l : Interlocking.Label} (hinv : ProcessInv t) (h : Follows t c)
    (hst : t.next l = some t') :
    ∃ c', commands.Leads free c c' ∧ (t'.exited = false → Follows t' c') := by
  have hunmoved : ∀ {t1 : Process}, t1.responsePipe = t.responsePipe →
      holderPhase t1 = holderPhase t → ∃ c', commands.Leads free c c' ∧
        (t1.exited = false → Follows t1 c') := fun hp hphase =>
    ⟨c, .refl c, fun _ => ⟨h.running, by rw [h.tokens, hp], h.phase.trans hphase.symm⟩⟩
  have hholds : ∀ {n st}, t.stage n = st → st ≠ .outside → st ≠ .acquiring →
      t.lock = some n ∧ c.phase = phaseOf st := by
    rintro n st rfl ho ha
    have hl := hinv.holder n ho ha
    exact ⟨hl, by rw [h.phase, holderPhase_of_lock hl]⟩
  cases l with
  | readToken n => exact follows_readToken hinv h hst
  | poll stack => exact follows_poll h (Interlocking.processTrans_next hst)
  | timeout n =>
    simp only [Process.next, Option.ite_none_right_eq_some, Option.some.injEq] at hst
    obtain ⟨⟨hn, hempty⟩, rfl⟩ := hst
    obtain ⟨hl, hphase⟩ := hholds hn (by decide) (by decide)
    have hnext : c.next .timeout = some ({ c with phase := .timedOut }, []) :=
      if_pos ⟨hphase, h.tokens.trans hempty⟩
    exact ⟨_, .single trivial (step_of_next h.running hnext), fun _ =>
      ⟨h.running, h.tokens, (holderPhase_goto_self hl .timedOut).symm⟩⟩
  | send n =>
    cases Interlocking.processTrans_next hst with
    | send hn =>
      obtain ⟨hl, hphase⟩ := hholds hn (by decide) (by decide)
      have hnext : c.next (.send fun _ => 0) = some ({ c with
          host := { c.host with apiCommandData := fun _ => 0 }
          phase := .waiting
          commandId := emberFetchHighLowInt16u (fun _ => 0) 0 }, []) := if_pos hphase
      exact ⟨_, .single trivial (step_of_next h.running hnext), fun _ =>
        ⟨h.running, h.tokens, (holderPhase_goto_self hl .waiting).symm⟩⟩
  | release n =>
    cases Interlocking.processTrans_next hst with
    | release hn =>
      obtain ⟨hl, hphase⟩ := hholds hn (by decide) (by decide)
      have hnext : c.next .release = some ({ c with phase := .idle }, []) := if_pos hphase
      exact ⟨_, .single trivial (step_of_next h.running hnext), fun _ =>
        ⟨h.running, h.tokens, rfl⟩⟩
  | acquire n =>
    cases Interlocking.processTrans_next hst with
    | acquire hn hl =>
      refine hunmoved rfl ?_
      rw [holderPhase_of_lock rfl, holderPhase, hl]
      exact congrArg phaseOf (t.stage_goto_self n .acquired)
  | request n =>
    cases Interlocking.processTrans_next hst with
    | request hn => exact hunmoved rfl (holderPhase_goto (by rw [hn]; rfl))
  | turn =>
    cases Interlocking.processTrans_next hst with
    | turn _ => exact hunmoved rfl rfl
    | missing _ => exact ⟨c, .refl c, by rintro ⟨⟩⟩
  | arrive _ | write _ | read _ =>
    cases Interlocking.processTrans_next hst
    exact hunmoved rfl rfl

/-- **The thread that holds the mutex runs as the command does.** In every run of the process, with
any number of threads, the tokens and the phase of the thread that holds the mutex are those of a
run of the command. -/
theorem commands_of_process (h : process.Reach free t) :
    ∃ c, commands.Reach free c ∧ (t.exited = false → Follows t c) := by
  refine System.Reach.simulate (R := fun t c => t.exited = false → Follows t c)
    (fun t hstart => ?_) (fun t l t' out c hr hfollows _ hst => ?_) h
  · obtain rfl : t = Process.init := hstart
    exact ⟨Commands.init, .start rfl, fun _ => ⟨rfl, rfl, rfl⟩⟩
  · simp only [process, Option.ite_none_left_eq_some, Option.map_eq_some_iff, Prod.mk.injEq,
      Bool.not_eq_true] at hst
    obtain ⟨hrunning, t1, hnext, rfl, -⟩ := hst
    exact follows_step (Interlocking.processInv_of_reach hr) (hfollows hrunning) hnext

/-- **And as the exchange does**, for some frames on its link: in every run of the process, the tokens
and the phase of the thread that holds the mutex are those of a run of the exchange. -/
theorem exchange_of_process (h : process.Reach free t) (hr : t.exited = false) :
    ∃ fs ls s, exchange.exec free { Exchange.init with fromNcp := fs } ls = some (s, []) ∧
      s.exited = false ∧ s.host.responsePipe = t.responsePipe.items ∧ s.phase = holderPhase t := by
  obtain ⟨c, hc, hfollows⟩ := commands_of_process h
  have hf := hfollows hr
  obtain ⟨c0, ls, out, rfl, hexec⟩ := System.exists_exec_of_reach hc
  have hinit : Matches (ls.filterMap frameOf ++ [])
      { Exchange.init with fromNcp := ls.filterMap frameOf ++ [] } Commands.init :=
    ⟨rfl, fun _ => rfl, fun _ => rfl, fun _ => rfl, fun _ => rfl⟩
  obtain ⟨lss, s, -, hexec', hmatches⟩ := exec_of_commands hinit hexec
  refine ⟨_, lss.flatten, s, hexec', hmatches.exited.trans hf.running, ?_, ?_⟩
  · rw [hmatches.host hf.running, hf.tokens]
  · rw [hmatches.phase hf.running, hf.phase]

end ConnectNcpHost.HostCommon.ThreadModels
