import ConnectNcpHost.HostCommon.ResponseIntegrity

/-! # Commands and responses are paired by counting

`wait_for_response` takes one token, and nobody looks at the identifier that the response begins with:
`fetchApiParams` starts behind it. Here the poll thread reads a frame and dispatches it in one step,
the thread with the command waits and copies in one step, and the frames are any frames.

A command gets its own answer as long as every response is expected (`carries_of_reach`); any other
response can make a command return what is not its answer (`exists_mispaired`), and after a surplus one
every later command may return the answer of the one before (`exec_shifted`). -/

namespace ConnectNcpHost.HostCommon.Pairing

open ConnectNcpHost.Lib.Bytes ConnectNcpHost.Lib.Runs ConnectNcpHost.Stack.ByteUtilities
open ConnectNcpHost.HostCommon.CpcHost ConnectNcpHost.HostCommon.ResponseIntegrity

/-- The host, and the command that holds the mutex. -/
structure Commands where
  host : Host
  phase : Phase
  /-- the identifier of the command just sent -/
  commandId : UInt16
  exited : Bool

def Commands.init : Commands := ⟨Host.init, .idle, 0, false⟩

/-- What `sendBlockingCommand` returns: the identifier of the command it has sent, and the one in the
first two bytes of the buffer. -/
structure Returned where
  sent : UInt16
  carried : UInt16
  deriving DecidableEq

inductive Label
  /-- a thread takes the mutex and `cpc_tx` sends the command -/
  | send (apiCommandBuffer : Mem)
  /-- `sl_connect_ncp_poll_cb` -/
  | poll (f : CpcFrame)
  /-- the `poll` of `wait_for_response` returns 0 -/
  | timeout
  /-- `wait_for_response` returns, and `memcpy` -/
  | waitAndCopy
  /-- the caller releases the mutex -/
  | release

/-- A step, while the process runs. -/
def Commands.next (s : Commands) : Label → Option (Commands × List Returned)
  | .send apiCommandBuffer =>
    if s.phase = .idle then
      some ({ s with
        host := { s.host with apiCommandData := apiCommandBuffer }
        phase := .waiting
        commandId := emberFetchHighLowInt16u apiCommandBuffer 0 }, [])
    else none
  | .poll f =>
    match (s.host.cpcRx f).dispatch f.bytes.length.toUInt16 with
    | some host => some ({ s with host := host }, [])
    | none => some ({ s with exited := true }, [])
  | .timeout =>
    if s.phase = .waiting ∧ s.host.responsePipe = [] then some ({ s with phase := .timedOut }, [])
    else none
  | .waitAndCopy =>
    match s.host.responsePipe, s.phase with
    | _ :: tokens, .waiting =>
      let host := { s.host with responsePipe := tokens }.memcpyResponse
      some ({ s with host := host, phase := .returned },
        [⟨s.commandId, emberFetchHighLowInt16u host.apiCommandData 0⟩])
    | _ :: _, .timedOut => some ({ s with exited := true }, [])
    | _, _ => none
  | .release => if s.phase = .returned then some ({ s with phase := .idle }, []) else none

/-- **The two threads, whatever frames come.** -/
def commands : System Commands Label Returned where
  start s := s = Commands.init
  step s l := if s.exited then none else s.next l

/-- The identifier a frame begins with. -/
def commandIdOf (f : CpcFrame) : UInt16 :=
  emberFetchHighLowInt16u (Memory.write (fun _ => 0) 0 f.bytes) 0

/-- The frame is an answer to a command. -/
def Answers (f : CpcFrame) (commandId : UInt16) : Prop :=
  2 ≤ f.bytes.length ∧ commandIdOf f = commandId

instance (f : CpcFrame) (n : UInt16) : Decidable (Answers f n) := by unfold Answers; infer_instance

/-- **A response is expected where it answers the command that waits, and there is no token yet.** No
other frame is read between a token and the copy. -/
def Expected (s : Commands) : Label → Prop
  | .poll f => s.phase ≠ .timedOut → s.host.responsePipe = [] ∧
      (f.origin = responseOrigin → s.phase = .waiting ∧ Answers f s.commandId)
  | _ => True

instance (s : Commands) (l : Label) : Decidable (Expected s l) :=
  match l with
  | .poll f => inferInstanceAs (Decidable (s.phase ≠ .timedOut → s.host.responsePipe = [] ∧
      (f.origin = responseOrigin → s.phase = .waiting ∧ Answers f s.commandId)))
  | .send _ | .timeout | .waitAndCopy | .release => isTrue trivial

/-! ## What a step can do -/

variable {s s' : Commands} {l : Label} {out : List Returned}

/-- The steps that are enabled. -/
inductive CommandsTrans (s : Commands) : Label → Commands → List Returned → Prop
  | send {m : Mem} (hp : s.phase = .idle) :
      CommandsTrans s (.send m)
        { s with
          host := { s.host with apiCommandData := m }
          phase := .waiting
          commandId := emberFetchHighLowInt16u m 0 } []
  | response {f : CpcFrame} {host : Host} (ho : f.origin = responseOrigin)
      (hb : host.responseBuffer = (s.host.cpcRx f).responseBuffer)
      (hp : host.responsePipe = s.host.responsePipe ++ [0])
      (ha : host.apiCommandData = s.host.apiCommandData) :
      CommandsTrans s (.poll f) { s with host := host } []
  | callback {f : CpcFrame} {host : Host} (ho : f.origin ≠ responseOrigin)
      (hp : host.responsePipe = s.host.responsePipe)
      (ha : host.apiCommandData = s.host.apiCommandData) :
      CommandsTrans s (.poll f) { s with host := host } []
  | unknown {f : CpcFrame} : CommandsTrans s (.poll f) { s with exited := true } []
  | timeout (hp : s.phase = .waiting) (ht : s.host.responsePipe = []) :
      CommandsTrans s .timeout { s with phase := .timedOut } []
  | waitAndCopy {token : UInt8} {tokens : List UInt8} (hp : s.phase = .waiting)
      (ht : s.host.responsePipe = token :: tokens) :
      CommandsTrans s .waitAndCopy
        { s with
          host := { s.host with responsePipe := tokens }.memcpyResponse
          phase := .returned }
        [⟨s.commandId, emberFetchHighLowInt16u s.host.responseBuffer 0⟩]
  | late : CommandsTrans s .waitAndCopy { s with exited := true } []
  | release (hp : s.phase = .returned) : CommandsTrans s .release { s with phase := .idle } []

theorem fetch_congr {m m' : Mem} (h : m.read 0 2 = m'.read 0 2) :
    emberFetchHighLowInt16u m 0 = emberFetchHighLowInt16u m' 0 :=
  fetch_of_read16 (h.trans (read_of_fetch16 m' 0).symm)

/-- The copy begins with the identifier in `responseBuffer`. -/
theorem fetch_memcpyResponse (h : Host) :
    emberFetchHighLowInt16u h.memcpyResponse.apiCommandData 0 =
      emberFetchHighLowInt16u h.responseBuffer 0 :=
  fetch_congr (h.read_memcpyResponse (by decide))

theorem fetch_cpcRx (h : Host) {f : CpcFrame} (h2 : 2 ≤ f.bytes.length) :
    emberFetchHighLowInt16u (h.cpcRx f).responseBuffer 0 = commandIdOf f := by
  have hframe := Memory.read_write_same (fun _ => 0) 0 f.bytes
  refine fetch_congr ?_
  rw [← Memory.take_read _ 0 _ 2 h2, ← Memory.take_read _ 0 _ 2 h2, read_cpcRx, hframe]

theorem commandsTrans_poll {f : CpcFrame} (hst : s.next (.poll f) = some (s', out)) :
    CommandsTrans s (.poll f) s' out := by
  have horigin := cpcRx_apply_zero s.host f
  simp only [Commands.next, Host.dispatch, horigin] at hst
  by_cases hr : f.origin = responseOrigin
  · simp only [if_pos hr, Option.some.injEq, Prod.mk.injEq] at hst
    obtain ⟨rfl, rfl⟩ := hst
    exact .response hr rfl rfl rfl
  rw [if_neg hr] at hst
  by_cases hc : f.origin = callbackOrigin
  · simp only [if_pos hc, Option.some.injEq, Prod.mk.injEq] at hst
    obtain ⟨rfl, rfl⟩ := hst
    exact .callback hr rfl rfl
  · simp only [if_neg hc, Option.some.injEq, Prod.mk.injEq] at hst
    obtain ⟨rfl, rfl⟩ := hst
    exact .unknown

theorem commandsTrans_next (hst : s.next l = some (s', out)) : CommandsTrans s l s' out := by
  cases l with
  | poll f => exact commandsTrans_poll hst
  | send m =>
    simp only [Commands.next, Option.ite_none_right_eq_some, Option.some.injEq,
      Prod.mk.injEq] at hst
    obtain ⟨hp, rfl, rfl⟩ := hst
    exact .send hp
  | timeout =>
    simp only [Commands.next, Option.ite_none_right_eq_some, Option.some.injEq,
      Prod.mk.injEq] at hst
    obtain ⟨⟨hp, ht⟩, rfl, rfl⟩ := hst
    exact .timeout hp ht
  | waitAndCopy =>
    simp only [Commands.next] at hst
    split at hst
    · next token tokens ht hp =>
      simp only [Option.some.injEq, Prod.mk.injEq] at hst
      obtain ⟨rfl, rfl⟩ := hst
      rw [fetch_memcpyResponse]
      exact .waitAndCopy hp ht
    · simp only [Option.some.injEq, Prod.mk.injEq] at hst
      obtain ⟨rfl, rfl⟩ := hst
      exact .late
    · cases hst
  | release =>
    simp only [Commands.next, Option.ite_none_right_eq_some, Option.some.injEq,
      Prod.mk.injEq] at hst
    obtain ⟨hp, rfl, rfl⟩ := hst
    exact .release hp

theorem commandsTrans_of_step (hst : commands.step s l = some (s', out)) :
    s.exited = false ∧ CommandsTrans s l s' out := by
  simp only [commands, Option.ite_none_left_eq_some] at hst
  exact ⟨Bool.not_eq_true _ ▸ hst.1, commandsTrans_next hst.2⟩

/-! ## Expected responses -/

/-- **Invariant.** There is one token at most, and only for the command that waits; then its answer
is in `responseBuffer`. -/
structure PairInv (s : Commands) : Prop where
  atomic : s.phase ≠ .tokenRead
  count : s.phase ≠ .timedOut → s.host.responsePipe.length ≤ if s.phase = .waiting then 1 else 0
  answer : s.phase = .waiting → s.host.responsePipe ≠ [] →
    emberFetchHighLowInt16u s.host.responseBuffer 0 = s.commandId
  copied : s.phase = .returned → emberFetchHighLowInt16u s.host.apiCommandData 0 = s.commandId

theorem PairInv.nil {p : Phase} (h : PairInv s) (hp : s.phase = p) (hw : p ≠ .waiting)
    (ht : p ≠ .timedOut) : s.host.responsePipe = [] := by
  subst hp
  have hc := h.count ht
  rw [if_neg hw] at hc
  exact List.length_eq_zero_iff.mp (by omega)

theorem pairInv_init : PairInv Commands.init where
  atomic := by decide
  count _ := Nat.zero_le _
  answer h := by cases h
  copied h := by cases h

theorem pairInv_poll {f : CpcFrame} (h : PairInv s) (hok : Expected s (.poll f))
    (htr : CommandsTrans s (.poll f) s' out) : PairInv s' := by
  cases htr with
  | unknown => exact ⟨h.atomic, h.count, h.answer, h.copied⟩
  | response ho hb hp ha =>
    have hexp : ∀ {p}, s.phase = p → p ≠ .timedOut →
        s.host.responsePipe = [] ∧ s.phase = .waiting ∧ Answers f s.commandId := by
      rintro p rfl ht
      exact ⟨(hok ht).1, (hok ht).2 ho⟩
    refine ⟨h.atomic, fun ht => ?_, fun hw _ => ?_, fun hret => ?_⟩
    · obtain ⟨hnil, hw, -⟩ := hexp rfl ht
      show _ ≤ if s.phase = .waiting then 1 else 0
      rw [if_pos hw, hp, hnil]
      exact Nat.le_refl 1
    · obtain ⟨-, -, h2, hid⟩ := hexp hw (by decide)
      show emberFetchHighLowInt16u _ 0 = s.commandId
      rw [hb, fetch_cpcRx s.host h2, hid]
    · obtain ⟨-, hw, -⟩ := hexp hret (by decide)
      cases hret.symm.trans hw
  | callback ho hp ha =>
    refine ⟨h.atomic, fun ht => ?_, fun hw hne => ?_, fun hret => ?_⟩
    · show _ ≤ if s.phase = .waiting then 1 else 0
      rw [hp]
      exact h.count ht
    · have hw' : s.phase = .waiting := hw
      refine absurd (hp.trans (hok ?_).1) hne
      rw [hw']
      decide
    · show emberFetchHighLowInt16u _ 0 = s.commandId
      rw [ha]
      exact h.copied hret

theorem pairInv_step (h : PairInv s) (hok : Expected s l) (htr : CommandsTrans s l s' out) :
    PairInv s' := by
  cases l with
  | poll f => exact pairInv_poll h hok htr
  | send m =>
    cases htr with
    | send hp =>
      have hnil := h.nil hp (by decide) (by decide)
      refine ⟨nofun, fun _ => ?_, fun _ hne => absurd hnil hne, nofun⟩
      show s.host.responsePipe.length ≤ 1
      rw [hnil]
      exact Nat.zero_le _
  | timeout =>
    cases htr with
    | timeout hp ht =>
      exact ⟨nofun, fun hne => absurd rfl hne, nofun, nofun⟩
  | waitAndCopy =>
    cases htr with
    | late => exact ⟨h.atomic, h.count, h.answer, h.copied⟩
    | @waitAndCopy token tokens hp ht =>
      refine ⟨nofun, fun _ => ?_, nofun, fun _ => ?_⟩
      · have hc := h.count (by rw [hp]; decide)
        rw [if_pos hp, ht, List.length_cons] at hc
        show tokens.length ≤ 0
        omega
      · show emberFetchHighLowInt16u (Host.memcpyResponse _).apiCommandData 0 = s.commandId
        rw [fetch_memcpyResponse]
        exact h.answer hp (by rw [ht]; exact List.cons_ne_nil _ _)
  | release =>
    cases htr with
    | release hp =>
      have hnil := h.nil hp (by decide) (by decide)
      refine ⟨nofun, fun _ => ?_, nofun, nofun⟩
      show s.host.responsePipe.length ≤ 0
      rw [hnil]
      exact Nat.zero_le _

theorem pairInv_of_reach (h : commands.Reach Expected s) : PairInv s := by
  refine System.Reach.invariant (fun s hs => ?_) (fun s l s' out _ hinv hok hst => ?_) h
  · rw [show s = Commands.init from hs]
    exact pairInv_init
  · exact pairInv_step hinv hok (commandsTrans_of_step hst).2

/-- **Where every response is expected, every buffer that a command returns carries the identifier
of the command.** -/
theorem carries_of_reach (h : commands.Reach Expected s) (hp : s.phase = .returned) :
    emberFetchHighLowInt16u s.host.apiCommandData 0 = s.commandId :=
  (pairInv_of_reach h).copied hp

/-- `emberGetNodeId` -/
def getNodeId : Mem := Memory.write (fun _ => 0) 0 [0x69, 0x11]

/-- `emberGetPanId` -/
def getPanId : Mem := Memory.write (fun _ => 0) 0 [0x69, 0x12]

/-- The answer to `emberGetNodeId`. -/
def nodeIdAnswer : CpcFrame := ⟨[0x69, 0x11, 0x00, 0x01], by decide, by decide⟩

/-- The answer to `emberGetPanId`. -/
def panIdAnswer : CpcFrame := ⟨[0x69, 0x12, 0xFA, 0xCE], by decide, by decide⟩

/-- A callback comes before the second answer. -/
theorem carries_of_reach_two : ∃ s, commands.Reach Expected s ∧ s.commandId = 0x6912 ∧
    emberFetchHighLowInt16u s.host.apiCommandData 0 = s.commandId := by
  have h0 : commands.Reach Expected Commands.init := .start rfl
  obtain ⟨s, hs, hf⟩ := System.exists_reach_of_exec
    [.send getNodeId, .poll nodeIdAnswer, .waitAndCopy, .release, .send getPanId,
      .poll stackStatusCallback, .poll panIdAnswer, .waitAndCopy]
    (fun s : Commands => (s.phase, s.commandId)) (b := (.returned, 0x6912)) h0 (by decide +kernel)
  obtain ⟨hp, hid⟩ := Prod.mk.inj hf
  exact ⟨s, hs, hid, carries_of_reach hs hp⟩

/-! ## Unexpected responses -/

/-- A command has returned a buffer with another identifier. -/
def Mispaired (s : Commands) : Prop :=
  s.phase = .returned ∧ emberFetchHighLowInt16u s.host.apiCommandData 0 ≠ s.commandId

instance (s : Commands) : Decidable (Mispaired s) := by unfold Mispaired; infer_instance

theorem step_send (m : Mem) (hr : s.exited = false) (hp : s.phase = .idle) :
    commands.step s (.send m) = some ({ s with
      host := { s.host with apiCommandData := m }
      phase := .waiting
      commandId := emberFetchHighLowInt16u m 0 }, []) := by
  simp [commands, Commands.next, hr, hp]

theorem step_poll_response {f : CpcFrame} (hr : s.exited = false)
    (ho : f.origin = responseOrigin) : ∃ host, commands.step s (.poll f) =
      some ({ s with host := host }, []) ∧
      host.responseBuffer = (s.host.cpcRx f).responseBuffer ∧
      host.responsePipe = s.host.responsePipe ++ [0] := by
  have horigin := cpcRx_apply_zero s.host f
  refine ⟨{ s.host.cpcRx f with commandLength := none }.slConnectNcpHandleResponse, ?_, rfl, rfl⟩
  simp [commands, Commands.next, Host.dispatch, horigin, hr, ho]

theorem step_waitAndCopy {token : UInt8} {tokens : List UInt8} (hr : s.exited = false)
    (hp : s.phase = .waiting) (ht : s.host.responsePipe = token :: tokens) :
    commands.step s .waitAndCopy = some ({ s with
      host := { s.host with responsePipe := tokens }.memcpyResponse
      phase := .returned }, [⟨s.commandId, emberFetchHighLowInt16u s.host.responseBuffer 0⟩]) := by
  simp [commands, Commands.next, hr, hp, ht, fetch_memcpyResponse]

theorem step_release (hr : s.exited = false) (hp : s.phase = .returned) :
    commands.step s .release = some ({ s with phase := .idle }, []) := by
  simp [commands, Commands.next, hr, hp]

/-- A command that finds a token takes what is in `responseBuffer`. -/
theorem exists_mispaired_of_token (h : commands.Reach free s) (hr : s.exited = false)
    (hp : s.phase = .waiting) (ht : s.host.responsePipe ≠ [])
    (hne : emberFetchHighLowInt16u s.host.responseBuffer 0 ≠ s.commandId) :
    ∃ s', commands.Reach free s' ∧ Mispaired s' := by
  obtain ⟨token, tokens, ht⟩ := List.exists_cons_of_ne_nil ht
  refine ⟨_, h.step trivial (step_waitAndCopy hr hp ht), rfl, ?_⟩
  show emberFetchHighLowInt16u (Host.memcpyResponse _).apiCommandData 0 ≠ s.commandId
  rw [fetch_memcpyResponse]
  exact hne

theorem ne_add_one (n : UInt16) : n ≠ n + 1 := by
  intro h
  have hn := congrArg UInt16.toNat h
  have hlt := n.toNat_lt
  rw [UInt16.toNat_add] at hn
  simp only [UInt16.reduceToNat] at hn
  omega

/-- **A token that is left over gives the next command what was read before.** -/
theorem exists_mispaired_of_surplus (h : commands.Reach free s) (hr : s.exited = false)
    (hp : s.phase = .idle) (ht : s.host.responsePipe ≠ []) :
    ∃ s', commands.Reach free s' ∧ Mispaired s' := by
  set n := emberFetchHighLowInt16u s.host.responseBuffer 0 with hn
  set m : Mem := Memory.write (fun _ => 0) 0 (highLowBytes16 (n + 1)) with hm
  have hid : emberFetchHighLowInt16u m 0 = n + 1 :=
    fetch_of_read16 (Memory.read_write_same (fun _ => 0) 0 (highLowBytes16 (n + 1)))
  refine exists_mispaired_of_token (h.step trivial (step_send m hr hp)) hr rfl ht ?_
  show n ≠ emberFetchHighLowInt16u m 0
  rw [hid]
  exact ne_add_one n

theorem exists_mispaired_of_returned (h : commands.Reach free s) (hr : s.exited = false)
    (hp : s.phase = .returned) (ht : s.host.responsePipe ≠ []) :
    ∃ s', commands.Reach free s' ∧ Mispaired s' :=
  exists_mispaired_of_surplus (h.step trivial (step_release hr hp)) hr rfl ht

/-- **After any unexpected response a command can return what is not its answer.** -/
theorem exists_mispaired {f : CpcFrame} (h : commands.Reach Expected s) (hr : s.exited = false)
    (ho : f.origin = responseOrigin) (h2 : 2 ≤ f.bytes.length) (hok : ¬ Expected s (.poll f)) :
    ∃ s', commands.Reach free s' ∧ Mispaired s' := by
  have hinv := pairInv_of_reach h
  obtain ⟨host, hst, hb, hpipe⟩ := step_poll_response hr ho
  have h1 := (h.mono fun _ _ _ => trivial : commands.Reach free s).step trivial hst
  have hne : host.responsePipe ≠ [] := by
    rw [hpipe]
    exact List.concat_ne_nil _ _
  unfold Expected at hok
  rw [Classical.not_imp] at hok
  obtain ⟨ht, hok⟩ := hok
  rcases hp : s.phase with _ | _ | _ | _ | _
  · exact exists_mispaired_of_surplus h1 hr hp hne
  · by_cases hnil : s.host.responsePipe = []
    · -- the answer of another command
      refine exists_mispaired_of_token h1 hr hp hne fun hid => hok ⟨hnil, fun _ => ⟨hp, h2, ?_⟩⟩
      have hid' : emberFetchHighLowInt16u host.responseBuffer 0 = s.commandId := hid
      rwa [hb, fetch_cpcRx s.host h2] at hid'
    · -- a second token
      obtain ⟨token, tokens, htok⟩ := List.exists_cons_of_ne_nil hnil
      have htok' : host.responsePipe = token :: (tokens ++ [0]) := by
        rw [hpipe, htok]
        rfl
      have hcopy := step_waitAndCopy (s := { s with host := host }) hr hp htok'
      exact exists_mispaired_of_returned (h1.step trivial hcopy) hr rfl (List.concat_ne_nil _ _)
  · exact absurd hp ht
  · exact absurd hp hinv.atomic
  · exact exists_mispaired_of_returned h1 hr hp hne

/-! ## A token too many -/

/-- A command that finds a token, and the answer to it, which comes then. -/
def tokenFirst (x : Mem × CpcFrame) : List Label :=
  [.send x.1, .waitAndCopy, .release, .poll x.2]

/-- Every command returns the identifier of the one before it. -/
def shifted (before : UInt16) : List UInt16 → List Returned
  | [] => []
  | n :: ns => ⟨n, before⟩ :: shifted n ns

/-- **One token too many shifts every later command**: all of them are answered, and each one returns
the answer to the one before. -/
theorem exec_shifted {xs : List (Mem × CpcFrame)} (hx : ∀ x ∈ xs, x.2.origin = responseOrigin ∧
      Answers x.2 (emberFetchHighLowInt16u x.1 0)) (hr : s.exited = false) (hp : s.phase = .idle)
    (ht : s.host.responsePipe = [0]) :
    ∃ s', commands.exec free s (xs.flatMap tokenFirst) =
      some (s', shifted (emberFetchHighLowInt16u s.host.responseBuffer 0)
        (xs.map fun x => emberFetchHighLowInt16u x.1 0)) := by
  induction xs generalizing s with
  | nil => exact ⟨s, rfl⟩
  | cons x xs ih =>
    obtain ⟨⟨ho, h2, hid⟩, hxs⟩ := List.forall_mem_cons.mp hx
    have hsend := step_send x.1 hr hp
    set s1 : Commands := { s with
      host := { s.host with apiCommandData := x.1 }
      phase := .waiting
      commandId := emberFetchHighLowInt16u x.1 0 } with hs1
    have hcopy := step_waitAndCopy (s := s1) hr rfl ht
    set s2 : Commands := { s1 with
      host := { s1.host with responsePipe := [] }.memcpyResponse
      phase := .returned } with hs2
    have hrelease := step_release (s := s2) hr rfl
    set s3 : Commands := { s2 with phase := .idle } with hs3
    obtain ⟨host, hpoll, hb, hpipe⟩ := step_poll_response (s := s3) hr ho
    set s4 : Commands := { s3 with host := host } with hs4
    have hlast : emberFetchHighLowInt16u s4.host.responseBuffer 0 =
        emberFetchHighLowInt16u x.1 0 := by
      rw [show s4.host.responseBuffer = _ from hb, fetch_cpcRx _ h2, hid]
    obtain ⟨s', hs'⟩ := ih (s := s4) hxs hr rfl hpipe
    rw [hlast] at hs'
    exact ⟨s', System.exec_of_step trivial hsend (System.exec_of_step trivial hcopy
      (System.exec_of_step trivial hrelease (System.exec_of_step trivial hpoll hs')))⟩

/-- **The answer to `emberGetNodeId` comes twice**: `emberGetPanId` returns it. -/
theorem not_carries_of_duplicate : ¬ ∀ s : Commands, commands.Reach free s → s.phase = .returned →
    emberFetchHighLowInt16u s.host.apiCommandData 0 = s.commandId := by
  intro h
  have h0 : commands.Reach free Commands.init := .start rfl
  obtain ⟨s, hs, hf⟩ := System.exists_reach_of_exec
    [.send getNodeId, .poll nodeIdAnswer, .waitAndCopy, .release, .poll nodeIdAnswer,
      .send getPanId, .waitAndCopy]
    (fun s : Commands => (s.phase, s.commandId, emberFetchHighLowInt16u s.host.apiCommandData 0))
    (b := (.returned, 0x6912, 0x6911)) h0 (by decide +kernel)
  simp only [Prod.mk.injEq] at hf
  obtain ⟨hp, hid, hcarried⟩ := hf
  have hpaired := h s hs hp
  rw [hid, hcarried] at hpaired
  exact absurd hpaired (by decide)

end ConnectNcpHost.HostCommon.Pairing
