import ConnectNcpHost.App.Commands
import ConnectNcpHost.HostCommon.RemoteCalls

/-! # Commands over the link

A command runs in its thread while the rest of the host and the NCP run: its calls take the mutex,
are encoded, carried out by the NCP and answered, other threads call the API in between, and
callbacks come at any time.

`run_of_reach`: what the command prints, and what it calls, is a path of its program in which every
call is answered by the results the NCP has given to this call; it never waits for the encoder. -/

namespace ConnectNcpHost.App.CommandRuns

open ConnectNcpHost.Lib.Runs ConnectNcpHost.Lib.Programs ConnectNcpHost.Stack.ByteUtilities
open ConnectNcpHost.Csp.Codec ConnectNcpHost.Csp.Variables ConnectNcpHost.Csp.ApiCommands
open ConnectNcpHost.HostCommon.CpcHost ConnectNcpHost.HostCommon.RemoteCalls
open ConnectNcpHost.App.Commands

variable {long : Bool}

/-! ## The model -/

/-- The call with its results, as the program has fetched them. -/
abbrev Fetched : Type := Program.Answered fun c : ApiCall => c.reply.Variables

/-- The thread of the command, the host and the NCP. -/
structure CommandRun (long : Bool) where
  remote : Remote long
  /-- what is left of the program -/
  rest : CliProgram
  /-- the thread holds the mutex: the call in front of `rest` is made -/
  pending : Bool
  /-- the calls, with their results (history) -/
  calls : List Fetched
  /-- what was printed (history) -/
  texts : List (List Char)

inductive Label (long : Bool)
  | print
  /-- the thread makes its next call -/
  | call
  /-- the call returns; the variables of the caller held `v` -/
  | fetch (v : (c : ApiCall) → c.reply.Variables)
  /-- a step of the others -/
  | remote (l : HostCommon.RemoteCalls.Label long)

/-- The steps for which a thread needs the mutex. -/
def needsMutex : HostCommon.RemoteCalls.Label long → Bool
  | .call _ => true
  | .exchange .release => true
  | _ => false

instance (c : ApiCall) : Decidable (EncodesWhole long c) := by unfold EncodesWhole; infer_instance

/-- **A command, while the rest of the host runs.** -/
def commandRun (long : Bool) (k : Command) (settings : Settings) :
    System (CommandRun long) (Label long) Empty where
  start s := (remote long).Reach KeepsAnswer s.remote ∧ s.rest = k.program settings ∧
    s.pending = false ∧ s.calls = [] ∧ s.texts = []
  step s
    | .print =>
      match s.rest with
      | .print text next => some ({ s with rest := next, texts := s.texts ++ [text] }, [])
      | _ => none
    | .call =>
      match s.rest with
      | .call c _ =>
        if h : s.pending = false ∧ EncodesWhole long c then
          ((remote long).step s.remote (.call ⟨c, h.2.1, h.2.2⟩)).map fun t =>
            ({ s with remote := t.1, pending := true }, [])
        else none
      | _ => none
    | .fetch v =>
      match s.rest with
      | .call c next =>
        if s.pending = true ∧ s.remote.exchange.phase = .returned then
          (fetchApiParams long s.remote.exchange.host.apiCommandData 0 c.reply.pointers (v c)).map
            fun x => ({ s with rest := next x, pending := false, calls := s.calls ++ [⟨c, x⟩] }, [])
        else none
      | _ => none
    | .remote l =>
      if s.pending = true ∧ needsMutex l = true then none
      else ((remote long).step s.remote l).map fun t => ({ s with remote := t.1 }, [])

/-- No frame is read between the token of an answer and its `memcpy`. -/
def KeepsAnswers (s : CommandRun long) : Label long → Prop
  | .remote l => KeepsAnswer s.remote l
  | _ => True

instance (s : CommandRun long) (l : Label long) : Decidable (KeepsAnswers s l) := by
  refine l.casesOn ?_ ?_ ?_ ?_ <;> intros <;> unfold KeepsAnswers <;> infer_instance

/-! ## The invariant -/

/-- The NCP has carried out this call, and these are its results. -/
structure AnsweredBy (a : Fetched) (d : Served long) : Prop where
  function : SameFunction a.1 d.call
  items : a.1.items = d.call.items
  results : a.1.reply.items a.2 = d.call.reply.items d.results

/-- **Invariant**: the command is on a path of its program, its calls were answered by `ds`, in
order, and the call it waits for is the last one that was made. -/
structure RunInv (k : Command) (settings : Settings) (s : CommandRun long)
    (ds : List (Served long)) : Prop where
  path : Program.Reaches (k.program settings) s.calls s.texts s.rest
  remote : (remote long).Reach KeepsAnswer s.remote
  answered : List.Forall₂ AnsweredBy s.calls ds
  order : ds.Sublist s.remote.served
  waits : s.pending = true → ∃ c next f, s.rest = .call c next ∧
    s.remote.calls.getLast? = some f ∧ f.call = c ∧
    ds.Sublist (s.remote.served.take (s.remote.calls.length - 1))

variable {k : Command} {settings : Settings} {s s' : CommandRun long} {ds : List (Served long)}
  {out : List Empty}

/-- What the steps of the others do to the calls. -/
theorem calls_of_step {r r' : Remote long} {l : HostCommon.RemoteCalls.Label long}
    (h : (HostCommon.RemoteCalls.remote long).step r l = some (r', out)) :
    (needsMutex l = true ∨ r'.calls = r.calls) ∧ ∃ ds, r'.served = r.served ++ ds := by
  cases l with
  | call c =>
    simp only [HostCommon.RemoteCalls.remote, Option.bind_eq_some_iff, Option.map_eq_some_iff,
      Prod.mk.injEq] at h
    obtain ⟨m, -, t, -, rfl, -⟩ := h
    exact ⟨.inl rfl, [], (List.append_nil _).symm⟩
  | serve d =>
    simp only [HostCommon.RemoteCalls.remote] at h
    split_ifs at h
    simp only [Option.map_eq_some_iff, Prod.mk.injEq] at h
    obtain ⟨t, -, rfl, -⟩ := h
    exact ⟨.inr rfl, [d], rfl⟩
  | exchange l =>
    simp only [HostCommon.RemoteCalls.remote] at h
    split_ifs at h
    simp only [Option.map_eq_some_iff, Prod.mk.injEq] at h
    obtain ⟨t, -, rfl, -⟩ := h
    exact ⟨.inr rfl, [], (List.append_nil _).symm⟩

theorem runInv_print (h : RunInv k settings s ds)
    (hst : (commandRun long k settings).step s .print = some (s', out)) :
    RunInv k settings s' ds := by
  obtain ⟨remote, rest, pending, calls, texts⟩ := s
  cases rest with
  | print text next =>
    obtain ⟨rfl, -⟩ := Prod.mk.inj (Option.some.inj hst)
    refine ⟨.print h.path, h.remote, h.answered, h.order, fun hp => ?_⟩
    obtain ⟨c, next', f, hrest, -⟩ := h.waits hp
    cases hrest
  | _ => cases hst

/-- What was served fits the calls that were made. -/
theorem served_le {r : Remote long} (h : (HostCommon.RemoteCalls.remote long).Reach KeepsAnswer r) :
    r.served.length ≤ r.calls.length :=
  (remoteInv_of_reach h).1.served_le

theorem runInv_call (h : RunInv k settings s ds)
    (hst : (commandRun long k settings).step s .call = some (s', out)) :
    RunInv k settings s' ds := by
  obtain ⟨remote, rest, pending, calls, texts⟩ := s
  cases rest with
  | call c next =>
    simp only [commandRun] at hst
    split_ifs at hst with hc
    simp only [Option.map_eq_some_iff, Prod.mk.injEq] at hst
    obtain ⟨⟨t, out'⟩, hstep, rfl, -⟩ := hst
    have hok : KeepsAnswer remote (.call ⟨c, hc.2.1, hc.2.2⟩) := trivial
    have hreach : (HostCommon.RemoteCalls.remote long).Reach KeepsAnswer t :=
      h.remote.step hok hstep
    have hle := served_le h.remote
    simp only [HostCommon.RemoteCalls.remote, Option.bind_eq_some_iff, Option.map_eq_some_iff,
      Prod.mk.injEq] at hstep
    obtain ⟨m, -, e, -, rfl, -⟩ := hstep
    refine ⟨h.path, hreach, h.answered, h.order, fun _ => ⟨c, next, ⟨c, hc.2.1, hc.2.2⟩, rfl, ?_,
      rfl, ?_⟩⟩
    · exact List.getLast?_concat
    · show ds.Sublist (remote.served.take ((remote.calls ++ [_]).length - 1))
      rw [List.length_append, List.length_singleton, Nat.add_sub_cancel,
        List.take_of_length_le hle]
      exact h.order
  | _ => cases hst

theorem runInv_fetch {v : (c : ApiCall) → c.reply.Variables} (h : RunInv k settings s ds)
    (hst : (commandRun long k settings).step s (.fetch v) = some (s', out)) :
    ∃ d, RunInv k settings s' (ds ++ [d]) := by
  obtain ⟨remote, rest, pending, calls, texts⟩ := s
  cases rest with
  | call c next =>
    simp only [commandRun] at hst
    split_ifs at hst with hp
    simp only [Option.map_eq_some_iff, Prod.mk.injEq] at hst
    obtain ⟨x, hfetch, rfl, -⟩ := hst
    obtain ⟨c', next', f, hrest, hlast, hcall, hsub⟩ := h.waits hp.1
    obtain ⟨rfl, hnext⟩ := Program.call.inj hrest
    -- the last call is that of the command: the NCP has answered it
    obtain ⟨hlength, d, hd, hcarried, hresults⟩ := fetched_of_returned h.remote hp.2 hlast
    subst hcall
    have hitems := hresults (v f.call)
    rw [hfetch, Option.map_some, Option.some.injEq] at hitems
    obtain ⟨before, hserved⟩ := List.getLast?_eq_some_iff.mp hd
    refine ⟨d, h.path.call x, h.remote,
      List.rel_append h.answered (.cons ⟨hcarried.function, hcarried.items, hitems⟩ .nil), ?_,
      fun hp' => by cases hp'⟩
    show (ds ++ [d]).Sublist remote.served
    dsimp only at hsub hserved hlength
    rw [← hlength, hserved, List.length_append, List.length_singleton, Nat.add_sub_cancel,
      List.take_left' rfl] at hsub
    rw [hserved]
    exact hsub.append (List.Sublist.refl [d])
  | _ => cases hst

theorem runInv_remote {l : HostCommon.RemoteCalls.Label long} (h : RunInv k settings s ds)
    (hl : KeepsAnswer s.remote l)
    (hst : (commandRun long k settings).step s (.remote l) = some (s', out)) :
    RunInv k settings s' ds := by
  simp only [commandRun] at hst
  split_ifs at hst with hmutex
  simp only [Option.map_eq_some_iff, Prod.mk.injEq] at hst
  obtain ⟨⟨t, out'⟩, hstep, rfl, -⟩ := hst
  obtain ⟨hcalls, more, hserved⟩ := calls_of_step hstep
  refine ⟨h.path, h.remote.step hl hstep, h.answered, ?_, fun hp => ?_⟩
  · show ds.Sublist t.served
    rw [hserved]
    exact h.order.trans (List.sublist_append_left _ _)
  · obtain ⟨c, next, f, hrest, hlast, hcall, hsub⟩ := h.waits hp
    have hsame : t.calls = s.remote.calls := hcalls.resolve_left fun hneeds => hmutex ⟨hp, hneeds⟩
    refine ⟨c, next, f, hrest, ?_, hcall, ?_⟩
    · show t.calls.getLast? = some f
      rw [hsame]
      exact hlast
    · show ds.Sublist (t.served.take (t.calls.length - 1))
      rw [hsame, hserved, List.take_append]
      exact hsub.trans (List.sublist_append_left _ _)

theorem runInv_of_reach (h : (commandRun long k settings).Reach KeepsAnswers s) :
    ∃ ds, RunInv k settings s ds := by
  refine System.Reach.invariant (I := fun s => ∃ ds, RunInv k settings s ds) (fun s hs => ?_)
    (fun s l s' out _ hinv hok hst => ?_) h
  · obtain ⟨hremote, hrest, hpending, hcalls, htexts⟩ := hs
    refine ⟨[], ?_, hremote, ?_, List.nil_sublist _, fun hp => ?_⟩
    · rw [hrest, hcalls, htexts]
      exact .start
    · rw [hcalls]
      exact .nil
    · rw [hpending] at hp
      cases hp
  · obtain ⟨ds, hinv⟩ := hinv
    cases l with
    | print => exact ⟨ds, runInv_print hinv hst⟩
    | call => exact ⟨ds, runInv_call hinv hst⟩
    | fetch v =>
      obtain ⟨d, hinv'⟩ := runInv_fetch hinv hst
      exact ⟨_, hinv'⟩
    | remote l => exact ⟨ds, runInv_remote hinv hok hst⟩

/-- **A command runs over the link as it is written.** In every run in which no frame is read
between the token of an answer and its `memcpy`, whatever other threads call in between, what the
command has printed and called is a path of its program; its calls were carried out by the NCP, each
once and in order, with the values they were made with, and were answered by the results the NCP
gave to them. Where its message fits the mode and the buffer, the next call is encoded as a whole.
-/
theorem run_of_reach (h : (commandRun long k settings).Reach KeepsAnswers s) :
    Program.Reaches (k.program settings) s.calls s.texts s.rest ∧
      (∃ ds, ds.Sublist s.remote.served ∧ List.Forall₂ AnsweredBy s.calls ds) ∧
      (k.sends ≤ maxLength long ∧ k.sends ≤ maxMessageLength →
        ∀ c next, s.rest = .call c next → EncodesWhole long c) := by
  obtain ⟨ds, hinv⟩ := runInv_of_reach h
  refine ⟨hinv.path, ⟨ds, hinv.order, hinv.answered⟩, fun hsends c next hrest => ?_⟩
  obtain ⟨huses, -⟩ := Program.uses_of_reaches hinv.path ((uses_iff k settings).mpr hsends)
  rw [hrest] at huses
  exact huses.1

/-- `counter 3`, while callbacks come in. -/
def counterCommandRun : List (Label true) :=
  [.call, .remote (.serve counterResults),
    .remote (.exchange (.callback HostCommon.ResponseIntegrity.stackStatusCallback)),
    .remote (.exchange .rx), .remote (.exchange .dispatch), .remote (.exchange .readToken),
    .remote (.exchange .memcpy), .remote (.exchange .rx), .fetch fun c => c.reply.zeros, .print]

theorem run_of_reach_counter : ∃ s : CommandRun true,
    s.texts = ["Counter type=0x03: 42\n".toList] ∧
      Program.Reaches ((Command.counter 3).program Settings.init) s.calls s.texts s.rest ∧
      (∃ ds, ds.Sublist s.remote.served ∧ List.Forall₂ AnsweredBy s.calls ds) := by
  have h0 : (commandRun true (.counter 3) Settings.init).Reach KeepsAnswers
      ⟨⟨Exchange.init, [], []⟩, (Command.counter 3).program Settings.init, false, [], []⟩ :=
    .start ⟨.start rfl, rfl, rfl, rfl, rfl⟩
  obtain ⟨s, hs, htexts⟩ := System.exists_reach_of_exec counterCommandRun
    (fun s => s.texts) (b := ["Counter type=0x03: 42\n".toList]) h0 (by decide +kernel)
  obtain ⟨hpath, hserved, -⟩ := run_of_reach hs
  exact ⟨s, htexts, hpath, hserved⟩

end ConnectNcpHost.App.CommandRuns
