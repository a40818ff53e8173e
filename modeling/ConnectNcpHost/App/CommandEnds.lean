import ConnectNcpHost.App.CommandRuns
import ConnectNcpHost.HostCommon.CallProgress

/-! # Every command comes to its end

A command waits for the mutex, for the NCP and for the poll thread, in each of its calls.
`exists_ret_of_reach`: wherever it stands, as long as no `poll` has timed out, the steps of these
alone, and of the command itself, lead to its end; no other thread has to call the API, and no
callback has to come. -/

namespace ConnectNcpHost.App.CommandEnds

open ConnectNcpHost.Lib.Runs ConnectNcpHost.Lib.Programs
open ConnectNcpHost.Csp.Codec ConnectNcpHost.Csp.Variables
open ConnectNcpHost.Csp.ApiCommands ConnectNcpHost.HostCommon.CpcHost
open ConnectNcpHost.HostCommon.ResponseIntegrity ConnectNcpHost.HostCommon.RemoteCalls
open ConnectNcpHost.HostCommon.CallProgress ConnectNcpHost.App.Commands
open ConnectNcpHost.App.CommandRuns

variable {long : Bool} {k : Command} {settings : Settings} {s : CommandRun long}

/-! ## The steps of the command and of those it waits for -/

/-- The steps of the command, of the NCP and the poll thread, and of a caller before it. -/
def bringsOn : App.CommandRuns.Label long → Bool
  | .remote (.exchange .release) => true
  | .remote l => bringsAnswer l
  | _ => true

/-- The same, where no frame is read between the token of an answer and its `memcpy`. -/
def BringsOn (s : CommandRun long) (l : App.CommandRuns.Label long) : Prop :=
  KeepsAnswers s l ∧ bringsOn l = true

/-- The command is running, and no `poll` has timed out. -/
structure Alive (k : Command) (settings : Settings) (s : CommandRun long) : Prop where
  reach : (commandRun long k settings).Reach KeepsAnswers s
  running : s.remote.exchange.exited = false
  inTime : s.remote.exchange.phase ≠ .timedOut

theorem needsMutex_of_bringsAnswer {l : HostCommon.RemoteCalls.Label long}
    (h : bringsAnswer l = true) : needsMutex l = false ∧ bringsOn (.remote l) = true := by
  cases l with
  | call c => cases h
  | serve d => exact ⟨rfl, rfl⟩
  | exchange l =>
    cases l with
    | rx => exact ⟨rfl, rfl⟩
    | dispatch => exact ⟨rfl, rfl⟩
    | readToken => exact ⟨rfl, rfl⟩
    | memcpy => exact ⟨rfl, rfl⟩
    | _ => cases h

/-- What brings an answer can be done while the command waits. -/
theorem leads_remote {r t : Remote long} (h : (remote long).Leads BringsAnswer r t) :
    ∀ s : CommandRun long, s.remote = r →
      (commandRun long k settings).Leads BringsOn s { s with remote := t } := by
  induction h with
  | refl r =>
    rintro s rfl
    exact .refl s
  | @step r r' t l out hl hst _ ih =>
    rintro s rfl
    obtain ⟨hmutex, hon⟩ := needsMutex_of_bringsAnswer hl.2
    have hstep : (commandRun long k settings).step s (.remote l) =
        some ({ s with remote := r' }, []) := by
      simp only [commandRun, hmutex, Bool.false_eq_true, and_false, if_false, hst, Option.map_some]
    exact .step (i := .remote l) ⟨hl.1, hon⟩ hstep (ih { s with remote := r' } rfl)

/-- While the mutex is held it is not released by the others. -/
theorem phase_of_step {r r' : Remote long} {l : HostCommon.RemoteCalls.Label long}
    {out : List Empty} (hst : (remote long).step r l = some (r', out)) (hl : needsMutex l = false)
    (hp : r.exchange.phase ≠ .idle) : r'.exchange.phase ≠ .idle := by
  cases l with
  | call c => cases hl
  | serve d =>
    simp only [remote] at hst
    split_ifs at hst
    obtain ⟨⟨t, out'⟩, hstep, ht⟩ := Option.map_eq_some_iff.mp hst
    obtain ⟨rfl, -⟩ := Prod.mk.inj ht
    cases exchangeTrans_of_step hstep with
    | answer ht hf => exact hp
  | exchange l =>
    simp only [remote] at hst
    split_ifs at hst
    obtain ⟨⟨t, out'⟩, hstep, ht⟩ := Option.map_eq_some_iff.mp hst
    obtain ⟨rfl, -⟩ := Prod.mk.inj ht
    cases exchangeTrans_of_step hstep with
    | release hp' => cases hl
    | _ => first | exact hp | exact Phase.noConfusion

/-- While the command waits, the mutex is held. -/
theorem phase_of_pending (h : (commandRun long k settings).Reach KeepsAnswers s)
    (hpending : s.pending = true) : s.remote.exchange.phase ≠ .idle := by
  refine System.Reach.invariant (I := fun s : CommandRun long => s.pending = true →
    s.remote.exchange.phase ≠ .idle) (fun s hs => ?_) (fun s l s' out _ hinv _ hst => ?_) h hpending
  · obtain ⟨-, -, hpending, -⟩ := hs
    exact fun hp => Bool.noConfusion (hpending.symm.trans hp)
  · obtain ⟨r, rest, pending, calls, texts⟩ := s
    cases l with
    | print =>
      cases rest with
      | print text next =>
        obtain ⟨rfl, -⟩ := Prod.mk.inj (Option.some.inj hst)
        exact hinv
      | _ => cases hst
    | call =>
      cases rest with
      | call c next =>
        simp only [commandRun] at hst
        split_ifs at hst with hc
        obtain ⟨⟨t, out'⟩, hstep, ht⟩ := Option.map_eq_some_iff.mp hst
        obtain ⟨rfl, -⟩ := Prod.mk.inj ht
        simp only [remote, Option.bind_eq_some_iff, Option.map_eq_some_iff] at hstep
        obtain ⟨m, -, ⟨e, out''⟩, hsend, he⟩ := hstep
        obtain ⟨rfl, -⟩ := Prod.mk.inj he
        cases exchangeTrans_of_step hsend with
        | send hp => exact fun _ => Phase.noConfusion
      | _ => cases hst
    | fetch v =>
      cases rest with
      | call c next =>
        simp only [commandRun] at hst
        split_ifs at hst
        obtain ⟨x, -, hx⟩ := Option.map_eq_some_iff.mp hst
        obtain ⟨rfl, -⟩ := Prod.mk.inj hx
        exact fun hp => Bool.noConfusion hp
      | _ => cases hst
    | remote l =>
      simp only [commandRun] at hst
      split_ifs at hst with hmutex
      obtain ⟨⟨t, out'⟩, hstep, ht⟩ := Option.map_eq_some_iff.mp hst
      obtain ⟨rfl, -⟩ := Prod.mk.inj ht
      intro hp
      exact phase_of_step hstep (Bool.eq_false_iff.mpr fun hl => hmutex ⟨hp, hl⟩) (hinv hp)

/-! ## One call -/

/-- The call that is on its way gets its results. -/
theorem exists_returned_run (h : Alive k settings s) (hp : s.remote.exchange.phase ≠ .idle) :
    ∃ t, (commandRun long k settings).Leads BringsOn s { s with remote := t } ∧
      Alive k settings { s with remote := t } ∧ t.exchange.phase = .returned := by
  obtain ⟨ds, hinv⟩ := runInv_of_reach h.reach
  have hunderway : Underway s.remote.calls s.remote := by
    refine ⟨hinv.remote, h.running, ?_, rfl⟩
    rcases hphase : s.remote.exchange.phase
    · exact absurd hphase hp
    · exact Or.inl rfl
    · exact absurd hphase h.inTime
    · exact Or.inr (Or.inl rfl)
    · exact Or.inr (Or.inr rfl)
  obtain ⟨t, hleads, ht, hreturned⟩ := exists_returned hunderway
  have hleads' : (commandRun long k settings).Leads BringsOn s { s with remote := t } :=
    leads_remote hleads s rfl
  refine ⟨t, hleads', ⟨hleads'.reach (fun _ _ hok => hok.1) h.reach, ht.running, ?_⟩, hreturned⟩
  rw [hreturned]
  exact Phase.noConfusion

/-- The caller before releases the mutex. -/
theorem exists_idle (h : Alive k settings s) (hpending : s.pending = false) :
    ∃ t, (commandRun long k settings).Leads BringsOn s { s with remote := t } ∧
      Alive k settings { s with remote := t } ∧ t.exchange.phase = .idle := by
  by_cases hp : s.remote.exchange.phase = .idle
  · exact ⟨s.remote, .refl s, h, hp⟩
  · obtain ⟨t, hleads, ht, hreturned⟩ := exists_returned_run h hp
    have hnext : t.exchange.next .release = some { t.exchange with phase := .idle } :=
      if_pos hreturned
    have hstep : (commandRun long k settings).step { s with remote := t }
        (.remote (.exchange .release)) =
        some ({ s with remote := ⟨{ t.exchange with phase := .idle }, t.calls, t.served⟩ }, []) := by
      simp only [commandRun, hpending, Bool.false_eq_true, false_and, if_false,
        step_exchange rfl ht.running hnext, Option.map_some]
    have hok : BringsOn { s with remote := t } (.remote (.exchange .release)) :=
      ⟨by rintro ⟨⟩, rfl⟩
    exact ⟨_, hleads.trans (.single hok hstep), ⟨ht.reach.step hok.1 hstep, ht.running,
      Phase.noConfusion⟩, rfl⟩

variable {c : ApiCall} {next : c.reply.Variables → CliProgram}

/-- The command makes its call. -/
theorem exists_called (h : Alive k settings s) (hpending : s.pending = false)
    (hidle : s.remote.exchange.phase = .idle) (hrest : s.rest = .call c next)
    (hwhole : EncodesWhole long c) :
    ∃ t, (commandRun long k settings).Leads BringsOn s { s with remote := t, pending := true } ∧
      Alive k settings { s with remote := t, pending := true } ∧ t.exchange.phase ≠ .idle := by
  obtain ⟨-, m, length, hencode, -⟩ :=
    exists_encode long s.remote.exchange.host.apiCommandData c hwhole.1 hwhole.2
  obtain ⟨e, hnext, hrunning, hphase⟩ : ∃ e, s.remote.exchange.next (.send m length) = some e ∧
      e.exited = false ∧ e.phase = .waiting := ⟨_, if_pos hidle, h.running, rfl⟩
  have hremote : (remote long).step s.remote (.call ⟨c, hwhole.1, hwhole.2⟩) =
      some (⟨e, s.remote.calls ++ [⟨c, hwhole.1, hwhole.2⟩], s.remote.served⟩, []) := by
    simp only [remote, hencode, Option.bind_some, exchange, h.running, Bool.false_eq_true,
      if_false, hnext, Option.map_some]
  have hstep : (commandRun long k settings).step s .call = some ({ s with
      remote := ⟨e, s.remote.calls ++ [⟨c, hwhole.1, hwhole.2⟩], s.remote.served⟩
      pending := true }, []) := by
    simp only [commandRun, hrest]
    rw [dif_pos ⟨hpending, hwhole⟩, hremote]
    rfl
  have hok : BringsOn s .call := ⟨trivial, rfl⟩
  refine ⟨_, .single hok hstep, ⟨h.reach.step hok.1 hstep, hrunning, ?_⟩, ?_⟩
  · exact fun heq => Phase.noConfusion (hphase.symm.trans heq)
  · exact fun heq => Phase.noConfusion (hphase.symm.trans heq)

/-- The command waits, and gets its results. -/
theorem exists_fetched (h : Alive k settings s) (hpending : s.pending = true)
    (hrest : s.rest = .call c next) :
    ∃ t x, (commandRun long k settings).Leads BringsOn s t ∧ Alive k settings t ∧
      t.rest = next x ∧ t.pending = false := by
  obtain ⟨r, hleads, ht, hreturned⟩ := exists_returned_run h (phase_of_pending h.reach hpending)
  obtain ⟨ds, hinv⟩ := runInv_of_reach ht.reach
  obtain ⟨c', next', f, hrest', hlast, rfl, -⟩ := hinv.waits hpending
  obtain ⟨rfl, hnext⟩ := Program.call.inj (hrest.symm.trans hrest')
  obtain ⟨-, d, -, -, hresults⟩ := fetched_of_returned hinv.remote hreturned hlast
  obtain ⟨x, hx, -⟩ := Option.map_eq_some_iff.mp (hresults f.call.reply.zeros)
  have hstep : (commandRun long k settings).step { s with remote := r }
      (.fetch fun c => c.reply.zeros) = some ({ s with
        remote := r, rest := next x, pending := false, calls := s.calls ++ [⟨f.call, x⟩] }, []) := by
    simp only [commandRun, hrest]
    rw [if_pos ⟨hpending, hreturned⟩, hx]
    rfl
  have hok : BringsOn { s with remote := r } (.fetch fun c => c.reply.zeros) := ⟨trivial, rfl⟩
  exact ⟨_, x, hleads.trans (.single hok hstep),
    ⟨ht.reach.step hok.1 hstep, ht.running, ht.inTime⟩, rfl, rfl⟩

/-- A call is made, where it is not made yet, and gets its results. -/
theorem exists_answered (h : Alive k settings s) (hrest : s.rest = .call c next)
    (hwhole : EncodesWhole long c) :
    ∃ t x, (commandRun long k settings).Leads BringsOn s t ∧ Alive k settings t ∧
      t.rest = next x := by
  rcases hpending : s.pending
  · obtain ⟨r, hleads, hr, hidle⟩ := exists_idle h hpending
    obtain ⟨t, hleads', ht, -⟩ := exists_called hr hpending hidle hrest hwhole
    obtain ⟨u, x, hleads'', hu, hnext, -⟩ := exists_fetched ht rfl hrest
    exact ⟨u, x, (hleads.trans hleads').trans hleads'', hu, hnext⟩
  · obtain ⟨t, x, hleads, ht, hnext, -⟩ := exists_fetched h hpending hrest
    exact ⟨t, x, hleads, ht, hnext⟩

/-! ## The whole command -/

/-- What is left of a command comes to its end: by induction on the program. -/
theorem exists_ret (p : CliProgram) (hdefined : p.Defined) (huses : p.Uses (EncodesWhole long)) :
    ∀ s : CommandRun long, Alive k settings s → s.rest = p →
      ∃ t settings', (commandRun long k settings).Leads BringsOn s t ∧
        t.rest = .ret settings' := by
  induction p with
  | ret settings' => exact fun s _ hrest => ⟨s, settings', .refl s, hrest⟩
  | undefined => exact absurd hdefined Program.not_defined_undefined
  | print text next ih =>
    intro s h hrest
    have hstep : (commandRun long k settings).step s .print =
        some ({ s with rest := next, texts := s.texts ++ [text] }, []) := by
      simp only [commandRun, hrest]
    have hok : BringsOn s .print := ⟨trivial, rfl⟩
    obtain ⟨t, settings', hleads, ht⟩ := ih hdefined huses
      { s with rest := next, texts := s.texts ++ [text] }
      ⟨h.reach.step hok.1 hstep, h.running, h.inTime⟩ rfl
    exact ⟨t, settings', .step hok hstep hleads, ht⟩
  | call c next ih =>
    intro s h hrest
    obtain ⟨t, x, hleads, ht, hnext⟩ := exists_answered h hrest huses.1
    obtain ⟨u, settings', hleads', hu⟩ := ih x (hdefined x) (huses.2 x) t ht hnext
    exact ⟨u, settings', hleads.trans hleads', hu⟩

end ConnectNcpHost.App.CommandEnds
