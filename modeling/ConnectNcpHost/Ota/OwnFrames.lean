import ConnectNcpHost.Ota.SentCallbacks

/-! # A sent callback acts on its own frame

The frames the NCP accepts are numbered. A sent callback names the command of its frame and nothing
else, and it is taken for the frame that is pending. `OwnFrameOnly`: only the callback of the frame
accepted last acts. It holds in every run in which the NCP accepts a frame only while no earlier
frame with a callback to come can still be taken for a pending one (`Alone`). After any other
acceptance, the callback of an earlier frame acts, at once or behind the return of a call
(`ownFrameOnly_of_alone`). A segment that is answered before its sent callback leaves such a frame
behind (`callback_of_earlier_segment`). -/

namespace ConnectNcpHost.Ota.OwnFrames

open ConnectNcpHost.Lib.Runs ConnectNcpHost.Ota.Protocol ConnectNcpHost.Ota.BootloaderServer
open ConnectNcpHost.Ota.Transition ConnectNcpHost.Ota.Frames ConnectNcpHost.Ota.SentCallbacks

variable {cfg : Config} {s : Server} {t : Threads} {r : Request}

/-! ## Numbered frames -/

/-- How many frames the NCP has accepted, and the numbers of the live ones. -/
structure Numbering where
  accepted : ℕ
  numbers : List ℕ

/-- An accepted frame gets the next number; its callback takes it off. -/
def Numbering.record (g : Numbering) (_ : Threads) : Label → List Action → Numbering
  | .answer _ status, _ =>
    if status = emberSuccess then ⟨g.accepted + 1, g.numbers ++ [g.accepted]⟩ else g
  | .deliver j _, _ => { g with numbers := g.numbers.eraseIdx j }
  | _, _ => g

/-- The server and the callbacks of its frames, the frames numbered. -/
def numbered (cfg : Config) : System (Threads × Numbering) Label Action :=
  (sentCallbacks cfg).observe ⟨0, []⟩ Numbering.record

/-- The live frame number `j` is the one accepted last. -/
def Numbering.Latest (g : Numbering) (j : ℕ) : Prop :=
  g.numbers[j]?.map (· + 1) = some g.accepted

instance (g : Numbering) (j : ℕ) : Decidable (g.Latest j) := by
  unfold Numbering.Latest; infer_instance

/-- **A sent callback acts only if it is that of the frame accepted last.** -/
structure OwnFrameOnly (cfg : Config) (p : Threads × Numbering) : Prop where
  live : ∀ j f, p.1.live[j]? = some f → ¬ p.2.Latest j → ∀ status,
    emAfPluginOtaUnicastBootloaderServerMessageSentCallback cfg status f p.1.server =
      ⟨p.1.server, []⟩
  foreign : ∀ f, (∀ r, ¬ Carries f r) → ∀ status,
    emAfPluginOtaUnicastBootloaderServerMessageSentCallback cfg status f p.1.server =
      ⟨p.1.server, []⟩

/-! ## The condition -/

/-- The server waits for the sent callback of the request, or will once a call has returned. -/
def Expects (t : Threads) (r : Request) : Prop :=
  t.server.internalState = r.pending ∨
    ∃ c ∈ t.calls, c.request = r ∧ c.answer = some emberSuccess

instance (t : Threads) (r : Request) : Decidable (Expects t r) := by
  unfold Expects; infer_instance

/-- The condition on the steps of a run: where the NCP accepts a frame, no live frame carries the same
request, or one whose sent callback the server expects. -/
def Alone (t : Threads) : Label → Prop
  | .answer k status => status = emberSuccess → ∀ c ∈ t.calls[k]?, ∀ f ∈ t.live,
    ¬ ∃ r, Carries f r ∧ (r = c.request ∨ Expects t r)
  | _ => True

instance (t : Threads) (l : Label) : Decidable (Alone t l) := by
  unfold Alone; split <;> infer_instance

/-! ## Invariants -/

/-- **Invariant.** The live frames have numbers, of frames that were accepted. -/
structure NumberInv (p : Threads × Numbering) : Prop where
  length : p.2.numbers.length = p.1.live.length
  lt : ∀ k ∈ p.2.numbers, k < p.2.accepted

/-- **Invariant.** A live frame whose callback the server expects is the one accepted last. -/
def LatestInv (p : Threads × Numbering) : Prop :=
  ∀ j f r, p.1.live[j]? = some f → Carries f r → Expects p.1 r → p.2.Latest j

/-- The parts of the steps, with what they do to the frames. -/
inductive FrameStep (t : Threads) : Label → Threads → Prop
  /-- no frame is accepted, none is called back, and the server expects no more than before -/
  | quiet {l : Label} {t' : Threads} (hl : t'.live = t.live)
      (he : ∀ r, Expects t' r → Expects t r) (hn : ∀ g as, Numbering.record g t l as = g) :
      FrameStep t l t'
  | accepted {k : ℕ} {c : Call} (hk : t.calls[k]? = some c) (hans : c.answer = none) :
      FrameStep t (.answer k emberSuccess)
        ⟨t.server, t.calls.set k { c with answer := some emberSuccess }, t.live ++ [c.frame]⟩
  | delivered {j : ℕ} {status : EmberStatus} {server : Server}
      (hs : ∀ r : Request, server.internalState = r.pending → t.server.internalState = r.pending) :
      FrameStep t (.deliver j status) ⟨server, t.calls, t.live.eraseIdx j⟩

theorem pending_injective {r r' : Request} (h : r.pending = r'.pending) : r = r' := by
  have h' := congrArg requestOf h
  rw [requestOf_pending, requestOf_pending] at h'
  exact Option.some.inj h'

theorem pending_of_scheduleSegment
    (h : (scheduleSegmentTransmission cfg s).server.internalState = r.pending) : False := by
  unfold scheduleSegmentTransmission at h
  dsimp only at h
  split_ifs at h
  · exact idle_ne.2.1 h
  · exact interval_ne_pending .imageSegment r h

/-- A failed attempt does not make the server wait for a sent callback, whatever its state is. -/
theorem pending_of_scheduleImage {newSegment : Bool} (h : (scheduleImageDistributionProcessNextTask
    cfg newSegment s).server.internalState = r.pending) : s.internalState = r.pending := by
  unfold scheduleImageDistributionProcessNextTask at h
  split at h
  · split_ifs at h
    · exact absurd h idle_ne.2.1
    · exact absurd h idle_ne.2.1
    · exact h
  · split_ifs at h
    · exact absurd h idle_ne.2.1
    · exact absurd h idle_ne.2.1
    · exact h
  · split_ifs at h
    · exact (pending_of_scheduleSegment h).elim
    · exact h
    · exact (pending_of_scheduleSegment h).elim
  · split_ifs at h
    · exact absurd h idle_ne.2.1
    · exact absurd h (interval_ne_pending .handshake r)
  · exact h

theorem pending_of_scheduleBootload {status : UInt8} (h : (scheduleBootloadRequestProcessNextTask
    cfg false status s).server.internalState = r.pending) : s.internalState = r.pending := by
  unfold scheduleBootloadRequestProcessNextTask at h
  simp only [Bool.false_eq_true, if_false] at h
  split_ifs at h
  · exact absurd h idle_ne.2.1
  · exact absurd h idle_ne.2.1
  · exact absurd h (interval_ne_pending .bootloadRequest r)
  · exact h

/-- The return of a call keeps the state the server waits in, or it is the state of the request. -/
theorem pending_of_sent {r r' : Request} {status : EmberStatus}
    (h : (r.sent cfg status s).server.internalState = r'.pending) :
    s.internalState = r'.pending ∨ status = emberSuccess ∧ r = r' := by
  by_cases hst : status = emberSuccess
  · subst hst
    have hp : r.pending = r'.pending := by cases r <;> exact h
    exact .inr ⟨rfl, pending_injective hp⟩
  · left
    cases r with
    | handshake =>
      simp only [Request.sent, unicastHandshakeSent, if_neg hst] at h
      have hp := pending_of_scheduleImage h
      exact hp
    | imageSegment =>
      simp only [Request.sent, unicastNextSegmentSent, if_neg hst] at h
      have hp := pending_of_scheduleImage h
      exact hp
    | bootloadRequest =>
      simp only [Request.sent, requestTargetForBootloadSent, if_neg hst] at h
      have hp := pending_of_scheduleBootload h
      exact hp

/-- **What a step does to the frames.** -/
theorem frameStep_of_step {l : Label} {t' : Threads} {as : List Action}
    (h : (sentCallbacks cfg).step t l = some (t', as)) : FrameStep t l t' := by
  cases threadsTrans_of_step h with
  | handled hi ho =>
    rw [not_or] at hi
    exact .quiet rfl (fun r hr => hr.imp_left (pending_of_trans hi.1 (trans_of_handle ho)))
      fun _ _ => rfl
  | @begun env o call ho =>
    refine .quiet rfl (fun r hr => ?_) fun _ _ => rfl
    rcases hr with hr | ⟨c, hc, hreq, hans⟩
    · left
      cases call with
      | none =>
        rw [(finished_of_sendBegin ho).2] at hr
        exact absurd hr idle_ne.2.1
      | some call =>
        obtain ⟨-, -, -, hs⟩ := begins_of_sendBegin ho
        rw [hs] at hr
        exact hr
    · rcases List.mem_append.mp hc with hc | hc
      · exact .inr ⟨c, hc, hreq, hans⟩
      · -- a call that has just begun is not answered
        obtain ⟨_, _, rfl⟩ := List.mem_map.mp hc
        cases hans
  | @answered k status c hk hans =>
    by_cases hst : status = emberSuccess
    · subst hst
      exact .accepted hk hans
    · refine .quiet (by rw [if_neg hst, List.append_nil]) (fun r hr => ?_) fun g as => if_neg hst
      refine hr.imp_right ?_
      rintro ⟨c', hc, hreq, hans'⟩
      rcases List.mem_or_eq_of_mem_set hc with hc | rfl
      · exact ⟨c', hc, hreq, hans'⟩
      · exact absurd (Option.some.inj hans') hst
  | @ended k status c hk hans =>
    refine .quiet rfl (fun r hr => ?_) fun _ _ => rfl
    rcases hr with hr | ⟨c', hc, hreq, hans'⟩
    · rcases pending_of_sent hr with hr | ⟨rfl, hreq⟩
      · exact .inl hr
      · exact .inr ⟨c, List.mem_of_getElem? hk, hreq, hans⟩
    · exact .inr ⟨c', List.mem_of_mem_eraseIdx hc, hreq, hans'⟩
  | delivered _ ht => exact .delivered fun r hr => pending_of_sentTrans ht hr

/-! ## The invariants along a step -/

variable {p p' : Threads × Numbering} {l : Label} {as : List Action}

theorem numbered_step (h : (numbered cfg).step p l = some (p', as)) :
    FrameStep p.1 l p'.1 ∧ p'.2 = p.2.record p.1 l as := by
  obtain ⟨hst, hg⟩ := System.observe_step h
  exact ⟨frameStep_of_step hst, hg⟩

/-- An acceptance gives the next number. -/
theorem record_accepted (g : Numbering) (t : Threads) (k : ℕ) (as : List Action) :
    g.record t (.answer k emberSuccess) as = ⟨g.accepted + 1, g.numbers ++ [g.accepted]⟩ := by
  simp only [Numbering.record, if_true]

theorem numberInv_step (hinv : NumberInv p) (h : (numbered cfg).step p l = some (p', as)) :
    NumberInv p' := by
  obtain ⟨hf, hg⟩ := numbered_step h
  obtain ⟨t, g⟩ := p
  obtain ⟨t', g'⟩ := p'
  obtain rfl : g' = _ := hg
  obtain ⟨hlen, hlt⟩ := hinv
  cases hf with
  | quiet hl _ hn =>
    rw [hn]
    exact ⟨by rw [hl]; exact hlen, hlt⟩
  | accepted _ _ =>
    rw [record_accepted]
    refine ⟨?_, fun k hk => ?_⟩
    · show (g.numbers ++ [g.accepted]).length = (t.live ++ [_]).length
      rw [List.length_append, List.length_append, hlen]
      rfl
    · show k < g.accepted + 1
      rcases List.mem_append.mp hk with hk | hk
      · exact Nat.lt_succ_of_lt (hlt k hk)
      · rw [List.mem_singleton.mp hk]
        exact Nat.lt_succ_self _
  | @delivered j _ _ _ =>
    refine ⟨?_, fun k hk => hlt k (List.mem_of_mem_eraseIdx hk)⟩
    show (g.numbers.eraseIdx j).length = (t.live.eraseIdx j).length
    rw [List.length_eraseIdx, List.length_eraseIdx, hlen]

theorem numberInv_of_reach (h : (numbered cfg).Reach free p) : NumberInv p := by
  refine System.Reach.invariant (fun p hp => ?_) (fun _ _ _ _ _ h _ hst => numberInv_step h hst) h
  obtain ⟨h1, h2⟩ := hp
  obtain ⟨t, g⟩ := p
  obtain rfl : t = ⟨Server.init, [], []⟩ := h1
  obtain rfl : g = _ := h2
  exact ⟨rfl, fun _ hk => by cases hk⟩

theorem latest_append (g : Numbering) :
    Numbering.Latest ⟨g.accepted + 1, g.numbers ++ [g.accepted]⟩ g.numbers.length := by
  unfold Numbering.Latest
  rw [List.getElem?_append_right (Nat.le_refl _), Nat.sub_self]
  rfl

/-- After an acceptance that meets the condition, the server expects the callback of no other live
frame. -/
theorem not_expects_of_alone {k : ℕ} {c : Call} {f : EmberOutgoingMessage}
    (hk : t.calls[k]? = some c) (ha : Alone t (.answer k emberSuccess)) (hf : f ∈ t.live)
    (hr : Carries f r) :
    ¬ Expects ⟨t.server, t.calls.set k { c with answer := some emberSuccess },
      t.live ++ [c.frame]⟩ r := by
  have hne := ha rfl c hk f hf
  rintro (hs | ⟨c', hc, hreq, hans⟩)
  · exact hne ⟨r, hr, .inr (.inl hs)⟩
  · rcases List.mem_or_eq_of_mem_set hc with hc | rfl
    · exact hne ⟨r, hr, .inr (.inr ⟨c', hc, hreq, hans⟩)⟩
    · exact hne ⟨r, hr, .inl hreq.symm⟩

theorem latestInv_step (hnum : NumberInv p) (hinv : LatestInv p) (ha : Alone p.1 l)
    (h : (numbered cfg).step p l = some (p', as)) : LatestInv p' := by
  obtain ⟨hf, hg⟩ := numbered_step h
  obtain ⟨t, g⟩ := p
  obtain ⟨t', g'⟩ := p'
  obtain rfl : g' = _ := hg
  have hlen : g.numbers.length = t.live.length := hnum.length
  intro j f r hj hr he
  cases hf with
  | quiet hl hexp hn =>
    rw [hn]
    have hj' : t.live[j]? = some f := by rw [← hl]; exact hj
    exact hinv j f r hj' hr (hexp r he)
  | @accepted k c hk _ =>
    rw [record_accepted]
    have hj' : (t.live ++ [c.frame])[j]? = some f := hj
    by_cases hjl : j < t.live.length
    · -- a frame accepted before
      rw [List.getElem?_append_left hjl] at hj'
      exact absurd he (not_expects_of_alone hk ha (List.mem_of_getElem? hj') hr)
    · have hje : j = g.numbers.length := by
        have hlt := (List.getElem?_eq_some_iff.mp hj').1
        rw [List.length_append, List.length_singleton] at hlt
        omega
      rw [hje]
      exact latest_append g
  | @delivered i status server hs =>
    have he' : Expects t r := he.imp_left (hs r)
    have hj' : (t.live.eraseIdx i)[j]? = some f := hj
    show ((g.numbers.eraseIdx i)[j]?).map (· + 1) = some g.accepted
    rw [List.getElem?_eraseIdx] at hj' ⊢
    split_ifs at hj' ⊢
    · exact hinv j f r hj' hr he'
    · exact hinv (j + 1) f r hj' hr he'

/-- The guard on the numbered runs. -/
abbrev alone (p : Threads × Numbering) (l : Label) : Prop := Alone p.1 l

theorem latestInv_of_reach (h : (numbered cfg).Reach alone p) : LatestInv p := by
  refine System.Reach.invariant_of (J := NumberInv)
    (fun p hp => numberInv_of_reach (hp.mono fun _ _ _ => trivial)) (fun p hp => ?_)
    (fun _ _ _ _ hn h ha hst => latestInv_step hn h ha hst) h
  obtain ⟨h1, -⟩ := hp
  obtain ⟨t, g⟩ := p
  obtain rfl : t = ⟨Server.init, [], []⟩ := h1
  intro j f r hj
  cases hj

/-! ## Which callbacks act -/

theorem callback_ne {f : EmberOutgoingMessage} {status : EmberStatus} {o : Outcome}
    (hs : s.internalState = r.pending) (hf : Carries f r) (ht : SentTrans cfg s status f o) :
    o ≠ ⟨s, []⟩ := by
  have hne : o.server.internalState ≠ r.pending := by
    cases ht with
    | ignored h => exact absurd hs (h r hf)
    | succeeded _ _ _ => exact waiting_ne_pending _ r
    | failed _ _ _ _ ho => exact not_pending_of_failed ho r
  rintro rfl
  exact hne hs

theorem ownFrameOnly_of_latestInv (cfg : Config) (h : LatestInv p) : OwnFrameOnly cfg p where
  live j f hj hl status :=
    (messageSent_trans cfg p.1.server status f).eq_of_not_pending
      fun r hr hs => hl (h j f r hj hr (.inl hs))
  foreign f hf status :=
    (messageSent_trans cfg p.1.server status f).eq_of_not_pending fun r hr => absurd hr (hf r)

/-! ## The condition is needed -/

/-- After another acceptance, the server expects the callback of an earlier frame. -/
theorem exists_expected (hnum : NumberInv p) (ha : ¬ Alone p.1 l)
    (h : (numbered cfg).step p l = some (p', as)) :
    ∃ j f r, p'.1.live[j]? = some f ∧ Carries f r ∧ Expects p'.1 r ∧ ¬ p'.2.Latest j := by
  obtain ⟨hstep, hg⟩ := numbered_step h
  obtain ⟨t, g⟩ := p
  obtain ⟨t', g'⟩ := p'
  obtain rfl : g' = _ := hg
  have hlt : ∀ k ∈ g.numbers, k < g.accepted := hnum.lt
  have hlen : g.numbers.length = t.live.length := hnum.length
  cases hstep with
  | quiet _ _ hn =>
    cases l with
    | answer k status =>
      refine absurd (fun hst => ?_) ha
      -- an accepted frame gets a number
      have hacc := congrArg Numbering.accepted (hn g as)
      rw [hst, record_accepted] at hacc
      exact absurd hacc (Nat.succ_ne_self _)
    | _ => exact absurd trivial ha
  | delivered _ => exact absurd trivial ha
  | @accepted k c hk hans =>
    simp only [Alone, forall_const, Option.mem_def, hk, Option.some.injEq, forall_eq', not_forall,
      not_not] at ha
    obtain ⟨f, hf, r, hr, he⟩ := ha
    obtain ⟨j, hjl, hj⟩ := List.mem_iff_getElem.mp hf
    have hkl := (List.getElem?_eq_some_iff.mp hk).1
    refine ⟨j, f, r, ?_, hr, ?_, ?_⟩
    · show (t.live ++ [c.frame])[j]? = some f
      rw [List.getElem?_append_left hjl, List.getElem?_eq_getElem hjl, hj]
    · rcases he with rfl | hs | ⟨c', hc, hreq, hans'⟩
      · exact .inr ⟨_, List.mem_of_getElem? (List.getElem?_set_self hkl), rfl, rfl⟩
      · exact .inl hs
      · obtain ⟨i, hi⟩ := List.getElem?_of_mem hc
        have hki : k ≠ i := by
          rintro rfl
          rw [hk] at hi
          rw [← Option.some.inj hi, hans] at hans'
          cases hans'
        exact .inr ⟨c', List.mem_of_getElem? ((List.getElem?_set_ne hki).trans hi), hreq, hans'⟩
    · rw [record_accepted]
      intro hl
      have hjn : j < g.numbers.length := by omega
      have hl' : ((g.numbers ++ [g.accepted])[j]?).map (· + 1) = some (g.accepted + 1) := hl
      rw [List.getElem?_append_left hjn, List.getElem?_eq_getElem hjn] at hl'
      have hn := hlt _ (List.getElem_mem hjn)
      have he' : g.numbers[j] + 1 = g.accepted + 1 := Option.some.inj hl'
      omega

/-- The server waits for a callback it expects, or does once a call has returned. -/
theorem exists_pending (cfg : Config) (g : Numbering) (he : Expects t r) :
    ∃ p', (p' = (t, g) ∨ ∃ k as, (numbered cfg).step (t, g) (.sendEnd k) = some (p', as)) ∧
      p'.1.server.internalState = r.pending ∧ p'.1.live = t.live ∧ p'.2 = g := by
  rcases he with hs | ⟨c, hc, rfl, hans⟩
  · exact ⟨(t, g), .inl rfl, hs, rfl, rfl⟩
  · obtain ⟨k, hk⟩ := List.getElem?_of_mem hc
    have hs : (c.request.sent cfg emberSuccess t.server).server.internalState =
        c.request.pending := by cases c.request <;> rfl
    refine ⟨(⟨(c.request.sent cfg emberSuccess t.server).server, t.calls.eraseIdx k, t.live⟩, g),
      .inr ⟨k, .messageSend c.frame emberSuccess ::
        (c.request.sent cfg emberSuccess t.server).actions, ?_⟩, hs, rfl, rfl⟩
    simp only [numbered, System.observe, sentCallbacks, hk, Option.bind_some, hans,
      Option.map_some]
    rfl

/-- **A sent callback acts only on its own frame** in every run whose acceptances meet the condition;
after any other acceptance, the callback of an earlier frame acts, at once or once a call has
returned. -/
theorem ownFrameOnly_of_alone (cfg : Config) :
    (∀ p, (numbered cfg).Reach alone p → OwnFrameOnly cfg p) ∧
    ∀ p l p' as, (numbered cfg).Reach free p → ¬ Alone p.1 l →
      (numbered cfg).step p l = some (p', as) →
      ∃ p'', (p'' = p' ∨ ∃ k as', (numbered cfg).step p' (.sendEnd k) = some (p'', as')) ∧
        ¬ OwnFrameOnly cfg p'' := by
  constructor
  · exact fun p hp => ownFrameOnly_of_latestInv cfg (latestInv_of_reach hp)
  · intro p l p' as hp ha hst
    obtain ⟨j, f, r, hj, hr, he, hl⟩ := exists_expected (numberInv_of_reach hp) ha hst
    obtain ⟨p'', hp'', hs, hlive, hg⟩ := exists_pending cfg p'.2 he
    refine ⟨p'', hp'', fun hown => ?_⟩
    have hj'' : p''.1.live[j]? = some f := by rw [hlive]; exact hj
    have hl'' : ¬ p''.2.Latest j := by rw [hg]; exact hl
    exact callback_ne hs hr (messageSent_trans cfg p''.1.server emberSuccess f)
      (hown.live j f hj'' hl'' emberSuccess)

theorem reach_numbered_init (cfg : Config) (ok : Threads × Numbering → Label → Prop) :
    (numbered cfg).Reach ok (⟨Server.init, [], []⟩, ⟨0, []⟩) := .start ⟨rfl, rfl⟩

/-- From the acceptance of a handshake to the submission of the first segment. -/
def firstSegmentRun (target : EmberNodeId) (imageSize : UInt32) (imageTag : UInt8) : List Label :=
  acceptedRun target imageSize imageTag ++
    [.sendEnd 0, .deliver 0 emberSuccess,
      .handler (.incomingMessage (handshakeResponse target respStatusOngoing imageTag)),
      .sendBegin plainEnv, .answer 0 emberSuccess, .sendEnd 0]

/-- The response to the first segment, and the submission of the second one. -/
def nextSegmentRun (target : EmberNodeId) (imageTag : UInt8) : List Label :=
  [.handler (.incomingMessage (segmentResponse target respStatusOngoing imageTag 0)),
    .sendBegin plainEnv, .answer 0 emberSuccess, .sendEnd 0]

/-- The second segment, submitted behind the sent callback of the first one. -/
theorem ownFrameOnly_of_alone_segment : ∃ p : Threads × Numbering,
    p.1.server.internalState = .segmentUnicastPending ∧ p.1.server.sentSegment = 1 ∧
      OwnFrameOnly defaultConfig p := by
  have h0 : (numbered defaultConfig).Reach alone _ := reach_numbered_init _ _
  obtain ⟨p, hp, hs⟩ := System.exists_reach_of_exec
    (firstSegmentRun 5 150 7 ++ [.deliver 0 emberSuccess] ++ nextSegmentRun 5 7)
    (fun p : Threads × Numbering => (p.1.server.internalState, p.1.server.sentSegment))
    (b := (.segmentUnicastPending, 1)) h0 (by decide +kernel)
  obtain ⟨hs, h1⟩ := Prod.mk.inj hs
  exact ⟨p, hs, h1, (ownFrameOnly_of_alone defaultConfig).1 p hp⟩

/-- **The callback of an earlier segment**: the first segment is answered before its sent callback,
which then fails the second one. -/
theorem callback_of_earlier_segment : ¬ ∀ (cfg : Config) (p : Threads × Numbering),
    (numbered cfg).Reach free p → OwnFrameOnly cfg p := by
  intro h
  have h0 : (numbered defaultConfig).Reach free _ := reach_numbered_init _ _
  obtain ⟨p, hp, hs⟩ := System.exists_reach_of_exec
    (firstSegmentRun 5 150 7 ++ nextSegmentRun 5 7)
    (fun p : Threads × Numbering => (p.1.server.internalState,
      p.1.live.map fun f => decide (Carries f .imageSegment), decide (p.2.Latest 0)))
    (b := (.segmentUnicastPending, [true, true], false)) h0 (by decide +kernel)
  simp only [Prod.mk.injEq, decide_eq_false_iff_not] at hs
  obtain ⟨hstate, hlive, hlatest⟩ := hs
  obtain ⟨f, fs, hl, hf, -⟩ := List.map_eq_cons_iff.mp hlive
  exact callback_ne (r := .imageSegment) hstate (of_decide_eq_true hf)
    (messageSent_trans defaultConfig p.1.server emberMacNoAckReceived f)
    ((h defaultConfig p hp).live 0 f (by rw [hl]; rfl) hlatest emberMacNoAckReceived)

end ConnectNcpHost.Ota.OwnFrames
