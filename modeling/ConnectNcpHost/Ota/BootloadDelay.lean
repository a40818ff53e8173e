import ConnectNcpHost.Ota.Parameters

/-! # The deadline of a bootload

`clocked` adds the exact time to the server, of which `nowMs` shows the remainder modulo `2 ^ 32`.
A bootload that was requested at `t0` with the delay `d` is due at `t0 + d`. What
`currentImageSizeOrBootloadTimeMs` holds of this time is enough to name it in every attempt as long
as it lies less than half the range of the clock ahead; from there on the comparison takes it for a
time that has passed (`namesDeadline_iff`). -/

namespace ConnectNcpHost.Ota.BootloadDelay

open ConnectNcpHost.Lib.Bytes ConnectNcpHost.Lib.Runs ConnectNcpHost.Stack.ByteUtilities
open ConnectNcpHost.Ota.Protocol ConnectNcpHost.Ota.BootloaderServer ConnectNcpHost.Ota.Transition
open ConnectNcpHost.Ota.Frames ConnectNcpHost.Ota.Processes ConnectNcpHost.Ota.Parameters

variable {cfg : Config} {s : Server}

/-! ## The clock -/

/-- The exact time, in milliseconds, and the time at which the last process was started. -/
structure Clock where
  now : ℕ
  initiated : ℕ

/-- The input reads the clock at the time `t`. -/
def ReadsClock (t : ℕ) : Input → Prop
  | .initiateRequestTargetBootload _ _ _ nowMs => nowMs = UInt32.ofNat t
  | .timerExpired env | .eventActive env => env.nowMs = UInt32.ofNat t
  | _ => True

instance (t : ℕ) (i : Input) : Decidable (ReadsClock t i) := by
  refine i.casesOn ?_ ?_ ?_ ?_ ?_ ?_ ?_ <;> intros <;> unfold ReadsClock <;> infer_instance

/-- **The server, its inputs at exact times** that never go back. -/
def clocked (cfg : Config) :
    System ((Server × Option ProcessParameters) × Clock) (ℕ × Input) Action where
  start p := (parameters cfg).start p.1 ∧ p.2.initiated ≤ p.2.now
  step p ti :=
    if p.2.now ≤ ti.1 ∧ ReadsClock ti.1 ti.2 then
      ((parameters cfg).step p.1 ti.2).map fun r =>
        ((r.1, ⟨ti.1, if begins ti.2 r.2 then ti.1 else p.2.initiated⟩), r.2)
    else none

theorem clocked_step {p p' : (Server × Option ProcessParameters) × Clock} {t : ℕ} {i : Input}
    {as : List Action} (h : (clocked cfg).step p (t, i) = some (p', as)) :
    p.2.now ≤ t ∧ ReadsClock t i ∧ (parameters cfg).step p.1 i = some (p'.1, as) ∧
      p'.2 = ⟨t, if begins i as then t else p.2.initiated⟩ := by
  simp only [clocked, Option.ite_none_right_eq_some, Option.map_eq_some_iff, Prod.mk.injEq] at h
  obtain ⟨⟨hle, hr⟩, ⟨q, as'⟩, hst, rfl, rfl⟩ := h
  exact ⟨hle, hr, hst, rfl⟩

/-- A run with a clock is a run. -/
theorem reach_parameters_of_clocked {p : (Server × Option ProcessParameters) × Clock}
    (h : (clocked cfg).Reach free p) : (parameters cfg).Reach free p.1 := by
  induction h with
  | start h => exact .start h.1
  | step _ _ hst ih => exact .step ih trivial (clocked_step hst).2.2.1

/-! ## The time of the request -/

/-- The delay a bootload was requested with. -/
def requestedDelay : Option ProcessParameters → Option UInt32
  | some (.bootloadRequest bootloadDelayMs _ _ _) => some bootloadDelayMs
  | _ => none

/-- **Invariant.** The last process was started at a time that has come, and a bootload request has
read the clock then. -/
structure ClockInv (p : (Server × Option ProcessParameters) × Clock) : Prop where
  le : p.2.initiated ≤ p.2.now
  read : ∀ {bootloadDelayMs imageTag target nowMs},
    p.1.2 = some (.bootloadRequest bootloadDelayMs imageTag target nowMs) →
      nowMs = UInt32.ofNat p.2.initiated

/-- The history names a bootload request that was there before, or the one of this step. -/
theorem bootloadRequest_of_record {g : Option ProcessParameters} {i : Input} {as : List Action}
    {bootloadDelayMs : UInt32} {imageTag : UInt8} {target : EmberNodeId} {nowMs : UInt32}
    (h : record g s i as = some (.bootloadRequest bootloadDelayMs imageTag target nowMs)) :
    begins i as = false ∧ g = some (.bootloadRequest bootloadDelayMs imageTag target nowMs) ∨
      begins i as = true ∧
        i = .initiateRequestTargetBootload bootloadDelayMs imageTag target nowMs := by
  cases hs : succeeded as <;> cases hc : completed as <;> cases i <;> simp_all [record, begins]

theorem clockInv_of_reach {p : (Server × Option ProcessParameters) × Clock}
    (h : (clocked cfg).Reach free p) : ClockInv p := by
  refine System.Reach.invariant (I := ClockInv) (fun p hp => ?_)
    (fun p i p' as _ hinv _ hst => ?_) h
  · obtain ⟨⟨-, hg⟩, hle⟩ := hp
    refine ⟨hle, fun he => ?_⟩
    rw [hg] at he
    cases he
  · obtain ⟨hle, hr, hstep, hclock⟩ := clocked_step hst
    have hg := (System.observe_step hstep).2
    have hnow : p.2.initiated ≤ i.1 := hinv.le.trans hle
    constructor
    · rw [hclock]
      dsimp only
      split_ifs <;> omega
    · intro d tag target nowMs he
      rw [hclock]
      rcases bootloadRequest_of_record (hg.symm.trans he) with ⟨hb, hold⟩ | ⟨hb, hi⟩
      · rw [if_neg (by rw [hb]; decide)]
        exact hinv.read hold
      · rw [if_pos hb]
        rw [hi] at hr
        exact hr

/-! ## The delay in a frame -/

/-- The delay a bootload request carries. -/
def requestDelay (m : EmberOutgoingMessage) : UInt32 :=
  emberFetchLowHighInt32u m.payload bootloadReqDelayOffset

theorem requestDelay_bootloadRequestFrame (stack : Mem) (nowMs : UInt32) (s : Server) :
    requestDelay (bootloadRequestFrame stack nowMs s) = bootloadDelay nowMs s := by
  refine fetch_of_readLowHigh32 ?_
  simp only [bootloadRequestFrame, emberStoreLowHighInt32u_eq]
  exact Memory.read_write_same _ _ (lowHighBytes32 (bootloadDelay nowMs s))

theorem requestDelay_of_isFrame {env : EventEnv} {m : EmberOutgoingMessage}
    (h : IsFrame env s .bootloadRequest m) : requestDelay m = bootloadDelay env.nowMs s := by
  cases h
  exact requestDelay_bootloadRequestFrame _ _ _

/-- `elapsedTimeInt32u` between two times of the clock, of which the second is not before. -/
theorem toNat_elapsedTimeInt32u {a b : ℕ} (hle : a ≤ b) (hlt : b < a + 2 ^ 32) :
    (elapsedTimeInt32u (UInt32.ofNat a) (UInt32.ofNat b)).toNat = b - a := by
  have ha : (UInt32.ofNat a).toNat = a % 2 ^ 32 := UInt32.toNat_ofNat'
  have hb : (UInt32.ofNat b).toNat = b % 2 ^ 32 := UInt32.toNat_ofNat'
  rw [elapsedTimeInt32u, UInt32.toNat_sub, ha, hb]
  omega

/-- A time of the clock within half its range is compared as it should. -/
theorem timeGTorEqualInt32u_of_le {a b : ℕ} (hle : a ≤ b) (hlt : b ≤ a + 2 ^ 31) :
    timeGTorEqualInt32u (UInt32.ofNat b) (UInt32.ofNat a) := by
  unfold timeGTorEqualInt32u
  rw [UInt32.le_iff_toNat_le, toNat_elapsedTimeInt32u hle (by omega)]
  have hhalf : UInt32.toNat 0x80000000 = 2 ^ 31 := rfl
  omega

/-- A time that lies ahead is told from one that has passed below half the range only. -/
theorem timeGTorEqualInt32u_iff_of_lt {a b : ℕ} (hlt : a < b) (hle : b < a + 2 ^ 32) :
    timeGTorEqualInt32u (UInt32.ofNat a) (UInt32.ofNat b) ↔ a + 2 ^ 31 ≤ b := by
  have ha : UInt32.ofNat a = UInt32.ofNat (a + 2 ^ 32) := by
    apply UInt32.toNat_inj.mp
    rw [UInt32.toNat_ofNat', UInt32.toNat_ofNat', Nat.add_mod_right]
  unfold timeGTorEqualInt32u
  rw [ha, UInt32.le_iff_toNat_le, toNat_elapsedTimeInt32u (by omega) (by omega)]
  have hhalf : UInt32.toNat 0x80000000 = 2 ^ 31 := rfl
  omega

/-- The delay `requestTargetForBootload` computes at the time `t` for a deadline `b`. -/
theorem toNat_bootloadDelay {t b : ℕ} (hb : s.currentImageSizeOrBootloadTimeMs = UInt32.ofNat b)
    (h1 : t ≤ b + 2 ^ 31) (h2 : b < t + 2 ^ 32) :
    (bootloadDelay (UInt32.ofNat t) s).toNat = if b < t + 2 ^ 31 then b - t else 0 := by
  unfold bootloadDelay
  rw [hb]
  rcases Nat.lt_or_ge t b with hlt | hle
  · simp only [timeGTorEqualInt32u_iff_of_lt hlt h2]
    by_cases hr : b < t + 2 ^ 31
    · rw [if_neg (by omega), if_pos hr]
      exact toNat_elapsedTimeInt32u hlt.le h2
    · rw [if_pos (by omega), if_neg hr]
      rfl
  · rw [if_pos (timeGTorEqualInt32u_of_le hle h1), if_pos (by omega), Nat.sub_eq_zero_of_le hle]
    rfl

/-! ## The property -/

/-- The delay `delay` of a frame submitted at `t`, for a bootload requested at `t0` with the delay
`d`: what is left of it, so that the frame names the deadline `t0 + d` while it lies ahead, and asks
for an immediate bootload only when it has passed. -/
structure NamesDeadline (d : UInt32) (t0 t : ℕ) (delay : UInt32) : Prop where
  remaining : delay.toNat = d.toNat - (t - t0)
  deadline : t - t0 ≤ d.toNat → t + delay.toNat = t0 + d.toNat
  immediate : delay = 0 → d.toNat ≤ t - t0

theorem namesDeadline_of_remaining {d delay : UInt32} {t0 t : ℕ} (hle : t0 ≤ t)
    (h : delay.toNat = d.toNat - (t - t0)) : NamesDeadline d t0 t delay where
  remaining := h
  deadline _ := by omega
  immediate h0 := by
    rw [h0] at h
    have hz : UInt32.toNat 0 = 0 := rfl
    omega

theorem bootloadRequest_of_runs {ps : ProcessParameters} (h : Runs s ps)
    (hs : s.internalState = Request.bootloadRequest.interval) :
    ∃ d imageTag target nowMs, ps = .bootloadRequest d imageTag target nowMs := by
  obtain ⟨r, hr, hp⟩ := h.request
  rw [hs, requestOf_interval] at hr
  obtain rfl := Option.some.inj hr
  cases ps with
  | imageDistribution _ _ _ => cases hp
  | bootloadRequest d imageTag target nowMs => exact ⟨d, imageTag, target, nowMs, rfl⟩

/-- **In every run a bootload request names the deadline if and only if it lies less than half the
range of the clock ahead.** -/
theorem namesDeadline_iff {p p' : (Server × Option ProcessParameters) × Clock} {t : ℕ} {i : Input}
    {as : List Action} {m : EmberOutgoingMessage} {status : EmberStatus}
    (h : (clocked cfg).Reach free p) (hst : (clocked cfg).step p (t, i) = some (p', as))
    (hm : .messageSend m status ∈ as) (hc : Carries m .bootloadRequest)
    (he : t - p.2.initiated < 2 ^ 31) :
    ∃ d ∈ requestedDelay p.1.2, (NamesDeadline d p.2.initiated t (requestDelay m) ↔
      d.toNat < t - p.2.initiated + 2 ^ 31) := by
  obtain ⟨hnow, hread, hstep, -⟩ := clocked_step hst
  have hclock := clockInv_of_reach h
  have hle : p.2.initiated ≤ t := hclock.le.trans hnow
  obtain ⟨env, r, hi, hs, hf⟩ := isFrame_of_submitted (trans_of_step (System.observe_step hstep).1) hm
  have henv : env.nowMs = UInt32.ofNat t := by
    rcases hi with rfl | rfl <;> exact hread
  -- the frame is one of the process that was started last
  obtain ⟨ps, hg, hruns⟩ := (parameterInv_of_reach (reach_parameters_of_clocked h)).resolve_left
    fun hidle => idle_ne.1 (hidle.symm.trans hs)
  obtain rfl : r = .bootloadRequest := (carries_of_isFrame hf).eq hc
  obtain ⟨d, imageTag, target, nowMs, rfl⟩ := bootloadRequest_of_runs hruns hs
  refine ⟨d, by rw [hg]; rfl, ?_⟩
  have htime : p.1.1.currentImageSizeOrBootloadTimeMs =
      UInt32.ofNat (p.2.initiated + d.toNat) := by
    rw [hruns.imageSizeOrTime]
    show nowMs + d = _
    rw [hclock.read hg, UInt32.ofNat_add, UInt32.ofNat_toNat]
  have hd := d.toNat_lt
  have hdelay : (requestDelay m).toNat =
      if p.2.initiated + d.toNat < t + 2 ^ 31 then p.2.initiated + d.toNat - t else 0 := by
    rw [requestDelay_of_isFrame hf, henv]
    exact toNat_bootloadDelay htime (by omega) (by omega)
  constructor
  · intro hn
    by_contra hfar
    rw [if_neg (by omega)] at hdelay
    have hrem := hn.remaining
    omega
  · intro hnear
    rw [if_pos (by omega)] at hdelay
    exact namesDeadline_of_remaining hle (by omega)

/-! ## Runs -/

/-- The surroundings at the time `t`. -/
def envAt (t : ℕ) : EventEnv := { plainEnv with nowMs := UInt32.ofNat t }

/-- The server for which a bootload of the node 5 was requested at `t0` with the delay `d`. -/
def requestedServer (d : UInt32) (t0 : ℕ) : Server :=
  transferServer 5 (UInt32.ofNat t0 + d) 7 .bootloadRequestUnicastInterval 0

/-- The request it submits at the time `t`. -/
def requestFrame (d : UInt32) (t0 t : ℕ) : EmberOutgoingMessage :=
  bootloadRequestFrame plainEnv.stack (UInt32.ofNat t) (requestedServer d t0)

/-- Its process. -/
def requestedProcess (d : UInt32) (t0 : ℕ) : ProcessParameters :=
  .bootloadRequest d 7 5 (UInt32.ofNat t0)

theorem reach_requested (d : UInt32) (t0 : ℕ) :
    (clocked defaultConfig).Reach free
      ((requestedServer d t0, some (requestedProcess d t0)), ⟨t0, t0⟩) := by
  have hstart : (clocked defaultConfig).Reach free ((Server.init, none), ⟨t0, t0⟩) :=
    .start ⟨⟨rfl, rfl⟩, Nat.le_refl t0⟩
  have hstep : (clocked defaultConfig).step ((Server.init, none), ⟨t0, t0⟩)
      (t0, .initiateRequestTargetBootload d 7 5 (UInt32.ofNat t0)) =
      some (((requestedServer d t0, some (requestedProcess d t0)), ⟨t0, t0⟩),
        [.pthreadCreate, .timerfdCreate, .timerfdSettime 1, .returned .success]) :=
    (if_pos ⟨Nat.le_refl t0, rfl⟩).trans rfl
  exact .step hstart trivial hstep

/-- The first attempt, at the time `t`. -/
theorem exists_step_requested (d : UInt32) {t0 t : ℕ} (h : t0 ≤ t) :
    ∃ p', (clocked defaultConfig).step
      ((requestedServer d t0, some (requestedProcess d t0)), ⟨t0, t0⟩)
      (t, .timerExpired (envAt t)) = some (p', [.messageSend (requestFrame d t0 t) emberSuccess]) :=
  ⟨_, (if_pos ⟨h, rfl⟩).trans rfl⟩

theorem carries_requestFrame (d : UInt32) (t0 t : ℕ) :
    Carries (requestFrame d t0 t) .bootloadRequest := by
  have hf : IsFrame (envAt t) (requestedServer d t0) .bootloadRequest (requestFrame d t0 t) :=
    .bootloadRequest
  exact carries_of_isFrame hf

/-- A bootload requested a second before the clock wraps, and asked for two seconds after that. -/
theorem namesDeadline_wrapped :
    NamesDeadline 5000 (2 ^ 32 - 1000) (2 ^ 32 + 2000)
      (requestDelay (requestFrame 5000 (2 ^ 32 - 1000) (2 ^ 32 + 2000))) := by
  have hle : 2 ^ 32 - 1000 ≤ 2 ^ 32 + 2000 := by decide
  obtain ⟨p', hst⟩ := exists_step_requested 5000 hle
  obtain ⟨d, hd, h⟩ := namesDeadline_iff (reach_requested 5000 (2 ^ 32 - 1000)) hst
    (List.mem_singleton.mpr rfl) (carries_requestFrame _ _ _) (by decide)
  obtain rfl : 5000 = d := Option.some.inj hd
  exact h.mpr (by decide)

/-- **A delay of 25 days asks for an immediate bootload**: `2 ^ 31` ms at the time of the call. -/
theorem immediate_bootload : ∃ p p' : (Server × Option ProcessParameters) × Clock,
    (clocked defaultConfig).Reach free p ∧
      (clocked defaultConfig).step p (1000, .timerExpired (envAt 1000)) =
        some (p', [.messageSend (requestFrame 0x80000000 1000 1000) emberSuccess]) ∧
      p.2.initiated = 1000 ∧ requestedDelay p.1.2 = some 0x80000000 ∧
      requestDelay (requestFrame 0x80000000 1000 1000) = 0 ∧
      ¬ NamesDeadline 0x80000000 1000 1000 (requestDelay (requestFrame 0x80000000 1000 1000)) := by
  obtain ⟨p', hst⟩ := exists_step_requested 0x80000000 (Nat.le_refl 1000)
  have h0 : requestDelay (requestFrame 0x80000000 1000 1000) = 0 := by decide +kernel
  refine ⟨_, p', reach_requested 0x80000000 1000, hst, rfl, rfl, h0, fun h => ?_⟩
  exact absurd (h.immediate h0) (by decide)

end ConnectNcpHost.Ota.BootloadDelay
