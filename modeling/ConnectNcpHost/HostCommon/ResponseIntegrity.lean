import ConnectNcpHost.HostCommon.CpcHost

/-! # The response of a command

One command is outstanding at a time, and it is in one place: on its way to the NCP, answered and on
the link, in `responseBuffer`, a token in the pipe, or a token that was read (`ExchangeInv.count`).
From the token to the `memcpy` nothing keeps the poll thread from reading the next frame, a callback,
into `responseBuffer`. Whether that has happened decides what the command returns (`intact_iff`). -/

namespace ConnectNcpHost.HostCommon.ResponseIntegrity

open ConnectNcpHost.Lib.Bytes ConnectNcpHost.Lib.Runs ConnectNcpHost.Stack.ByteUtilities
open ConnectNcpHost.HostCommon.CpcHost

variable {s s' : Exchange} {l : Label} {out : List Empty} {overwritten : Bool}

/-! ## What a step can do -/

/-- The steps that are enabled. -/
inductive ExchangeTrans (s : Exchange) : Label → Exchange → Prop
  | send {m : Mem} {length : UInt16} (hp : s.phase = .idle) :
      ExchangeTrans s (.send m length)
        { s with
          host := { s.host with apiCommandData := m }
          phase := .waiting
          toNcp := s.toNcp ++ [m.read 0 length.toNat]
          sent := s.sent + 1 }
  | answer {f : CpcFrame} {c : List UInt8} {toNcp : List (List UInt8)} (ht : s.toNcp = c :: toNcp)
      (hf : f.origin = responseOrigin) :
      ExchangeTrans s (.answer f)
        { s with toNcp := toNcp, fromNcp := s.fromNcp ++ [f], answers := s.answers ++ [f] }
  | callback {f : CpcFrame} (hf : f.origin = callbackOrigin) :
      ExchangeTrans s (.callback f) { s with fromNcp := s.fromNcp ++ [f] }
  | rx {f : CpcFrame} {fs : List CpcFrame} (hn : s.host.commandLength = none)
      (hl : s.fromNcp = f :: fs) :
      ExchangeTrans s .rx { s with host := s.host.cpcRx f, fromNcp := fs }
  | response {n : UInt16} (hn : s.host.commandLength = some n)
      (ho : s.host.responseBuffer 0 = responseOrigin) :
      ExchangeTrans s .dispatch
        { s with
          host := { s.host with commandLength := none }.slConnectNcpHandleResponse }
  | append {n : UInt16} (hn : s.host.commandLength = some n)
      (ho : s.host.responseBuffer 0 = callbackOrigin) :
      ExchangeTrans s .dispatch
        { s with
          host := { s.host with commandLength := none }.sliConnectNcpAppendCallbackCommand n }
  | unknown {n : UInt16} (hn : s.host.commandLength = some n)
      (hr : s.host.responseBuffer 0 ≠ responseOrigin)
      (hc : s.host.responseBuffer 0 ≠ callbackOrigin) :
      ExchangeTrans s .dispatch { s with exited := true }
  | timeout (hp : s.phase = .waiting) (ht : s.host.responsePipe = []) :
      ExchangeTrans s .timeout { s with phase := .timedOut }
  | readToken {token : UInt8} {tokens : List UInt8} (hp : s.phase = .waiting)
      (ht : s.host.responsePipe = token :: tokens) :
      ExchangeTrans s .readToken
        { s with host := { s.host with responsePipe := tokens }, phase := .tokenRead }
  | late (hp : s.phase = .timedOut) : ExchangeTrans s .readToken { s with exited := true }
  | memcpy (hp : s.phase = .tokenRead) :
      ExchangeTrans s .memcpy { s with host := s.host.memcpyResponse, phase := .returned }
  | release (hp : s.phase = .returned) : ExchangeTrans s .release { s with phase := .idle }

theorem exchangeTrans_dispatch (hst : s.next .dispatch = some s') :
    ExchangeTrans s .dispatch s' := by
  simp only [Exchange.next] at hst
  split at hst
  · cases hst
  · next n hn =>
    by_cases hr : s.host.responseBuffer 0 = responseOrigin
    · simp only [Host.dispatch, hr, if_true, Option.some.injEq] at hst
      exact hst ▸ .response hn hr
    by_cases hc : s.host.responseBuffer 0 = callbackOrigin
    · simp only [Host.dispatch, if_neg hr, if_pos hc, Option.some.injEq] at hst
      exact hst ▸ .append hn hc
    · simp only [Host.dispatch, if_neg hr, if_neg hc, Option.some.injEq] at hst
      exact hst ▸ .unknown hn hr hc

theorem exchangeTrans_next (hst : s.next l = some s') : ExchangeTrans s l s' := by
  cases l with
  | dispatch => exact exchangeTrans_dispatch hst
  | send m length =>
    simp only [Exchange.next, Option.ite_none_right_eq_some, Option.some.injEq] at hst
    obtain ⟨hp, rfl⟩ := hst
    exact .send hp
  | answer f =>
    simp only [Exchange.next] at hst
    split at hst
    · cases hst
    · next c toNcp ht =>
      simp only [Option.ite_none_right_eq_some, Option.some.injEq] at hst
      obtain ⟨hf, rfl⟩ := hst
      exact .answer ht hf
  | callback f =>
    simp only [Exchange.next, Option.ite_none_right_eq_some, Option.some.injEq] at hst
    obtain ⟨hf, rfl⟩ := hst
    exact .callback hf
  | rx =>
    simp only [Exchange.next] at hst
    split at hst
    · next f fs hn hl =>
      obtain rfl := Option.some.inj hst
      exact .rx hn hl
    · cases hst
  | timeout =>
    simp only [Exchange.next, Option.ite_none_right_eq_some, Option.some.injEq] at hst
    obtain ⟨⟨hp, ht⟩, rfl⟩ := hst
    exact .timeout hp ht
  | readToken =>
    simp only [Exchange.next] at hst
    split at hst
    · next token tokens ht hp =>
      obtain rfl := Option.some.inj hst
      exact .readToken hp ht
    · next hp =>
      obtain rfl := Option.some.inj hst
      exact .late hp
    · cases hst
  | memcpy =>
    simp only [Exchange.next, Option.ite_none_right_eq_some, Option.some.injEq] at hst
    obtain ⟨hp, rfl⟩ := hst
    exact .memcpy hp
  | release =>
    simp only [Exchange.next, Option.ite_none_right_eq_some, Option.some.injEq] at hst
    obtain ⟨hp, rfl⟩ := hst
    exact .release hp

theorem exchangeTrans_of_step (hst : exchange.step s l = some (s', out)) :
    ExchangeTrans s l s' := by
  simp only [exchange, Option.ite_none_left_eq_some, Option.map_eq_some_iff, Prod.mk.injEq] at hst
  obtain ⟨-, s1, hnext, rfl, -⟩ := hst
  exact exchangeTrans_next hnext

/-! ## The property and its condition -/

/-- The memory starts with the bytes of a frame, as many as the `memcpy` copies. -/
def Holds (m : Mem) (f : CpcFrame) : Prop :=
  m.read 0 (min f.bytes.length maxStackApiCommandSize) = f.bytes.take maxStackApiCommandSize

/-- **The caller has the bytes of the answer to its command.** -/
def Intact (s : Exchange) : Prop :=
  ∃ f, s.answers[s.sent - 1]? = some f ∧ Holds s.host.apiCommandData f

/-- The token of the answer is written, and `responseBuffer` not copied yet. -/
def Undelivered (s : Exchange) : Prop :=
  s.phase = .tokenRead ∨ s.phase = .waiting ∧ s.host.responsePipe ≠ []

instance (s : Exchange) : Decidable (Undelivered s) := by unfold Undelivered; infer_instance

/-- No frame is read between the token of an answer and the `memcpy`. -/
def KeepsResponse (s : Exchange) (l : Label) : Prop := l = .rx → ¬ Undelivered s

instance (s : Exchange) (l : Label) : Decidable (KeepsResponse s l) :=
  match l with
  | .rx => decidable_of_iff (¬ Undelivered s) ⟨fun h _ => h, fun h => h rfl⟩
  | .send _ _ | .answer _ | .callback _ | .dispatch | .timeout | .readToken | .memcpy | .release =>
    isTrue (fun h => by cases h)

/-- Whether a frame was read between the token of the answer to the last command and the `memcpy`. -/
def overwrites (overwritten : Bool) (s : Exchange) : Label → List Empty → Bool
  | .send _ _, _ => false
  | .rx, _ => overwritten || decide (Undelivered s)
  | _, _ => overwritten

/-! ## The invariant -/

/-- What comes from the NCP is the last answer or a callback. -/
def Comes (answers : List CpcFrame) (f : CpcFrame) : Prop :=
  answers.getLast? = some f ∨ f.origin = callbackOrigin

/-- The memory holds the last answer, or, where it was overwritten, a callback. -/
def Delivers (answers : List CpcFrame) (m : Mem) (overwritten : Bool) : Prop :=
  if overwritten then m 0 = callbackOrigin else ∃ f, answers.getLast? = some f ∧ Holds m f

/-- The commands whose answer is not copied. -/
def outstanding : Phase → ℕ
  | .waiting | .timedOut | .tokenRead => 1
  | .idle | .returned => 0

/-- The responses on the link. -/
def onLink (s : Exchange) : ℕ := s.fromNcp.countP fun f => f.origin = responseOrigin

/-- The response in `responseBuffer` that is not dispatched. -/
def arrived (s : Exchange) : ℕ :=
  if s.host.commandLength ≠ none ∧ s.host.responseBuffer 0 = responseOrigin then 1 else 0

/-- The token that was read. -/
def tokens (s : Exchange) : ℕ :=
  s.host.responsePipe.length + if s.phase = .tokenRead then 1 else 0

/-- **Invariant.** -/
structure ExchangeInv (s : Exchange) (overwritten : Bool) : Prop where
  numbered : s.answers.length + s.toNcp.length = s.sent
  count : s.toNcp.length + onLink s + arrived s + tokens s = outstanding s.phase
  answers : ∀ f ∈ s.answers, f.origin = responseOrigin
  link : ∀ f ∈ s.fromNcp, Comes s.answers f
  buffer : ∀ n, s.host.commandLength = some n → ∃ f, Comes s.answers f ∧
    n.toNat = f.bytes.length ∧ s.host.responseBuffer.read 0 f.bytes.length = f.bytes
  token : Undelivered s → Delivers s.answers s.host.responseBuffer overwritten
  copied : s.phase = .returned → Delivers s.answers s.host.apiCommandData overwritten
  fresh : s.phase = .waiting → s.host.responsePipe = [] → overwritten = false

theorem exchangeInv_init : ExchangeInv Exchange.init false where
  numbered := rfl
  count := rfl
  answers f hf := absurd hf List.not_mem_nil
  link f hf := absurd hf List.not_mem_nil
  buffer n hn := by cases hn
  token h := absurd h (by decide)
  copied h := absurd h (by decide)
  fresh _ _ := rfl

theorem outstanding_le (p : Phase) : outstanding p ≤ 1 := by
  cases p <;> decide

theorem responseOrigin_ne : responseOrigin ≠ callbackOrigin := by decide

/-- A memory that starts with a frame starts with its first byte. -/
theorem apply_zero_of_read {m : Mem} {f : CpcFrame}
    (h : m.read 0 f.bytes.length = f.bytes) : m 0 = f.origin := by
  obtain ⟨bytes, hne, hle⟩ := f
  cases bytes with
  | nil => exact absurd rfl hne
  | cons b bs =>
    rw [List.length_cons, Memory.read_succ] at h
    exact (List.cons.inj h).1

theorem apply_zero_of_holds {m : Mem} {f : CpcFrame} (h : Holds m f) : m 0 = f.origin := by
  obtain ⟨bytes, hne, hle⟩ := f
  cases bytes with
  | nil => exact absurd rfl hne
  | cons b bs =>
    have hmin : min (b :: bs).length maxStackApiCommandSize = min bs.length 2095 + 1 := by
      rw [List.length_cons]
      unfold maxStackApiCommandSize
      omega
    unfold Holds at h
    dsimp only at h
    rw [hmin, Memory.read_succ, maxStackApiCommandSize, List.take_succ_cons] at h
    exact (List.cons.inj h).1

theorem holds_of_read {m : Mem} {f : CpcFrame} (h : m.read 0 f.bytes.length = f.bytes) :
    Holds m f := by
  unfold Holds
  rw [← Memory.take_read m 0 f.bytes.length _ (min_le_left _ _), h, List.take_eq_take_iff]
  omega

/-- What is overwritten no longer holds the answer. -/
theorem delivers_iff {answers : List CpcFrame} {m : Mem}
    (ha : ∀ f ∈ answers, f.origin = responseOrigin) (h : Delivers answers m overwritten) :
    (∃ f, answers.getLast? = some f ∧ Holds m f) ↔ overwritten = false := by
  cases overwritten with
  | false => exact ⟨fun _ => rfl, fun _ => h⟩
  | true =>
    refine ⟨fun ⟨f, hf, hh⟩ => ?_, fun hfalse => by cases hfalse⟩
    have horigin := (apply_zero_of_holds hh).symm.trans h
    rw [ha f (List.mem_of_getLast? hf)] at horigin
    exact absurd horigin responseOrigin_ne

/-! ## Where the answer is -/

theorem Comes.eq_callback {answers : List CpcFrame} {f : CpcFrame} (h : Comes answers f)
    (ha : ∀ f ∈ answers, f.origin = responseOrigin) (hf : f.origin ≠ responseOrigin) :
    f.origin = callbackOrigin := by
  rcases h with h | h
  · exact absurd (ha f (List.mem_of_getLast? h)) hf
  · exact h

theorem Comes.eq_last {answers : List CpcFrame} {f : CpcFrame} (h : Comes answers f)
    (hf : f.origin = responseOrigin) : answers.getLast? = some f := by
  rcases h with h | h
  · exact h
  · exact absurd (hf.symm.trans h) responseOrigin_ne

theorem tokens_pos (h : Undelivered s) : 0 < tokens s := by
  unfold tokens
  rcases h with hp | ⟨-, ht⟩
  · rw [if_pos hp]
    omega
  · have := List.length_pos_iff.mpr ht
    omega

theorem tokens_of_ne (hp : s.phase ≠ .tokenRead) : tokens s = s.host.responsePipe.length := by
  rw [tokens, if_neg hp, Nat.add_zero]

theorem origin_ne_of_onLink {f : CpcFrame} (h : onLink s = 0) (hf : f ∈ s.fromNcp) :
    f.origin ≠ responseOrigin := by
  intro ho
  exact List.countP_eq_zero.mp h f hf (decide_eq_true ho)

theorem arrived_of_response {n : UInt16} (hn : s.host.commandLength = some n)
    (ho : s.host.responseBuffer 0 = responseOrigin) : arrived s = 1 :=
  if_pos ⟨by simp [hn], ho⟩

theorem arrived_of_none (hn : s.host.commandLength = none) : arrived s = 0 :=
  if_neg fun h => h.1 hn

/-- The `memcpy` keeps what was delivered. -/
theorem Delivers.memcpy {answers : List CpcFrame} {h : Host}
    (hd : Delivers answers h.responseBuffer overwritten) :
    Delivers answers h.memcpyResponse.apiCommandData overwritten := by
  cases overwritten with
  | false =>
    obtain ⟨f, hf, hh⟩ := hd
    exact ⟨f, hf, by rw [Holds, h.read_memcpyResponse (min_le_right _ _)]; exact hh⟩
  | true =>
    have h1 := h.read_memcpyResponse (show 1 ≤ maxStackApiCommandSize by decide)
    simp only [Memory.read_succ, Memory.read_zero] at h1
    exact (List.cons.inj h1).1.trans hd

/-! ## Every step keeps the invariant -/

theorem exchangeInv_send {m : Mem} {length : UInt16} (h : ExchangeInv s overwritten)
    (hp : s.phase = .idle) :
    ExchangeInv { s with
      host := { s.host with apiCommandData := m }
      phase := .waiting
      toNcp := s.toNcp ++ [m.read 0 length.toNat]
      sent := s.sent + 1 } false where
  numbered := by
    have := h.numbered
    show s.answers.length + (s.toNcp ++ [_]).length = s.sent + 1
    rw [List.length_append, List.length_singleton]
    omega
  count := by
    have hc := h.count
    rw [tokens_of_ne (by simp [hp]), hp, outstanding] at hc
    show (s.toNcp ++ [_]).length + onLink s + arrived s + (s.host.responsePipe.length + 0) = 1
    rw [List.length_append, List.length_singleton]
    omega
  answers := h.answers
  link := h.link
  buffer := h.buffer
  token hu := by
    have hc := h.count
    rw [tokens_of_ne (by simp [hp]), hp, outstanding] at hc
    rcases hu with hp' | ⟨-, ht⟩
    · cases hp'
    · have ht' : 0 < s.host.responsePipe.length := List.length_pos_iff.mpr ht
      omega
  copied hp' := by cases hp'
  fresh _ _ := rfl

theorem exchangeInv_answer {f : CpcFrame} {c : List UInt8} {toNcp : List (List UInt8)}
    (h : ExchangeInv s overwritten) (ht : s.toNcp = c :: toNcp) (hf : f.origin = responseOrigin) :
    ExchangeInv { s with
      toNcp := toNcp
      fromNcp := s.fromNcp ++ [f]
      answers := s.answers ++ [f] } overwritten := by
  have hc := h.count
  have hle := outstanding_le s.phase
  rw [ht, List.length_cons] at hc
  have hlast : (s.answers ++ [f]).getLast? = some f := List.getLast?_concat
  have hcallback : ∀ f', Comes s.answers f' → f'.origin ≠ responseOrigin →
      Comes (s.answers ++ [f]) f' := fun f' hc hne => .inr (hc.eq_callback h.answers hne)
  have hnone : ¬ Undelivered s := fun hu => by
    have := tokens_pos hu
    omega
  refine ⟨?_, ?_, fun f' hf' => ?_, fun f' hf' => ?_, fun n hn => ?_, fun hu => absurd hu hnone,
    fun hp => ?_, h.fresh⟩
  · have := h.numbered
    rw [ht, List.length_cons] at this
    show (s.answers ++ [f]).length + toNcp.length = s.sent
    rw [List.length_append, List.length_singleton]
    omega
  · show toNcp.length + (s.fromNcp ++ [f]).countP _ + arrived s + tokens s = outstanding s.phase
    rw [List.countP_append, List.countP_singleton, if_pos (decide_eq_true hf)]
    unfold onLink at hc
    omega
  · rcases List.mem_append.mp hf' with hf' | hf'
    · exact h.answers f' hf'
    · rw [List.mem_singleton.mp hf', hf]
  · rcases List.mem_append.mp hf' with hf' | hf'
    · exact hcallback f' (h.link f' hf') (origin_ne_of_onLink (by omega) hf')
    · rw [List.mem_singleton.mp hf']
      exact .inl hlast
  · obtain ⟨f', hcomes, hlen, hread⟩ := h.buffer n hn
    refine ⟨f', hcallback f' hcomes fun ho => ?_, hlen, hread⟩
    have := arrived_of_response (s := s) hn ((apply_zero_of_read hread).trans ho)
    omega
  · rw [show s.phase = .returned from hp, outstanding] at hc
    omega

theorem exchangeInv_callback {f : CpcFrame} (h : ExchangeInv s overwritten)
    (hf : f.origin = callbackOrigin) :
    ExchangeInv { s with fromNcp := s.fromNcp ++ [f] } overwritten := by
  refine ⟨h.numbered, ?_, h.answers, fun f' hf' => ?_, h.buffer, h.token, h.copied, h.fresh⟩
  · have hne : ¬ decide (f.origin = responseOrigin) = true := by
      rw [hf]
      decide
    show s.toNcp.length + (s.fromNcp ++ [f]).countP _ + arrived s + tokens s = _
    rw [List.countP_append, List.countP_singleton, if_neg hne]
    exact h.count
  · rcases List.mem_append.mp hf' with hf' | hf'
    · exact h.link f' hf'
    · rw [List.mem_singleton.mp hf']
      exact .inr hf

theorem read_cpcRx (h : Host) (f : CpcFrame) :
    (h.cpcRx f).responseBuffer.read 0 f.bytes.length = f.bytes :=
  Memory.read_write_same h.responseBuffer 0 f.bytes

theorem cpcRx_apply_zero (h : Host) (f : CpcFrame) : (h.cpcRx f).responseBuffer 0 = f.origin :=
  apply_zero_of_read (read_cpcRx h f)

theorem arrived_cpcRx (s : Exchange) (f : CpcFrame) (fs : List CpcFrame) :
    arrived { s with host := s.host.cpcRx f, fromNcp := fs } =
      if f.origin = responseOrigin then 1 else 0 := by
  unfold arrived
  rw [cpcRx_apply_zero]
  simp [Host.cpcRx]

theorem toNat_commandLength (f : CpcFrame) : f.bytes.length.toUInt16.toNat = f.bytes.length := by
  have hle : f.bytes.length ≤ 4096 := f.length_le
  rw [UInt16.toNat_ofNat']
  exact Nat.mod_eq_of_lt (by omega)

theorem exchangeInv_rx {f : CpcFrame} {fs : List CpcFrame} (h : ExchangeInv s overwritten)
    (hn : s.host.commandLength = none) (hl : s.fromNcp = f :: fs) :
    ExchangeInv { s with host := s.host.cpcRx f, fromNcp := fs }
      (overwritten || decide (Undelivered s)) := by
  have hf : f ∈ s.fromNcp := by
    rw [hl]
    exact List.mem_cons_self
  have hkept : ¬ Undelivered s → (overwritten || decide (Undelivered s)) = overwritten := by
    intro hu
    rw [decide_eq_false hu, Bool.or_false]
  refine ⟨h.numbered, ?_, h.answers, fun f' hf' => ?_, fun n hn' => ?_, fun hu => ?_, fun hp => ?_,
    fun hp ht => ?_⟩
  · have hc := h.count
    rw [arrived_of_none hn, onLink, hl, List.countP_cons] at hc
    simp only [decide_eq_true_eq] at hc
    rw [arrived_cpcRx]
    show s.toNcp.length + fs.countP _ + (if f.origin = responseOrigin then 1 else 0) + tokens s =
      outstanding s.phase
    omega
  · refine h.link f' ?_
    rw [hl]
    exact List.mem_cons_of_mem f hf'
  · obtain rfl : f.bytes.length.toUInt16 = n := Option.some.inj hn'
    exact ⟨f, h.link f hf, toNat_commandLength f, read_cpcRx s.host f⟩
  · -- the answer is a token, so the frame is a callback
    have hu' : Undelivered s := hu
    have hc := h.count
    have hle := outstanding_le s.phase
    have hpos := tokens_pos hu'
    rw [decide_eq_true hu', Bool.or_true]
    exact (cpcRx_apply_zero s.host f).trans
      ((h.link f hf).eq_callback h.answers (origin_ne_of_onLink (by omega) hf))
  · have hp' : s.phase = .returned := hp
    rw [hkept (by simp [Undelivered, hp'])]
    exact h.copied hp'
  · have hp' : s.phase = .waiting := hp
    have ht' : s.host.responsePipe = [] := ht
    rw [hkept (by simp [Undelivered, hp', ht'])]
    exact h.fresh hp' ht'

theorem exchangeInv_response {n : UInt16} (h : ExchangeInv s overwritten)
    (hn : s.host.commandLength = some n) (ho : s.host.responseBuffer 0 = responseOrigin) :
    ExchangeInv { s with
      host := { s.host with commandLength := none }.slConnectNcpHandleResponse } overwritten := by
  have hc := h.count
  have hle := outstanding_le s.phase
  rw [arrived_of_response hn ho] at hc
  have htok : tokens s = 0 := by omega
  unfold tokens at htok
  have hpipe : s.host.responsePipe = [] := List.eq_nil_of_length_eq_zero (by omega)
  refine ⟨h.numbered, ?_, h.answers, h.link, fun n hn => (by cases hn), fun hu => ?_, fun hp => ?_,
    fun _ ht => ?_⟩
  · rw [arrived_of_none (by rfl)]
    show s.toNcp.length + onLink s + 0 + ((s.host.responsePipe ++ [0]).length +
      if s.phase = .tokenRead then 1 else 0) = outstanding s.phase
    rw [List.length_append, List.length_singleton]
    omega
  · rcases hu with hp | ⟨hp, -⟩
    · rw [if_pos hp] at htok
      omega
    · rw [h.fresh hp hpipe]
      obtain ⟨f, hcomes, -, hread⟩ := h.buffer n hn
      have horigin : f.origin = responseOrigin := (apply_zero_of_read hread).symm.trans ho
      exact ⟨f, hcomes.eq_last horigin, holds_of_read hread⟩
  · rw [show s.phase = .returned from hp, outstanding] at hc
    omega
  · exact absurd ht (by simp [Host.slConnectNcpHandleResponse])

theorem exchangeInv_append {n : UInt16} (h : ExchangeInv s overwritten)
    (ho : s.host.responseBuffer 0 = callbackOrigin) :
    ExchangeInv { s with
      host := { s.host with commandLength := none }.sliConnectNcpAppendCallbackCommand n }
      overwritten := by
  refine ⟨h.numbered, ?_, h.answers, h.link, fun n hn => (by cases hn), h.token, h.copied, h.fresh⟩
  have hc := h.count
  have harr : arrived s = 0 := if_neg fun h => responseOrigin_ne (h.2.symm.trans ho)
  rw [arrived_of_none (by rfl)]
  rw [harr] at hc
  exact hc

/-- `exit` leaves the last state. -/
theorem exchangeInv_exit (h : ExchangeInv s overwritten) :
    ExchangeInv { s with exited := true } overwritten :=
  ⟨h.numbered, h.count, h.answers, h.link, h.buffer, h.token, h.copied, h.fresh⟩

/-- A change of the phase where no response is being taken over. -/
theorem exchangeInv_phase {p q : Phase} (h : ExchangeInv s overwritten) (hp : s.phase = p)
    (hpt : p ≠ .tokenRead) (hq : q ≠ .tokenRead ∧ q ≠ .waiting ∧ q ≠ .returned)
    (ho : outstanding q = outstanding p) : ExchangeInv { s with phase := q } overwritten := by
  refine ⟨h.numbered, ?_, h.answers, h.link, h.buffer, fun hu => ?_,
    fun hp' => absurd hp' hq.2.2, fun hp' => absurd hp' hq.2.1⟩
  · have hc := h.count
    rw [tokens_of_ne (by rw [hp]; exact hpt), hp, ← ho] at hc
    rw [tokens_of_ne hq.1]
    exact hc
  · rcases hu with hp' | ⟨hp', -⟩
    · exact absurd hp' hq.1
    · exact absurd hp' hq.2.1

theorem exchangeInv_timeout (h : ExchangeInv s overwritten) (hp : s.phase = .waiting) :
    ExchangeInv { s with phase := .timedOut } overwritten :=
  exchangeInv_phase h hp (by decide) (by decide) rfl

theorem exchangeInv_readToken {token : UInt8} {ts : List UInt8} (h : ExchangeInv s overwritten)
    (hp : s.phase = .waiting) (ht : s.host.responsePipe = token :: ts) :
    ExchangeInv { s with host := { s.host with responsePipe := ts }, phase := .tokenRead }
      overwritten := by
  refine ⟨h.numbered, ?_, h.answers, h.link, h.buffer, fun _ => ?_, fun hp' => (by cases hp'),
    fun hp' => (by cases hp')⟩
  · have hc := h.count
    simp only [tokens, hp, ht, outstanding, reduceCtorEq, if_false, List.length_cons] at hc
    exact hc
  · exact h.token (.inr ⟨hp, by simp [ht]⟩)

theorem exchangeInv_memcpy (h : ExchangeInv s overwritten) (hp : s.phase = .tokenRead) :
    ExchangeInv { s with host := s.host.memcpyResponse, phase := .returned } overwritten := by
  have hdelivered := (h.token (.inl hp)).memcpy
  refine ⟨h.numbered, ?_, h.answers, h.link, ?_, fun hu => ?_, fun _ => hdelivered,
    fun hp' => (by cases hp')⟩
  · have hc := h.count
    simp only [tokens, arrived, onLink, hp, outstanding, if_true, Host.memcpyResponse_responseBuffer,
      Host.memcpyResponse_commandLength, Host.memcpyResponse_responsePipe] at hc ⊢
    simp only [reduceCtorEq, if_false]
    omega
  · simp only [Host.memcpyResponse_responseBuffer, Host.memcpyResponse_commandLength]
    exact h.buffer
  · rcases hu with hp' | ⟨hp', -⟩ <;> cases hp'

theorem exchangeInv_release (h : ExchangeInv s overwritten) (hp : s.phase = .returned) :
    ExchangeInv { s with phase := .idle } overwritten :=
  exchangeInv_phase h hp (by decide) (by decide) rfl

theorem exchangeInv_step (h : ExchangeInv s overwritten) (ht : ExchangeTrans s l s') :
    ExchangeInv s' (overwrites overwritten s l out) := by
  cases ht with
  | send hp => exact exchangeInv_send h hp
  | answer ht hf => exact exchangeInv_answer h ht hf
  | callback hf => exact exchangeInv_callback h hf
  | rx hn hl => exact exchangeInv_rx h hn hl
  | response hn ho => exact exchangeInv_response h hn ho
  | append _ ho => exact exchangeInv_append h ho
  | unknown _ _ _ => exact exchangeInv_exit h
  | timeout hp _ => exact exchangeInv_timeout h hp
  | readToken hp ht => exact exchangeInv_readToken h hp ht
  | late _ => exact exchangeInv_exit h
  | memcpy hp => exact exchangeInv_memcpy h hp
  | release hp => exact exchangeInv_release h hp

/-! ## The property -/

/-- The exchange, and whether the answer to the last command was overwritten. -/
abbrev observed : System (Exchange × Bool) Label Empty := exchange.observe false overwrites

theorem exchangeInv_of_reach (ok : Exchange → Label → Prop) {p : Exchange × Bool}
    (h : observed.Reach (fun p l => ok p.1 l) p) : ExchangeInv p.1 p.2 := by
  refine System.Reach.invariant (I := fun p => ExchangeInv p.1 p.2) ?_ ?_ h
  · rintro ⟨s, overwritten⟩ ⟨h0, h1⟩
    obtain rfl : s = Exchange.init := h0
    obtain rfl : overwritten = false := h1
    exact exchangeInv_init
  · rintro p l p' out - hinv - hst
    obtain ⟨hstep, hg⟩ := System.observe_step hst
    rw [hg]
    exact exchangeInv_step hinv (exchangeTrans_of_step hstep)

/-- The command that has returned is answered, and its answer is the last one. -/
theorem ExchangeInv.last (h : ExchangeInv s overwritten) (hp : s.phase = .returned) :
    s.answers[s.sent - 1]? = s.answers.getLast? := by
  have hc := h.count
  have hn := h.numbered
  rw [hp, outstanding] at hc
  rw [List.getLast?_eq_getElem?, ← hn, show s.toNcp.length = 0 by omega]
  rfl

/-- **A command returns the bytes of its answer if and only if no frame was read into
`responseBuffer` between the token and the `memcpy`.** -/
theorem intact_iff (h : observed.Reach free (s, overwritten)) (hp : s.phase = .returned) :
    Intact s ↔ overwritten = false := by
  have hinv : ExchangeInv s overwritten := exchangeInv_of_reach free h
  have hlast := hinv.last hp
  unfold Intact
  rw [hlast]
  exact delivers_iff hinv.answers (hinv.copied hp)

theorem not_overwritten {p : Exchange × Bool}
    (h : observed.Reach (fun p l => KeepsResponse p.1 l) p) : p.2 = false := by
  refine System.Reach.invariant (I := fun p => p.2 = false) ?_ ?_ h
  · rintro p ⟨-, h0⟩
    exact h0
  rintro ⟨s, overwritten⟩ l p' out - hfalse hkeeps hst
  obtain rfl : overwritten = false := hfalse
  rw [(System.observe_step hst).2]
  cases l with
  | rx => exact decide_eq_false (hkeeps rfl)
  | _ => rfl

/-- **Where no frame is read between a token and its `memcpy`, every command returns the bytes of its
answer.** -/
theorem intact_of_keepsResponse (h : exchange.Reach KeepsResponse s) (hp : s.phase = .returned) :
    Intact s := by
  obtain ⟨overwritten, hobs⟩ := System.exists_observe_of_reach false overwrites h
  have hinv : ExchangeInv s overwritten := exchangeInv_of_reach KeepsResponse hobs
  have hfalse : overwritten = false := not_overwritten hobs
  unfold Intact
  rw [hinv.last hp]
  exact (delivers_iff hinv.answers (hinv.copied hp)).mpr hfalse

/-- An answer with the status 0. -/
def statusAnswer : CpcFrame := ⟨[0x69, 0x56, 0], by decide, by decide⟩

/-- `emberStackStatusHandler` -/
def stackStatusCallback : CpcFrame := ⟨[0x63, 0x00, 0x90], by decide, by decide⟩

/-- `emberNcpSetLongMessagesUse(true)`: the mutex, the command, its answer. -/
def answered : List Label := [.send (fun i => [0x69, 0x56, 1].getD i 0) 3, .answer statusAnswer]

/-- A callback comes before the answer and another one after it. -/
theorem intact_of_keepsResponse_callbacks :
    ∃ s, exchange.Reach KeepsResponse s ∧ s.answers = [statusAnswer] ∧ Intact s := by
  have h0 : exchange.Reach KeepsResponse Exchange.init := .start rfl
  obtain ⟨s, hs, hf⟩ := System.exists_reach_of_exec ([.callback stackStatusCallback] ++ answered ++
      [.callback stackStatusCallback, .rx, .dispatch, .rx, .dispatch, .readToken, .memcpy, .rx,
        .dispatch]) (fun s : Exchange => (s.phase, s.answers)) (b := (.returned, [statusAnswer])) h0
    (by decide +kernel)
  obtain ⟨hp, ha⟩ := Prod.mk.inj hf
  exact ⟨s, hs, ha, intact_of_keepsResponse hs hp⟩

/-- **A callback that is read after the token is returned instead of the answer.** -/
theorem not_intact_of_callback :
    ¬ ∀ s : Exchange, exchange.Reach free s → s.phase = .returned → Intact s := by
  intro h
  have h0 : exchange.Reach free Exchange.init := .start rfl
  obtain ⟨s, hs, hf⟩ := System.exists_reach_of_exec
    (answered ++ [.callback stackStatusCallback, .rx, .dispatch, .rx, .readToken, .memcpy])
    (fun s : Exchange => (s.phase, s.sent, s.answers, s.host.apiCommandData 0))
    (b := (.returned, 1, [statusAnswer], 0x63)) h0 (by decide +kernel)
  simp only [Prod.mk.injEq] at hf
  obtain ⟨hp, hsent, ha, hzero⟩ := hf
  obtain ⟨f, hlast, hholds⟩ := h s hs hp
  rw [ha, hsent] at hlast
  obtain rfl : statusAnswer = f := Option.some.inj hlast
  have horigin := (apply_zero_of_holds hholds).symm.trans hzero
  exact absurd horigin (by decide)

end ConnectNcpHost.HostCommon.ResponseIntegrity
