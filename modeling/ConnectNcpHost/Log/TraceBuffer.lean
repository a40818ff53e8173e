import ConnectNcpHost.Lib.Runs
import ConnectNcpHost.Log.StrBytes

/-! # The trace buffer (`log.c`)

`tr_csp_id` and `tr_csp_full` print into one buffer, each behind the strings printed before, until the
outermost `__tr_exit` starts it over. A call may write three bytes for each byte of its input and
keeps only what it has printed.

* `claim_of_holds`: a string that is printed where `trace_idx` stands is kept, and returned.
* `History`: which exit is the outermost is counted from the calls; `trExit_eq`: the counter of the
  code counts the same.
* `arena_of_reach`: in every run the index stays in the buffer, so do all writes, and the strings
  returned since the last outermost exit stand there unchanged, side by side. -/

namespace ConnectNcpHost.Log.TraceBuffer

open ConnectNcpHost.Lib.Bytes ConnectNcpHost.Lib.Terminated ConnectNcpHost.Lib.Runs
open ConnectNcpHost.Log.StrBytes

/-! ## The functions -/

/-- `STR_MAX_LEN_CSP_ID` -/
def strMaxLenCspId : ℤ := 19

/-- `sizeof(trace_buffer)` -/
def traceBufferSize : ℕ := 256

/-- The variables of a thread, and the memory its `trace_buffer` stands in. -/
structure Trace where
  mem : CharMem
  traceIdx : ℤ
  traceNestedCounter : ℤ

/-- What a call returns: the constant string, or the address of a string and what stands there. -/
inductive Returned
  | overflow
  | string (out : ℕ) (text : List Char)
  deriving DecidableEq

/-- An `int` that is compared with a `size_t` -/
def toSize (i : ℤ) : UInt64 := UInt64.ofInt i

/-- `"%04X"` -/
def hex4 (v : UInt16) : List Char :=
  [hexU.getD (v.toNat / 4096 % 16) nul, hexU.getD (v.toNat / 256 % 16) nul,
    hexU.getD (v.toNat / 16 % 16) nul, hexU.getD (v.toNat % 16) nul]

/-- `str_csp_id(in, out)` -/
def strCspId (m : CharMem) (v : UInt16) (out : ℕ) : CharMem :=
  strcpy m out ("Command ID: 0x".toList ++ hex4 v)

/-- `str_csp_full(in, in_len, out, out_len)` -/
def strCspFull (m : CharMem) (input : Input) (out : ℕ) (outLen : ℤ) : Option CharMem :=
  (strBytes m input out (toSize outLen) delimColon).map Prod.fst

/-- `strlen(s)`, of a string that ends before `n` bytes -/
def strlen (m : CharMem) (s n : ℕ) : Option ℕ := (m.read s n).findIdx? (· = nul)

/-- `trace_buffer + trace_idx` -/
def out (traceBuffer : ℕ) (s : Trace) : ℕ := (traceBuffer + s.traceIdx).toNat

/-- `trace_idx += strlen(out) + 1; BUG_ON(trace_idx > sizeof(trace_buffer)); return out;` -/
def claim (traceBuffer : ℕ) (s : Trace) : Option (Trace × Returned) := do
  let out := out traceBuffer s
  let length ← strlen s.mem out (traceBuffer + traceBufferSize - out)
  let traceIdx := s.traceIdx + (length + 1)
  if toSize traceIdx > traceBufferSize.toUInt64 then none
  else some ({ s with traceIdx := traceIdx }, .string out (s.mem.read out length))

/-- `tr_csp_id` -/
def trCspId (traceBuffer : ℕ) (s : Trace) (v : UInt16) : Option (Trace × Returned) :=
  if toSize (s.traceIdx + strMaxLenCspId) > traceBufferSize.toUInt64 then some (s, .overflow)
  else claim traceBuffer { s with mem := strCspId s.mem v (out traceBuffer s) }

/-- `tr_csp_full` -/
def trCspFull (traceBuffer : ℕ) (s : Trace) (contents : List UInt8)
    (fits : contents.length < 2 ^ 64) : Option (Trace × Returned) :=
  let inLen : ℤ := contents.length
  if toSize (s.traceIdx + inLen * 3) > traceBufferSize.toUInt64 then some (s, .overflow)
  else do
    let m ← strCspFull s.mem (.bytes contents fits) (out traceBuffer s) (inLen * 3)
    claim traceBuffer { s with mem := m }

/-- `__tr_enter` -/
def trEnter (s : Trace) : Trace := { s with traceNestedCounter := s.traceNestedCounter + 1 }

/-- `__tr_exit` -/
def trExit (s : Trace) : Trace :=
  let s := { s with traceNestedCounter := s.traceNestedCounter - 1 }
  if s.traceNestedCounter = 0 then { s with traceIdx := 0 } else s

/-! ## The calls of one thread -/

inductive Call
  | enter
  | exit
  | cspId (v : UInt16)
  | cspFull (contents : List UInt8) (fits : contents.length < 2 ^ 64)

/-- A call: the variables it leaves, and what it returns; `none` is a `BUG`. -/
def call (traceBuffer : ℕ) (s : Trace) : Call → Option (Trace × List Returned)
  | .enter => some (trEnter s, [])
  | .exit => some (trExit s, [])
  | .cspId v => (trCspId traceBuffer s v).map fun r => (r.1, [r.2])
  | .cspFull contents fits => (trCspFull traceBuffer s contents fits).map fun r => (r.1, [r.2])

/-- The strings a thread has got, the latest last. -/
abbrev Strings : Type := List (ℕ × List Char)

/-- **What the calls of a thread have done**, whatever its variables say: the enters that wait for
their exit, and the strings returned since the last exit of an outermost one. -/
structure History where
  depth : ℕ
  strings : Strings

/-- What a call adds. -/
def History.record (h : History) : Call → List Returned → History
  | .enter, _ => { h with depth := h.depth + 1 }
  | .exit, _ => ⟨h.depth - 1, if h.depth = 1 then [] else h.strings⟩
  | _, [.string out text] => { h with strings := h.strings ++ [(out, text)] }
  | _, _ => h

/-- An exit belongs to an enter, and an input has 1 to 65535 bytes. -/
def Proper (h : History) : Call → Prop
  | .exit => 0 < h.depth
  | .cspFull contents _ => 1 ≤ contents.length ∧ contents.length ≤ 65535
  | _ => True

instance (h : History) (c : Call) : Decidable (Proper h c) := by
  cases c <;> unfold Proper <;> infer_instance

/-- The bytes that strings take, each with its terminator. -/
def space (strings : Strings) : ℕ := (strings.map fun r => r.2.length + 1).sum

/-- The variables of a thread at its start, and its calls. -/
def tracing (traceBuffer : ℕ) : System Trace Call Returned where
  start s := s.traceIdx = 0 ∧ s.traceNestedCounter = 0
  step := call traceBuffer

/-- The calls of a thread, with their history. -/
def arena (traceBuffer : ℕ) : System (Trace × History) Call Returned :=
  (tracing traceBuffer).observe ⟨0, []⟩ fun h _ c os => h.record c os

variable {traceBuffer : ℕ} {s : Trace} {h : History}

/-! ## Sizes -/

theorem toNat_toSize {i : ℤ} (h0 : 0 ≤ i) (h : i < 2 ^ 64) : (toSize i).toNat = i.toNat := by
  rw [toSize, UInt64.ofInt, UInt64.toNat_ofNat', Int.emod_eq_of_lt h0 h]
  exact Nat.mod_eq_of_lt (by omega)

theorem toSize_gt_iff {i : ℤ} (h0 : 0 ≤ i) (h : i < 2 ^ 64) :
    toSize i > traceBufferSize.toUInt64 ↔ 256 < i := by
  have h256 : traceBufferSize.toUInt64.toNat = 256 := rfl
  rw [gt_iff_lt, UInt64.lt_iff_toNat_lt, toNat_toSize h0 h, h256]
  omega

theorem out_eq {k : ℕ} (hk : s.traceIdx = k) : out traceBuffer s = traceBuffer + k := by
  rw [out, hk, ← Nat.cast_add, Int.toNat_natCast]

/-- The length of the string that stands at `a`. -/
theorem strlen_of_holds {m : CharMem} {a n : ℕ} {text : List Char} (h : Holds nul m a text)
    (hlt : text.length < n) : strlen m a n = some text.length := by
  rw [strlen, List.findIdx?_eq_some_iff_getElem]
  refine ⟨by rwa [Memory.length_read], ?_, ?_⟩
  · rw [Memory.getElem_read, h.terminator, decide_eq_true rfl]
  · intro j hj hnul
    rw [Memory.getElem_read, decide_eq_true_eq] at hnul
    have hmem : m (a + j) ∈ m.read a text.length :=
      List.mem_map.mpr ⟨j, List.mem_range.mpr hj, rfl⟩
    rw [h.contents, hnul] at hmem
    exact h.clean hmem

/-! ## A call that prints -/

theorem space_concat (strings : Strings) (r : ℕ × List Char) :
    space (strings ++ [r]) = space strings + (r.2.length + 1) := by
  rw [space, List.map_append, List.sum_append]
  rfl

/-- **Invariant.** The counter counts the open enters; the strings stand in the buffer one behind the
other, and the index behind the last one. -/
structure ArenaInv (traceBuffer : ℕ) (p : Trace × History) : Prop where
  depth : p.1.traceNestedCounter = p.2.depth
  idx : p.1.traceIdx = space p.2.strings
  le : space p.2.strings ≤ traceBufferSize
  holds : ∀ r ∈ p.2.strings, Holds nul p.1.mem r.1 r.2
  inside : ∀ r ∈ p.2.strings, traceBuffer ≤ r.1 ∧
    r.1 + r.2.length < traceBuffer + space p.2.strings
  disjoint : p.2.strings.Pairwise fun earlier later => earlier.1 + earlier.2.length < later.1

/-- **A string printed at `trace_idx` is kept**: the index moves behind it. -/
theorem claim_of_holds {k : ℕ} {text : List Char} (hk : s.traceIdx = k)
    (hfits : k + text.length + 1 ≤ traceBufferSize)
    (h : Holds nul s.mem (traceBuffer + k) text) :
    claim traceBuffer s = some ({ s with traceIdx := (k + text.length + 1 : ℕ) },
      .string (traceBuffer + k) text) := by
  rw [traceBufferSize] at hfits
  rw [claim, out_eq hk, strlen_of_holds h (by rw [traceBufferSize]; omega)]
  simp only [Option.bind_eq_bind, Option.bind_some]
  rw [hk, if_neg (by rw [toSize_gt_iff (by omega) (by omega)]; omega), h.contents]
  congr 3

/-- What one call may do: it keeps the invariant, and writes in the buffer only. -/
structure Kept (traceBuffer : ℕ) (s s' : Trace) (h' : History) : Prop where
  inv : ArenaInv traceBuffer (s', h')
  frame : ∀ i, i < traceBuffer ∨ traceBuffer + traceBufferSize ≤ i → s'.mem i = s.mem i

/-- **A string printed into `n` bytes of the buffer**, from `trace_idx` on. -/
theorem kept_of_bounded {k n : ℕ} {m : CharMem} {text : List Char}
    (hinv : ArenaInv traceBuffer (s, h)) (hk : space h.strings = k) (hn : k + n ≤ traceBufferSize)
    (hb : Bounded s.mem m (traceBuffer + k) n text) :
    ∃ s', claim traceBuffer { s with mem := m } = some (s', .string (traceBuffer + k) text) ∧
      Kept traceBuffer s s' { h with strings := h.strings ++ [(traceBuffer + k, text)] } := by
  obtain ⟨hframe, hstring, hinside⟩ := hb
  have hidx : s.traceIdx = k := hk ▸ hinv.idx
  have hspace : space (h.strings ++ [(traceBuffer + k, text)]) = k + text.length + 1 := by
    rw [space_concat, hk, Nat.add_assoc]
  rw [traceBufferSize] at hn
  refine ⟨_, claim_of_holds hidx (by rw [traceBufferSize]; omega) hstring,
    ⟨hinv.depth, ?_, ?_, ?_, ?_, ?_⟩, ?_⟩
  · dsimp only
    rw [hspace]
  · dsimp only
    rw [hspace, traceBufferSize]
    omega
  · intro r hr
    rcases List.mem_append.mp hr with hlive | hnew
    · -- the call writes behind the strings that are there
      have hlt := (hinv.inside r hlive).2
      refine (hinv.holds r hlive).congr fun i _ hi => hframe i (Or.inl ?_)
      dsimp only at hlt
      omega
    · rw [List.mem_singleton.mp hnew]
      exact hstring
  · intro r hr
    dsimp only
    rw [hspace]
    rcases List.mem_append.mp hr with hlive | hnew
    · obtain ⟨hge, hlt⟩ := hinv.inside r hlive
      dsimp only at hlt
      exact ⟨hge, by omega⟩
    · rw [List.mem_singleton.mp hnew]
      exact ⟨Nat.le_add_right _ _, by dsimp only; omega⟩
  · rw [List.pairwise_append]
    refine ⟨hinv.disjoint, List.pairwise_singleton _ _, fun r hr r' hr' => ?_⟩
    have hlt := (hinv.inside r hr).2
    rw [List.mem_singleton.mp hr']
    dsimp only at hlt ⊢
    omega
  · intro i hi
    rw [traceBufferSize] at hi
    exact hframe i (by omega)

/-! ## The calls keep the invariant -/

theorem hexU_clean : ∀ i < 16, hexU.getD i nul ≠ nul := by decide

theorem nul_notMem_hex4 (v : UInt16) : nul ∉ hex4 v := by
  have hdigit : ∀ i, nul ≠ hexU.getD (i % 16) nul :=
    fun i => (hexU_clean _ (Nat.mod_lt _ (by decide))).symm
  simp only [hex4, List.mem_cons, List.not_mem_nil, or_false, not_or]
  exact ⟨hdigit _, hdigit _, hdigit _, hdigit _⟩

theorem bounded_strCspId (m : CharMem) (v : UInt16) (a : ℕ) :
    Bounded m (strCspId m v a) a 19 ("Command ID: 0x".toList ++ hex4 v) := by
  have hclean : nul ∉ "Command ID: 0x".toList ++ hex4 v := by
    rw [List.mem_append, not_or]
    exact ⟨by decide, nul_notMem_hex4 v⟩
  have hlen : ("Command ID: 0x".toList ++ hex4 v).length = 18 := rfl
  refine ⟨fun i hi => ?_, holds_write m a hclean, by rw [hlen]; decide⟩
  rcases hi with hlt | hge
  · exact Memory.write_of_lt m _ hlt
  · exact Memory.write_of_ge m _ (by rw [List.length_append, hlen]; exact hge)

theorem kept_cspId (hinv : ArenaInv traceBuffer (s, h)) (v : UInt16) :
    ∃ s' r, trCspId traceBuffer s v = some (s', r) ∧
      Kept traceBuffer s s' (h.record (.cspId v) [r]) := by
  obtain ⟨k, hk⟩ : ∃ k, space h.strings = k := ⟨_, rfl⟩
  have hidx : s.traceIdx = k := hk ▸ hinv.idx
  have hle : k ≤ 256 := hk ▸ hinv.le
  have hcheck : toSize (s.traceIdx + strMaxLenCspId) > traceBufferSize.toUInt64 ↔ 256 < k + 19 := by
    rw [strMaxLenCspId, toSize_gt_iff (by omega) (by omega)]
    omega
  rw [trCspId]
  by_cases hover : 256 < k + 19
  · rw [if_pos (hcheck.mpr hover)]
    exact ⟨s, .overflow, rfl, hinv, fun _ _ => rfl⟩
  · rw [if_neg (fun hgt => hover (hcheck.mp hgt))]
    rw [out_eq hidx]
    obtain ⟨s', hs', hkept⟩ := kept_of_bounded hinv hk (by rw [traceBufferSize]; omega)
      (bounded_strCspId s.mem v (traceBuffer + k))
    exact ⟨s', _, hs', hkept⟩

theorem kept_cspFull (hinv : ArenaInv traceBuffer (s, h)) {contents : List UInt8}
    (fits : contents.length < 2 ^ 64) (hpos : 1 ≤ contents.length)
    (hlen : contents.length ≤ 65535) :
    ∃ s' r, trCspFull traceBuffer s contents fits = some (s', r) ∧
      Kept traceBuffer s s' (h.record (.cspFull contents fits) [r]) := by
  obtain ⟨k, hk⟩ : ∃ k, space h.strings = k := ⟨_, rfl⟩
  have hidx : s.traceIdx = k := hk ▸ hinv.idx
  have hle : k ≤ 256 := hk ▸ hinv.le
  have hcheck : toSize (s.traceIdx + contents.length * 3) > traceBufferSize.toUInt64 ↔
      256 < k + contents.length * 3 := by
    rw [toSize_gt_iff (by omega) (by omega)]
    omega
  rw [trCspFull]
  by_cases hover : 256 < k + contents.length * 3
  · rw [if_pos (hcheck.mpr hover)]
    exact ⟨s, .overflow, rfl, hinv, fun _ _ => rfl⟩
  · rw [if_neg (fun hgt => hover (hcheck.mp hgt)), out_eq hidx]
    have hsize : (toSize (contents.length * 3 : ℤ)).toNat = contents.length * 3 := by
      rw [toNat_toSize (by omega) (by omega)]
      omega
    obtain ⟨m, inDone, text, hrun, hbounded, -⟩ := @strBytes_spec delimColon contents s.mem fits
      (traceBuffer + k) (toSize (contents.length * 3 : ℤ)) (by omega) (by decide)
    rw [hsize] at hbounded
    obtain ⟨s', hs', hkept⟩ := kept_of_bounded hinv hk (by rw [traceBufferSize]; omega) hbounded
    refine ⟨s', .string (traceBuffer + k) text, ?_, hkept⟩
    rw [strCspFull, hrun]
    exact hs'

/-- **The exit that belongs to an outermost enter starts the buffer over**; another one leaves it as
it is. -/
theorem trExit_eq (hinv : ArenaInv traceBuffer (s, h)) :
    trExit s = { s with
      traceNestedCounter := h.depth - 1
      traceIdx := if h.depth = 1 then 0 else s.traceIdx } := by
  have hdepth : s.traceNestedCounter = h.depth := hinv.depth
  rw [trExit, hdepth]
  by_cases hone : h.depth = 1
  · rw [if_pos hone, if_pos (by rw [hone]; rfl)]
  · rw [if_neg hone, if_neg (by dsimp only; omega)]

theorem kept_exit (hinv : ArenaInv traceBuffer (s, h)) (hpos : 0 < h.depth) :
    Kept traceBuffer s (trExit s) (h.record .exit []) := by
  have hcounter : ((h.depth - 1 : ℕ) : ℤ) = h.depth - 1 := by omega
  rw [trExit_eq hinv, History.record]
  by_cases hone : h.depth = 1
  · rw [if_pos hone, if_pos hone]
    refine ⟨⟨hcounter.symm, rfl, Nat.zero_le _, ?_, ?_, List.Pairwise.nil⟩, fun _ _ => rfl⟩
    · intro r hr; exact absurd hr List.not_mem_nil
    · intro r hr; exact absurd hr List.not_mem_nil
  · rw [if_neg hone, if_neg hone]
    exact ⟨⟨hcounter.symm, hinv.idx, hinv.le, hinv.holds, hinv.inside, hinv.disjoint⟩,
      fun _ _ => rfl⟩

/-- **Every call of a thread returns, keeps the invariant, and writes in the buffer only.** -/
theorem kept_of_call (hinv : ArenaInv traceBuffer (s, h)) {c : Call} (hc : Proper h c) :
    ∃ s' os, call traceBuffer s c = some (s', os) ∧ Kept traceBuffer s s' (h.record c os) := by
  cases c with
  | enter =>
    have hcounter : s.traceNestedCounter + 1 = ((h.depth + 1 : ℕ) : ℤ) := by
      rw [show s.traceNestedCounter = h.depth from hinv.depth]
      rfl
    exact ⟨_, _, rfl, ⟨hcounter, hinv.idx, hinv.le, hinv.holds, hinv.inside, hinv.disjoint⟩,
      fun _ _ => rfl⟩
  | exit => exact ⟨_, _, rfl, kept_exit hinv hc⟩
  | cspId v =>
    obtain ⟨s', r, hrun, hkept⟩ := kept_cspId hinv v
    exact ⟨s', [r], by rw [call, hrun]; rfl, hkept⟩
  | cspFull contents fits =>
    obtain ⟨s', r, hrun, hkept⟩ := kept_cspFull hinv fits hc.1 hc.2
    exact ⟨s', [r], by rw [call, hrun]; rfl, hkept⟩

/-- The invariant holds in every run. -/
theorem arenaInv_of_reach {p : Trace × History}
    (h : (arena traceBuffer).Reach (fun p c => Proper p.2 c) p) : ArenaInv traceBuffer p := by
  refine System.Reach.invariant ?_ ?_ h
  · rintro ⟨s, h⟩ ⟨⟨hidx, hcounter⟩, hstart⟩
    dsimp only at hidx hcounter hstart
    subst hstart
    refine ⟨hcounter, hidx, Nat.zero_le _, ?_, ?_, List.Pairwise.nil⟩
    · intro r hr; exact absurd hr List.not_mem_nil
    · intro r hr; exact absurd hr List.not_mem_nil
  · rintro ⟨s, h⟩ c ⟨s', h'⟩ os - hinv hc hstep
    obtain ⟨hcall, hrecord⟩ := System.observe_step hstep
    obtain ⟨s1, os1, hcall1, hkept⟩ := kept_of_call hinv hc
    obtain ⟨rfl, rfl⟩ := Prod.mk.inj (Option.some.inj (hcall1.symm.trans hcall))
    dsimp only at hrecord
    rw [hrecord]
    exact hkept.inv

/-- What is known of the buffer after the calls of a thread. -/
structure Arena (traceBuffer : ℕ) (s : Trace) (h : History) : Prop where
  /-- The index stays in the buffer; it counts the bytes the strings take. -/
  idx : s.traceIdx = space h.strings ∧ space h.strings ≤ traceBufferSize
  /-- The strings stand in the buffer, terminated, as they were returned. -/
  strings : ∀ r ∈ h.strings, Holds nul s.mem r.1 r.2 ∧ traceBuffer ≤ r.1 ∧
    r.1 + r.2.length < traceBuffer + traceBufferSize
  /-- No two of them overlap. -/
  disjoint : h.strings.Pairwise fun earlier later => earlier.1 + earlier.2.length < later.1
  /-- A further call returns, and writes in the buffer only. -/
  call : ∀ c, Proper h c → ∃ s' os, call traceBuffer s c = some (s', os) ∧
    ∀ i, i < traceBuffer ∨ traceBuffer + traceBufferSize ≤ i → s'.mem i = s.mem i
  /-- The exit of an outermost enter starts the buffer over. -/
  reset : h.depth = 1 → (trExit s).traceIdx = 0
  /-- The exit of an inner one does not. -/
  nested : 1 < h.depth → (trExit s).traceIdx = s.traceIdx

/-- **The trace buffer of a thread.** In every run the index stays in the buffer, and the strings
returned since the last outermost exit stand there, terminated and side by side. Every further call
returns, and writes in the buffer only; the next outermost exit starts the buffer over. -/
theorem arena_of_reach {p : Trace × History}
    (h : (arena traceBuffer).Reach (fun p c => Proper p.2 c) p) : Arena traceBuffer p.1 p.2 := by
  have hinv := arenaInv_of_reach h
  refine ⟨⟨hinv.idx, hinv.le⟩, fun r hr => ⟨hinv.holds r hr, (hinv.inside r hr).1, ?_⟩,
    hinv.disjoint, ?_, fun hone => ?_, fun hlt => ?_⟩
  · have hlt := (hinv.inside r hr).2
    have hle := hinv.le
    omega
  · intro c hc
    obtain ⟨s', os, hcall, hkept⟩ := kept_of_call hinv hc
    exact ⟨s', os, hcall, hkept.frame⟩
  · rw [trExit_eq hinv]
    exact if_pos hone
  · rw [trExit_eq hinv]
    exact if_neg (Nat.ne_of_gt hlt)

/-- A thread traces an identifier; later it traces another one and, while it does, calls a function
that traces two bytes; then it traces one byte more. -/
def nestedTraces : List Call :=
  [.enter, .cspId 6, .exit, .enter, .cspId 5, .enter, .cspFull [0x0A, 0xB1] (by decide), .exit,
    .cspFull [0x07] (by decide)]

/-- The strings of the outer trace stand side by side, those of the inner one among them. -/
theorem arena_nested : ∃ p : Trace × History, p.2.depth = 1 ∧
    p.2.strings = [(100, "Command ID: 0x0005".toList), (119, "0a:b1".toList), (125, [])] ∧
    Arena 100 p.1 p.2 := by
  have hstart : (arena 100).Reach (fun p c => Proper p.2 c) (⟨fun _ => nul, 0, 0⟩, ⟨0, []⟩) :=
    .start ⟨⟨rfl, rfl⟩, rfl⟩
  obtain ⟨p, hreach, hhistory⟩ := System.exists_reach_of_exec nestedTraces
    (fun p : Trace × History => (p.2.depth, p.2.strings)) hstart
    (b := (1, [(100, "Command ID: 0x0005".toList), (119, "0a:b1".toList), (125, [])]))
    (by decide +kernel)
  obtain ⟨hdepth, hstrings⟩ := Prod.mk.inj hhistory
  exact ⟨p, hdepth, hstrings, arena_of_reach hreach⟩

end ConnectNcpHost.Log.TraceBuffer
