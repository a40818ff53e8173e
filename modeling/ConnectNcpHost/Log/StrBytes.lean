import ConnectNcpHost.Lib.Terminated
import Mathlib.Tactic.SplitIfs
import Mathlib.Tactic.ByContra
import Mathlib.Tactic.Ring

/-! # Hex dumps (`log.c`)

`str_bytes` prints a byte string in hexadecimal into a buffer of `out_len` bytes, with a delimiter
between the bytes and an ellipsis where the dump does not fit.

* `dumpLoop_spec`: the loop prints a prefix, up to the end of the input or of the room.
* `dumps_iff`: the dump is exact and bounded, except for one byte in a buffer of three, which is left
  out, and except where the size that is needed wraps. -/

namespace ConnectNcpHost.Log.StrBytes

open ConnectNcpHost.Lib.Bytes ConnectNcpHost.Lib.Terminated

/-! ## Characters and options -/

/-- The memory that is printed to. -/
abbrev CharMem : Type := Memory Char

/-- The terminator of a string. -/
def nul : Char := Char.ofNat 0

/-! `enum str_bytes_options`: one bit each -/

def delimSpace : UInt32 := 0x01
def delimColon : UInt32 := 0x02
def ellipsisAbrt : UInt32 := 0x04
def ellipsisStar : UInt32 := 0x08
def ellipsisDots : UInt32 := 0x10
def upperHex : UInt32 := 0x20

def hexL : List Char := "0123456789abcdef".toList
def hexU : List Char := "0123456789ABCDEF".toList

/-- `hex` -/
def hexDigits (opt : UInt32) : List Char := if opt &&& upperHex ≠ 0 then hexU else hexL

/-- `delim` -/
def delimiter (opt : UInt32) : Char :=
  if opt &&& delimColon ≠ 0 then ':'
  else if opt &&& delimSpace ≠ 0 then Char.ofNat 32
  else nul

/-- `ellipsis`, where the dump does not fit -/
def ellipsis (opt : UInt32) : List Char :=
  if opt &&& ellipsisDots ≠ 0 then "...".toList
  else if opt &&& ellipsisStar ≠ 0 then "*".toList
  else []

/-! ## `str_bytes` -/

/-- `in_start` and `in_len`: a null pointer, or the bytes that stand there. -/
inductive Input
  | null (length : UInt64)
  | bytes (contents : List UInt8) (fits : contents.length < 2 ^ 64)

/-- `in_len` -/
def Input.length : Input → UInt64
  | null length => length
  | bytes contents _ => contents.length.toUInt64

/-- `fit` -/
def fit (opt : UInt32) (inLen outLen : UInt64) : Bool :=
  if delimiter opt ≠ nul then !(outLen < inLen * 3) else !(outLen < inLen * 2 + 1)

/-- `strncpy(out, s, n)` -/
def strncpy (m : CharMem) (out : ℕ) (s : List Char) (n : ℕ) : CharMem :=
  m.write out (s.take n ++ List.replicate (n - s.length) nul)

/-- `strcpy(out, s)` -/
def strcpy (m : CharMem) (out : ℕ) (s : List Char) : CharMem := m.write out (s ++ [nul])

/-- The two digits of a byte. -/
def hexByte (hex : List Char) (a : UInt8) : List Char :=
  [hex.getD (a >>> 4).toNat nul, hex.getD (a &&& 0xF).toNat nul]

/-- The loop of `str_bytes` over the bytes from `in` to `in_end`, where `inDone` bytes stand before
`in`: the memory, `out` and `in` when it is left. -/
def dumpLoop (hex : List Char) (delim : Char) (outEnd : ℕ) :
    List UInt8 → CharMem → ℕ → ℕ → CharMem × ℕ × ℕ
  | [], m, out, inDone => (m, out, inDone)
  | a :: input, m, out, inDone =>
    let m := m.write out (hexByte hex a)
    let out := out + 2
    let inDone := inDone + 1
    if input = [] then (m, out, inDone)
    else if delim ≠ nul ∧ (outEnd : ℤ) - out < 3 then (m, out, inDone)
    else if delim = nul ∧ (outEnd : ℤ) - out < 2 then (m, out, inDone)
    else if delim ≠ nul then dumpLoop hex delim outEnd input (m.write out [delim]) (out + 1) inDone
    else dumpLoop hex delim outEnd input m out inDone

/-- The three exits of `str_bytes`, before the last byte is set. -/
def printBytes (m : CharMem) (input : Input) (out outLen : ℕ) (opt : UInt32)
    (ellipsis : List Char) : CharMem × ℕ :=
  match input with
  | .null _ => (strncpy m out "<null>".toList (outLen - 1), 0)
  | .bytes contents _ =>
    if contents = [] then (m.write out [nul], 0)
    else if outLen ≤ ellipsis.length + 3 then (strncpy m out ellipsis (outLen - 1), 0)
    else
      let outEnd := out + outLen - ellipsis.length - 1
      let (m, out, inDone) := dumpLoop (hexDigits opt) (delimiter opt) outEnd contents m out 0
      (strcpy m out ellipsis, inDone)

/-- `str_bytes`: the memory, and `in_done` as an index of the input; `none` is a `BUG` -/
def strBytes (m : CharMem) (input : Input) (out : ℕ) (outLen : UInt64) (opt : UInt32) :
    Option (CharMem × ℕ) :=
  let fit := fit opt input.length outLen
  if outLen = 0 then none
  else if !fit ∧ opt &&& ellipsisAbrt ≠ 0 then none
  else
    let (m, inDone) := printBytes m input out outLen.toNat opt (if fit then [] else ellipsis opt)
    some (m.write (out + outLen.toNat - 1) [nul], inDone)

/-! ## The text of a dump -/

/-- What stands between two bytes. -/
def separator (opt : UInt32) : List Char := if delimiter opt ≠ nul then [delimiter opt] else []

/-- **The dump**: the digits of the bytes, with the delimiter between them. -/
def hexText (opt : UInt32) (contents : List UInt8) : List Char :=
  (separator opt).intercalate (contents.map (hexByte (hexDigits opt)))

@[simp] theorem length_hexByte (hex : List Char) (a : UInt8) : (hexByte hex a).length = 2 := rfl

theorem hexText_singleton (opt : UInt32) (a : UInt8) :
    hexText opt [a] = hexByte (hexDigits opt) a := List.intercalate_singleton

theorem hexText_cons (opt : UInt32) (a : UInt8) {contents : List UInt8} (h : contents ≠ []) :
    hexText opt (a :: contents) =
      hexByte (hexDigits opt) a ++ separator opt ++ hexText opt contents :=
  List.intercalate_cons_of_ne_nil (by simpa using h)

/-- The characters of a dump, and the separator that is missing behind it. -/
theorem length_hexText (opt : UInt32) {contents : List UInt8} (h : contents ≠ []) :
    (hexText opt contents).length + (separator opt).length =
      (2 + (separator opt).length) * contents.length := by
  induction contents with
  | nil => exact absurd rfl h
  | cons a contents ih =>
    by_cases hnil : contents = []
    · subst hnil
      rw [hexText_singleton, length_hexByte, List.length_singleton, Nat.mul_one]
    · have hrest := ih hnil
      rw [hexText_cons opt a hnil, List.length_append, List.length_append, length_hexByte,
        List.length_cons, Nat.mul_succ]
      omega

theorem hexDigits_clean (opt : UInt32) (i : ℕ) (h : i < 16) : (hexDigits opt).getD i nul ≠ nul := by
  unfold hexDigits
  split_ifs
  · revert i; decide
  · revert i; decide

theorem nul_notMem_hexByte (opt : UInt32) (a : UInt8) : nul ∉ hexByte (hexDigits opt) a := by
  have hhigh : (a >>> 4).toNat < 16 := by
    have ha := a.toNat_lt
    rw [UInt8.toNat_shiftRight, Nat.shiftRight_eq_div_pow]
    show a.toNat / 2 ^ 4 < 16
    omega
  have hlow : (a &&& 0xF).toNat < 16 := by
    have h15 : UInt8.toNat 0xF = 2 ^ 4 - 1 := rfl
    rw [UInt8.toNat_and, h15, Nat.and_two_pow_sub_one_eq_mod]
    exact Nat.mod_lt _ (by decide)
  simp only [hexByte, List.mem_cons, List.not_mem_nil, or_false, not_or]
  exact ⟨(hexDigits_clean opt _ hhigh).symm, (hexDigits_clean opt _ hlow).symm⟩

theorem nul_notMem_separator (opt : UInt32) : nul ∉ separator opt := by
  unfold separator
  split_ifs with h
  · simpa using Ne.symm h
  · exact List.not_mem_nil

theorem nul_notMem_ellipsis (opt : UInt32) : nul ∉ ellipsis opt := by
  unfold ellipsis
  split_ifs <;> decide

theorem nul_notMem_hexText (opt : UInt32) (contents : List UInt8) : nul ∉ hexText opt contents := by
  induction contents with
  | nil => exact List.not_mem_nil
  | cons a contents ih =>
    by_cases hnil : contents = []
    · subst hnil
      rw [hexText_singleton]
      exact nul_notMem_hexByte opt a
    · rw [hexText_cons opt a hnil, List.mem_append, List.mem_append, not_or, not_or]
      exact ⟨⟨nul_notMem_hexByte opt a, nul_notMem_separator opt⟩, ih⟩

/-! ## The loop -/

/-- One turn of the loop: it ends with the input, or where the next byte has no room. -/
theorem dumpLoop_cons (opt : UInt32) (outEnd : ℕ) (a : UInt8) (input : List UInt8) (m : CharMem)
    (out inDone : ℕ) :
    dumpLoop (hexDigits opt) (delimiter opt) outEnd (a :: input) m out inDone =
      if input = [] ∨ outEnd < out + 4 + (separator opt).length then
        (m.write out (hexByte (hexDigits opt) a), out + 2, inDone + 1)
      else dumpLoop (hexDigits opt) (delimiter opt) outEnd input
        (m.write out (hexByte (hexDigits opt) a ++ separator opt))
        (out + 2 + (separator opt).length) (inDone + 1) := by
  rw [dumpLoop]
  by_cases hnil : input = []
  · rw [if_pos hnil, if_pos (Or.inl hnil)]
  rw [if_neg hnil]
  by_cases hdelim : delimiter opt = nul
  · have hsep : separator opt = [] := if_neg (not_not_intro hdelim)
    rw [if_neg (fun h => h.1 hdelim), if_neg (not_not_intro hdelim), hsep, List.append_nil,
      List.length_nil]
    by_cases hroom : outEnd < out + 4
    · rw [if_pos ⟨hdelim, by omega⟩, if_pos (Or.inr (by omega))]
    · rw [if_neg (fun h => hroom (by omega)), if_neg (not_or_intro hnil (by omega))]
  · have hsep : separator opt = [delimiter opt] := if_pos hdelim
    rw [hsep, List.length_singleton]
    by_cases hroom : outEnd < out + 5
    · rw [if_pos ⟨hdelim, by omega⟩, if_pos (Or.inr (by omega))]
    · rw [if_neg (fun h => hroom (by omega)), if_neg (fun h => hdelim h.1), if_pos hdelim,
        if_neg (not_or_intro hnil (by omega)), ← Memory.write_append]
      rfl

/-- What the loop prints: the first `k` bytes, within the room; with `k` the input ends, or the room
for another byte does. -/
structure Printed (opt : UInt32) (outEnd : ℕ) (input : List UInt8) (m : CharMem)
    (out inDone : ℕ) (r : CharMem × ℕ × ℕ) (k : ℕ) : Prop where
  result : r = (m.write out (hexText opt (input.take k)),
    out + (hexText opt (input.take k)).length, inDone + k)
  pos : 0 < k
  le : k ≤ input.length
  room : out + (hexText opt (input.take k)).length ≤ outEnd
  stop : k = input.length ∨ outEnd < out + (hexText opt (input.take k)).length + 2 +
    (separator opt).length

/-- **The loop**: the induction is over the bytes that are left. -/
theorem dumpLoop_spec (opt : UInt32) (outEnd : ℕ) : ∀ (input : List UInt8) (m : CharMem)
    (out inDone : ℕ), input ≠ [] → out + 2 ≤ outEnd →
    ∃ k, Printed opt outEnd input m out inDone
      (dumpLoop (hexDigits opt) (delimiter opt) outEnd input m out inDone) k
  | [], _, _, _, hne, _ => absurd rfl hne
  | a :: input, m, out, inDone, _, hroom => by
    rw [dumpLoop_cons]
    split_ifs with hstop
    · -- the loop is left behind this byte
      refine ⟨1, ?_, Nat.zero_lt_one, by rw [List.length_cons]; omega, ?_, ?_⟩ <;>
        rw [List.take_succ_cons, List.take_zero, hexText_singleton, length_hexByte]
      · exact hroom
      · rw [List.length_cons]
        rcases hstop with rfl | hlt
        · exact Or.inl rfl
        · exact Or.inr (by omega)
    · obtain ⟨hnil, hlt⟩ := not_or.mp hstop
      obtain ⟨k, hresult, hpos, hle, hroom', hstop'⟩ := dumpLoop_spec opt outEnd input
        (m.write out (hexByte (hexDigits opt) a ++ separator opt))
        (out + 2 + (separator opt).length) (inDone + 1) hnil (by omega)
      have htake : input.take k ≠ [] := by
        intro h
        rcases List.take_eq_nil_iff.mp h with h0 | h0
        · omega
        · exact hnil h0
      have hlen : (hexByte (hexDigits opt) a ++ separator opt).length =
          2 + (separator opt).length := by rw [List.length_append, length_hexByte]
      have htext : (hexText opt ((a :: input).take (k + 1))).length =
          2 + (separator opt).length + (hexText opt (input.take k)).length := by
        rw [List.take_succ_cons, hexText_cons opt a htake, List.length_append, hlen]
      refine ⟨k + 1, ?_, Nat.succ_pos k, Nat.succ_le_succ hle, by omega, ?_⟩
      · have hwrite := Memory.write_append m out (hexByte (hexDigits opt) a ++ separator opt)
          (hexText opt (input.take k))
        rw [hlen, ← Nat.add_assoc] at hwrite
        rw [hresult, htext, List.take_succ_cons, hexText_cons opt a htake, hwrite]
        refine Prod.ext rfl (Prod.ext ?_ ?_)
        · show out + 2 + _ + _ = out + (2 + _ + _)
          omega
        · show inDone + 1 + k = inDone + (k + 1)
          omega
      · rw [List.length_cons]
        rcases hstop' with heq | hlt'
        · exact Or.inl (congrArg (· + 1) heq)
        · exact Or.inr (by omega)

/-! ## The three exits -/

/-- What `str_bytes` prints of `contents`, with the ellipsis `e` it has chosen: the number of the
bytes, and the text. -/
inductive Exit (opt : UInt32) (e : List Char) (contents : List UInt8) (outLen : ℕ) :
    ℕ → List Char → Prop
  /-- there is nothing to display -/
  | empty (hnil : contents = []) : Exit opt e contents outLen 0 []
  /-- no byte can be written -/
  | noByte (hne : contents ≠ []) (hlen : outLen ≤ e.length + 3) :
    Exit opt e contents outLen 0 (e.take (outLen - 1))
  /-- the loop -/
  | digits (k : ℕ) (hlen : e.length + 3 < outLen) (hpos : 0 < k) (hle : k ≤ contents.length)
    (hroom : (hexText opt (contents.take k)).length + e.length < outLen)
    (hstop : k = contents.length ∨
      outLen < (hexText opt (contents.take k)).length + e.length + 3 + (separator opt).length) :
    Exit opt e contents outLen k (hexText opt (contents.take k) ++ e)

/-- Inside of the buffer `text` stands at its start, outside nothing has changed. -/
structure Bounded (m m' : CharMem) (out outLen : ℕ) (text : List Char) : Prop where
  frame : ∀ i, i < out ∨ out + outLen ≤ i → m' i = m i
  string : Holds nul m' out text
  inside : text.length < outLen

/-- A text that is printed with `k` terminators behind it, and the last byte set. -/
theorem bounded_of_padded {m : CharMem} {out outLen k : ℕ} {text : List Char}
    (hclean : nul ∉ text) (hlt : text.length < outLen) (hle : text.length + k ≤ outLen)
    (hpad : 0 < k ∨ text.length + 1 = outLen) :
    Bounded m ((m.write out (text ++ List.replicate k nul)).write (out + outLen - 1) [nul]) out
      outLen text :=
  ⟨fun _ hi => write_padded_of_outside m (by simpa using hle) (by omega) hi,
    holds_padded m out hclean hlt hpad, hlt⟩

/-- **Each exit prints its text inside the buffer.** -/
theorem printBytes_spec (m : CharMem) {contents : List UInt8} (fits : contents.length < 2 ^ 64)
    (out : ℕ) {outLen : ℕ} (opt : UInt32) {e : List Char} (hout : 0 < outLen) (he : nul ∉ e) :
    ∃ m' inDone text, printBytes m (.bytes contents fits) out outLen opt e = (m', inDone) ∧
      Bounded m (m'.write (out + outLen - 1) [nul]) out outLen text ∧
      Exit opt e contents outLen inDone text := by
  rw [printBytes]
  by_cases hnil : contents = []
  · rw [if_pos hnil]
    refine ⟨_, _, [], rfl, ?_, .empty hnil⟩
    exact bounded_of_padded (k := 1) List.not_mem_nil hout (by rw [List.length_nil]; omega)
      (Or.inl Nat.zero_lt_one)
  rw [if_neg hnil]
  by_cases hlen : outLen ≤ e.length + 3
  · rw [if_pos hlen]
    have htake : (e.take (outLen - 1)).length = min (outLen - 1) e.length := List.length_take
    exact ⟨_, _, _, rfl, bounded_of_padded (fun h => he (List.mem_of_mem_take h)) (by omega)
      (by omega) (by omega), .noByte hnil hlen⟩
  · rw [if_neg hlen]
    obtain ⟨k, hresult, hpos, hle, hroom, hstop⟩ := dumpLoop_spec opt (out + outLen - e.length - 1)
      contents m out 0 hnil (by omega)
    have hroom' : (hexText opt (contents.take k)).length + e.length < outLen := by omega
    dsimp only
    rw [hresult, Nat.zero_add]
    refine ⟨_, k, hexText opt (contents.take k) ++ e, rfl, ?_,
      .digits k (by omega) hpos hle hroom' (by omega)⟩
    rw [strcpy, Memory.write_append, ← List.append_assoc]
    refine bounded_of_padded (k := 1) ?_ ?_ ?_ (Or.inl Nat.zero_lt_one)
    · rw [List.mem_append, not_or]
      exact ⟨nul_notMem_hexText opt _, he⟩
    · rwa [List.length_append]
    · rw [List.length_append]; omega

/-! ## The dump -/

/-- The bytes a whole dump takes, with its terminator. -/
def sizeNeeded (opt : UInt32) (n : ℕ) : ℕ := if delimiter opt ≠ nul then 3 * n else 2 * n + 1

/-- **The dump of `contents`** in a buffer of `outLen` bytes: all of it where it fits, and `in_done` at
the end of the input; else a proper prefix, `in_done` behind it, and the ellipsis, which is cut to
the buffer when not even one byte fits beside it. -/
structure Dumped (opt : UInt32) (contents : List UInt8) (outLen inDone : ℕ) (text : List Char) :
    Prop where
  whole : sizeNeeded opt contents.length ≤ outLen →
    text = hexText opt contents ∧ inDone = contents.length
  part : outLen < sizeNeeded opt contents.length → inDone < contents.length ∧
    (text = hexText opt (contents.take inDone) ++ ellipsis opt ∨
      inDone = 0 ∧ outLen < (ellipsis opt).length + 3 ∧ text = (ellipsis opt).take (outLen - 1))

/-- **`str_bytes` dumps `contents`**: it writes inside the buffer only, and leaves the dump there. -/
def Dumps (m : CharMem) (contents : List UInt8) (fits : contents.length < 2 ^ 64) (out : ℕ)
    (outLen : UInt64) (opt : UInt32) : Prop :=
  ∃ m' inDone text, strBytes m (.bytes contents fits) out outLen opt = some (m', inDone) ∧
    Bounded m m' out outLen.toNat text ∧ Dumped opt contents outLen.toNat inDone text

variable {opt : UInt32} {contents : List UInt8} {outLen inDone : ℕ} {text : List Char}

/-- Neither is it one byte in a buffer of three, nor does a size that wraps seem to fit and take away
an ellipsis. -/
def DumpsRight (opt : UInt32) (n outLen : ℕ) : Prop :=
  ¬ (n = 1 ∧ outLen = 3) ∧ (sizeNeeded opt n % 2 ^ 64 ≤ outLen →
    sizeNeeded opt n ≤ outLen ∨ ellipsis opt = [] ∨ outLen = 1)

instance (opt : UInt32) (n outLen : ℕ) : Decidable (DumpsRight opt n outLen) :=
  inferInstanceAs (Decidable (_ ∧ _))

theorem sizeNeeded_cases (opt : UInt32) (n : ℕ) :
    (separator opt).length = 1 ∧ sizeNeeded opt n = 3 * n ∨
      (separator opt).length = 0 ∧ sizeNeeded opt n = 2 * n + 1 := by
  unfold separator sizeNeeded
  by_cases h : delimiter opt ≠ nul
  · rw [if_pos h, if_pos h]; exact Or.inl ⟨rfl, rfl⟩
  · rw [if_neg h, if_neg h]; exact Or.inr ⟨rfl, rfl⟩

/-- The size a dump of some bytes takes. -/
theorem sizeNeeded_eq (opt : UInt32) (h : contents ≠ []) :
    sizeNeeded opt contents.length = (hexText opt contents).length + 1 := by
  have hlen := length_hexText opt h
  rcases sizeNeeded_cases opt contents.length with ⟨hsep, hsize⟩ | ⟨hsep, hsize⟩ <;>
    rw [hsep] at hlen <;> omega

/-- **`fit` compares the size modulo `2 ^ 64`.** -/
theorem fit_iff (opt : UInt32) (fits : contents.length < 2 ^ 64) (outLen : UInt64) :
    fit opt (Input.bytes contents fits).length outLen = true ↔
      sizeNeeded opt contents.length % 2 ^ 64 ≤ outLen.toNat := by
  have hn : contents.length.toUInt64.toNat = contents.length := by
    rw [Nat.toUInt64_eq, UInt64.toNat_ofNat']
    exact Nat.mod_eq_of_lt fits
  have h1 : UInt64.toNat 1 = 1 := rfl
  have h2 : UInt64.toNat 2 = 2 := rfl
  have h3 : UInt64.toNat 3 = 3 := rfl
  rw [fit, Input.length, sizeNeeded]
  split_ifs
  · rw [Bool.not_eq_true', decide_eq_false_iff_not, UInt64.lt_iff_toNat_lt, UInt64.toNat_mul, hn,
      h3, Nat.mul_comm, Nat.not_lt]
  · rw [Bool.not_eq_true', decide_eq_false_iff_not, UInt64.lt_iff_toNat_lt, UInt64.toNat_add,
      UInt64.toNat_mul, hn, h1, h2, Nat.mod_add_mod, Nat.mul_comm, Nat.not_lt]

/-- **`str_bytes` leaves by one of the exits**, with the ellipsis unless it has judged that the dump
fits. -/
theorem strBytes_spec (m : CharMem) (fits : contents.length < 2 ^ 64) (out : ℕ) {outLen : UInt64}
    (hout : 0 < outLen.toNat) (habrt : opt &&& ellipsisAbrt = 0) :
    ∃ m' inDone text, strBytes m (.bytes contents fits) out outLen opt = some (m', inDone) ∧
      Bounded m m' out outLen.toNat text ∧
      Exit opt (if sizeNeeded opt contents.length % 2 ^ 64 ≤ outLen.toNat then [] else ellipsis opt)
        contents outLen.toNat inDone text := by
  have hne : outLen ≠ 0 := by
    rintro rfl
    exact Nat.lt_irrefl 0 hout
  have hclean : nul ∉
      (if sizeNeeded opt contents.length % 2 ^ 64 ≤ outLen.toNat then [] else ellipsis opt) := by
    split_ifs
    · exact List.not_mem_nil
    · exact nul_notMem_ellipsis opt
  obtain ⟨m', inDone, text, hprint, hbounded, hexit⟩ :=
    printBytes_spec m fits out opt hout hclean
  refine ⟨_, inDone, text, ?_, hbounded, hexit⟩
  rw [strBytes, if_neg hne, if_neg (fun h => h.2 habrt), if_congr (fit_iff opt fits outLen) rfl rfl,
    hprint]

/-- An exit without an ellipsis, of a dump that fits. -/
theorem dumped_of_fits (hexit : Exit opt [] contents outLen inDone text)
    (hfits : sizeNeeded opt contents.length ≤ outLen)
    (hbyte : ¬ (contents.length = 1 ∧ outLen = 3)) :
    Dumped opt contents outLen inDone text := by
  refine ⟨fun _ => ?_, fun hlt => absurd hfits (Nat.not_le_of_lt hlt)⟩
  cases hexit with
  | empty hnil => rw [hnil]; exact ⟨rfl, rfl⟩
  | noByte hne hlen =>
    have hpos := List.length_pos_of_ne_nil hne
    rw [List.length_nil] at hlen
    rcases sizeNeeded_cases opt contents.length with ⟨-, hsize⟩ | ⟨-, hsize⟩ <;>
      exact absurd ⟨by omega, by omega⟩ hbyte
  | digits _ hlen hpos hle hroom hstop =>
    have hk : inDone = contents.length := by
      rcases hstop with heq | hlt
      · exact heq
      · by_contra hne
        have htake : contents.take inDone ≠ [] := List.ne_nil_of_length_pos (by
          rw [List.length_take]; omega)
        have htext := length_hexText opt htake
        rw [List.length_nil] at hlt
        rw [List.length_take, Nat.min_eq_left hle] at htext
        rcases sizeNeeded_cases opt contents.length with ⟨hsep, hsize⟩ | ⟨hsep, hsize⟩ <;>
          rw [hsep] at htext hlt <;> omega
    rw [hk, List.take_length, List.append_nil]
    exact ⟨rfl, rfl⟩

/-- An exit of a dump that does not fit, where the ellipsis is the one that is asked for, or is cut to
nothing. -/
theorem dumped_of_not_fits {e : List Char} (hexit : Exit opt e contents outLen inDone text)
    (hlt : outLen < sizeNeeded opt contents.length) (hpos : 0 < outLen)
    (he : e = ellipsis opt ∨ e = [] ∧ outLen = 1) : Dumped opt contents outLen inDone text := by
  refine ⟨fun hfits => absurd hfits (Nat.not_le_of_lt hlt), fun _ => ?_⟩
  have hne : contents ≠ [] := by
    intro hnil
    rw [hnil] at hlt
    rcases sizeNeeded_cases opt ([] : List UInt8).length with ⟨-, hsize⟩ | ⟨-, hsize⟩ <;>
      rw [List.length_nil] at hsize hlt <;> omega
  have hlen := List.length_pos_of_ne_nil hne
  cases hexit with
  | empty hnil => exact absurd hnil hne
  | noByte hne hlen' =>
    refine ⟨hlen, ?_⟩
    rcases he with rfl | ⟨rfl, hone⟩
    · by_cases hcut : outLen < (ellipsis opt).length + 3
      · exact Or.inr ⟨rfl, hcut, rfl⟩
      · left
        rw [List.take_of_length_le (by omega)]
        rfl
    · right
      rw [hone]
      exact ⟨rfl, by omega, rfl⟩
  | digits _ hlen' hkpos hle hroom hstop =>
    have hk : inDone ≠ contents.length := by
      intro heq
      rw [heq, List.take_length] at hroom
      rw [sizeNeeded_eq opt hne] at hlt
      omega
    refine ⟨by omega, Or.inl ?_⟩
    rcases he with rfl | ⟨-, hone⟩
    · rfl
    · omega

/-- What an exit without an ellipsis says of a dump that does not fit. -/
theorem ellipsis_of_dumped (hexit : Exit opt [] contents outLen inDone text)
    (hdumped : Dumped opt contents outLen inDone text)
    (hlt : outLen < sizeNeeded opt contents.length) (hpos : 0 < outLen) :
    ellipsis opt = [] ∨ outLen = 1 := by
  obtain ⟨-, hpart⟩ := hdumped.part hlt
  cases hexit with
  | empty hnil =>
    rcases hpart with heq | ⟨-, -, heq⟩
    · exact Or.inl (List.append_eq_nil_iff.mp heq.symm).2
    · rcases List.take_eq_nil_iff.mp heq.symm with h0 | hnil
      · exact Or.inr (by omega)
      · exact Or.inl hnil
  | noByte hne hlen =>
    rw [List.take_nil] at hpart
    rcases hpart with heq | ⟨-, -, heq⟩
    · exact Or.inl (List.append_eq_nil_iff.mp heq.symm).2
    · rcases List.take_eq_nil_iff.mp heq.symm with h0 | hnil
      · exact Or.inr (by omega)
      · exact Or.inl hnil
  | digits _ hlen hkpos hle hroom hstop =>
    rcases hpart with heq | ⟨h0, -, -⟩
    · exact Or.inl (List.append_cancel_left heq).symm
    · omega

/-- **A dump is exact and bounded, except for one byte in a buffer of three, and for a size that
wraps and so seems to fit**, where the ellipsis is missing. -/
theorem dumps_iff (m : CharMem) (contents : List UInt8) (fits : contents.length < 2 ^ 64) (out : ℕ)
    (outLen : UInt64) (opt : UInt32) (hout : 0 < outLen.toNat) (habrt : opt &&& ellipsisAbrt = 0) :
    Dumps m contents fits out outLen opt ↔ DumpsRight opt contents.length outLen.toNat := by
  obtain ⟨m', inDone, text, hrun, hbounded, hexit⟩ := strBytes_spec m fits out hout habrt
  constructor
  · rintro ⟨m'', inDone', text', hrun', hbounded', hdumped⟩
    rw [hrun, Option.some.injEq, Prod.mk.injEq] at hrun'
    obtain ⟨rfl, rfl⟩ := hrun'
    obtain rfl := hbounded.string.unique hbounded'.string
    constructor
    · rintro ⟨hone, hthree⟩
      have hsize : sizeNeeded opt contents.length = 3 := by
        rcases sizeNeeded_cases opt contents.length with ⟨-, hsize⟩ | ⟨-, hsize⟩ <;> omega
      rw [hsize, hthree, if_pos (by decide)] at hexit
      obtain ⟨-, hdone⟩ := hdumped.whole (by omega)
      cases hexit with
      | empty hnil => omega
      | noByte hne hlen => omega
      | digits _ hlen hpos hle hroom hstop =>
        rw [List.length_nil] at hlen
        omega
    · intro hmod
      rw [if_pos hmod] at hexit
      rcases Nat.lt_or_ge outLen.toNat (sizeNeeded opt contents.length) with hlt | hge
      · exact Or.inr (ellipsis_of_dumped hexit hdumped hlt hout)
      · exact Or.inl hge
  · rintro ⟨hbyte, hwrap⟩
    refine ⟨m', inDone, text, hrun, hbounded, ?_⟩
    rcases Nat.lt_or_ge outLen.toNat (sizeNeeded opt contents.length) with hlt | hge
    · refine dumped_of_not_fits hexit hlt hout ?_
      split_ifs with hmod
      · rcases hwrap hmod with hle | hnil | hone
        · omega
        · exact Or.inl hnil.symm
        · exact Or.inr ⟨rfl, hone⟩
      · exact Or.inl rfl
    · rw [if_pos ((Nat.mod_le _ _).trans hge)] at hexit
      exact dumped_of_fits hexit hge hbyte

/-- Two bytes with colons, in a buffer of five: the first byte fits beside an asterisk. -/
theorem dumps_ellipsis :
    Dumps (fun _ => nul) [0x0A, 0xB1] (by decide) 100 5 (delimColon ||| ellipsisStar) :=
  (dumps_iff (fun _ => nul) [0x0A, 0xB1] (by decide) 100 5 (delimColon ||| ellipsisStar)
    (by decide) (by decide)).mpr (by decide)

/-- **One byte in a buffer of three**: the two digits and the terminator fit, and nothing is
printed. -/
theorem undumped_byte : ¬ ∀ (m : CharMem) (contents : List UInt8)
    (fits : contents.length < 2 ^ 64) (out : ℕ) (outLen : UInt64) (opt : UInt32),
    0 < outLen.toNat → opt &&& ellipsisAbrt = 0 → Dumps m contents fits out outLen opt := by
  intro h
  obtain ⟨m', inDone, text, hrun, -, hdumped⟩ :=
    h (fun _ => nul) [0xAB] (by decide) 0 3 delimColon (by decide) (by decide)
  obtain ⟨-, hdone⟩ := hdumped.whole (by decide)
  have h0 : (strBytes (fun _ => nul) (.bytes [0xAB] (by decide)) 0 3 delimColon).map Prod.snd =
      some 0 := by decide
  rw [hrun, Option.map_some, hdone] at h0
  exact Nat.one_ne_zero (Option.some.inj h0)

end ConnectNcpHost.Log.StrBytes
