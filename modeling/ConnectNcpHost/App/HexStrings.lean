import ConnectNcpHost.Lib.Numerals
import ConnectNcpHost.Log.StrBytes
import ConnectNcpHost.Stack.ByteUtilities
import Mathlib.Data.List.TakeWhile

/-! # Hexadecimal strings of the command line (`app_cli.cpp`, `app_common.c`)

The commands take numbers and byte strings in hexadecimal: `hexToInt` reads a number with `strtol`,
`splitStringIntoHexArray` a string of bytes, with or without braces around it. `printBuffer` prints
bytes. A `std::string` is the list of its characters, without the terminator behind them.

* `hexToInt_printHex`: a number that is printed is read back, up to `LONG_MAX`.
* `split_printed`: bytes that are printed are read back.
* `split_eq`: how many bytes are stored, and how many the caller is told. -/

namespace ConnectNcpHost.App.HexStrings

open ConnectNcpHost.Lib.Bytes ConnectNcpHost.Lib.Numerals ConnectNcpHost.Stack.ByteUtilities
open ConnectNcpHost.Log.StrBytes

/-! ## Printing -/

/-- The digits of `%X` -/
def hexDigit (d : ℕ) : Char := hexU.getD d nul

/-- `%0wX` -/
def printHex (w n : ℕ) : List Char := numeral hexDigit 16 w n

/-- The bytes, two digits each. -/
def printBytes (bytes : List UInt8) : List Char := bytes.flatMap fun b => printHex 2 b.toNat

/-- `printBuffer` -/
def printBuffer (buffer : Mem) (length : UInt8) : List Char :=
  printBytes (buffer.read 0 length.toNat)

/-! ## `strtol` in the base 16 -/

/-- `isspace` -/
def isspace (c : Char) : Bool := c.toNat = 32 || (9 ≤ c.toNat && c.toNat ≤ 13)

/-- The value of a digit. -/
def hexValue (c : Char) : Option ℕ :=
  if '0' ≤ c ∧ c ≤ '9' then some (c.toNat - '0'.toNat)
  else if 'A' ≤ c ∧ c ≤ 'F' then some (c.toNat - 'A'.toNat + 10)
  else if 'a' ≤ c ∧ c ≤ 'f' then some (c.toNat - 'a'.toNat + 10)
  else none

/-- `LONG_MAX`; a `long` has 64 bits -/
def longMax : ℤ := 2 ^ 63 - 1

/-- `LONG_MIN` -/
def longMin : ℤ := -2 ^ 63

/-- The sign, and what stands behind it. -/
def signed : List Char → Bool × List Char
  | '-' :: cs => (true, cs)
  | '+' :: cs => (false, cs)
  | cs => (false, cs)

/-- What stands behind a `0x`, where it is a digit. -/
def behind0x : List Char → List Char
  | '0' :: x :: c :: cs =>
    if (x = 'x' ∨ x = 'X') ∧ hexValue c ≠ none then c :: cs else '0' :: x :: c :: cs
  | cs => cs

/-- `strtol(nptr, &p, 16)`: the number, and the string `p` points to -/
def strtol (nptr : List Char) : ℤ × List Char :=
  let (negative, subject) := signed (nptr.dropWhile isspace)
  let subject := behind0x subject
  if NoDigit hexValue subject then (0, nptr)
  else
    let (n, p) := readNumeral hexValue 16 0 subject
    (if negative then max longMin (-(n : ℤ)) else min longMax n, p)

/-! ## The two functions -/

/-- `hex.erase(0, 2)`, where a `0x` stands in front -/
def erase0x : List Char → List Char
  | '0' :: 'x' :: cs => cs
  | '0' :: 'X' :: cs => cs
  | cs => cs

/-- `hexToInt`: the number, and whether the message for a bad argument is printed -/
def hexToInt (hex : List Char) : ℤ × Bool :=
  let (n, p) := strtol ((erase0x hex).takeWhile (· ≠ nul))
  if p ≠ [] then (0, true) else (n, false)

/-- The delimiters are removed; `none` where `pop_back` finds an empty string. -/
def removeDelimiters : List Char → Option (List Char)
  | '{' :: str => if str = [] then none else some str.dropLast
  | str => some str

/-- The loop of `splitStringIntoHexArray`: what `hexToInt` returns for each pair. Where the number
of digits is odd, the last pair takes in the terminator of the string. -/
def hexPairs : List Char → List (ℤ × Bool)
  | [] => []
  | [c] => [hexToInt [c, nul]]
  | c :: d :: str => hexToInt [c, d] :: hexPairs str

/-- What `splitStringIntoHexArray` does: the bytes it stores from the start of the array on, the
messages for bad arguments, and the number it returns. -/
structure Split where
  stored : List UInt8
  badArguments : ℕ
  returned : ℕ
  deriving DecidableEq

/-- `splitStringIntoHexArray` -/
def splitStringIntoHexArray (str : List Char) : Option Split :=
  (removeDelimiters str).map fun str =>
    { stored := (hexPairs str).map fun r => UInt8.ofInt r.1
      badArguments := (hexPairs str).countP Prod.snd
      returned := str.length / 2 }

/-! ## Numbers -/

theorem reads_hexDigit : Reads hexValue hexDigit 16 := by
  unfold Reads
  decide

/-- The digits are no spaces, signs or terminators. -/
theorem plain_hexDigit : ∀ d < 16, isspace (hexDigit d) = false ∧ hexDigit d ≠ '-' ∧
    hexDigit d ≠ '+' ∧ hexDigit d ≠ 'x' ∧ hexDigit d ≠ 'X' ∧ hexDigit d ≠ nul ∧
    hexDigit d ≠ '{' := by
  decide

theorem mem_printHex {w n : ℕ} {c : Char} (h : c ∈ printHex w n) : ∃ d < 16, c = hexDigit d := by
  obtain ⟨d, hd, rfl⟩ := List.mem_map.mp h
  exact ⟨d, digits_lt (by decide) d hd, rfl⟩

/-- A string of digits that has no `0x` in front. -/
theorem erase0x_eq {cs : List Char} (h : ∀ c ∈ cs, c ≠ 'x' ∧ c ≠ 'X') : erase0x cs = cs := by
  unfold erase0x
  split
  · exact absurd rfl (h 'x' (.tail _ (.head _))).1
  · exact absurd rfl (h 'X' (.tail _ (.head _))).2
  · rfl

theorem behind0x_eq {cs : List Char} (h : ∀ c ∈ cs, c ≠ 'x' ∧ c ≠ 'X') : behind0x cs = cs := by
  unfold behind0x
  split
  · rename_i x c rest
    have hx := h x (.tail _ (.head _))
    rw [if_neg fun hc => hc.1.elim hx.1 hx.2]
  · rfl

theorem signed_cons {c : Char} {cs : List Char} (hm : c ≠ '-') (hp : c ≠ '+') :
    signed (c :: cs) = (false, c :: cs) := by
  unfold signed
  split
  · rename_i heq
    exact absurd (List.cons.inj heq).1 hm
  · rename_i heq
    exact absurd (List.cons.inj heq).1 hp
  · rfl

/-- **`strtol` reads what is printed.** -/
theorem strtol_printHex {w : ℕ} (hw : 0 < w) (n : ℕ) :
    strtol (printHex w n) = (min longMax n, []) := by
  have hx : ∀ c ∈ printHex w n, c ≠ 'x' ∧ c ≠ 'X' := by
    intro c hc
    obtain ⟨d, hd, rfl⟩ := mem_printHex hc
    obtain ⟨-, -, -, hx, hX, -⟩ := plain_hexDigit d hd
    exact ⟨hx, hX⟩
  obtain ⟨d, hd, cs, hcs⟩ := exists_numeral_eq_cons hexDigit (b := 16) (by decide) hw n
  have hprint : printHex w n = hexDigit d :: cs := hcs
  obtain ⟨hspace, hm, hp, -⟩ := plain_hexDigit d hd
  have hdrop : (printHex w n).dropWhile isspace = printHex w n := by
    rw [hprint, List.dropWhile_cons_of_neg (by rw [hspace]; decide)]
  have hsigned : signed (printHex w n) = (false, printHex w n) := by
    rw [hprint]
    exact signed_cons hm hp
  have hdigit : ¬ NoDigit hexValue (printHex w n) := by
    intro h
    have hnone := h (hexDigit d) (by rw [hprint]; rfl)
    rw [reads_hexDigit d hd] at hnone
    cases hnone
  have hread : readNumeral hexValue 16 0 (printHex w n) = (n, []) := by
    have h : readNumeral hexValue 16 0 (numeral hexDigit 16 w n ++ []) = (n, []) :=
      readNumeral_numeral reads_hexDigit (by decide) w n noDigit_nil
    rwa [List.append_nil] at h
  rw [strtol, hdrop, hsigned]
  dsimp only
  rw [behind0x_eq hx, if_neg hdigit, hread]
  rfl

/-- **A number that is printed is read back**, with `0x` in front or without. -/
theorem hexToInt_printHex {w n : ℕ} (hw : 0 < w) (hn : n < 2 ^ 63) :
    hexToInt (printHex w n) = ((n : ℤ), false) ∧
      hexToInt ('0' :: 'x' :: printHex w n) = ((n : ℤ), false) := by
  have hclean : (printHex w n).takeWhile (· ≠ nul) = printHex w n := by
    refine List.takeWhile_eq_self_iff.mpr fun c hc => ?_
    obtain ⟨d, hd, rfl⟩ := mem_printHex hc
    obtain ⟨-, -, -, -, -, hnul, -⟩ := plain_hexDigit d hd
    exact decide_eq_true hnul
  have herase : erase0x (printHex w n) = printHex w n := by
    refine erase0x_eq fun c hc => ?_
    obtain ⟨d, hd, rfl⟩ := mem_printHex hc
    obtain ⟨-, -, -, hx, hX, -⟩ := plain_hexDigit d hd
    exact ⟨hx, hX⟩
  have hmin : min longMax (n : ℤ) = n := by
    rw [longMax]
    omega
  have hread : strtol ((printHex w n).takeWhile (· ≠ nul)) = ((n : ℤ), []) := by
    rw [hclean, strtol_printHex hw, hmin]
  constructor
  · rw [hexToInt, herase, hread]
    rfl
  · rw [hexToInt, show erase0x ('0' :: 'x' :: printHex w n) = printHex w n from rfl, hread]
    rfl

/-! ## Bytes -/

theorem ofInt_toNat (b : UInt8) : UInt8.ofInt b.toNat = b := by
  have hlt := b.toNat_lt
  apply UInt8.toNat_inj.mp
  simp only [UInt8.ofInt, UInt8.toNat_ofNat']
  omega

/-- The two digits of a byte. -/
theorem exists_printHex_byte (b : UInt8) : ∃ c d, printHex 2 b.toNat = [c, d] := by
  have hlength : (printHex 2 b.toNat).length = 2 := length_numeral hexDigit (by decide) b.toNat_lt
  exact List.length_eq_two.mp hlength

theorem hexPairs_printBytes : ∀ bytes : List UInt8,
    hexPairs (printBytes bytes) = bytes.map fun b => ((b.toNat : ℤ), false)
  | [] => rfl
  | b :: bytes => by
    obtain ⟨c, d, hcd⟩ := exists_printHex_byte b
    have hprint : printBytes (b :: bytes) = c :: d :: printBytes bytes := by
      rw [printBytes, List.flatMap_cons, hcd]
      rfl
    have hvalue : hexToInt [c, d] = ((b.toNat : ℤ), false) := by
      rw [← hcd, (hexToInt_printHex Nat.zero_lt_two (lt_trans b.toNat_lt (by decide))).1]
    rw [hprint, hexPairs, hexPairs_printBytes bytes, hvalue, List.map_cons]

theorem length_printBytes : ∀ bytes : List UInt8, (printBytes bytes).length = 2 * bytes.length
  | [] => rfl
  | b :: bytes => by
    obtain ⟨c, d, hcd⟩ := exists_printHex_byte b
    have ih := length_printBytes bytes
    rw [printBytes, List.flatMap_cons, hcd, List.length_append, List.length_cons]
    simp only [List.length_cons, List.length_nil]
    rw [printBytes] at ih
    omega

/-- What is read of printed bytes. -/
theorem split_of_digits {str : List Char} {bytes : List UInt8}
    (h : removeDelimiters str = some (printBytes bytes)) :
    splitStringIntoHexArray str = some ⟨bytes, 0, bytes.length⟩ := by
  have hhalf : (printBytes bytes).length / 2 = bytes.length := by
    rw [length_printBytes]
    omega
  have hstored : ((bytes.map fun b => ((b.toNat : ℤ), false)).map fun r => UInt8.ofInt r.1) =
      bytes := by
    rw [List.map_map]
    exact (List.map_congr_left fun b _ => ofInt_toNat b).trans (List.map_id bytes)
  have hgood : (bytes.map fun b => ((b.toNat : ℤ), false)).countP Prod.snd = 0 := by
    rw [List.countP_map]
    exact List.countP_eq_zero.mpr fun b _ => Bool.false_ne_true
  rw [splitStringIntoHexArray, h, Option.map_some, hexPairs_printBytes, hhalf, hstored, hgood]

/-- **Bytes that are printed are read back**, with braces around them or without. -/
theorem split_printed (bytes : List UInt8) :
    splitStringIntoHexArray (printBytes bytes) = some ⟨bytes, 0, bytes.length⟩ ∧
      splitStringIntoHexArray ('{' :: printBytes bytes ++ ['}']) =
        some ⟨bytes, 0, bytes.length⟩ := by
  constructor
  · refine split_of_digits ?_
    unfold removeDelimiters
    split
    · rename_i str hstr
      have hmem : '{' ∈ printBytes bytes := by rw [hstr]; exact .head _
      obtain ⟨b, -, hc⟩ := List.mem_flatMap.mp hmem
      obtain ⟨d, hd, hbrace⟩ := mem_printHex hc
      obtain ⟨-, -, -, -, -, -, hne⟩ := plain_hexDigit d hd
      exact absurd hbrace.symm hne
    · rfl
  · refine split_of_digits ?_
    rw [List.cons_append, removeDelimiters, if_neg (by simp), List.dropLast_concat]

theorem length_hexPairs : ∀ str : List Char, (hexPairs str).length = (str.length + 1) / 2
  | [] => rfl
  | [_] => by rw [hexPairs, List.length_singleton, List.length_singleton]
  | _ :: _ :: str => by
    have ih := length_hexPairs str
    rw [hexPairs, List.length_cons, ih, List.length_cons, List.length_cons]
    omega

/-- **Stored and returned**: one byte more is stored than the caller is told, where the number of
digits is odd. -/
theorem split_eq {str : List Char} {r : Split} (h : splitStringIntoHexArray str = some r) :
    ∃ digits, removeDelimiters str = some digits ∧ r.returned = digits.length / 2 ∧
      r.stored.length = (digits.length + 1) / 2 := by
  obtain ⟨digits, hdigits, rfl⟩ := Option.map_eq_some_iff.mp h
  exact ⟨digits, hdigits, rfl, by rw [List.length_map, length_hexPairs]⟩

end ConnectNcpHost.App.HexStrings
