import ConnectNcpHost.Csp.EncodedSize

/-! # The predicted length of a command (`csp-format.c`)

`computeCommandLength` walks over the format as the encoder does and adds up the widths of the
fields, in a `uint8_t`. Started at the two bytes of the identifier it keeps, turn by turn, the lowest
byte of the encoder's `finger` (`addArgumentLength_eq`, `addArgumentLengths_eq`). Its result is the
length of the command modulo `256`, which is the length itself exactly for the sizes below `256`
(`predictsLength_iff`). -/

namespace ConnectNcpHost.Csp.CommandLength

open ConnectNcpHost.Lib.Bytes ConnectNcpHost.Stack.ByteUtilities
open ConnectNcpHost.Csp.Format ConnectNcpHost.Csp.Codec ConnectNcpHost.Csp.FrameBounds
open ConnectNcpHost.Csp.RoundTrip ConnectNcpHost.Csp.EncodedSize ConnectNcpHost.HostCommon.CpcHost

variable {long : Bool} {c : Char} {w w' : Output} {args rest : List VaArg}

/-! ## `computeCommandLength` -/

/-- One turn of the loop of `computeCommandLength`; `none` is the `FATAL` of the default case. -/
def addArgumentLength (useLongMessageLength : Bool) (c : Char) (commandLength : UInt8) :
    List VaArg → Option (UInt8 × List VaArg)
  | .unsignedInt _ :: args =>
    match c with
    | 'u' => some (commandLength + 1, args)
    | 'v' => some (commandLength + 2, args)
    | 'l' => some (if useLongMessageLength then commandLength + 2 else commandLength + 1, args)
    | 'w' => some (commandLength + 4, args)
    | _ => none
  | .int _ :: args =>
    match c with
    | 's' => some (commandLength + 1, args)
    | _ => none
  | .data _ :: .int size :: args =>
    match c with
    | 'b' =>
      -- the sum is an `int`, of which the assignment keeps the lowest byte
      some (if useLongMessageLength then commandLength + (size.toUInt32 + 2).toUInt8
        else commandLength + (size.toUInt32 + 1).toUInt8, args)
    | _ => none
  | _ => none

/-- The loop of `computeCommandLength`. -/
def addArgumentLengths (useLongMessageLength : Bool) :
    List Char → UInt8 → List VaArg → Option UInt8
  | [], commandLength, _ => some commandLength
  | c :: format, commandLength, args => do
    let (commandLength, args) ← addArgumentLength useLongMessageLength c commandLength args
    addArgumentLengths useLongMessageLength format commandLength args

def computeCommandLength (useLongMessageLength : Bool) (initialLength : UInt8)
    (format : List Char) (argumentList : List VaArg) : Option UInt8 :=
  addArgumentLengths useLongMessageLength format initialLength argumentList

/-! ## The size of a command, from its format and its arguments -/

/-- The bytes the encoder writes for one character of the format. -/
def argumentSize (long : Bool) (c : Char) : List VaArg → ℕ
  | .data _ :: .int size :: _ => lengthWidth long + size.toUInt32.toUInt16.toNat
  | _ =>
    match c with
    | 'v' => 2
    | 'l' => lengthWidth long
    | 'w' => 4
    | _ => 1

/-- The arguments a character of the format takes. -/
def argumentCount (c : Char) : ℕ := if c = 'b' then 2 else 1

/-- The bytes the encoder writes for a format. -/
def argumentsSize (long : Bool) : List Char → List VaArg → ℕ
  | [], _ => 0
  | c :: format, args =>
    argumentSize long c args + argumentsSize long format (args.drop (argumentCount c))

/-- **The size of a command**: the identifier, and the fields. -/
def commandSize (long : Bool) (format : List Char) (args : List VaArg) : ℕ :=
  2 + argumentsSize long format args

/-! ## One turn of the two loops -/

theorem toUInt8_add (n k : ℕ) : (n + k).toUInt8 = n.toUInt8 + k.toUInt8 := UInt8.ofNat_add n k

theorem toUInt8_toUInt16 (v : UInt32) : v.toUInt16.toNat.toUInt8 = v.toUInt8 := by
  apply UInt8.toNat_inj.mp
  simp only [Nat.toUInt8_eq, UInt8.toNat_ofNat', UInt32.toNat_toUInt16, UInt32.toNat_toUInt8]
  omega

/-- **A turn of either loop, where the encoder does not stop**: the `finger` moves by the bytes
written, `commandLength` grows by them modulo `256`, and the same arguments are left. -/
theorem turn_of_formatArgument (n : UInt8) (h : formatArgument long c w args = some (w', rest)) :
    w'.finger = w.finger + argumentSize long c args ∧ rest = args.drop (argumentCount c) ∧
      addArgumentLength long c n args = some (n + (argumentSize long c args).toUInt8, rest) := by
  unfold formatArgument at h
  split at h
  · -- an unsigned argument
    split at h <;> simp only [Option.some.injEq, Prod.mk.injEq, reduceCtorEq] at h
    all_goals obtain ⟨rfl, rfl⟩ := h
    · exact ⟨rfl, rfl, rfl⟩
    · exact ⟨rfl, rfl, rfl⟩
    · cases long <;> exact ⟨rfl, rfl, rfl⟩
    · exact ⟨rfl, rfl, rfl⟩
  · -- a signed argument
    split at h <;> simp only [Option.some.injEq, Prod.mk.injEq, reduceCtorEq] at h
    obtain ⟨rfl, rfl⟩ := h
    exact ⟨rfl, rfl, rfl⟩
  · -- a buffer: the encoder cuts the size to 16 bits first, the prediction to 8 bits at once
    rename_i size _
    split at h <;> simp only [Option.some.injEq, Prod.mk.injEq, reduceCtorEq] at h
    obtain ⟨rfl, rfl⟩ := h
    refine ⟨?_, rfl, ?_⟩
    · cases long <;> simp [Output.putData, Output.putLength, Output.put, Output.put16, argumentSize,
        lengthWidth, Nat.add_assoc]
    · have hsize : ∀ k : ℕ, (k + size.toUInt32.toUInt16.toNat).toUInt8 =
          size.toUInt32.toUInt8 + k.toUInt8 := by
        intro k
        rw [toUInt8_add, toUInt8_toUInt16, UInt8.add_comm]
      rw [argumentSize, hsize]
      simp only [addArgumentLength, UInt32.toUInt8_add]
      cases long <;> rfl
  · cases h

/-- **The two loops, where the encoder does not stop.** -/
theorem loop_of_formatArguments {format : List Char} :
    ∀ {w : Output} {args : List VaArg} (n : UInt8),
      formatArguments long format w args = some w' →
      w'.finger = w.finger + argumentsSize long format args ∧
        addArgumentLengths long format n args =
          some (n + (argumentsSize long format args).toUInt8) := by
  induction format with
  | nil =>
    intro w args n h
    obtain rfl := Option.some.inj h
    exact ⟨rfl, congrArg some (UInt8.add_zero n).symm⟩
  | cons c format ih =>
    intro w args n h
    rw [formatArguments, Option.bind_eq_bind, Option.bind_eq_some_iff] at h
    obtain ⟨⟨w1, rest⟩, hturn, hloop⟩ := h
    obtain ⟨hfinger, hrest, hlength⟩ := turn_of_formatArgument n hturn
    obtain ⟨ihfinger, ihlength⟩ := ih (n + (argumentSize long c args).toUInt8) hloop
    subst hrest
    constructor
    · rw [ihfinger, hfinger, argumentsSize, Nat.add_assoc]
    · rw [addArgumentLengths, hlength, argumentsSize, toUInt8_add, ← UInt8.add_assoc]
      exact ihlength

/-! ## The prediction -/

/-- **Both sizes of a command are the same**: the one read off the format and the arguments passed, and
the one of the fields they stand for. -/
theorem commandSize_eq (long : Bool) (as : List Arg) :
    commandSize long (format (as.map Arg.item)) (as.flatMap Arg.passed) = encodedSize long as := by
  obtain ⟨hfinger, -⟩ := loop_of_formatArguments 0 (beforeCheck_eq long (fun _ => 0) 0 0 as)
  exact hfinger.symm

/-- **What the two functions return**: the size of the command modulo `65536`, and modulo `256`. -/
theorem lengths_of_encoded {buffer m : Mem} {bufferSize identifier length : UInt16}
    {format : List Char} (h : formatResponseCommandFromArgList long buffer bufferSize identifier
      format args = some (m, length)) :
    length = (commandSize long format args).toUInt16 ∧
      computeCommandLength long 2 format args = some (commandSize long format args).toUInt8 := by
  rw [formatResponseCommandFromArgList_beforeCheck, Option.bind_eq_some_iff] at h
  obtain ⟨w, hloop, hcheck⟩ := h
  obtain ⟨hfinger, hlength⟩ := loop_of_formatArguments 2 hloop
  split_ifs at hcheck
  simp only [Option.some.injEq, Prod.mk.injEq] at hcheck
  constructor
  · rw [← hcheck.2, hfinger]
    rfl
  · rw [computeCommandLength, hlength, commandSize, toUInt8_add]
    rfl

/-- **The prediction**: `computeCommandLength`, started at the two bytes of the identifier, returns
the length the encoder returns. -/
def PredictsLength (long : Bool) (format : List Char) (args : List VaArg) (length : UInt16) : Prop :=
  ∃ n, computeCommandLength long 2 format args = some n ∧ n.toNat = length.toNat

/-- **A command is predicted exactly when its size is below `256`**, where a size of `65536` or more
counts by its remainder, as it does for the encoder. -/
theorem predictsLength_iff {buffer m : Mem} {bufferSize identifier length : UInt16}
    {format : List Char} (h : formatResponseCommandFromArgList long buffer bufferSize identifier
      format args = some (m, length)) :
    PredictsLength long format args length ↔ commandSize long format args % 65536 < 256 := by
  obtain ⟨rfl, hlength⟩ := lengths_of_encoded h
  rw [PredictsLength, hlength]
  simp only [Option.some.injEq, exists_eq_left', Nat.toUInt8_eq, UInt8.toNat_ofNat',
    Nat.toUInt16_eq, UInt16.toNat_ofNat']
  omega

/-- **A command of sixteen bytes is predicted.** -/
theorem predictsLength_short :
    PredictsLength true ['u', 'b'] [.unsignedInt 5, .data none, .int 11] 16 := by
  have hrun := formatResponseCommandFromArgList_size true (fun _ => 0)
    maxStackApiCommandSize.toUInt16 0x6916 [.uint8 5, .buffer none 11]
  rw [if_pos (by decide)] at hrun
  exact (predictsLength_iff hrun).mpr (by decide)

/-- **A buffer of 255 bytes in the long mode**: the command has 259 bytes, 3 are predicted. -/
theorem mispredicted_buffer : ¬ ∀ (long : Bool) (buffer m : Mem)
    (bufferSize identifier length : UInt16) (format : List Char) (args : List VaArg),
    bufferSize.toNat ≤ maxStackApiCommandSize →
    formatResponseCommandFromArgList long buffer bufferSize identifier format args =
      some (m, length) → PredictsLength long format args length := by
  intro h
  have hrun := formatResponseCommandFromArgList_size true (fun _ => 0)
    maxStackApiCommandSize.toUInt16 0x6916 [.buffer none 255]
  rw [if_pos (by decide)] at hrun
  obtain ⟨n, hn, heq⟩ := h true _ _ _ _ _ _ _ (by decide) hrun
  have h3 : computeCommandLength true 2 ['b'] [.data none, .int 255] = some 3 := by decide
  have hn3 : 3 = n := Option.some.inj (h3.symm.trans hn)
  rw [← hn3] at heq
  revert heq
  decide

end ConnectNcpHost.Csp.CommandLength
