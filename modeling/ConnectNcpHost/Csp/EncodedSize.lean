import ConnectNcpHost.Csp.LengthPrefixes
import ConnectNcpHost.Csp.FrameBounds
import ConnectNcpHost.HostCommon.CpcHost

/-! # The size of a command, and the check of it

`encodedSize` is the size of a command as a number: the identifier and its fields, prefixes included.
`formatResponseCommandFromArgList` compares it with the size of the buffer once, behind its loop.

* `staysInBuffer_iff`: the loop has stored the whole command by then, so that it stays in the buffer
  exactly when the command fits.
* `exactCheck_iff`: the check is made of the size modulo `65536`, so that it is exact below `65536`,
  and from there on where the remainder is refused too. -/

namespace ConnectNcpHost.Csp.EncodedSize

open ConnectNcpHost.Lib.Bytes ConnectNcpHost.Stack.ByteUtilities
open ConnectNcpHost.Csp.Format ConnectNcpHost.Csp.Codec ConnectNcpHost.Csp.RoundTrip
open ConnectNcpHost.Csp.FrameBounds ConnectNcpHost.Csp.LengthPrefixes
open ConnectNcpHost.HostCommon.CpcHost

variable {long : Bool} {buffer m : Mem} {bufferSize identifier length : UInt16} {as : List Arg}

/-! ## Sizes -/

/-- The bytes a field takes. -/
def fieldSize (long : Bool) : Arg → ℕ
  | .uint8 _ | .int8 _ => 1
  | .uint16 _ => 2
  | .length _ => lengthWidth long
  | .uint32 _ => 4
  | .buffer _ size => lengthWidth long + size.toNat

/-- **The size of a command**: two bytes for the identifier, and the fields. -/
def encodedSize (long : Bool) (as : List Arg) : ℕ := 2 + (as.map (fieldSize long)).sum

theorem length_lengthBytes (long : Bool) (n : UInt16) :
    (lengthBytes long n).length = lengthWidth long := by
  cases long <;> rfl

theorem length_wire_item (long : Bool) (a : Arg) : (a.item.wire long).length = fieldSize long a := by
  cases a with
  | length v => exact length_lengthBytes long v
  | buffer data size =>
    rw [Arg.item, Item.wire, List.length_append, length_lengthBytes, length_dataBytes]
    rfl
  | _ => rfl

theorem length_wire (long : Bool) (as : List Arg) :
    (wire long (as.map Arg.item)).length = (as.map (fieldSize long)).sum := by
  induction as with
  | nil => rfl
  | cons a as ih =>
    rw [List.map_cons, wire_cons, List.length_append, length_wire_item, ih, List.map_cons,
      List.sum_cons]

/-! ## The command before the check -/

/-- The memory and the `finger` that the loop leaves to the check behind it. -/
def beforeCheck (long : Bool) (buffer : Mem) (bufferSize identifier : UInt16) (format : List Char)
    (argumentList : List VaArg) : Option Output :=
  formatArguments long format
    ((⟨memset buffer 0 0 bufferSize.toNat, 0⟩ : Output).put16 identifier) argumentList

/-- The encoder is its loop, and the check. -/
theorem formatResponseCommandFromArgList_beforeCheck (long : Bool) (buffer : Mem)
    (bufferSize identifier : UInt16) (format : List Char) (argumentList : List VaArg) :
    formatResponseCommandFromArgList long buffer bufferSize identifier format argumentList =
      (beforeCheck long buffer bufferSize identifier format argumentList).bind fun w =>
        if w.finger.toUInt16 > bufferSize then none else some (w.buffer, w.finger.toUInt16) := rfl

/-- The bytes of a command. -/
def command (long : Bool) (identifier : UInt16) (as : List Arg) : List UInt8 :=
  highLowBytes16 identifier ++ wire long (as.map Arg.item)

@[simp] theorem length_command (long : Bool) (identifier : UInt16) (as : List Arg) :
    (command long identifier as).length = encodedSize long as := by
  rw [command, List.length_append, length_wire, length_highLowBytes16, encodedSize]

/-- **The loop stores the whole command**, whatever the size of the buffer. -/
theorem beforeCheck_eq (long : Bool) (buffer : Mem) (bufferSize identifier : UInt16)
    (as : List Arg) :
    beforeCheck long buffer bufferSize identifier (format (as.map Arg.item))
        (as.flatMap Arg.passed) =
      some ⟨(memset buffer 0 0 bufferSize.toNat).write 0 (command long identifier as),
        encodedSize long as⟩ := by
  rw [← length_command long identifier as, beforeCheck, put16_eq, formatArguments_eq, put_append,
    command, Output.put, Nat.zero_add]

theorem memset_of_ge {i n : ℕ} (buffer : Mem) (v : UInt8) (h : n ≤ i) :
    memset buffer 0 v n i = buffer i :=
  Memory.write_of_ge _ _ (by rw [List.length_replicate]; omega)

theorem memset_of_lt {i n : ℕ} (buffer : Mem) (v : UInt8) (h : i < n) :
    memset buffer 0 v n i = v := by
  have hw := Memory.write_add buffer 0 (List.replicate n v) (by rwa [List.length_replicate])
  rw [Nat.zero_add, List.getElem_replicate] at hw
  exact hw

/-! ## The encoder and the end of its buffer -/

/-- **No byte is stored at an index `≥ bufferSize`**, whether the command fits or not: whatever
stands there before, stands there when the loop is done. -/
def StaysInBuffer (long : Bool) (bufferSize identifier : UInt16) (as : List Arg) : Prop :=
  ∀ buffer w, beforeCheck long buffer bufferSize identifier (format (as.map Arg.item))
    (as.flatMap Arg.passed) = some w → ∀ i, bufferSize.toNat ≤ i → w.buffer i = buffer i

/-- A command that fits is stored in the buffer. -/
theorem staysInBuffer_of_le (h : encodedSize long as ≤ bufferSize.toNat) :
    StaysInBuffer long bufferSize identifier as := by
  intro buffer w hw i hi
  rw [beforeCheck_eq] at hw
  obtain rfl := Option.some.inj hw
  dsimp only
  rw [Memory.write_of_ge _ _ (by rw [length_command]; omega), memset_of_ge buffer 0 hi]

/-- The byte of a longer command with the index `bufferSize` is stored behind the buffer. -/
theorem not_staysInBuffer (h : bufferSize.toNat < encodedSize long as) :
    ¬ StaysInBuffer long bufferSize identifier as := by
  intro hs
  have hlt : bufferSize.toNat < (command long identifier as).length := by rwa [length_command]
  set b := (command long identifier as)[bufferSize.toNat] with hb
  have hi : Memory.write (memset (fun _ => b + 1) 0 0 bufferSize.toNat) 0
      (command long identifier as) bufferSize.toNat = b + 1 :=
    hs (fun _ => b + 1) _ (beforeCheck_eq long _ bufferSize identifier as) _ (le_refl _)
  have hw := Memory.write_add (memset (fun _ => b + 1) 0 0 bufferSize.toNat) 0 _ hlt
  rw [Nat.zero_add, ← hb] at hw
  exact add_one_ne b (hi.symm.trans hw)

/-! ## The two commands that send a message -/

/-- The two addresses share a union; the command carries both. -/
structure EmberMacAddress where
  longAddress : Mem
  shortAddress : UInt16
  mode : UInt8

structure EmberMacFrame where
  srcAddress : EmberMacAddress
  dstAddress : EmberMacAddress
  srcPanId : UInt16
  dstPanId : UInt16
  srcPanIdSpecified : Bool
  dstPanIdSpecified : Bool

def eui64Size : UInt16 := 8

/-- The arguments `emberMacMessageSend` passes to `formatResponseCommand`, with the format
`"vbuvbuvvuuulbu"`. -/
def emberMacMessageSendArguments (macFrame : EmberMacFrame) (messageTag : UInt8)
    (messageLength : UInt16) (message : Option Mem) (options : UInt8) : List Arg :=
  [.uint16 macFrame.srcAddress.shortAddress,
    .buffer (some macFrame.srcAddress.longAddress) eui64Size,
    .uint8 macFrame.srcAddress.mode,
    .uint16 macFrame.dstAddress.shortAddress,
    .buffer (some macFrame.dstAddress.longAddress) eui64Size,
    .uint8 macFrame.dstAddress.mode,
    .uint16 macFrame.srcPanId, .uint16 macFrame.dstPanId,
    .uint8 macFrame.srcPanIdSpecified.toUInt8, .uint8 macFrame.dstPanIdSpecified.toUInt8,
    .uint8 messageTag, .length messageLength, .buffer message messageLength, .uint8 options]

theorem format_emberMacMessageSend (macFrame : EmberMacFrame) (messageTag : UInt8)
    (messageLength : UInt16) (message : Option Mem) (options : UInt8) :
    format ((emberMacMessageSendArguments macFrame messageTag messageLength message options).map
        Arg.item) =
      ['v', 'b', 'u', 'v', 'b', 'u', 'v', 'v', 'u', 'u', 'u', 'l', 'b', 'u'] := rfl

theorem encodedSize_emberMessageSend (long : Bool) (destination : UInt16)
    (endpoint messageTag : UInt8) (messageLength : UInt16) (message : Option Mem)
    (options : UInt8) :
    encodedSize long (emberMessageSendArguments destination endpoint messageTag messageLength message
      options) = messageLength.toNat + 7 + 2 * lengthWidth long := by
  simp only [encodedSize, emberMessageSendArguments, List.map_cons, List.map_nil, List.sum_cons,
    List.sum_nil, fieldSize]
  ring

theorem encodedSize_emberMacMessageSend (long : Bool) (macFrame : EmberMacFrame)
    (messageTag : UInt8) (messageLength : UInt16) (message : Option Mem) (options : UInt8) :
    encodedSize long (emberMacMessageSendArguments macFrame messageTag messageLength message
      options) = messageLength.toNat + 32 + 4 * lengthWidth long := by
  have h8 : eui64Size.toNat = 8 := rfl
  simp only [encodedSize, emberMacMessageSendArguments, List.map_cons, List.map_nil, List.sum_cons,
    List.sum_nil, fieldSize, h8]
  ring

/-- **The encoder stays in its buffer exactly when the command fits**; for the two commands that send
a message, exactly up to the length that leaves room for the other fields. -/
theorem staysInBuffer_iff (long : Bool) :
    (∀ (bufferSize identifier : UInt16) (as : List Arg),
      StaysInBuffer long bufferSize identifier as ↔ encodedSize long as ≤ bufferSize.toNat) ∧
    (∀ (identifier destination : UInt16) (endpoint messageTag : UInt8) (messageLength : UInt16)
      (message : Option Mem) (options : UInt8),
      StaysInBuffer long maxStackApiCommandSize.toUInt16 identifier
        (emberMessageSendArguments destination endpoint messageTag messageLength message options) ↔
      messageLength.toNat + 7 + 2 * lengthWidth long ≤ maxStackApiCommandSize) ∧
    (∀ (identifier : UInt16) (macFrame : EmberMacFrame) (messageTag : UInt8)
      (messageLength : UInt16) (message : Option Mem) (options : UInt8),
      StaysInBuffer long maxStackApiCommandSize.toUInt16 identifier
        (emberMacMessageSendArguments macFrame messageTag messageLength message options) ↔
      messageLength.toNat + 32 + 4 * lengthWidth long ≤ maxStackApiCommandSize) := by
  have hiff : ∀ (bufferSize identifier : UInt16) (as : List Arg),
      StaysInBuffer long bufferSize identifier as ↔ encodedSize long as ≤ bufferSize.toNat := by
    intro bufferSize identifier as
    constructor
    · intro h
      by_contra hlt
      exact not_staysInBuffer (Nat.lt_of_not_le hlt) h
    · exact staysInBuffer_of_le
  have hmax : maxStackApiCommandSize.toUInt16.toNat = maxStackApiCommandSize := rfl
  refine ⟨hiff, ?_, ?_⟩
  · intro identifier destination endpoint messageTag messageLength message options
    rw [hiff, encodedSize_emberMessageSend, hmax]
  · intro identifier macFrame messageTag messageLength message options
    rw [hiff, encodedSize_emberMacMessageSend, hmax]

/-- **A message of 2086 bytes in the long mode**: one byte is stored behind `apiCommandData`. -/
theorem leavesBuffer_message : ¬ ∀ (long : Bool) (bufferSize identifier : UInt16) (as : List Arg),
    2 ≤ bufferSize.toNat → StaysInBuffer long bufferSize identifier as := by
  intro h
  refine not_staysInBuffer ?_ (h true maxStackApiCommandSize.toUInt16 0x6916
    (emberMessageSendArguments 5 1 0 2086 none 0) (by decide))
  rw [encodedSize_emberMessageSend]
  decide

/-! ## The check -/

/-- **What the encoder returns**, in terms of the size modulo `65536`. -/
theorem formatResponseCommandFromArgList_size (long : Bool) (buffer : Mem)
    (bufferSize identifier : UInt16) (as : List Arg) :
    formatResponseCommandFromArgList long buffer bufferSize identifier (format (as.map Arg.item))
        (as.flatMap Arg.passed) =
      if encodedSize long as % 65536 ≤ bufferSize.toNat then
        some ((memset buffer 0 0 bufferSize.toNat).write 0 (command long identifier as),
          (encodedSize long as).toUInt16)
      else none := by
  have hmod : (encodedSize long as).toUInt16.toNat = encodedSize long as % 65536 :=
    UInt16.toNat_ofNat'
  rw [formatResponseCommandFromArgList_beforeCheck, beforeCheck_eq, Option.bind_some]
  by_cases h : encodedSize long as % 65536 ≤ bufferSize.toNat
  · have hle : ¬ (encodedSize long as).toUInt16 > bufferSize :=
      UInt16.not_lt.mpr (UInt16.le_iff_toNat_le.mpr (by omega))
    rw [if_pos h, if_neg hle]
  · have hgt : (encodedSize long as).toUInt16 > bufferSize :=
      UInt16.lt_iff_toNat_lt.mpr (by omega)
    rw [if_neg h, if_pos hgt]

/-- **The check and the returned length are exact.** -/
structure ExactCheck (long : Bool) (buffer : Mem) (bufferSize identifier : UInt16)
    (as : List Arg) : Prop where
  /-- the encoder returns when the command fits, and ends in `BUG_ON` when it does not -/
  returns : (formatResponseCommandFromArgList long buffer bufferSize identifier
    (format (as.map Arg.item)) (as.flatMap Arg.passed)).isSome ↔
      encodedSize long as ≤ bufferSize.toNat
  /-- the length is the size of the command, and zeros follow up to the end of the buffer -/
  length : ∀ m length, formatResponseCommandFromArgList long buffer bufferSize identifier
      (format (as.map Arg.item)) (as.flatMap Arg.passed) = some (m, length) →
    length.toNat = encodedSize long as ∧
      ∀ i, encodedSize long as ≤ i → i < bufferSize.toNat → m i = 0

/-- Where the remainder decides as the size does. -/
theorem exactCheck_of (h : encodedSize long as < 65536 ∨
    bufferSize.toNat < encodedSize long as % 65536) :
    ExactCheck long buffer bufferSize identifier as := by
  have hlt := bufferSize.toNat_lt
  have hle : encodedSize long as % 65536 ≤ bufferSize.toNat ↔
      encodedSize long as ≤ bufferSize.toNat := by
    have := Nat.mod_le (encodedSize long as) 65536
    omega
  constructor
  · rw [formatResponseCommandFromArgList_size, ← hle]
    split_ifs with hfit
    · exact ⟨fun _ => hfit, fun _ => rfl⟩
    · exact ⟨fun hs => absurd hs (by decide), fun hs => absurd hs hfit⟩
  · intro m length hrun
    rw [formatResponseCommandFromArgList_size] at hrun
    split_ifs at hrun with hfit
    simp only [Option.some.injEq, Prod.mk.injEq] at hrun
    obtain ⟨rfl, rfl⟩ := hrun
    constructor
    · rw [Nat.toUInt16_eq, UInt16.toNat_ofNat']
      exact Nat.mod_eq_of_lt (by omega)
    · intro i hi hib
      rw [Memory.write_of_ge _ _ (by rw [length_command]; omega), memset_of_lt buffer 0 hib]

/-- A command of `65536` bytes or more, the remainder of which fits, is taken for a short one. -/
theorem not_exactCheck (h : 65536 ≤ encodedSize long as)
    (hfit : encodedSize long as % 65536 ≤ bufferSize.toNat) :
    ¬ ExactCheck long buffer bufferSize identifier as := by
  intro he
  have hlt := bufferSize.toNat_lt
  have hle := he.returns.mp (by
    rw [formatResponseCommandFromArgList_size, if_pos hfit]
    rfl)
  omega

/-- **The check is exact, except for commands of `65536` bytes or more the remainder of which fits.** -/
theorem exactCheck_iff (long : Bool) (buffer : Mem) (bufferSize identifier : UInt16)
    (as : List Arg) :
    ExactCheck long buffer bufferSize identifier as ↔
      (encodedSize long as < 65536 ∨ bufferSize.toNat < encodedSize long as % 65536) := by
  constructor
  · intro h
    by_contra hn
    obtain ⟨hlarge, hfit⟩ := not_or.mp hn
    exact not_exactCheck (Nat.le_of_not_lt hlarge) (Nat.le_of_not_lt hfit) h
  · exact exactCheck_of

/-- **A message of 65535 bytes in the long mode** passes the check as a command of ten bytes. -/
theorem inexact_message : ¬ ∀ (long : Bool) (buffer : Mem) (bufferSize identifier : UInt16)
    (as : List Arg), ExactCheck long buffer bufferSize identifier as := by
  intro h
  refine not_exactCheck ?_ ?_ (h true (fun _ => 0) maxStackApiCommandSize.toUInt16 0x6916
    (emberMessageSendArguments 5 1 0 65535 none 0))
  · rw [encodedSize_emberMessageSend]
    decide
  · rw [encodedSize_emberMessageSend]
    decide

end ConnectNcpHost.Csp.EncodedSize
