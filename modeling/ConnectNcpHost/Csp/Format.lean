import ConnectNcpHost.Stack.ByteUtilities

/-! # Serialization and deserialization (`csp-format.c`)

`formatResponseCommandFromArgList` writes the arguments of a command into a buffer, `fetchParams` reads
a buffer into the variables of a caller; both follow a format string. The mode is the static
variable `use_long_message_length`. A `va_list` is the list of the arguments that were passed, as
they arrive after the promotions of C; `none` is a call that ends in `BUG`, or in undefined
behaviour: an argument of another type than `va_arg` asks for, or a store through a null pointer.

`fetchParams` returns nothing in C. Here it returns what it stored, for each character of the
format, and the address `readPointer` has reached. -/

namespace ConnectNcpHost.Csp.Format

open ConnectNcpHost.Lib.Bytes ConnectNcpHost.Stack.ByteUtilities

/-- An argument of a variadic function. -/
inductive VaArg
  | unsignedInt (v : UInt32)
  | int (v : Int32)
  /-- `const uint8_t *`: the memory it points to, or null -/
  | data (p : Option Mem)
  /-- a pointer to a variable of the caller, which may be null -/
  | out (isNull : Bool)

/-! ## Encoder -/

/-- The cells `a..a+n` are set to `v`. -/
def memset (m : Mem) (a : ℕ) (v : UInt8) (n : ℕ) : Mem := m.write a (List.replicate n v)

/-- What the encoder has written, and where its `finger` stands. -/
structure Output where
  buffer : Mem
  finger : ℕ

/-- Store some bytes, and move the finger behind them. -/
def Output.put (w : Output) (bytes : List UInt8) : Output :=
  ⟨w.buffer.write w.finger bytes, w.finger + bytes.length⟩

/-- `emberStoreHighLowInt16u(finger, value); finger += sizeof(uint16_t)` -/
def Output.put16 (w : Output) (value : UInt16) : Output :=
  ⟨emberStoreHighLowInt16u w.buffer w.finger value, w.finger + 2⟩

/-- `emberStoreHighLowInt32u(finger, value); finger += sizeof(uint32_t)` -/
def Output.put32 (w : Output) (value : UInt32) : Output :=
  ⟨emberStoreHighLowInt32u w.buffer w.finger value, w.finger + 4⟩

/-- The store of a length, in the width of the mode. -/
def Output.putLength (useLongMessageLength : Bool) (w : Output) (length : UInt16) : Output :=
  if useLongMessageLength then w.put16 length else w.put [(length &&& 0xFF).toUInt8]

/-- The bytes of a `b` argument: copied, or zeros where `data` is null. -/
def Output.putData (w : Output) (data : Option Mem) (dataSize : UInt16) : Output :=
  { buffer :=
      if dataSize > 0 then
        match data with
        | some p => w.buffer.write w.finger (p.read 0 dataSize.toNat)
        | none => memset w.buffer w.finger 0 dataSize.toNat
      else w.buffer
    finger := w.finger + dataSize.toNat }

/-- One turn of the loop of `formatResponseCommandFromArgList`. -/
def formatArgument (useLongMessageLength : Bool) (c : Char) (w : Output) :
    List VaArg → Option (Output × List VaArg)
  | .unsignedInt v :: args =>
    match c with
    | 'u' => some (w.put [v.toUInt8], args)
    | 'v' => some (w.put16 v.toUInt16, args)
    | 'l' =>
      some (if useLongMessageLength then w.put16 v.toUInt16 else w.put [(v &&& 0xFF).toUInt8], args)
    | 'w' => some (w.put32 v, args)
    | _ => none
  | .int v :: args =>
    match c with
    | 's' => some (w.put [v.toUInt32.toUInt8], args)
    | _ => none
  | .data p :: .int size :: args =>
    match c with
    | 'b' =>
      let dataSize := size.toUInt32.toUInt16
      some ((w.putLength useLongMessageLength dataSize).putData p dataSize, args)
    | _ => none
  | _ => none

/-- The loop of `formatResponseCommandFromArgList`. -/
def formatArguments (useLongMessageLength : Bool) : List Char → Output → List VaArg → Option Output
  | [], w, _ => some w
  | c :: format, w, args => do
    let (w, args) ← formatArgument useLongMessageLength c w args
    formatArguments useLongMessageLength format w args

/-- `formatResponseCommandFromArgList`: the buffer, and the length of the command -/
def formatResponseCommandFromArgList (useLongMessageLength : Bool) (buffer : Mem)
    (bufferSize identifier : UInt16) (format : List Char) (argumentList : List VaArg) :
    Option (Mem × UInt16) := do
  let buffer := memset buffer 0 0 bufferSize.toNat
  let w ← formatArguments useLongMessageLength format ((⟨buffer, 0⟩ : Output).put16 identifier)
    argumentList
  let length := w.finger.toUInt16
  if length > bufferSize then none else some (w.buffer, length)

/-! ## Decoder -/

/-- What `fetchParams` stores for one character of the format. -/
inductive Store
  | uint8 (v : Option UInt8)
  | uint16 (v : Option UInt16)
  | uint32 (v : Option UInt32)
  /-- `*lengthPointer`, and the bytes moved into the array -/
  | buffer (length : UInt16) (bytes : Option (List UInt8))
  /-- `*lengthPointer`, and the address of the bytes -/
  | pointer (length : UInt16) (address : Option ℕ)
  | nothing
  deriving DecidableEq

/-- What is stored through a pointer that is tested first. -/
def unlessNull {α : Type} (isNull : Bool) (v : α) : Option α := if isNull then none else some v

/-- A length, in the width of the mode, and `readPointer` behind it. -/
def fetchLength (useLongMessageLength : Bool) (m : Mem) (readPointer : ℕ) : UInt16 × ℕ :=
  if useLongMessageLength then (emberFetchHighLowInt16u m readPointer, readPointer + 2)
  else ((m readPointer).toUInt16, readPointer + 1)

/-- `*lengthPointer` of a `b` argument, which points to a `uint8_t` or to a `uint16_t`. -/
def storedLength (isUint8 : UInt8) (bufferLength bufferAvailableSize : UInt16) : UInt16 :=
  if isUint8 ≠ 0 then
    let length := (bufferLength &&& 0xFF).toUInt8
    if length.toUInt16 > bufferAvailableSize then bufferAvailableSize.toUInt8.toUInt16
    else length.toUInt16
  else if bufferLength > bufferAvailableSize then bufferAvailableSize
  else bufferLength

/-- `*lengthPointer` of a `p` argument. -/
def storedPointerLength (isUint8 : UInt8) (bufferLength : UInt16) : UInt16 :=
  if isUint8 ≠ 0 then (bufferLength &&& 0xFF).toUInt8.toUInt16 else bufferLength

/-- The arguments of a `b` behind its array pointer: `isUint8`, `lengthPointer`,
`bufferAvailableSize`. -/
def fetchBuffer (useLongMessageLength : Bool) (m : Mem) (isNull : Bool) (readPointer : ℕ) :
    List VaArg → Option (Store × ℕ × List VaArg)
  | .unsignedInt isUint8 :: .out false :: .unsignedInt available :: args =>
    let (bufferLength, readPointer) := fetchLength useLongMessageLength m readPointer
    let bufferAvailableSize := available.toUInt16
    let moved := if bufferLength ≤ bufferAvailableSize then bufferLength else bufferAvailableSize
    some (.buffer (storedLength isUint8.toUInt8 bufferLength bufferAvailableSize)
      (unlessNull isNull (m.read readPointer moved.toNat)), readPointer + bufferLength.toNat, args)
  | _ => none

/-- The arguments of a `p` behind its pointer: `isUint8`, `lengthPointer`. -/
def fetchPointer (useLongMessageLength : Bool) (m : Mem) (isNull : Bool) (readPointer : ℕ) :
    List VaArg → Option (Store × ℕ × List VaArg)
  | .unsignedInt isUint8 :: .out false :: args =>
    let (bufferLength, readPointer) := fetchLength useLongMessageLength m readPointer
    some (.pointer (storedPointerLength isUint8.toUInt8 bufferLength)
      (unlessNull isNull readPointer), readPointer + bufferLength.toNat, args)
  | _ => none

/-- One turn of the loop of `fetchParams`. -/
def fetchParam (useLongMessageLength : Bool) (m : Mem) (c : Char) (readPointer : ℕ) :
    List VaArg → Option (Store × ℕ × List VaArg)
  | .out isNull :: args =>
    match c with
    | 's' | 'u' => some (.uint8 (unlessNull isNull (m readPointer)), readPointer + 1, args)
    | 'v' =>
      if isNull then none
      else some (.uint16 (some (emberFetchHighLowInt16u m readPointer)), readPointer + 2, args)
    | 'l' =>
      if useLongMessageLength then
        if isNull then none
        else some (.uint16 (some (emberFetchHighLowInt16u m readPointer)), readPointer + 2, args)
      else
        some (.uint16 (unlessNull isNull (m readPointer).toUInt16), readPointer + 1, args)
    | 'w' =>
      some (.uint32 (unlessNull isNull (emberFetchHighLowInt32u m readPointer)), readPointer + 4,
        args)
    | 'b' => fetchBuffer useLongMessageLength m isNull readPointer args
    | 'p' => fetchPointer useLongMessageLength m isNull readPointer args
    | _ => some (.nothing, readPointer, args)
  | _ => none

/-- `fetchParams` -/
def fetchParams (useLongMessageLength : Bool) (m : Mem) :
    List Char → ℕ → List VaArg → Option (List Store × ℕ)
  | [], readPointer, _ => some ([], readPointer)
  | c :: format, readPointer, args => do
    let (store, readPointer, args) ← fetchParam useLongMessageLength m c readPointer args
    let (stores, readPointer) ← fetchParams useLongMessageLength m format readPointer args
    return (store :: stores, readPointer)

end ConnectNcpHost.Csp.Format
