import ConnectNcpHost.Csp.Format

/-! # The wire format, and that encoder and decoder keep to it

An `Item` is a value on the wire and `Item.wire` its bytes: big-endian scalars, and byte strings
behind a length of one or two bytes. `Arg` is what a caller of the encoder passes for an item, `Dest`
what a caller of the decoder passes. One lemma for the encoder (`formatArgument_eq`): it writes the
bytes of the item; one for the decoder (`fetchParam_eq`): where the bytes of an item stand, it
stores that item. Every memory holds some item at every address (`itemAt`, `read_itemAt`). -/

namespace ConnectNcpHost.Csp.Codec

open ConnectNcpHost.Lib.Bytes ConnectNcpHost.Stack.ByteUtilities ConnectNcpHost.Csp.Format

/-! ## Items -/

/-- The characters of a format. -/
inductive Kind
  | uint8
  | int8
  | uint16
  | length
  | uint32
  | buffer
  deriving DecidableEq

def Kind.char : Kind → Char
  | uint8 => 'u'
  | int8 => 's'
  | uint16 => 'v'
  | length => 'l'
  | uint32 => 'w'
  | buffer => 'b'

/-- A value on the wire. -/
inductive Item
  | uint8 (v : UInt8)
  | int8 (v : Int8)
  | uint16 (v : UInt16)
  | length (v : UInt16)
  | uint32 (v : UInt32)
  | buffer (bytes : List UInt8)
  deriving DecidableEq

def Item.kind : Item → Kind
  | uint8 _ => .uint8
  | int8 _ => .int8
  | uint16 _ => .uint16
  | length _ => .length
  | uint32 _ => .uint32
  | buffer _ => .buffer

/-- The greatest length the prefix of a mode can hold. -/
def maxLength (long : Bool) : ℕ := if long then 65535 else 255

/-- A length on the wire. -/
def lengthBytes (long : Bool) (n : UInt16) : List UInt8 :=
  if long then highLowBytes16 n else [n.toUInt8]

/-- The bytes of an item. -/
def Item.wire (long : Bool) : Item → List UInt8
  | uint8 v => [v]
  | int8 v => [v.toUInt8]
  | uint16 v => highLowBytes16 v
  | length v => lengthBytes long v
  | uint32 v => highLowBytes32 v
  | buffer bytes => lengthBytes long bytes.length.toUInt16 ++ bytes

/-- The bytes of a list of items. -/
def wire (long : Bool) (fs : List Item) : List UInt8 := fs.flatMap (Item.wire long)

@[simp] theorem wire_nil (long : Bool) : wire long [] = [] := rfl

@[simp] theorem wire_cons (long : Bool) (x : Item) (xs : List Item) :
    wire long (x :: xs) = x.wire long ++ wire long xs := rfl

/-- The lengths of an item fit the prefix of the mode. -/
def Item.Fits (long : Bool) : Item → Prop
  | length v => v.toNat ≤ maxLength long
  | buffer bytes => bytes.length ≤ maxLength long
  | _ => True

/-- The bytes of a buffer without the prefix. -/
def Item.size : Item → ℕ
  | buffer bytes => bytes.length
  | _ => 0

theorem maxLength_le (long : Bool) : maxLength long ≤ 65535 := by
  cases long <;> decide

theorem toNat_toUInt16_of_le {long : Bool} {n : ℕ} (h : n ≤ maxLength long) :
    n.toUInt16.toNat = n := by
  have := maxLength_le long
  rw [UInt16.toNat_ofNat']
  exact Nat.mod_eq_of_lt (by omega)

/-! ## The encoder writes items -/

/-- What a caller of the encoder passes. -/
inductive Arg
  | uint8 (v : UInt8)
  | int8 (v : Int8)
  | uint16 (v : UInt16)
  | length (v : UInt16)
  | uint32 (v : UInt32)
  | buffer (data : Option Mem) (size : UInt16)

/-- The bytes of a buffer: zeros where `data` is null. -/
def dataBytes (data : Option Mem) (size : UInt16) : List UInt8 :=
  match data with
  | some p => p.read 0 size.toNat
  | none => List.replicate size.toNat 0

/-- The item an argument stands for. -/
def Arg.item : Arg → Item
  | uint8 v => .uint8 v
  | int8 v => .int8 v
  | uint16 v => .uint16 v
  | length v => .length v
  | uint32 v => .uint32 v
  | buffer data size => .buffer (dataBytes data size)

/-- The argument, as it arrives. -/
def Arg.passed : Arg → List VaArg
  | uint8 v => [.unsignedInt v.toUInt32]
  | int8 v => [.int v.toInt32]
  | uint16 v => [.unsignedInt v.toUInt32]
  | length v => [.unsignedInt v.toUInt32]
  | uint32 v => [.unsignedInt v]
  | buffer data size => [.data data, .int size.toUInt32.toInt32]

@[simp] theorem length_dataBytes (data : Option Mem) (size : UInt16) :
    (dataBytes data size).length = size.toNat := by
  cases data <;> simp [dataBytes]

theorem put16_eq (w : Output) (v : UInt16) : w.put16 v = w.put (highLowBytes16 v) := by
  rw [Output.put16, emberStoreHighLowInt16u_eq]
  rfl

theorem put32_eq (w : Output) (v : UInt32) : w.put32 v = w.put (highLowBytes32 v) := by
  rw [Output.put32, emberStoreHighLowInt32u_eq]
  rfl

theorem put_append (w : Output) (xs ys : List UInt8) : (w.put xs).put ys = w.put (xs ++ ys) := by
  unfold Output.put
  rw [Memory.write_append, List.length_append, Nat.add_assoc]

theorem and_0xFF_toUInt8 (v : UInt16) : (v &&& 0xFF).toUInt8 = v.toUInt8 := by
  apply UInt8.toNat_inj.mp
  have h : UInt16.toNat 0xFF = 2 ^ 8 - 1 := rfl
  simp only [UInt16.toNat_toUInt8, UInt16.toNat_and, h, Nat.and_two_pow_sub_one_eq_mod, Nat.mod_mod]

/-- The sign extension of the promotion is cut off again. -/
theorem toInt32_toUInt8 (v : Int8) : v.toInt32.toUInt32.toUInt8 = v.toUInt8 := by
  apply UInt8.toBitVec_inj.mp
  have h : (v.toBitVec.signExtend 32).setWidth 8 = v.toBitVec := by
    refine BitVec.eq_of_getElem_eq fun i hi => ?_
    rw [BitVec.getElem_setWidth, BitVec.getLsbD_signExtend]
    have hi' : i < 32 := by omega
    simp [hi, hi']
  exact h

theorem putLength_eq (long : Bool) (w : Output) (n : UInt16) :
    w.putLength long n = w.put (lengthBytes long n) := by
  unfold Output.putLength lengthBytes
  cases long with
  | false => rw [and_0xFF_toUInt8]; rfl
  | true => exact put16_eq w n

theorem putData_eq (w : Output) (data : Option Mem) (size : UInt16) :
    w.putData data size = w.put (dataBytes data size) := by
  unfold Output.putData Output.put
  rw [length_dataBytes]
  split_ifs with h
  · cases data <;> rfl
  · have h0 : size.toNat = 0 := Nat.le_zero.mp (UInt16.le_iff_toNat_le.mp (UInt16.not_lt.mp h))
    have hnil : dataBytes data size = [] := List.eq_nil_of_length_eq_zero (by simpa using h0)
    rw [hnil, Memory.write_nil]

/-- **The encoder appends the bytes of the item.** -/
theorem formatArgument_eq (long : Bool) (a : Arg) (w : Output) (args : List VaArg) :
    formatArgument long a.item.kind.char w (a.passed ++ args) =
      some (w.put (a.item.wire long), args) := by
  cases a with
  | uint8 v => simp [formatArgument, Arg.item, Arg.passed, Item.kind, Kind.char, Item.wire]
  | int8 v =>
    simp [formatArgument, Arg.item, Arg.passed, Item.kind, Kind.char, Item.wire,
      toInt32_toUInt8]
  | uint16 v =>
    simp [formatArgument, Arg.item, Arg.passed, Item.kind, Kind.char, Item.wire, put16_eq]
  | length v =>
    have h := putLength_eq long w v
    rw [Output.putLength, and_0xFF_toUInt8] at h
    show some (if long then w.put16 v.toUInt32.toUInt16
      else w.put [(v.toUInt32 &&& 0xFF).toUInt8], args) = _
    rw [toUInt8_and, UInt16.toUInt16_toUInt32, UInt16.toUInt8_toUInt32, h]
    rfl
  | uint32 v =>
    simp [formatArgument, Arg.item, Arg.passed, Item.kind, Kind.char, Item.wire, put32_eq]
  | buffer data size =>
    simp [formatArgument, Arg.item, Arg.passed, Item.kind, Kind.char, Item.wire, putLength_eq,
      putData_eq, put_append]

/-! ## The decoder stores items -/

/-- What a caller of the decoder passes: a pointer, and for a buffer also the width of the length
variable and the capacity. -/
inductive Dest
  | scalar (isNull : Bool)
  | buffer (isNull : Bool) (isUint8 : UInt32) (available : UInt16)

/-- The destination, as it arrives. -/
def Dest.passed : Dest → List VaArg
  | scalar isNull => [.out isNull]
  | buffer isNull isUint8 available =>
    [.out isNull, .unsignedInt isUint8, .out false, .unsignedInt available.toUInt32]

/-- A destination the item can be stored in: the pointers the code does not test are not null, and
the 8-bit length variable is used for sizes up to 255 only. -/
def Dest.Takes (long : Bool) (f : Item) : Dest → Prop
  | scalar isNull =>
    match f with
    | .uint16 _ => isNull = false
    | .length _ => long = true → isNull = false
    | .buffer _ => False
    | _ => True
  | buffer _ isUint8 _ =>
    match f with
    | .buffer bytes => isUint8.toUInt8 ≠ 0 → bytes.length ≤ 255
    | _ => False

/-- A destination that receives the whole item: nothing is null, and the capacity suffices. -/
def Dest.Receives (long : Bool) (f : Item) (d : Dest) : Prop :=
  d.Takes long f ∧
    match d with
    | scalar isNull => isNull = false
    | buffer isNull _ available => isNull = false ∧ f.size ≤ available.toNat

/-- What the decoder is to store of an item: of a buffer of `n` bytes, `min n c` and the first
`min n c` bytes, where `c` is the capacity. -/
def stored (f : Item) (d : Dest) : Store :=
  match f, d with
  | .uint8 v, .scalar isNull => .uint8 (unlessNull isNull v)
  | .int8 v, .scalar isNull => .uint8 (unlessNull isNull v.toUInt8)
  | .uint16 v, .scalar isNull => .uint16 (unlessNull isNull v)
  | .length v, .scalar isNull => .uint16 (unlessNull isNull v)
  | .uint32 v, .scalar isNull => .uint32 (unlessNull isNull v)
  | .buffer bytes, .buffer isNull _ available =>
    .buffer (min bytes.length available.toNat).toUInt16
      (unlessNull isNull (bytes.take (min bytes.length available.toNat)))
  | _, _ => .nothing

theorem toUInt16_toUInt8_of_le {n : UInt16} (h : n.toNat ≤ 255) : n.toUInt8.toUInt16 = n := by
  apply UInt16.toNat_inj.mp
  rw [UInt8.toNat_toUInt16, UInt16.toNat_toUInt8]
  exact Nat.mod_eq_of_lt (by omega)

/-- A length is read back. -/
theorem fetchLength_eq {long : Bool} {m : Mem} {p : ℕ} {n : UInt16} (hn : n.toNat ≤ maxLength long)
    (h : m.read p (lengthBytes long n).length = lengthBytes long n) :
    fetchLength long m p = (n, p + (lengthBytes long n).length) := by
  unfold fetchLength
  cases long with
  | true => exact Prod.ext (fetch_of_read16 h) rfl
  | false =>
    have h' : m p = n.toUInt8 := by simpa [lengthBytes, Memory.read_succ] using h
    rw [h']
    exact Prod.ext (toUInt16_toUInt8_of_le hn) rfl

theorem storedLength_eq {isUint8 : UInt8} {n available : UInt16}
    (h : isUint8 ≠ 0 → n.toNat ≤ 255) :
    storedLength isUint8 n available = (min n.toNat available.toNat).toUInt16 := by
  have hmin : (if n > available then available else n) = (min n.toNat available.toNat).toUInt16 := by
    apply UInt16.toNat_inj.mp
    have hn := n.toNat_lt
    rw [UInt16.toNat_ofNat', Nat.mod_eq_of_lt (by omega)]
    split_ifs with hgt
    · have := UInt16.lt_iff_toNat_lt.mp hgt; omega
    · have := UInt16.le_iff_toNat_le.mp (UInt16.not_lt.mp hgt); omega
  rw [← hmin]
  unfold storedLength
  by_cases hi : isUint8 = 0
  · simp [hi]
  · have h255 := h hi
    rw [if_pos hi]
    dsimp only
    rw [and_0xFF_toUInt8, toUInt16_toUInt8_of_le h255]
    split_ifs with hgt
    · have := UInt16.lt_iff_toNat_lt.mp hgt
      exact toUInt16_toUInt8_of_le (by omega)
    · rfl

/-- A buffer whose bytes stand at `p` is stored, as far as the capacity goes. -/
theorem fetchBuffer_eq {long : Bool} {m : Mem} {p : ℕ} {bytes : List UInt8} {isNull : Bool}
    {isUint8 : UInt32} {available : UInt16} (args : List VaArg)
    (hfit : bytes.length ≤ maxLength long) (h8 : isUint8.toUInt8 ≠ 0 → bytes.length ≤ 255)
    (h : m.read p ((Item.buffer bytes).wire long).length = (Item.buffer bytes).wire long) :
    fetchBuffer long m isNull p
      (.unsignedInt isUint8 :: .out false :: .unsignedInt available.toUInt32 :: args) =
      some (stored (.buffer bytes) (.buffer isNull isUint8 available),
        p + ((Item.buffer bytes).wire long).length, args) := by
  have hn := toNat_toUInt16_of_le hfit
  rw [Item.wire, List.length_append, Memory.read_add] at h
  obtain ⟨hlen, hbytes⟩ := List.append_inj h (by simp)
  have hmoved : ((if bytes.length.toUInt16 ≤ available then bytes.length.toUInt16
      else available).toNat) = min bytes.length available.toNat := by
    split_ifs with hle
    · have := UInt16.le_iff_toNat_le.mp hle; omega
    · have := UInt16.lt_iff_toNat_lt.mp (UInt16.not_le.mp hle); omega
  have htake : m.read (p + (lengthBytes long bytes.length.toUInt16).length)
      (min bytes.length available.toNat) = bytes.take (min bytes.length available.toNat) := by
    rw [← Memory.take_read m _ bytes.length _ (by omega), hbytes]
  simp only [fetchBuffer, fetchLength_eq (hn.trans_le hfit) hlen, UInt16.toUInt16_toUInt32,
    storedLength_eq (fun h => hn.trans_le (h8 h)), hmoved, htake, stored, hn, Item.wire,
    List.length_append, Nat.add_assoc]

/-- **Where the bytes of an item stand, the decoder stores it and moves behind it.** -/
theorem fetchParam_eq {long : Bool} {m : Mem} {p : ℕ} {f : Item} {d : Dest} (args : List VaArg)
    (hfit : f.Fits long) (hd : d.Takes long f)
    (h : m.read p (f.wire long).length = f.wire long) :
    fetchParam long m f.kind.char p (d.passed ++ args) =
      some (stored f d, p + (f.wire long).length, args) := by
  cases d with
  | buffer isNull isUint8 available =>
    cases f with
    | buffer bytes => exact fetchBuffer_eq args hfit hd h
    | _ => exact absurd hd id
  | scalar isNull =>
    cases f with
    | uint8 v =>
      have hv : m p = v := by simpa [Item.wire, Memory.read_succ] using h
      rw [← hv]; rfl
    | int8 v =>
      have hv : m p = v.toUInt8 := by simpa [Item.wire, Memory.read_succ] using h
      rw [stored, ← hv]; rfl
    | uint16 v =>
      obtain rfl : isNull = false := hd
      have hv : emberFetchHighLowInt16u m p = v := fetch_of_read16 h
      rw [stored, ← hv]; rfl
    | uint32 v =>
      have hv : emberFetchHighLowInt32u m p = v := fetch_of_read32 h
      rw [stored, ← hv]; rfl
    | length v =>
      have hv : (fetchLength long m p).1 = v := congrArg Prod.fst (fetchLength_eq hfit h)
      cases long with
      | true =>
        obtain rfl : isNull = false := hd rfl
        rw [stored, ← hv]; rfl
      | false => rw [stored, ← hv]; rfl
    | buffer bytes => exact absurd hd id

/-! ## Every memory holds items -/

/-- The item of a kind that stands at `p`. -/
def itemAt (long : Bool) (m : Mem) (p : ℕ) : Kind → Item
  | .uint8 => .uint8 (m p)
  | .int8 => .int8 (m p).toInt8
  | .uint16 => .uint16 (emberFetchHighLowInt16u m p)
  | .length => .length (fetchLength long m p).1
  | .uint32 => .uint32 (emberFetchHighLowInt32u m p)
  | .buffer => .buffer (m.read (fetchLength long m p).2 (fetchLength long m p).1.toNat)

/-- The items that stand one after another from `p` on. -/
def itemsAt (long : Bool) (m : Mem) : ℕ → List Kind → List Item
  | _, [] => []
  | p, k :: ks =>
    itemAt long m p k :: itemsAt long m (p + ((itemAt long m p k).wire long).length) ks

theorem kind_itemAt (long : Bool) (m : Mem) (p : ℕ) (k : Kind) : (itemAt long m p k).kind = k := by
  cases k <;> rfl

theorem read_fetchLength (long : Bool) (m : Mem) (p : ℕ) :
    m.read p (lengthBytes long (fetchLength long m p).1).length =
        lengthBytes long (fetchLength long m p).1 ∧
      (fetchLength long m p).2 = p + (lengthBytes long (fetchLength long m p).1).length ∧
      (fetchLength long m p).1.toNat ≤ maxLength long := by
  cases long with
  | true => exact ⟨(read_of_fetch16 m p).symm, rfl, Nat.le_of_lt_succ (UInt16.toNat_lt _)⟩
  | false =>
    refine ⟨?_, rfl, ?_⟩
    · show [m p] = [(m p).toUInt16.toUInt8]
      simp
    · show (m p).toUInt16.toNat ≤ 255
      have := (m p).toNat_lt
      rw [UInt8.toNat_toUInt16]
      omega

theorem fits_itemAt (long : Bool) (m : Mem) (p : ℕ) (k : Kind) : (itemAt long m p k).Fits long := by
  have h := (read_fetchLength long m p).2.2
  cases k with
  | length => exact h
  | buffer => simpa [itemAt, Item.Fits] using h
  | _ => trivial

/-- **The bytes of the item that stands at `p` are those at `p`.** -/
theorem read_itemAt (long : Bool) (m : Mem) (p : ℕ) (k : Kind) :
    m.read p ((itemAt long m p k).wire long).length = (itemAt long m p k).wire long := by
  obtain ⟨hread, hnext, -⟩ := read_fetchLength long m p
  cases k with
  | uint8 => rfl
  | int8 => simp [itemAt, Item.wire, Memory.read_succ]
  | uint16 => exact (read_of_fetch16 m p).symm
  | length => exact hread
  | uint32 => exact (read_of_fetch32 m p).symm
  | buffer =>
    rw [itemAt, Item.wire, Memory.length_read, List.length_append, Memory.length_read,
      Memory.read_add]
    have hn : (fetchLength long m p).1.toNat.toUInt16 = (fetchLength long m p).1 := by simp
    rw [hn, hread, hnext]

end ConnectNcpHost.Csp.Codec
