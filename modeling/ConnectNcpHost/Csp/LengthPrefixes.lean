import ConnectNcpHost.Csp.RoundTrip

/-! # The lengths a command carries

`formatResponseCommandFromArgList` checks that the command fits its buffer, and does not check that a
length fits its prefix. In the short mode the prefix keeps the low byte of the length, and as many
bytes as the length says are copied behind it. What a command says about its own layout is true
exactly when every length fits the mode (`honestPrefixes_iff`).

* `fieldAddress`: where the encoder put an argument.
* `HonestPrefixes`: every length in the command is the one given, and a decoder in the same mode
  finds every field.
* `emberMessageSendArguments`: the arguments of the one command whose lengths the application
  chooses. -/

namespace ConnectNcpHost.Csp.LengthPrefixes

open ConnectNcpHost.Lib.Bytes ConnectNcpHost.Stack.ByteUtilities
open ConnectNcpHost.Csp.Format ConnectNcpHost.Csp.Codec ConnectNcpHost.Csp.RoundTrip

variable {long : Bool} {m : Mem} {p : ℕ}

/-! ## What was written -/

/-- The address of the argument with the index `i`, behind the identifier. -/
def fieldAddress (long : Bool) (as : List Arg) (i : ℕ) : ℕ :=
  2 + (wire long ((as.take i).map Arg.item)).length

/-- **What a normal return has written**: the identifier and the bytes of the items. -/
theorem read_of_returned {buffer : Mem} {bufferSize identifier length : UInt16} {as : List Arg}
    (h : formatResponseCommandFromArgList long buffer bufferSize identifier
      (format (as.map Arg.item)) (as.flatMap Arg.passed) = some (m, length)) :
    m.read 2 (wire long (as.map Arg.item)).length = wire long (as.map Arg.item) := by
  unfold formatResponseCommandFromArgList at h
  dsimp only at h
  rw [put16_eq, formatArguments_eq, put_append, Option.bind_eq_bind, Option.bind_some] at h
  split_ifs at h with hlength
  obtain ⟨rfl, -⟩ := Prod.mk.inj (Option.some.inj h)
  have hread := Memory.read_write_same (memset buffer 0 0 bufferSize.toNat) 0
    (highLowBytes16 identifier ++ wire long (as.map Arg.item))
  rw [List.length_append, Memory.read_add] at hread
  exact (List.append_inj hread (by simp)).2

/-- The bytes of a list of items, and of the one with the index `i` among them. -/
theorem read_item : ∀ {as : List Arg} {p i : ℕ} {a : Arg},
    m.read p (wire long (as.map Arg.item)).length = wire long (as.map Arg.item) →
    as[i]? = some a →
    m.read (p + (wire long ((as.take i).map Arg.item)).length) (a.item.wire long).length =
      a.item.wire long
  | [], _, _, _, _, hi => by cases hi
  | b :: as, p, i, a, h, hi => by
    rw [List.map_cons, wire_cons, List.length_append, Memory.read_add] at h
    obtain ⟨hb, has⟩ := List.append_inj h (by simp)
    cases i with
    | zero =>
      obtain rfl : b = a := by simpa using hi
      exact hb
    | succ i =>
      have ih := read_item has (by simpa using hi : as[i]? = some a)
      rw [List.take_succ_cons, List.map_cons, wire_cons, List.length_append, ← Nat.add_assoc]
      exact ih

/-! ## Honest prefixes -/

/-- What the command says about the argument that stands at `p`: an `l` holds the value given, the
prefix of a `b` is the number of the bytes stored behind it. -/
def HonestAt (long : Bool) (m : Mem) (p : ℕ) : Arg → Prop
  | .length v => (fetchLength long m p).1 = v
  | .buffer data size => (fetchLength long m p).1 = size ∧
      m.read (fetchLength long m p).2 size.toNat = dataBytes data size
  | _ => True

/-- The command tells its own layout. -/
structure HonestPrefixes (long : Bool) (as : List Arg) (m : Mem) : Prop where
  lengths : ∀ i a, as[i]? = some a → HonestAt long m (fieldAddress long as i) a
  /-- a decoder in the same mode finds every field, and ends where the encoder did -/
  decode : ∀ ds, List.Forall₂ (fun a d => Dest.Takes long a.item d) as ds →
    fetchParams long m (format (as.map Arg.item)) 2 (ds.flatMap Dest.passed) =
      some (List.zipWith stored (as.map Arg.item) ds, fieldAddress long as as.length)

/-- A prefix that was read fits the mode, so what it tells the truth about does. -/
theorem fits_of_honestAt {a : Arg} (h : HonestAt long m p a) : a.item.Fits long := by
  have hle := (read_fetchLength long m p).2.2
  cases a with
  | length v =>
    have hv : (fetchLength long m p).1 = v := h
    rw [hv] at hle
    exact hle
  | buffer data size =>
    have hv : (fetchLength long m p).1 = size := h.1
    rw [hv] at hle
    show (dataBytes data size).length ≤ maxLength long
    rwa [length_dataBytes]
  | _ => trivial

/-- Where the bytes of an item stand whose lengths fit, its prefix tells the truth. -/
theorem honestAt_of_fits {a : Arg} (hfit : a.item.Fits long)
    (h : m.read p (a.item.wire long).length = a.item.wire long) : HonestAt long m p a := by
  cases a with
  | length v => exact congrArg Prod.fst (fetchLength_eq hfit h)
  | buffer data size =>
    have hsize : (dataBytes data size).length.toUInt16 = size := by
      rw [length_dataBytes]
      exact UInt16.ofNat_toNat
    have hle : size.toNat ≤ maxLength long := by
      have := hfit
      rwa [Arg.item, Item.Fits, length_dataBytes] at this
    rw [Arg.item, Item.wire, hsize, List.length_append, length_dataBytes, Memory.read_add] at h
    obtain ⟨hlen, hbytes⟩ := List.append_inj h (by simp)
    have hfetch := fetchLength_eq hle hlen
    refine ⟨congrArg Prod.fst hfetch, ?_⟩
    rw [hfetch]
    exact hbytes
  | _ => trivial

/-- A command that tells its layout was given lengths that fit. -/
theorem fits_of_honest {as : List Arg} (h : HonestPrefixes long as m) :
    ∀ a ∈ as, a.item.Fits long := by
  intro a ha
  obtain ⟨i, hi⟩ := List.getElem?_of_mem ha
  exact fits_of_honestAt (h.lengths i a hi)

/-- Lengths that fit give a command that tells its layout. -/
theorem honest_of_fits {as : List Arg}
    (hread : m.read 2 (wire long (as.map Arg.item)).length = wire long (as.map Arg.item))
    (hfit : ∀ a ∈ as, a.item.Fits long) : HonestPrefixes long as m where
  lengths i a hi := honestAt_of_fits (hfit a (List.mem_of_getElem? hi)) (read_item hread hi)
  decode ds hds := by
    have hitems : ∀ f ∈ as.map Arg.item, f.Fits long := by
      intro f hf
      obtain ⟨a, ha, rfl⟩ := List.mem_map.mp hf
      exact hfit a ha
    rw [fieldAddress, List.take_length]
    exact fetchParams_eq hitems (List.forall₂_map_left_iff.mpr hds) hread

/-- **A command that was formatted tells its layout exactly when every `l` value and every `b` size
fits the prefix of the mode**: always in the long mode, up to 255 in the short one. -/
theorem honestPrefixes_iff {buffer : Mem} {bufferSize identifier length : UInt16} {as : List Arg}
    (h : formatResponseCommandFromArgList long buffer bufferSize identifier
      (format (as.map Arg.item)) (as.flatMap Arg.passed) = some (m, length)) :
    HonestPrefixes long as m ↔ ∀ a ∈ as, a.item.Fits long :=
  ⟨fits_of_honest, honest_of_fits (read_of_returned h)⟩

/-- A buffer of two bytes in the short mode, read from the memory it was formatted into. -/
theorem honestPrefixes_iff_two : ∃ (m : Mem) (length : UInt16),
    formatResponseCommandFromArgList false (fun _ => 0) 8 0x6901
      (format (([.buffer none 2, .uint8 7] : List Arg).map Arg.item))
      (([.buffer none 2, .uint8 7] : List Arg).flatMap Arg.passed) = some (m, length) ∧
    (HonestPrefixes false [.buffer none 2, .uint8 7] m ↔
      ∀ a ∈ ([.buffer none 2, .uint8 7] : List Arg), a.item.Fits false) := by
  have hsize : 2 + (wire false (([.buffer none 2, .uint8 7] : List Arg).map Arg.item)).length ≤
      (8 : UInt16).toNat := by decide
  obtain ⟨m, length, h, -⟩ := formatResponseCommandFromArgList_eq (fun _ => 0) 0x6901 hsize
  exact ⟨m, length, h, honestPrefixes_iff h⟩

/-! ## The command that sends a message -/

/-- The arguments `emberMessageSend` passes to `formatResponseCommand`, with the format `"vuulbu"`. -/
def emberMessageSendArguments (destination : UInt16) (endpoint messageTag : UInt8)
    (messageLength : UInt16) (message : Option Mem) (options : UInt8) : List Arg :=
  [.uint16 destination, .uint8 endpoint, .uint8 messageTag, .length messageLength,
    .buffer message messageLength, .uint8 options]

theorem format_emberMessageSend (destination : UInt16) (endpoint messageTag : UInt8)
    (messageLength : UInt16) (message : Option Mem) (options : UInt8) :
    format ((emberMessageSendArguments destination endpoint messageTag messageLength message
      options).map Arg.item) = ['v', 'u', 'u', 'l', 'b', 'u'] := rfl

/-- The command of `emberMessageSend` tells its layout in the long mode, and for messages of up to
255 bytes in the short one. -/
theorem fits_emberMessageSend_iff (long : Bool) (destination : UInt16) (endpoint messageTag : UInt8)
    (messageLength : UInt16) (message : Option Mem) (options : UInt8) :
    (∀ a ∈ emberMessageSendArguments destination endpoint messageTag messageLength message options,
      a.item.Fits long) ↔ messageLength.toNat ≤ maxLength long := by
  simp [emberMessageSendArguments, Arg.item, Item.Fits]

/-- **A message of 256 bytes in the short mode**: the command says that it has none. -/
theorem dishonest_message : ¬ ∀ (long : Bool) (buffer m : Mem)
    (bufferSize identifier length : UInt16) (as : List Arg),
    formatResponseCommandFromArgList long buffer bufferSize identifier
      (format (as.map Arg.item)) (as.flatMap Arg.passed) = some (m, length) →
    HonestPrefixes long as m := by
  intro h
  have hsize : 2 + (wire false ((emberMessageSendArguments 5 1 0 256 none 0).map Arg.item)).length ≤
      (2096 : UInt16).toNat := by decide +kernel
  obtain ⟨m, length, hrun, -⟩ := formatResponseCommandFromArgList_eq (fun _ => 0) 0x6916 hsize
  have hfit := fits_of_honest (h false _ m _ _ length _ hrun)
  rw [fits_emberMessageSend_iff] at hfit
  exact absurd hfit (by decide)

end ConnectNcpHost.Csp.LengthPrefixes
