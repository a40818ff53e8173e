import ConnectNcpHost.Csp.Codec
import Mathlib.Data.List.Forall2

/-! # Encoder and decoder undo each other

The loops of `csp-format.c`, from the lemmas about one item. What
`formatResponseCommandFromArgList` has written, `fetchParams` reads, and what `fetchParams` has read
exactly, `formatResponseCommandFromArgList` writes again (`roundTrips`).

* `formatResponseCommandFromArgList_eq`: the command is its identifier and the bytes of its items.
* `fetchParams_eq`: where the bytes of a list of items stand, the decoder stores them.
* `item_of_passes`: the variables filled by the decoder hold the item. -/

namespace ConnectNcpHost.Csp.RoundTrip

open ConnectNcpHost.Lib.Bytes ConnectNcpHost.Stack.ByteUtilities
open ConnectNcpHost.Csp.Format ConnectNcpHost.Csp.Codec

variable {long : Bool} {m : Mem} {p : ℕ}

/-! ## The loops -/

/-- The characters of the items. -/
def format (fs : List Item) : List Char := fs.map fun f => f.kind.char

/-- The encoder appends the bytes of the items. -/
theorem formatArguments_eq (long : Bool) : ∀ (as : List Arg) (w : Output),
    formatArguments long (format (as.map Arg.item)) w (as.flatMap Arg.passed) =
      some (w.put (wire long (as.map Arg.item)))
  | [], w => by
    show some w = some (w.put [])
    rw [Output.put, Memory.write_nil]
    rfl
  | a :: as, w => by
    have h := formatArgument_eq long a w (as.flatMap Arg.passed)
    have ih := formatArguments_eq long as (w.put (a.item.wire long))
    rw [put_append] at ih
    show (formatArgument long a.item.kind.char w (a.passed ++ as.flatMap Arg.passed)).bind
      (fun r => formatArguments long (format (as.map Arg.item)) r.1 r.2) = _
    rw [h]
    exact ih

/-- **The command**: its identifier, and the bytes of its items. -/
theorem formatResponseCommandFromArgList_eq (buffer : Mem) {bufferSize : UInt16}
    (identifier : UInt16) {as : List Arg}
    (hsize : 2 + (wire long (as.map Arg.item)).length ≤ bufferSize.toNat) :
    ∃ m length, formatResponseCommandFromArgList long buffer bufferSize identifier
        (format (as.map Arg.item)) (as.flatMap Arg.passed) = some (m, length) ∧
      length.toNat = 2 + (wire long (as.map Arg.item)).length ∧
      m.read 0 length.toNat = highLowBytes16 identifier ++ wire long (as.map Arg.item) := by
  have hlt := bufferSize.toNat_lt
  set frame := highLowBytes16 identifier ++ wire long (as.map Arg.item) with hframe
  have hlen : frame.length = 2 + (wire long (as.map Arg.item)).length := by
    rw [hframe, List.length_append, length_highLowBytes16]
  have hto : frame.length.toUInt16.toNat = frame.length := by
    rw [UInt16.toNat_ofNat']
    exact Nat.mod_eq_of_lt (by omega)
  have hrun : formatResponseCommandFromArgList long buffer bufferSize identifier
      (format (as.map Arg.item)) (as.flatMap Arg.passed) =
      some ((memset buffer 0 0 bufferSize.toNat).write 0 frame, frame.length.toUInt16) := by
    have hle : ¬ frame.length.toUInt16 > bufferSize :=
      UInt16.not_lt.mpr (UInt16.le_iff_toNat_le.mpr (by omega))
    unfold formatResponseCommandFromArgList
    dsimp only
    rw [put16_eq, formatArguments_eq, put_append, ← hframe]
    simp only [Output.put, Nat.zero_add, Option.bind_eq_bind, Option.bind_some, hle, if_false]
  refine ⟨_, _, hrun, by omega, ?_⟩
  rw [hto]
  exact Memory.read_write_same _ _ _

/-- **The decoder stores the items whose bytes stand at `p`**, and ends behind them. -/
theorem fetchParams_eq : ∀ {fs : List Item} {ds : List Dest} {p : ℕ}, (∀ f ∈ fs, f.Fits long) →
    List.Forall₂ (fun f d => Dest.Takes long f d) fs ds →
    m.read p (wire long fs).length = wire long fs →
    fetchParams long m (format fs) p (ds.flatMap Dest.passed) =
      some (List.zipWith stored fs ds, p + (wire long fs).length)
  | [], _, p, _, .nil, _ => rfl
  | f :: fs, d :: ds, p, hfit, .cons hd hds, h => by
    rw [wire_cons, List.length_append, Memory.read_add] at h
    obtain ⟨hf, hfs⟩ := List.append_inj h (by simp)
    have h1 := fetchParam_eq (ds.flatMap Dest.passed) (hfit f List.mem_cons_self) hd hf
    have ih := fetchParams_eq (fun f' hf' => hfit f' (List.mem_cons_of_mem f hf')) hds hfs
    show (fetchParam long m f.kind.char p (d.passed ++ ds.flatMap Dest.passed)).bind
      (fun r => (fetchParams long m (format fs) r.2.1 r.2.2).bind
        fun q => some (r.1 :: q.1, q.2)) = _
    rw [h1, Option.bind_some, ih, Option.bind_some, wire_cons, List.length_append, Nat.add_assoc]
    rfl

/-! ## Decoded values -/

theorem read_itemsAt (long : Bool) (m : Mem) : ∀ (ks : List Kind) (p : ℕ),
    m.read p (wire long (itemsAt long m p ks)).length = wire long (itemsAt long m p ks)
  | [], p => rfl
  | k :: ks, p => by
    rw [itemsAt, wire_cons, List.length_append, Memory.read_add, read_itemAt, read_itemsAt long m ks]

theorem fits_itemsAt (long : Bool) (m : Mem) : ∀ (ks : List Kind) (p : ℕ),
    ∀ f ∈ itemsAt long m p ks, f.Fits long
  | [], _ => by simp [itemsAt]
  | k :: ks, p => by
    intro f hf
    rcases List.mem_cons.mp hf with rfl | hf
    · exact fits_itemAt long m p k
    · exact fits_itemsAt long m ks _ f hf

theorem kind_itemsAt (long : Bool) (m : Mem) : ∀ (ks : List Kind) (p : ℕ),
    (itemsAt long m p ks).map Item.kind = ks
  | [], _ => rfl
  | k :: ks, p => by
    rw [itemsAt, List.map_cons, kind_itemAt, kind_itemsAt long m ks]

/-- The variables that were filled are passed to the encoder. -/
inductive Passes : Store → Arg → Prop
  | uint8 (v : UInt8) : Passes (.uint8 (some v)) (.uint8 v)
  | int8 (v : UInt8) : Passes (.uint8 (some v)) (.int8 v.toInt8)
  | uint16 (v : UInt16) : Passes (.uint16 (some v)) (.uint16 v)
  | length (v : UInt16) : Passes (.uint16 (some v)) (.length v)
  | uint32 (v : UInt32) : Passes (.uint32 (some v)) (.uint32 v)
  /-- the array may be longer than what was stored in it -/
  | buffer {length : UInt16} {bytes : List UInt8} {array : Mem}
      (h : array.read 0 bytes.length = bytes) :
      Passes (.buffer length (some bytes)) (.buffer (some array) length)

/-- **The variables the decoder has filled hold the item.** -/
theorem item_of_passes {f : Item} {d : Dest} {a : Arg} (hfit : f.Fits long)
    (hd : d.Receives long f) (h : Passes (stored f d) a) (hk : a.item.kind = f.kind) :
    a.item = f := by
  obtain ⟨ht, hr⟩ := hd
  cases d with
  | scalar isNull =>
    obtain rfl : isNull = false := hr
    cases f with
    | buffer bytes => exact absurd ht id
    | _ => cases h <;> simp_all [Arg.item, Item.kind]
  | buffer isNull isUint8 available =>
    obtain ⟨rfl, hsize⟩ := hr
    cases f with
    | buffer bytes =>
      have hmin : min bytes.length available.toNat = bytes.length := min_eq_left hsize
      have hn := toNat_toUInt16_of_le hfit
      rw [stored, hmin, List.take_length] at h
      cases h with
      | buffer h =>
        show Item.buffer (Memory.read _ 0 bytes.length.toUInt16.toNat) = _
        rw [hn, h]
    | _ => exact absurd ht id

theorem items_of_passes : ∀ {fs : List Item} {ds : List Dest} {as : List Arg},
    (∀ f ∈ fs, f.Fits long) → List.Forall₂ (fun f d => Dest.Receives long f d) fs ds →
    List.Forall₂ Passes (List.zipWith stored fs ds) as →
    as.map (fun a => a.item.kind) = fs.map Item.kind → as.map Arg.item = fs
  | [], [], [], _, .nil, .nil, _ => rfl
  | f :: fs, d :: ds, a :: as, hfit, .cons hd hds, .cons ha has, hk => by
    obtain ⟨hk1, hks⟩ := List.cons.inj hk
    rw [List.map_cons, item_of_passes (hfit f List.mem_cons_self) hd ha hk1,
      items_of_passes (fun f' hf' => hfit f' (List.mem_cons_of_mem f hf')) hds has hks]

/-! ## The round trip -/

/-- The codec in one mode. -/
structure RoundTrips (long : Bool) : Prop where
  /-- What was encoded is decoded: every scalar as it was, of every buffer as much as its destination
  takes, and the read pointer ends at the length of the command. -/
  decode : ∀ (as : List Arg) (ds : List Dest) (buffer : Mem) (bufferSize identifier : UInt16),
    (∀ a ∈ as, a.item.Fits long) →
    2 + (wire long (as.map Arg.item)).length ≤ bufferSize.toNat →
    List.Forall₂ (fun a d => Dest.Takes long a.item d) as ds →
    ∃ m length, formatResponseCommandFromArgList long buffer bufferSize identifier
        (format (as.map Arg.item)) (as.flatMap Arg.passed) = some (m, length) ∧
      fetchParams long m (format (as.map Arg.item)) 2 (ds.flatMap Dest.passed) =
        some (List.zipWith stored (as.map Arg.item) ds, length.toNat)
  /-- A frame that parses exactly, into variables that hold all of it, is encoded again. -/
  encode : ∀ (frame : List UInt8) (m : Mem) (ks : List Kind) (ds : List Dest)
      (stores : List Store) (as : List Arg) (buffer : Mem) (bufferSize : UInt16),
    m.read 0 frame.length = frame → frame.length ≤ bufferSize.toNat →
    fetchParams long m (ks.map Kind.char) 2 (ds.flatMap Dest.passed) =
      some (stores, frame.length) →
    List.Forall₂ (fun x d => Dest.Receives long x d) (itemsAt long m 2 ks) ds →
    List.Forall₂ Passes stores as → as.map (fun a => a.item.kind) = ks →
    ∃ m' length, formatResponseCommandFromArgList long buffer bufferSize
        (emberFetchHighLowInt16u m 0) (ks.map Kind.char) (as.flatMap Arg.passed) =
          some (m', length) ∧
      m'.read 0 length.toNat = frame

/-- The decoder on the memory the encoder has filled. -/
theorem decode_encoded {as : List Arg} {ds : List Dest} {buffer : Mem}
    {bufferSize identifier : UInt16} (hfit : ∀ a ∈ as, a.item.Fits long)
    (hsize : 2 + (wire long (as.map Arg.item)).length ≤ bufferSize.toNat)
    (hd : List.Forall₂ (fun a d => Dest.Takes long a.item d) as ds) :
    ∃ m length, formatResponseCommandFromArgList long buffer bufferSize identifier
        (format (as.map Arg.item)) (as.flatMap Arg.passed) = some (m, length) ∧
      fetchParams long m (format (as.map Arg.item)) 2 (ds.flatMap Dest.passed) =
        some (List.zipWith stored (as.map Arg.item) ds, length.toNat) := by
  obtain ⟨m, length, hrun, hlen, hread⟩ :=
    formatResponseCommandFromArgList_eq buffer identifier hsize
  refine ⟨m, length, hrun, ?_⟩
  rw [hlen, Memory.read_add] at hread
  obtain ⟨-, hitems⟩ := List.append_inj hread (by simp)
  rw [hlen]
  refine fetchParams_eq (fun x hx => ?_) (List.forall₂_map_left_iff.mpr hd) hitems
  obtain ⟨a, ha, rfl⟩ := List.mem_map.mp hx
  exact hfit a ha

/-- The encoder on what the decoder has stored. -/
theorem encode_decoded {frame : List UInt8} {m : Mem} {ks : List Kind} {ds : List Dest}
    {stores : List Store} {as : List Arg} {buffer : Mem} {bufferSize : UInt16}
    (hm : m.read 0 frame.length = frame) (hsize : frame.length ≤ bufferSize.toNat)
    (h : fetchParams long m (ks.map Kind.char) 2 (ds.flatMap Dest.passed) =
      some (stores, frame.length))
    (hd : List.Forall₂ (fun x d => Dest.Receives long x d) (itemsAt long m 2 ks) ds)
    (ha : List.Forall₂ Passes stores as) (hk : as.map (fun a => a.item.kind) = ks) :
    ∃ m' length, formatResponseCommandFromArgList long buffer bufferSize
        (emberFetchHighLowInt16u m 0) (ks.map Kind.char) (as.flatMap Arg.passed) =
          some (m', length) ∧
      m'.read 0 length.toNat = frame := by
  have hfit := fits_itemsAt long m ks 2
  have hkinds := kind_itemsAt long m ks 2
  have hformat : ks.map Kind.char = format (itemsAt long m 2 ks) := by
    have h : format (itemsAt long m 2 ks) = ((itemsAt long m 2 ks).map Item.kind).map Kind.char := by
      rw [List.map_map]
      rfl
    rw [h, hkinds]
  -- the frame is its identifier and the items that stand in it
  have hfetch := fetchParams_eq hfit (hd.imp fun _ _ hr => hr.1) (read_itemsAt long m ks 2)
  rw [← hformat, h, Option.some.injEq, Prod.mk.injEq] at hfetch
  obtain ⟨rfl, hend⟩ := hfetch
  have hframe : frame = highLowBytes16 (emberFetchHighLowInt16u m 0) ++
      wire long (itemsAt long m 2 ks) := by
    rw [← hm, hend, Memory.read_add, read_of_fetch16]
    exact congrArg _ (read_itemsAt long m ks 2)
  -- and these are the items of the arguments
  have hitems : as.map Arg.item = itemsAt long m 2 ks :=
    items_of_passes hfit hd ha (hk.trans hkinds.symm)
  have hsize' : 2 + (wire long (as.map Arg.item)).length ≤ bufferSize.toNat := by
    rw [hitems, ← hend]
    exact hsize
  obtain ⟨m', length, hrun, -, hread⟩ :=
    formatResponseCommandFromArgList_eq buffer (emberFetchHighLowInt16u m 0) hsize'
  rw [hitems, ← hformat] at hrun
  exact ⟨m', length, hrun, by rw [hread, hitems, ← hframe]⟩

/-- **Encoder and decoder undo each other, in both modes.** -/
theorem roundTrips (long : Bool) : RoundTrips long where
  decode _ _ _ _ _ hfit hsize hd := decode_encoded hfit hsize hd
  encode _ _ _ _ _ _ _ _ hm hsize h hd ha hk := encode_decoded hm hsize h hd ha hk

/-- Three bytes and a number, as they are passed, as they are sent, and where they are stored. -/
def threeArgs : List Arg := [.buffer (some fun i => i.toUInt8) 3, .int8 (-1)]

def threeFrame : List UInt8 := [0x69, 0x01, 3, 0, 1, 2, 0xFF]

def threeDests (available : UInt16) : List Dest := [.buffer false 1 available, .scalar false]

/-- The array takes two of the three bytes, and the number behind them is read where it stands; an
array that takes all of them is encoded again. -/
theorem roundTrips_three :
    (∃ m length, formatResponseCommandFromArgList false (fun _ => 0xFF) 64 0x6901
        (format (threeArgs.map Arg.item)) (threeArgs.flatMap Arg.passed) = some (m, length) ∧
      fetchParams false m (format (threeArgs.map Arg.item)) 2
          ((threeDests 2).flatMap Dest.passed) =
        some ([.buffer 2 (some [0, 1]), .uint8 (some 0xFF)], length.toNat)) ∧
    ∃ m' length, formatResponseCommandFromArgList false (fun _ => 0xFF) 64
        (emberFetchHighLowInt16u (Memory.write (fun _ => 0) 0 threeFrame) 0)
        ([Kind.buffer, .int8].map Kind.char) (threeArgs.flatMap Arg.passed) = some (m', length) ∧
      m'.read 0 length.toNat = threeFrame := by
  have hreceives : List.Forall₂ (fun f d => Dest.Receives false f d)
      [.buffer [0, 1, 2], .int8 (-1)] (threeDests 3) :=
    .cons ⟨fun _ => (by decide : 3 ≤ 255), rfl, (by decide : 3 ≤ 3)⟩ (.cons ⟨trivial, rfl⟩ .nil)
  constructor
  · refine (roundTrips false).decode threeArgs (threeDests 2) (fun _ => 0xFF) 64 0x6901 ?_
      (by decide) (.cons (fun _ => (by decide : 3 ≤ 255)) (.cons trivial .nil))
    simp [threeArgs, Arg.item, Item.Fits, maxLength]
  · exact (roundTrips false).encode threeFrame _ [.buffer, .int8] (threeDests 3)
      [.buffer 3 (some [0, 1, 2]), .uint8 (some 0xFF)] threeArgs (fun _ => 0xFF) 64
      (Memory.read_write_same _ 0 threeFrame) (by decide) (by decide +kernel)
      hreceives (.cons (.buffer rfl) (.cons (.int8 0xFF) .nil)) rfl

end ConnectNcpHost.Csp.RoundTrip
