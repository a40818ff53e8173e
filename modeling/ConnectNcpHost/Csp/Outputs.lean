import ConnectNcpHost.Csp.FrameBounds

/-! # What the decoder tells its caller

A caller of `fetchParams` passes a pointer for every character of the format, and for a `b` or a `p`
the address of a length too.

* `reportsDelivered_iff`: the length that is stored is the number of the bytes that are delivered,
  unless an 8-bit variable is given a length above 255 whose low byte is below the capacity.
* `optionalOutputs_iff`: a null pointer leaves the other outputs as they are; exactly at a `v`, and at
  an `l` in the long mode, it is stored through. -/

namespace ConnectNcpHost.Csp.Outputs

open ConnectNcpHost.Lib.Bytes ConnectNcpHost.Stack.ByteUtilities
open ConnectNcpHost.Csp.Format ConnectNcpHost.Csp.Codec ConnectNcpHost.Csp.FrameBounds

variable {long : Bool} {m : Mem} {p : ℕ}

/-! ## What is asked for -/

/-- What a caller asks for with one character. -/
inductive Param
  | uint8
  | int8
  | uint16
  | length
  | uint32
  | buffer (isUint8 : UInt32) (bufferAvailableSize : UInt16)
  | pointer (isUint8 : UInt32)
  deriving DecidableEq

def Param.char : Param → Char
  | uint8 => 'u'
  | int8 => 's'
  | uint16 => 'v'
  | length => 'l'
  | uint32 => 'w'
  | buffer _ _ => 'b'
  | pointer _ => 'p'

/-- The arguments of a character; the pointer to a length is never null. -/
def Param.passed (isNull : Bool) : Param → List VaArg
  | buffer isUint8 available =>
    [.out isNull, .unsignedInt isUint8, .out false, .unsignedInt available.toUInt32]
  | pointer isUint8 => [.out isNull, .unsignedInt isUint8, .out false]
  | _ => [.out isNull]

/-- What is asked for, and whether the pointer is null. -/
structure Asked where
  param : Param
  isNull : Bool
  deriving DecidableEq

def Asked.passed (a : Asked) : List VaArg := a.param.passed a.isNull

/-- The same with a pointer that is not null. -/
def Asked.all (a : Asked) : Asked := ⟨a.param, false⟩

/-- The format and the arguments of a call of `fetchParams`. -/
def fetchAsked (long : Bool) (m : Mem) (p : ℕ) (as : List Asked) : Option (List Store × ℕ) :=
  fetchParams long m (as.map fun a => a.param.char) p (as.flatMap Asked.passed)

/-! ## One character -/

/-- What is stored where no pointer is null. -/
def Param.value (long : Bool) (m : Mem) (p : ℕ) : Param → Store
  | uint8 | int8 => .uint8 (some (m p))
  | uint16 => .uint16 (some (emberFetchHighLowInt16u m p))
  | length => .uint16 (some (fetchLength long m p).1)
  | uint32 => .uint32 (some (emberFetchHighLowInt32u m p))
  | buffer isUint8 available =>
    .buffer (storedLength isUint8.toUInt8 (fetchLength long m p).1 available)
      (some (m.read (p + lengthWidth long) (movedLength (fetchLength long m p).1 available)))
  | pointer isUint8 =>
    .pointer (storedPointerLength isUint8.toUInt8 (fetchLength long m p).1)
      (some (p + lengthWidth long))

/-- Where `readPointer` stands afterwards. -/
def Param.behind (long : Bool) (m : Mem) (p : ℕ) : Param → ℕ
  | uint8 | int8 => p + 1
  | uint16 => p + 2
  | length => p + lengthWidth long
  | uint32 => p + 4
  | buffer _ _ | pointer _ => p + lengthWidth long + (fetchLength long m p).1.toNat

/-- A store without what goes through the pointer; a length is stored nevertheless. -/
def withoutOutput : Store → Store
  | .uint8 _ => .uint8 none
  | .uint16 _ => .uint16 none
  | .uint32 _ => .uint32 none
  | .buffer length _ => .buffer length none
  | .pointer length _ => .pointer length none
  | .nothing => .nothing

/-- The characters at which the pointer is not tested. -/
def Param.Untested (long : Bool) : Param → Prop
  | uint16 => True
  | length => long = true
  | _ => False

/-- A null pointer that is not tested. -/
def Asked.StoresThroughNull (long : Bool) (a : Asked) : Prop :=
  a.isNull = true ∧ a.param.Untested long

/-- What is stored for one character. -/
def Asked.value (long : Bool) (m : Mem) (p : ℕ) (a : Asked) : Store :=
  if a.isNull then withoutOutput (a.param.value long m p) else a.param.value long m p

/-- **A turn of the decoder** stores the value, and moves on by as much as without a null pointer. -/
theorem fetchParam_asked {a : Asked} (rest : List VaArg)
    (h : ¬ a.StoresThroughNull long) :
    fetchParam long m a.param.char p (a.passed ++ rest) =
      some (a.value long m p, a.param.behind long m p, rest) := by
  obtain ⟨x, isNull⟩ := a
  cases x with
  | buffer isUint8 available =>
    have hb := fetchBuffer_moved long m p isNull isUint8 available.toUInt32 rest
    rw [UInt16.toUInt16_toUInt32] at hb
    refine hb.trans ?_
    cases isNull <;> rfl
  | pointer isUint8 =>
    refine (fetchPointer_moved long m p isNull isUint8 rest).trans ?_
    cases isNull <;> rfl
  | uint16 =>
    cases isNull with
    | true => exact absurd ⟨rfl, trivial⟩ h
    | false => rfl
  | length =>
    cases long with
    | true =>
      cases isNull with
      | true => exact absurd ⟨rfl, rfl⟩ h
      | false => rfl
    | false => cases isNull <;> rfl
  | _ => cases isNull <;> rfl

/-- **A turn that stores through a null pointer.** -/
theorem fetchParam_untested {a : Asked} (rest : List VaArg) (h : a.StoresThroughNull long) :
    fetchParam long m a.param.char p (a.passed ++ rest) = none := by
  obtain ⟨x, isNull⟩ := a
  obtain ⟨hnull, h⟩ := h
  obtain rfl : isNull = true := hnull
  cases x with
  | uint16 => rfl
  | length =>
    obtain rfl : long = true := h
    rfl
  | _ => exact absurd h id

theorem fetchAsked_cons (long : Bool) (m : Mem) (p : ℕ) (a : Asked) (as : List Asked) :
    fetchAsked long m p (a :: as) =
      (fetchParam long m a.param.char p (a.passed ++ as.flatMap Asked.passed)).bind fun r =>
        (fetchParams long m (as.map fun a => a.param.char) r.2.1 r.2.2).bind fun s =>
          some (r.1 :: s.1, s.2) := rfl

/-- The rest of the format, behind a character that was stored. -/
theorem fetchAsked_cons_of_tested {a : Asked} (as : List Asked)
    (h : ¬ a.StoresThroughNull long) :
    fetchAsked long m p (a :: as) =
      (fetchAsked long m (a.param.behind long m p) as).bind fun s =>
        some (a.value long m p :: s.1, s.2) := by
  rw [fetchAsked_cons, fetchParam_asked _ h]
  rfl

/-! ## Null pointers -/

/-- What is stored for a list of characters, and where `readPointer` ends. -/
def outcome (long : Bool) (m : Mem) : ℕ → List Asked → List Store × ℕ
  | p, [] => ([], p)
  | p, a :: as =>
    let r := outcome long m (a.param.behind long m p) as
    (a.value long m p :: r.1, r.2)

/-- **A call returns where every null pointer is tested.** -/
theorem fetchAsked_eq : ∀ {as : List Asked} {p : ℕ},
    (∀ a ∈ as, ¬ a.StoresThroughNull long) → fetchAsked long m p as = some (outcome long m p as)
  | [], _, _ => rfl
  | a :: as, p, h => by
    have ih := fetchAsked_eq (p := a.param.behind long m p) fun b hb => h b (List.mem_cons_of_mem a hb)
    rw [fetchAsked_cons_of_tested as (h a List.mem_cons_self), ih]
    rfl

/-- **It stores through a null pointer where one is not tested.** -/
theorem fetchAsked_eq_none : ∀ {as : List Asked} {p : ℕ} {a : Asked}, a ∈ as →
    a.StoresThroughNull long → fetchAsked long m p as = none
  | b :: as, p, a, ha, hnull => by
    by_cases hb : b.StoresThroughNull long
    · rw [fetchAsked_cons, fetchParam_untested _ hb]
      rfl
    · rcases List.mem_cons.mp ha with rfl | ha
      · exact absurd hnull hb
      · rw [fetchAsked_cons_of_tested as hb, fetchAsked_eq_none ha hnull]
        rfl

/-- The outputs that are asked for. -/
def select (as : List Asked) (stores : List Store) : List Store :=
  List.zipWith (fun a store => if a.isNull then withoutOutput store else store) as stores

/-- A null pointer changes its own output only. -/
theorem outcome_all (long : Bool) (m : Mem) : ∀ (as : List Asked) (p : ℕ),
    outcome long m p as = (select as (outcome long m p (as.map Asked.all)).1,
      (outcome long m p (as.map Asked.all)).2)
  | [], _ => rfl
  | a :: as, p => by
    have ih := outcome_all long m as (a.param.behind long m p)
    rw [outcome, ih]
    rfl

/-- **Optional outputs**, of one call. -/
structure OptionalOutputs (long : Bool) (m : Mem) (p : ℕ) (as : List Asked) : Prop where
  /-- nothing is stored through a null pointer -/
  returns : (fetchAsked long m p as).isSome
  /-- every other output, and the end, are those of the call in which no pointer is null -/
  others : ∃ stores last, fetchAsked long m p (as.map Asked.all) = some (stores, last) ∧
    fetchAsked long m p as = some (select as stores, last)

theorem tested_all (long : Bool) (as : List Asked) :
    ∀ a ∈ as.map Asked.all, ¬ a.StoresThroughNull long := by
  rintro a ha ⟨hnull, -⟩
  obtain ⟨b, -, rfl⟩ := List.mem_map.mp ha
  cases hnull

/-- **The outputs are optional exactly where no null pointer is passed for a `v`, nor for an `l` in the
long mode.** -/
theorem optionalOutputs_iff (long : Bool) (m : Mem) (p : ℕ) (as : List Asked) :
    OptionalOutputs long m p as ↔ ∀ a ∈ as, ¬ a.StoresThroughNull long := by
  constructor
  · intro h a ha hnull
    have hreturns := h.returns
    rw [fetchAsked_eq_none ha hnull] at hreturns
    cases hreturns
  · intro h
    have hrun := fetchAsked_eq (m := m) (p := p) h
    refine ⟨by rw [hrun]; rfl, _, _, fetchAsked_eq (tested_all long as), ?_⟩
    rw [hrun, outcome_all]

/-- What `emberGetVersionInfo` asks for, with the format `"uvvw"`: the status, and the three versions
it was given pointers for. -/
def emberGetVersionInfoAsked (gsdkVersion connectStackVersion bootloaderVersion : Bool) :
    List Asked :=
  [⟨.uint8, false⟩, ⟨.uint16, gsdkVersion⟩, ⟨.uint16, connectStackVersion⟩,
    ⟨.uint32, bootloaderVersion⟩]

/-- **`emberGetVersionInfo(NULL, …)`** stores through the null pointer. -/
theorem mandatory_version : ¬ ∀ (long : Bool) (m : Mem) (p : ℕ) (as : List Asked),
    OptionalOutputs long m p as := by
  intro h
  have hmem : (⟨.uint16, true⟩ : Asked) ∈ emberGetVersionInfoAsked true false false := by decide
  have hnone : fetchAsked false (fun _ => 0) 2 (emberGetVersionInfoAsked true false false) = none :=
    fetchAsked_eq_none hmem ⟨rfl, trivial⟩
  have hreturns := (h false (fun _ => 0) 2 (emberGetVersionInfoAsked true false false)).returns
  rw [hnone] at hreturns
  cases hreturns

/-! ## Lengths -/

/-- A turn of `fetchParams`. -/
structure Turn where
  asked : Asked
  readPointer : ℕ
  store : Store
  next : ℕ
  deriving DecidableEq

/-- The turns of a call, up to a store through a null pointer. -/
def turns (long : Bool) (m : Mem) : ℕ → List Asked → List Turn
  | _, [] => []
  | p, a :: as =>
    match fetchParam long m a.param.char p (a.passed ++ as.flatMap Asked.passed) with
    | none => []
    | some (store, next, _) => ⟨a, p, store, next⟩ :: turns long m next as

/-- The stores of a call are those of its turns. -/
theorem map_store_turns : ∀ {as : List Asked} {p : ℕ} {stores : List Store} {last : ℕ},
    fetchAsked long m p as = some (stores, last) → (turns long m p as).map Turn.store = stores
  | [], _, _, _, h => by
    obtain ⟨rfl, -⟩ := Prod.mk.inj (Option.some.inj h)
    rfl
  | a :: as, p, stores, last, h => by
    by_cases ha : a.StoresThroughNull long
    · rw [fetchAsked_eq_none List.mem_cons_self ha] at h
      cases h
    · rw [fetchAsked_cons_of_tested as ha, Option.bind_eq_some_iff] at h
      obtain ⟨⟨rest, last'⟩, hrest, h⟩ := h
      obtain ⟨rfl, -⟩ := Prod.mk.inj (Option.some.inj h)
      rw [turns, fetchParam_asked _ ha]
      dsimp only
      rw [List.map_cons, map_store_turns hrest]

/-- A turn stores what is asked for. -/
theorem eq_of_mem_turns {t : Turn} : ∀ {as : List Asked} {p : ℕ}, t ∈ turns long m p as →
    t.store = t.asked.value long m t.readPointer ∧
      t.next = t.asked.param.behind long m t.readPointer
  | [], _, h => by cases h
  | a :: as, p, h => by
    by_cases ha : a.StoresThroughNull long
    · rw [turns, fetchParam_untested _ ha] at h
      cases h
    · rw [turns, fetchParam_asked _ ha] at h
      rcases List.mem_cons.mp h with rfl | h
      · exact ⟨rfl, rfl⟩
      · exact eq_of_mem_turns h

/-- The length on the wire, where the turn begins. -/
def Turn.wireLength (long : Bool) (m : Mem) (t : Turn) : ℕ :=
  (fetchLength long m t.readPointer).1.toNat

/-- **The length that is stored is the number of the bytes that are delivered**: for a `b` those copied,
as many as the capacity allows, for a `p` those behind its pointer, by which `readPointer` moves. -/
def Turn.ReportsDelivered (long : Bool) (m : Mem) (t : Turn) : Prop :=
  match t.asked.param, t.store with
  | .buffer _ available, .buffer length bytes =>
    length.toNat = min (t.wireLength long m) available.toNat ∧
      ∀ copied ∈ bytes, copied.length = length.toNat
  | .pointer _, .pointer length address =>
    t.next = t.readPointer + lengthWidth long + length.toNat ∧
      ∀ start ∈ address, t.next = start + length.toNat
  | .buffer _ _, _ | .pointer _, _ => False
  | _, _ => True

/-- The length is stored in 16 bits, or fits 8, or its low byte is cut off at the capacity as it would
be itself. -/
def Turn.KeepsLength (long : Bool) (m : Mem) (t : Turn) : Prop :=
  match t.asked.param with
  | .buffer isUint8 available => isUint8.toUInt8 = 0 ∨ t.wireLength long m ≤ 255 ∨
      available.toNat ≤ t.wireLength long m % 256
  | .pointer isUint8 => isUint8.toUInt8 = 0 ∨ t.wireLength long m ≤ 255
  | _ => True

theorem toNat_lowByte (n : UInt16) : (n &&& 0xFF).toUInt8.toUInt16.toNat = n.toNat % 256 := by
  rw [and_0xFF_toUInt8, UInt8.toNat_toUInt16, UInt16.toNat_toUInt8]

/-- The length of a `b`, in 8 bits. -/
theorem toNat_storedLength (isUint8 : UInt8) (n available : UInt16) :
    (storedLength isUint8 n available).toNat =
      min (if isUint8 = 0 then n.toNat else n.toNat % 256) available.toNat := by
  by_cases hi : isUint8 = 0
  · rw [storedLength_eq (fun h => absurd hi h), if_pos hi]
    have := n.toNat_lt
    rw [Nat.toUInt16_eq, UInt16.toNat_ofNat']
    exact Nat.mod_eq_of_lt (by omega)
  · have hlow := toNat_lowByte n
    unfold storedLength
    rw [if_pos hi, if_neg hi]
    dsimp only
    split_ifs with hgt
    · have hlt := UInt16.lt_iff_toNat_lt.mp hgt
      rw [UInt8.toNat_toUInt16, UInt16.toNat_toUInt8]
      omega
    · have hle := UInt16.le_iff_toNat_le.mp (UInt16.not_lt.mp hgt)
      omega

theorem toNat_storedPointerLength (isUint8 : UInt8) (n : UInt16) :
    (storedPointerLength isUint8 n).toNat = if isUint8 = 0 then n.toNat else n.toNat % 256 := by
  unfold storedPointerLength
  by_cases hi : isUint8 = 0
  · rw [if_neg (by simpa using hi), if_pos hi]
  · rw [if_pos hi, if_neg hi, toNat_lowByte]

theorem movedLength_eq_min (n available : UInt16) :
    movedLength n available = min n.toNat available.toNat := by
  unfold movedLength
  split_ifs with hle
  · have := UInt16.le_iff_toNat_le.mp hle
    omega
  · have := UInt16.lt_iff_toNat_lt.mp (UInt16.not_le.mp hle)
    omega

/-- A length of a `b` is reported as it is delivered where it is kept. -/
theorem reportsDelivered_buffer {t : Turn} {isUint8 : UInt32} {available : UInt16}
    (ht : t.store = t.asked.value long m t.readPointer)
    (hx : t.asked.param = .buffer isUint8 available) :
    t.ReportsDelivered long m ↔ t.KeepsLength long m := by
  have hlen := toNat_storedLength isUint8.toUInt8 (fetchLength long m t.readPointer).1 available
  have hmoved : ∀ copied ∈ (unlessNull t.asked.isNull (m.read (t.readPointer + lengthWidth long)
      (movedLength (fetchLength long m t.readPointer).1 available))),
      copied.length = min (t.wireLength long m) available.toNat := by
    intro copied hc
    unfold unlessNull at hc
    split_ifs at hc with hnull
    · cases hc
    · obtain rfl := Option.some.inj hc
      rw [Memory.length_read, movedLength_eq_min, Turn.wireLength]
  have hstore : t.store = .buffer
      (storedLength isUint8.toUInt8 (fetchLength long m t.readPointer).1 available)
      (unlessNull t.asked.isNull (m.read (t.readPointer + lengthWidth long)
        (movedLength (fetchLength long m t.readPointer).1 available))) := by
    rw [ht, Asked.value, hx, unlessNull]
    split_ifs <;> rfl
  have hlt : t.wireLength long m < 65536 := UInt16.toNat_lt _
  rw [← Turn.wireLength] at hlen
  unfold Turn.ReportsDelivered Turn.KeepsLength
  rw [hx, hstore]
  dsimp only
  rw [hlen]
  constructor
  · rintro ⟨hmin, -⟩
    split_ifs at hmin with hi
    · exact Or.inl hi
    · right
      omega
  · intro h
    have hmin : min (if isUint8.toUInt8 = 0 then t.wireLength long m
        else t.wireLength long m % 256) available.toNat =
        min (t.wireLength long m) available.toNat := by
      split_ifs with hi
      · rfl
      · have := h.resolve_left hi
        omega
    rw [hmin]
    exact ⟨rfl, hmoved⟩

/-- A length of a `p` is reported as it is delivered where it is kept. -/
theorem reportsDelivered_pointer {t : Turn} {isUint8 : UInt32}
    (ht : t.store = t.asked.value long m t.readPointer)
    (hn : t.next = t.asked.param.behind long m t.readPointer)
    (hx : t.asked.param = .pointer isUint8) :
    t.ReportsDelivered long m ↔ t.KeepsLength long m := by
  have hlen := toNat_storedPointerLength isUint8.toUInt8 (fetchLength long m t.readPointer).1
  have hstore : t.store = .pointer
      (storedPointerLength isUint8.toUInt8 (fetchLength long m t.readPointer).1)
      (unlessNull t.asked.isNull (t.readPointer + lengthWidth long)) := by
    rw [ht, Asked.value, hx, unlessNull]
    split_ifs <;> rfl
  have hnext : t.next = t.readPointer + lengthWidth long + t.wireLength long m := by
    rw [hn, hx]
    rfl
  rw [← Turn.wireLength] at hlen
  unfold Turn.ReportsDelivered Turn.KeepsLength
  rw [hx, hstore]
  dsimp only
  rw [hlen, hnext]
  constructor
  · rintro ⟨hwire, -⟩
    split_ifs at hwire with hi
    · exact Or.inl hi
    · right
      omega
  · intro h
    have hwire : (if isUint8.toUInt8 = 0 then t.wireLength long m
        else t.wireLength long m % 256) = t.wireLength long m := by
      split_ifs with hi
      · rfl
      · have := h.resolve_left hi
        omega
    rw [hwire]
    refine ⟨rfl, fun start hs => ?_⟩
    unfold unlessNull at hs
    split_ifs at hs with hnull
    · cases hs
    · obtain rfl := Option.some.inj hs
      rfl

/-- `EMBER_MAC_MAX_BEACON_FIELDS_LENGTH` -/
def maxBeaconFieldsLength : UInt16 := 84

/-- `EMBER_MAC_STACK_BEACON_PAYLOAD_LENGTH + EMBER_MAC_MAX_APP_BEACON_PAYLOAD_LENGTH` -/
def maxBeaconPayloadLength : UInt16 := 14 + 16

/-- What `incomingBeaconCommandHandler` asks for, with the format `"vvbuuuubub"`. -/
def incomingBeaconAsked : List Asked :=
  ([.uint16, .uint16, .buffer 1 8, .uint8, .uint8, .uint8, .uint8, .buffer 1 maxBeaconFieldsLength,
    .uint8, .buffer 1 maxBeaconPayloadLength] : List Param).map fun x => ⟨x, false⟩

example : incomingBeaconAsked.map (fun a => a.param.char) =
    ['v', 'v', 'b', 'u', 'u', 'u', 'u', 'b', 'u', 'b'] := by decide

/-- A beacon in the long mode, with `261` bytes of beacon fields. -/
def longBeacon : Mem := Memory.write (fun _ => 0) 4
  ([0, 8] ++ List.replicate 12 0 ++ highLowBytes16 261)

/-- **The length is that of the delivered bytes exactly when it is kept**, for every field of a
call. -/
theorem reportsDelivered_iff (long : Bool) (m : Mem) (p : ℕ) (as : List Asked) :
    ∀ t ∈ turns long m p as, t.ReportsDelivered long m ↔ t.KeepsLength long m := by
  intro t ht
  obtain ⟨hstore, hnext⟩ := eq_of_mem_turns ht
  cases hx : t.asked.param with
  | buffer isUint8 available => exact reportsDelivered_buffer hstore hx
  | pointer isUint8 => exact reportsDelivered_pointer hstore hnext hx
  | _ =>
    unfold Turn.ReportsDelivered Turn.KeepsLength
    rw [hx]

/-- The long address of a beacon. -/
theorem reportsDelivered_iff_longAddress :
    (⟨⟨.buffer 1 8, false⟩, 4, .buffer 8 (some (longBeacon.read 6 8)), 14⟩ : Turn).ReportsDelivered
        true longBeacon ↔
      (⟨⟨.buffer 1 8, false⟩, 4, .buffer 8 (some (longBeacon.read 6 8)), 14⟩ : Turn).KeepsLength
        true longBeacon :=
  reportsDelivered_iff true longBeacon 0 incomingBeaconAsked _ (by decide +kernel)

/-- **A beacon with 261 bytes of fields**: 84 are delivered, and 5 are reported. -/
theorem misreported_beacon : ¬ ∀ (long : Bool) (m : Mem) (p : ℕ) (as : List Asked),
    ∀ t ∈ turns long m p as, t.ReportsDelivered long m := by
  intro h
  have hmem : (⟨⟨.buffer 1 maxBeaconFieldsLength, false⟩, 18,
      .buffer 5 (some (longBeacon.read 20 84)), 281⟩ : Turn) ∈
      turns true longBeacon 0 incomingBeaconAsked := by decide +kernel
  have hlen := (h true longBeacon 0 incomingBeaconAsked _ hmem).1
  exact absurd hlen (by decide +kernel)

end ConnectNcpHost.Csp.Outputs
