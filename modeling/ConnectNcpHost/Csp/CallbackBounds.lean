import ConnectNcpHost.Csp.Callbacks

/-! # The handlers stay within their arrays

Whatever bytes a callback frame holds, well formed or not, a handler moves no more into an array on
its stack than the array takes, and calls the application with a length within it
(`bounded_of_handled`). The dispatcher fails for unknown identifiers alone
(`handleIndication_eq_none_iff`). -/

namespace ConnectNcpHost.Csp.CallbackBounds

open ConnectNcpHost.Lib.Bytes ConnectNcpHost.Stack.ByteUtilities
open ConnectNcpHost.Csp.Format ConnectNcpHost.Csp.Codec ConnectNcpHost.Csp.Outputs
open ConnectNcpHost.Csp.EncodedSize ConnectNcpHost.Csp.Variables ConnectNcpHost.Csp.Callbacks
open ConnectNcpHost.HostCommon.CpcHost ConnectNcpHost.Ota.Protocol

variable {V : Type} {long : Bool} {m : Mem} {p : ℕ} {vars : Locals}

/-! ## Arrays -/

/-- The cells behind an array of `n` bytes are as they were. -/
def Untouched (old new : Mem) (n : ℕ) : Prop := ∀ i, n ≤ i → new i = old i

theorem Untouched.refl (old : Mem) (n : ℕ) : Untouched old old n := fun _ _ => rfl

/-- A move of no more bytes than the array takes. -/
theorem Untouched.write {old new : Mem} {n : ℕ} {bytes : List UInt8} (h : Untouched old new n)
    (hle : bytes.length ≤ n) : Untouched old (new.write 0 bytes) n := by
  intro i hi
  rw [Memory.write_of_ge _ _ (by omega), h i hi]

/-- The size of the union of an address. -/
def addrSize : ℕ := eui64Size.toNat

/-- The bytes behind the union are as they were. -/
def AddressKept (old new : MacAddress) : Prop := Untouched old.addr new.addr addrSize

def FrameKept (old new : MacFrame) : Prop :=
  AddressKept old.srcAddress new.srcAddress ∧ AddressKept old.dstAddress new.dstAddress

theorem addressKept_setShortAddress {old new : MacAddress} (h : AddressKept old new)
    (value : UInt16) : AddressKept old (new.setShortAddress value) := by
  intro i hi
  have h8 : 8 ≤ i := hi
  have hstore : emberStoreLowHighInt16u new.addr 0 value i = new.addr i := by
    unfold emberStoreLowHighInt16u
    rw [Memory.write_of_ge _ _ (by rw [List.length_singleton]; omega),
      Memory.write_of_ge _ _ (by rw [List.length_singleton]; omega)]
  exact hstore.trans (h i hi)

/-- A payload in an array of the handler, with its length. -/
def PayloadBounded (old payload : Mem) (length : UInt16) : Prop :=
  length ≤ maxCallbackPayloadLength ∧ Untouched old payload maxCallbackPayloadLength.toNat

/-- A part of a beacon in its array, with its length. -/
def PartBounded (old part : Mem) (length : UInt8) (available : UInt16) : Prop :=
  length.toUInt16 ≤ available ∧ Untouched old part available.toNat

/-- **A callback within the arrays of the handlers**: the lengths are, and so is what was moved. -/
def Bounded (vars : Locals) : Callback → Prop
  | .messageSent _ x => PayloadBounded vars.messageSent.2.payload x.payload x.length
  | .incomingMessage x => PayloadBounded vars.incomingMessage.payload x.payload x.length
  | .incomingMacMessage x =>
    PayloadBounded vars.incomingMacMessage.payload x.payload x.length ∧
      FrameKept vars.incomingMacMessage.macFrame x.macFrame
  | .macMessageSent _ x =>
    PayloadBounded vars.macMessageSent.2.payload x.payload x.length ∧
      FrameKept vars.macMessageSent.2.macFrame x.macFrame
  | .incomingBeacon x =>
    AddressKept vars.incomingBeacon.source x.source ∧
      PartBounded vars.incomingBeacon.beaconFields x.beaconFields x.beaconFieldsLength
        maxBeaconFieldsLength ∧
      PartBounded vars.incomingBeacon.beaconPayload x.beaconPayload x.beaconPayloadLength
        maxBeaconPayloadLength
  | _ => True

/-! ## What the assignments keep -/

/-- An assignment through `x` makes `J` of `I`, whatever is read. -/
def Makes (long : Bool) (m : Mem) (I J : V → Prop) (x : Pointer V) : Prop :=
  ∀ p v, I v → J (x.assign (x.param.value long m p) v)

/-- The assignments of some pointers keep `I`. -/
def Keep (long : Bool) (m : Mem) (I : V → Prop) (xs : List (Pointer V)) : Prop :=
  ∀ x ∈ xs, Makes long m I I x

theorem Keep.nil (I : V → Prop) : Keep long m I [] := by
  rintro x hx
  cases hx

theorem Keep.cons {I : V → Prop} {x : Pointer V} {xs : List (Pointer V)}
    (hx : Makes long m I I x) (hxs : Keep long m I xs) : Keep long m I (x :: xs) := by
  rintro y hy
  rcases List.mem_cons.mp hy with rfl | hy
  · exact hx
  · exact hxs y hy

theorem Keep.append {I : V → Prop} {xs ys : List (Pointer V)} (hxs : Keep long m I xs)
    (hys : Keep long m I ys) : Keep long m I (xs ++ ys) := by
  rintro y hy
  rcases List.mem_append.mp hy with hy | hy
  · exact hxs y hy
  · exact hys y hy

/-- The pointer to an array does what moving as much as the array takes does. -/
theorem makes_buffer {I J : V → Prop} {isUint8 : UInt32} {setLength : UInt16 → V → V}
    {available : UInt16} {set : List UInt8 → V → V}
    (h : ∀ length bytes v, length ≤ available → bytes.length ≤ available.toNat → I v →
      J (set bytes (setLength length v))) :
    Makes long m I J (Pointer.buffer isUint8 setLength available set) := by
  intro p v hv
  obtain ⟨length, bytes, hvalue, hlength, hbytes⟩ := value_buffer_le long m p isUint8 available
  have hassign : (Pointer.buffer isUint8 setLength available set).assign
      ((Pointer.buffer isUint8 setLength available set).param.value long m p) v =
      set bytes (setLength length v) := by
    show (Pointer.buffer isUint8 setLength available set).assign
      ((Param.buffer isUint8 available).value long m p) v = _
    rw [hvalue]
    rfl
  rw [hassign]
  exact h length bytes v hlength hbytes hv

theorem keep_macAddress {I : V → Prop} {modify : (MacAddress → MacAddress) → V → V}
    (h : ∀ g v, (∀ old new, AddressKept old new → AddressKept old (g new)) → I v → I (modify g v)) :
    Keep long m I (macAddressPointers modify) := by
  refine .cons (fun p v hv => ?_) (.cons (makes_buffer fun _ bytes v _ hbytes hv => ?_)
    (.cons (fun p v hv => ?_) (.nil I)))
  · exact h _ v (fun _ _ hk => addressKept_setShortAddress hk _) hv
  · exact h (MacAddress.setLongAddress bytes) v (fun _ _ hk => hk.write hbytes) hv
  · exact h _ v (fun _ _ hk => hk) hv

theorem keep_macFrame {I : V → Prop} {modify : (MacFrame → MacFrame) → V → V}
    (h : ∀ g v, (∀ old new, FrameKept old new → FrameKept old (g new)) → I v → I (modify g v)) :
    Keep long m I (macFramePointers modify) := by
  refine .append (.append (keep_macAddress fun g v hg hv => ?_)
    (keep_macAddress fun g v hg hv => ?_)) ?_
  · exact h _ v (fun _ _ hk => ⟨hg _ _ hk.1, hk.2⟩) hv
  · exact h _ v (fun _ _ hk => ⟨hk.1, hg _ _ hk.2⟩) hv
  · exact .cons (fun _ v hv => h _ v (fun _ _ hk => hk) hv)
      (.cons (fun _ v hv => h _ v (fun _ _ hk => hk) hv)
      (.cons (fun _ v hv => h _ v (fun _ _ hk => hk) hv)
      (.cons (fun _ v hv => h _ v (fun _ _ hk => hk) hv) (.nil I))))

/-- The assignments of some pointers make `J` of `I`: each one keeps what holds, or makes `K` of it.
-/
inductive Establishes (long : Bool) (m : Mem) (J : V → Prop) :
    (V → Prop) → List (Pointer V) → Prop
  | nil : Establishes long m J J []
  | keeps {I : V → Prop} {x : Pointer V} {xs : List (Pointer V)} (hx : Makes long m I I x)
    (hxs : Establishes long m J I xs) : Establishes long m J I (x :: xs)
  | makes {I : V → Prop} (K : V → Prop) {x : Pointer V} {xs : List (Pointer V)}
    (hx : Makes long m I K x) (hxs : Establishes long m J K xs) : Establishes long m J I (x :: xs)

theorem Establishes.append {I J : V → Prop} : ∀ {xs ys : List (Pointer V)}, Keep long m I xs →
    Establishes long m J I ys → Establishes long m J I (xs ++ ys)
  | [], _, _, hys => hys
  | x :: _, _, hxs, hys =>
    .keeps (hxs x List.mem_cons_self)
      (Establishes.append (fun y hy => hxs y (List.mem_cons_of_mem x hy)) hys)

theorem Establishes.fetched {I J : V → Prop} {xs : List (Pointer V)}
    (h : Establishes long m J I xs) : ∀ {p : ℕ} {v : V}, I v → J (fetched long m p xs v) := by
  induction h with
  | nil => exact fun hv => hv
  | keeps hx _ ih =>
    intro p v hv
    have hI := hx p v hv
    rw [fetched_cons]
    exact ih hI
  | makes K hx _ ih =>
    intro p v hv
    have hK := hx p v hv
    rw [fetched_cons]
    exact ih hK

/-! ## The handlers -/

variable {c : Callback}

theorem bounded_messageSent
    (h : messageSentCommandHandler long m p vars.messageSent = some c) : Bounded vars c := by
  rw [messageSentCommandHandler, fetchCallbackParams_fetched] at h
  obtain rfl := Option.some.inj h
  have hstart := Untouched.refl vars.messageSent.2.payload maxCallbackPayloadLength.toNat
  refine Establishes.fetched (V := UInt8 × OutgoingMessage)
    (I := fun s => Untouched vars.messageSent.2.payload s.2.payload maxCallbackPayloadLength.toNat)
    (J := fun s => PayloadBounded vars.messageSent.2.payload s.2.payload s.2.length) ?_ hstart
  exact .keeps (fun _ _ h => h) (.keeps (fun _ _ h => h) (.keeps (fun _ _ h => h)
    (.keeps (fun _ _ h => h) (.keeps (fun _ _ h => h) (.keeps (fun _ _ h => h)
    (.makes _ (makes_buffer fun _ _ _ hl hb h => ⟨hl, h.write hb⟩)
    (.keeps (fun _ _ h => h) (.keeps (fun _ _ h => h) .nil))))))))

theorem bounded_incomingMessage
    (h : incomingMessageCommandHandler long m p vars.incomingMessage = some c) :
    Bounded vars c := by
  rw [incomingMessageCommandHandler, fetchCallbackParams_fetched] at h
  obtain rfl := Option.some.inj h
  have hstart := Untouched.refl vars.incomingMessage.payload maxCallbackPayloadLength.toNat
  refine Establishes.fetched (V := IncomingMessage)
    (I := fun s => Untouched vars.incomingMessage.payload s.payload maxCallbackPayloadLength.toNat)
    (J := fun s => PayloadBounded vars.incomingMessage.payload s.payload s.length) ?_ hstart
  exact .keeps (fun _ _ h => h) (.keeps (fun _ _ h => h) (.keeps (fun _ _ h => h)
    (.keeps (fun _ _ h => h) (.keeps (fun _ _ h => h)
    (.makes _ (makes_buffer fun _ _ _ hl hb h => ⟨hl, h.write hb⟩)
    (.keeps (fun _ _ h => h) (.keeps (fun _ _ h => h) .nil)))))))

/-- What the handlers of MAC messages keep before the payload is moved. -/
def MacKept (oldPayload payload : Mem) (oldFrame frame : MacFrame) : Prop :=
  Untouched oldPayload payload maxCallbackPayloadLength.toNat ∧ FrameKept oldFrame frame

theorem MacKept.refl (payload : Mem) (frame : MacFrame) : MacKept payload payload frame frame :=
  ⟨.refl _ _, .refl _ _, .refl _ _⟩

theorem bounded_incomingMacMessage
    (h : incomingMacMessageCommandHandler long m p vars.incomingMacMessage = some c) :
    Bounded vars c := by
  rw [incomingMacMessageCommandHandler, fetchCallbackParams_fetched] at h
  obtain rfl := Option.some.inj h
  have hstart := MacKept.refl vars.incomingMacMessage.payload vars.incomingMacMessage.macFrame
  refine Establishes.fetched (V := IncomingMacMessage)
    (I := fun s => MacKept vars.incomingMacMessage.payload s.payload
      vars.incomingMacMessage.macFrame s.macFrame)
    (J := fun s => PayloadBounded vars.incomingMacMessage.payload s.payload s.length ∧
      FrameKept vars.incomingMacMessage.macFrame s.macFrame) ?_ hstart
  refine .keeps (fun _ _ h => h) (.append (keep_macFrame fun g s hg h => ⟨h.1, hg _ _ h.2⟩) ?_)
  exact .keeps (fun _ _ h => h) (.keeps (fun _ _ h => h) (.keeps (fun _ _ h => h)
    (.keeps (fun _ _ h => h)
    (.makes _ (makes_buffer fun _ _ _ hl hb h => ⟨⟨hl, h.1.write hb⟩, h.2⟩)
    (.keeps (fun _ _ h => h) .nil)))))

theorem bounded_macMessageSent
    (h : macMessageSentCommandHandler long m p vars.macMessageSent = some c) :
    Bounded vars c := by
  rw [macMessageSentCommandHandler, fetchCallbackParams_fetched] at h
  obtain rfl := Option.some.inj h
  have hstart := MacKept.refl vars.macMessageSent.2.payload vars.macMessageSent.2.macFrame
  refine Establishes.fetched (V := UInt8 × OutgoingMacMessage)
    (I := fun s => MacKept vars.macMessageSent.2.payload s.2.payload
      vars.macMessageSent.2.macFrame s.2.macFrame)
    (J := fun s => PayloadBounded vars.macMessageSent.2.payload s.2.payload s.2.length ∧
      FrameKept vars.macMessageSent.2.macFrame s.2.macFrame) ?_ hstart
  refine .keeps (fun _ _ h => h) (.keeps (fun _ _ h => h)
    (.append (keep_macFrame fun g s hg h => ⟨h.1, hg _ _ h.2⟩) ?_))
  exact .keeps (fun _ _ h => h) (.keeps (fun _ _ h => h) (.keeps (fun _ _ h => h)
    (.makes _ (makes_buffer fun _ _ _ hl hb h => ⟨⟨hl, h.1.write hb⟩, h.2⟩)
    (.keeps (fun _ _ h => h) (.keeps (fun _ _ h => h) .nil)))))

/-- A length that fits 8 bits, in a variable of 8 bits. -/
theorem toUInt16_length_le {length available : UInt16} (h : length ≤ available)
    (h8 : available.toNat ≤ 255) : length.toUInt8.toUInt16 ≤ available := by
  have hle := UInt16.le_iff_toNat_le.mp h
  rw [toUInt16_toUInt8_of_le (by omega)]
  exact h

theorem bounded_incomingBeacon
    (h : incomingBeaconCommandHandler long m p vars.incomingBeacon = some c) :
    Bounded vars c := by
  rw [incomingBeaconCommandHandler, fetchCallbackParams_fetched] at h
  obtain rfl := Option.some.inj h
  have hfields : maxBeaconFieldsLength.toNat ≤ 255 := by decide
  have hpayload : maxBeaconPayloadLength.toNat ≤ 255 := by decide
  refine Establishes.fetched (V := Beacon)
    (I := fun s => AddressKept vars.incomingBeacon.source s.source ∧
      Untouched vars.incomingBeacon.beaconFields s.beaconFields maxBeaconFieldsLength.toNat ∧
      Untouched vars.incomingBeacon.beaconPayload s.beaconPayload maxBeaconPayloadLength.toNat)
    (J := fun s => AddressKept vars.incomingBeacon.source s.source ∧
      PartBounded vars.incomingBeacon.beaconFields s.beaconFields s.beaconFieldsLength
        maxBeaconFieldsLength ∧
      PartBounded vars.incomingBeacon.beaconPayload s.beaconPayload s.beaconPayloadLength
        maxBeaconPayloadLength) ?_ ⟨.refl _ _, .refl _ _, .refl _ _⟩
  refine .keeps (fun _ _ h => h) (.append (keep_macAddress fun g s hg h => ⟨hg _ _ h.1, h.2⟩) ?_)
  refine .keeps (fun _ _ h => h) (.keeps (fun _ _ h => h) (.keeps (fun _ _ h => h) ?_))
  -- the fields have their length before the payload is read
  refine .makes (fun s => AddressKept vars.incomingBeacon.source s.source ∧
      PartBounded vars.incomingBeacon.beaconFields s.beaconFields s.beaconFieldsLength
        maxBeaconFieldsLength ∧
      Untouched vars.incomingBeacon.beaconPayload s.beaconPayload maxBeaconPayloadLength.toNat)
    (makes_buffer fun _ _ _ hl hb h =>
      ⟨h.1, ⟨toUInt16_length_le hl hfields, h.2.1.write hb⟩, h.2.2⟩) ?_
  exact .keeps (fun _ _ h => h) (.makes _ (makes_buffer fun _ _ _ hl hb h =>
    ⟨h.1, h.2.1, toUInt16_length_le hl hpayload, h.2.2.write hb⟩) .nil)

/-! ## The dispatcher -/

/-- The identifiers of the switch. -/
def callbackCommandIds : List UInt16 :=
  [emberStackStatusHandlerIpcCommandId, emberChildJoinHandlerIpcCommandId,
    emberRadioNeedsCalibratingHandlerIpcCommandId, emberMessageSentHandlerIpcCommandId,
    emberIncomingMessageHandlerIpcCommandId, emberIncomingMacMessageHandlerIpcCommandId,
    emberMacMessageSentHandlerIpcCommandId, emberIncomingBeaconHandlerIpcCommandId,
    emberActiveScanCompleteHandlerIpcCommandId, emberEnergyScanCompleteHandlerIpcCommandId,
    emberFrequencyHoppingStartClientCompleteHandlerIpcCommandId]

/-- A handler always returns. -/
theorem exists_map_fetched (long : Bool) (m : Mem) (p : ℕ) (xs : List (Pointer V)) (v : V)
    (f : V → Callback) : ∃ w, (fetchCallbackParams long m p xs v).map f = some (f w) :=
  ⟨fetched long m p xs v, by rw [fetchCallbackParams_fetched]; rfl⟩

/-- The handler that is picked by an identifier. -/
theorem exists_handled (long : Bool) (vars : Locals) (m : Mem) (p : ℕ) {commandId : UInt16}
    (h : commandId ∈ callbackCommandIds) :
    ∃ c, sliConnectNcpHandleIndication long vars m commandId p = some c ∧
      c.commandId = commandId ∧ Bounded vars c := by
  simp only [callbackCommandIds, List.mem_cons, List.not_mem_nil, or_false] at h
  rcases h with rfl | rfl | rfl | rfl | rfl | rfl | rfl | rfl | rfl | rfl | rfl
  · obtain ⟨w, hw⟩ : ∃ w, stackStatusCommandHandler long m p vars.stackStatus =
        some (.stackStatus w) := exists_map_fetched _ _ _ _ _ _
    exact ⟨_, hw, rfl, trivial⟩
  · obtain ⟨w, hw⟩ : ∃ w : UInt8 × UInt16, childJoinCommandHandler long m p vars.childJoin =
        some (.childJoin w.1 w.2) := exists_map_fetched _ _ _ _ _ _
    exact ⟨_, hw, rfl, trivial⟩
  · exact ⟨_, rfl, rfl, trivial⟩
  · obtain ⟨w, hw⟩ : ∃ w : UInt8 × OutgoingMessage,
        messageSentCommandHandler long m p vars.messageSent = some (.messageSent w.1 w.2) :=
      exists_map_fetched _ _ _ _ _ _
    exact ⟨_, hw, rfl, bounded_messageSent hw⟩
  · obtain ⟨w, hw⟩ : ∃ w, incomingMessageCommandHandler long m p vars.incomingMessage =
        some (.incomingMessage w) := exists_map_fetched _ _ _ _ _ _
    exact ⟨_, hw, rfl, bounded_incomingMessage hw⟩
  · obtain ⟨w, hw⟩ : ∃ w, incomingMacMessageCommandHandler long m p vars.incomingMacMessage =
        some (.incomingMacMessage w) := exists_map_fetched _ _ _ _ _ _
    exact ⟨_, hw, rfl, bounded_incomingMacMessage hw⟩
  · obtain ⟨w, hw⟩ : ∃ w : UInt8 × OutgoingMacMessage,
        macMessageSentCommandHandler long m p vars.macMessageSent =
          some (.macMessageSent w.1 w.2) :=
      exists_map_fetched _ _ _ _ _ _
    exact ⟨_, hw, rfl, bounded_macMessageSent hw⟩
  · obtain ⟨w, hw⟩ : ∃ w, incomingBeaconCommandHandler long m p vars.incomingBeacon =
        some (.incomingBeacon w) := exists_map_fetched _ _ _ _ _ _
    exact ⟨_, hw, rfl, bounded_incomingBeacon hw⟩
  · exact ⟨_, rfl, rfl, trivial⟩
  · obtain ⟨w, hw⟩ : ∃ w, energyScanCompleteCommandHandler long m p vars.energyScanComplete =
        some (.energyScanComplete w) := exists_map_fetched _ _ _ _ _ _
    exact ⟨_, hw, rfl, trivial⟩
  · obtain ⟨w, hw⟩ : ∃ w, frequencyHoppingStartClientCompleteCommandHandler long m p
        vars.frequencyHoppingStartClientComplete =
          some (.frequencyHoppingStartClientComplete w) := exists_map_fetched _ _ _ _ _ _
    exact ⟨_, hw, rfl, trivial⟩

/-- **Whatever a frame holds, a handler stays within its arrays**, and calls the application with
lengths within them; the dispatcher ends in `FATAL` for unknown identifiers alone. -/
theorem bounded_of_handled (long : Bool) (vars : Locals) (m : Mem) (commandId : UInt16) (p : ℕ) :
    (∀ c, sliConnectNcpHandleIndication long vars m commandId p = some c →
      c.commandId = commandId ∧ Bounded vars c) ∧
    (sliConnectNcpHandleIndication long vars m commandId p = none ↔
      commandId ∉ callbackCommandIds) := by
  by_cases h : commandId ∈ callbackCommandIds
  · obtain ⟨c, hc, hid, hb⟩ := exists_handled long vars m p h
    constructor
    · rintro c' hc'
      obtain rfl := Option.some.inj (hc.symm.trans hc')
      exact ⟨hid, hb⟩
    · rw [hc]
      exact ⟨fun hn => absurd hn (by simp), fun hn => absurd h hn⟩
  · have hnone : sliConnectNcpHandleIndication long vars m commandId p = none := by
      simp only [callbackCommandIds, List.mem_cons, List.not_mem_nil, or_false, not_or] at h
      simp only [sliConnectNcpHandleIndication, h, if_false]
    rw [hnone]
    exact ⟨fun c hc => absurd hc (by simp), fun _ => h, fun _ => rfl⟩

end ConnectNcpHost.Csp.CallbackBounds
