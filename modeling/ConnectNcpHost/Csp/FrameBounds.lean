import ConnectNcpHost.Csp.Codec

/-! # The bytes a decoded value is made of

`fetchParams` is given the address behind the identifier, and not the length of the frame: it follows
the format, and the lengths it reads on the way. `footprint` are the addresses its results are made
of. They decide: as long as they lie in the frame the results depend on the frame only, and once one
of them lies behind it the results depend on what happens to stand there (`decoded_iff`). -/

namespace ConnectNcpHost.Csp.FrameBounds

open ConnectNcpHost.Lib.Bytes ConnectNcpHost.Stack.ByteUtilities
open ConnectNcpHost.Csp.Format ConnectNcpHost.Csp.Codec

variable {long : Bool} {m m' : Mem} {c : Char} {p next : ℕ} {args rest : List VaArg} {store : Store}

/-! ## What the caller is given -/

/-- The bytes a stored address leads to. -/
def pointedTo (m : Mem) : Store → List UInt8
  | .pointer length (some address) => m.read address length.toNat
  | _ => []

/-- **What `fetchParams` gives to its caller**: the variables, and the bytes behind the pointers. -/
def decoded (long : Bool) (m : Mem) (format : List Char) (p : ℕ) (args : List VaArg) :
    Option (List (Store × List UInt8)) :=
  (fetchParams long m format p args).map fun r => r.1.map fun store => (store, pointedTo m store)

/-- The bytes of a length. -/
def lengthWidth (long : Bool) : ℕ := if long then 2 else 1

/-- The addresses a store is made of, where `readPointer` has moved from `p` to `next`. -/
def storeFootprint (long : Bool) (p next : ℕ) : Store → List ℕ
  | .uint8 (some _) | .uint16 (some _) | .uint32 (some _) => List.range' p (next - p)
  | .buffer _ (some bytes) =>
    List.range' p (lengthWidth long) ++ List.range' (p + lengthWidth long) bytes.length
  | .pointer length (some _) =>
    List.range' p (lengthWidth long) ++ List.range' (p + lengthWidth long) length.toNat
  | .buffer _ none | .pointer _ none => List.range' p (lengthWidth long)
  | _ => []

/-- The addresses the results of `fetchParams` are made of. -/
def footprint (long : Bool) (m : Mem) : List Char → ℕ → List VaArg → List ℕ
  | [], _, _ => []
  | c :: format, p, args =>
    match fetchParam long m c p args with
    | none => []
    | some (store, next, rest) =>
      storeFootprint long p next store ++ footprint long m format next rest

theorem decoded_cons (format : List Char) (h : fetchParam long m c p args = some (store, next, rest)) :
    decoded long m (c :: format) p args =
      (decoded long m format next rest).map ((store, pointedTo m store) :: ·) := by
  unfold decoded
  rw [fetchParams, h]
  simp only [Option.bind_eq_bind, Option.bind_some]
  cases fetchParams long m format next rest <;> rfl

theorem decoded_cons_none (format : List Char) (h : fetchParam long m c p args = none) :
    decoded long m (c :: format) p args = none := by
  unfold decoded
  rw [fetchParams, h]
  rfl

theorem footprint_cons (format : List Char)
    (h : fetchParam long m c p args = some (store, next, rest)) :
    footprint long m (c :: format) p args =
      storeFootprint long p next store ++ footprint long m format next rest := by
  rw [footprint, h]

/-! ## Memories that agree on the footprint -/

theorem read_congr_of_mem {a n : ℕ} (h : ∀ i ∈ List.range' a n, m' i = m i) :
    m'.read a n = m.read a n :=
  Memory.read_congr fun i h1 h2 => h i (List.mem_range'_1.mpr ⟨h1, h2⟩)

theorem fetch16_congr (h : m'.read p 2 = m.read p 2) :
    emberFetchHighLowInt16u m' p = emberFetchHighLowInt16u m p :=
  fetch_of_read16 (h.trans (read_of_fetch16 m p).symm)

theorem fetch32_congr (h : m'.read p 4 = m.read p 4) :
    emberFetchHighLowInt32u m' p = emberFetchHighLowInt32u m p :=
  fetch_of_read32 (h.trans (read_of_fetch32 m p).symm)

theorem fetchLength_snd (long : Bool) (m : Mem) (p : ℕ) :
    (fetchLength long m p).2 = p + lengthWidth long := by
  cases long <;> rfl

theorem fetchLength_congr (h : m'.read p (lengthWidth long) = m.read p (lengthWidth long)) :
    fetchLength long m' p = fetchLength long m p := by
  cases long with
  | true => exact Prod.ext (fetch16_congr h) rfl
  | false => exact Prod.ext (congrArg UInt8.toUInt16 (List.cons.inj h).1) rfl

/-- The bytes of the length are part of what a buffer is made of. -/
theorem length_mem_buffer {next i : ℕ} (length : UInt16) (bytes : Option (List UInt8))
    (hi : i ∈ List.range' p (lengthWidth long)) :
    i ∈ storeFootprint long p next (.buffer length bytes) := by
  cases bytes with
  | none => exact hi
  | some bytes => exact List.mem_append_left _ hi

theorem length_mem_pointer {next i : ℕ} (length : UInt16) (address : Option ℕ)
    (hi : i ∈ List.range' p (lengthWidth long)) :
    i ∈ storeFootprint long p next (.pointer length address) := by
  cases address with
  | none => exact hi
  | some address => exact List.mem_append_left _ hi

/-- How many bytes of a buffer are moved. -/
def movedLength (bufferLength bufferAvailableSize : UInt16) : ℕ :=
  (if bufferLength ≤ bufferAvailableSize then bufferLength else bufferAvailableSize).toNat

theorem fetchBuffer_moved (long : Bool) (m : Mem) (p : ℕ) (isNull : Bool)
    (isUint8 available : UInt32) (args : List VaArg) :
    fetchBuffer long m isNull p
      (.unsignedInt isUint8 :: .out false :: .unsignedInt available :: args) =
      some (.buffer (storedLength isUint8.toUInt8 (fetchLength long m p).1 available.toUInt16)
          (unlessNull isNull (m.read (p + lengthWidth long)
            (movedLength (fetchLength long m p).1 available.toUInt16))),
        p + lengthWidth long + (fetchLength long m p).1.toNat, args) := by
  rw [← fetchLength_snd long m p]
  rfl

theorem fetchPointer_moved (long : Bool) (m : Mem) (p : ℕ) (isNull : Bool) (isUint8 : UInt32)
    (args : List VaArg) :
    fetchPointer long m isNull p (.unsignedInt isUint8 :: .out false :: args) =
      some (.pointer (storedPointerLength isUint8.toUInt8 (fetchLength long m p).1)
          (unlessNull isNull (p + lengthWidth long)),
        p + lengthWidth long + (fetchLength long m p).1.toNat, args) := by
  rw [← fetchLength_snd long m p]
  rfl

theorem fetchBuffer_congr {isNull : Bool}
    (hr : fetchBuffer long m isNull p args = some (store, next, rest))
    (h : ∀ i ∈ storeFootprint long p next store, m' i = m i) :
    fetchBuffer long m' isNull p args = some (store, next, rest) ∧
      pointedTo m' store = pointedTo m store := by
  unfold fetchBuffer at hr
  split at hr
  · next isUint8 available args =>
    have hr' := (fetchBuffer_moved long m p isNull isUint8 available args).symm.trans hr
    simp only [Option.some.injEq, Prod.mk.injEq] at hr'
    obtain ⟨rfl, rfl, rfl⟩ := hr'
    have hlen : fetchLength long m' p = fetchLength long m p :=
      fetchLength_congr (read_congr_of_mem fun i hi => h i (length_mem_buffer _ _ hi))
    refine ⟨?_, rfl⟩
    rw [fetchBuffer_moved, hlen]
    cases isNull with
    | true => rfl
    | false =>
      have hbytes : m'.read (p + lengthWidth long)
          (movedLength (fetchLength long m p).1 available.toUInt16) = m.read (p + lengthWidth long)
          (movedLength (fetchLength long m p).1 available.toUInt16) :=
        read_congr_of_mem fun i hi => h i (List.mem_append_right _ (by simpa using hi))
      rw [hbytes]
  · cases hr

theorem fetchPointer_congr {isNull : Bool}
    (hr : fetchPointer long m isNull p args = some (store, next, rest))
    (h : ∀ i ∈ storeFootprint long p next store, m' i = m i) :
    fetchPointer long m' isNull p args = some (store, next, rest) ∧
      pointedTo m' store = pointedTo m store := by
  unfold fetchPointer at hr
  split at hr
  · next isUint8 args =>
    have hr' := (fetchPointer_moved long m p isNull isUint8 args).symm.trans hr
    simp only [Option.some.injEq, Prod.mk.injEq] at hr'
    obtain ⟨rfl, rfl, rfl⟩ := hr'
    have hlen : fetchLength long m' p = fetchLength long m p :=
      fetchLength_congr (read_congr_of_mem fun i hi => h i (length_mem_pointer _ _ hi))
    refine ⟨by rw [fetchPointer_moved, hlen], ?_⟩
    cases isNull with
    | true => rfl
    | false => exact read_congr_of_mem fun i hi => h i (List.mem_append_right _ hi)
  · cases hr

theorem unlessNull_congr {α : Type} {isNull : Bool} {x y : α} (h : isNull = false → x = y) :
    unlessNull isNull x = unlessNull isNull y := by
  cases isNull with
  | true => rfl
  | false => exact congrArg some (h rfl)

theorem byte_of_read (h : m'.read p 1 = m.read p 1) : m' p = m p := (List.cons.inj h).1

/-- **One character of the format depends on its footprint.** -/
theorem fetchParam_congr (hr : fetchParam long m c p args = some (store, next, rest))
    (h : ∀ i ∈ storeFootprint long p next store, m' i = m i) :
    fetchParam long m' c p args = some (store, next, rest) ∧
      pointedTo m' store = pointedTo m store := by
  unfold fetchParam at hr ⊢
  split at hr
  · next isNull args =>
    have hread : ∀ n, next = p + n → storeFootprint long p next store = List.range' p (next - p) →
        m'.read p n = m.read p n := by
      intro n hn hs
      rw [hs, hn, Nat.add_sub_cancel_left] at h
      exact read_congr_of_mem h
    -- the bytes of a scalar count where its pointer is not null
    have hscalar : ∀ {α : Type} (n : ℕ) (f : Mem → α), (m'.read p n = m.read p n → f m' = f m) →
        next = p + n →
        (isNull = false → storeFootprint long p next store = List.range' p (next - p)) →
        unlessNull isNull (f m') = unlessNull isNull (f m) := by
      intro α n f hf hn hs
      exact unlessNull_congr fun h0 => hf (hread n hn (hs h0))
    split at hr
    · simp only [Option.some.injEq, Prod.mk.injEq] at hr
      obtain ⟨rfl, rfl, rfl⟩ := hr
      have hv := hscalar 1 (fun m => m p) byte_of_read rfl fun h0 => by subst h0; rfl
      exact ⟨by rw [hv], rfl⟩
    · simp only [Option.some.injEq, Prod.mk.injEq] at hr
      obtain ⟨rfl, rfl, rfl⟩ := hr
      have hv := hscalar 1 (fun m => m p) byte_of_read rfl fun h0 => by subst h0; rfl
      exact ⟨by rw [hv], rfl⟩
    · split_ifs at hr with hn
      simp only [Option.some.injEq, Prod.mk.injEq] at hr
      obtain ⟨rfl, rfl, rfl⟩ := hr
      have hv := fetch16_congr (hread 2 rfl rfl)
      exact ⟨by rw [if_neg hn, hv], rfl⟩
    · split_ifs at hr with hl hn
      · simp only [Option.some.injEq, Prod.mk.injEq] at hr
        obtain ⟨rfl, rfl, rfl⟩ := hr
        have hv := fetch16_congr (hread 2 rfl rfl)
        exact ⟨by rw [if_pos hl, if_neg hn, hv], rfl⟩
      · simp only [Option.some.injEq, Prod.mk.injEq] at hr
        obtain ⟨rfl, rfl, rfl⟩ := hr
        have hv := hscalar 1 (fun m => (m p).toUInt16) (fun h1 => by rw [byte_of_read h1]) rfl
          fun h0 => by subst h0; rfl
        exact ⟨by rw [if_neg hl, hv], rfl⟩
    · simp only [Option.some.injEq, Prod.mk.injEq] at hr
      obtain ⟨rfl, rfl, rfl⟩ := hr
      have hv := hscalar 4 (fun m => emberFetchHighLowInt32u m p) fetch32_congr rfl
        fun h0 => by subst h0; rfl
      exact ⟨by rw [hv], rfl⟩
    · exact fetchBuffer_congr hr h
    · exact fetchPointer_congr hr h
    · simp only [Option.some.injEq, Prod.mk.injEq] at hr
      obtain ⟨rfl, rfl, rfl⟩ := hr
      exact ⟨rfl, rfl⟩
  · cases hr

/-- Whether the arguments are those the character asks for does not depend on the memory. -/
theorem fetchParam_eq_none (h : fetchParam long m c p args = none) :
    fetchParam long m' c p args = none := by
  unfold fetchParam fetchBuffer fetchPointer at h ⊢
  split at h
  · next isNull args =>
    split at h
    · cases h
    · cases h
    · split_ifs at h with hn
      exact if_pos hn
    · split_ifs at h with hl hn
      rw [if_pos hl, if_pos hn]
    · cases h
    · split at h
      · cases h
      · rfl
    · split at h
      · cases h
      · rfl
    · cases h
  · rfl

/-- **Memories that agree on the footprint decode alike.** -/
theorem decoded_congr : ∀ {format : List Char} {p : ℕ} {args : List VaArg},
    (∀ i ∈ footprint long m format p args, m' i = m i) →
    decoded long m' format p args = decoded long m format p args
  | [], _, _, _ => rfl
  | c :: format, p, args, h => by
    rcases hr : fetchParam long m c p args with _ | ⟨store, next, rest⟩
    · rw [decoded_cons_none format hr, decoded_cons_none format (fetchParam_eq_none hr)]
    · rw [footprint_cons format hr] at h
      obtain ⟨hr', hb⟩ := fetchParam_congr hr fun i hi => h i (List.mem_append_left _ hi)
      have ih := decoded_congr fun i hi => h i (List.mem_append_right _ hi)
      rw [decoded_cons format hr, decoded_cons format hr', hb, ih]

/-- `readPointer` moves on. -/
theorem le_next (hr : fetchParam long m c p args = some (store, next, rest)) : p ≤ next := by
  unfold fetchParam at hr
  split at hr
  · next isNull args =>
    split at hr
    · cases hr; exact Nat.le_add_right p 1
    · cases hr; exact Nat.le_add_right p 1
    · split_ifs at hr
      cases hr; exact Nat.le_add_right p 2
    · split_ifs at hr
      · cases hr; exact Nat.le_add_right p 2
      · cases hr; exact Nat.le_add_right p 1
    · simp only [Option.some.injEq, Prod.mk.injEq] at hr
      omega
    · unfold fetchBuffer at hr
      split at hr
      · next isUint8 available args =>
        have hr' := (fetchBuffer_moved long m p isNull isUint8 available args).symm.trans hr
        simp only [Option.some.injEq, Prod.mk.injEq] at hr'
        omega
      · cases hr
    · unfold fetchPointer at hr
      split at hr
      · next isUint8 args =>
        have hr' := (fetchPointer_moved long m p isNull isUint8 args).symm.trans hr
        simp only [Option.some.injEq, Prod.mk.injEq] at hr'
        omega
      · cases hr
    · cases hr; exact le_refl p
  · cases hr

theorem le_of_mem_storeFootprint {i : ℕ} (h : i ∈ storeFootprint long p next store) : p ≤ i := by
  unfold storeFootprint at h
  split at h <;> simp only [List.mem_append, List.mem_range'_1, List.not_mem_nil] at h <;> omega

/-- Nothing before the place where the decoder starts is read. -/
theorem le_of_mem_footprint : ∀ {format : List Char} {p : ℕ} {args : List VaArg} {i : ℕ},
    i ∈ footprint long m format p args → p ≤ i
  | [], _, _, _, h => by cases h
  | c :: format, p, args, i, h => by
    rcases hr : fetchParam long m c p args with _ | ⟨store, next, rest⟩
    · rw [footprint, hr] at h
      cases h
    · rw [footprint_cons format hr] at h
      rcases List.mem_append.mp h with h | h
      · exact le_of_mem_storeFootprint h
      · exact (le_next hr).trans (le_of_mem_footprint h)

/-! ## A footprint that leaves the frame -/

/-- The arguments of one character, with nothing null and room for a byte at least. -/
inductive TakesAll : Char → List VaArg → List VaArg → Prop
  | scalar {c : Char} {rest : List VaArg} (hc : c ∈ ['s', 'u', 'v', 'l', 'w']) :
      TakesAll c (.out false :: rest) rest
  | buffer {isUint8 available : UInt32} {rest : List VaArg} (ha : available.toUInt16 ≠ 0) :
      TakesAll 'b'
        (.out false :: .unsignedInt isUint8 :: .out false :: .unsignedInt available :: rest) rest
  | pointer {isUint8 : UInt32} {rest : List VaArg} :
      TakesAll 'p' (.out false :: .unsignedInt isUint8 :: .out false :: rest) rest

/-- The arguments of a format, with nothing null and no capacity zero. -/
inductive ReceivesAll : List Char → List VaArg → Prop
  | nil {args : List VaArg} : ReceivesAll [] args
  | cons {c : Char} {format : List Char} {args rest : List VaArg} (h : TakesAll c args rest)
      (hs : ReceivesAll format rest) : ReceivesAll (c :: format) args

/-- The memory with every byte from `e` on changed. -/
def changedFrom (m : Mem) (e : ℕ) : Mem := fun i => if i < e then m i else m i + 1

theorem changedFrom_of_lt {e i : ℕ} (h : i < e) : changedFrom m e i = m i := if_pos h

theorem changedFrom_ne {e i : ℕ} (h : e ≤ i) : changedFrom m e i ≠ m i := by
  unfold changedFrom
  rw [if_neg (by omega)]
  exact add_one_ne (m i)

theorem eq_of_read_eq {a n i : ℕ} (h : m'.read a n = m.read a n) (hi : i ∈ List.range' a n) :
    m' i = m i := by
  obtain ⟨h1, h2⟩ := List.mem_range'_1.mp hi
  have := List.map_inj_left.mp h (i - a) (List.mem_range.mpr (by omega))
  rwa [show a + (i - a) = i by omega] at this

theorem read16_of_fetch_eq (h : emberFetchHighLowInt16u m' p = emberFetchHighLowInt16u m p) :
    m'.read p 2 = m.read p 2 := by
  rw [← read_of_fetch16, ← read_of_fetch16, h]

theorem read32_of_fetch_eq (h : emberFetchHighLowInt32u m' p = emberFetchHighLowInt32u m p) :
    m'.read p 4 = m.read p 4 := by
  rw [← read_of_fetch32, ← read_of_fetch32, h]

theorem read_of_fetchLength_eq (h : (fetchLength long m' p).1 = (fetchLength long m p).1) :
    m'.read p (lengthWidth long) = m.read p (lengthWidth long) := by
  cases long with
  | true => exact read16_of_fetch_eq h
  | false =>
    have hp : m' p = m p := by
      simpa using congrArg UInt16.toUInt8 (show (m' p).toUInt16 = (m p).toUInt16 from h)
    exact congrArg (· :: []) hp

/-- A scalar tells the bytes it was made of. -/
theorem exists_scalar (long : Bool) (p : ℕ) (rest : List VaArg)
    (hc : c ∈ ['s', 'u', 'v', 'l', 'w']) : ∃ n, ∃ store : Mem → Store,
    (∀ m, fetchParam long m c p (.out false :: rest) = some (store m, p + n, rest)) ∧
    (∀ m, storeFootprint long p (p + n) (store m) = List.range' p n) ∧
    ∀ m m', store m' = store m → m'.read p n = m.read p n := by
  have hsub : ∀ n, List.range' p (p + n - p) = List.range' p n := fun n => by
    rw [Nat.add_sub_cancel_left]
  have hbyte : ∀ m m' : Mem, m' p = m p → m'.read p 1 = m.read p 1 := fun _ _ h =>
    congrArg (· :: []) h
  simp only [List.mem_cons, List.not_mem_nil, or_false] at hc
  rcases hc with rfl | rfl | rfl | rfl | rfl
  · exact ⟨1, fun m => .uint8 (some (m p)), fun _ => rfl, fun _ => hsub 1,
      fun m m' h => hbyte m m' (by simpa using h)⟩
  · exact ⟨1, fun m => .uint8 (some (m p)), fun _ => rfl, fun _ => hsub 1,
      fun m m' h => hbyte m m' (by simpa using h)⟩
  · exact ⟨2, fun m => .uint16 (some (emberFetchHighLowInt16u m p)), fun _ => rfl, fun _ => hsub 2,
      fun m m' h => read16_of_fetch_eq (by simpa using h)⟩
  · cases long with
    | true =>
      exact ⟨2, fun m => .uint16 (some (emberFetchHighLowInt16u m p)), fun _ => rfl,
        fun _ => hsub 2, fun m m' h => read16_of_fetch_eq (by simpa using h)⟩
    | false =>
      refine ⟨1, fun m => .uint16 (some (m p).toUInt16), fun _ => rfl, fun _ => hsub 1,
        fun m m' h => hbyte m m' ?_⟩
      have h16 : (m' p).toUInt16 = (m p).toUInt16 := by simpa using h
      simpa using congrArg UInt16.toUInt8 h16
  · exact ⟨4, fun m => .uint32 (some (emberFetchHighLowInt32u m p)), fun _ => rfl, fun _ => hsub 4,
      fun m m' h => read32_of_fetch_eq (by simpa using h)⟩

theorem movedLength_eq_zero {bufferLength available : UInt16} (ha : available ≠ 0)
    (h : movedLength bufferLength available = 0) : bufferLength = 0 := by
  unfold movedLength at h
  split_ifs at h with hle
  · exact UInt16.toNat_inj.mp h
  · exact absurd (UInt16.toNat_inj.mp h) ha

/-- The bytes of a buffer tell where its length and its contents stood. -/
theorem buffer_ne {e i : ℕ} {available : UInt16} (ha : available ≠ 0) (he : e ≤ i)
    (hi : i ∈ List.range' p (lengthWidth long) ++
      List.range' (p + lengthWidth long) (movedLength (fetchLength long m p).1 available)) :
    (changedFrom m e).read (p + lengthWidth long)
        (movedLength (fetchLength long (changedFrom m e) p).1 available) ≠
      m.read (p + lengthWidth long) (movedLength (fetchLength long m p).1 available) := by
  intro h
  have hlen := congrArg List.length h
  rw [Memory.length_read, Memory.length_read] at hlen
  rw [hlen] at h
  rcases List.mem_append.mp hi with hi | hi
  · rcases Nat.eq_zero_or_pos (movedLength (fetchLength long m p).1 available) with h0 | h0
    · -- nothing was moved, so both lengths are zero
      have hl := movedLength_eq_zero ha h0
      have hl' := movedLength_eq_zero ha (hlen.trans h0)
      exact changedFrom_ne he (eq_of_read_eq (read_of_fetchLength_eq (hl'.trans hl.symm)) hi)
    · -- the first byte that was moved stands behind the frame too
      have hlt := (List.mem_range'_1.mp hi).2
      have hmem : p + lengthWidth long ∈ List.range' (p + lengthWidth long)
          (movedLength (fetchLength long m p).1 available) :=
        List.mem_range'_1.mpr ⟨le_refl _, by omega⟩
      exact changedFrom_ne (by omega) (eq_of_read_eq h hmem)
  · exact changedFrom_ne he (eq_of_read_eq h hi)

/-- The low byte of a length is the last byte of its prefix. -/
theorem fetchLength_lowByte (long : Bool) (m : Mem) (p : ℕ) :
    (fetchLength long m p).1.toUInt8 = m (p + lengthWidth long - 1) := by
  cases long with
  | true => exact (List.cons.inj (List.cons.inj (read_of_fetch16 m p)).2).1
  | false => simp [fetchLength, lengthWidth]

/-- The length next to a pointer, and the bytes behind it, tell where they stood. -/
theorem pointer_ne {e i : ℕ} {isUint8 : UInt8} (he : e ≤ i)
    (hi : i ∈ List.range' p (lengthWidth long) ++ List.range' (p + lengthWidth long)
      (storedPointerLength isUint8 (fetchLength long m p).1).toNat)
    (hs : storedPointerLength isUint8 (fetchLength long (changedFrom m e) p).1 =
      storedPointerLength isUint8 (fetchLength long m p).1)
    (hb : (changedFrom m e).read (p + lengthWidth long)
        (storedPointerLength isUint8 (fetchLength long m p).1).toNat =
      m.read (p + lengthWidth long) (storedPointerLength isUint8 (fetchLength long m p).1).toNat) :
    False := by
  rcases List.mem_append.mp hi with hi | hi
  · have hlast : changedFrom m e (p + lengthWidth long - 1) = m (p + lengthWidth long - 1) := by
      rw [← fetchLength_lowByte long m p, ← fetchLength_lowByte long (changedFrom m e) p]
      unfold storedPointerLength at hs
      split_ifs at hs
      · simpa only [and_0xFF_toUInt8, UInt8.toUInt8_toUInt16] using congrArg UInt16.toUInt8 hs
      · rw [hs]
    have hlt := (List.mem_range'_1.mp hi).2
    exact changedFrom_ne (by omega) hlast
  · exact changedFrom_ne he (eq_of_read_eq hb hi)

/-- **A character whose footprint leaves the frame is decoded from what stands behind it.** -/
theorem exists_fetchParam_ne (h : TakesAll c args rest) (long : Bool) (m : Mem) (e p : ℕ) :
    ∃ store store' next next', fetchParam long m c p args = some (store, next, rest) ∧
      fetchParam long (changedFrom m e) c p args = some (store', next', rest) ∧
      ∀ i ∈ storeFootprint long p next store, e ≤ i →
        (store', pointedTo (changedFrom m e) store') ≠ (store, pointedTo m store) := by
  cases h with
  | scalar hc =>
    obtain ⟨n, store, hr, hf, hs⟩ := exists_scalar long p rest hc
    refine ⟨store m, store (changedFrom m e), p + n, p + n, hr m, hr _, fun i hi he heq => ?_⟩
    rw [hf] at hi
    exact changedFrom_ne he (eq_of_read_eq (hs _ _ (Prod.mk.inj heq).1) hi)
  | buffer ha =>
    refine ⟨_, _, _, _, fetchBuffer_moved long m p false _ _ rest,
      fetchBuffer_moved long (changedFrom m e) p false _ _ rest, fun i hi he heq => ?_⟩
    simp only [unlessNull, storeFootprint, Bool.false_eq_true, if_false, Memory.length_read] at hi
    have hbytes := Option.some.inj (Store.buffer.inj (Prod.mk.inj heq).1).2
    exact buffer_ne ha he hi hbytes
  | pointer =>
    refine ⟨_, _, _, _, fetchPointer_moved long m p false _ rest,
      fetchPointer_moved long (changedFrom m e) p false _ rest, fun i hi he heq => ?_⟩
    obtain ⟨hs, hb⟩ := Prod.mk.inj heq
    have hl := (Store.pointer.inj hs).1
    simp only [unlessNull, pointedTo, Bool.false_eq_true, if_false, hl] at hb
    exact pointer_ne he hi hl hb

theorem exists_decoded (long : Bool) (m : Mem) {format : List Char} (h : ReceivesAll format args) :
    ∀ p, ∃ r, decoded long m format p args = some r := by
  induction h with
  | nil => exact fun _ => ⟨_, rfl⟩
  | @cons c format args rest h _ ih =>
    intro p
    obtain ⟨store, -, next, -, hr, -, -⟩ := exists_fetchParam_ne h long m 0 p
    obtain ⟨r, ih⟩ := ih next
    exact ⟨_, by rw [decoded_cons format hr, ih]; rfl⟩

/-- **Where the footprint leaves the frame, other bytes behind the frame are decoded to other
values.** -/
theorem decoded_ne {e : ℕ} {format : List Char} (h : ReceivesAll format args) : ∀ {p i : ℕ},
    i ∈ footprint long m format p args → e ≤ i →
      decoded long (changedFrom m e) format p args ≠ decoded long m format p args := by
  induction h with
  | nil => intro p i hi; cases hi
  | @cons c format args rest h hs ih =>
    intro p i hi he heq
    obtain ⟨store, store', next, next', hr, hr', hne⟩ := exists_fetchParam_ne h long m e p
    obtain ⟨r, hd⟩ := exists_decoded long m hs next
    obtain ⟨r', hd'⟩ := exists_decoded long (changedFrom m e) hs next'
    rw [footprint_cons format hr] at hi
    rw [decoded_cons format hr, decoded_cons format hr', hd, hd', Option.map_some, Option.map_some,
      Option.some.injEq] at heq
    obtain ⟨hhead, htail⟩ := List.cons.inj heq
    by_cases hin : ∀ j ∈ storeFootprint long p next store, j < e
    · -- the first character reads inside of the frame: a later one leaves it
      have hc := (fetchParam_congr hr fun j hj => changedFrom_of_lt (hin j hj)).1
      have hnext : next' = next := by
        have := hr'.symm.trans hc
        simp only [Option.some.injEq, Prod.mk.injEq] at this
        exact this.2.1
      rcases List.mem_append.mp hi with hi | hi
      · have := hin i hi
        omega
      · refine ih hi he ?_
        rw [hd, ← hnext, hd', htail]
    · push Not at hin
      obtain ⟨j, hj, hje⟩ := hin
      exact hne j hj hje hhead

/-! ## Frames -/

/-- The bytes of the frame of `n` bytes at `b` decide what is decoded from it. -/
def DependsOnFrame (long : Bool) (m : Mem) (b n : ℕ) (format : List Char) (args : List VaArg) :
    Prop :=
  ∀ m' : Mem, m'.read b n = m.read b n →
    decoded long m' format (b + 2) args = decoded long m format (b + 2) args

/-- Everything that is decoded stands in the frame of `n` bytes at `b`. -/
def WithinFrame (long : Bool) (m : Mem) (b n : ℕ) (format : List Char) (args : List VaArg) : Prop :=
  ∀ i ∈ footprint long m format (b + 2) args, b ≤ i ∧ i < b + n

/-- **What is decoded from a frame depends on the frame only, exactly when the fields that the format
names, with the lengths found in it, end within the frame.** -/
theorem decoded_iff (long : Bool) (m : Mem) (b n : ℕ) (format : List Char) (args : List VaArg) :
    (WithinFrame long m b n format args → DependsOnFrame long m b n format args) ∧
      (ReceivesAll format args → DependsOnFrame long m b n format args →
        WithinFrame long m b n format args) := by
  constructor
  · intro h m' hm
    refine decoded_congr fun i hi => ?_
    obtain ⟨h1, h2⟩ := h i hi
    exact eq_of_read_eq hm (List.mem_range'_1.mpr ⟨h1, h2⟩)
  · intro hr h i hi
    have hle := le_of_mem_footprint hi
    refine ⟨by omega, ?_⟩
    by_contra hlt
    refine decoded_ne hr hi (Nat.le_of_not_lt hlt) (h _ ?_)
    exact Memory.read_congr fun j _ hj => changedFrom_of_lt hj

/-- **A response without its status byte**: the status is the byte an older response has left. -/
theorem decoded_stale : ¬ ∀ (long : Bool) (m : Mem) (b n : ℕ) (format : List Char)
    (args : List VaArg), DependsOnFrame long m b n format args := by
  intro h
  have hm := h false (Memory.write (fun _ => 0) 0 [0x69, 0x16, 0x00]) 0 2 ['u'] [.out false]
    (Memory.write (fun _ => 0) 0 [0x69, 0x16, 0x74]) (by decide)
  exact absurd hm (by decide)

/-- The status byte is read behind a frame of two bytes, and within one of three. -/
example : footprint false (fun _ => 0) ['u'] 2 [.out false] = [2] := by decide

end ConnectNcpHost.Csp.FrameBounds
