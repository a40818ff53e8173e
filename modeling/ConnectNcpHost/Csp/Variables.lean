import ConnectNcpHost.Csp.RoundTrip
import ConnectNcpHost.Csp.Outputs

/-! # The variables of a caller of `fetchParams`

A handler passes `fetchCallbackParams` a format and pointers to its local variables, a function of
the API passes them to `fetchApiParams`. `Pointer V` is such a pointer, where `V` are the variables:
what is asked for through it, and the assignment. The assignments are made in the order of the
format, so two pointers to one variable, or to the members of a union, leave what the later one has
stored.

`fetchCallbackParams_eq`: where the bytes of items stand, the variables are assigned these items. -/

namespace ConnectNcpHost.Csp.Variables

open ConnectNcpHost.Lib.Bytes ConnectNcpHost.Stack.ByteUtilities
open ConnectNcpHost.Csp.Format ConnectNcpHost.Csp.Codec ConnectNcpHost.Csp.RoundTrip
open ConnectNcpHost.Csp.Outputs

variable {V : Type} {long : Bool} {m : Mem} {p : ℕ}

/-! ## Pointers -/

/-- `CSP_FETCH_ARG_IS_UINT16` -/
def cspFetchArgIsUint16 : UInt32 := 0

/-- `CSP_FETCH_ARG_IS_UINT8` -/
def cspFetchArgIsUint8 : UInt32 := 1

/-- A pointer to a variable, of those in `V`. For a `b` it comes with the pointer to the length. -/
structure Pointer (V : Type) where
  param : Param
  assign : Store → V → V

/-- A pointer to a byte: a `u`. -/
def Pointer.uint8 (set : UInt8 → V → V) : Pointer V where
  param := .uint8
  assign
    | .uint8 (some x) => set x
    | _ => id

/-- A pointer to two bytes: a `v`. -/
def Pointer.uint16 (set : UInt16 → V → V) : Pointer V where
  param := .uint16
  assign
    | .uint16 (some x) => set x
    | _ => id

/-- A pointer to the length of a message: an `l`. -/
def Pointer.length (set : UInt16 → V → V) : Pointer V where
  param := .length
  assign
    | .uint16 (some x) => set x
    | _ => id

/-- A pointer to four bytes: a `w`. -/
def Pointer.uint32 (set : UInt32 → V → V) : Pointer V where
  param := .uint32
  assign
    | .uint32 (some x) => set x
    | _ => id

/-- A pointer to an array of `available` bytes, and one to its length: a `b`. -/
def Pointer.buffer (isUint8 : UInt32) (setLength : UInt16 → V → V) (available : UInt16)
    (set : List UInt8 → V → V) : Pointer V where
  param := .buffer isUint8 available
  assign
    | .buffer length (some bytes) => fun v => set bytes (setLength length v)
    | _ => id

/-- The pointer is not null. -/
def Pointer.asked (x : Pointer V) : Asked := ⟨x.param, false⟩

/-- The assignments of a call, one after the other. -/
def assignAll : List (Pointer V) → List Store → V → V
  | x :: xs, s :: ss, v => assignAll xs ss (x.assign s v)
  | _, _, v => v

/-- `fetchCallbackParams`: the variables after the call -/
def fetchCallbackParams (long : Bool) (m : Mem) (callbackParams : ℕ) (xs : List (Pointer V))
    (v : V) : Option V :=
  (fetchAsked long m callbackParams (xs.map Pointer.asked)).map fun r => assignAll xs r.1 v

/-- `fetchApiParams`, which starts right after the identifier -/
def fetchApiParams (long : Bool) (m : Mem) (apiCommandData : ℕ) (xs : List (Pointer V)) (v : V) :
    Option V :=
  fetchCallbackParams long m (apiCommandData + 2) xs v

/-! ## Items and what they are fetched into -/

/-- Where a parameter is stored. -/
def destOf : Param → Dest
  | .buffer isUint8 available => .buffer false isUint8 available
  | _ => .scalar false

/-- The parameter asks for the item; an 8-bit length is used for up to 255 bytes. -/
inductive Fills : Item → Param → Prop
  | uint8 (x : UInt8) : Fills (.uint8 x) .uint8
  | int8 (x : Int8) : Fills (.int8 x) .int8
  | uint16 (x : UInt16) : Fills (.uint16 x) .uint16
  | length (x : UInt16) : Fills (.length x) .length
  | uint32 (x : UInt32) : Fills (.uint32 x) .uint32
  | buffer {bytes : List UInt8} {isUint8 : UInt32} {available : UInt16}
      (h : isUint8.toUInt8 ≠ 0 → bytes.length ≤ 255) :
      Fills (.buffer bytes) (.buffer isUint8 available)

theorem Fills.char_eq {f : Item} {x : Param} (h : Fills f x) : x.char = f.kind.char := by
  cases h <;> rfl

theorem Fills.passed_eq {f : Item} {x : Param} (h : Fills f x) :
    x.passed false = (destOf x).passed := by
  cases h <;> rfl

theorem Fills.takes {f : Item} {x : Param} (h : Fills f x) : (destOf x).Takes long f := by
  cases h with
  | buffer h => exact h
  | length x => exact fun _ => rfl
  | _ => first | rfl | trivial

/-- The format of pointers that ask for the items. -/
theorem format_of_fills : ∀ {fs : List Item} {xs : List (Pointer V)},
    List.Forall₂ (fun f x => Fills f x.param) fs xs →
    (xs.map Pointer.asked).map (fun a => a.param.char) = format fs
  | [], [], .nil => rfl
  | _ :: _, _ :: _, .cons h hs => by
    have ih := format_of_fills hs
    rw [List.map_cons, List.map_cons, ih]
    exact congrArg (· :: _) h.char_eq

/-- The arguments of such pointers. -/
theorem passed_of_fills : ∀ {fs : List Item} {xs : List (Pointer V)},
    List.Forall₂ (fun f x => Fills f x.param) fs xs →
    (xs.map Pointer.asked).flatMap Asked.passed =
      (xs.map fun x => destOf x.param).flatMap Dest.passed
  | [], [], .nil => rfl
  | _ :: _, _ :: _, .cons h hs => by
    have ih := passed_of_fills hs
    rw [List.map_cons, List.flatMap_cons, ih, List.map_cons, List.flatMap_cons]
    exact congrArg (· ++ _) h.passed_eq

/-- The variables, assigned items. -/
def assigned (xs : List (Pointer V)) (fs : List Item) (v : V) : V :=
  assignAll xs (List.zipWith stored fs (xs.map fun x => destOf x.param)) v

@[simp] theorem assigned_nil (fs : List Item) (v : V) : assigned [] fs v = v := by
  cases fs <;> rfl

@[simp] theorem assigned_cons (x : Pointer V) (xs : List (Pointer V)) (f : Item) (fs : List Item)
    (v : V) :
    assigned (x :: xs) (f :: fs) v = assigned xs fs (x.assign (stored f (destOf x.param)) v) := rfl

/-- The assignments of the first pointers are made first. -/
theorem assigned_append : ∀ {xs : List (Pointer V)} {fs : List Item} (ys : List (Pointer V))
    (gs : List Item) (v : V), List.Forall₂ (fun f x => Fills f x.param) fs xs →
    assigned (xs ++ ys) (fs ++ gs) v = assigned ys gs (assigned xs fs v)
  | [], [], _, _, _, .nil => rfl
  | x :: xs, f :: fs, ys, gs, v, .cons _ hs => by
    rw [List.cons_append, List.cons_append, assigned_cons, assigned_append ys gs _ hs,
      assigned_cons]

/-- **Where the bytes of items stand, the variables are assigned these items**, of a buffer as much
as its array takes. -/
theorem fetchCallbackParams_eq {fs : List Item} {xs : List (Pointer V)} (v : V)
    (hfit : ∀ f ∈ fs, f.Fits long) (hx : List.Forall₂ (fun f x => Fills f x.param) fs xs)
    (h : m.read p (wire long fs).length = wire long fs) :
    fetchCallbackParams long m p xs v = some (assigned xs fs v) := by
  have htakes : List.Forall₂ (fun f d => Dest.Takes long f d) fs
      (xs.map fun x => destOf x.param) :=
    List.forall₂_map_right_iff.mpr (hx.imp fun _ _ hf => hf.takes)
  rw [fetchCallbackParams, fetchAsked, format_of_fills hx, passed_of_fills hx,
    fetchParams_eq hfit htakes h]
  rfl

/-- The same for a frame, behind its identifier. -/
theorem fetchApiParams_eq {fs : List Item} {xs : List (Pointer V)} (v : V)
    (hfit : ∀ f ∈ fs, f.Fits long) (hx : List.Forall₂ (fun f x => Fills f x.param) fs xs)
    (h : m.read (p + 2) (wire long fs).length = wire long fs) :
    fetchApiParams long m p xs v = some (assigned xs fs v) :=
  fetchCallbackParams_eq v hfit hx h

/-! ## Whatever is read -/

/-- The variables after a call that reads `m` from `p` on. -/
def fetched (long : Bool) (m : Mem) : ℕ → List (Pointer V) → V → V
  | _, [], v => v
  | p, x :: xs, v =>
    fetched long m (x.param.behind long m p) xs (x.assign (x.param.value long m p) v)

theorem fetched_cons (long : Bool) (m : Mem) (p : ℕ) (x : Pointer V) (xs : List (Pointer V))
    (v : V) :
    fetched long m p (x :: xs) v =
      fetched long m (x.param.behind long m p) xs (x.assign (x.param.value long m p) v) := rfl

theorem fetched_eq (long : Bool) (m : Mem) : ∀ (xs : List (Pointer V)) (p : ℕ) (v : V),
    assignAll xs (outcome long m p (xs.map Pointer.asked)).1 v = fetched long m p xs v
  | [], _, _ => rfl
  | _ :: xs, _, _ => fetched_eq long m xs _ _

/-- **No call ends in undefined behaviour, whatever it reads**: no pointer is null. -/
theorem fetchCallbackParams_fetched (long : Bool) (m : Mem) (p : ℕ) (xs : List (Pointer V))
    (v : V) :
    fetchCallbackParams long m p xs v = some (fetched long m p xs v) := by
  have htested : ∀ a ∈ xs.map Pointer.asked, ¬ a.StoresThroughNull long := by
    rintro a ha ⟨hnull, -⟩
    obtain ⟨x, -, rfl⟩ := List.mem_map.mp ha
    cases hnull
  rw [fetchCallbackParams, fetchAsked_eq htested, ← fetched_eq]
  rfl

/-- What every assignment keeps is kept by a call. -/
theorem fetched_invariant {I : V → Prop} : ∀ {xs : List (Pointer V)} {p : ℕ} {v : V},
    (∀ x ∈ xs, ∀ p v, I v → I (x.assign (x.param.value long m p) v)) → I v →
    I (fetched long m p xs v)
  | [], _, _, _, hv => hv
  | x :: xs, p, v, h, hv => by
    have hx := h x List.mem_cons_self p v hv
    rw [fetched_cons]
    exact fetched_invariant (fun y (hy : y ∈ xs) => h y (List.mem_cons_of_mem x hy)) hx

/-- **No more is moved into an array than it takes, and no greater length is reported**, whatever
the length on the wire. -/
theorem value_buffer_le (long : Bool) (m : Mem) (p : ℕ) (isUint8 : UInt32) (available : UInt16) :
    ∃ (length : UInt16) (bytes : List UInt8),
      (Param.buffer isUint8 available).value long m p = .buffer length (some bytes) ∧
      length ≤ available ∧ bytes.length ≤ available.toNat := by
  refine ⟨_, _, rfl, ?_, ?_⟩
  · rw [UInt16.le_iff_toNat_le, toNat_storedLength]
    exact Nat.min_le_right _ _
  · rw [Memory.length_read, movedLength_eq_min]
    exact Nat.min_le_right _ _

end ConnectNcpHost.Csp.Variables
