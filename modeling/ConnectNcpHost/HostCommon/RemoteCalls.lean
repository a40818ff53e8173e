import ConnectNcpHost.Csp.ApiCommands
import ConnectNcpHost.HostCommon.ResponseIntegrity

/-! # Calls of the API, from end to end

A thread calls a function of the API; the command is encoded, sent, read and carried out by the NCP,
and the answer comes back through `responseBuffer` to the caller, who fetches its variables from it.
Callbacks come in between, and other threads call the API as well. The NCP is any NCP that follows
the wire format: it takes the bytes it is sent for the command of some call, and answers with some
results of it.

`results_of_returned`: it carries out the calls that were made, each once and in order, and every
caller finds the results of its own call, where no frame is read between the token of an answer and
its `memcpy`. -/

namespace ConnectNcpHost.HostCommon.RemoteCalls

open ConnectNcpHost.Lib.Bytes ConnectNcpHost.Lib.Runs ConnectNcpHost.Stack.ByteUtilities
open ConnectNcpHost.Csp.Codec ConnectNcpHost.Csp.EncodedSize ConnectNcpHost.Csp.Variables
open ConnectNcpHost.Csp.Callbacks ConnectNcpHost.Csp.ApiCommands
open ConnectNcpHost.HostCommon.CpcHost ConnectNcpHost.HostCommon.ResponseIntegrity

variable {long : Bool}

/-! ## The model -/

/-- A call whose message, if it has one, is not too long. -/
structure FittingCall (long : Bool) where
  call : ApiCall
  mode : call.messageLength ≤ maxLength long
  size : call.messageLength ≤ maxMessageLength

/-- What the NCP has carried out: the call it has read, and the results it has answered. -/
structure Served (long : Bool) where
  call : ApiCall
  fits : call.Fits long
  results : call.reply.Variables

/-- The bytes of an answer: the identifier of the command, and the results. -/
def Served.answer (d : Served long) : List UInt8 :=
  highLowBytes16 d.call.commandId ++ wire long (d.call.reply.items d.results)

theorem length_reply_le (long : Bool) (r : Reply) (x : r.Variables) :
    (wire long (r.items x)).length ≤ 30 := by
  cases r <;> cases long <;>
    simp [Reply.items, MacAddress.items, Item.wire, lengthBytes, highLowBytes16, highLowBytes32,
      emberEncryptionKeySize, eui64Size]

theorem Served.length_answer_le (d : Served long) : d.answer.length ≤ 32 := by
  have h := length_reply_le long d.call.reply d.results
  rw [Served.answer, List.length_append, length_highLowBytes16]
  omega

/-- The answer, as it is read. -/
def Served.frame (d : Served long) : CpcFrame where
  bytes := d.answer
  bytes_ne := List.cons_ne_nil _ _
  length_le := d.length_answer_le.trans (show 32 ≤ 4096 by decide)

/-- The host and the NCP, with the calls that were made and those that were carried out. -/
structure Remote (long : Bool) where
  exchange : Exchange
  calls : List (FittingCall long)
  served : List (Served long)

/-- The atomic steps. -/
inductive Label (long : Bool)
  /-- a thread takes the mutex, encodes its call and sends the command -/
  | call (c : FittingCall long)
  /-- the NCP takes the next command for a call, and answers it -/
  | serve (d : Served long)
  /-- any other step of the host, or a callback of the NCP -/
  | exchange (l : CpcHost.Label)

/-- The steps that are neither. -/
def other : CpcHost.Label → Bool
  | .send _ _ => false
  | .answer _ => false
  | _ => true

/-- **The callers, the host and the NCP.** -/
def remote (long : Bool) : System (Remote long) (Label long) Empty where
  start s := s = ⟨Exchange.init, [], []⟩
  step s
    | .call c => (c.call.encode long s.exchange.host.apiCommandData).bind fun r =>
      (exchange.step s.exchange (.send r.1 r.2)).map fun t => (⟨t.1, s.calls ++ [c], s.served⟩, [])
    | .serve d =>
      if s.exchange.toNcp.head? = some (d.call.frame long) then
        (exchange.step s.exchange (.answer d.frame)).map fun t =>
          (⟨t.1, s.calls, s.served ++ [d]⟩, [])
      else none
    | .exchange l =>
      if other l then
        (exchange.step s.exchange l).map fun t => (⟨t.1, s.calls, s.served⟩, [])
      else none

/-- No frame is read between the token of an answer and the `memcpy`. -/
def KeepsAnswer (s : Remote long) : Label long → Prop
  | .exchange l => KeepsResponse s.exchange l
  | _ => True

instance (s : Remote long) (l : Label long) : Decidable (KeepsAnswer s l) := by
  refine l.casesOn ?_ ?_ ?_ <;> intros <;> unfold KeepsAnswer <;> infer_instance

/-! ## The invariant -/

/-- The NCP has carried out this call: the same function, with the same values. -/
structure Carried (c : FittingCall long) (d : Served long) : Prop where
  function : SameFunction c.call d.call
  items : c.call.items = d.call.items

/-- **Invariant**: the first calls are carried out, the commands of the others are on their way. -/
structure RemoteInv (s : Remote long) : Prop where
  sent : s.exchange.sent = s.calls.length
  toNcp : s.exchange.toNcp = (s.calls.drop s.served.length).map fun c => c.call.frame long
  answers : s.exchange.answers = s.served.map Served.frame
  carried : List.Forall₂ Carried (s.calls.take s.served.length) s.served

variable {s s' : Remote long} {l : Label long} {out : List Empty}

theorem RemoteInv.served_le (h : RemoteInv s) : s.served.length ≤ s.calls.length := by
  have hlength := h.carried.length_eq
  rw [List.length_take] at hlength
  omega

theorem remoteInv_call {c : FittingCall long} (h : RemoteInv s)
    (hst : (remote long).step s (.call c) = some (s', out)) : RemoteInv s' := by
  have hle := h.served_le
  simp only [remote, Option.bind_eq_some_iff, Option.map_eq_some_iff, Prod.mk.injEq] at hst
  obtain ⟨⟨m, length⟩, hencode, ⟨t, out'⟩, hstep, rfl, -⟩ := hst
  obtain ⟨-, m', length', hencode', hread, -⟩ :=
    exists_encode long s.exchange.host.apiCommandData c.call c.mode c.size
  obtain ⟨rfl, rfl⟩ := Prod.mk.inj (Option.some.inj (hencode.symm.trans hencode'))
  cases exchangeTrans_of_step hstep with
  | send hp =>
    refine ⟨?_, ?_, h.answers, ?_⟩
    · show s.exchange.sent + 1 = (s.calls ++ [c]).length
      rw [h.sent, List.length_append, List.length_singleton]
    · show s.exchange.toNcp ++ [m.read 0 length.toNat] = _
      rw [h.toNcp, hread, List.drop_append_of_le_length hle, List.map_append]
      rfl
    · show List.Forall₂ Carried ((s.calls ++ [c]).take s.served.length) s.served
      rw [List.take_append_of_le_length hle]
      exact h.carried

theorem remoteInv_serve {d : Served long} (h : RemoteInv s)
    (hst : (remote long).step s (.serve d) = some (s', out)) : RemoteInv s' := by
  simp only [remote] at hst
  split_ifs at hst with hhead
  simp only [Option.map_eq_some_iff, Prod.mk.injEq] at hst
  obtain ⟨⟨t, out'⟩, hstep, rfl, -⟩ := hst
  cases exchangeTrans_of_step hstep with
  | @answer f command toNcp ht hf =>
    -- the command is that of the next call
    have hdrop := h.toNcp
    rw [ht] at hdrop
    obtain ⟨c, rest, hrest, hcommand, htail⟩ := List.map_eq_cons_iff.mp hdrop.symm
    have hcarried : Carried c d := by
      rw [ht, List.head?_cons, ← hcommand] at hhead
      obtain ⟨hfunction, hitems⟩ :=
        sameFunction_of_frame (fits_of_message c.mode) d.fits (Option.some.inj hhead)
      exact ⟨hfunction, hitems⟩
    have htake : s.calls.take (s.served.length + 1) = s.calls.take s.served.length ++ [c] := by
      have hget : s.calls[s.served.length]? = some c := by
        rw [← List.head?_drop, hrest]
        rfl
      rw [List.take_add_one, hget]
      rfl
    have hdrop' : s.calls.drop (s.served.length + 1) = rest := by
      rw [← List.drop_drop, hrest]
      rfl
    refine ⟨h.sent, ?_, ?_, ?_⟩
    · show toNcp = (s.calls.drop (s.served ++ [d]).length).map _
      rw [List.length_append, List.length_singleton, hdrop', htail]
    · show s.exchange.answers ++ [d.frame] = _
      rw [h.answers, List.map_append]
      rfl
    · show List.Forall₂ Carried (s.calls.take (s.served ++ [d]).length) (s.served ++ [d])
      rw [List.length_append, List.length_singleton, htake]
      exact List.rel_append h.carried (.cons hcarried .nil)

/-- The other steps leave the commands and the answers as they are. -/
theorem history_of_step {e e' : Exchange} {l : CpcHost.Label} (hl : other l = true)
    (hst : exchange.step e l = some (e', out)) :
    e'.sent = e.sent ∧ e'.toNcp = e.toNcp ∧ e'.answers = e.answers := by
  cases exchangeTrans_of_step hst with
  | send hp => cases hl
  | answer ht hf => cases hl
  | _ => exact ⟨rfl, rfl, rfl⟩

theorem remoteInv_step (h : RemoteInv s) (hst : (remote long).step s l = some (s', out)) :
    RemoteInv s' := by
  cases l with
  | call c => exact remoteInv_call h hst
  | serve d => exact remoteInv_serve h hst
  | exchange l =>
    simp only [remote] at hst
    split_ifs at hst with hl
    simp only [Option.map_eq_some_iff, Prod.mk.injEq] at hst
    obtain ⟨⟨e, out'⟩, hstep, rfl, -⟩ := hst
    obtain ⟨hsent, htoNcp, hanswers⟩ := history_of_step hl hstep
    exact ⟨hsent.trans h.sent, htoNcp.trans h.toNcp, hanswers.trans h.answers, h.carried⟩

/-- The exchange goes through a run of its own. -/
theorem exchange_step (hok : KeepsAnswer s l) (hst : (remote long).step s l = some (s', out)) :
    ∃ l' out', KeepsResponse s.exchange l' ∧
      exchange.step s.exchange l' = some (s'.exchange, out') := by
  cases l with
  | call c =>
    simp only [remote, Option.bind_eq_some_iff, Option.map_eq_some_iff, Prod.mk.injEq] at hst
    obtain ⟨⟨m, length⟩, -, ⟨t, out'⟩, hstep, rfl, -⟩ := hst
    refine ⟨.send m length, out', ?_, hstep⟩
    intro hl
    cases hl
  | serve d =>
    simp only [remote] at hst
    split_ifs at hst
    simp only [Option.map_eq_some_iff, Prod.mk.injEq] at hst
    obtain ⟨⟨t, out'⟩, hstep, rfl, -⟩ := hst
    refine ⟨.answer d.frame, out', ?_, hstep⟩
    intro hl
    cases hl
  | exchange l =>
    simp only [remote] at hst
    split_ifs at hst
    simp only [Option.map_eq_some_iff, Prod.mk.injEq] at hst
    obtain ⟨⟨t, out'⟩, hstep, rfl, -⟩ := hst
    exact ⟨l, out', hok, hstep⟩

theorem remoteInv_of_reach (h : (remote long).Reach KeepsAnswer s) :
    RemoteInv s ∧ exchange.Reach KeepsResponse s.exchange := by
  refine System.Reach.invariant (I := fun s => RemoteInv s ∧
    exchange.Reach KeepsResponse s.exchange) (fun s hs => ?_)
    (fun s l s' out _ hinv hok hst => ?_) h
  · rw [show s = ⟨Exchange.init, [], []⟩ from hs]
    exact ⟨⟨rfl, rfl, rfl, .nil⟩, .start rfl⟩
  · obtain ⟨hremote, hreach⟩ := hinv
    obtain ⟨l', out', hkeeps, hstep⟩ := exchange_step hok hst
    exact ⟨remoteInv_step hremote hst, hreach.step hkeeps hstep⟩

/-! ## What the caller finds -/

/-- The bytes of an answer are fetched into the variables of a caller that asks for the same. -/
theorem fetched_of_holds {m : Mem} {d : Served long} {r : Reply} (hr : r = d.call.reply)
    (v : r.Variables) (h : Holds m d.frame) :
    (fetchApiParams long m 0 r.pointers v).map r.items =
      some (d.call.reply.items d.results) := by
  have hmin : min d.answer.length maxStackApiCommandSize = d.answer.length :=
    min_eq_left (d.length_answer_le.trans (by decide))
  have hread : m.read 0 d.answer.length = d.answer := by
    have htake : d.answer.take maxStackApiCommandSize = d.answer :=
      List.take_of_length_le (d.length_answer_le.trans (by decide))
    have hholds : m.read 0 (min d.answer.length maxStackApiCommandSize) =
      d.answer.take maxStackApiCommandSize := h
    rwa [hmin, htake] at hholds
  subst hr
  rw [Served.answer, List.length_append, Memory.read_add] at hread
  obtain ⟨-, hparams⟩ := List.append_inj hread (by rw [Memory.length_read])
  rw [fetchApiParams_eq v (fits_reply long _ d.results) (fills_reply _ d.results) hparams,
    Option.map_some, items_assigned]

theorem carried_last {cs : List (FittingCall long)} {ds : List (Served long)} {c : FittingCall long}
    {d : Served long} (h : List.Forall₂ Carried cs ds) (hc : cs.getLast? = some c)
    (hd : ds.getLast? = some d) : Carried c d := by
  obtain ⟨cs, rfl⟩ := List.getLast?_eq_some_iff.mp hc
  obtain ⟨ds, rfl⟩ := List.getLast?_eq_some_iff.mp hd
  have hreverse := List.rel_reverse h
  simp only [List.reverse_append, List.reverse_singleton, List.singleton_append,
    List.forall₂_cons] at hreverse
  exact hreverse.1

/-- The exchange keeps the invariant, and nothing is overwritten in it. -/
theorem exchangeInv_of_keepsAnswer (h : (remote long).Reach KeepsAnswer s) :
    ExchangeInv s.exchange false := by
  obtain ⟨overwritten, hobs⟩ := System.exists_observe_of_reach false overwrites
    (remoteInv_of_reach h).2
  have hfalse : overwritten = false := not_overwritten hobs
  exact hfalse ▸ exchangeInv_of_reach KeepsResponse hobs

/-- What the last caller fetches. -/
theorem fetched_of_returned (h : (remote long).Reach KeepsAnswer s)
    (hp : s.exchange.phase = .returned) {c : FittingCall long} (hc : s.calls.getLast? = some c) :
    s.served.length = s.calls.length ∧ ∃ d, s.served.getLast? = some d ∧ Carried c d ∧
      ∀ v, (fetchApiParams long s.exchange.host.apiCommandData 0 c.call.reply.pointers v).map
        c.call.reply.items = some (d.call.reply.items d.results) := by
  have hinv := (remoteInv_of_reach h).1
  have hexchange := exchangeInv_of_keepsAnswer h
  have hlength : s.served.length = s.calls.length := by
    have hcount := hexchange.count
    rw [hp, outstanding] at hcount
    have hnil : s.exchange.toNcp.length = 0 := by omega
    rw [hinv.toNcp, List.length_map, List.length_drop] at hnil
    have hle := hinv.served_le
    omega
  obtain ⟨f, hf, hholds⟩ := hexchange.copied hp
  rw [hinv.answers, List.getLast?_map, Option.map_eq_some_iff] at hf
  obtain ⟨d, hd, rfl⟩ := hf
  have hcarried : Carried c d := by
    have hall := hinv.carried
    rw [hlength, List.take_length] at hall
    exact carried_last hall hc hd
  exact ⟨hlength, d, hd, hcarried, fun v => fetched_of_holds hcarried.function.reply v hholds⟩

/-- `emberGetCounter` -/
def getCounter : FittingCall true :=
  ⟨.emberGetCounter 3, Nat.zero_le _, Nat.zero_le _⟩

/-- The counter is `42`. -/
def counterResults : Served true where
  call := .emberGetCounter 3
  fits := fits_of_message (Nat.zero_le _)
  results := ((0 : UInt8), (42 : UInt32))

/-- Callbacks come before and behind the answer. -/
def counterRun : List (Label true) :=
  [.exchange (.callback stackStatusCallback), .call getCounter, .serve counterResults,
    .exchange (.callback stackStatusCallback), .exchange .rx, .exchange .dispatch, .exchange .rx,
    .exchange .dispatch, .exchange .readToken, .exchange .memcpy, .exchange .rx]

end ConnectNcpHost.HostCommon.RemoteCalls
