import ConnectNcpHost.Lib.Runs
import ConnectNcpHost.Lib.Versions
import ConnectNcpHost.Csp.RoundTrip
import ConnectNcpHost.Ota.Protocol

/-! # The length mode on the host and on the NCP

`use_long_message_length` on the host and the mode of the NCP are both changed by
`emberNcpSetLongMessagesUse`, each at its own time: the NCP when it carries the command out, the host
when it has read the status. A callback frame is encoded in the mode of the NCP when it is emitted,
and decoded item by item, much later, in the mode the host has then.

The mode on either side is a version of the same variable (`ModesInv`): the NCP has the latest, the
host one that lags behind by at most one update, a frame the one it was encoded in. A frame is
decoded in its own mode as long as no change of the mode lies between (`mode_eq_of_unchanged`).

The status the call reads comes from `responseBuffer`, which another frame may have overwritten;
`ReadsAnswer` are the steps where none has. -/

namespace ConnectNcpHost.Csp.LengthMode

open ConnectNcpHost.Lib.Runs ConnectNcpHost.Lib.Bytes ConnectNcpHost.Lib.Versions
open ConnectNcpHost.Stack.ByteUtilities ConnectNcpHost.Csp.Format ConnectNcpHost.Csp.Codec
open ConnectNcpHost.Csp.RoundTrip ConnectNcpHost.Ota.Protocol

/-! ## The two sides -/

/-- A callback frame: its identifier and its items, the mode it is encoded in, and how many set
commands the NCP had carried out by then (history). -/
structure Frame where
  identifier : UInt16
  items : List Item
  mode : Bool
  version : ℕ
  deriving DecidableEq

/-- The bytes of a frame. -/
def Frame.bytes (f : Frame) : List UInt8 := highLowBytes16 f.identifier ++ wire f.mode f.items

/-- What the NCP sends: a callback, or the answer to a set command. -/
inductive NcpFrame
  | callback (f : Frame)
  | response (status : EmberStatus)
  deriving DecidableEq

/-- The host, the NCP, and what is on its way. -/
structure Modes where
  /-- the mode of the NCP -/
  ncpMode : Bool
  useLongMessageLength : Bool
  /-- the call of `emberNcpSetLongMessagesUse` that holds the command mutex -/
  calling : Option Bool
  /-- set commands on their way to the NCP -/
  toNcp : List Bool
  /-- frames on their way to the host, in order -/
  link : List NcpFrame
  /-- the status the poll thread has handed to the call -/
  response : Option EmberStatus
  /-- the callback pipe -/
  pipe : List Frame
  /-- what the last drain has read from it and not decoded -/
  draining : List Frame
  /-- the modes of the turns of `fetchParams` made on the first of these -/
  used : List Bool
  /-- the modes set so far by commands that were carried out (history) -/
  carriedOut : List Bool
  /-- how many of them the host has applied (history) -/
  applied : ℕ
  deriving DecidableEq

/-- Both sides start in short mode. -/
def Modes.init : Modes where
  ncpMode := false
  useLongMessageLength := false
  calling := none
  toNcp := []
  link := []
  response := none
  pipe := []
  draining := []
  used := []
  carriedOut := []
  applied := 0

/-- The steps. -/
inductive Label
  /-- `emberNcpSetLongMessagesUse` takes the mutex and sends its command -/
  | call (useLongMessages : Bool)
  /-- the NCP processes a set command, and answers with `status` -/
  | process (status : EmberStatus)
  /-- the NCP emits a callback -/
  | emit (identifier : UInt16) (items : List Item)
  /-- the poll thread receives a frame and dispatches it -/
  | poll
  /-- the call reads `status`, and sets the mode if it is `EMBER_SUCCESS` -/
  | finish (status : EmberStatus)
  /-- `sl_connect_ncp_handle_pending_callback_commands` reads the pipe -/
  | drain
  /-- the next turn of the loop of `fetchParams` on the first frame that was read -/
  | fetch
  deriving DecidableEq

/-- An item of a frame is decoded in a mode. -/
structure Fetched where
  frame : Frame
  index : ℕ
  mode : Bool
  deriving DecidableEq

/-- **The host and the NCP.** -/
def lengthModes : System Modes Label Fetched where
  start s := s = Modes.init
  step s
    | .call useLongMessages =>
      if s.calling = none then
        some ({ s with calling := some useLongMessages, toNcp := s.toNcp ++ [useLongMessages] }, [])
      else none
    | .process status =>
      match s.toNcp with
      | [] => none
      | b :: toNcp =>
        let s := { s with toNcp := toNcp, link := s.link ++ [.response status] }
        if status = emberSuccess then
          some ({ s with ncpMode := b, carriedOut := s.carriedOut ++ [b] }, [])
        else some (s, [])
    | .emit identifier items =>
      let frame : Frame := ⟨identifier, items, s.ncpMode, s.carriedOut.length⟩
      some ({ s with link := s.link ++ [.callback frame] }, [])
    | .poll =>
      match s.link with
      | [] => none
      | .callback frame :: link => some ({ s with link := link, pipe := s.pipe ++ [frame] }, [])
      | .response status :: link => some ({ s with link := link, response := some status }, [])
    | .finish status =>
      match s.calling, s.response with
      | some b, some _ =>
        let s := { s with calling := none, response := none }
        if status = emberSuccess then
          some ({ s with useLongMessageLength := b, applied := s.applied + 1 }, [])
        else some (s, [])
      | _, _ => none
    | .drain =>
      if s.draining = [] then some ({ s with draining := s.pipe, pipe := [], used := [] }, [])
      else none
    | .fetch =>
      match s.draining with
      | [] => none
      | frame :: draining =>
        if s.used.length < frame.items.length then
          some ({ s with used := s.used ++ [s.useLongMessageLength] },
            [⟨frame, s.used.length, s.useLongMessageLength⟩])
        else some ({ s with draining := draining, used := [] }, [])

/-- The call reads the status of its answer, which is not overwritten. -/
def ReadsAnswer (s : Modes) (l : Label) : Prop :=
  ∀ status, l = .finish status → s.response = some status

instance (s : Modes) (l : Label) : Decidable (ReadsAnswer s l) :=
  match l with
  | .finish status => decidable_of_iff (s.response = some status)
      ⟨fun h _ hl => Label.finish.inj hl ▸ h, fun h => h status rfl⟩
  | .call _ | .process _ | .emit _ _ | .poll | .drain | .fetch => isTrue (fun _ hl => by cases hl)

/-! ## The invariant -/

variable {s s' : Modes} {l : Label} {out : List Fetched}

/-- The callback in a frame of the NCP. -/
def NcpFrame.callback? : NcpFrame → Option Frame
  | callback f => some f
  | response _ => none

/-- The status in a frame of the NCP. -/
def NcpFrame.response? : NcpFrame → Option EmberStatus
  | callback _ => none
  | response status => some status

/-- The callback frames that are not decoded yet. -/
def Modes.frames (s : Modes) : List Frame :=
  s.draining ++ s.pipe ++ s.link.filterMap NcpFrame.callback?

/-- The answers the call has not read. -/
def Modes.answers (s : Modes) : List EmberStatus :=
  s.response.toList ++ s.link.filterMap NcpFrame.response?

/-- How far a call has come: what is on its way to the NCP and back, and how many of the commands
that were carried out are applied. -/
inductive Command (calling : Option Bool) (toNcp : List Bool) (answers : List EmberStatus)
    (carriedOut : List Bool) (applied : ℕ) : Prop
  | idle (hc : calling = none) (ht : toNcp = []) (ha : answers = [])
      (hn : applied = carriedOut.length)
  | sent {b : Bool} (hc : calling = some b) (ht : toNcp = [b]) (ha : answers = [])
      (hn : applied = carriedOut.length)
  | refused {b : Bool} {status : EmberStatus} (hc : calling = some b) (ht : toNcp = [])
      (ha : answers = [status]) (hs : status ≠ emberSuccess) (hn : applied = carriedOut.length)
  | accepted {b : Bool} {us : List Bool} (hc : calling = some b) (ht : toNcp = [])
      (ha : answers = [emberSuccess]) (hu : carriedOut = us ++ [b]) (hn : applied = us.length)

/-- **Invariant.** Every mode is a version of the same variable. -/
structure ModesInv (s : Modes) : Prop where
  ncp : s.ncpMode = version false s.carriedOut s.carriedOut.length
  host : s.useLongMessageLength = version false s.carriedOut s.applied
  frames : ∀ f ∈ s.frames, f.version ≤ s.carriedOut.length ∧
    f.mode = version false s.carriedOut f.version
  command : Command s.calling s.toNcp s.answers s.carriedOut s.applied

theorem modesInv_init : ModesInv Modes.init where
  ncp := rfl
  host := rfl
  frames f hf := by simp [Modes.init, Modes.frames] at hf
  command := .idle rfl rfl rfl rfl

/-- A frame that waits in another place is still one of those that were there. -/
theorem ModesInv.moved (h : ModesInv s) (hm : s'.ncpMode = s.ncpMode)
    (hh : s'.useLongMessageLength = s.useLongMessageLength) (hu : s'.carriedOut = s.carriedOut)
    (hn : s'.applied = s.applied) (hc : s'.calling = s.calling) (ht : s'.toNcp = s.toNcp)
    (ha : s'.answers = s.answers) (hf : ∀ f ∈ s'.frames, f ∈ s.frames) : ModesInv s' where
  ncp := by rw [hm, hu]; exact h.ncp
  host := by rw [hh, hu, hn]; exact h.host
  frames f hf' := by rw [hu]; exact h.frames f (hf f hf')
  command := by rw [hc, ht, ha, hu, hn]; exact h.command

theorem modesInv_call {b : Bool} (h : ModesInv s) (hc : s.calling = none) :
    ModesInv { s with calling := some b, toNcp := s.toNcp ++ [b] } where
  ncp := h.ncp
  host := h.host
  frames := h.frames
  command := by
    cases h.command with
    | idle _ ht ha hn => exact .sent rfl (by rw [ht]; rfl) ha hn
    | sent hc' _ _ _ => cases hc.symm.trans hc'
    | refused hc' _ _ _ _ => cases hc.symm.trans hc'
    | accepted hc' _ _ _ _ => cases hc.symm.trans hc'

/-- The only command on its way is that of the call, and it is not answered. -/
theorem Command.of_toNcp {calling : Option Bool} {b : Bool} {toNcp : List Bool}
    {answers : List EmberStatus} {us : List Bool} {n : ℕ}
    (h : Command calling (b :: toNcp) answers us n) :
    calling = some b ∧ toNcp = [] ∧ answers = [] ∧ n = us.length := by
  cases h with
  | idle _ ht _ _ => cases ht
  | refused _ ht _ _ _ => cases ht
  | accepted _ ht _ _ _ => cases ht
  | sent hc ht ha hn =>
    obtain ⟨rfl, rfl⟩ := List.cons.inj ht
    exact ⟨hc, rfl, ha, hn⟩

theorem answers_response (s : Modes) (status : EmberStatus) (toNcp : List Bool) :
    Modes.answers { s with toNcp := toNcp, link := s.link ++ [.response status] } =
      s.answers ++ [status] := by
  simp [Modes.answers, NcpFrame.response?]

theorem frames_response (s : Modes) (status : EmberStatus) (toNcp : List Bool) :
    Modes.frames { s with toNcp := toNcp, link := s.link ++ [.response status] } = s.frames := by
  simp [Modes.frames, NcpFrame.callback?]

theorem modesInv_refuse {b : Bool} {toNcp : List Bool} {status : EmberStatus} (h : ModesInv s)
    (ht : s.toNcp = b :: toNcp) (hs : status ≠ emberSuccess) :
    ModesInv { s with toNcp := toNcp, link := s.link ++ [.response status] } where
  ncp := h.ncp
  host := h.host
  frames := by rw [frames_response]; exact h.frames
  command := by
    rw [answers_response]
    have hcmd := h.command
    rw [ht] at hcmd
    obtain ⟨hc, rfl, ha, hn⟩ := hcmd.of_toNcp
    exact .refused hc rfl (by rw [ha]; rfl) hs hn

theorem modesInv_carryOut {b : Bool} {toNcp : List Bool} (h : ModesInv s)
    (ht : s.toNcp = b :: toNcp) :
    ModesInv { s with
      toNcp := toNcp
      link := s.link ++ [.response emberSuccess]
      ncpMode := b
      carriedOut := s.carriedOut ++ [b] } := by
  have hcmd := h.command
  rw [ht] at hcmd
  obtain ⟨hc, rfl, ha, hn⟩ := hcmd.of_toNcp
  refine ⟨?_, ?_, fun f hf => ?_, .accepted hc rfl ?_ rfl hn⟩
  · show b = version false (s.carriedOut ++ [b]) (s.carriedOut ++ [b]).length
    rw [List.length_append, List.length_singleton, version_concat]
  · show s.useLongMessageLength = version false (s.carriedOut ++ [b]) s.applied
    rw [version_append _ _ _ hn.le]
    exact h.host
  · obtain ⟨hle, hm⟩ := h.frames f (by rw [← frames_response s emberSuccess []]; exact hf)
    have hle' : f.version ≤ (s.carriedOut ++ [b]).length := by
      rw [List.length_append]
      omega
    exact ⟨hle', by rw [hm, version_append _ _ _ hle]⟩
  · show s.response.toList ++ (s.link ++ [NcpFrame.response emberSuccess]).filterMap _ = _
    have := answers_response s emberSuccess []
    rw [ha] at this
    exact this

theorem modesInv_emit {identifier : UInt16} {items : List Item} (h : ModesInv s) :
    ModesInv { s with
      link := s.link ++ [.callback ⟨identifier, items, s.ncpMode, s.carriedOut.length⟩] } where
  ncp := h.ncp
  host := h.host
  frames f hf := by
    rcases (by simpa [Modes.frames, NcpFrame.callback?, or_assoc] using hf :
      f ∈ s.draining ∨ f ∈ s.pipe ∨ (∃ a ∈ s.link, NcpFrame.callback? a = some f) ∨
        f = ⟨identifier, items, s.ncpMode, s.carriedOut.length⟩) with hf | hf | hf | rfl
    · exact h.frames f (by simp [Modes.frames, hf])
    · exact h.frames f (by simp [Modes.frames, hf])
    · exact h.frames f (by simp [Modes.frames, hf])
    · exact ⟨le_rfl, h.ncp⟩
  command := by
    have ha : Modes.answers { s with link := s.link ++
        [.callback ⟨identifier, items, s.ncpMode, s.carriedOut.length⟩] } = s.answers := by
      simp [Modes.answers, NcpFrame.response?]
    rw [ha]
    exact h.command

theorem modesInv_pollCallback {f : Frame} {link : List NcpFrame} (h : ModesInv s)
    (hl : s.link = .callback f :: link) :
    ModesInv { s with link := link, pipe := s.pipe ++ [f] } := by
  have ha : s.answers = s.response.toList ++ link.filterMap NcpFrame.response? := by
    rw [Modes.answers, hl]
    rfl
  refine h.moved rfl rfl rfl rfl rfl rfl ha.symm fun f' hf' => ?_
  simpa [Modes.frames, hl, NcpFrame.callback?] using hf'

/-- There is one answer at most, so that the poll thread overwrites none. -/
theorem Command.answer_unique {calling : Option Bool} {toNcp : List Bool}
    {answers : List EmberStatus} {us : List Bool} {n : ℕ}
    (h : Command calling toNcp answers us n) : answers.length ≤ 1 := by
  cases h with
  | idle _ _ ha _ => simp [ha]
  | sent _ _ ha _ => simp [ha]
  | refused _ _ ha _ _ => simp [ha]
  | accepted _ _ ha _ _ => simp [ha]

theorem modesInv_pollResponse {status : EmberStatus} {link : List NcpFrame} (h : ModesInv s)
    (hl : s.link = .response status :: link) :
    ModesInv { s with link := link, response := some status } := by
  have hnone : s.response = none := by
    have hle := h.command.answer_unique
    rw [Modes.answers, hl] at hle
    cases hr : s.response with
    | none => rfl
    | some st => simp [hr, NcpFrame.response?] at hle
  refine h.moved rfl rfl rfl rfl rfl rfl ?_ fun f hf => ?_
  · simp [Modes.answers, hl, hnone, NcpFrame.response?]
  · simpa [Modes.frames, hl, NcpFrame.callback?] using hf

/-- The call has its answer: the mode is set if the NCP has set it. -/
theorem Command.of_response {calling : Option Bool} {toNcp : List Bool}
    {status : EmberStatus} {answers : List EmberStatus} {us : List Bool} {n : ℕ}
    (h : Command calling toNcp (status :: answers) us n) :
    toNcp = [] ∧ answers = [] ∧
      (status ≠ emberSuccess ∧ n = us.length ∨
        ∃ b us', status = emberSuccess ∧ calling = some b ∧ us = us' ++ [b] ∧ n = us'.length) := by
  cases h with
  | idle _ _ ha _ => cases ha
  | sent _ _ ha _ => cases ha
  | refused hc ht ha hs hn =>
    obtain ⟨rfl, rfl⟩ := List.cons.inj ha
    exact ⟨ht, rfl, .inl ⟨hs, hn⟩⟩
  | accepted hc ht ha hu hn =>
    obtain ⟨rfl, rfl⟩ := List.cons.inj ha
    exact ⟨ht, rfl, .inr ⟨_, _, rfl, hc, hu, hn⟩⟩

theorem answers_of_response {status : EmberStatus} (hr : s.response = some status) :
    s.answers = status :: Modes.answers { s with calling := none, response := none } := by
  simp [Modes.answers, hr]

theorem modesInv_finishRefused {status : EmberStatus} (h : ModesInv s)
    (hr : s.response = some status) (hs : status ≠ emberSuccess) :
    ModesInv { s with calling := none, response := none } where
  ncp := h.ncp
  host := h.host
  frames := h.frames
  command := by
    have hcmd := h.command
    rw [answers_of_response hr] at hcmd
    obtain ⟨ht, ha, ⟨-, hn⟩ | ⟨b, us, hs', -⟩⟩ := hcmd.of_response
    · exact .idle rfl ht ha hn
    · exact absurd hs' hs

theorem modesInv_finishAccepted {b : Bool} (h : ModesInv s) (hc : s.calling = some b)
    (hr : s.response = some emberSuccess) :
    ModesInv { s with
      calling := none
      response := none
      useLongMessageLength := b
      applied := s.applied + 1 } := by
  have hcmd := h.command
  rw [answers_of_response hr] at hcmd
  obtain ⟨ht, ha, ⟨hs, -⟩ | ⟨b', us, -, hc', hu, hn⟩⟩ := hcmd.of_response
  · exact absurd rfl hs
  · obtain rfl := Option.some.inj (hc.symm.trans hc')
    refine ⟨h.ncp, ?_, h.frames, .idle rfl ht ha ?_⟩
    · show b = version false s.carriedOut (s.applied + 1)
      rw [hu, hn, version_concat]
    · show s.applied + 1 = s.carriedOut.length
      rw [hu, hn, List.length_append, List.length_singleton]

theorem modesInv_drain (h : ModesInv s) (hd : s.draining = []) :
    ModesInv { s with draining := s.pipe, pipe := [], used := [] } := by
  refine h.moved rfl rfl rfl rfl rfl rfl rfl fun f hf => ?_
  simpa [Modes.frames, hd] using hf

/-! ## What a step can do -/

/-- The steps that are enabled. -/
inductive ModesTrans (s : Modes) : Label → Modes → List Fetched → Prop
  | call {b : Bool} (hc : s.calling = none) :
      ModesTrans s (.call b) { s with calling := some b, toNcp := s.toNcp ++ [b] } []
  | carryOut {b : Bool} {toNcp : List Bool} (ht : s.toNcp = b :: toNcp) :
      ModesTrans s (.process emberSuccess)
        { s with
          toNcp := toNcp
          link := s.link ++ [.response emberSuccess]
          ncpMode := b
          carriedOut := s.carriedOut ++ [b] } []
  | refuse {b : Bool} {toNcp : List Bool} {status : EmberStatus} (ht : s.toNcp = b :: toNcp)
      (hs : status ≠ emberSuccess) :
      ModesTrans s (.process status)
        { s with toNcp := toNcp, link := s.link ++ [.response status] } []
  | emit {identifier : UInt16} {items : List Item} :
      ModesTrans s (.emit identifier items)
        { s with
          link := s.link ++ [.callback ⟨identifier, items, s.ncpMode, s.carriedOut.length⟩] } []
  | pollCallback {f : Frame} {link : List NcpFrame} (hl : s.link = .callback f :: link) :
      ModesTrans s .poll { s with link := link, pipe := s.pipe ++ [f] } []
  | pollResponse {status : EmberStatus} {link : List NcpFrame}
      (hl : s.link = .response status :: link) :
      ModesTrans s .poll { s with link := link, response := some status } []
  | finishAccepted {b : Bool} (hc : s.calling = some b) :
      ModesTrans s (.finish emberSuccess)
        { s with
          calling := none
          response := none
          useLongMessageLength := b
          applied := s.applied + 1 } []
  | finishRefused {status : EmberStatus} (hs : status ≠ emberSuccess) :
      ModesTrans s (.finish status) { s with calling := none, response := none } []
  | drain (hd : s.draining = []) :
      ModesTrans s .drain { s with draining := s.pipe, pipe := [], used := [] } []
  | fetch {f : Frame} {fs : List Frame} (hd : s.draining = f :: fs)
      (hlt : s.used.length < f.items.length) :
      ModesTrans s .fetch { s with used := s.used ++ [s.useLongMessageLength] }
        [⟨f, s.used.length, s.useLongMessageLength⟩]
  | fetched {f : Frame} {fs : List Frame} (hd : s.draining = f :: fs)
      (hle : f.items.length ≤ s.used.length) :
      ModesTrans s .fetch { s with draining := fs, used := [] } []

theorem modesTrans_process {status : EmberStatus}
    (hst : lengthModes.step s (.process status) = some (s', out)) :
    ModesTrans s (.process status) s' out := by
  simp only [lengthModes] at hst
  split at hst
  · cases hst
  · next b toNcp ht =>
    by_cases hs : status = emberSuccess
    · rw [if_pos hs] at hst
      subst hs
      obtain ⟨rfl, rfl⟩ := Prod.mk.inj (Option.some.inj hst)
      exact .carryOut ht
    · rw [if_neg hs] at hst
      obtain ⟨rfl, rfl⟩ := Prod.mk.inj (Option.some.inj hst)
      exact .refuse ht hs

theorem modesTrans_finish {status : EmberStatus}
    (hst : lengthModes.step s (.finish status) = some (s', out)) :
    ModesTrans s (.finish status) s' out := by
  simp only [lengthModes] at hst
  split at hst
  · next b _ hc _ =>
    by_cases hs : status = emberSuccess
    · rw [if_pos hs] at hst
      subst hs
      obtain ⟨rfl, rfl⟩ := Prod.mk.inj (Option.some.inj hst)
      exact .finishAccepted hc
    · rw [if_neg hs] at hst
      obtain ⟨rfl, rfl⟩ := Prod.mk.inj (Option.some.inj hst)
      exact .finishRefused hs
  · cases hst

theorem modesTrans_fetch (hst : lengthModes.step s .fetch = some (s', out)) :
    ModesTrans s .fetch s' out := by
  simp only [lengthModes] at hst
  split at hst
  · cases hst
  · next f fs hd =>
    by_cases hlt : s.used.length < f.items.length
    · rw [if_pos hlt] at hst
      obtain ⟨rfl, rfl⟩ := Prod.mk.inj (Option.some.inj hst)
      exact .fetch hd hlt
    · rw [if_neg hlt] at hst
      obtain ⟨rfl, rfl⟩ := Prod.mk.inj (Option.some.inj hst)
      exact .fetched hd (not_lt.mp hlt)

theorem modesTrans_of_step (hst : lengthModes.step s l = some (s', out)) :
    ModesTrans s l s' out := by
  cases l with
  | process status => exact modesTrans_process hst
  | finish status => exact modesTrans_finish hst
  | fetch => exact modesTrans_fetch hst
  | call b =>
    simp only [lengthModes, Option.ite_none_right_eq_some, Option.some.injEq, Prod.mk.injEq] at hst
    obtain ⟨hc, rfl, rfl⟩ := hst
    exact .call hc
  | emit identifier items =>
    simp only [lengthModes, Option.some.injEq, Prod.mk.injEq] at hst
    obtain ⟨rfl, rfl⟩ := hst
    exact .emit
  | poll =>
    simp only [lengthModes] at hst
    split at hst
    · cases hst
    · next f link hl =>
      obtain ⟨rfl, rfl⟩ := Prod.mk.inj (Option.some.inj hst)
      exact .pollCallback hl
    · next status link hl =>
      obtain ⟨rfl, rfl⟩ := Prod.mk.inj (Option.some.inj hst)
      exact .pollResponse hl
  | drain =>
    simp only [lengthModes, Option.ite_none_right_eq_some, Option.some.injEq, Prod.mk.injEq] at hst
    obtain ⟨hd, rfl, rfl⟩ := hst
    exact .drain hd

theorem modesInv_step (h : ModesInv s) (hok : ReadsAnswer s l) (ht : ModesTrans s l s' out) :
    ModesInv s' := by
  cases ht with
  | call hc => exact modesInv_call h hc
  | carryOut ht => exact modesInv_carryOut h ht
  | refuse ht hs => exact modesInv_refuse h ht hs
  | emit => exact modesInv_emit h
  | pollCallback hl => exact modesInv_pollCallback h hl
  | pollResponse hl => exact modesInv_pollResponse h hl
  | finishAccepted hc => exact modesInv_finishAccepted h hc (hok _ rfl)
  | finishRefused hs => exact modesInv_finishRefused h (hok _ rfl) hs
  | drain hd => exact modesInv_drain h hd
  | fetch _ _ => exact h.moved rfl rfl rfl rfl rfl rfl rfl fun f hf => hf
  | fetched hd _ =>
    refine h.moved rfl rfl rfl rfl rfl rfl rfl fun f hf => ?_
    rw [Modes.frames, hd]
    exact List.mem_cons_of_mem _ hf

/-- **The invariant holds in every interleaving.** -/
theorem modesInv_of_reach (h : lengthModes.Reach ReadsAnswer s) : ModesInv s :=
  h.invariant (fun _ h0 => h0 ▸ modesInv_init)
    fun _ _ _ _ _ hinv hok hst => modesInv_step hinv hok (modesTrans_of_step hst)

/-! ## The mode a frame is decoded in -/

/-- An item that is decoded is one of a frame that was read, and the mode is that of the host. -/
theorem fetched_of_mem {d : Fetched} (ht : ModesTrans s l s' out) (hd : d ∈ out) :
    d.frame ∈ s.frames ∧ d.index < d.frame.items.length ∧ d.mode = s.useLongMessageLength := by
  cases ht with
  | fetch hdr hlt =>
    obtain rfl := List.mem_singleton.mp hd
    refine ⟨?_, hlt, rfl⟩
    rw [Modes.frames, hdr]
    exact List.mem_cons_self
  | _ => cases hd

/-- **A frame is decoded in the mode it was encoded in**, as long as no command that one side has
carried out and the other has not changes the mode. -/
theorem mode_eq_of_unchanged {d : Fetched} (hs : lengthModes.Reach ReadsAnswer s)
    (hst : lengthModes.step s l = some (s', out)) (hd : d ∈ out)
    (hu : Unchanged false s.carriedOut d.frame.version s.applied) : d.mode = d.frame.mode := by
  have hinv := modesInv_of_reach hs
  obtain ⟨hf, -, hm⟩ := fetched_of_mem (modesTrans_of_step hst) hd
  calc d.mode = version false s.carriedOut s.applied := by rw [hm, hinv.host]
    _ = version false s.carriedOut d.frame.version := hu.version_eq.symm
    _ = d.frame.mode := (hinv.frames _ hf).2.symm

/-- The parameters of `emberIncomingMessageHandler` for a message of one byte. -/
def incomingMessage : List Item :=
  [.uint8 0, .uint16 2, .uint8 1, .int8 (-64), .length 1, .buffer [7], .uint32 0, .uint8 255]

/-- The callback frame in one of the modes. -/
def incomingFrame (mode : Bool) (version : ℕ) : Frame := ⟨0x6303, incomingMessage, mode, version⟩

/-- `emberNcpSetLongMessagesUse(true)`, from the call to the answer on the link. -/
def setLong : List Label := [.call true, .process emberSuccess]

/-- The host has read a frame from the pipe after `n` set commands, all for long mode. -/
def reading (frame : Frame) (n : ℕ) : Modes :=
  { Modes.init with
    ncpMode := true
    useLongMessageLength := true
    draining := [frame]
    carriedOut := List.replicate n true
    applied := n }

/-- Long mode is set again while the frame waits. -/
theorem mode_eq_of_unchanged_setLong :
    (⟨incomingFrame true 1, 0, true⟩ : Fetched).mode = (incomingFrame true 1).mode := by
  have hs : lengthModes.Reach ReadsAnswer (reading (incomingFrame true 1) 2) :=
    System.reach_of_exec_fst (setLong ++ [.poll, .finish emberSuccess,
      .emit 0x6303 incomingMessage] ++ setLong ++ [.poll, .poll, .finish emberSuccess, .drain])
      (.start rfl) (by decide +kernel)
  have hst : lengthModes.step (reading (incomingFrame true 1) 2) .fetch =
      some (_, [⟨incomingFrame true 1, 0, true⟩]) := rfl
  exact mode_eq_of_unchanged hs hst List.mem_cons_self (by unfold Unchanged; decide)

/-- **A callback that waits in the pipe while the mode is set is decoded in the other mode.** -/
theorem mode_ne_of_waiting : ¬ ∀ (s s' : Modes) (l : Label) (out : List Fetched),
    lengthModes.Reach ReadsAnswer s → lengthModes.step s l = some (s', out) →
      ∀ d ∈ out, d.mode = d.frame.mode := by
  intro h
  have hs : lengthModes.Reach ReadsAnswer (reading (incomingFrame false 0) 1) :=
    System.reach_of_exec_fst ([.emit 0x6303 incomingMessage] ++ setLong ++
      [.poll, .poll, .finish emberSuccess, .drain]) (.start rfl) (by decide +kernel)
  have hst : lengthModes.step (reading (incomingFrame false 0) 1) .fetch =
      some (_, [⟨incomingFrame false 0, 0, true⟩]) := rfl
  exact absurd (h _ _ _ _ hs hst _ List.mem_cons_self) (by decide)

/-! ## What is decoded -/

/-- `fetchParams`, where the static variable may change between two turns of the loop. -/
def fetchParamsIn (m : Mem) : List Bool → List Char → ℕ → List VaArg → Option (List Store × ℕ)
  | _, [], readPointer, _ => some ([], readPointer)
  | [], _ :: _, _, _ => none
  | useLongMessageLength :: modes, c :: format, readPointer, args => do
    let (store, readPointer, args) ← fetchParam useLongMessageLength m c readPointer args
    let (stores, readPointer) ← fetchParamsIn m modes format readPointer args
    return (store :: stores, readPointer)

/-- It is `fetchParams` in a mode when every turn is made in that mode. -/
theorem fetchParamsIn_eq {long : Bool} {m : Mem} : ∀ {modes : List Bool} {format : List Char}
    {p : ℕ} {args : List VaArg}, (∀ b ∈ modes, b = long) → format.length ≤ modes.length →
    fetchParamsIn m modes format p args = fetchParams long m format p args
  | _, [], _, _, _, _ => by
    unfold fetchParamsIn fetchParams
    rfl
  | [], _ :: _, _, _, _, hle => by simp at hle
  | b :: modes, c :: format, p, args, hb, hle => by
    obtain rfl : b = long := hb b List.mem_cons_self
    unfold fetchParamsIn fetchParams
    congr 1
    funext ⟨store, p', args'⟩
    have ih : fetchParamsIn m modes format p' args' = fetchParams b m format p' args' :=
      fetchParamsIn_eq (fun b' hb' => hb b' (List.mem_cons_of_mem b hb'))
        (Nat.le_of_succ_le_succ hle)
    simp only [ih]

/-- **A frame whose turns were all made in its own mode is decoded to its items.** -/
theorem fetchParamsIn_frame {f : Frame} {modes : List Bool} {m : Mem} {ds : List Dest}
    (hown : ∀ b ∈ modes, b = f.mode) (hle : f.items.length ≤ modes.length)
    (hfit : ∀ x ∈ f.items, x.Fits f.mode)
    (hd : List.Forall₂ (fun x d => Dest.Takes f.mode x d) f.items ds)
    (hm : m.read 0 f.bytes.length = f.bytes) :
    fetchParamsIn m modes (format f.items) 2 (ds.flatMap Dest.passed) =
      some (List.zipWith stored f.items ds, f.bytes.length) := by
  have hlen : f.bytes.length = 2 + (wire f.mode f.items).length := by
    rw [Frame.bytes, List.length_append, length_highLowBytes16]
  rw [hlen, Memory.read_add] at hm
  obtain ⟨-, hitems⟩ := List.append_inj hm (by simp)
  rw [fetchParamsIn_eq hown (by simpa [format] using hle), hlen]
  exact fetchParams_eq hfit hd hitems

/-- A frame is decoded while no change of the mode lies between the two sides. -/
def Agrees (s : Modes) (l : Label) : Prop :=
  ReadsAnswer s l ∧ (l = .fetch → ∀ f fs, s.draining = f :: fs →
    Unchanged false s.carriedOut f.version s.applied)

/-- The turns made on the first frame were made in its mode. -/
def UsedOwn (s : Modes) : Prop := ∀ f fs, s.draining = f :: fs → ∀ b ∈ s.used, b = f.mode

theorem usedOwn_step (hinv : ModesInv s) (h : UsedOwn s) (hag : Agrees s l)
    (ht : ModesTrans s l s' out) : UsedOwn s' := by
  cases ht with
  | fetch hdr hlt =>
    intro f fs hd b hb
    rcases List.mem_append.mp hb with hb | hb
    · exact h f fs hd b hb
    · have hf : f ∈ s.frames := by
        rw [Modes.frames, show s.draining = f :: fs from hd]
        exact List.mem_cons_self
      rw [List.mem_singleton.mp hb, hinv.host, (hinv.frames f hf).2]
      exact (hag.2 rfl f fs hd).version_eq.symm
  | fetched _ _ => exact fun _ _ _ b hb => absurd hb List.not_mem_nil
  | drain _ => exact fun _ _ _ b hb => absurd hb List.not_mem_nil
  | _ => exact h

theorem usedOwn_of_reach (h : lengthModes.Reach Agrees s) : UsedOwn s := by
  refine System.Reach.invariant_of (J := ModesInv)
    (fun s hs => modesInv_of_reach (hs.mono fun _ _ hag => hag.1))
    (fun s h0 f fs hd => ?_) (fun s l s' out hinv hown hag hst => ?_) h
  · rw [h0] at hd
    cases hd
  · exact usedOwn_step hinv hown hag (modesTrans_of_step hst)

/-- **Where the two sides agree whenever a frame is decoded, it is decoded to its items.** -/
theorem decoded_of_agrees {f : Frame} {fs : List Frame} {m : Mem} {ds : List Dest}
    (hs : lengthModes.Reach Agrees s) (hdr : s.draining = f :: fs)
    (hle : f.items.length ≤ s.used.length) (hfit : ∀ x ∈ f.items, x.Fits f.mode)
    (hd : List.Forall₂ (fun x d => Dest.Takes f.mode x d) f.items ds)
    (hm : m.read 0 f.bytes.length = f.bytes) :
    fetchParamsIn m s.used (format f.items) 2 (ds.flatMap Dest.passed) =
      some (List.zipWith stored f.items ds, f.bytes.length) :=
  fetchParamsIn_frame (usedOwn_of_reach hs f fs hdr) hle hfit hd hm

end ConnectNcpHost.Csp.LengthMode
