import ConnectNcpHost.App.GblImage

/-! # What is read of the image

`KeepsImage` is what the user and the clients have to keep to: no distribution of more bytes than
the file has, nothing loaded and no session ended under a distribution, and no accepted response that
asks for a segment behind the image. Then the thread of the server never reads the image while the
thread of the commands frees it or reads a file into it (`ImageInv`), and every segment is copied
inside the image and sent as it stands there (`readsImage_of_step`).

No condition of the user can be left out: `reads_behind_image` types more bytes than there are, and
`reads_freed_image` loads the file again while it is distributed. -/

namespace ConnectNcpHost.App.ImageReads

open ConnectNcpHost.Lib.Bytes ConnectNcpHost.Lib.Runs ConnectNcpHost.Lib.Chunks
open ConnectNcpHost.Stack.ByteUtilities ConnectNcpHost.Ota.Protocol
open ConnectNcpHost.Ota.BootloaderServer ConnectNcpHost.Ota.Transition ConnectNcpHost.Ota.Frames
open ConnectNcpHost.Ota.SegmentBounds ConnectNcpHost.Ota.Network
open ConnectNcpHost.Ota.Processes ConnectNcpHost.Ota.Parameters
open ConnectNcpHost.HostCommon.SubmittedFrames
open ConnectNcpHost.App.HexStrings ConnectNcpHost.App.GblImage

variable {cfg : Config} {s s' : SinkApp} {i : GblImage.Input}

/-! ## The guard -/

/-- The image has as many bytes as are distributed. -/
def Covers (gblImage : Image) (size : UInt32) : Prop :=
  ∃ bytes, gblImage = .block bytes ∧ size.toNat ≤ bytes.length

/-- An image distribution is going on. -/
def Distributing (s : Server) : Prop :=
  (requestOf s.internalState).map Request.process = some .imageDistribution

/-- The user types no size above that of the file, and during a distribution loads nothing and ends no
session. -/
def KeepsMemory (s : SinkApp) : GblImage.Input → Prop
  | .bootloaderUnicastDistribute imageSize _ =>
    s.server.internalState = .idle → s.gblImage ≠ .null → Covers s.gblImage imageSize
  | .loadGblFile (some _) => ¬ Distributing s.server
  | .exit => ¬ Distributing s.server
  | _ => True

/-- The same, and the accepted responses stay in range. -/
def KeepsImage (s : SinkApp) (i : GblImage.Input) : Prop :=
  KeepsMemory s i ∧ match i with
    | .incomingMessage message => InRange s.server (.incomingMessage message)
    | _ => True

instance (gblImage : Image) (size : UInt32) : Decidable (Covers gblImage size) :=
  match gblImage with
  | .null => isFalse (by rintro ⟨_, h, -⟩; cases h)
  | .freed => isFalse (by rintro ⟨_, h, -⟩; cases h)
  | .block bytes => decidable_of_iff (size.toNat ≤ bytes.length)
      ⟨fun h => ⟨bytes, rfl, h⟩, fun ⟨_, h, hle⟩ => by cases h; exact hle⟩

instance (s : Server) : Decidable (Distributing s) := by unfold Distributing; infer_instance

instance (s : SinkApp) (i : GblImage.Input) : Decidable (KeepsMemory s i) := by
  rcases i with (_ | _) | _ | _ | _ | _ | _ | _ | _ | _ | _ | _ | _ <;> unfold KeepsMemory <;>
    infer_instance

instance (s : SinkApp) (i : GblImage.Input) : Decidable (KeepsImage s i) := by
  unfold KeepsImage
  cases i <;> infer_instance

/-! ## The server -/

/-- **The application refines its server**: its runs are runs of the server alone. -/
theorem ota_of_reach (h : (sinkApp cfg).Reach KeepsImage s) : (ota cfg).Reach InRange s.server := by
  refine System.Reach.invariant (I := fun s => (ota cfg).Reach InRange s.server)
    (fun s hs => ?_) (fun s i s' os _ h hi hst => ?_) h
  · rw [show s = SinkApp.init from hs]
    exact .start rfl
  · have hstep : ∀ {j : Ota.BootloaderServer.Input} {o : Outcome}, InRange s.server j →
        handle cfg s.server j = some o → (ota cfg).Reach InRange o.server :=
      fun hj ho => .step h hj (congrArg (Option.map fun o : Outcome => (o.server, o.actions)) ho)
    have hevent : ∀ (onTimer : Bool) (env : EventEnv), InRange s.server (eventInput onTimer env) :=
      fun onTimer env => by cases onTimer <;> trivial
    have happ := appStep_of_step hst
    generalize actions os = as at happ
    cases happ with
    | called hj _ ho =>
      refine hstep ?_ ho
      cases i with
      | incomingMessage message => exact Option.some.inj hj ▸ hi.2
      | bootloaderUnicastDistribute imageSize imageTagHex =>
        rw [SinkApp.call] at hj
        split_ifs at hj
        exact Option.some.inj hj ▸ trivial
      | bootloaderUnicastRequestBootload _ _ _ => exact Option.some.inj hj ▸ trivial
      | messageSent _ _ => exact Option.some.inj hj ▸ trivial
      | _ => cases hj
    | handled _ _ ho => exact hstep (hevent _ _) ho
    | returned _ _ ho => exact hstep (hevent _ _) ho
    | asked _ _ _ => exact h
    | copied _ _ => exact h
    | freed _ _ =>
      unfold SinkApp.freeGblImage
      split_ifs <;> exact h
    | loaded hl => exact hl.server.1 ▸ h
    | typed => exact h

/-- **A server that asks for a segment waits for it**: a call of the API and a callback of the stack
leave it as it is. -/
theorem server_eq_of_asks {j : Ota.BootloaderServer.Input} {o : Outcome} (hs : Asks s.server)
    (hj : s.call i = some j) (ho : handle cfg s.server j = some o) : o.server = s.server := by
  have hstate := hs.2
  have hpending : ∀ r : Request, s.server.internalState ≠ r.pending := fun r => by
    rw [hstate]
    cases r <;> rintro ⟨⟩
  have hnot : j ≠ .abortCurrentProcess ∧ ∀ env, j ≠ .timerExpired env ∧ j ≠ .eventActive env := by
    cases i with
    | bootloaderUnicastDistribute imageSize imageTagHex =>
      rw [SinkApp.call] at hj
      split_ifs at hj
      cases hj
      exact ⟨by rintro ⟨⟩, fun env => ⟨by rintro ⟨⟩, by rintro ⟨⟩⟩⟩
    | bootloaderUnicastRequestBootload _ _ _ =>
      cases hj
      exact ⟨by rintro ⟨⟩, fun env => ⟨by rintro ⟨⟩, by rintro ⟨⟩⟩⟩
    | incomingMessage _ => cases hj; exact ⟨by rintro ⟨⟩, fun env => ⟨by rintro ⟨⟩, by rintro ⟨⟩⟩⟩
    | messageSent _ _ => cases hj; exact ⟨by rintro ⟨⟩, fun env => ⟨by rintro ⟨⟩, by rintro ⟨⟩⟩⟩
    | _ => cases hj
  cases trans_of_handle ho with
  | call ht =>
    cases ht with
    | refused _ _ => rfl
    | imageStarted hidle _ _ _ => cases hidle.symm.trans hstate
    | bootloadStarted hidle _ => cases hidle.symm.trans hstate
    | aborted _ _ => exact absurd rfl hnot.1
  | message ht =>
    have hseg : ∀ {m}, ¬ AcceptsSegmentResponse s.server m := fun h =>
      h.state.elim (fun h => (by cases h.symm.trans hstate)) fun h => by cases h.symm.trans hstate
    cases ht with
    | ignored _ _ _ => rfl
    | handshakeEnded h _ => cases h.state.symm.trans hstate
    | handshakeAccepted h _ _ => cases h.state.symm.trans hstate
    | segmentEnded h _ => exact absurd h hseg
    | segmentAdvanced h _ _ _ => exact absurd h hseg
    | segmentWrapped h _ _ _ => exact absurd h hseg
    | segmentIgnored h _ => exact absurd h hseg
    | bootloadAnswered h => cases h.state.symm.trans hstate
  | sent ht =>
    cases ht with
    | ignored _ => rfl
    | succeeded _ h _ => exact absurd h (hpending _)
    | failed _ h _ _ _ => exact absurd h (hpending _)
  | timer _ _ => exact absurd rfl (hnot.2 _).1
  | timerIgnored _ => rfl
  | event _ _ => exact absurd rfl (hnot.2 _).2

/-! ## The image covers what is distributed -/

/-- The callback copies what the server asks for, out of the image in memory. -/
structure Copies (s : SinkApp) (c : SegmentCopy) : Prop where
  asks : Asks s.server
  start : c.startIndex = segmentStartIndex s.server
  stop : c.endIndex = segmentEndIndex s.server
  alive : c.segmentStart ≠ .dead
  copied : ∀ bytes, s.gblImage = .block bytes →
    c.copied = (bytes.drop c.startIndex.toNat).take c.copied.length

/-- **Invariant.** During a distribution the image is in memory, as long as it has to be, and nobody
is about to free it or to write to it. -/
structure ImageInv (s : SinkApp) : Prop where
  distributing : Distributing s.server →
    s.cli = .ready ∧ Covers s.gblImage s.server.currentImageSizeOrBootloadTimeMs
  copying : ∀ c, s.copying = some c → Copies s c
  freed : s.gblImage = .freed → ∃ load, s.cli = .freeing load

/-- A command that frees the image comes outside the distributions. -/
theorem not_distributing_of_frees (hi : KeepsMemory s i) (h : i.frees = true) :
    ¬ Distributing s.server := by
  cases i with
  | loadGblFile file =>
    cases file with
    | none => cases h
    | some contents => exact hi
  | exit => exact hi
  | _ => cases h

theorem distributing_of_asks {s : Server} (h : Asks s) : Distributing s := by
  rw [Distributing, h.2]
  rfl

theorem Distributing.continues {s s' : Server} (h : Distributing s') (hc : Continues s s') :
    Distributing s := by
  unfold Distributing at h ⊢
  cases hc with
  | ended hs => rw [hs] at h; cases h
  | kept hs => rwa [← hs]
  | moved r r' hr hr' hp =>
    rw [hr'] at h
    rw [hr, Option.map_some, ← hp]
    exact h

/-- A distribution goes on, or has been started. -/
theorem distributing_of_trans {s : Server} {j : Ota.BootloaderServer.Input} {o : Outcome}
    (ht : Trans cfg s j o) (hd : Distributing o.server) :
    Distributing s ∧
        o.server.currentImageSizeOrBootloadTimeMs = s.currentImageSizeOrBootloadTimeMs ∨
      s.internalState = .idle ∧ ∃ target imageTag, j = .initiateImageDistribution target
        o.server.currentImageSizeOrBootloadTimeMs imageTag := by
  by_cases hb : begins j o.actions = false
  · obtain ⟨hk, hc⟩ := keeps_of_trans ht hb
    exact .inl ⟨hd.continues hc, hk.imageSizeOrTime⟩
  · cases ht with
    | call ht =>
      cases ht with
      | refused hi h =>
        cases hi with
        | abortCurrentProcess => exact absurd rfl hb
        | _ => exact absurd (succeeded_refused h) hb
      | imageStarted hidle _ _ _ => exact .inr ⟨hidle, _, _, rfl⟩
      | bootloadStarted _ _ => cases hd
      | aborted _ _ => exact absurd rfl hb
    | _ => exact absurd rfl hb

/-- The event handler starts no distribution. -/
theorem distributing_of_event {s : Server} {onTimer : Bool} {env : EventEnv} {o : Outcome}
    (ho : handle cfg s (eventInput onTimer env) = some o) (hd : Distributing o.server) :
    Distributing s ∧
      o.server.currentImageSizeOrBootloadTimeMs = s.currentImageSizeOrBootloadTimeMs := by
  rcases distributing_of_trans (trans_of_handle ho) hd with h | ⟨-, target, imageTag, hj⟩
  · exact h
  · cases onTimer <;> cases hj

/-- The callback goes on. -/
theorem Copies.step {c c' : SegmentCopy} {l : CopyStep} (h : Copies s c)
    (hcovers : Covers s.gblImage s.server.currentImageSizeOrBootloadTimeMs)
    (hst : c.step s.gblImage l = some c') : Copies s c' := by
  obtain ⟨bytes, himage, -⟩ := hcovers
  cases l with
  | point =>
    rw [SegmentCopy.step] at hst
    split_ifs at hst
    obtain rfl := Option.some.inj hst
    refine ⟨h.asks, h.start, h.stop, ?_, h.copied⟩
    show s.gblImage.segmentStart ≠ .dead
    rw [himage]
    rintro ⟨⟩
  | memcpy k =>
    rcases hstart : c.segmentStart with _ | _ | _
    · simp [SegmentCopy.step, hstart] at hst
    · simp only [SegmentCopy.step, hstart, himage] at hst
      split_ifs at hst with hle
      obtain rfl := Option.some.inj hst
      refine ⟨h.asks, h.start, h.stop, ?_, fun bytes' himage' => ?_⟩
      · rintro ⟨⟩
      · obtain rfl := Image.block.inj (himage.symm.trans himage')
        have hcopied := h.copied bytes himage
        rw [List.length_append, List.length_take, List.length_drop, Nat.min_eq_left (by omega),
          List.take_add, List.drop_drop, ← hcopied]
    · simp [SegmentCopy.step, hstart] at hst

/-- What the user types changes nothing. -/
theorem Copies.typed {c : SegmentCopy} {target : EmberNodeId} (h : Copies s c) :
    Copies { s with target := target } c :=
  ⟨h.asks, h.start, h.stop, h.alive, h.copied⟩

theorem imageInv_step {os : List Output} (h : ImageInv s) (hi : KeepsMemory s i)
    (hst : (sinkApp cfg).step s i = some (s', os)) : ImageInv s' := by
  have happ := appStep_of_step hst
  generalize actions os = as at happ
  cases happ with
  | @called j o hj hcli ho =>
    refine ⟨fun hd => ?_, fun c hc => ?_, h.freed⟩
    · rcases distributing_of_trans (trans_of_handle ho) hd with
        ⟨hd', hsize⟩ | ⟨hidle, target, imageTag, rfl⟩
      · exact hsize ▸ h.distributing hd'
      · cases i with
        | bootloaderUnicastDistribute imageSize imageTagHex =>
          rw [SinkApp.call] at hj
          split_ifs at hj with hnull
          have hsize : imageSize = o.server.currentImageSizeOrBootloadTimeMs := by
            cases hj
            rfl
          exact ⟨hcli rfl, hsize ▸ hi hidle hnull⟩
        | _ => cases hj
    · have hcopies := h.copying c hc
      have hsame := server_eq_of_asks hcopies.asks hj ho
      exact ⟨hsame ▸ hcopies.asks, by rw [hsame]; exact hcopies.start,
        by rw [hsame]; exact hcopies.stop, hcopies.alive, hcopies.copied⟩
  | handled hc _ ho =>
    refine ⟨fun hd => ?_, fun c hc' => ?_, h.freed⟩
    · obtain ⟨hd', hsize⟩ := distributing_of_event ho hd
      exact hsize ▸ h.distributing hd'
    · cases hc.symm.trans hc'
  | @asked onTimer _ ha _ =>
    refine ⟨h.distributing, fun c hc => ?_, h.freed⟩
    obtain rfl := Option.some.inj hc
    exact ⟨ha, rfl, rfl, by rintro ⟨⟩, fun _ _ => rfl⟩
  | @copied l c c' hc hcopy =>
    refine ⟨h.distributing, fun c1 hc1 => ?_, h.freed⟩
    obtain rfl := Option.some.inj hc1
    have hcopies := h.copying c hc
    have hcovers := (h.distributing (distributing_of_asks hcopies.asks)).2
    obtain ⟨hasks, hstart, hstop, halive, hcopied⟩ := hcopies.step hcovers hcopy
    exact ⟨hasks, hstart, hstop, halive, hcopied⟩
  | returned _ _ ho =>
    refine ⟨fun hd => ?_, fun c hc => (by cases hc), h.freed⟩
    obtain ⟨hd', hsize⟩ := distributing_of_event ho hd
    exact hsize ▸ h.distributing hd'
  | @freed load _ hfrees =>
    have hidle := not_distributing_of_frees hi hfrees
    have hnone : s.copying = none := by
      rcases hc : s.copying with _ | c
      · rfl
      · exact absurd (distributing_of_asks (h.copying c hc).asks) hidle
    unfold SinkApp.freeGblImage
    split_ifs with hnull
    · refine ⟨fun hd => absurd hd hidle, fun c hc => ?_, fun hfreed => ?_⟩
      · cases hnone.symm.trans hc
      · cases hnull.symm.trans hfreed
    · refine ⟨fun hd => absurd hd hidle, fun c hc => ?_, fun _ => ⟨load, rfl⟩⟩
      rw [hnone] at hc
      cases hc
  | loaded hloads =>
    obtain ⟨hserver, hcopying⟩ := hloads.server
    have hidle : ¬ Distributing s.server := fun hd => hloads.cli_ne (h.distributing hd).1
    refine ⟨fun hd => absurd (hserver ▸ hd) hidle, fun c hc => ?_, fun hfreed => ?_⟩
    · exact absurd (distributing_of_asks (h.copying c (hcopying ▸ hc)).asks) hidle
    · cases hloads with
      | nulled _ => cases hfreed
      | refused hcli =>
        obtain ⟨load, hload⟩ := h.freed hfreed
        cases hcli.symm.trans hload
      | allocated _ _ => cases hfreed
      | stored _ _ _ => cases hfreed
      | closed hcli =>
        obtain ⟨load, hload⟩ := h.freed hfreed
        cases hcli.symm.trans hload
  | typed => exact ⟨h.distributing, fun c hc => (h.copying c hc).typed, h.freed⟩

theorem imageInv_of_reach (h : (sinkApp cfg).Reach KeepsImage s) : ImageInv s := by
  refine System.Reach.invariant (fun s hs => ?_) (fun s i s' os _ h hi hst => ?_) h
  · rw [show s = SinkApp.init from hs]
    exact ⟨fun hd => (by cases hd), fun c hc => (by cases hc), fun hf => (by cases hf)⟩
  · exact imageInv_step h hi.1 hst

/-! ## What is read, and what is sent -/

/-- What is copied for the next segment is its chunk of the part that is distributed. -/
theorem copied_eq_chunk {s : Server} {image : List UInt8} (hinv : SegmentInv s)
    (hs : s.internalState = .segmentUnicastInterval) :
    (image.drop (segmentStartIndex s).toNat).take
        ((segmentEndIndex s).toNat + 1 - (segmentStartIndex s).toNat) =
      chunk maxSegmentPayloadLength.toNat (image.take s.currentImageSizeOrBootloadTimeMs.toNat)
        s.nextSegment.toNat := by
  have hn : maxSegmentPayloadLength.toNat = 96 := rfl
  have hseg : requestOf s.internalState = some .imageSegment := by rw [hs]; rfl
  have hsize := hinv.size hseg rfl
  have hle := hsize.le
  have hlt := lt_getTotalSegmentsCount_iff.mp (hinv.next hseg)
  have hstart := toNat_segmentStartIndex (s := s) (by omega)
  have hend := toNat_segmentEndIndex hsize hlt
  rw [chunk, hstart, hend, hn, List.drop_take, List.take_take]
  congr 1
  omega

/-- A segment that is copied is submitted. -/
theorem messageSend_of_copied (cfg : Config) {s : Server} {env : EventEnv} {bytes : List UInt8}
    (hs : s.internalState = .segmentUnicastInterval)
    (hcopied : env.getImageSegment (segmentStartIndex s) (segmentEndIndex s)
      s.currentImageTagOrServerStatus = some bytes) :
    .messageSend (segmentFrame env.stack bytes s) env.sendStatus ∈
      (emAfPluginOtaUnicastBootloaderServerEventHandler cfg env s).actions := by
  have hrun : emAfPluginOtaUnicastBootloaderServerEventHandler cfg env s =
      unicastNextSegment cfg env { s with otaEventIsActive := false } := by
    unfold emAfPluginOtaUnicastBootloaderServerEventHandler
    dsimp only
    rw [hs]
  have hcopied' : env.getImageSegment (segmentStartIndex { s with otaEventIsActive := false })
      (segmentEndIndex { s with otaEventIsActive := false })
      { s with otaEventIsActive := false }.currentImageTagOrServerStatus = some bytes := hcopied
  rw [hrun, unicastNextSegment, hcopied', Outcome.actions_after]
  exact List.mem_append_left _ (.tail _ (.head _))

/-- DATA_UNDERFLOW is what the event handler makes of a callback that returns `false`. -/
theorem underflow_of_handler {s : Server} {env : EventEnv}
    (h : .imageDistributionComplete .dataUnderflow ∈
      (emAfPluginOtaUnicastBootloaderServerEventHandler cfg env s).actions) :
    s.internalState = .segmentUnicastInterval ∧ env.getImageSegment (segmentStartIndex s)
      (segmentEndIndex s) s.currentImageTagOrServerStatus = none := by
  have hfailed : ∀ {r : Request} {s1 : Server} {o : Outcome}, Failed cfg r s1 o →
      .imageDistributionComplete .dataUnderflow ∉ o.actions := by
    intro r s1 o ho hm
    rcases gaveUp_of_failed ho hm with h | h <;> cases h
  have ht := eventHandler_trans cfg env s
  generalize ho : emAfPluginOtaUnicastBootloaderServerEventHandler cfg env s = o at h ht
  cases ht with
  | submitted _ _ _ => simp [not_mem_prelude] at h
  | notSubmitted _ _ _ hf => exact absurd (by simpa [not_mem_prelude] using h) (hfailed hf)
  | timedOut _ hf => exact absurd h (hfailed hf)
  | idle _ => simp at h
  | underflow hs =>
    refine ⟨hs, ?_⟩
    rcases hcopied : env.getImageSegment (segmentStartIndex s) (segmentEndIndex s)
      s.currentImageTagOrServerStatus with _ | bytes
    · rfl
    · have hsend := messageSend_of_copied cfg hs hcopied
      rw [ho] at hsend
      simp [segmentCallback] at hsend

/-- **Why a distribution ends with DATA_UNDERFLOW.** -/
theorem underflow_of_step {s t : Server} {j : Ota.BootloaderServer.Input} {as : List Action}
    (h : (ota cfg).step s j = some (t, as))
    (hm : .imageDistributionComplete .dataUnderflow ∈ as) :
    ∃ env, (j = .timerExpired env ∨ j = .eventActive env) ∧ Asks s ∧
      env.getImageSegment (segmentStartIndex s) (segmentEndIndex s)
        s.currentImageTagOrServerStatus = none := by
  obtain ⟨o, ho, he⟩ := Option.map_eq_some_iff.mp h
  obtain ⟨rfl, rfl⟩ := Prod.mk.inj he
  have hgaveUp : ∀ {r : Request} {s1 : Server}, ¬ Failed cfg r s1 o := by
    intro r s1 hf
    rcases gaveUp_of_failed hf hm with h | h <;> cases h
  cases j with
  | timerExpired env =>
    obtain rfl := Option.some.inj ho
    split_ifs at hm with hactive
    · obtain ⟨hstate, hnone⟩ := underflow_of_handler hm
      exact ⟨env, .inl rfl, ⟨hactive, hstate⟩, hnone⟩
    · cases hm
  | eventActive env =>
    rw [handle] at ho
    split_ifs at ho with hactive
    obtain rfl := Option.some.inj ho
    obtain ⟨hstate, hnone⟩ := underflow_of_handler hm
    exact ⟨env, .inr rfl, ⟨hactive, hstate⟩, hnone⟩
  | incomingMessage m =>
    cases (trans_of_handle ho).messageTrans with
    | handshakeAccepted _ _ hf => exact absurd hf hgaveUp
    | handshakeEnded _ hst =>
      rcases hst with ⟨rfl, -⟩ | ⟨rfl, -⟩ <;> cases List.mem_singleton.mp hm
    | segmentEnded _ hst => cases hst <;> cases List.mem_singleton.mp hm
    | _ => simp at hm
  | messageSent status m =>
    cases trans_of_handle ho with
    | call ht => cases ht with
      | refused hi _ => cases hi
    | sent ht => cases ht with
      | failed _ _ _ _ hf => exact absurd hf hgaveUp
      | _ => simp at hm
  | abortCurrentProcess =>
    cases trans_of_handle ho with
    | call ht => cases ht with
      | @aborted r _ _ => cases r <;> simp [Request.process, Process.complete] at hm
      | refused _ _ => simp at hm
  | _ =>
    cases trans_of_handle ho with
    | call ht => cases ht <;> simp at hm

/-- What the callback copies: the segment that is due, as many bytes as the frame has room for, inside
the image. -/
structure CopiesSegment (s : SinkApp) (c : SegmentCopy) (bytes : List UInt8) : Prop where
  image : s.gblImage = .block bytes
  start : c.startIndex = segmentStartIndex s.server
  stop : c.endIndex = segmentEndIndex s.server
  count : c.count = c.endIndex.toNat - c.startIndex.toNat + 1
  fits : c.count ≤ maxSegmentPayloadLength.toNat
  inside : c.startIndex.toNat + c.count ≤ bytes.length

theorem inImage_of_inv (hinv : SegmentInv s.server)
    (hst : s.server.internalState = .segmentUnicastInterval) :
    InImage s.server (segmentStartIndex s.server) (segmentEndIndex s.server) := by
  have hseg : requestOf s.server.internalState = some .imageSegment := by rw [hst]; rfl
  exact (inImage_iff (hinv.size hseg rfl)).mpr (hinv.next hseg)

theorem exists_copiesSegment {c : SegmentCopy} (hinv : SegmentInv s.server) (himage : ImageInv s)
    (hc : s.copying = some c) : ∃ bytes, CopiesSegment s c bytes := by
  have hcopies := himage.copying c hc
  have hin := inImage_of_inv hinv hcopies.asks.2
  obtain ⟨bytes, hblock, hcovers⟩ :=
    (himage.distributing (distributing_of_asks hcopies.asks)).2
  have hle : c.startIndex ≤ c.endIndex := by
    rw [hcopies.start, hcopies.stop]
    exact hin.le
  have hle' := UInt32.le_iff_toNat_le.mp hle
  have hfits : c.endIndex.toNat - c.startIndex.toNat + 1 ≤ maxSegmentPayloadLength.toNat := by
    rw [hcopies.start, hcopies.stop]
    exact hin.length_le
  have hlt : c.endIndex.toNat < bytes.length := by
    rw [hcopies.stop]
    exact lt_of_lt_of_le (UInt32.lt_iff_toNat_lt.mp hin.lt_size) hcovers
  have hn : maxSegmentPayloadLength.toNat = 96 := rfl
  have hcount : c.count = c.endIndex.toNat - c.startIndex.toNat + 1 := by
    rw [SegmentCopy.count, UInt32.toNat_add, UInt32.toNat_sub_of_le _ _ hle]
    simp only [UInt32.reduceToNat]
    omega
  exact ⟨bytes, hblock, hcopies.start, hcopies.stop, hcount, hcount ▸ hfits, by omega⟩

/-- What has been copied when the callback returns. -/
theorem copied_of_full {c : SegmentCopy} (hinv : SegmentInv s.server) (himage : ImageInv s)
    (hc : s.copying = some c) (hfull : c.copied.length = c.count) :
    ∃ bytes, s.gblImage = .block bytes ∧
      c.copied = chunk maxSegmentPayloadLength.toNat
        (bytes.take s.server.currentImageSizeOrBootloadTimeMs.toNat) s.server.nextSegment.toNat ∧
      c.copied.length =
        (segmentEndIndex s.server).toNat - (segmentStartIndex s.server).toNat + 1 := by
  have hcopies := himage.copying c hc
  obtain ⟨bytes, hseg⟩ := exists_copiesSegment hinv himage hc
  have hin := inImage_of_inv hinv hcopies.asks.2
  have hle := UInt32.le_iff_toNat_le.mp hin.le
  have hlength : c.copied.length =
      (segmentEndIndex s.server).toNat - (segmentStartIndex s.server).toNat + 1 := by
    rw [hfull, hseg.count, hseg.start, hseg.stop]
  refine ⟨bytes, hseg.image, ?_, hlength⟩
  rw [hcopies.copied bytes hseg.image, hlength, hcopies.start,
    ← copied_eq_chunk hinv hcopies.asks.2]
  congr 1
  omega

/-- What a state reads of the image, and what a step sends of it. -/
structure ReadsImage (s : SinkApp) (os : List Output) : Prop where
  /-- whatever is copied lies in the image, fits the array of the message, and no step of the main
  thread is in between -/
  inside : ∀ c, s.copying = some c → s.cli = .ready ∧ c.segmentStart ≠ .dead ∧
    c.count ≤ maxSegmentPayloadLength.toNat ∧
    ∃ bytes, s.gblImage = .block bytes ∧ c.startIndex.toNat + c.count ≤ bytes.length
  /-- so nothing undefined is read -/
  defined : ∀ c k, s.copying = some c → c.segmentStart = .live → c.copied.length + k ≤ c.count →
    ∃ c', c.step s.gblImage (.memcpy k) = some c'
  sent : ∀ {m status}, .server (.messageSend m status) ∈ os → Carries m .imageSegment →
    ∃ bytes, s.gblImage = .block bytes ∧ segmentPayload m = chunk maxSegmentPayloadLength.toNat
      (bytes.take s.server.currentImageSizeOrBootloadTimeMs.toNat) (segmentIndex m).toNat
  never : .server (.imageDistributionComplete .dataUnderflow) ∉ os

/-- A segment frame carries what was copied. -/
theorem segmentPayload_segmentFrame {s : Server} {stack : Mem} {bytes : List UInt8}
    (hin : InImage s (segmentStartIndex s) (segmentEndIndex s))
    (hlength : bytes.length = (segmentEndIndex s).toNat - (segmentStartIndex s).toNat + 1) :
    segmentPayload (segmentFrame stack bytes s) = bytes := by
  have h6 : imageSegmentHeaderLength.toNat = 6 := rfl
  rw [segmentPayload, toNat_length_segmentFrame hin, h6, Nat.add_sub_cancel_left, ← hlength]
  exact read_segmentFrame stack bytes s

theorem ota_step_of_handle {j : Ota.BootloaderServer.Input} {t : Server} {o : Outcome}
    (ho : handle cfg t j = some o) : (ota cfg).step t j = some (o.server, o.actions) :=
  congrArg (Option.map fun o : Outcome => (o.server, o.actions)) ho

/-- A call of the API and a callback of the stack are no events. -/
theorem call_ne_event {j : Ota.BootloaderServer.Input} (hj : s.call i = some j) (env : EventEnv) :
    j ≠ .timerExpired env ∧ j ≠ .eventActive env := by
  cases i with
  | bootloaderUnicastDistribute imageSize imageTagHex =>
    rw [SinkApp.call] at hj
    split_ifs at hj
    cases hj
    exact ⟨by rintro ⟨⟩, by rintro ⟨⟩⟩
  | bootloaderUnicastRequestBootload _ _ _ => cases hj; exact ⟨by rintro ⟨⟩, by rintro ⟨⟩⟩
  | incomingMessage _ => cases hj; exact ⟨by rintro ⟨⟩, by rintro ⟨⟩⟩
  | messageSent _ _ => cases hj; exact ⟨by rintro ⟨⟩, by rintro ⟨⟩⟩
  | _ => cases hj

/-- The event that runs is the one that was entered. -/
theorem env_of_eventInput {onTimer : Bool} {env env' : EventEnv}
    (h : eventInput onTimer env = .timerExpired env' ∨ eventInput onTimer env = .eventActive env') :
    env' = env := by
  cases onTimer <;> rcases h with h | h <;> cases h <;> rfl

/-- A distribution does not end for want of an image. -/
theorem not_underflow_of_inv {os : List Output} (himage : ImageInv s)
    (h : (sinkApp cfg).step s i = some (s', os)) :
    .imageDistributionComplete .dataUnderflow ∉ actions os := by
  intro hm
  have happ := appStep_of_step h
  generalize actions os = as at happ hm
  cases happ with
  | called hj _ ho =>
    obtain ⟨env, henv, -⟩ := underflow_of_step (ota_step_of_handle ho) hm
    rcases henv with rfl | rfl
    · exact (call_ne_event hj env).1 rfl
    · exact (call_ne_event hj env).2 rfl
  | handled _ hnull ho =>
    obtain ⟨-, -, hasks, -⟩ := underflow_of_step (ota_step_of_handle ho) hm
    obtain ⟨bytes, hblock, -⟩ := (himage.distributing (distributing_of_asks hasks)).2
    cases (hnull hasks).symm.trans hblock
  | returned _ _ ho =>
    obtain ⟨env, henv, -, hnone⟩ := underflow_of_step (ota_step_of_handle ho) hm
    obtain rfl := env_of_eventInput henv
    cases hnone
  | _ => cases hm

/-- A segment that is sent is the one that has been copied. -/
theorem sent_of_inv {os : List Output} {m : EmberOutgoingMessage} {status : EmberStatus}
    (hinv : SegmentInv s.server) (himage : ImageInv s)
    (h : (sinkApp cfg).step s i = some (s', os)) (hm : .messageSend m status ∈ actions os)
    (hc : Carries m .imageSegment) :
    ∃ bytes, s.gblImage = .block bytes ∧ segmentPayload m = chunk maxSegmentPayloadLength.toNat
      (bytes.take s.server.currentImageSizeOrBootloadTimeMs.toNat) (segmentIndex m).toNat := by
  have happ := appStep_of_step h
  generalize actions os = as at happ hm
  have hevent : ∀ {j : Ota.BootloaderServer.Input} {o : Outcome}, handle cfg s.server j = some o →
      .messageSend m status ∈ o.actions → ∃ env, (j = .timerExpired env ∨ j = .eventActive env) ∧
        s.server.internalState = .segmentUnicastInterval ∧ IsFrame env s.server .imageSegment m := by
    intro j o ho hm
    obtain ⟨env, henv, hev⟩ := eventTrans_of_submits (trans_of_handle ho) rfl hm
    obtain ⟨r, hstate, hf⟩ := isFrame_of_event hev hm
    obtain rfl := (carries_of_isFrame hf).eq hc
    exact ⟨env, henv, hstate, hf⟩
  cases happ with
  | called hj _ ho =>
    obtain ⟨env, henv, -⟩ := hevent ho hm
    rcases henv with rfl | rfl
    · exact absurd rfl (call_ne_event hj env).1
    · exact absurd rfl (call_ne_event hj env).2
  | handled _ _ ho =>
    obtain ⟨env, henv, -, hf⟩ := hevent ho hm
    obtain rfl := env_of_eventInput henv
    cases hf with
    | imageSegment hb => cases hb
  | returned hcopying hfull ho =>
    obtain ⟨env, henv, hstate, hf⟩ := hevent ho hm
    obtain rfl := env_of_eventInput henv
    obtain ⟨bytes, hblock, hchunk, hlength⟩ := copied_of_full hinv himage hcopying hfull
    refine ⟨bytes, hblock, ?_⟩
    cases hf with
    | @imageSegment bytes' hb =>
      obtain rfl := Option.some.inj hb
      rw [segmentIndex_segmentFrame, ← hchunk]
      exact segmentPayload_segmentFrame (inImage_of_inv hinv hstate) hlength
  | _ => cases hm

/-- **Everything that is read of the image lies in it, and everything that is sent of it is a chunk
of it**, in every run in which the user keeps to the size of the file and loads nothing under a
distribution, and the accepted responses stay in range: the callback never reads behind the image,
or while it is freed or written, copies no more than the message takes, and a distribution never
ends for want of an image. -/
theorem readsImage_of_step {os : List Output} (hs : (sinkApp cfg).Reach KeepsImage s)
    (h : (sinkApp cfg).step s i = some (s', os)) : ReadsImage s os := by
  have hinv := segmentInv_of_reach (ota_of_reach hs)
  have himage := imageInv_of_reach hs
  refine ⟨fun c hc => ?_, fun c k hc hlive hle => ?_, fun hm hc => ?_, fun hm => ?_⟩
  · obtain ⟨bytes, hseg⟩ := exists_copiesSegment hinv himage hc
    have hcopies := himage.copying c hc
    exact ⟨(himage.distributing (distributing_of_asks hcopies.asks)).1, hcopies.alive, hseg.fits,
      bytes, hseg.image, hseg.inside⟩
  · obtain ⟨bytes, hseg⟩ := exists_copiesSegment hinv himage hc
    have hinside := hseg.inside
    simp only [SegmentCopy.step, hlive, hseg.image]
    exact ⟨_, if_pos ⟨hle, by omega⟩⟩
  · exact sent_of_inv hinv himage h (mem_actions.mpr hm) hc
  · exact not_underflow_of_inv himage h (mem_actions.mpr hm)

/-! ### Runs -/

/-- The array of the message holds zeros, and the stack accepts every frame. -/
def plainAppEnv : AppEnv := ⟨fun _ => 0, emberSuccess, 0⟩

/-- The user loads a file; the memory held zeros. -/
def loadRun (file : List UInt8) : List GblImage.Input :=
  [.loadGblFile (some file), .load (.malloc (some (List.replicate file.length 0))),
    .load (.fread file.length), .load .fclose]

/-- The user loads a file and distributes `imageSize` bytes of it under the tag 7 to the node 5,
which accepts. -/
def distributionRun (file : List UInt8) (imageSize : UInt32) : List GblImage.Input :=
  loadRun file ++ [.bootloaderUnicastSetTarget "0x0005".toList,
    .bootloaderUnicastDistribute imageSize "7".toList, .timerExpired plainAppEnv,
    .messageSent emberSuccess (handshakeFrame plainAppEnv.stack
      (transferServer 5 imageSize 7 .handshakeInterval 0)),
    .incomingMessage (handshakeResponse 5 respStatusOngoing 7)]

/-- The server asks for the first segment. -/
def copyRun (file : List UInt8) (imageSize : UInt32) : List GblImage.Input :=
  distributionRun file imageSize ++ [.timerExpired plainAppEnv, .copy .point]

/-- A segment is submitted. -/
def sendsSegment (os : List Output) : Bool :=
  os.any fun o => match o with
    | .server (.messageSend m _) => decide (Carries m .imageSegment)
    | _ => false

/-- A file of three bytes, all of it distributed; `memcpy` copies two bytes, and another one. -/
theorem readsImage_of_step_three : ∃ (s s' : SinkApp) (os : List Output),
    (sinkApp defaultConfig).step s (.segmentCopied plainAppEnv) = some (s', os) ∧
      sendsSegment os = true ∧ ReadsImage s os := by
  have h0 : (sinkApp defaultConfig).Reach KeepsImage SinkApp.init := .start rfl
  obtain ⟨s, hs, hb⟩ := System.exists_reach_of_exec
    (copyRun [0x47, 0x42, 0x4C] 3 ++ [.copy (.memcpy 2), .copy (.memcpy 1)])
    (fun s => ((sinkApp defaultConfig).step s (.segmentCopied plainAppEnv)).map fun r =>
      sendsSegment r.2) (b := some true) h0 (by decide +kernel)
  obtain ⟨⟨s', os⟩, hst, hsends⟩ := Option.map_eq_some_iff.mp hb
  exact ⟨s, s', os, hst, hsends, readsImage_of_step hs hst⟩

/-- **A user who types too large a size has the callback read behind the image**: 96 bytes of a file
of three. -/
theorem reads_behind_image : ∃ s : SinkApp, (sinkApp defaultConfig).Reach free s ∧
    ∃ c bytes, s.copying = some c ∧ c.segmentStart = .live ∧ s.gblImage = .block bytes ∧
      bytes.length < c.startIndex.toNat + c.count := by
  obtain ⟨s, hs, hb⟩ := System.exists_reach_of_exec
    (copyRun [0x47, 0x42, 0x4C] 96)
    (fun s => (s.gblImage, s.copying.map fun c => (c.segmentStart, c.startIndex.toNat, c.count)))
    (b := (.block [0x47, 0x42, 0x4C], some (.live, 0, 96)))
    (.start rfl : (sinkApp defaultConfig).Reach free SinkApp.init) (by decide +kernel)
  obtain ⟨hblock, hb⟩ := Prod.mk.inj hb
  obtain ⟨c, hc, he⟩ := Option.map_eq_some_iff.mp hb
  obtain ⟨hlive, hstart, hcount⟩ : c.segmentStart = .live ∧ c.startIndex.toNat = 0 ∧
    c.count = 96 := by simpa using he
  exact ⟨s, hs, c, _, hc, hlive, hblock, by rw [hstart, hcount]; decide⟩

/-- **A user who loads the file again has the callback read freed memory**: it has found an image, and
copies once the image is freed. -/
theorem reads_freed_image : ∃ s : SinkApp, (sinkApp defaultConfig).Reach free s ∧
    ∃ c, s.copying = some c ∧ c.segmentStart = .dead ∧ c.copied.length < c.count := by
  obtain ⟨s, hs, hb⟩ := System.exists_reach_of_exec
    (copyRun [0x47, 0x42, 0x4C] 3 ++ [.loadGblFile (some [0x47, 0x42, 0x4C])])
    (fun s => s.copying.map fun c => (c.segmentStart, c.copied.length, c.count))
    (b := some (.dead, 0, 3)) (.start rfl : (sinkApp defaultConfig).Reach free SinkApp.init)
    (by decide +kernel)
  obtain ⟨c, hc, he⟩ := Option.map_eq_some_iff.mp hb
  obtain ⟨hdead, hcopied, hcount⟩ : c.segmentStart = .dead ∧ c.copied.length = 0 ∧ c.count = 3 := by
    simpa using he
  exact ⟨s, hs, c, hc, hdead, by omega⟩

end ConnectNcpHost.App.ImageReads
