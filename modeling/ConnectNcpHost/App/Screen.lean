import ConnectNcpHost.App.CommandRuns
import ConnectNcpHost.App.GblImage
import ConnectNcpHost.App.SensorData
import ConnectNcpHost.HostCommon.Host

/-! # The sink: host, application and command line

The callback thread takes the callbacks of the stack from the queue. A handler first calls the
application, which prints, and then the framework, which calls the server. Meanwhile the user types
commands, the poll thread reads frames, and the timer of the server expires; `set_tx_options`
decides on what the application drops from then on.

`sinkHost` is this with the bytes in the queue and the lines that are printed, `sink` what it is
for: a list of readings, one callback after the other.

* `sink_of_host`: the code refines it.
* `secured_of_reach`: what the user sees as long as security stays on. -/

namespace ConnectNcpHost.App.Screen

open ConnectNcpHost.Lib.Bytes ConnectNcpHost.Lib.Runs ConnectNcpHost.Lib.Programs
open ConnectNcpHost.Stack.ByteUtilities ConnectNcpHost.Csp.ApiCommands ConnectNcpHost.Csp.Callbacks
open ConnectNcpHost.HostCommon.CallbackQueue ConnectNcpHost.HostCommon.CallbackPath
open ConnectNcpHost.HostCommon.Host ConnectNcpHost.Ota.Protocol ConnectNcpHost.Ota.BootloaderServer
open ConnectNcpHost.App.HexStrings ConnectNcpHost.App.Commands ConnectNcpHost.App.GblImage
open ConnectNcpHost.App.SensorData ConnectNcpHost.App.CommandRuns

variable {cfg : Config} {long : Bool}

/-! ## The code -/

/-- The framework's part of a callback (`callback_dispatcher.c`). -/
def appInput : Callback → Option GblImage.Input
  | .messageSent status message => some (.messageSent status message.toEmberOutgoingMessage)
  | .incomingMessage message => some (.incomingMessage message.toEmberIncomingMessage)
  | _ => none

/-- The input is none of the framework's. -/
def isOwn : GblImage.Input → Bool
  | .incomingMessage _ => false
  | .messageSent _ _ => false
  | _ => true

/-- The texts among the outputs. -/
def texts (os : List Output) : List (List Char) :=
  os.filterMap fun o => match o with
    | .printed text => some text
    | .server _ => none

/-- What the NCP answers to the calls of a command. -/
abbrev Answers : Type := ℕ → (c : ApiCall) → c.reply.Variables

/-- The host with its application. -/
structure SinkHost where
  queue : Queue
  /-- the variables of the command line -/
  settings : Settings
  app : SinkApp
  /-- the callback the application has printed and the framework has not got yet -/
  pending : Option GblImage.Input
  /-- what the callback thread has printed (history) -/
  screen : List (List Char)

/-- The atomic steps. -/
inductive Label
  /-- a step of the poll thread or of the callback thread -/
  | queue (l : HostCommon.CallbackQueue.Label) (vars : Locals)
  /-- the callback thread calls the framework -/
  | framework
  /-- a command with the image or the server, or the timer -/
  | app (i : GblImage.Input)
  /-- another command -/
  | command (k : Command) (answers : Answers)

/-- The step is one of the callback thread. -/
def isCallbackThread : HostCommon.CallbackQueue.Label → Bool
  | .read _ => true
  | .turn => true
  | _ => false

/-- The first part of a handler: it fetches the parameters, and the application prints. `none` is
`FATAL`, or a temperature without absolute value. -/
def executeCallback (long : Bool) (vars : Locals) (d : Drain) (h : SinkHost) : Option SinkHost :=
  (sliConnectNcpHandleIndication long vars d.pipeBuffer d.turn.1.commandId (d.finger + 2 + 2)).bind
    fun c => (prints h.settings c).map fun line =>
      { h with pending := appInput c, screen := h.screen ++ [line] }

/-- **The host, its threads in any order.** A command that does something undefined is not
followed. -/
def sinkHost (cfg : Config) (long : Bool) (fs : List CallbackFrame) :
    System SinkHost Label Output where
  start h := h = ⟨Queue.init fs, Settings.init, SinkApp.init, none, []⟩
  step h
    | .queue l vars =>
      if h.pending.isSome ∧ isCallbackThread l then none
      else ((callbackQueue fs).step h.queue l).map fun r =>
        match h.queue.drain, r.2 with
        | some d, _ :: _ =>
          match executeCallback long vars d h with
          | some h' => ({ h' with queue := r.1 }, [])
          | none => ({ h with queue := { r.1 with exited := true } }, [])
        | _, _ => ({ h with queue := r.1 }, [])
    | .framework =>
      if h.queue.exited then none
      else h.pending.bind fun i => ((sinkApp cfg).step h.app i).map fun r =>
        ({ h with app := r.1, pending := none, screen := h.screen ++ texts r.2 }, r.2)
    | .app i =>
      if h.queue.exited ∨ ¬ isOwn i then none
      else ((sinkApp cfg).step h.app i).map fun r => ({ h with app := r.1 }, r.2)
    | .command k answers =>
      if h.queue.exited ∨ h.app.cli ≠ .ready then none
      else ((k.program h.settings).returned answers 0).map fun settings =>
        ({ h with settings := settings }, [])

/-! ## The history of a run -/

/-- What happens, as the threads show it. -/
inductive Mark
  /-- the callback thread makes a call; `vars` is what the variables of the handler hold before -/
  | call (c : Call) (vars : Locals)
  | framework
  | app (i : GblImage.Input)
  | command (k : Command) (answers : Answers)

/-- The history of a run: what the threads have done, in order, and what has come out. -/
structure History where
  marks : List Mark
  outputs : List Output

/-- What a step adds to the marks. -/
def Label.marks (fs : List CallbackFrame) (q : Queue) : Label → List Mark
  | .queue l vars => (callsOf fs q l).map fun c => .call c vars
  | .framework => [.framework]
  | .app i => [.app i]
  | .command k answers => [.command k answers]

def History.record (fs : List CallbackFrame) (g : History) (h : SinkHost) (l : Label)
    (os : List Output) : History := ⟨g.marks ++ l.marks fs h.queue, g.outputs ++ os⟩

/-- The host with the history of its run. -/
def observedSinkHost (cfg : Config) (long : Bool) (fs : List CallbackFrame) :
    System (SinkHost × History) Label Output :=
  (sinkHost cfg long fs).observe ⟨[], []⟩ (History.record fs)

/-! ## What it is for -/

/-- The sink, seen from outside. -/
structure Sink where
  settings : Settings
  app : SinkApp
  pending : Option GblImage.Input
  readings : List Reading

/-- What happens to it. -/
inductive Event (long : Bool)
  /-- a callback is executed; `vars` is what the variables of the handler hold before -/
  | callback (c : StackCallback long) (vars : Locals)
  | framework
  | app (i : GblImage.Input)
  | command (k : Command) (answers : Answers)

/-- The mark it leaves. -/
def Event.mark : Event long → Mark
  | callback c vars => .call c.frame.call vars
  | framework => .framework
  | app i => .app i
  | command k answers => .command k answers

/-- The callback that is executed. -/
def Event.stackCallback : Event long → Option (StackCallback long)
  | callback c _ => some c
  | _ => none

/-- The reading of a callback, where it is not dropped. -/
def reading (settings : Settings) : Callback → Option Reading
  | .incomingMessage x =>
    if Accepts settings x.toEmberIncomingMessage then some (readingOf x.toEmberIncomingMessage)
    else none
  | _ => none

def Sink.init : Sink := ⟨Settings.init, SinkApp.init, none, []⟩

/-- **The sink**: every reading of a callback is kept. -/
def sink (cfg : Config) (long : Bool) : System Sink (Event long) Output where
  start s := s = Sink.init
  step s
    | .callback c vars =>
      if s.pending.isSome then none
      else some ({ s with
        pending := appInput (c.callback.received vars)
        readings := s.readings ++ (reading s.settings c.callback).toList }, [])
    | .framework => s.pending.bind fun i => ((sinkApp cfg).step s.app i).map fun r =>
        ({ s with app := r.1, pending := none }, r.2)
    | .app i =>
      if isOwn i then ((sinkApp cfg).step s.app i).map fun r => ({ s with app := r.1 }, r.2)
      else none
    | .command k answers =>
      if s.app.cli = .ready then
        ((k.program s.settings).returned answers 0).map fun settings =>
          ({ s with settings := settings }, [])
      else none

/-- The sink of the host: of the screen, what can be read as a reading. -/
def SinkHost.sink (h : SinkHost) : Sink where
  settings := h.settings
  app := h.app
  pending := h.pending
  readings := h.screen.filterMap readLine

/-- The messages of sensors keep to the format. -/
def KeepsFormat : Callback → Prop
  | .incomingMessage x => x.endpoint = slSensorSinkEndpoint →
    8 ≤ x.length.toNat ∧ temperatureOf x.payload ≠ intMin
  | _ => True

instance (c : Callback) : Decidable (KeepsFormat c) := by
  refine c.casesOn ?_ ?_ ?_ ?_ ?_ ?_ ?_ ?_ ?_ ?_ ?_ <;> intros <;> unfold KeepsFormat <;>
    infer_instance

/-! ## What is printed -/

/-- Only the line of a message begins with an `R`. -/
theorem readLine_of_head {text : List Char} (h : text.head? ≠ some 'R') : readLine text = none := by
  have hline : "RX: Data from 0x".toList = 'R' :: "X: Data from 0x".toList := rfl
  have hnone : text.dropPrefix? "RX: Data from 0x".toList = none := by
    rw [hline]
    rcases text with _ | ⟨c, cs⟩
    · rfl
    · have hc : ¬ (c == 'R') = true := by
        rw [beq_iff_eq]
        exact fun heq => h (congrArg some heq)
      rw [List.dropPrefix?, if_neg hc]
  rw [readLine, hnone]
  rfl

theorem texts_append (os os' : List Output) : texts (os ++ os') = texts os ++ texts os' :=
  List.filterMap_append

/-- What the callbacks of the server print is no line of a message. -/
theorem readings_shown (a : Action) : (texts (shown a)).filterMap readLine = [] := by
  rw [List.filterMap_eq_nil_iff]
  intro text htext
  refine readLine_of_head ?_
  cases a with
  | imageDistributionComplete status =>
    rw [List.mem_singleton.mp htext]
    exact fun h => absurd (show some 'i' = some 'R' from h) (by decide)
  | requestTargetBootloadComplete status =>
    rw [List.mem_singleton.mp htext]
    exact fun h => absurd (show some 'b' = some 'R' from h) (by decide)
  | _ => cases htext

theorem readings_ran (s : SinkApp) (o : Outcome) :
    (texts (s.ran o).2).filterMap readLine = [] := by
  show (texts (o.actions.flatMap shown)).filterMap readLine = []
  induction o.actions with
  | nil => rfl
  | cons a as ih =>
    rw [List.flatMap_cons, texts_append, List.filterMap_append, readings_shown, ih]
    rfl

/-- The framework always takes its callback, and prints no line of a message. -/
theorem step_of_appInput (cfg : Config) {c : Callback} {i : GblImage.Input}
    (h : appInput c = some i) (s : SinkApp) :
    ∃ r, (sinkApp cfg).step s i = some r ∧ (texts r.2).filterMap readLine = [] := by
  unfold appInput at h
  split at h
  · obtain rfl := Option.some.inj h
    exact ⟨_, rfl, readings_ran s _⟩
  · obtain rfl := Option.some.inj h
    exact ⟨_, rfl, readings_ran s _⟩
  · cases h

/-- **A callback is printed, and read back as its reading.** -/
theorem prints_of_keepsFormat (settings : Settings) (vars : Locals) (c : StackCallback long)
    (hformat : KeepsFormat c.callback) : ∃ line,
      prints settings (c.callback.received vars) = some line ∧
      readLine line = reading settings c.callback := by
  obtain ⟨c, hfits, hwithin⟩ := c
  cases c with
  | incomingMessage x =>
    rw [prints_received, reading]
    by_cases haccepts : Accepts settings x.toEmberIncomingMessage
    · obtain ⟨hlength, ht⟩ := hformat (by_contra fun hne => haccepts (Or.inl hne))
      rw [if_pos haccepts, ← readingOf_received vars hwithin hlength]
      refine readLine_of_prints haccepts ?_
      rw [temperature_received vars (by omega)]
      exact ht
    · rw [if_neg haccepts]
      exact ⟨[], if_pos haccepts, readLine_of_head (by decide)⟩
  | messageSent status message =>
    refine ⟨_, rfl, readLine_of_head ?_⟩
    rw [emberAfMessageSentCallback]
    split_ifs
    · exact fun h => absurd (show some 'T' = some 'R' from h) (by decide)
    · decide
  | stackStatus status =>
    refine ⟨_, rfl, readLine_of_head ?_⟩
    rw [emberAfStackStatusCallback]
    split_ifs
    · decide
    · decide
    · exact fun h => absurd (show some 'S' = some 'R' from h) (by decide)
  | childJoin nodeType nodeId =>
    refine ⟨_, rfl, readLine_of_head ?_⟩
    exact fun h => absurd (show some 'S' = some 'R' from h) (by decide)
  | frequencyHoppingStartClientComplete status =>
    refine ⟨_, rfl, readLine_of_head ?_⟩
    rw [emberAfFrequencyHoppingStartClientCompleteCallback]
    split_ifs
    · exact fun h => absurd (show some 'F' = some 'R' from h) (by decide)
    · decide
  | energyScanComplete scan =>
    refine ⟨_, rfl, readLine_of_head ?_⟩
    exact fun h => absurd (show some 'E' = some 'R' from h) (by decide)
  | _ => exact ⟨[], rfl, readLine_of_head (by decide)⟩

/-! ## One step -/

/-- A step of the host, as one of the sink. -/
inductive SinkStep (cfg : Config) (cs done : List (StackCallback long)) (h : SinkHost) (l : Label)
    (h' : SinkHost) (os : List Output) : Prop
  | silent (hexecuted : Executed cs h'.queue done) (hsink : h'.sink = h.sink) (hos : os = [])
      (hmarks : l.marks (cs.map StackCallback.frame) h.queue = [])
  | event (e : Event long) (hexecuted : Executed cs h'.queue (done ++ e.stackCallback.toList))
      (hmarks : l.marks (cs.map StackCallback.frame) h.queue = [e.mark])
      (hstep : (sink cfg long).step h.sink e = some (h'.sink, os))

variable {cs done : List (StackCallback long)} {h h' : SinkHost} {l : Label} {os : List Output}

/-- The first part of a handler. -/
theorem executeCallback_of_call {d : Drain} {c : StackCallback long} (vars : Locals)
    (hformat : KeepsFormat c.callback) (hcall : d.turn.1 = c.frame.call) :
    ∃ line, executeCallback long vars d h =
        some { h with
          pending := appInput (c.callback.received vars)
          screen := h.screen ++ [line] } ∧
      readLine line = reading h.settings c.callback := by
  obtain ⟨line, hline, hread⟩ := prints_of_keepsFormat h.settings vars c hformat
  refine ⟨line, ?_, hread⟩
  rw [executeCallback, handleIndication_of_call vars hcall, Option.bind_some, hline,
    Option.map_some]

theorem sinkStep_queue {l : HostCommon.CallbackQueue.Label} {vars : Locals}
    (hformat : ∀ c ∈ cs, KeepsFormat c.callback) (hexecuted : Executed cs h.queue done)
    (hst : (sinkHost cfg long (cs.map StackCallback.frame)).step h (.queue l vars) =
      some (h', os)) : SinkStep cfg cs done h (.queue l vars) h' os := by
  simp only [sinkHost] at hst
  split_ifs at hst with hblocked
  simp only [Option.map_eq_some_iff] at hst
  obtain ⟨⟨q, calls⟩, hstep, hst⟩ := hst
  have hmarks : (Label.queue l vars).marks (cs.map StackCallback.frame) h.queue =
      calls.map fun c => .call c vars := by rw [Label.marks, callsOf_of_step hstep]
  rcases executed_step hexecuted hstep with ⟨rfl, hq⟩ | ⟨d, c, hd, rfl, hcall, hq⟩
  · have hsame : ({ h with queue := q }, []) = (h', os) := by
      rcases hd : h.queue.drain with _ | d
      · rw [hd] at hst
        exact hst
      · rw [hd] at hst
        exact hst
    obtain ⟨rfl, rfl⟩ := Prod.mk.inj hsame
    exact .silent hq rfl rfl hmarks
  · have hmem : c ∈ cs := hq.1.subset (List.mem_append_right _ List.mem_cons_self)
    obtain ⟨line, hline, hread⟩ := executeCallback_of_call (h := h) vars (hformat c hmem) hcall
    simp only [hd, hline, Prod.mk.injEq] at hst
    obtain ⟨rfl, rfl⟩ := hst
    have hl : isCallbackThread l = true := by
      cases l with
      | turn => rfl
      | _ => exact absurd (calls_eq_nil (by rintro ⟨⟩) hstep) (List.cons_ne_nil _ _)
    have hfree : ¬ h.pending.isSome = true := fun hp => hblocked ⟨hp, hl⟩
    refine .event (.callback c vars) hq hmarks ?_
    simp only [sink, SinkHost.sink, if_neg hfree, List.filterMap_append, List.filterMap_cons,
      List.filterMap_nil, hread]
    rcases reading h.settings c.callback <;> rfl

/-- What the framework is to get is a callback. -/
def FromCallback (s : Sink) : Prop := ∀ i, s.pending = some i → ∃ c, appInput c = some i

/-- **What a step of the host does to the sink.** -/
theorem sinkStep_of_step (hformat : ∀ c ∈ cs, KeepsFormat c.callback)
    (hexecuted : Executed cs h.queue done) (hpending : FromCallback h.sink)
    (hst : (sinkHost cfg long (cs.map StackCallback.frame)).step h l = some (h', os)) :
    SinkStep cfg cs done h l h' os := by
  have hsame : Executed cs h.queue (done ++ []) := by
    rw [List.append_nil]
    exact hexecuted
  cases l with
  | queue l vars => exact sinkStep_queue hformat hexecuted hst
  | framework =>
    simp only [sinkHost] at hst
    split_ifs at hst with hexited
    obtain ⟨i, hi, hst⟩ := Option.bind_eq_some_iff.mp hst
    obtain ⟨c, hc⟩ := hpending i hi
    obtain ⟨r, hr, hsilent⟩ := step_of_appInput cfg hc h.app
    rw [hr, Option.map_some, Option.some.injEq] at hst
    obtain ⟨rfl, rfl⟩ := Prod.mk.inj hst
    refine .event .framework hsame rfl ?_
    simp only [sink, SinkHost.sink, hi, Option.bind_some, hr, Option.map_some,
      List.filterMap_append, hsilent, List.append_nil]
  | app i =>
    simp only [sinkHost] at hst
    split_ifs at hst with hblocked
    obtain ⟨r, hr, hst⟩ := Option.map_eq_some_iff.mp hst
    obtain ⟨rfl, rfl⟩ := Prod.mk.inj hst
    have hown : isOwn i = true := by_contra fun hi => hblocked (Or.inr hi)
    refine .event (.app i) hsame rfl ?_
    simp only [sink, SinkHost.sink, if_pos hown, hr, Option.map_some]
  | command k answers =>
    simp only [sinkHost] at hst
    split_ifs at hst with hblocked
    obtain ⟨settings, hsettings, hst⟩ := Option.map_eq_some_iff.mp hst
    obtain ⟨rfl, rfl⟩ := Prod.mk.inj hst
    have hready : h.app.cli = .ready := by_contra fun hne => hblocked (Or.inr hne)
    refine .event (.command k answers) hsame rfl ?_
    simp only [sink, SinkHost.sink, if_pos hready, hsettings, Option.map_some]

theorem fromCallback_of_step {s s' : Sink} {e : Event long} (hs : FromCallback s)
    (hst : (sink cfg long).step s e = some (s', os)) : FromCallback s' := by
  cases e with
  | callback c vars =>
    simp only [sink] at hst
    split_ifs at hst
    obtain ⟨rfl, -⟩ := Prod.mk.inj (Option.some.inj hst)
    exact fun i hi => ⟨_, hi⟩
  | framework =>
    obtain ⟨i, -, hst⟩ := Option.bind_eq_some_iff.mp hst
    obtain ⟨r, -, hst⟩ := Option.map_eq_some_iff.mp hst
    obtain ⟨rfl, -⟩ := Prod.mk.inj hst
    rintro i ⟨⟩
  | app i =>
    simp only [sink] at hst
    split_ifs at hst
    obtain ⟨r, -, hst⟩ := Option.map_eq_some_iff.mp hst
    obtain ⟨rfl, -⟩ := Prod.mk.inj hst
    exact hs
  | command k answers =>
    simp only [sink] at hst
    split_ifs at hst
    obtain ⟨r, -, hst⟩ := Option.map_eq_some_iff.mp hst
    obtain ⟨rfl, -⟩ := Prod.mk.inj hst
    exact hs

/-! ## Whole runs -/

/-- **Invariant**: the events are those of the run, the callbacks among them are the first ones, and
the sink is where the events lead, with the same outputs. -/
structure SinkInv (cfg : Config) (cs : List (StackCallback long)) (h : SinkHost) (g : History)
    (es : List (Event long)) : Prop where
  executed : Executed cs h.queue (es.filterMap Event.stackCallback)
  marks : es.map Event.mark = g.marks
  ran : (sink cfg long).exec free Sink.init es = some (h.sink, g.outputs)
  pending : FromCallback h.sink

theorem sinkInv_of_reach {g : History} (hformat : ∀ c ∈ cs, KeepsFormat c.callback)
    (hr : (observedSinkHost cfg long (cs.map StackCallback.frame)).Reach free (h, g)) :
    ∃ es, SinkInv cfg cs h g es := by
  refine System.Reach.invariant (I := fun p => ∃ es, SinkInv cfg cs p.1 p.2 es)
    (fun p hstart => ?_) (fun p l p' os _ hinv _ hst => ?_) hr
  · obtain ⟨hh, hg⟩ := hstart
    have hh : p.1 = ⟨Queue.init _, Settings.init, SinkApp.init, none, []⟩ := hh
    rw [hh, hg]
    exact ⟨[], executed_init cs, rfl, rfl, by rintro i ⟨⟩⟩
  · obtain ⟨es, hexecuted, hmarks, hran, hpending⟩ := hinv
    obtain ⟨hst, hg⟩ := System.observe_step hst
    cases sinkStep_of_step hformat hexecuted hpending hst with
    | silent hexecuted' hsink hos hsilent =>
      refine ⟨es, hexecuted', ?_, ?_, ?_⟩
      · rw [hg, History.record, hsilent, List.append_nil]
        exact hmarks
      · rw [hg, History.record, hsink, hos, List.append_nil]
        exact hran
      · rw [hsink]
        exact hpending
    | event e hexecuted' hmark hstep =>
      refine ⟨es ++ [e], ?_, ?_, ?_, fromCallback_of_step hpending hstep⟩
      · rw [filterMap_concat]
        exact hexecuted'
      · rw [hg, History.record, hmark, List.map_append, hmarks, List.map_singleton]
      · have hlast : (sink cfg long).exec free p.1.sink [e] = some (p'.1.sink, _ ++ []) :=
          System.exec_of_step trivial hstep rfl
        rw [List.append_nil] at hlast
        rw [hg, History.record]
        exact System.exec_append hlast hran

/-- What the sink of a host has done. -/
structure RefinesSink (cfg : Config) (cs : List (StackCallback long)) (h : SinkHost) (g : History)
    (es : List (Event long)) : Prop where
  /-- the events are what the threads have done, in the same order -/
  marks : es.map Event.mark = g.marks
  first : es.filterMap Event.stackCallback <+: cs
  /-- with them, the sink comes to the same state and does the same -/
  ran : (sink cfg long).exec free Sink.init es = some (h.sink, g.outputs)
  all : Quiet h.queue → es.filterMap Event.stackCallback = cs

/-- **The host refines the sink.** In every run, with the threads in any order, the readings on the
screen, the variables of the command line, the image and the server are where the sink is after the
events of the run, and what has come out is the same: the events are the commands as they were
typed, with what the NCP has answered, the calls of the framework, the callbacks and steps of the
server's thread, and between them the callbacks executed so far, in the order of the run. These are
the first ones the stack has encoded, each once and in order, and all of them where nothing is left
in the queue. The process does not exit. -/
theorem sink_of_host (cfg : Config) (cs : List (StackCallback long)) {g : History}
    (hformat : ∀ c ∈ cs, KeepsFormat c.callback)
    (hr : (observedSinkHost cfg long (cs.map StackCallback.frame)).Reach free (h, g)) :
    h.queue.exited = false ∧ ∃ es, RefinesSink cfg cs h g es := by
  obtain ⟨es, hinv⟩ := sinkInv_of_reach hformat hr
  exact ⟨hinv.executed.running, es, hinv.marks, hinv.executed.1, hinv.ran,
    executed_of_quiet hinv.executed⟩

/-- The message of the sensor, and the same one without security. -/
def sensorCallback : StackCallback true :=
  ⟨.incomingMessage sensorMessage, fits_sensorMessage true, show 8 ≤ 2048 by decide⟩

def unsecuredCallback : StackCallback true :=
  ⟨.incomingMessage { sensorMessage with options := 0 }, fits_sensorMessage true,
    show 8 ≤ 2048 by decide⟩

/-- One entry of the pipe is read and executed, while the user types a command in between. -/
def callbackRun (l : Label) : List Label :=
  [.queue (.append fun _ => 0) zeroLocals, .queue (.write 26) zeroLocals,
    .queue (.read fun _ => 0) zeroLocals, .queue .turn zeroLocals, l, .framework,
    .queue .turn zeroLocals]

/-- `set_tx_options` -/
def typeTxOptions (sendOptionsHex : String) : Label :=
  .command (.setTxOptions sendOptionsHex.toList) fun _ c => c.reply.zeros

theorem sink_of_host_sensor : ∃ (h : SinkHost) (g : History),
    h.sink.readings = [readingOf sensorMessage.toEmberIncomingMessage] ∧ g.marks.length = 3 ∧
    h.queue.exited = false ∧
    ∃ es, RefinesSink defaultConfig [sensorCallback, unsecuredCallback] h g es := by
  have hformat : ∀ c ∈ [sensorCallback, unsecuredCallback], KeepsFormat c.callback := by decide
  have h0 : (observedSinkHost defaultConfig true
      ([sensorCallback, unsecuredCallback].map StackCallback.frame)).Reach free
      (⟨Queue.init _, Settings.init, SinkApp.init, none, []⟩, ⟨[], []⟩) := .start ⟨rfl, rfl⟩
  obtain ⟨⟨h, g⟩, hr, hb⟩ := System.exists_reach_of_exec (callbackRun (typeTxOptions "0x02"))
    (fun p : SinkHost × History => (p.1.sink.readings, p.2.marks.length))
    (b := ([readingOf sensorMessage.toEmberIncomingMessage], 3)) h0 (by decide +kernel)
  obtain ⟨hreadings, hmarks⟩ := Prod.mk.inj hb
  exact ⟨h, g, hreadings, hmarks, sink_of_host defaultConfig _ hformat hr⟩

/-! ## Security -/

/-- The options say that messages are secured. -/
def Secured (options : UInt8) : Prop := options &&& emberOptionsSecurityEnabled ≠ 0

instance (options : UInt8) : Decidable (Secured options) := by unfold Secured; infer_instance

/-- The user does not switch security off. -/
def KeepsSecurity (_ : SinkHost) : Label → Prop
  | .command (.setTxOptions sendOptionsHex) _ => Secured (UInt8.ofInt (hexToInt sendOptionsHex).1)
  | _ => True

instance (h : SinkHost) (l : Label) : Decidable (KeepsSecurity h l) := by
  refine l.casesOn ?_ ?_ ?_ fun k _ => ?_
  · intros
    exact isTrue trivial
  · exact isTrue trivial
  · intros
    exact isTrue trivial
  · refine k.casesOn ?_ ?_ ?_ ?_ ?_ ?_ ?_ ?_ ?_ ?_ ?_ ?_ ?_ ?_ <;> intros <;>
      unfold KeepsSecurity <;> infer_instance

/-- The reading of a message that was sent to the sink and secured. -/
def securedReading (c : StackCallback long) : Option Reading :=
  match c.callback with
  | .incomingMessage x =>
    if x.endpoint = slSensorSinkEndpoint ∧ Secured x.options then
      some (readingOf x.toEmberIncomingMessage)
    else none
  | _ => none

theorem reading_of_secured {settings : Settings} (hs : Secured settings.txOptions)
    (c : StackCallback long) : reading settings c.callback = securedReading c := by
  obtain ⟨c, hfits, hwithin⟩ := c
  cases c with
  | incomingMessage x =>
    have hiff : Accepts settings x.toEmberIncomingMessage ↔
        x.endpoint = slSensorSinkEndpoint ∧ Secured x.options := by
      unfold Accepts
      rw [not_or, not_not, not_and]
      exact and_congr_right fun _ => ⟨fun h => h hs, fun h _ => h⟩
    exact if_congr hiff rfl rfl
  | _ => rfl

/-- `tx_options` after a command that keeps security on. -/
theorem secured_of_returned {k : Command} {answers : Answers} {settings settings' : Settings}
    (hk : KeepsSecurity h (.command k answers)) (hs : Secured settings.txOptions)
    (hreturned : (k.program settings).returned answers 0 = some settings') :
    Secured settings'.txOptions := by
  rw [Program.returns_of_returned (returns_txOptions k settings) hreturned]
  cases k with
  | setTxOptions sendOptionsHex => exact hk
  | _ => exact hs

/-- **What a step does to the readings and to the options.** -/
theorem readings_of_step {s s' : Sink} {e : Event long}
    (hst : (sink cfg long).step s e = some (s', os)) :
    s'.readings = s.readings ++
        (e.stackCallback.bind fun c => reading s.settings c.callback).toList ∧
      (s'.settings = s.settings ∨ ∃ k answers, e = .command k answers ∧
        (k.program s.settings).returned answers 0 = some s'.settings) := by
  cases e with
  | callback c vars =>
    simp only [sink] at hst
    split_ifs at hst
    obtain ⟨rfl, -⟩ := Prod.mk.inj (Option.some.inj hst)
    exact ⟨rfl, Or.inl rfl⟩
  | framework =>
    obtain ⟨i, -, hst⟩ := Option.bind_eq_some_iff.mp hst
    obtain ⟨r, -, hst⟩ := Option.map_eq_some_iff.mp hst
    obtain ⟨rfl, -⟩ := Prod.mk.inj hst
    exact ⟨(List.append_nil _).symm, Or.inl rfl⟩
  | app i =>
    simp only [sink] at hst
    split_ifs at hst
    obtain ⟨r, -, hst⟩ := Option.map_eq_some_iff.mp hst
    obtain ⟨rfl, -⟩ := Prod.mk.inj hst
    exact ⟨(List.append_nil _).symm, Or.inl rfl⟩
  | command k answers =>
    simp only [sink] at hst
    split_ifs at hst
    obtain ⟨r, hr, hst⟩ := Option.map_eq_some_iff.mp hst
    obtain ⟨rfl, -⟩ := Prod.mk.inj hst
    exact ⟨(List.append_nil _).symm, Or.inr ⟨k, answers, rfl, hr⟩⟩

/-- A command leaves its own mark. -/
theorem eq_command_of_marks {fs : List CallbackFrame} {q : Queue} {k : Command} {answers : Answers}
    (h : l.marks fs q = [.command k answers]) : l = .command k answers := by
  cases l with
  | queue l vars =>
    have hm : Mark.command k answers ∈ (callsOf fs q l).map fun c => Mark.call c vars := by
      rw [show (callsOf fs q l).map (fun c => Mark.call c vars) = _ from h]
      exact List.mem_singleton_self _
    obtain ⟨c, -, hc⟩ := List.mem_map.mp hm
    cases hc
  | framework => cases h
  | app i => cases h
  | command k' answers' =>
    cases h
    rfl

/-- **Invariant**: security is on, and the readings are those of secured messages. -/
structure SecuredInv (cs done : List (StackCallback long)) (h : SinkHost) : Prop where
  executed : Executed cs h.queue done
  pending : FromCallback h.sink
  settings : Secured h.settings.txOptions
  readings : h.sink.readings = done.filterMap securedReading

theorem securedInv_of_reach (hformat : ∀ c ∈ cs, KeepsFormat c.callback)
    (hr : (sinkHost cfg long (cs.map StackCallback.frame)).Reach KeepsSecurity h) :
    ∃ done, SecuredInv cs done h := by
  refine System.Reach.invariant (I := fun h => ∃ done, SecuredInv cs done h) (fun h hstart => ?_)
    (fun h l h' os _ hinv hl hst => ?_) hr
  · obtain rfl := hstart
    exact ⟨[], executed_init cs, by rintro i ⟨⟩, (by decide : Secured Settings.init.txOptions), rfl⟩
  · obtain ⟨done, hexecuted, hpending, hsettings, hreadings⟩ := hinv
    cases sinkStep_of_step hformat hexecuted hpending hst with
    | silent hexecuted' hsink _ _ =>
      refine ⟨done, hexecuted', ?_, ?_, ?_⟩
      · rw [hsink]
        exact hpending
      · rw [show h'.settings = h.settings from congrArg Sink.settings hsink]
        exact hsettings
      · rw [hsink]
        exact hreadings
    | event e hexecuted' hmarks hstep =>
      obtain ⟨hreadings', hsettings'⟩ := readings_of_step hstep
      refine ⟨_, hexecuted', fromCallback_of_step hpending hstep, ?_, ?_⟩
      · rcases hsettings' with heq | ⟨k, answers, rfl, hreturned⟩
        · rw [show h'.settings = h.settings from heq]
          exact hsettings
        · rw [eq_command_of_marks hmarks] at hl
          exact secured_of_returned hl hsettings hreturned
      · rw [hreadings', hreadings, List.filterMap_append]
        cases e with
        | callback c vars =>
          have hreading := reading_of_secured hsettings c
          simp only [Event.stackCallback, Option.bind_some, Option.toList_some,
            List.filterMap_cons, List.filterMap_nil, SinkHost.sink, hreading]
          rcases securedReading c <;> rfl
        | _ => rfl

/-- **As long as security is on, only secured messages are shown**, and every one of them. In every
run in which the user does not switch security off, with the threads and the other commands in any
order, the readings on the screen are those of the secured messages among the callbacks executed,
each once and in order; where nothing is left in the queue, of all the stack has encoded. -/
theorem secured_of_reach (hformat : ∀ c ∈ cs, KeepsFormat c.callback)
    (hr : (sinkHost cfg long (cs.map StackCallback.frame)).Reach KeepsSecurity h) :
    ∃ done, done <+: cs ∧ h.screen.filterMap readLine = done.filterMap securedReading ∧
      (Quiet h.queue → done = cs) := by
  obtain ⟨done, hexecuted, -, -, hreadings⟩ := securedInv_of_reach hformat hr
  exact ⟨done, hexecuted.1, hreadings, executed_of_quiet hexecuted⟩

theorem secured_of_reach_sensor : ∃ h : SinkHost,
    h.screen.length = 2 ∧
    ∃ done, done <+: [sensorCallback, unsecuredCallback] ∧
      h.screen.filterMap readLine = done.filterMap securedReading ∧
      (Quiet h.queue → done = [sensorCallback, unsecuredCallback]) := by
  have hformat : ∀ c ∈ [sensorCallback, unsecuredCallback], KeepsFormat c.callback := by decide
  have h0 : (sinkHost defaultConfig true
      ([sensorCallback, unsecuredCallback].map StackCallback.frame)).Reach KeepsSecurity
      ⟨Queue.init _, Settings.init, SinkApp.init, none, []⟩ := .start rfl
  obtain ⟨h, hr, hlength⟩ := System.exists_reach_of_exec
    (callbackRun (typeTxOptions "0x05") ++ callbackRun (.app .exit)) (fun h => h.screen.length)
    (b := 2) h0 (by decide +kernel)
  exact ⟨h, hlength, secured_of_reach hformat hr⟩

end ConnectNcpHost.App.Screen
