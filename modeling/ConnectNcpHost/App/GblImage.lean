import ConnectNcpHost.App.Commands
import ConnectNcpHost.HostCommon.SubmittedFrames
import ConnectNcpHost.Ota.Parameters

/-! # The image of the application (`app_cli.cpp`, `app_process.c`, `app_common.c`)

The bootloader server asks the application for the segments of the image, which the application keeps
in memory: `load_gbl_file` frees the image there was, allocates memory for another one and reads the
file into it; the end of a session frees it. `bootloader_unicast_distribute` starts a distribution of
as many bytes as the user types, and the callback copies what it is asked for, without a look at the
length of what was loaded.

The commands run in the main thread, the event handler of the server in a thread of its own, and no
lock is between them. `sinkApp cfg` is the application with its server: a load and the end of a
session are taken step by step (`LoadStep`), and so is the callback (`CopyStep`); what is read of
memory that is freed, or behind the image, is undefined, and such a step is not followed. -/

namespace ConnectNcpHost.App.GblImage

open ConnectNcpHost.Lib.Bytes ConnectNcpHost.Lib.Runs ConnectNcpHost.Lib.Numerals
open ConnectNcpHost.Stack.ByteUtilities ConnectNcpHost.Ota.Protocol
open ConnectNcpHost.Ota.BootloaderServer ConnectNcpHost.Ota.Transition ConnectNcpHost.Ota.Frames
open ConnectNcpHost.App.HexStrings ConnectNcpHost.App.Commands

variable {cfg : Config}

/-! ## The state -/

/-- `gbl_image`, and what it points to -/
inductive Image
  /-- `NULL` -/
  | null
  /-- memory that has been freed -/
  | freed
  | block (bytes : List UInt8)
  deriving DecidableEq

/-- What the thread of the commands is in the middle of. -/
inductive Cli
  | ready
  /-- in `free_gbl_image`, once `free` is called; `load` is what `read_gbl_file` goes on to read -/
  | freeing (load : Option (List UInt8))
  /-- in `read_gbl_file`, before `malloc` -/
  | allocating (contents : List UInt8)
  /-- in `fread`, which has stored `stored` bytes -/
  | reading (contents : List UInt8) (stored : ℕ)
  deriving DecidableEq

/-- `segment_start`, and what it points to -/
inductive SegmentStart
  /-- `gbl_image` has been compared with `NULL`, and not read again -/
  | unread
  /-- the image in memory -/
  | live
  /-- nothing, or an image that has been freed since -/
  | dead
  deriving DecidableEq

/-- The thread of the server, in the callback. -/
structure SegmentCopy where
  /-- the handler runs because the timer has expired, not in a further round of the loop -/
  onTimer : Bool
  startIndex : UInt32
  endIndex : UInt32
  segmentStart : SegmentStart
  /-- what `memcpy` has copied -/
  copied : List UInt8

/-- The variables of the application, the server, and where the two threads stand. -/
structure SinkApp where
  gblImage : Image
  /-- `target` of `app_cli.cpp` -/
  target : EmberNodeId
  server : Server
  cli : Cli
  copying : Option SegmentCopy

def SinkApp.init : SinkApp := ⟨.null, 0, Server.init, .ready, none⟩

/-- What the surroundings answer while the event handler of the server runs. -/
structure AppEnv where
  /-- what the array of the message holds before it is written -/
  stack : Mem
  /-- what `emberMessageSend` returns -/
  sendStatus : EmberStatus
  /-- the monotonic clock in milliseconds -/
  nowMs : UInt32

/-- What the event handler gets; `copied` is what the callback has copied, if it returns `true`. -/
def AppEnv.eventEnv (env : AppEnv) (copied : Option (List UInt8)) : EventEnv where
  stack := env.stack
  getImageSegment _ _ _ := copied
  sendStatus := env.sendStatus
  nowMs := env.nowMs

/-- What the application prints, and what the server asks for. -/
inductive Output
  | printed (text : List Char)
  | server (a : Action)

/-- The numeric value of the enumerator. -/
def statusCode : EmberAfOtaUnicastBootloaderStatus → ℕ
  | .success => 0x00
  | .invalidCall => 0x01
  | .busy => 0x02
  | .dataUnderflow => 0x03
  | .stackError => 0x04
  | .timeout => 0x05
  | .failed => 0x06
  | .aborted => 0x07
  | .refused => 0x08
  | .unreachable => 0x09

/-- `0x%x` of a status -/
def printCode (status : EmberAfOtaUnicastBootloaderStatus) : List Char :=
  "0x".toList ++ printLowerHex (statusCode status)

/-! ## The image -/

/-- `gbl_size` of a file -/
def gblSize (contents : List UInt8) : UInt32 := contents.length.toUInt32

/-- Behind `free_gbl_image`. -/
def Cli.freed : Option (List UInt8) → Cli
  | none => .ready
  | some contents => .allocating contents

/-- A copy, once the image is freed. -/
def SegmentCopy.freed (c : SegmentCopy) : SegmentCopy :=
  { c with segmentStart := if c.segmentStart = .live then .dead else c.segmentStart }

/-- `free_gbl_image`, up to the assignment of `NULL` -/
def SinkApp.freeGblImage (load : Option (List UInt8)) (s : SinkApp) : SinkApp :=
  if s.gblImage = .null then { s with cli := .freed load }
  else { s with
    gblImage := .freed
    cli := .freeing load
    copying := s.copying.map SegmentCopy.freed }

/-- `cli_load_gbl_file` and `read_gbl_file`, up to `free_gbl_image`: `file` is what the file holds,
`none` where `fopen` finds none. -/
def cliLoadGblFile (file : Option (List UInt8)) (s : SinkApp) : SinkApp × List Output :=
  match file with
  | none => (s, [.printed "Can't find/load GBL file!\n".toList])
  | some contents => (s.freeGblImage (some contents), [])

/-- The exit action of the command line: a session has ended, `free_gbl_image` is called. -/
def exitAction (s : SinkApp) : SinkApp × List Output :=
  (s.freeGblImage none, [.printed "Exiting.\n".toList])

/-- The steps of `free_gbl_image` and `read_gbl_file`. -/
inductive LoadStep
  /-- `gbl_image = NULL` -/
  | setNull
  /-- `malloc` returns `NULL`, or memory with some bytes in it -/
  | malloc (memory : Option (List UInt8))
  /-- `fread` stores the next `k` bytes -/
  | fread (k : ℕ)
  | fclose

/-- The thread of the commands goes on with `free_gbl_image` and `read_gbl_file`. -/
def SinkApp.load (s : SinkApp) (l : LoadStep) : Option (SinkApp × List Output) :=
  match s.cli, l with
  | .freeing load, .setNull => some ({ s with gblImage := .null, cli := .freed load }, [])
  | .allocating _, .malloc none =>
    some ({ s with cli := .ready }, [.printed "Can't allocate memory for GBL file!\n".toList])
  | .allocating contents, .malloc (some bytes) =>
    if bytes.length = (gblSize contents).toNat then
      some ({ s with gblImage := .block bytes, cli := .reading contents 0 }, [])
    else none
  | .reading contents stored, .fread k =>
    match s.gblImage with
    | .block bytes =>
      if stored + k ≤ (gblSize contents).toNat then
        some ({ s with
          gblImage := .block
            (bytes.take stored ++ ((contents.drop stored).take k ++ bytes.drop (stored + k)))
          cli := .reading contents (stored + k) }, [])
      else none
    | _ => none
  | .reading contents stored, .fclose =>
    if stored = (gblSize contents).toNat then
      some ({ s with cli := .ready }, [.printed ("GBL file of ".toList ++
        printInt (gblSize contents).toNat ++ " bytes loaded into memory.\n".toList)])
    else none
  | _, _ => none

/-! ## The callbacks of the server -/

/-- `endIndex - startIndex + 1` -/
def SegmentCopy.count (c : SegmentCopy) : ℕ := (c.endIndex - c.startIndex + 1).toNat

/-- `emberAfPluginOtaUnicastBootloaderServerGetImageSegmentCallback` for an array of the caller, up to
the comparison with `NULL`: the copy that begins, or `none` where it returns `false`. -/
def emberAfPluginOtaUnicastBootloaderServerGetImageSegmentCallback (gblImage : Image)
    (startIndex endIndex : UInt32) (onTimer : Bool) : Option SegmentCopy :=
  if gblImage = .null then none else some ⟨onTimer, startIndex, endIndex, .unread, []⟩

/-- The line it prints first. -/
def segmentLine (startIndex endIndex : UInt32) (imageTag : UInt8) : List Char :=
  "(server): get segment, start: ".toList ++ printInt startIndex.toInt32.toInt ++
    ", end: ".toList ++ printInt endIndex.toInt32.toInt ++ ", tag: 0x".toList ++
    printLowerHex imageTag.toNat ++ "\n".toList

/-- What `gbl_image + startIndex` points to. -/
def Image.segmentStart : Image → SegmentStart
  | .block _ => .live
  | _ => .dead

/-- The steps of the rest. -/
inductive CopyStep
  /-- `segment_start = gbl_image + startIndex` -/
  | point
  /-- `memcpy` copies the next `k` bytes -/
  | memcpy (k : ℕ)

/-- The thread of the server goes on with the callback. -/
def SegmentCopy.step (gblImage : Image) (c : SegmentCopy) : CopyStep → Option SegmentCopy
  | .point =>
    if c.segmentStart = .unread then some { c with segmentStart := gblImage.segmentStart } else none
  | .memcpy k => match c.segmentStart, gblImage with
    | .live, .block bytes =>
      if c.copied.length + k ≤ c.count ∧ c.startIndex.toNat + c.copied.length + k ≤ bytes.length then
        some { c with
          copied := c.copied ++ (bytes.drop (c.startIndex.toNat + c.copied.length)).take k }
      else none
    | _, _ => none

/-- The line of a distribution that has ended. -/
def completedLine (status : EmberAfOtaUnicastBootloaderStatus) : List Char :=
  "image distribution completed, ".toList ++ printCode status ++ "\n".toList

/-- An action of the server, with what the other callbacks of the application print on it. -/
def shown : Action → List Output
  | .imageDistributionComplete status =>
    [.server (.imageDistributionComplete status), .printed (completedLine status)]
  | .requestTargetBootloadComplete status =>
    [.server (.requestTargetBootloadComplete status),
      .printed ("bootload request completed, ".toList ++ printCode status ++ "\n".toList)]
  | a => [.server a]

/-- The server has run. -/
def SinkApp.ran (s : SinkApp) (o : Outcome) : SinkApp × List Output :=
  ({ s with server := o.server }, o.actions.flatMap shown)

/-- A handler of the server runs. -/
def SinkApp.handles (cfg : Config) (s : SinkApp) (i : Ota.BootloaderServer.Input) :
    Option (SinkApp × List Output) := (handle cfg s.server i).map s.ran

/-- The event handler asks for a segment. -/
def Asks (s : Server) : Prop :=
  s.otaEventIsActive = true ∧ s.internalState = .segmentUnicastInterval

instance (s : Server) : Decidable (Asks s) := by unfold Asks; infer_instance

/-- The event handler runs because the timer has expired, or in a further round of the loop. -/
def eventInput (onTimer : Bool) (env : EventEnv) : Ota.BootloaderServer.Input :=
  if onTimer then .timerExpired env else .eventActive env

/-- The thread of the server enters the event handler: up to where the callback copies, if it is asked
for a segment and finds an image. -/
def SinkApp.enters (cfg : Config) (s : SinkApp) (onTimer : Bool) (env : AppEnv) :
    Option (SinkApp × List Output) :=
  if s.copying.isSome then none
  else if Asks s.server then
    let startIndex := segmentStartIndex s.server
    let endIndex := segmentEndIndex s.server
    let line := segmentLine startIndex endIndex s.server.currentImageTagOrServerStatus
    match emberAfPluginOtaUnicastBootloaderServerGetImageSegmentCallback s.gblImage startIndex
      endIndex onTimer with
    | some c => some ({ s with copying := some c }, [.printed line])
    | none => (s.handles cfg (eventInput onTimer (env.eventEnv none))).map fun r =>
        (r.1, .printed line :: .printed "NO GBL image to transmit!\n".toList :: r.2)
  else s.handles cfg (eventInput onTimer (env.eventEnv none))

/-- The callback returns `true`, and the event handler goes on. -/
def SinkApp.returns (cfg : Config) (s : SinkApp) (env : AppEnv) : Option (SinkApp × List Output) :=
  s.copying.bind fun c =>
    if c.copied.length = c.count then
      (SinkApp.handles cfg { s with copying := none }
        (eventInput c.onTimer (env.eventEnv (some c.copied)))).map fun r =>
          (r.1, .printed ".".toList :: r.2)
    else none

/-! ## The other commands -/

/-- What `hexToInt` prints. -/
def complaint (hex : List Char) : List Output :=
  if (hexToInt hex).2 then [.printed badArgument] else []

/-- `cli_bootloader_unicast_set_target` -/
def cliBootloaderUnicastSetTarget (targetIdHex : List Char) (s : SinkApp) : SinkApp × List Output :=
  ({ s with target := UInt16.ofInt (hexToInt targetIdHex).1 },
    complaint targetIdHex ++ [.printed "unicast target set\n".toList])

/-- `cli_bootloader_unicast_distribute` -/
def cliBootloaderUnicastDistribute (imageSize : UInt32) (imageTagHex : List Char) (s : SinkApp) :
    SinkApp × List Output :=
  let imageTag := UInt8.ofInt (hexToInt imageTagHex).1
  if s.gblImage = .null then
    (s, complaint imageTagHex ++ [.printed "No GBL image was loaded!\n".toList])
  else
    let r := emberAfPluginOtaUnicastBootloaderServerInitiateImageDistribution s.target imageSize
      imageTag s.server
    let (s', os) := s.ran (apiCall r true)
    (s', complaint imageTagHex ++ os ++
      [.printed (if r.1 = .success then "unicast image distribution initiated\n".toList
        else "unicast image distribution failed ".toList ++ printCode r.1 ++ "\n".toList)])

/-- `cli_bootloader_unicast_request_bootload`, at the time `nowMs` of the monotonic clock -/
def cliBootloaderUnicastRequestBootload (delayMs : UInt32) (imageTagHex : List Char)
    (nowMs : UInt32) (s : SinkApp) : SinkApp × List Output :=
  let imageTag := UInt8.ofInt (hexToInt imageTagHex).1
  let r := emberAfPluginUnicastBootloaderServerInitiateRequestTargetBootload delayMs imageTag
    s.target nowMs s.server
  let (s', os) := s.ran (apiCall r true)
  (s', complaint imageTagHex ++ os ++
    [.printed (if r.1 = .success then "bootload request initiated\n".toList
      else "bootload request failed ".toList ++ printCode r.1 ++ "\n".toList)])

/-! ## The system -/

/-- What happens to the application. -/
inductive Input
  | loadGblFile (file : Option (List UInt8))
  | bootloaderUnicastSetTarget (targetIdHex : List Char)
  | bootloaderUnicastDistribute (imageSize : UInt32) (imageTagHex : List Char)
  | bootloaderUnicastRequestBootload (delayMs : UInt32) (imageTagHex : List Char) (nowMs : UInt32)
  | exit
  /-- the command goes on -/
  | load (l : LoadStep)
  | incomingMessage (message : EmberIncomingMessage)
  | messageSent (status : EmberStatus) (message : EmberOutgoingMessage)
  | timerExpired (env : AppEnv)
  | eventActive (env : AppEnv)
  /-- the callback goes on -/
  | copy (l : CopyStep)
  /-- the callback returns `true` -/
  | segmentCopied (env : AppEnv)

/-- The input is the beginning of a command. -/
def Input.isCommand : Input → Bool
  | .loadGblFile _ => true
  | .bootloaderUnicastSetTarget _ => true
  | .bootloaderUnicastDistribute _ _ => true
  | .bootloaderUnicastRequestBootload _ _ _ => true
  | .exit => true
  | _ => false

/-- The command comes to `free_gbl_image`. -/
def Input.frees : Input → Bool
  | .loadGblFile (some _) => true
  | .exit => true
  | _ => false

/-- A step of the application, as long as the command before has ended. -/
def SinkApp.step (cfg : Config) (s : SinkApp) : Input → Option (SinkApp × List Output)
  | .loadGblFile file => some (cliLoadGblFile file s)
  | .bootloaderUnicastSetTarget targetIdHex => some (cliBootloaderUnicastSetTarget targetIdHex s)
  | .bootloaderUnicastDistribute imageSize imageTagHex =>
    some (cliBootloaderUnicastDistribute imageSize imageTagHex s)
  | .bootloaderUnicastRequestBootload delayMs imageTagHex nowMs =>
    some (cliBootloaderUnicastRequestBootload delayMs imageTagHex nowMs s)
  | .exit => some (exitAction s)
  | .load l => s.load l
  | .incomingMessage message => s.handles cfg (.incomingMessage message)
  | .messageSent status message => s.handles cfg (.messageSent status message)
  | .timerExpired env => s.enters cfg true env
  | .eventActive env => s.enters cfg false env
  | .copy l => s.copying.bind fun c => (c.step s.gblImage l).map fun c =>
      ({ s with copying := some c }, [])
  | .segmentCopied env => s.returns cfg env

/-- **The application with its server**: the commands, one after the other, the callbacks of the stack
and the thread of the server, in any order. -/
def sinkApp (cfg : Config) : System SinkApp Input Output where
  start s := s = SinkApp.init
  step s i := if i.isCommand ∧ s.cli ≠ .ready then none else s.step cfg i

/-! ## What a step does -/

/-- The actions of the server among the outputs. -/
def actions (os : List Output) : List Action :=
  os.filterMap fun o => match o with
    | .server a => some a
    | .printed _ => none

theorem mem_actions {os : List Output} {a : Action} : a ∈ actions os ↔ .server a ∈ os := by
  unfold actions
  rw [List.mem_filterMap]
  constructor
  · rintro ⟨o, ho, h⟩
    cases o with
    | server a' => exact Option.some.inj h ▸ ho
    | printed _ => cases h
  · exact fun h => ⟨_, h, rfl⟩

theorem actions_append (os os' : List Output) : actions (os ++ os') = actions os ++ actions os' :=
  List.filterMap_append

@[simp] theorem actions_printed (text : List Char) (os : List Output) :
    actions (.printed text :: os) = actions os := rfl

theorem actions_complaint (hex : List Char) : actions (complaint hex) = [] := by
  unfold complaint
  split_ifs
  · rfl
  · rfl

/-- What the server asks for is shown as it is. -/
theorem actions_ran (s : SinkApp) (o : Outcome) : actions (s.ran o).2 = o.actions := by
  have hshown : ∀ a, actions (shown a) = [a] := fun a => by cases a <;> rfl
  show actions (o.actions.flatMap shown) = o.actions
  induction o.actions with
  | nil => rfl
  | cons a as ih =>
    rw [List.flatMap_cons, actions_append, hshown, ih]
    rfl

/-- A command prints before and after the server runs. -/
theorem actions_command (s : SinkApp) (o : Outcome) (hex text : List Char) :
    actions (complaint hex ++ (s.ran o).2 ++ [.printed text]) = o.actions := by
  have hprinted : actions [.printed text] = [] := rfl
  rw [actions_append, actions_append, actions_complaint, hprinted, List.nil_append, List.append_nil,
    actions_ran]

/-- What a step of a load does. -/
inductive Loads (s : SinkApp) : SinkApp → List Output → Prop
  | nulled {load : Option (List UInt8)} (hcli : s.cli = .freeing load) :
      Loads s { s with gblImage := .null, cli := .freed load } []
  | refused {contents : List UInt8} (hcli : s.cli = .allocating contents) :
      Loads s { s with cli := .ready }
        [.printed "Can't allocate memory for GBL file!\n".toList]
  | allocated {contents bytes : List UInt8} (hcli : s.cli = .allocating contents)
      (hlength : bytes.length = (gblSize contents).toNat) :
      Loads s { s with gblImage := .block bytes, cli := .reading contents 0 } []
  | stored {contents bytes : List UInt8} {stored k : ℕ} (hcli : s.cli = .reading contents stored)
      (himage : s.gblImage = .block bytes) (hle : stored + k ≤ (gblSize contents).toNat) :
      Loads s { s with
        gblImage := .block
          (bytes.take stored ++ ((contents.drop stored).take k ++ bytes.drop (stored + k)))
        cli := .reading contents (stored + k) } []
  | closed {contents : List UInt8} (hcli : s.cli = .reading contents (gblSize contents).toNat) :
      Loads s { s with cli := .ready } [.printed ("GBL file of ".toList ++
        printInt (gblSize contents).toNat ++ " bytes loaded into memory.\n".toList)]

theorem loads_of_load {s s' : SinkApp} {l : LoadStep} {os : List Output}
    (h : s.load l = some (s', os)) : Loads s s' os := by
  unfold SinkApp.load at h
  split at h
  case h_1 hcli =>
    obtain ⟨rfl, rfl⟩ := Prod.mk.inj (Option.some.inj h)
    exact .nulled hcli
  case h_2 hcli =>
    obtain ⟨rfl, rfl⟩ := Prod.mk.inj (Option.some.inj h)
    exact .refused hcli
  case h_3 hcli =>
    split_ifs at h with hlength
    obtain ⟨rfl, rfl⟩ := Prod.mk.inj (Option.some.inj h)
    exact .allocated hcli hlength
  case h_4 hcli =>
    split at h
    · next himage =>
      split_ifs at h with hle
      obtain ⟨rfl, rfl⟩ := Prod.mk.inj (Option.some.inj h)
      exact .stored hcli himage hle
    · cases h
  case h_5 hcli =>
    split_ifs at h with hstored
    obtain ⟨rfl, rfl⟩ := Prod.mk.inj (Option.some.inj h)
    exact .closed (hstored ▸ hcli)
  case h_6 => cases h

/-- A load leaves the server and its thread as they are. -/
theorem Loads.server {s s' : SinkApp} {os : List Output} (h : Loads s s' os) :
    s'.server = s.server ∧ s'.copying = s.copying := by cases h <;> exact ⟨rfl, rfl⟩

theorem Loads.actions {s s' : SinkApp} {os : List Output} (h : Loads s s' os) :
    actions os = [] := by cases h <;> rfl

/-- No load goes on behind a command that has ended. -/
theorem Loads.cli_ne {s s' : SinkApp} {os : List Output} (h : Loads s s' os) : s.cli ≠ .ready := by
  cases h with
  | nulled hcli => rw [hcli]; rintro ⟨⟩
  | refused hcli => rw [hcli]; rintro ⟨⟩
  | allocated hcli _ => rw [hcli]; rintro ⟨⟩
  | stored hcli _ _ => rw [hcli]; rintro ⟨⟩
  | closed hcli => rw [hcli]; rintro ⟨⟩

/-- The call of the server in a command, or in a callback of the stack. -/
def SinkApp.call (s : SinkApp) : Input → Option Ota.BootloaderServer.Input
  | .bootloaderUnicastDistribute imageSize imageTagHex =>
    if s.gblImage = .null then none
    else some (.initiateImageDistribution s.target imageSize (UInt8.ofInt (hexToInt imageTagHex).1))
  | .bootloaderUnicastRequestBootload delayMs imageTagHex nowMs =>
    some (.initiateRequestTargetBootload delayMs (UInt8.ofInt (hexToInt imageTagHex).1) s.target
      nowMs)
  | .incomingMessage message => some (.incomingMessage message)
  | .messageSent status message => some (.messageSent status message)
  | _ => none

/-- **Every step of the application**, as what it does to the server, to the image and to the
threads. -/
inductive AppStep (cfg : Config) (s : SinkApp) (i : Input) : SinkApp → List Action → Prop
  /-- a command or a callback of the stack calls the server -/
  | called {j : Ota.BootloaderServer.Input} {o : Outcome} (hj : s.call i = some j)
      (hcli : i.isCommand = true → s.cli = .ready) (ho : handle cfg s.server j = some o) :
      AppStep cfg s i { s with server := o.server } o.actions
  /-- the event handler runs, and asks for no segment or finds no image -/
  | handled {onTimer : Bool} {env : AppEnv} {o : Outcome} (hc : s.copying = none)
      (hnull : Asks s.server → s.gblImage = .null)
      (ho : handle cfg s.server (eventInput onTimer (env.eventEnv none)) = some o) :
      AppStep cfg s i { s with server := o.server } o.actions
  | asked {onTimer : Bool} (hc : s.copying = none) (ha : Asks s.server)
      (himage : s.gblImage ≠ .null) :
      AppStep cfg s i { s with copying := some ⟨onTimer, segmentStartIndex s.server,
        segmentEndIndex s.server, .unread, []⟩ } []
  | copied {l : CopyStep} {c c' : SegmentCopy} (hc : s.copying = some c)
      (hst : c.step s.gblImage l = some c') : AppStep cfg s i { s with copying := some c' } []
  | returned {env : AppEnv} {c : SegmentCopy} {o : Outcome} (hc : s.copying = some c)
      (hfull : c.copied.length = c.count)
      (ho : handle cfg s.server (eventInput c.onTimer (env.eventEnv (some c.copied))) = some o) :
      AppStep cfg s i { s with server := o.server, copying := none } o.actions
  | freed {load : Option (List UInt8)} (hcli : s.cli = .ready) (hi : i.frees = true) :
      AppStep cfg s i (s.freeGblImage load) []
  | loaded {s' : SinkApp} {os : List Output} (h : Loads s s' os) : AppStep cfg s i s' []
  /-- a command that does not come to the server -/
  | typed {target : EmberNodeId} : AppStep cfg s i { s with target := target } []

/-- The server runs in a command, which prints before and after. -/
theorem appStep_command {s : SinkApp} {i : Input} {j : Ota.BootloaderServer.Input} {o : Outcome}
    (hj : s.call i = some j) (hcli : i.isCommand = true → s.cli = .ready)
    (ho : handle cfg s.server j = some o) (hex text : List Char) :
    AppStep cfg s i (s.ran o).1 (actions (complaint hex ++ (s.ran o).2 ++ [.printed text])) := by
  rw [actions_command]
  exact .called hj hcli ho

theorem exists_of_handles {s s' : SinkApp} {j : Ota.BootloaderServer.Input} {os : List Output}
    (h : s.handles cfg j = some (s', os)) : ∃ o, handle cfg s.server j = some o ∧
      s' = { s with server := o.server } ∧ actions os = o.actions := by
  obtain ⟨o, ho, he⟩ := Option.map_eq_some_iff.mp h
  obtain ⟨rfl, rfl⟩ := Prod.mk.inj he
  exact ⟨o, ho, rfl, actions_ran s o⟩

theorem appStep_handles {s s' : SinkApp} {i : Input} {j : Ota.BootloaderServer.Input}
    {os : List Output} (hj : s.call i = some j) (hi : i.isCommand = false)
    (h : s.handles cfg j = some (s', os)) : AppStep cfg s i s' (actions os) := by
  obtain ⟨o, ho, rfl, has⟩ := exists_of_handles h
  rw [has]
  exact .called hj (fun hcommand => absurd hcommand (by rw [hi]; decide)) ho

theorem appStep_enters {s s' : SinkApp} {i : Input} {onTimer : Bool} {env : AppEnv}
    {os : List Output} (h : s.enters cfg onTimer env = some (s', os)) :
    AppStep cfg s i s' (actions os) := by
  unfold SinkApp.enters at h
  split_ifs at h with hc ha
  · have hnone := Option.not_isSome_iff_eq_none.mp hc
    by_cases himage : s.gblImage = .null
    · simp only [emberAfPluginOtaUnicastBootloaderServerGetImageSegmentCallback, if_pos himage] at h
      obtain ⟨⟨t, os'⟩, hr, he⟩ := Option.map_eq_some_iff.mp h
      obtain ⟨rfl, rfl⟩ := Prod.mk.inj he
      obtain ⟨o, ho, rfl, has⟩ := exists_of_handles hr
      rw [actions_printed, actions_printed, has]
      exact .handled hnone (fun _ => himage) ho
    · simp only [emberAfPluginOtaUnicastBootloaderServerGetImageSegmentCallback, if_neg himage,
        Option.some.injEq, Prod.mk.injEq] at h
      obtain ⟨rfl, rfl⟩ := h
      exact .asked hnone ha himage
  · obtain ⟨o, ho, rfl, has⟩ := exists_of_handles h
    rw [has]
    exact .handled (Option.not_isSome_iff_eq_none.mp hc) (fun h => absurd h ha) ho

theorem appStep_returns {s s' : SinkApp} {i : Input} {env : AppEnv} {os : List Output}
    (h : s.returns cfg env = some (s', os)) : AppStep cfg s i s' (actions os) := by
  obtain ⟨c, hc, h⟩ := Option.bind_eq_some_iff.mp h
  split_ifs at h with hfull
  obtain ⟨⟨t, os'⟩, hr, he⟩ := Option.map_eq_some_iff.mp h
  obtain ⟨rfl, rfl⟩ := Prod.mk.inj he
  obtain ⟨o, ho, rfl, has⟩ := exists_of_handles hr
  rw [actions_printed, has]
  exact .returned hc hfull ho

/-- **What a step of the application does.** -/
theorem appStep_of_step {s s' : SinkApp} {i : Input} {os : List Output}
    (h : (sinkApp cfg).step s i = some (s', os)) : AppStep cfg s i s' (actions os) := by
  simp only [sinkApp] at h
  split_ifs at h with hcli
  have hready : i.isCommand = true → s.cli = .ready := fun hi =>
    by_contra fun hne => hcli ⟨hi, hne⟩
  cases i with
  | loadGblFile file =>
    cases file with
    | none =>
      obtain ⟨rfl, rfl⟩ := Prod.mk.inj (Option.some.inj h)
      exact .typed
    | some contents =>
      obtain ⟨rfl, rfl⟩ := Prod.mk.inj (Option.some.inj h)
      exact .freed (hready rfl) rfl
  | bootloaderUnicastSetTarget targetIdHex =>
    obtain ⟨rfl, rfl⟩ := Prod.mk.inj (Option.some.inj h)
    rw [actions_append, actions_complaint]
    exact .typed
  | bootloaderUnicastDistribute imageSize imageTagHex =>
    have h := Option.some.inj h
    unfold cliBootloaderUnicastDistribute at h
    by_cases himage : s.gblImage = .null
    · rw [if_pos himage] at h
      obtain ⟨rfl, rfl⟩ := Prod.mk.inj h
      rw [actions_append, actions_complaint]
      exact .typed
    · rw [if_neg himage] at h
      obtain ⟨rfl, rfl⟩ := Prod.mk.inj h
      exact appStep_command (by rw [SinkApp.call, if_neg himage]) hready rfl _ _
  | bootloaderUnicastRequestBootload delayMs imageTagHex nowMs =>
    obtain ⟨rfl, rfl⟩ := Prod.mk.inj (Option.some.inj h)
    exact appStep_command rfl hready rfl _ _
  | exit =>
    obtain ⟨rfl, rfl⟩ := Prod.mk.inj (Option.some.inj h)
    exact .freed (hready rfl) rfl
  | load l =>
    have hloads := loads_of_load h
    rw [hloads.actions]
    exact .loaded hloads
  | incomingMessage message => exact appStep_handles rfl rfl h
  | messageSent status message => exact appStep_handles rfl rfl h
  | timerExpired env => exact appStep_enters h
  | eventActive env => exact appStep_enters h
  | copy l =>
    obtain ⟨c, hc, h⟩ := Option.bind_eq_some_iff.mp h
    obtain ⟨c', hst, he⟩ := Option.map_eq_some_iff.mp h
    obtain ⟨rfl, rfl⟩ := Prod.mk.inj he
    exact .copied hc hst
  | segmentCopied env => exact appStep_returns h

/-! ## What is printed -/

theorem printLowerHex_inj {n n' : ℕ} (h : printLowerHex n = printLowerHex n') : n = n' := by
  have hreads : Reads hexValue lowerHexDigit 16 := by
    unfold Reads
    decide
  have hread : ∀ n, readNumeral hexValue 16 0 (printLowerHex n ++ []) = (n, []) := fun n =>
    readNumeral_numeral hreads (by decide) 1 n noDigit_nil
  have heq := hread n
  rw [h, hread n'] at heq
  exact (Prod.mk.inj heq).1.symm

theorem completedLine_inj {status status' : EmberAfOtaUnicastBootloaderStatus}
    (h : completedLine status = completedLine status') : status = status' := by
  have hcode : statusCode status = statusCode status' :=
    printLowerHex_inj
      (List.append_cancel_left (List.append_cancel_left (List.append_cancel_right h)))
  cases status <;> cases status' <;> first | rfl | cases hcode

/-- The line of a distribution that has ended is printed by the callback only. -/
def Reports (os : List Output) : Prop :=
  ∀ status, .printed (completedLine status) ∈ os → .server (.imageDistributionComplete status) ∈ os

theorem Reports.append {os os' : List Output} (h : Reports os) (h' : Reports os') :
    Reports (os ++ os') := fun status hm =>
  (List.mem_append.mp hm).elim (fun hm => List.mem_append_left _ (h status hm))
    fun hm => List.mem_append_right _ (h' status hm)

/-- A text that begins with another character. -/
theorem ne_completedLine {text : List Char} {c : Char} (h : text.head? = some c) (hc : c ≠ 'i')
    (status : EmberAfOtaUnicastBootloaderStatus) :
    .printed (completedLine status) ≠ Output.printed text := by
  intro heq
  have hhead : (completedLine status).head? = some 'i' := rfl
  rw [Output.printed.inj heq, h] at hhead
  exact hc (Option.some.inj hhead)

theorem reports_printed {text : List Char} {c : Char} (h : text.head? = some c) (hc : c ≠ 'i') :
    Reports [.printed text] := fun status hm =>
  absurd (List.mem_singleton.mp hm) (ne_completedLine h hc status)

theorem reports_complaint (hex : List Char) : Reports (complaint hex) := by
  unfold complaint
  split_ifs
  · exact reports_printed (c := '\n') rfl (by decide)
  · exact fun status hm => absurd hm List.not_mem_nil

theorem reports_nil : Reports [] := fun _ hm => absurd hm List.not_mem_nil

theorem reports_shown (a : Action) : Reports (shown a) := by
  intro status hm
  cases a with
  | imageDistributionComplete status' =>
    rcases List.mem_cons.mp hm with h | h
    · cases h
    · have heq := completedLine_inj (Output.printed.inj (List.mem_singleton.mp h))
      rw [heq]
      exact .head _
  | requestTargetBootloadComplete status' =>
    rcases List.mem_cons.mp hm with h | h
    · cases h
    · exact absurd (List.mem_singleton.mp h) (ne_completedLine (c := 'b') rfl (by decide) status)
  | _ => cases List.mem_singleton.mp hm

theorem reports_ran (s : SinkApp) (o : Outcome) : Reports (s.ran o).2 := by
  intro status hm
  obtain ⟨a, ha, hm⟩ := List.mem_flatMap.mp hm
  exact List.mem_flatMap.mpr ⟨a, ha, reports_shown a status hm⟩

theorem reports_handles {s s' : SinkApp} {j : Ota.BootloaderServer.Input} {os : List Output}
    (h : s.handles cfg j = some (s', os)) : Reports os := by
  obtain ⟨o, -, he⟩ := Option.map_eq_some_iff.mp h
  obtain ⟨-, rfl⟩ := Prod.mk.inj he
  exact reports_ran s o

theorem reports_loads {s s' : SinkApp} {os : List Output} (h : Loads s s' os) : Reports os := by
  cases h with
  | refused _ => exact reports_printed (c := 'C') rfl (by decide)
  | closed _ => exact reports_printed (c := 'G') rfl (by decide)
  | _ => exact reports_nil

theorem reports_enters {s s' : SinkApp} {onTimer : Bool} {env : AppEnv} {os : List Output}
    (h : s.enters cfg onTimer env = some (s', os)) : Reports os := by
  have hline : ∀ startIndex endIndex imageTag,
      Reports [.printed (segmentLine startIndex endIndex imageTag)] :=
    fun _ _ _ => reports_printed (c := '(') rfl (by decide)
  unfold SinkApp.enters at h
  split_ifs at h
  · dsimp only at h
    split at h
    · obtain ⟨-, rfl⟩ := Prod.mk.inj (Option.some.inj h)
      exact hline _ _ _
    · obtain ⟨⟨t, os'⟩, hr, he⟩ := Option.map_eq_some_iff.mp h
      obtain ⟨-, rfl⟩ := Prod.mk.inj he
      exact (hline _ _ _).append
        ((reports_printed (c := 'N') rfl (by decide)).append (reports_handles hr))
  · exact reports_handles h

theorem reports_returns {s s' : SinkApp} {env : AppEnv} {os : List Output}
    (h : s.returns cfg env = some (s', os)) : Reports os := by
  obtain ⟨c, -, h⟩ := Option.bind_eq_some_iff.mp h
  split_ifs at h
  obtain ⟨⟨t, os'⟩, hr, he⟩ := Option.map_eq_some_iff.mp h
  obtain ⟨-, rfl⟩ := Prod.mk.inj he
  exact (reports_printed (c := '.') rfl (by decide)).append (reports_handles hr)

/-- **A line that says how a distribution has ended is true.** -/
theorem reports_of_step {s s' : SinkApp} {i : Input} {os : List Output}
    (h : (sinkApp cfg).step s i = some (s', os)) : Reports os := by
  simp only [sinkApp] at h
  split_ifs at h
  cases i with
  | loadGblFile file =>
    cases file with
    | none =>
      obtain ⟨-, rfl⟩ := Prod.mk.inj (Option.some.inj h)
      exact reports_printed (c := 'C') rfl (by decide)
    | some contents =>
      obtain ⟨-, rfl⟩ := Prod.mk.inj (Option.some.inj h)
      exact reports_nil
  | bootloaderUnicastSetTarget targetIdHex =>
    obtain ⟨-, rfl⟩ := Prod.mk.inj (Option.some.inj h)
    exact (reports_complaint targetIdHex).append (reports_printed (c := 'u') rfl (by decide))
  | bootloaderUnicastDistribute imageSize imageTagHex =>
    have h := Option.some.inj h
    unfold cliBootloaderUnicastDistribute at h
    by_cases himage : s.gblImage = .null
    · rw [if_pos himage] at h
      obtain ⟨-, rfl⟩ := Prod.mk.inj h
      exact (reports_complaint imageTagHex).append (reports_printed (c := 'N') rfl (by decide))
    · rw [if_neg himage] at h
      obtain ⟨-, rfl⟩ := Prod.mk.inj h
      refine ((reports_complaint imageTagHex).append (reports_ran s _)).append ?_
      split_ifs
      · exact reports_printed (c := 'u') rfl (by decide)
      · exact reports_printed (c := 'u') rfl (by decide)
  | bootloaderUnicastRequestBootload delayMs imageTagHex nowMs =>
    obtain ⟨-, rfl⟩ := Prod.mk.inj (Option.some.inj h)
    refine ((reports_complaint imageTagHex).append (reports_ran s _)).append ?_
    split_ifs
    · exact reports_printed (c := 'b') rfl (by decide)
    · exact reports_printed (c := 'b') rfl (by decide)
  | exit =>
    obtain ⟨-, rfl⟩ := Prod.mk.inj (Option.some.inj h)
    exact reports_printed (c := 'E') rfl (by decide)
  | load l => exact reports_loads (loads_of_load h)
  | incomingMessage message => exact reports_handles h
  | messageSent status message => exact reports_handles h
  | timerExpired env => exact reports_enters h
  | eventActive env => exact reports_enters h
  | copy l =>
    obtain ⟨c, -, h⟩ := Option.bind_eq_some_iff.mp h
    obtain ⟨c', -, he⟩ := Option.map_eq_some_iff.mp h
    obtain ⟨-, rfl⟩ := Prod.mk.inj he
    exact reports_nil
  | segmentCopied env => exact reports_returns h

end ConnectNcpHost.App.GblImage
