import ConnectNcpHost.Lib.Runs
import ConnectNcpHost.Stack.ByteUtilities

/-! # The two threads of the host (`cpc-host.c`, `ncp-host-common.c`)

The poll thread reads every frame of the NCP into the one `responseBuffer` and dispatches it: for a
response it writes a token to a pipe, a callback is copied to the callback queue. A thread that calls
a command holds the command mutex, sends the command, waits for the token and copies
`responseBuffer` to `apiCommandData`. `exchange` lets the two threads and the NCP step in any order;
`FATAL` exits the process.

The NCP answers every command with one frame, and emits callbacks whenever it likes. -/

namespace ConnectNcpHost.HostCommon.CpcHost

open ConnectNcpHost.Lib.Bytes ConnectNcpHost.Lib.Runs ConnectNcpHost.Stack.ByteUtilities

def vncpCmdId : UInt16 := 0x6900

def stackCallbackId : UInt16 := 0x6300

/-- The first byte of the identifier of a response. -/
def responseOrigin : UInt8 := ((vncpCmdId &&& 0xFF00) >>> 8).toUInt8

/-- The first byte of the identifier of a callback. -/
def callbackOrigin : UInt8 := ((stackCallbackId &&& 0xFF00) >>> 8).toUInt8

def responseBufferSize : ℕ := 4096

/-- `MAX_STACK_API_COMMAND_SIZE` -/
def maxStackApiCommandSize : ℕ := 2096

/-- A frame that `cpc_read_endpoint` returns: it is not empty, and fits the buffer. -/
structure CpcFrame where
  bytes : List UInt8
  bytes_ne : bytes ≠ []
  length_le : bytes.length ≤ responseBufferSize
  deriving DecidableEq

/-- The first byte. -/
def CpcFrame.origin (f : CpcFrame) : UInt8 := f.bytes.head f.bytes_ne

/-! ## The functions -/

/-- The variables of the library. -/
structure Host where
  responseBuffer : Mem
  /-- the variable of `sl_connect_ncp_poll_cb`, between `cpc_rx` and the end of the switch -/
  commandLength : Option UInt16
  /-- the tokens in the pipe of `cpc-host.c` -/
  responsePipe : List UInt8
  /-- what `callback-queue.c` has written to its pipe -/
  callbackPipe : List (List UInt8)
  apiCommandData : Mem

/-- `cpc_rx(responseBuffer, 4096)` -/
def Host.cpcRx (h : Host) (f : CpcFrame) : Host :=
  { h with
    responseBuffer := h.responseBuffer.write 0 f.bytes
    commandLength := some f.bytes.length.toUInt16 }

/-- `sl_connect_ncp_handle_response` -/
def Host.slConnectNcpHandleResponse (h : Host) : Host :=
  { h with responsePipe := h.responsePipe ++ [0] }

/-- `sli_connect_ncp_append_callback_command` -/
def Host.sliConnectNcpAppendCallbackCommand (h : Host) (commandLength : UInt16) : Host :=
  { h with
    callbackPipe := h.callbackPipe ++
      [highLowBytes16 commandLength ++ h.responseBuffer.read 0 commandLength.toNat] }

/-- The switch of `sl_connect_ncp_poll_cb`; `none` is `FATAL`. -/
def Host.dispatch (h : Host) (commandLength : UInt16) : Option Host :=
  let commandOrigin := h.responseBuffer 0
  let h := { h with commandLength := none }
  if commandOrigin = responseOrigin then some h.slConnectNcpHandleResponse
  else if commandOrigin = callbackOrigin then
    some (h.sliConnectNcpAppendCallbackCommand commandLength)
  else none

/-- `memcpy(apiCommandData, resp_buffer, MAX_STACK_API_COMMAND_SIZE)` -/
def Host.memcpyResponse (h : Host) : Host :=
  { h with
    apiCommandData := h.apiCommandData.write 0 (h.responseBuffer.read 0 maxStackApiCommandSize) }

@[simp] theorem Host.memcpyResponse_responseBuffer (h : Host) :
    h.memcpyResponse.responseBuffer = h.responseBuffer := by simp only [Host.memcpyResponse]

@[simp] theorem Host.memcpyResponse_commandLength (h : Host) :
    h.memcpyResponse.commandLength = h.commandLength := by simp only [Host.memcpyResponse]

@[simp] theorem Host.memcpyResponse_responsePipe (h : Host) :
    h.memcpyResponse.responsePipe = h.responsePipe := by simp only [Host.memcpyResponse]

/-- What is copied. -/
theorem Host.read_memcpyResponse (h : Host) {k : ℕ} (hk : k ≤ maxStackApiCommandSize) :
    h.memcpyResponse.apiCommandData.read 0 k = h.responseBuffer.read 0 k := by
  have hsame := Memory.read_write_same h.apiCommandData 0
    (h.responseBuffer.read 0 maxStackApiCommandSize)
  rw [Memory.length_read] at hsame
  rw [← Memory.take_read _ 0 maxStackApiCommandSize k hk, Host.memcpyResponse, hsame,
    Memory.take_read _ 0 _ k hk]

/-- The static variables at the start, and after the `memset` of `cpc_host_startup`. -/
def Host.init : Host where
  responseBuffer := fun _ => 0
  commandLength := none
  responsePipe := []
  callbackPipe := []
  apiCommandData := fun _ => 0

/-! ## The steps -/

/-- Where the command stands that holds the mutex. -/
inductive Phase
  /-- the mutex is free -/
  | idle
  /-- in the `poll` of `wait_for_response` -/
  | waiting
  /-- this `poll` has returned 0: `read` waits for the token, and then `FATAL` -/
  | timedOut
  /-- `wait_for_response` has returned -/
  | tokenRead
  /-- `sendBlockingCommand` has returned, the caller reads `apiCommandData` -/
  | returned
  deriving DecidableEq

/-- The host, the NCP, and what is on its way between them. -/
structure Exchange where
  host : Host
  phase : Phase
  exited : Bool
  /-- commands on their way to the NCP -/
  toNcp : List (List UInt8)
  /-- frames on their way to the host, in order -/
  fromNcp : List CpcFrame
  /-- how many commands were sent (history) -/
  sent : ℕ
  /-- the answers the NCP has sent, in the order of the commands (history) -/
  answers : List CpcFrame

def Exchange.init : Exchange where
  host := Host.init
  phase := .idle
  exited := false
  toNcp := []
  fromNcp := []
  sent := 0
  answers := []

inductive Label
  /-- a thread takes the mutex, fills `apiCommandData`, and `cpc_tx` sends `length` bytes of it -/
  | send (apiCommandBuffer : Mem) (length : UInt16)
  /-- the NCP answers a command -/
  | answer (f : CpcFrame)
  /-- the NCP emits a callback -/
  | callback (f : CpcFrame)
  /-- `cpc_rx` of the poll thread -/
  | rx
  /-- the switch of the poll thread -/
  | dispatch
  /-- the `poll` of `wait_for_response` returns 0 -/
  | timeout
  /-- the `read` of `wait_for_response` -/
  | readToken
  /-- the `memcpy` of `sendBlockingCommand` -/
  | memcpy
  /-- the caller releases the mutex -/
  | release

/-- A step, while the process runs. -/
def Exchange.next (s : Exchange) : Label → Option Exchange
  | .send apiCommandBuffer length =>
    if s.phase = .idle then
      some { s with
        host := { s.host with apiCommandData := apiCommandBuffer }
        phase := .waiting
        toNcp := s.toNcp ++ [apiCommandBuffer.read 0 length.toNat]
        sent := s.sent + 1 }
    else none
  | .answer f =>
    match s.toNcp with
    | [] => none
    | _ :: toNcp =>
      if f.origin = responseOrigin then
        some { s with
          toNcp := toNcp, fromNcp := s.fromNcp ++ [f], answers := s.answers ++ [f] }
      else none
  | .callback f =>
    if f.origin = callbackOrigin then some { s with fromNcp := s.fromNcp ++ [f] } else none
  | .rx =>
    match s.host.commandLength, s.fromNcp with
    | none, f :: fs => some { s with host := s.host.cpcRx f, fromNcp := fs }
    | _, _ => none
  | .dispatch =>
    match s.host.commandLength with
    | none => none
    | some n =>
      match s.host.dispatch n with
      | some host => some { s with host := host }
      | none => some { s with exited := true }
  | .timeout =>
    if s.phase = .waiting ∧ s.host.responsePipe = [] then some { s with phase := .timedOut }
    else none
  | .readToken =>
    match s.host.responsePipe, s.phase with
    | _ :: tokens, .waiting =>
      some { s with host := { s.host with responsePipe := tokens }, phase := .tokenRead }
    | _ :: _, .timedOut => some { s with exited := true }
    | _, _ => none
  | .memcpy =>
    if s.phase = .tokenRead then
      some { s with host := s.host.memcpyResponse, phase := .returned }
    else none
  | .release => if s.phase = .returned then some { s with phase := .idle } else none

/-- **The two threads and the NCP.** -/
def exchange : System Exchange Label Empty where
  start s := s = Exchange.init
  step s l := if s.exited then none else (s.next l).map fun s' => (s', [])

end ConnectNcpHost.HostCommon.CpcHost
