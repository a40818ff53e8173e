import ConnectNcpHost.App.Commands
import ConnectNcpHost.HostCommon.CallbackPath

/-! # What the application shows of the callbacks (`app_process.c`)

The application prints a line for the callbacks it implements. The line of a message shows its
bytes, and takes the first four for a temperature and the next four for a humidity, in thousandths,
whatever the length of the message is.

* `shown_of_encoded`: what a sensor has sent is on the screen, through encoder, dispatcher and
  handler, with the decimals and the sign.
* `settled_iff`: the messages of which the line shows nothing of what lies behind the payload. -/

namespace ConnectNcpHost.App.SensorData

open ConnectNcpHost.Lib.Bytes ConnectNcpHost.Lib.Numerals ConnectNcpHost.Stack.ByteUtilities
open ConnectNcpHost.Log.StrBytes ConnectNcpHost.Csp.Format ConnectNcpHost.Csp.Codec
open ConnectNcpHost.Csp.RoundTrip
open ConnectNcpHost.Csp.FrameBounds ConnectNcpHost.Csp.Outputs ConnectNcpHost.Csp.EncodedSize
open ConnectNcpHost.Csp.Callbacks ConnectNcpHost.HostCommon.CallbackPath
open ConnectNcpHost.Ota.Protocol ConnectNcpHost.App.HexStrings ConnectNcpHost.App.Commands

variable {settings : Settings} {long : Bool}

/-! ## The callbacks -/

def slSensorSinkEndpoint : UInt8 := 1
def emberNetworkUp : UInt8 := 0x90
def emberNetworkDown : UInt8 := 0x91

/-- `INT_MIN`; an `int` has 32 bits -/
def intMin : ℤ := -2 ^ 31

/-- `abs`; `none` where the result does not fit -/
def abs (x : ℤ) : Option ℤ := if x = intMin then none else some |x|

/-- The message is not dropped. -/
def Accepts (settings : Settings) (message : EmberIncomingMessage) : Prop :=
  ¬ (message.endpoint ≠ slSensorSinkEndpoint ∨
    settings.txOptions &&& emberOptionsSecurityEnabled ≠ 0 ∧
      message.options &&& emberOptionsSecurityEnabled = 0)

instance (settings : Settings) (message : EmberIncomingMessage) :
    Decidable (Accepts settings message) := by unfold Accepts; infer_instance

/-- The temperature in a payload. -/
def temperatureOf (payload : Mem) : ℤ := (emberFetchLowHighInt32u payload 0).toInt32.toInt

/-- The humidity in a payload. -/
def humidityOf (payload : Mem) : UInt32 := emberFetchLowHighInt32u payload 4

/-- `emberAfIncomingMessageCallback`: what is printed; `none` where the behaviour is undefined -/
def emberAfIncomingMessageCallback (settings : Settings) (message : EmberIncomingMessage) :
    Option (List Char) :=
  if ¬ Accepts settings message then some []
  else
    let temperature := temperatureOf message.payload
    let humidity := humidityOf message.payload
    (abs temperature).map fun magnitude =>
      let temperatureDecimal := magnitude - magnitude.tdiv 1000 * 1000
      let humidityDecimal := humidity - humidity / 1000 * 1000
      "RX: Data from 0x".toList ++ printHex 4 message.source.toNat ++ ":".toList ++
        (message.payload.read 0 message.length.toNat).flatMap (fun b => ' ' :: printHex 2 b.toNat) ++
        " Temperature: ".toList ++ (if temperature < 0 then "-".toList else "+".toList) ++
        printInt |temperature.tdiv 1000| ++ ".".toList ++ printNat 3 temperatureDecimal.toNat ++
        "C Humidity: ".toList ++ printInt (humidity / 1000).toNat ++ ".".toList ++
        printNat 3 humidityDecimal.toNat ++ "%\n".toList

/-- `emberAfMessageSentCallback` -/
def emberAfMessageSentCallback (status : UInt8) : List Char :=
  if status ≠ emberSuccess then statusLine "TX: " status else []

/-- `emberAfStackStatusCallback` -/
def emberAfStackStatusCallback (status : UInt8) : List Char :=
  if status = emberNetworkUp then "Network up\n".toList
  else if status = emberNetworkDown then "Network down\n".toList
  else statusLine "Stack status: " status

/-- `emberAfChildJoinCallback` -/
def emberAfChildJoinCallback (nodeType : UInt8) (nodeId : UInt16) : List Char :=
  "Sensor joined with node ID 0x".toList ++ printHex 4 nodeId.toNat ++
    statusLine ", node type: " nodeType

/-- `emberAfFrequencyHoppingStartClientCompleteCallback` -/
def emberAfFrequencyHoppingStartClientCompleteCallback (status : UInt8) : List Char :=
  if status ≠ emberSuccess then statusLine "FH Client sync failed, status=" status
  else "FH Client Sync Success\n".toList

/-- `emberAfEnergyScanCompleteCallback` -/
def emberAfEnergyScanCompleteCallback (scan : EnergyScan) : List Char :=
  "Energy scan complete, mean=".toList ++ printInt scan.mean.toInt ++ " min=".toList ++
    printInt scan.min.toInt ++ " max=".toList ++ printInt scan.max.toInt ++ " var=".toList ++
    printInt scan.variance.toNat ++ "\n".toList

/-- What the application prints on a callback; the others have the weak definition, which is empty.
-/
def prints (settings : Settings) : Callback → Option (List Char)
  | .incomingMessage message =>
    emberAfIncomingMessageCallback settings message.toEmberIncomingMessage
  | .messageSent status _ => some (emberAfMessageSentCallback status)
  | .stackStatus status => some (emberAfStackStatusCallback status)
  | .childJoin nodeType nodeId => some (emberAfChildJoinCallback nodeType nodeId)
  | .frequencyHoppingStartClientComplete status =>
    some (emberAfFrequencyHoppingStartClientCompleteCallback status)
  | .energyScanComplete scan => some (emberAfEnergyScanCompleteCallback scan)
  | _ => some []

/-! ## The line of a message -/

/-- The value of a decimal digit. -/
def decimalValue (c : Char) : Option ℕ :=
  if '0' ≤ c ∧ c ≤ '9' then some (c.toNat - '0'.toNat) else none

/-- What the line of a message says: the node, the bytes, and the two values in thousandths. -/
structure Reading where
  source : ℕ
  bytes : List ℕ
  temperature : ℤ
  humidity : ℕ
  deriving DecidableEq

/-- The bytes at the front, each behind a space. -/
def readBytes : List Char → List ℕ × List Char
  | ' ' :: c :: d :: line =>
    match hexValue c, hexValue d with
    | some x, some y => ((16 * x + y) :: (readBytes line).1, (readBytes line).2)
    | _, _ => ([], ' ' :: c :: d :: line)
  | line => ([], line)

/-- A reader of the line. -/
def readLine (line : List Char) : Option Reading := do
  let line ← line.dropPrefix? "RX: Data from 0x".toList
  let (source, line) := readNumeral hexValue 16 0 line
  let line ← line.dropPrefix? ":".toList
  let (bytes, line) := readBytes line
  let line ← line.dropPrefix? " Temperature: ".toList
  let (negative, line) := signed line
  let (temperature, line) ← readFixedPoint decimalValue '.' 10 3 line
  let line ← line.dropPrefix? "C Humidity: ".toList
  let (humidity, line) ← readFixedPoint decimalValue '.' 10 3 line
  if line = "%\n".toList then
    some ⟨source, bytes, if negative then -temperature else temperature, humidity⟩
  else none

/-- What is measured and sent. -/
def readingOf (message : EmberIncomingMessage) : Reading where
  source := message.source.toNat
  bytes := (message.payload.read 0 message.length.toNat).map UInt8.toNat
  temperature := temperatureOf message.payload
  humidity := (humidityOf message.payload).toNat

theorem reads_digitChar : Reads decimalValue Nat.digitChar 10 := by
  unfold Reads
  decide

/-- Whole part and decimals of `n` thousandths. -/
theorem printed_fixedPoint (n : ℕ) :
    printNat 1 (n / 1000) ++ ".".toList ++ printNat 3 (n % 1000) =
      fixedPoint Nat.digitChar '.' 10 3 n := by
  rw [List.append_assoc]
  rfl

/-- The values of the two digits of a byte. -/
theorem hexValue_of_printHex {b : UInt8} {c d : Char} (h : printHex 2 b.toNat = [c, d]) :
    ∃ x y, hexValue c = some x ∧ hexValue d = some y ∧ 16 * x + y = b.toNat := by
  have hread : readNumeral hexValue 16 0 (printHex 2 b.toNat ++ []) = (b.toNat, []) :=
    readNumeral_numeral reads_hexDigit (by decide) 2 b.toNat noDigit_nil
  rw [h] at hread
  rcases hc : hexValue c with _ | x
  · simp [readNumeral, hc] at hread
  · rcases hd : hexValue d with _ | y
    · simp [readNumeral, hc, hd] at hread
    · simp only [List.cons_append, List.nil_append, readNumeral, hc, hd, Prod.mk.injEq] at hread
      exact ⟨x, y, rfl, rfl, by omega⟩

/-- Bytes that are shown are read, up to something that is none. -/
theorem readBytes_printed (rest : List Char) (h : readBytes rest = ([], rest)) :
    ∀ bytes : List UInt8, readBytes (bytes.flatMap (fun b => ' ' :: printHex 2 b.toNat) ++ rest) =
      (bytes.map UInt8.toNat, rest)
  | [] => h
  | b :: bytes => by
    have ih := readBytes_printed rest h bytes
    obtain ⟨c, d, hcd⟩ := exists_printHex_byte b
    obtain ⟨x, y, hx, hy, hxy⟩ := hexValue_of_printHex hcd
    rw [List.flatMap_cons, hcd]
    simp only [List.cons_append, List.nil_append, readBytes, hx, hy, ih, List.map_cons, hxy]

theorem printInt_natCast (n : ℕ) : printInt n = printNat 1 n := by
  rw [printInt, if_neg (by omega), Int.natAbs_natCast]

/-- The four numbers the line is made of. -/
theorem temperature_parts (t : ℤ) : |t.tdiv 1000| = ((t.natAbs / 1000 : ℕ) : ℤ) ∧
    (|t| - |t|.tdiv 1000 * 1000).toNat = t.natAbs % 1000 := by
  rw [Int.abs_eq_natAbs, Int.abs_eq_natAbs, Int.natAbs_tdiv]
  refine ⟨rfl, ?_⟩
  have hdiv : (t.natAbs : ℤ).tdiv 1000 = ((t.natAbs / 1000 : ℕ) : ℤ) := rfl
  rw [hdiv]
  omega

theorem humidity_parts (h : UInt32) : (h / 1000).toNat = h.toNat / 1000 ∧
    (h - h / 1000 * 1000).toNat = h.toNat % 1000 := by
  have hlt := h.toNat_lt
  have hdiv : (h / 1000).toNat = h.toNat / 1000 := UInt32.toNat_div h 1000
  have hmul : (h / 1000 * 1000).toNat = h.toNat / 1000 * 1000 := by
    rw [UInt32.toNat_mul, hdiv]
    exact Nat.mod_eq_of_lt (by simp only [UInt32.reduceToNat]; omega)
  refine ⟨hdiv, ?_⟩
  rw [UInt32.toNat_sub_of_le _ _ (UInt32.le_iff_toNat_le.mpr (by omega)), hmul]
  omega

/-- The line, in terms of the two numbers of thousandths. -/
theorem prints_eq {message : EmberIncomingMessage} (h : Accepts settings message)
    (ht : temperatureOf message.payload ≠ intMin) :
    emberAfIncomingMessageCallback settings message =
      some ("RX: Data from 0x".toList ++ (printHex 4 message.source.toNat ++ (":".toList ++
        ((message.payload.read 0 message.length.toNat).flatMap
          (fun b => ' ' :: printHex 2 b.toNat) ++ (" Temperature: ".toList ++
        ((if temperatureOf message.payload < 0 then "-".toList else "+".toList) ++
        (fixedPoint Nat.digitChar '.' 10 3 (temperatureOf message.payload).natAbs ++
        ("C Humidity: ".toList ++
        (fixedPoint Nat.digitChar '.' 10 3 (humidityOf message.payload).toNat ++
          "%\n".toList))))))))) := by
  obtain ⟨hwhole, hpart⟩ := temperature_parts (temperatureOf message.payload)
  obtain ⟨hwhole', hpart'⟩ := humidity_parts (humidityOf message.payload)
  have habs : abs (temperatureOf message.payload) = some |temperatureOf message.payload| :=
    if_neg ht
  rw [emberAfIncomingMessageCallback, if_neg (not_not.mpr h)]
  dsimp only
  rw [habs, Option.map_some, hwhole, hpart, hwhole', hpart', printInt_natCast, printInt_natCast,
    ← printed_fixedPoint, ← printed_fixedPoint]
  simp only [List.append_assoc]

/-- **The line of a message is read back**: the node, the bytes, and temperature and humidity to the
thousandth. -/
theorem readLine_of_prints {message : EmberIncomingMessage} (h : Accepts settings message)
    (ht : temperatureOf message.payload ≠ intMin) :
    ∃ line, emberAfIncomingMessageCallback settings message = some line ∧
      readLine line = some (readingOf message) := by
  refine ⟨_, prints_eq h ht, ?_⟩
  have hsource : ∀ rest, readNumeral hexValue 16 0
      (printHex 4 message.source.toNat ++ (":".toList ++ rest)) =
        (message.source.toNat, ":".toList ++ rest) := fun rest =>
    readNumeral_numeral reads_hexDigit (by decide) 4 _ (noDigit_cons rfl)
  have hbytes : ∀ rest, readBytes ((message.payload.read 0 message.length.toNat).flatMap
      (fun b => ' ' :: printHex 2 b.toNat) ++ (" Temperature: ".toList ++ rest)) =
        ((readingOf message).bytes, " Temperature: ".toList ++ rest) := fun rest =>
    readBytes_printed _ rfl _
  have htemperature : ∀ rest, readFixedPoint decimalValue '.' 10 3
      (fixedPoint Nat.digitChar '.' 10 3 (temperatureOf message.payload).natAbs ++
        ("C Humidity: ".toList ++ rest)) =
      some ((temperatureOf message.payload).natAbs, "C Humidity: ".toList ++ rest) := fun rest =>
    readFixedPoint_fixedPoint reads_digitChar (by decide) rfl 3 _ (noDigit_cons rfl)
  have hhumidity : readFixedPoint decimalValue '.' 10 3
      (fixedPoint Nat.digitChar '.' 10 3 (humidityOf message.payload).toNat ++ "%\n".toList) =
      some ((humidityOf message.payload).toNat, "%\n".toList) :=
    readFixedPoint_fixedPoint reads_digitChar (by decide) rfl 3 _ (noDigit_cons rfl)
  have hsign : ∀ rest, signed ((if temperatureOf message.payload < 0 then "-".toList
      else "+".toList) ++ rest) = (decide (temperatureOf message.payload < 0), rest) := fun rest => by
    split_ifs with hneg
    · rw [decide_eq_true hneg]
      rfl
    · rw [decide_eq_false hneg]
      rfl
  have hexpect : ∀ text rest : List Char, (text ++ rest).dropPrefix? text = some rest :=
    fun text rest => List.dropPrefix?_append_of_beq rest (by simp)
  rw [readLine, hexpect]
  simp only [Option.bind_eq_bind, Option.bind_some]
  rw [hsource]
  simp only [hexpect, Option.bind_some]
  rw [hbytes]
  simp only [hexpect, Option.bind_some]
  rw [hsign]
  dsimp only
  simp only [htemperature, hexpect, hhumidity, Option.bind_some, if_true]
  have hvalue : (if decide (temperatureOf message.payload < 0) = true then
      -((temperatureOf message.payload).natAbs : ℤ) else (temperatureOf message.payload).natAbs) =
      temperatureOf message.payload := by
    split_ifs with hneg
    · have := of_decide_eq_true hneg
      omega
    · have := of_decide_eq_false (Bool.not_eq_true _ ▸ hneg)
      omega
  rw [hvalue]
  rfl

/-! ## From the sensor to the screen -/

/-- A value depends on its four bytes. -/
theorem fetch_congr {payload payload' : Mem} {a : ℕ}
    (h : ∀ i, a ≤ i → i < a + 4 → payload i = payload' i) :
    emberFetchLowHighInt32u payload a = emberFetchLowHighInt32u payload' a := by
  apply UInt32.toNat_inj.mp
  rw [toNat_emberFetchLowHighInt32u, toNat_emberFetchLowHighInt32u, h a (by omega) (by omega),
    h (a + 1) (by omega) (by omega), h (a + 2) (by omega) (by omega),
    h (a + 3) (by omega) (by omega)]

theorem temperatureOf_congr {payload payload' : Mem} (h : ∀ i < 4, payload i = payload' i) :
    temperatureOf payload = temperatureOf payload' :=
  congrArg (fun x : UInt32 => x.toInt32.toInt) (fetch_congr fun i _ hi => h i (by omega))

theorem humidityOf_congr {payload payload' : Mem} (h : ∀ i < 8, payload i = payload' i) :
    humidityOf payload = humidityOf payload' := fetch_congr fun i _ hi => h i (by omega)

/-- The message the application gets where `x` was sent. -/
def receivedMessage (vars : Locals) (x : IncomingMessage) : EmberIncomingMessage :=
  { x.toEmberIncomingMessage with
    length := receivedLength x.length.toNat maxCallbackPayloadLength.toNat
    payload := receivedPayload vars.incomingMessage.payload x.payload x.length.toNat
      maxCallbackPayloadLength.toNat }

theorem prints_received (vars : Locals) (x : IncomingMessage) :
    prints settings ((Callback.incomingMessage x).received vars) =
      emberAfIncomingMessageCallback settings (receivedMessage vars x) := rfl

theorem payload_received (vars : Locals) {x : IncomingMessage} {i : ℕ} (hi : i < 8)
    (hlt : i < x.length.toNat) : (receivedMessage vars x).payload i = x.payload i := by
  have hmax : maxCallbackPayloadLength.toNat = 2048 := rfl
  exact (receivedPayload_apply _ _ _ _ i).trans (if_pos (by omega))

theorem temperature_received (vars : Locals) {x : IncomingMessage} (h : 4 ≤ x.length.toNat) :
    temperatureOf (receivedMessage vars x).payload = temperatureOf x.payload :=
  temperatureOf_congr fun _ hi => payload_received vars (by omega) (by omega)

theorem humidity_received (vars : Locals) {x : IncomingMessage} (h : 8 ≤ x.length.toNat) :
    humidityOf (receivedMessage vars x).payload = humidityOf x.payload :=
  humidityOf_congr fun _ hi => payload_received vars hi (by omega)

/-- What is measured and sent is received. -/
theorem readingOf_received (vars : Locals) {x : IncomingMessage}
    (hwithin : (Callback.incomingMessage x).Within) (hlength : 8 ≤ x.length.toNat) :
    readingOf (receivedMessage vars x) = readingOf x.toEmberIncomingMessage := by
  have hbytes : (receivedMessage vars x).payload.read 0 (receivedMessage vars x).length.toNat =
      x.payload.read 0 x.length.toNat := by
    have hlen : (receivedMessage vars x).length = x.length := receivedLength_eq hwithin
    rw [hlen]
    exact payloadBytes_received vars.incomingMessage.payload x.payload hwithin
  unfold readingOf
  rw [temperature_received vars (by omega), humidity_received vars hlength, hbytes]
  rfl

/-- **What a sensor has sent is on the screen**: a message of at least eight bytes, on the endpoint
of the application and secured where it has to be, is shown with its node, its bytes, and the
temperature and the humidity that are in them, in both length modes and whatever the variables of
the handler held before. -/
theorem shown_of_encoded (long : Bool) (vars : Locals) (buffer : Mem) {bufferSize : UInt16}
    {x : IncomingMessage} (hfit : (Callback.incomingMessage x).Fits long)
    (hwithin : (Callback.incomingMessage x).Within)
    (hsize : encodedSize long (Callback.incomingMessage x).arguments ≤ bufferSize.toNat)
    (haccepts : Accepts settings x.toEmberIncomingMessage) (hlength : 8 ≤ x.length.toNat)
    (ht : temperatureOf x.payload ≠ intMin) :
    ∃ m length d line, formatResponseCommandFromArgList long buffer bufferSize
        (Callback.incomingMessage x).commandId (format (Callback.incomingMessage x).items)
        ((Callback.incomingMessage x).arguments.flatMap Arg.passed) = some (m, length) ∧
      sliConnectNcpHandleIndication long vars m (emberFetchHighLowInt16u m 0) 2 = some d ∧
      prints settings d = some line ∧ readLine line = some (readingOf x.toEmberIncomingMessage) := by
  obtain ⟨m, length, hrun, hhandled⟩ := handled_of_encoded long vars buffer _ hfit hsize
  have haccepts' : Accepts settings (receivedMessage vars x) := haccepts
  have ht' : temperatureOf (receivedMessage vars x).payload ≠ intMin := by
    rw [temperature_received vars (by omega)]
    exact ht
  obtain ⟨line, hline, hread⟩ := readLine_of_prints haccepts' ht'
  refine ⟨m, length, _, line, hrun, hhandled, hline, ?_⟩
  rw [hread, readingOf_received vars hwithin hlength]

/-- A message of a sensor: 21.5 degrees and 40 percent. -/
def sensorMessage : IncomingMessage where
  options := 1
  source := 5
  endpoint := 1
  length := 8
  payload := fun i => [0xFC, 0x53, 0, 0, 0x40, 0x9C, 0, 0].getD i 0
  rssi := -40
  timestamp := 7
  lqi := 255

theorem fits_sensorMessage (long : Bool) {options : UInt8} :
    (Callback.incomingMessage { sensorMessage with options := options }).Fits long := by
  cases long <;> simp [Callback.Fits, Callback.items, Item.Fits, maxLength, sensorMessage]

theorem shown_of_encoded_sensor : ∃ m length d line,
    formatResponseCommandFromArgList true (fun _ => 0) 64
        (Callback.incomingMessage sensorMessage).commandId
        (format (Callback.incomingMessage sensorMessage).items)
        ((Callback.incomingMessage sensorMessage).arguments.flatMap Arg.passed) =
      some (m, length) ∧
    sliConnectNcpHandleIndication true zeroLocals m (emberFetchHighLowInt16u m 0) 2 = some d ∧
    prints Settings.init d = some line ∧
    readLine line = some (readingOf sensorMessage.toEmberIncomingMessage) :=
  shown_of_encoded true zeroLocals (fun _ => 0)
    (fits_sensorMessage true)
    (show 8 ≤ 2048 by decide) (by decide) (by decide) (by decide) (by decide)

example : readingOf sensorMessage.toEmberIncomingMessage =
    ⟨5, [0xFC, 0x53, 0, 0, 0x40, 0x9C, 0, 0], 21500, 40000⟩ := by decide

/-! ## Behind the payload -/

/-- The line shows nothing of what the variables of the handler held before. -/
def Settled (settings : Settings) (c : Callback) : Prop :=
  ∀ vars vars', prints settings (c.received vars) = prints settings (c.received vars')

/-- Variables with `b` at place `n` of the payload. -/
def localsWith (n : ℕ) (b : UInt8) : Locals :=
  { zeroLocals with
    incomingMessage := { zeroLocals.incomingMessage with
      payload := fun i => if i = n then b else 0 } }

/-- The payload, and behind it `b`. -/
theorem payload_localsWith {x : IncomingMessage} (b : UInt8) (h : x.length.toNat < 8) (i : ℕ) :
    (receivedMessage (localsWith x.length.toNat b) x).payload i =
      if i < x.length.toNat then x.payload i else if i = x.length.toNat then b else 0 := by
  have hmax : maxCallbackPayloadLength.toNat = 2048 := rfl
  have happly : (receivedMessage (localsWith x.length.toNat b) x).payload i =
      if i < min x.length.toNat maxCallbackPayloadLength.toNat then x.payload i
        else if i = x.length.toNat then b else 0 := receivedPayload_apply _ _ _ _ i
  rw [happly, Nat.min_eq_left (by omega)]

/-- A value the payload ends in: the byte behind the payload is the next digit of it. -/
theorem fetch_localsWith {x : IncomingMessage} {a : ℕ} (hlength : x.length.toNat < 8)
    (hle : a ≤ x.length.toNat) (hlt : x.length.toNat < a + 4) :
    ∃ w < 256 ^ (x.length.toNat - a), ∀ b,
      (emberFetchLowHighInt32u (receivedMessage (localsWith x.length.toNat b) x).payload a).toNat =
        b.toNat * 256 ^ (x.length.toNat - a) + w := by
  obtain ⟨k, hk⟩ := Nat.exists_eq_add_of_le hle
  have h0 := (x.payload a).toNat_lt
  have h1 := (x.payload (a + 1)).toNat_lt
  have h2 := (x.payload (a + 2)).toNat_lt
  have hfetch : ∀ b,
      (emberFetchLowHighInt32u (receivedMessage (localsWith x.length.toNat b) x).payload a).toNat =
        (if 3 < k then x.payload (a + 3) else if 3 = k then b else 0).toNat * 2 ^ 24 +
        (if 2 < k then x.payload (a + 2) else if 2 = k then b else 0).toNat * 2 ^ 16 +
        (if 1 < k then x.payload (a + 1) else if 1 = k then b else 0).toNat * 2 ^ 8 +
        (if 0 < k then x.payload a else if 0 = k then b else 0).toNat := by
    intro b
    rw [toNat_emberFetchLowHighInt32u, payload_localsWith b hlength, payload_localsWith b hlength,
      payload_localsWith b hlength, payload_localsWith b hlength, hk]
    simp only [Nat.add_lt_add_iff_left, Nat.add_left_cancel_iff, Nat.lt_add_right_iff_pos,
      Nat.left_eq_add, eq_comm]
  rw [hk, Nat.add_sub_cancel_left]
  rw [hk] at hfetch
  have hk4 : k < 4 := by omega
  interval_cases k
  · exact ⟨0, by omega, fun b => by rw [hfetch]; simp⟩
  · exact ⟨(x.payload a).toNat, by omega, fun b => by rw [hfetch]; simp⟩
  · exact ⟨(x.payload (a + 1)).toNat * 2 ^ 8 + (x.payload a).toNat, by omega,
      fun b => by rw [hfetch]; simp; omega⟩
  · exact ⟨(x.payload (a + 2)).toNat * 2 ^ 16 + (x.payload (a + 1)).toNat * 2 ^ 8 +
      (x.payload a).toNat, by omega, fun b => by rw [hfetch]; simp; omega⟩

/-- A value below `2 ^ 31` is no negative one. -/
theorem temperatureOf_of_lt {payload : Mem}
    (h : (emberFetchLowHighInt32u payload 0).toNat < 2 ^ 31) :
    temperatureOf payload = (emberFetchLowHighInt32u payload 0).toNat :=
  BitVec.toInt_eq_toNat_of_lt (by
    have : (emberFetchLowHighInt32u payload 0).toInt32.toBitVec.toNat < 2 ^ 31 := h
    omega)

/-- The temperature of a message that ends in it. -/
theorem temperature_localsWith {x : IncomingMessage} (hlength : x.length.toNat < 4) :
    ∃ w < 256 ^ x.length.toNat, ∀ b ≤ 1,
      temperatureOf (receivedMessage (localsWith x.length.toNat b) x).payload =
        (b.toNat * 256 ^ x.length.toNat + w : ℕ) := by
  obtain ⟨w, hw, hfetch⟩ := fetch_localsWith (x := x) (a := 0) (by omega) (by omega) (by omega)
  rw [Nat.sub_zero] at hw hfetch
  refine ⟨w, hw, fun b hb => ?_⟩
  have hb1 : b.toNat ≤ 1 := UInt8.le_iff_toNat_le.mp hb
  have hpow : 256 ^ x.length.toNat ≤ 256 ^ 3 := Nat.pow_le_pow_right (by decide) (by omega)
  rw [← hfetch b]
  refine temperatureOf_of_lt ?_
  rw [hfetch b]
  nlinarith

/-- A message that is shown and has not all of a value shows what was behind it. -/
theorem prints_localsWith_ne {x : IncomingMessage} (h : Accepts settings x.toEmberIncomingMessage)
    (hne : readingOf (receivedMessage (localsWith x.length.toNat 0) x) ≠
      readingOf (receivedMessage (localsWith x.length.toNat 1) x))
    (ht : ∀ b ≤ 1, temperatureOf (receivedMessage (localsWith x.length.toNat b) x).payload ≠ intMin) :
    ¬ Settled settings (.incomingMessage x) := by
  intro hsettled
  have haccepts : ∀ vars, Accepts settings (receivedMessage vars x) := fun _ => h
  obtain ⟨line, hline, hread⟩ := readLine_of_prints (haccepts _) (ht 0 (by decide))
  obtain ⟨line', hline', hread'⟩ := readLine_of_prints (haccepts _) (ht 1 (by decide))
  have hsame := hsettled (localsWith x.length.toNat 0) (localsWith x.length.toNat 1)
  rw [prints_received, prints_received, hline, hline', Option.some.injEq] at hsame
  rw [hsame, hread', Option.some.injEq] at hread
  exact hne hread.symm

theorem read_received (vars : Locals) (x : IncomingMessage) :
    (receivedMessage vars x).payload.read 0 (receivedMessage vars x).length.toNat =
      x.payload.read 0 (min x.length.toNat maxCallbackPayloadLength.toNat) := by
  have hlt := x.length.toNat_lt
  have hlen : (receivedMessage vars x).length.toNat =
      min x.length.toNat maxCallbackPayloadLength.toNat :=
    Nat.mod_eq_of_lt (by omega : min x.length.toNat maxCallbackPayloadLength.toNat < 2 ^ 16)
  rw [hlen]
  exact Memory.read_congr fun i _ hi =>
    (receivedPayload_apply _ _ _ _ i).trans (if_pos (by omega))

/-- A temperature without absolute value: there is no line. -/
theorem prints_intMin {message : EmberIncomingMessage} (h : Accepts settings message)
    (ht : temperatureOf message.payload = intMin) :
    emberAfIncomingMessageCallback settings message = none := by
  have habs : abs (temperatureOf message.payload) = none := if_pos ht
  rw [emberAfIncomingMessageCallback, if_neg (not_not.mpr h)]
  dsimp only
  rw [habs, Option.map_none]

/-- **What the line shows is settled by the frame** unless a message of less than eight bytes is
shown: of that one the line has bytes the handler's variables held before, as a temperature or as a
humidity. The one exception is a temperature whose absolute value does not exist. -/
theorem settled_iff (settings : Settings) (c : Callback) :
    Settled settings c ↔ ∀ x, c = .incomingMessage x → Accepts settings x.toEmberIncomingMessage →
      8 ≤ x.length.toNat ∨ 4 ≤ x.length.toNat ∧ temperatureOf x.payload = intMin := by
  constructor
  · rintro h x rfl haccepts
    by_contra hshort
    obtain ⟨hlength, hmin⟩ := not_or.mp hshort
    replace hlength := Nat.not_le.mp hlength
    rcases Nat.lt_or_ge x.length.toNat 4 with hlt | hge
    · obtain ⟨w, -, hvalue⟩ := temperature_localsWith hlt
      refine prints_localsWith_ne haccepts (fun heq => ?_) (fun b hb => ?_) h
      · have hsame := congrArg Reading.temperature heq
        simp only [readingOf, hvalue 0 (by decide), hvalue 1 (by decide)] at hsame
        simp at hsame
      · rw [hvalue b hb, intMin]
        omega
    · obtain ⟨w, -, hvalue⟩ := fetch_localsWith hlength hge (by omega)
      refine prints_localsWith_ne haccepts (fun heq => ?_) (fun b _ => ?_) h
      · have hsame := congrArg Reading.humidity heq
        simp only [readingOf, humidityOf, hvalue] at hsame
        simp at hsame
      · rw [temperature_received _ hge]
        exact fun heq => hmin ⟨hge, heq⟩
  · intro h vars vars'
    cases c with
    | incomingMessage x =>
      rw [prints_received, prints_received]
      by_cases haccepts : Accepts settings x.toEmberIncomingMessage
      · have haccepts' : ∀ vars, Accepts settings (receivedMessage vars x) := fun _ => haccepts
        rcases h x rfl haccepts with hlength | ⟨hlength, hmin⟩
        · unfold emberAfIncomingMessageCallback
          rw [temperature_received vars (by omega), temperature_received vars' (by omega),
            humidity_received vars hlength, humidity_received vars' hlength, read_received,
            read_received]
          rfl
        · rw [prints_intMin (haccepts' vars) ((temperature_received vars hlength).trans hmin),
            prints_intMin (haccepts' vars') ((temperature_received vars' hlength).trans hmin)]
      · have hdropped : ∀ vars, emberAfIncomingMessageCallback settings (receivedMessage vars x) =
            some [] := fun _ => if_pos haccepts
        rw [hdropped, hdropped]
    | _ => rfl

end ConnectNcpHost.App.SensorData
