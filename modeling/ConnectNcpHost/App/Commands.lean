import ConnectNcpHost.App.HexStrings
import ConnectNcpHost.Csp.ApiCommands
import ConnectNcpHost.Lib.Programs

/-! # The commands of the application (`app_cli.cpp`)

A command of the command line is a program: it reads its arguments, calls functions of the API, and
prints. The ones that concern the bootloader server are in `GblImage`.

* `uses_iff`: what a command sends fits the encoder, whatever its arguments and the answers of the
  NCP are; only the length of a message is left to the user.
* `defined_iff`: which arguments of which command write past an array.
* `data_typed_back`: the line that `data` prints can be typed back. -/

namespace ConnectNcpHost.App.Commands

open ConnectNcpHost.Lib.Bytes ConnectNcpHost.Lib.Numerals ConnectNcpHost.Lib.Programs
open ConnectNcpHost.Stack.ByteUtilities ConnectNcpHost.Log.StrBytes ConnectNcpHost.Csp.Codec
open ConnectNcpHost.Csp.EncodedSize ConnectNcpHost.Csp.Callbacks ConnectNcpHost.Csp.ApiCommands
open ConnectNcpHost.Ota.Protocol ConnectNcpHost.App.HexStrings

/-! ## The state and the programs -/

def slSensorSinkTxPower : Int16 := 0
def slSensorSinkPanId : UInt16 := 0x01FF
def dataEndpoint : UInt8 := 1
def emberOptionsHighPriority : UInt8 := 0x04
def emberMacAddressModeShort : UInt8 := 0x02

/-- The variables the commands share. -/
structure Settings where
  /-- `tx_power` -/
  txPower : Int16
  /-- `tx_options` -/
  txOptions : UInt8

def Settings.init : Settings where
  txPower := slSensorSinkTxPower
  txOptions := emberOptionsAckRequested ||| emberOptionsSecurityEnabled

/-- What a command does: it ends with the variables it leaves. -/
abbrev CliProgram : Type := Program (fun c : ApiCall => c.reply.Variables) (List Char) Settings

/-- The digits of `%x` -/
def lowerHexDigit (d : ℕ) : Char := hexL.getD d nul

/-- `%x` -/
def printLowerHex (n : ℕ) : List Char := numeral lowerHexDigit 16 1 n

/-- `%0wd` of a number that is not negative -/
def printNat (w n : ℕ) : List Char := numeral Nat.digitChar 10 w n

/-- `%d` -/
def printInt (n : ℤ) : List Char :=
  if n < 0 then '-' :: printNat 1 n.natAbs else printNat 1 n.natAbs

/-- `0x%02X` of a status -/
def printStatus (status : UInt8) : List Char := "0x".toList ++ printHex 2 status.toNat

/-- The line of a status. -/
def statusLine (text : String) (status : UInt8) : List Char :=
  text.toList ++ printStatus status ++ "\n".toList

/-- The message of `hexToInt` for a bad argument. -/
def badArgument : List Char := "\nBad argument, enter a hex value".toList

/-- A call of `hexToInt`. -/
def withHexToInt (hex : List Char) (next : ℤ → CliProgram) : CliProgram :=
  if (hexToInt hex).2 then .print badArgument (next (hexToInt hex).1) else next (hexToInt hex).1

/-- A call of `splitStringIntoHexArray` with an array of `size` bytes. -/
def withHexArray (str : List Char) (size : ℕ) (next : Split → CliProgram) : CliProgram :=
  match splitStringIntoHexArray str with
  | none => .undefined
  | some r =>
    Program.printTimes badArgument r.badArguments
      (if size < r.stored.length then .undefined else next r)

/-! ## The commands -/

/-- `cli_form` -/
def cliForm (radioChannel : UInt16) (settings : Settings) : CliProgram :=
  .call .emberGetDefaultChannel fun (defaultChannel : UInt16) =>
    if radioChannel < defaultChannel then
      .print ("Channel ".toList ++ printInt radioChannel.toNat ++
        " is invalid, the first valid channel is ".toList ++ printInt defaultChannel.toNat ++
        "!\n".toList) (.ret settings)
    else
      .call (.emberFormNetwork ⟨slSensorSinkPanId, settings.txPower, radioChannel⟩)
        fun (status : UInt8) => .print (statusLine "form " status) (.ret settings)

/-- `cli_pjoin` -/
def cliPjoin (durationHex : List Char) (settings : Settings) : CliProgram :=
  withHexToInt durationHex fun duration =>
    .call .emberClearSelectiveJoinPayload fun _ =>
      .call (.emberPermitJoining (UInt8.ofInt duration)) fun (status : UInt8) =>
        if status ≠ emberSuccess then
          .print ("Permit join status: ".toList ++ printStatus status) (.ret settings)
        else .ret settings

/-- `cli_set_tx_power` -/
def cliSetTxPower (power : Int16) (settings : Settings) : CliProgram :=
  let settings := { settings with txPower := power }
  .call (.emberSetRadioPower power false) fun (status : UInt8) =>
    if status = emberSuccess then
      .call .emberGetRadioPower fun (power : Int16) =>
        .print ("TX power set: ".toList ++ printInt power.toInt ++ "\n".toList) (.ret settings)
    else .print "TX power set failed\n".toList (.ret settings)

/-- `enabled` or `disabled` -/
def enabled (options option : UInt8) : List Char :=
  if options &&& option ≠ 0 then "enabled".toList else "disabled".toList

/-- The three options, as they are printed. -/
def optionsLine (text : String) (options : UInt8) : List Char :=
  text.toList ++ "MAC acks ".toList ++ enabled options emberOptionsAckRequested ++
    ", security ".toList ++ enabled options emberOptionsSecurityEnabled ++
    ", priority ".toList ++ enabled options emberOptionsHighPriority ++ "\n".toList

/-- `cli_set_tx_options` -/
def cliSetTxOptions (sendOptionsHex : List Char) (settings : Settings) : CliProgram :=
  withHexToInt sendOptionsHex fun options =>
    let settings := { settings with txOptions := UInt8.ofInt options }
    .print (optionsLine "TX options set: " settings.txOptions) (.ret settings)

/-- `cli_remove_child`; `stack` is what `address` holds before it is written -/
def cliRemoveChild (stack : Mem) (mode : UInt8) (shortAddressHex longAdressHex : List Char)
    (settings : Settings) : CliProgram :=
  let remove (address : MacAddress) : CliProgram :=
    .call (.emberRemoveChild address) fun (status : UInt8) =>
      .print (statusLine "Child removal " status) (.ret settings)
  let address : MacAddress := ⟨stack, mode⟩
  withHexToInt shortAddressHex fun shortAddress =>
    if longAdressHex.length % 2 = 0 then
      withHexArray longAdressHex (longAdressHex.length / 2) fun longAddress =>
        if mode = emberMacAddressModeShort then
          remove (address.setShortAddress (UInt16.ofInt shortAddress))
        else if longAddress.returned ≠ eui64Size.toNat then
          .print "Wrong param length\n".toList (.ret settings)
        else remove (address.setLongAddress (longAddress.stored.take eui64Size.toNat))
    else remove address

/-- `emberGetEui64()[i]` of `cli_info`, from `i` up to `eui64Size` -/
def printEui64 : ℕ → ℕ → CliProgram → CliProgram
  | _, 0, next => next
  | i, n + 1, next =>
    .call .emberGetEui64 fun (eui64 : Mem) =>
      .print (printHex 2 (eui64 i).toNat) (printEui64 (i + 1) n next)

/-- A `uint16_t` or `int16_t` that `cli_info` asks for. -/
def infoNumber (text : String) (c : ApiCall) (number : c.reply.Variables → List Char)
    (next : CliProgram) : CliProgram :=
  .call c fun x => .print (text.toList ++ number x ++ "\n".toList) next

/-- `cli_info`: the pointer `eui64` is that of the array every `emberGetEui64` fills -/
def cliInfo (settings : Settings) : CliProgram :=
  .call .emberGetEui64 fun _ =>
    .print "Info:\n".toList <| .print "     Node EUI64: ".toList <|
    .call .emberGetEui64 fun (eui64 : Mem) =>
    .print (printBuffer eui64 eui64Size.toUInt8) <| .print "\n".toList <|
    infoNumber "  Network state: 0x" .emberNetworkState (fun (x : UInt8) => printHex 2 x.toNat) <|
    infoNumber "      Node type: 0x" .emberGetNodeType (fun (x : UInt8) => printHex 2 x.toNat) <|
    .print ("          eui64: >".toList ++
      (eui64.read 0 eui64Size.toNat).reverse.flatMap (fun b => printLowerHex b.toNat) ++
      "\n".toList) <|
    infoNumber "        Node id: 0x" .emberGetNodeId (fun (x : UInt16) => printHex 4 x.toNat) <|
    .print "   Node long id: 0x".toList <| printEui64 0 eui64Size.toNat <|
    .print "\n".toList <|
    infoNumber "         Pan id: 0x" .emberGetPanId (fun (x : UInt16) => printHex 4 x.toNat) <|
    infoNumber "        Channel: " .emberGetRadioChannel (fun (x : UInt16) => printInt x.toNat) <|
    infoNumber "          Power: " .emberGetRadioPower (fun (x : Int16) => printInt x.toInt) <|
    .print (optionsLine "     TX options: " settings.txOptions) <| .ret settings

/-- `cli_leave` -/
def cliLeave (settings : Settings) : CliProgram := .call .emberResetNetworkState fun _ => .ret settings

/-- `cli_data`; `stack` is what `message_payload` holds before it is written -/
def cliData (stack : Mem) (destinationHex payload : List Char) (settings : Settings) : CliProgram :=
  withHexToInt destinationHex fun destination =>
    if payload.length % 2 = 0 then
      withHexArray payload (payload.length / 2) fun r =>
        let messagePayload := stack.write 0 r.stored
        .call (.emberMessageSend (UInt16.ofInt destination) dataEndpoint 0 r.returned.toUInt16
          (some messagePayload) settings.txOptions) fun (status : UInt8) =>
          .print ("TX: Data to 0x".toList ++ printHex 4 (UInt16.ofInt destination).toNat ++
            ":\x7b".toList) <|
          .print (printBuffer messagePayload r.returned.toUInt8) <|
          .print (statusLine "\x7d: status=" status) (.ret settings)
    else .print "\nError : Payload length is not even".toList (.ret settings)

/-- `cli_set_channel` -/
def cliSetChannel (radioChannel : UInt16) (settings : Settings) : CliProgram :=
  .call (.emberSetRadioChannelExtended radioChannel false) fun (status : UInt8) =>
    if status = emberSuccess then
      .print (statusLine "Radio channel set, status=" status) (.ret settings)
    else .print (statusLine "Setting radio channel failed, status=" status) (.ret settings)

/-- `cli_start_energy_scan` -/
def cliStartEnergyScan (channelToScan : UInt16) (samples : UInt8) (settings : Settings) : CliProgram :=
  .call (.emberStartEnergyScan channelToScan samples) fun (status : UInt8) =>
    if status = emberSuccess then
      .print ("Start energy scanning: channel ".toList ++ printInt channelToScan.toNat ++
        ", samples ".toList ++ printInt samples.toNat ++ "\n".toList) (.ret settings)
    else .print (statusLine "Start energy scanning failed, status=" status) (.ret settings)

/-- `cli_set_security_key`; `stack` is what `key` holds before it is written -/
def cliSetSecurityKey (stack : Mem) (keyContents : List Char) (settings : Settings) : CliProgram :=
  withHexArray keyContents emberEncryptionKeySize.toNat fun r =>
    if r.returned.toUInt8 ≠ emberEncryptionKeySize.toUInt8 then
      .print ("Security key length must be: ".toList ++
        printInt emberEncryptionKeySize.toNat ++ " bytes\n".toList) (.ret settings)
    else
      .call (.emberSetNcpSecurityKey (some (stack.write 0 r.stored))
        emberEncryptionKeySize.toUInt8) fun (status : UInt8) =>
        if status ≠ emberSuccess then
          .print ("Security key set failed, status=".toList ++ printStatus status) (.ret settings)
        else .print "Security key set successful.\n".toList (.ret settings)

/-- `cli_unset_security_key` -/
def cliUnsetSecurityKey (settings : Settings) : CliProgram :=
  .call .emberRemovePsaSecurityKey fun _ =>
    .print "Security key unset successful\n".toList (.ret settings)

/-- `cli_counter` -/
def cliCounter (counterType : UInt8) (settings : Settings) : CliProgram :=
  .call (.emberGetCounter counterType) fun (r : UInt8 × UInt32) =>
    if r.1 = emberSuccess then
      .print ("Counter type=0x".toList ++ printHex 2 counterType.toNat ++ ": ".toList ++
        printInt r.2.toNat ++ "\n".toList) (.ret settings)
    else .print (statusLine "Get counter failed, status=" r.1) (.ret settings)

/-- `reset_network_command` -/
def resetNetworkCommand (settings : Settings) : CliProgram :=
  .print "Resetting the network...".toList <| .call .emberResetNetworkState fun _ => .ret settings

/-- A command with its arguments. -/
inductive Command
  | form (radioChannel : UInt16)
  | pjoin (durationHex : List Char)
  | setTxPower (power : Int16)
  | setTxOptions (sendOptionsHex : List Char)
  | removeChild (stack : Mem) (mode : UInt8) (shortAddressHex longAdressHex : List Char)
  | info
  | leave
  | data (stack : Mem) (destinationHex payload : List Char)
  | setChannel (radioChannel : UInt16)
  | startEnergyScan (channelToScan : UInt16) (samples : UInt8)
  | setSecurityKey (stack : Mem) (keyContents : List Char)
  | unsetSecurityKey
  | counter (counterType : UInt8)
  | resetNetwork

/-- `load_cli_commands`, but for the five commands of the bootloader: `load_gbl_file` and the three
`bootloader_unicast` commands belong to the image, and `bootloader_set_tag` sets two variables
nothing reads. -/
def Command.program : Command → Settings → CliProgram
  | form radioChannel => cliForm radioChannel
  | pjoin durationHex => cliPjoin durationHex
  | setTxPower power => cliSetTxPower power
  | setTxOptions sendOptionsHex => cliSetTxOptions sendOptionsHex
  | removeChild stack mode shortAddressHex longAdressHex =>
    cliRemoveChild stack mode shortAddressHex longAdressHex
  | info => cliInfo
  | leave => cliLeave
  | data stack destinationHex payload => cliData stack destinationHex payload
  | setChannel radioChannel => cliSetChannel radioChannel
  | startEnergyScan channelToScan samples => cliStartEnergyScan channelToScan samples
  | setSecurityKey stack keyContents => cliSetSecurityKey stack keyContents
  | unsetSecurityKey => cliUnsetSecurityKey
  | counter counterType => cliCounter counterType
  | resetNetwork => resetNetworkCommand

/-! ## Nothing is undefined, but the overflow of a key -/

variable {settings : Settings} {long : Bool}

/-- The strings that leave the array of a key in bounds: up to 32 digits, and no brace alone. -/
def KeyFits (keyContents : List Char) : Prop :=
  ∃ digits ∈ removeDelimiters keyContents, digits.length ≤ 32

@[simp] theorem defined_withHexToInt {hex : List Char} {next : ℤ → CliProgram} :
    (withHexToInt hex next).Defined ↔ (next (hexToInt hex).1).Defined := by
  unfold withHexToInt
  split_ifs
  · rfl
  · rfl

/-- The array is long enough for the bytes that are stored. -/
def Fits (str : List Char) (size : ℕ) : Prop :=
  ∃ r ∈ splitStringIntoHexArray str, r.stored.length ≤ size

theorem defined_withHexArray {str : List Char} {size : ℕ} {next : Split → CliProgram}
    (h : ∀ r, (next r).Defined) : (withHexArray str size next).Defined ↔ Fits str size := by
  unfold withHexArray Fits
  rcases splitStringIntoHexArray str with _ | r
  · simp
  · simp [h]

theorem fits_iff {str : List Char} {size : ℕ} :
    Fits str size ↔ ∃ digits ∈ removeDelimiters str, (digits.length + 1) / 2 ≤ size := by
  constructor
  · rintro ⟨r, hr, hle⟩
    obtain ⟨digits, hd, -, hstored⟩ := split_eq hr
    exact ⟨digits, hd, hstored ▸ hle⟩
  · rintro ⟨digits, hd, hle⟩
    have hsplit : splitStringIntoHexArray str = some _ := congrArg (Option.map _) hd
    obtain ⟨digits', hd', -, hstored⟩ := split_eq hsplit
    obtain rfl := Option.some.inj (Option.mem_def.mp hd ▸ hd')
    exact ⟨_, hsplit, hstored.trans_le hle⟩

/-- Without its delimiters, a string of even length has an even number of digits. -/
theorem even_removeDelimiters {str : List Char} (heven : str.length % 2 = 0) :
    ∃ digits ∈ removeDelimiters str, digits.length % 2 = 0 ∧ digits.length ≤ str.length := by
  unfold removeDelimiters
  split
  · rename_i digits
    rw [List.length_cons] at heven
    have hne : digits ≠ [] := by
      rintro rfl
      cases heven
    have hlength : digits.dropLast.length = digits.length - 1 := List.length_dropLast
    have hpos : 0 < digits.length := List.length_pos_of_ne_nil hne
    refine ⟨digits.dropLast, if_neg hne, ?_, ?_⟩
    · omega
    · rw [List.length_cons]
      omega
  · exact ⟨_, rfl, heven, le_rfl⟩

/-- An array of half its length is long enough for it. -/
theorem fits_of_even {str : List Char} (heven : str.length % 2 = 0) :
    Fits str (str.length / 2) := by
  obtain ⟨digits, hd, hmod, hle⟩ := even_removeDelimiters heven
  exact fits_iff.mpr ⟨digits, hd, by omega⟩

/-- An array for an even string, where the string is one. -/
theorem defined_array {str : List Char} {next : Split → CliProgram} {other : CliProgram}
    (h : ∀ r, (next r).Defined) (ho : other.Defined) :
    (if str.length % 2 = 0 then withHexArray str (str.length / 2) next else other).Defined := by
  split_ifs with heven
  · exact (defined_withHexArray h).mpr (fits_of_even heven)
  · exact ho

theorem defined_setSecurityKey_iff (stack : Mem) (keyContents : List Char) (settings : Settings) :
    (cliSetSecurityKey stack keyContents settings).Defined ↔ KeyFits keyContents := by
  have h16 : emberEncryptionKeySize.toNat = 16 := rfl
  rw [cliSetSecurityKey]
  refine (defined_withHexArray fun r => ?_).trans ?_
  · refine Program.defined_ite.mpr ⟨fun _ => trivial, fun _ (status : UInt8) => ?_⟩
    exact Program.defined_ite.mpr ⟨fun _ => trivial, fun _ => trivial⟩
  · rw [fits_iff, h16, KeyFits]
    refine exists_congr fun digits => and_congr_right fun _ => ?_
    omega

theorem defined_printEui64 {next : CliProgram} (h : next.Defined) :
    ∀ n i, (printEui64 i n next).Defined
  | 0, _ => h
  | n + 1, i => fun _ => defined_printEui64 h n (i + 1)

/-- The other commands do nothing undefined. -/
theorem defined_of_ne {k : Command} (settings : Settings)
    (hk : ∀ stack keyContents, k ≠ .setSecurityKey stack keyContents) :
    (k.program settings).Defined := by
  cases k with
  | setSecurityKey stack keyContents => exact absurd rfl (hk stack keyContents)
  | removeChild stack mode shortAddressHex longAdressHex =>
    rw [Command.program, cliRemoveChild, defined_withHexToInt]
    refine defined_array (fun r => ?_) fun _ => trivial
    refine Program.defined_ite.mpr ⟨fun _ _ => trivial, fun _ => ?_⟩
    exact Program.defined_ite.mpr ⟨fun _ => trivial, fun _ _ => trivial⟩
  | data stack destinationHex payload =>
    rw [Command.program, cliData, defined_withHexToInt]
    exact defined_array (fun r _ => trivial) trivial
  | form radioChannel =>
    intro (defaultChannel : UInt16)
    exact Program.defined_ite.mpr ⟨fun _ => trivial, fun _ _ => trivial⟩
  | pjoin durationHex =>
    rw [Command.program, cliPjoin, defined_withHexToInt]
    intro _ (status : UInt8)
    exact Program.defined_ite.mpr ⟨fun _ => trivial, fun _ => trivial⟩
  | setTxPower power =>
    intro (status : UInt8)
    exact Program.defined_ite.mpr ⟨fun _ _ => trivial, fun _ => trivial⟩
  | setTxOptions sendOptionsHex =>
    rw [Command.program, cliSetTxOptions, defined_withHexToInt]
    trivial
  | info =>
    intro _ _ _ _ _
    refine defined_printEui64 ?_ _ _
    exact fun _ _ _ => trivial
  | leave => exact fun _ => trivial
  | setChannel radioChannel =>
    intro (status : UInt8)
    exact Program.defined_ite.mpr ⟨fun _ => trivial, fun _ => trivial⟩
  | startEnergyScan channelToScan samples =>
    intro (status : UInt8)
    exact Program.defined_ite.mpr ⟨fun _ => trivial, fun _ => trivial⟩
  | unsetSecurityKey => exact fun _ => trivial
  | counter counterType =>
    intro (r : UInt8 × UInt32)
    exact Program.defined_ite.mpr ⟨fun _ => trivial, fun _ => trivial⟩
  | resetNetwork => exact fun _ => trivial

/-- **No command writes past an array but `set_security_key`**, and that one exactly where the key
has more than 32 digits or is a brace alone: whatever the other arguments and the answers are. -/
theorem defined_iff (k : Command) (settings : Settings) :
    (k.program settings).Defined ↔
      ∀ stack keyContents, k = .setSecurityKey stack keyContents → KeyFits keyContents := by
  constructor
  · rintro h stack keyContents rfl
    exact (defined_setSecurityKey_iff stack keyContents settings).mp h
  · intro h
    by_cases hk : ∀ stack keyContents, k ≠ .setSecurityKey stack keyContents
    · exact defined_of_ne settings hk
    · push Not at hk
      obtain ⟨stack, keyContents, rfl⟩ := hk
      exact (defined_setSecurityKey_iff stack keyContents settings).mpr (h stack keyContents rfl)

/-! ## What is sent fits -/

/-- The call is encoded as a whole, in the mode. -/
def EncodesWhole (long : Bool) (c : ApiCall) : Prop :=
  c.messageLength ≤ maxLength long ∧ c.messageLength ≤ maxMessageLength

theorem encodesWhole_of_eq_zero {c : ApiCall} (h : c.messageLength = 0) : EncodesWhole long c :=
  ⟨h ▸ Nat.zero_le _, h ▸ Nat.zero_le _⟩

/-- The length of the message a command sends. -/
def Command.sends : Command → ℕ
  | data _ _ payload =>
    if payload.length % 2 = 0 then
      (splitStringIntoHexArray payload).elim 0 fun r => r.returned.toUInt16.toNat
    else 0
  | _ => 0

@[simp] theorem uses_withHexToInt {P : ApiCall → Prop} {hex : List Char} {next : ℤ → CliProgram} :
    (withHexToInt hex next).Uses P ↔ (next (hexToInt hex).1).Uses P := by
  unfold withHexToInt
  split_ifs
  · rfl
  · rfl

theorem uses_withHexArray {P : ApiCall → Prop} {str : List Char} {size : ℕ}
    {next : Split → CliProgram} (h : Fits str size) :
    (withHexArray str size next).Uses P ↔
      ∀ r ∈ splitStringIntoHexArray str, (next r).Uses P := by
  obtain ⟨r, hr, hle⟩ := h
  rw [Option.mem_def] at hr
  unfold withHexArray
  rw [hr]
  simp [Nat.not_lt.mpr hle]

/-- Where the rest of the command makes allowed calls only. -/
theorem uses_withHexArray_of {P : ApiCall → Prop} {str : List Char} {size : ℕ}
    {next : Split → CliProgram} (h : ∀ r, (next r).Uses P) : (withHexArray str size next).Uses P := by
  unfold withHexArray
  rcases splitStringIntoHexArray str with _ | r
  · trivial
  · simp [h]

theorem uses_printEui64 {next : CliProgram} (h : next.Uses (EncodesWhole long)) :
    ∀ n i, (printEui64 i n next).Uses (EncodesWhole long)
  | 0, _ => h
  | n + 1, i => ⟨encodesWhole_of_eq_zero rfl, fun _ => uses_printEui64 h n (i + 1)⟩

theorem uses_data_iff (stack : Mem) (destinationHex payload : List Char) (settings : Settings) :
    (cliData stack destinationHex payload settings).Uses (EncodesWhole long) ↔
      (Command.data stack destinationHex payload).sends ≤ maxLength long ∧
        (Command.data stack destinationHex payload).sends ≤ maxMessageLength := by
  rw [cliData, uses_withHexToInt, Command.sends]
  split_ifs with heven
  · rw [uses_withHexArray (fits_of_even heven)]
    obtain ⟨r, hr, -⟩ := fits_of_even heven
    rw [Option.mem_def] at hr
    rw [hr]
    constructor
    · intro h
      exact (h r rfl).1
    · intro h r' hr'
      obtain rfl := Option.mem_some_iff.mp hr'
      exact ⟨h, fun _ => trivial⟩
  · exact iff_of_true trivial ⟨Nat.zero_le _, Nat.zero_le _⟩

theorem uses_of_ne {k : Command} (settings : Settings)
    (hk : ∀ stack destinationHex payload, k ≠ .data stack destinationHex payload) :
    (k.program settings).Uses (EncodesWhole long) := by
  have h0 : ∀ {c : ApiCall}, c.messageLength = 0 → EncodesWhole long c := encodesWhole_of_eq_zero
  cases k with
  | data stack destinationHex payload => exact absurd rfl (hk stack destinationHex payload)
  | removeChild stack mode shortAddressHex longAdressHex =>
    rw [Command.program, cliRemoveChild, uses_withHexToInt]
    refine Program.uses_ite.mpr ⟨fun _ => uses_withHexArray_of fun r => ?_, fun _ => ?_⟩
    · refine Program.uses_ite.mpr ⟨fun _ => ⟨h0 rfl, fun _ => trivial⟩, fun _ => ?_⟩
      exact Program.uses_ite.mpr ⟨fun _ => trivial, fun _ => ⟨h0 rfl, fun _ => trivial⟩⟩
    · exact ⟨h0 rfl, fun _ => trivial⟩
  | setSecurityKey stack keyContents =>
    refine uses_withHexArray_of fun r => Program.uses_ite.mpr ⟨fun _ => trivial, fun _ => ?_⟩
    refine ⟨h0 rfl, fun (status : UInt8) => ?_⟩
    exact Program.uses_ite.mpr ⟨fun _ => trivial, fun _ => trivial⟩
  | form radioChannel =>
    refine ⟨h0 rfl, fun (defaultChannel : UInt16) => ?_⟩
    exact Program.uses_ite.mpr ⟨fun _ => trivial, fun _ => ⟨h0 rfl, fun _ => trivial⟩⟩
  | pjoin durationHex =>
    rw [Command.program, cliPjoin, uses_withHexToInt]
    refine ⟨h0 rfl, fun _ => ⟨h0 rfl, fun (status : UInt8) => ?_⟩⟩
    exact Program.uses_ite.mpr ⟨fun _ => trivial, fun _ => trivial⟩
  | setTxPower power =>
    refine ⟨h0 rfl, fun (status : UInt8) => ?_⟩
    exact Program.uses_ite.mpr ⟨fun _ => ⟨h0 rfl, fun _ => trivial⟩, fun _ => trivial⟩
  | setTxOptions sendOptionsHex =>
    rw [Command.program, cliSetTxOptions, uses_withHexToInt]
    trivial
  | info =>
    refine ⟨h0 rfl, fun _ => ⟨h0 rfl, fun _ => ⟨h0 rfl, fun _ => ⟨h0 rfl, fun _ => ?_⟩⟩⟩⟩
    refine ⟨h0 rfl, fun _ => uses_printEui64 ?_ _ _⟩
    exact ⟨h0 rfl, fun _ => ⟨h0 rfl, fun _ => ⟨h0 rfl, fun _ => trivial⟩⟩⟩
  | leave => exact ⟨h0 rfl, fun _ => trivial⟩
  | setChannel radioChannel =>
    refine ⟨h0 rfl, fun (status : UInt8) => ?_⟩
    exact Program.uses_ite.mpr ⟨fun _ => trivial, fun _ => trivial⟩
  | startEnergyScan channelToScan samples =>
    refine ⟨h0 rfl, fun (status : UInt8) => ?_⟩
    exact Program.uses_ite.mpr ⟨fun _ => trivial, fun _ => trivial⟩
  | unsetSecurityKey => exact ⟨h0 rfl, fun _ => trivial⟩
  | counter counterType =>
    refine ⟨h0 rfl, fun (r : UInt8 × UInt32) => ?_⟩
    exact Program.uses_ite.mpr ⟨fun _ => trivial, fun _ => trivial⟩
  | resetNetwork => exact ⟨h0 rfl, fun _ => trivial⟩

/-- **What a command sends is encoded as a whole**, in both modes and whatever its arguments and the
answers are; of `data`, exactly where the message fits the mode and the buffer. -/
theorem uses_iff (k : Command) (settings : Settings) :
    (k.program settings).Uses (EncodesWhole long) ↔
      k.sends ≤ maxLength long ∧ k.sends ≤ maxMessageLength := by
  by_cases hk : ∀ stack destinationHex payload, k ≠ .data stack destinationHex payload
  · refine iff_of_true (uses_of_ne settings hk) ?_
    cases k with
    | data stack destinationHex payload => exact absurd rfl (hk stack destinationHex payload)
    | _ => exact ⟨Nat.zero_le _, Nat.zero_le _⟩
  · push Not at hk
    obtain ⟨stack, destinationHex, payload, rfl⟩ := hk
    exact uses_data_iff stack destinationHex payload settings

/-! ## The variables a command leaves -/

/-- `tx_options` after a command. -/
def Command.txOptions (settings : Settings) : Command → UInt8
  | setTxOptions sendOptionsHex => UInt8.ofInt (hexToInt sendOptionsHex).1
  | _ => settings.txOptions

theorem returns_withHexToInt {Q : Settings → Prop} {hex : List Char} {next : ℤ → CliProgram} :
    (withHexToInt hex next).Returns Q ↔ (next (hexToInt hex).1).Returns Q := by
  unfold withHexToInt
  split_ifs
  · rfl
  · rfl

theorem returns_withHexArray {Q : Settings → Prop} {str : List Char} {size : ℕ}
    {next : Split → CliProgram} (h : ∀ r, (next r).Returns Q) :
    (withHexArray str size next).Returns Q := by
  unfold withHexArray
  rcases splitStringIntoHexArray str with _ | r
  · trivial
  · simp [h]

theorem returns_printEui64 {Q : Settings → Prop} {next : CliProgram} (h : next.Returns Q) :
    ∀ n i, (printEui64 i n next).Returns Q
  | 0, _ => h
  | n + 1, i => fun _ => returns_printEui64 h n (i + 1)

/-- **No command but `set_tx_options` changes `tx_options`.** -/
theorem returns_txOptions (k : Command) (settings : Settings) :
    (k.program settings).Returns fun settings' => settings'.txOptions = k.txOptions settings := by
  cases k with
  | data stack destinationHex payload =>
    rw [Command.program, cliData, returns_withHexToInt]
    exact Program.returns_ite.mpr ⟨fun _ => returns_withHexArray fun _ _ => rfl, fun _ => rfl⟩
  | removeChild stack mode shortAddressHex longAdressHex =>
    rw [Command.program, cliRemoveChild, returns_withHexToInt]
    refine Program.returns_ite.mpr ⟨fun _ => returns_withHexArray fun r => ?_, fun _ _ => rfl⟩
    refine Program.returns_ite.mpr ⟨fun _ _ => rfl, fun _ => ?_⟩
    exact Program.returns_ite.mpr ⟨fun _ => rfl, fun _ _ => rfl⟩
  | setSecurityKey stack keyContents =>
    refine returns_withHexArray fun r => Program.returns_ite.mpr ⟨fun _ => rfl, fun _ => ?_⟩
    exact fun (status : UInt8) => Program.returns_ite.mpr ⟨fun _ => rfl, fun _ => rfl⟩
  | form radioChannel =>
    exact fun (defaultChannel : UInt16) =>
      Program.returns_ite.mpr ⟨fun _ => rfl, fun _ _ => rfl⟩
  | pjoin durationHex =>
    rw [Command.program, cliPjoin, returns_withHexToInt]
    exact fun _ (status : UInt8) => Program.returns_ite.mpr ⟨fun _ => rfl, fun _ => rfl⟩
  | setTxPower power =>
    exact fun (status : UInt8) => Program.returns_ite.mpr ⟨fun _ _ => rfl, fun _ => rfl⟩
  | setTxOptions sendOptionsHex =>
    rw [Command.program, cliSetTxOptions, returns_withHexToInt]
    rfl
  | info =>
    refine fun _ _ _ _ _ => returns_printEui64 ?_ _ _
    exact fun _ _ _ => rfl
  | leave => exact fun _ => rfl
  | setChannel radioChannel =>
    exact fun (status : UInt8) => Program.returns_ite.mpr ⟨fun _ => rfl, fun _ => rfl⟩
  | startEnergyScan channelToScan samples =>
    exact fun (status : UInt8) => Program.returns_ite.mpr ⟨fun _ => rfl, fun _ => rfl⟩
  | unsetSecurityKey => exact fun _ => rfl
  | counter counterType =>
    exact fun (r : UInt8 × UInt32) => Program.returns_ite.mpr ⟨fun _ => rfl, fun _ => rfl⟩
  | resetNetwork => exact fun _ => rfl

/-! ## The line of `data` -/

/-- What `data` does once its arguments are read. -/
def sendData (destination length : UInt16) (messagePayload : Mem) (settings : Settings) :
    CliProgram :=
  .call (.emberMessageSend destination dataEndpoint 0 length (some messagePayload)
    settings.txOptions) fun (status : UInt8) =>
    .print ("TX: Data to 0x".toList ++ printHex 4 destination.toNat ++ ":\x7b".toList) <|
    .print (printBuffer messagePayload length.toUInt8) <|
    .print (statusLine "\x7d: status=" status) (.ret settings)

theorem withHexToInt_eq (hex : List Char) (next : ℤ → CliProgram) :
    withHexToInt hex next =
      Program.printTimes badArgument (hexToInt hex).2.toNat (next (hexToInt hex).1) := by
  unfold withHexToInt
  rcases (hexToInt hex).2 with _ | _
  · rfl
  · rfl

theorem cliData_eq (stack : Mem) (destinationHex : List Char) {payload : List Char}
    (settings : Settings) (heven : payload.length % 2 = 0) :
    ∃ r, splitStringIntoHexArray payload = some r ∧ r.stored.length = r.returned ∧
      cliData stack destinationHex payload settings =
        Program.printTimes badArgument (hexToInt destinationHex).2.toNat
          (Program.printTimes badArgument r.badArguments
            (sendData (UInt16.ofInt (hexToInt destinationHex).1) r.returned.toUInt16
              (stack.write 0 r.stored) settings)) := by
  obtain ⟨digits, hd, hmod, hle⟩ := even_removeDelimiters heven
  have hsplit : splitStringIntoHexArray payload = some _ := congrArg (Option.map _) hd
  obtain ⟨digits', hd', hreturned, hstored⟩ := split_eq hsplit
  obtain rfl := Option.some.inj (Option.mem_def.mp hd ▸ hd')
  refine ⟨_, hsplit, by omega, ?_⟩
  have hroom : ¬ payload.length / 2 < ((hexPairs digits).map fun r => UInt8.ofInt r.1).length := by
    dsimp only at hstored
    omega
  have hlow : (digits.length / 2).toUInt16.toUInt8 = (digits.length / 2).toUInt8 := by
    apply UInt8.toNat_inj.mp
    simp [Nat.toUInt8, Nat.toUInt16]
  rw [cliData, withHexToInt_eq, if_pos heven, withHexArray, hsplit]
  dsimp only
  rw [if_neg hroom, sendData, hlow]

theorem printTimes_add (m n : ℕ) (p : CliProgram) :
    Program.printTimes badArgument m (Program.printTimes badArgument n p) =
      Program.printTimes badArgument (m + n) p := by
  induction m with
  | zero => rw [Nat.zero_add]; rfl
  | succ m ih =>
    rw [Nat.succ_add]
    exact congrArg (Program.print badArgument) ih

theorem ofInt_toNat16 (v : UInt16) : UInt16.ofInt v.toNat = v := by
  have hlt := v.toNat_lt
  apply UInt16.toNat_inj.mp
  simp only [UInt16.ofInt, UInt16.toNat_ofNat']
  omega

theorem toNat_toUInt8 {length : UInt16} (h : length.toNat ≤ 255) :
    length.toUInt8.toNat = length.toNat := by
  rw [UInt16.toNat_toUInt8]
  omega

/-- The command with the line of another one. -/
theorem cliData_of_line (stack' : Mem) (destination length : UInt16) (messagePayload : Mem)
    (settings : Settings) (hlength : length.toNat ≤ 255) :
    cliData stack' ("0x".toList ++ printHex 4 destination.toNat)
        ('{' :: printBuffer messagePayload length.toUInt8 ++ ['}']) settings =
      sendData destination length (stack'.write 0 (messagePayload.read 0 length.toNat)) settings := by
  have hshown : printBuffer messagePayload length.toUInt8 =
      printBytes (messagePayload.read 0 length.toNat) := by
    rw [printBuffer, toNat_toUInt8 hlength]
  have hsplit := (split_printed (messagePayload.read 0 length.toNat)).2
  rw [← hshown, Memory.length_read] at hsplit
  have heven : ('{' :: printBuffer messagePayload length.toUInt8 ++ ['}']).length % 2 = 0 := by
    rw [hshown, List.length_append, List.length_cons, length_printBytes, List.length_singleton]
    omega
  have hdestination : hexToInt ("0x".toList ++ printHex 4 destination.toNat) =
      ((destination.toNat : ℤ), false) :=
    (hexToInt_printHex (by decide) (lt_trans destination.toNat_lt (by decide))).2
  have hback : length.toNat.toUInt16 = length := UInt16.ofNat_toNat
  obtain ⟨r, hr, -, hrun⟩ := cliData_eq stack' ("0x".toList ++ printHex 4 destination.toNat)
    settings heven
  obtain rfl := Option.some.inj (hr.symm.trans hsplit)
  rw [hrun, hdestination, ofInt_toNat16, hback]
  rfl

/-- **The line of `data` can be typed back**: with the destination and the bytes it shows, the
command sends the same bytes to the same node and prints the same line, for messages of up to 255
bytes. -/
theorem data_typed_back (stack stack' : Mem) (destinationHex : List Char) {payload : List Char}
    (settings : Settings) (heven : payload.length % 2 = 0) :
    ∃ n destination length messagePayload,
      cliData stack destinationHex payload settings =
        Program.printTimes badArgument n (sendData destination length messagePayload settings) ∧
      (length.toNat ≤ 255 → ∃ messagePayload',
        messagePayload'.read 0 length.toNat = messagePayload.read 0 length.toNat ∧
        printBuffer messagePayload' length.toUInt8 = printBuffer messagePayload length.toUInt8 ∧
        cliData stack' ("0x".toList ++ printHex 4 destination.toNat)
            ('{' :: printBuffer messagePayload length.toUInt8 ++ ['}']) settings =
          sendData destination length messagePayload' settings) := by
  obtain ⟨r, -, -, hrun⟩ := cliData_eq stack destinationHex settings heven
  rw [printTimes_add] at hrun
  refine ⟨_, _, r.returned.toUInt16, stack.write 0 r.stored, hrun, fun hlength => ?_⟩
  have hread := Memory.read_write_same stack' 0
    ((stack.write 0 r.stored).read 0 r.returned.toUInt16.toNat)
  rw [Memory.length_read] at hread
  refine ⟨_, hread, ?_, cliData_of_line stack' _ _ _ settings hlength⟩
  rw [printBuffer, printBuffer, toNat_toUInt8 hlength, hread]

/-- Three bytes in lower case, to a node that is given without `0x`. -/
theorem data_typed_back_three : ∃ n destination length messagePayload,
    cliData (fun _ => 0) "c001".toList "\x7b0aff7e\x7d".toList Settings.init =
      Program.printTimes badArgument n
        (sendData destination length messagePayload Settings.init) ∧
    (length.toNat ≤ 255 → ∃ messagePayload',
      messagePayload'.read 0 length.toNat = messagePayload.read 0 length.toNat ∧
      printBuffer messagePayload' length.toUInt8 = printBuffer messagePayload length.toUInt8 ∧
      cliData (fun _ => 0xFF) ("0x".toList ++ printHex 4 destination.toNat)
          ('{' :: printBuffer messagePayload length.toUInt8 ++ ['}']) Settings.init =
        sendData destination length messagePayload' Settings.init) :=
  data_typed_back (fun _ => 0) (fun _ => 0xFF) "c001".toList Settings.init (by decide)

end ConnectNcpHost.App.Commands
