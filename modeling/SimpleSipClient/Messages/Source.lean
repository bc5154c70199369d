import SimpleSipClient.Foundation.Formatting
import SimpleSipClient.Foundation.Sequence
import SimpleSipClient.MediaClient.Source

/-! # The texts of the SIP side

The routines of `MediaClient` once more, for what they say: the addresses, bodies and
headers that they print into buffers of fixed size and hand to PJSIP. A `QString` is its
UTF-8 form. Which PJSIP calls succeed is an input. Every print is an event, with the
format and what the buffer holds afterwards; a print beyond its buffer ends the run.
-/

namespace SimpleSipClient.Messages

open Foundation
open MediaClient (RegcOutcome InviteOutcome)

/-! ## Parameters -/

structure TransportContext where
  fromID : Text
  fromIP : Text
  fromPort : UInt16
  toID : Text
  toIP : Text
  toPort : UInt16
  contactID : Text
  contactIP : Text
  contactPort : UInt16

structure SIPClient where
  sipserverID : Text
  sipserverAddress : Text
  sipserverPort : UInt16
  localDeviceID : Text
  localAddress : Text
  localSipPort : UInt16
  localPasswd : Text
  regValidSeconds : Nat

/-- The texts in the line edits. -/
structure Fields where
  edServid : Text
  edserverip : Text
  edServSipport : Text
  edClientID : Text
  edclientip : Text
  edclientSipport : Text

/-- The From and To that a dialog was created with. -/
structure Dialog where
  localUri : Text
  remoteUri : Text
  deriving DecidableEq, Repr

/-- `invitedlg` is the dialog that was created last, if there was one. -/
structure State where
  tsxContext : TransportContext
  sipClientparam : SIPClient
  invInit : Bool
  invitedlg : Option Dialog

/-! ## Events -/

inductive Buffer where
  | localstr
  | dststr
  | username
  | passwd
  | fromstr
  | contactstr
  | targetstr
  | tostr
  | str
  | subjectUrl
  | querInfo
  deriving DecidableEq, Repr

/-- What `pjsip_regc_send` is called with, the registration's addresses included. -/
structure RegisterRequest where
  unregister : Bool
  srvUrl : Text
  fromUrl : Text
  toUrl : Text
  contact : Text
  expires : Nat
  username : Text
  passwd : Text
  deriving DecidableEq, Repr

/-- A MESSAGE outside a dialog. -/
structure MessageRequest where
  targetstr : Text
  fromstr : Text
  tostr : Text
  contactstr : Text
  text : Text
  deriving DecidableEq, Repr

inductive Event where
  | format (buffer : Buffer) (size : Nat) (ps : List Piece) (text : Text)
  | register (r : RegisterRequest)
  | createDialog (dlg : Dialog)
  | invite (dlg : Option Dialog) (sdp : Text) (subject : Text)
  | message (m : MessageRequest)
  deriving DecidableEq, Repr

abbrev Client := Traced Event State

/-- `pj_ansi_sprintf` does not know the size of the buffer. -/
def sprintf (buffer : Buffer) (size : Nat) (ps : List Piece) : Client Text := do
  Traced.emit (.format buffer size ps (printed ps))
  if (printed ps).length < size then return printed ps
  else Traced.halt .invalid

def snprintf (buffer : Buffer) (size : Nat) (ps : List Piece) : Client Text := do
  Traced.emit (.format buffer size ps (bounded size ps))
  return bounded size ps

/-! ## From the fields to the parameters -/

def isSpace (b : UInt8) : Bool := b == 32 || (decide (9 ≤ b) && decide (b ≤ 13))

def isDigit (b : UInt8) : Bool := decide (48 ≤ b) && decide (b ≤ 57)

def decimalValue (text : Text) : Option Nat :=
  if text ≠ [] ∧ text.all isDigit then
    some (text.foldl (fun n b => 10 * n + (b.toNat - 48)) 0)
  else none

def trimmed (text : Text) : Text :=
  ((text.dropWhile isSpace).reverse.dropWhile isSpace).reverse

def signedValue : Text → Option Int
  | 43 :: digits => (decimalValue digits).map fun (n : Nat) => (n : Int)
  | 45 :: digits => (decimalValue digits).map fun (n : Nat) => -(n : Int)
  | digits => (decimalValue digits).map fun (n : Nat) => (n : Int)

/-- `QString::toShort`: zero for what is no number or out of range. -/
def toShort (text : Text) : Int :=
  match signedValue (trimmed text) with
  | some v => if -32768 ≤ v ∧ v ≤ 32767 then v else 0
  | none => 0

/-- An empty field stands for a default. -/
def orDefault (field : Text) (default : String) : Text :=
  if field.isEmpty then ascii default else field

def setClientParamContext (ui : Fields) : Client Unit := do
  let serverid := orDefault ui.edServid "34020000000020000001"
  let serverip := orDefault ui.edserverip "192.168.1.110"
  let clientid := orDefault ui.edClientID "34020000001320000001"
  let clientip := orDefault ui.edclientip "192.168.1.64"
  let s ← Traced.get
  Traced.set { s with
    tsxContext := {
      fromID := clientid
      fromIP := clientip
      fromPort := UInt16.ofInt (toShort ui.edclientSipport)
      toID := serverid
      toIP := serverip
      toPort := UInt16.ofInt (toShort ui.edServSipport)
      contactID := clientid
      contactIP := clientip
      contactPort := UInt16.ofInt (toShort ui.edclientSipport) }
    sipClientparam := {
      localAddress := clientip
      localDeviceID := clientid
      localSipPort := UInt16.ofInt (toShort ui.edclientSipport)
      localPasswd := ascii "12345678"
      sipserverAddress := serverip
      sipserverID := serverid
      sipserverPort := UInt16.ofInt (toShort ui.edServSipport)
      regValidSeconds := 600 } }

/-! ## Registration -/

/-- `<sip:%s@%s:%d>` -/
def nameAddr (id address : Text) (port : Nat) : List Piece :=
  [.literal "<sip:", .string id, .literal "@", .string address, .literal ":", .decimal port,
    .literal ">"]

/-- `tdata` is used whether or not the call that creates it succeeds. -/
def regcRequest (unregister : Bool) (o : RegcOutcome) (cltparam : SIPClient) : Client Unit :=
  if o.create then do
    let localstr ← sprintf .localstr 64
      (nameAddr cltparam.localDeviceID cltparam.localAddress cltparam.localSipPort.toNat)
    let dststr ← sprintf .dststr 64
      (nameAddr cltparam.sipserverID cltparam.sipserverAddress cltparam.sipserverPort.toNat)
    if o.init then do
      let username ← snprintf .username 64 [.string cltparam.localDeviceID]
      let passwd ← snprintf .passwd 64 [.string cltparam.localPasswd]
      if o.message then
        Traced.emit (.register {
          unregister := unregister
          srvUrl := dststr
          fromUrl := localstr
          toUrl := localstr
          contact := localstr
          expires := cltparam.regValidSeconds
          username := username
          passwd := passwd })
      else Traced.halt .invalid
    else pure ()
  else pure ()

def registerClient (o : RegcOutcome) (cltparam : SIPClient) : Client Unit :=
  regcRequest false o cltparam

def unregisterClient (o : RegcOutcome) (cltparam : SIPClient) : Client Unit :=
  regcRequest true o cltparam

/-! ## Addresses of dialogs and messages -/

/-- `sip:%s@%s:%d` -/
def uri (id address : Text) (port : Nat) : List Piece :=
  [.literal "sip:", .string id, .literal "@", .string address, .literal ":", .decimal port]

structure Uris where
  fromstr : Text
  contactstr : Text
  targetstr : Text
  tostr : Text

/-- The four prints that `initInvParam`, `queryDeviveInfo` and `sendKeepAlive` begin with. -/
def printUris (tsxContext : TransportContext) : Client Uris := do
  let fromstr ← snprintf .fromstr 64
    (uri tsxContext.fromID tsxContext.fromIP tsxContext.fromPort.toNat)
  let contactstr ← snprintf .contactstr 64
    (uri tsxContext.fromID tsxContext.fromIP tsxContext.contactPort.toNat)
  let targetstr ← snprintf .targetstr 64
    (uri tsxContext.toID tsxContext.toIP tsxContext.toPort.toNat)
  let tostr ← snprintf .tostr 64 (uri tsxContext.toID tsxContext.toIP tsxContext.toPort.toNat)
  return ⟨fromstr, contactstr, targetstr, tostr⟩

/-! ## INVITE -/

def initInvParam (o : InviteOutcome) (tsxContext : TransportContext) : Client Bool := do
  let s ← Traced.get
  if s.invInit then return true
  else if o.usageInit then
    let uris ← printUris tsxContext
    let dlg : Dialog := { localUri := uris.fromstr, remoteUri := uris.tostr }
    Traced.emit (.createDialog dlg)
    if o.dlgCreateUac then
      let s ← Traced.get
      Traced.set { s with invitedlg := some dlg, invInit := true }
      return true
    else return false
  else return false

def playSDP (deviceId recvip : Text) (mediaRecvPort : Nat) : List Piece :=
  [.literal "v=0\no=", .string deviceId, .literal " 0 0 IN IP4 ", .string recvip,
    .literal "\ns=Play\nc=IN IP4 ", .string recvip, .literal "\nt=0 0\nm=video ",
    .decimal mediaRecvPort, .literal " RTP/AVP 96 98 97\na=recvonly\na=rtpmap:96 PS/90000\n",
    .literal "a=rtpmap:98 H264/90000\na=rtpmap:97 MPEG4/90000\ny=0100000001\n"]

def createPlaySDP (fromDeviceid mediaRecvIp : Text) (mediaRecvPort : UInt16) : Client Text :=
  snprintf .str 512 (playSDP fromDeviceid mediaRecvIp mediaRecvPort.toNat)

def subject (localDeviceID deviceid : Text) : List Piece :=
  [.string localDeviceID, .literal ":0, ", .string deviceid, .literal ":0"]

/-- The INVITE has the From and To of its dialog. `mediaRecvPort` is carried by its 16 bits. -/
def sendInvite (o : InviteOutcome) (deviceid mediaRecvIp : Text) (mediaRecvPort : UInt16) :
    Client Bool := do
  let s ← Traced.get
  if ← initInvParam o s.tsxContext then
    if o.invCreateUac then
      if o.invInvite then
        let sdp ← createPlaySDP deviceid mediaRecvIp mediaRecvPort
        let subjectUrl ← snprintf .subjectUrl 128
          (subject s.sipClientparam.localDeviceID deviceid)
        let s ← Traced.get
        if o.invSendMsg = .sent then Traced.emit (.invite s.invitedlg sdp subjectUrl) else pure ()
        return true
      else return false
    else return false
  else return false

/-! ## Messages outside a dialog -/

/-- `tdata` is used whether or not it has been created. -/
def endptRequest (created : Bool) (body : List Piece) : Client Unit := do
  let s ← Traced.get
  let uris ← printUris s.tsxContext
  let querInfo ← snprintf .querInfo 256 body
  if created then
    Traced.emit (.message {
      targetstr := uris.targetstr
      fromstr := uris.fromstr
      tostr := uris.tostr
      contactstr := uris.contactstr
      text := querInfo })
  else Traced.halt .invalid

def queryInfo (cmdType deviceid : Text) : List Piece :=
  [.literal "<?xml version=\"1.0\" encoding=\"UTF-8\"?>\n<Query>\n<CmdType>", .string cmdType,
    .literal "</CmdType>\n<SN>17430</SN>\n<DeviceID>", .string deviceid,
    .literal "</DeviceID>\n</Query>\n"]

def queryDeviveInfo (created : Bool) (deviceid cmdType : Text) : Client Unit :=
  endptRequest created (queryInfo cmdType deviceid)

def keepAliveInfo (deviceid : Text) : List Piece :=
  [.literal "<?xml version=\"1.0\" encoding=\"UTF-8\"?>\n<Notify>\n<CmdType>Keepalive</CmdType>\n",
    .literal "<SN>43</SN>\n<DeviceID>", .string deviceid, .literal "</DeviceID>\n</Notify>\n"]

def sendKeepAlive (created : Bool) (deviceid : Text) : Client Unit :=
  endptRequest created (keepAliveInfo deviceid)

/-- One entry for each round of the loop: the outcome of its request. -/
def keepAliveThread (rounds : List Bool) : Client Unit :=
  Traced.forEach (fun created => sendKeepAlive created (ascii "34020000001320000001")) rounds

/-! ## Operations -/

inductive Operation where
  | registerClient (o : RegcOutcome)
  | unregisterClient (o : RegcOutcome)
  | sendInvite (o : InviteOutcome) (deviceid mediaRecvIp : Text) (mediaRecvPort : UInt16)
  | queryDeviveInfo (created : Bool) (deviceid cmdType : Text)
  | sendKeepAlive (created : Bool) (deviceid : Text)

/-- The client registers with its own parameters. -/
def perform : Operation → Client Unit
  | .registerClient o => do
      let s ← Traced.get
      registerClient o s.sipClientparam
  | .unregisterClient o => do
      let s ← Traced.get
      unregisterClient o s.sipClientparam
  | .sendInvite o deviceid mediaRecvIp mediaRecvPort => do
      let _ ← sendInvite o deviceid mediaRecvIp mediaRecvPort
  | .queryDeviveInfo created deviceid cmdType => queryDeviveInfo created deviceid cmdType
  | .sendKeepAlive created deviceid => sendKeepAlive created deviceid

end SimpleSipClient.Messages
