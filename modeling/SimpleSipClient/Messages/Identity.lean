import Mathlib.Data.List.TakeWhile
import SimpleSipClient.Foundation.Runs
import SimpleSipClient.Messages.Capacity

/-! # One identity everywhere

The fields are copied into two records, and six routines print addresses from one or the
other. They agree with what was typed as long as a port survives the conversion to a
short, the addresses fit into the smallest buffers, and the client's id is the one that
the keep-alive thread has built in.
-/

namespace SimpleSipClient.Messages

open Foundation
open MediaClient (RegcOutcome InviteOutcome)

/-! ## What was typed -/

/-- The fields, with the ports that the user means. -/
structure Typed where
  ui : Fields
  clientPort : Nat
  serverPort : Nat
  clientPort_text : decimalValue ui.edclientSipport = some clientPort
  serverPort_text : decimalValue ui.edServSipport = some serverPort
  clientPort_range : 1 ≤ clientPort ∧ clientPort ≤ 65535
  serverPort_range : 1 ≤ serverPort ∧ serverPort ≤ 65535

namespace Typed

variable (t : Typed)

/-- Where nothing is typed, the default that an empty field stands for. -/
def clientID : Text := orDefault t.ui.edClientID "34020000001320000001"
def clientip : Text := orDefault t.ui.edclientip "192.168.1.64"
def serverid : Text := orDefault t.ui.edServid "34020000000020000001"
def serverip : Text := orDefault t.ui.edserverip "192.168.1.110"

def clientUri : List Piece := uri t.clientID t.clientip t.clientPort
def serverUri : List Piece := uri t.serverid t.serverip t.serverPort
def clientAddr : List Piece := nameAddr t.clientID t.clientip t.clientPort
def serverAddr : List Piece := nameAddr t.serverid t.serverip t.serverPort

end Typed

/-- The dialog of a client and a server as they were typed. -/
def Typed.dialog (t : Typed) : Dialog where
  localUri := whole t.clientUri
  remoteUri := whole t.serverUri

/-- A request carries the addresses of the client and the server as they were typed, an INVITE
those of its dialog. -/
def Event.names (t : Typed) : Event → Prop
  | .register r =>
      r.fromUrl = whole t.clientAddr ∧ r.toUrl = whole t.clientAddr ∧
        r.contact = whole t.clientAddr ∧ r.srvUrl = whole t.serverAddr
  | .createDialog dlg => dlg = t.dialog
  | .invite dlg _ _ => dlg = some t.dialog
  | .message m =>
      m.fromstr = whole t.clientUri ∧ m.contactstr = whole t.clientUri ∧
        m.tostr = whole t.serverUri ∧ m.targetstr = whole t.serverUri
  | .format _ _ _ _ => True

def configured (t : Typed) (x : Client Unit) : Client Unit := do
  setClientParamContext t.ui
  x

/-- Every request of every operation names who was typed, with no buffer overrun on the
way, and every keep-alive of the thread is about the registered client. -/
structure OneIdentity (s : State) (t : Typed) : Prop where
  addresses : ∀ op, ∀ e ∈ (configured t (perform op) s).events, e.contained ∧ e.names t
  keepAlive : ∀ rounds m, .message m ∈ (configured t (keepAliveThread rounds) s).events →
    m.text = whole (keepAliveInfo t.clientID)

/-- Ports of fifteen bits, the built-in id, and addresses that fit with their brackets. -/
structure Uniform (t : Typed) : Prop where
  clientPort : t.clientPort ≤ 32767
  serverPort : t.serverPort ≤ 32767
  clientID : t.clientID = ascii "34020000001320000001"
  client : Fits 64 t.clientAddr
  server : Fits 64 t.serverAddr

/-- A dialog that `initInvParam` takes as it is was created for the same client and server. -/
def Unchanged (s : State) (t : Typed) : Prop := s.invInit = true → s.invitedlg = some t.dialog

/-! ## Ports -/

theorem isDigit_spec {b : UInt8} (h : isDigit b = true) :
    isSpace b = false ∧ b ≠ 43 ∧ b ≠ 45 := by
  rw [isDigit, Bool.and_eq_true, decide_eq_true_eq, decide_eq_true_eq, UInt8.le_iff_toNat_le,
    UInt8.le_iff_toNat_le] at h
  have h48 : (48 : UInt8).toNat = 48 := rfl
  have h57 : (57 : UInt8).toNat = 57 := rfl
  rw [h48, h57] at h
  have hne (c : UInt8) (hc : c.toNat < 48) : b ≠ c := by
    rintro rfl
    omega
  refine ⟨?_, hne 43 (by decide), hne 45 (by decide)⟩
  have hle : ¬ b ≤ 13 := by
    rw [UInt8.le_iff_toNat_le]
    have h13 : (13 : UInt8).toNat = 13 := rfl
    omega
  simp [isSpace, hne 32 (by decide), hle]

theorem trimmed_digits {text : Text} (h : text.all isDigit = true) : trimmed text = text := by
  have hdrop (xs : Text) (hxs : ∀ b ∈ xs, isDigit b = true) : xs.dropWhile isSpace = xs := by
    refine List.dropWhile_eq_self_iff.mpr fun hlen => ?_
    rw [(isDigit_spec (hxs _ (List.getElem_mem hlen))).1]
    decide
  rw [List.all_eq_true] at h
  rw [trimmed, hdrop text h, hdrop text.reverse fun b hb => h b (List.mem_reverse.mp hb),
    List.reverse_reverse]

theorem signedValue_digits {text : Text} (h : text.all isDigit = true) :
    signedValue text = (decimalValue text).map fun (n : Nat) => (n : Int) := by
  rw [List.all_eq_true] at h
  unfold signedValue
  split
  · exact absurd rfl (isDigit_spec (h 43 List.mem_cons_self)).2.1
  · exact absurd rfl (isDigit_spec (h 45 List.mem_cons_self)).2.2
  · rfl

/-- The port that is left of the typed one. -/
def shortPort (n : Nat) : Nat := if n ≤ 32767 then n else 0

theorem toShort_decimal {text : Text} {n : Nat} (h : decimalValue text = some n) :
    toShort text = (shortPort n : Int) := by
  have hdigits : text.all isDigit = true := by
    rw [decimalValue] at h
    split at h
    · exact ‹text ≠ [] ∧ text.all isDigit = true›.2
    · cases h
  rw [toShort, trimmed_digits hdigits, signedValue_digits hdigits, h, Option.map_some, shortPort]
  simp only
  by_cases hn : n ≤ 32767
  · rw [if_pos hn, if_pos (by omega)]
  · rw [if_neg hn, if_neg (by omega)]
    rfl

theorem port_decimal {text : Text} {n : Nat} (h : decimalValue text = some n) :
    (UInt16.ofInt (toShort text)).toNat = shortPort n := by
  have hsmall : shortPort n < 2 ^ 16 := by
    rw [shortPort]
    split <;> omega
  have hmod : ((shortPort n : Int) % 2 ^ 16).toNat = shortPort n := by omega
  rw [toShort_decimal h, UInt16.ofInt, hmod, UInt16.toNat_ofNat_of_lt' hsmall]

/-- A port that does not survive the conversion is printed shorter than it was typed. -/
theorem port_survives {n : Nat}
    (h : (decimalText n).length ≤ (decimalText (shortPort n)).length) : n ≤ 32767 := by
  by_contra hn
  have hzero : (decimalText 0).length ≤ 1 := (decimalText_length_le (by decide)).mpr (by decide)
  rw [shortPort, if_neg hn] at h
  have hlt : n < 10 ^ 1 := (decimalText_length_le (by decide)).mp (Nat.le_trans h hzero)
  omega

/-! ## The parameters -/

/-- The state after the fields have been copied. -/
def Typed.filled (t : Typed) (s : State) : State where
  tsxContext := {
    fromID := t.clientID
    fromIP := t.clientip
    fromPort := UInt16.ofInt (toShort t.ui.edclientSipport)
    toID := t.serverid
    toIP := t.serverip
    toPort := UInt16.ofInt (toShort t.ui.edServSipport)
    contactID := t.clientID
    contactIP := t.clientip
    contactPort := UInt16.ofInt (toShort t.ui.edclientSipport) }
  sipClientparam := {
    localAddress := t.clientip
    localDeviceID := t.clientID
    localSipPort := UInt16.ofInt (toShort t.ui.edclientSipport)
    localPasswd := ascii "12345678"
    sipserverAddress := t.serverip
    sipserverID := t.serverid
    sipserverPort := UInt16.ofInt (toShort t.ui.edServSipport)
    regValidSeconds := 600 }
  invInit := s.invInit
  invitedlg := s.invitedlg

section Filled

variable (t : Typed) (s : State)

theorem configured_run (x : Client Unit) : configured t x s = x (t.filled s) := by
  rw [configured, setClientParamContext, Traced.bind_run, Traced.get_bind]
  rfl

theorem localAddr_filled : localAddr (t.filled s).sipClientparam =
    nameAddr t.clientID t.clientip (shortPort t.clientPort) := by
  rw [← port_decimal t.clientPort_text]
  rfl

theorem dstAddr_filled : dstAddr (t.filled s).sipClientparam =
    nameAddr t.serverid t.serverip (shortPort t.serverPort) := by
  rw [← port_decimal t.serverPort_text]
  rfl

theorem fromUri_filled : fromUri (t.filled s).tsxContext =
    uri t.clientID t.clientip (shortPort t.clientPort) := by
  rw [← port_decimal t.clientPort_text]
  rfl

theorem contactUri_filled : contactUri (t.filled s).tsxContext =
    uri t.clientID t.clientip (shortPort t.clientPort) := by
  rw [← port_decimal t.clientPort_text]
  rfl

theorem toUri_filled : toUri (t.filled s).tsxContext =
    uri t.serverid t.serverip (shortPort t.serverPort) := by
  rw [← port_decimal t.serverPort_text]
  rfl

end Filled

/-! ## Addresses -/

theorem whole_nameAddr_length (id address : Text) (n : Nat) :
    (whole (nameAddr id address n)).length =
      8 + id.length + address.length + (decimalText n).length := by
  have hopen : (ascii "<sip:").length = 5 := by decide
  have hat : (ascii "@").length = 1 := by decide
  have hcolon : (ascii ":").length = 1 := by decide
  have hclose : (ascii ">").length = 1 := by decide
  simp only [whole, nameAddr, List.flatMap_cons, List.flatMap_nil, Piece.whole,
    List.length_append, List.length_nil, hopen, hat, hcolon, hclose]
  omega

theorem whole_uri_length (id address : Text) (n : Nat) :
    (whole (uri id address n)).length + 2 = (whole (nameAddr id address n)).length := by
  have hopen : (ascii "sip:").length = 4 := by decide
  have hat : (ascii "@").length = 1 := by decide
  have hcolon : (ascii ":").length = 1 := by decide
  rw [whole_nameAddr_length]
  simp only [whole, uri, List.flatMap_cons, List.flatMap_nil, Piece.whole,
    List.length_append, List.length_nil, hopen, hat, hcolon]
  omega

theorem noZero_uri {id address : Text} {n : Nat} :
    NoZero (uri id address n) ↔ NoZero (nameAddr id address n) := by
  simp [NoZero, uri, nameAddr]

/-- An address that fits with its brackets fits without them. -/
theorem fits_uri {id address : Text} {n : Nat} (h : Fits 64 (nameAddr id address n)) :
    Fits 64 (uri id address n) := by
  have hlen := whole_uri_length id address n
  exact ⟨noZero_uri.mpr h.1, by have := h.2; omega⟩

/-- An address that is printed as it was typed has kept its port and its strings. -/
theorem address_kept {id address : Text} {n : Nat}
    (h : printed (nameAddr id address (shortPort n)) = whole (nameAddr id address n))
    (hfits : (printed (nameAddr id address (shortPort n))).length < 64) :
    n ≤ 32767 ∧ Fits 64 (nameAddr id address n) := by
  have hlen := congrArg List.length h
  have hle := printed_length_le (nameAddr id address (shortPort n))
  rw [whole_nameAddr_length] at hlen hle
  have hport : n ≤ 32767 := port_survives (by omega)
  have hsame : shortPort n = n := if_pos hport
  rw [hsame] at h hfits
  refine ⟨hport, (printed_length_eq _).mp (congrArg List.length h), ?_⟩
  rwa [← h]

/-! ## What the requests carry -/

/-- A cut print, or a request with these addresses. -/
theorem regcRequest_mem {unregister : Bool} {o : RegcOutcome} {p : SIPClient} {s : State}
    {e : Event} (he : e ∈ (regcRequest unregister o p s).events) :
    (∃ buffer size ps text, e = .format buffer size ps text) ∨
      e = .register (registerRequest unregister p) := by
  have hrest : e ∈ regcEvents unregister o p →
      (∃ buffer size ps text, e = .format buffer size ps text) ∨
        e = .register (registerRequest unregister p) := by
    intro he
    rw [regcEvents] at he
    split at he
    · rcases List.mem_append.mp he with he | he
      · simp only [credentialEvents, List.mem_cons, List.not_mem_nil, or_false] at he
        rcases he with rfl | rfl
        · exact .inl ⟨_, _, _, _, rfl⟩
        · exact .inl ⟨_, _, _, _, rfl⟩
      · split at he
        · exact .inr (List.mem_singleton.mp he)
        · cases he
    · cases he
  rw [regcRequest_events] at he
  split at he
  · split at he
    · split at he
      · rcases List.mem_cons.mp he with rfl | he
        · exact .inl ⟨_, _, _, _, rfl⟩
        · rcases List.mem_cons.mp he with rfl | he
          · exact .inl ⟨_, _, _, _, rfl⟩
          · exact hrest he
      · simp only [List.mem_cons, List.not_mem_nil, or_false] at he
        rcases he with rfl | rfl
        · exact .inl ⟨_, _, _, _, rfl⟩
        · exact .inl ⟨_, _, _, _, rfl⟩
    · rw [List.mem_singleton.mp he]
      exact .inl ⟨_, _, _, _, rfl⟩
  · cases he

/-- A print into a buffer, cut where the buffer ends. -/
def IsPrint (e : Event) : Prop := ∃ buffer size ps, 0 < size ∧ e = printEvent buffer size ps

theorem isPrint_uriEvents {t : TransportContext} {e : Event} (he : e ∈ uriEvents t) :
    IsPrint e := by
  simp only [uriEvents, List.mem_cons, List.not_mem_nil, or_false] at he
  rcases he with rfl | rfl | rfl | rfl
  · exact ⟨_, 64, _, by decide, rfl⟩
  · exact ⟨_, 64, _, by decide, rfl⟩
  · exact ⟨_, 64, _, by decide, rfl⟩
  · exact ⟨_, 64, _, by decide, rfl⟩

theorem sendInvite_mem {o : InviteOutcome} {deviceid mediaRecvIp : Text}
    {mediaRecvPort : UInt16} {s : State} {e : Event}
    (he : e ∈ (sendInvite o deviceid mediaRecvIp mediaRecvPort s).events) :
    IsPrint e ∨ e = .createDialog (newDialog s.tsxContext) ∨
      initOk o s = true ∧
        ∃ sdp subjectUrl, e = .invite (initState o s).invitedlg sdp subjectUrl := by
  rw [sendInvite_events] at he
  rcases List.mem_append.mp he with he | he
  · rw [initEvents] at he
    split at he
    · cases he
    · split at he
      · rcases List.mem_append.mp he with he | he
        · exact .inl (isPrint_uriEvents he)
        · exact .inr (.inl (List.mem_singleton.mp he))
      · cases he
  · by_cases hreach : (initOk o s && (o.invCreateUac && o.invInvite)) = true
    · rw [if_pos hreach, inviteEvents] at he
      rw [Bool.and_eq_true] at hreach
      rcases List.mem_cons.mp he with rfl | he
      · exact .inl ⟨_, 512, _, by decide, rfl⟩
      · rcases List.mem_cons.mp he with rfl | he
        · exact .inl ⟨_, 128, _, by decide, rfl⟩
        · split at he
          · exact .inr (.inr ⟨hreach.1, _, _, List.mem_singleton.mp he⟩)
          · cases he
    · rw [if_neg hreach] at he
      cases he

theorem endptRequest_mem {created : Bool} {body : List Piece} {s : State} {e : Event}
    (he : e ∈ (endptRequest created body s).events) :
    IsPrint e ∨ e = .message (messageRequest body s) := by
  rw [endptRequest_run] at he
  rcases List.mem_append.mp he with he | he
  · exact .inl (isPrint_uriEvents he)
  · rcases List.mem_cons.mp he with rfl | he
    · exact .inl ⟨_, 256, _, by decide, rfl⟩
    · split at he
      · exact .inr (List.mem_singleton.mp he)
      · cases he

section Good

variable {t : Typed} {s : State}

theorem isPrint_good {e : Event} (h : IsPrint e) : e.contained ∧ e.names t := by
  rcases h with ⟨buffer, size, ps, hsize, rfl⟩
  exact ⟨printEvent_contained hsize buffer ps, trivial⟩

theorem bounded_fits {ps : List Piece} (h : Fits 64 ps) : bounded 64 ps = whole ps :=
  (bounded_eq_whole_iff (by decide) ps).mpr h

theorem addresses_uniform (h : Uniform t) :
    localAddr (t.filled s).sipClientparam = t.clientAddr ∧
      dstAddr (t.filled s).sipClientparam = t.serverAddr ∧
        fromUri (t.filled s).tsxContext = t.clientUri ∧
          contactUri (t.filled s).tsxContext = t.clientUri ∧
            toUri (t.filled s).tsxContext = t.serverUri := by
  have hclient : shortPort t.clientPort = t.clientPort := if_pos h.clientPort
  have hserver : shortPort t.serverPort = t.serverPort := if_pos h.serverPort
  rw [localAddr_filled, dstAddr_filled, fromUri_filled, contactUri_filled, toUri_filled,
    hclient, hserver]
  exact ⟨rfl, rfl, rfl, rfl, rfl⟩

theorem regcRequest_good (h : Uniform t) (unregister : Bool) (o : RegcOutcome) :
    ∀ e ∈ (regcRequest unregister o (t.filled s).sipClientparam (t.filled s)).events,
      e.contained ∧ e.names t := by
  rcases addresses_uniform (s := s) h with ⟨hlocal, hdst, -⟩
  have hprinted : printed t.clientAddr = whole t.clientAddr := printed_eq_whole h.client.1
  have hprinted' : printed t.serverAddr = whole t.serverAddr := printed_eq_whole h.server.1
  have hfits : AddressesFit (t.filled s).sipClientparam := by
    rw [AddressesFit, hlocal, hdst, hprinted, hprinted']
    exact ⟨h.client.2, h.server.2⟩
  intro e he
  refine ⟨(regcRequest_contained unregister o _ _).mpr (fun _ => hfits) e he, ?_⟩
  rcases regcRequest_mem he with ⟨_, _, _, _, rfl⟩ | rfl
  · trivial
  · simp only [Event.names, registerRequest, hlocal, hdst, hprinted, hprinted', and_self]

theorem newDialog_filled (h : Uniform t) : newDialog (t.filled s).tsxContext = t.dialog := by
  rcases addresses_uniform (s := s) h with ⟨-, -, hfrom, -, hto⟩
  have hclient : bounded 64 t.clientUri = whole t.clientUri := bounded_fits (fits_uri h.client)
  have hserver : bounded 64 t.serverUri = whole t.serverUri := bounded_fits (fits_uri h.server)
  rw [newDialog, hfrom, hto, hclient, hserver]
  rfl

/-- The INVITE goes out on the new dialog or on the one that was there. -/
theorem initState_dialog (h : Uniform t) (hsame : Unchanged s t) {o : InviteOutcome}
    (hok : initOk o (t.filled s) = true) :
    (initState o (t.filled s)).invitedlg = some t.dialog := by
  rw [initState]
  cases hinit : (t.filled s).invInit with
  | true =>
      rw [if_neg (by simp)]
      exact hsame hinit
  | false =>
      rw [if_pos ⟨rfl, hok⟩]
      exact congrArg some (newDialog_filled h)

theorem sendInvite_good (h : Uniform t) (hsame : Unchanged s t) (o : InviteOutcome)
    (deviceid mediaRecvIp : Text) (mediaRecvPort : UInt16) :
    ∀ e ∈ (sendInvite o deviceid mediaRecvIp mediaRecvPort (t.filled s)).events,
      e.contained ∧ e.names t := by
  intro e he
  rcases sendInvite_mem he with hprint | rfl | ⟨hok, _, _, rfl⟩
  · exact isPrint_good hprint
  · exact ⟨trivial, newDialog_filled h⟩
  · exact ⟨trivial, initState_dialog h hsame hok⟩

theorem endptRequest_good (h : Uniform t) (created : Bool) (body : List Piece) :
    ∀ e ∈ (endptRequest created body (t.filled s)).events, e.contained ∧ e.names t := by
  rcases addresses_uniform (s := s) h with ⟨-, -, hfrom, hcontact, hto⟩
  have hclient := bounded_fits (fits_uri h.client)
  have hserver := bounded_fits (fits_uri h.server)
  intro e he
  rcases endptRequest_mem he with hprint | rfl
  · exact isPrint_good hprint
  · simp only [Event.contained, Event.names, messageRequest, hfrom, hcontact, hto, true_and]
    exact ⟨hclient, hclient, hserver, hserver⟩

end Good

/-! ## The keep-alive thread -/

theorem whole_keepAliveInfo_inj {id id' : Text}
    (h : whole (keepAliveInfo id) = whole (keepAliveInfo id')) : id = id' := by
  simp only [whole, keepAliveInfo, List.flatMap_cons, List.flatMap_nil, Piece.whole,
    List.append_nil] at h
  exact List.append_cancel_right (List.append_cancel_left (List.append_cancel_left h))

theorem builtIn_fits : bounded 256 (keepAliveInfo (ascii "34020000001320000001")) =
    whole (keepAliveInfo (ascii "34020000001320000001")) := by
  decide +kernel

theorem keepAliveThread_text {rounds : List Bool} {s : State} {m : MessageRequest}
    (hm : .message m ∈ (keepAliveThread rounds s).events) :
    m.text = whole (keepAliveInfo (ascii "34020000001320000001")) := by
  rw [keepAliveThread, Traced.forEach_events] at hm
  rcases List.mem_flatMap.mp hm with ⟨v, -, hm⟩
  rcases endptRequest_mem hm with ⟨_, _, _, _, hprint⟩ | hmessage
  · cases hprint
  · rw [Event.message.inj hmessage, messageRequest, builtIn_fits]

theorem keepAliveThread_sends (s : State) :
    .message (messageRequest (keepAliveInfo (ascii "34020000001320000001")) s) ∈
      (keepAliveThread [true] s).events := by
  rw [keepAliveThread, Traced.forEach_events, Traced.visits_singleton, List.flatMap_singleton,
    sendKeepAlive, endptRequest_run]
  simp

/-! ## Agreement -/

section Agreement

variable {t : Typed} {s : State}

theorem oneIdentity_of_uniform (h : Uniform t) (hsame : Unchanged s t) : OneIdentity s t := by
  constructor
  · intro op
    rw [configured_run]
    cases op with
    | registerClient o => exact regcRequest_good h false o
    | unregisterClient o => exact regcRequest_good h true o
    | sendInvite o deviceid mediaRecvIp mediaRecvPort =>
        have hevents := sendInvite_good h hsame o deviceid mediaRecvIp mediaRecvPort
        rw [perform, Traced.bind_run]
        rcases hrun : sendInvite o deviceid mediaRecvIp mediaRecvPort (t.filled s) with
          ⟨es, _ | _⟩
        · rw [hrun] at hevents
          exact hevents
        · rw [hrun] at hevents
          simpa using hevents
    | queryDeviveInfo created deviceid cmdType => exact endptRequest_good h created _
    | sendKeepAlive created deviceid => exact endptRequest_good h created _
  · intro rounds m hm
    rw [configured_run] at hm
    rw [keepAliveThread_text hm, h.clientID]

/-- The registration alone shows whether the addresses agree. -/
theorem registered_addresses (h : OneIdentity s t) :
    (t.clientPort ≤ 32767 ∧ Fits 64 t.clientAddr) ∧
      t.serverPort ≤ 32767 ∧ Fits 64 t.serverAddr := by
  have hgood := h.addresses (.registerClient { create := true, init := true, message := true })
  have hrun : (configured t (perform (.registerClient
      { create := true, init := true, message := true })) s).events =
        (regcRequest false { create := true, init := true, message := true }
          (t.filled s).sipClientparam (t.filled s)).events := by
    rw [configured_run]
    rfl
  rw [hrun] at hgood
  have hfits := (regcRequest_contained false _ _ _).mp (fun e he => (hgood e he).1) rfl
  have hrequest : .register (registerRequest false (t.filled s).sipClientparam) ∈
      (regcRequest false { create := true, init := true, message := true }
        (t.filled s).sipClientparam (t.filled s)).events := by
    rw [regcRequest_events, if_pos rfl, if_pos hfits.1, if_pos hfits.2, regcEvents]
    simp
  rcases (hgood _ hrequest).2 with ⟨hfrom, -, -, hsrv⟩
  simp only [AddressesFit, localAddr_filled, dstAddr_filled] at hfits
  simp only [registerRequest, localAddr_filled, dstAddr_filled] at hfrom hsrv
  exact ⟨address_kept hfrom hfits.1, address_kept hsrv hfits.2⟩

theorem builtIn_id (h : OneIdentity s t) : t.clientID = ascii "34020000001320000001" := by
  have hmem : .message (messageRequest (keepAliveInfo (ascii "34020000001320000001"))
      (t.filled s)) ∈ (configured t (keepAliveThread [true]) s).events := by
    rw [configured_run]
    exact keepAliveThread_sends (t.filled s)
  have htext := h.keepAlive [true] _ hmem
  rw [messageRequest, builtIn_fits] at htext
  exact (whole_keepAliveInfo_inj htext).symm

/-- An INVITE on the dialog that is there shows what it was created for. -/
theorem dialog_unchanged (h : OneIdentity s t) : Unchanged s t := by
  intro hinit
  have hgood := h.addresses (.sendInvite ⟨true, true, true, true, .sent⟩ [] [] 0)
  have hsame : (initState ⟨true, true, true, true, .sent⟩ (t.filled s)).invitedlg =
      s.invitedlg := by
    have hfilled : (t.filled s).invInit = true := hinit
    rw [initState, if_neg (by simp [hfilled])]
    rfl
  have hinvite : .invite s.invitedlg (bounded 512 (sdpPieces [] [] 0))
      (bounded 128 (subjectPieces (t.filled s) [])) ∈
        (configured t (perform (.sendInvite ⟨true, true, true, true, .sent⟩ [] [] 0)) s).events := by
    have hfilled : (t.filled s).invInit = true := hinit
    rw [configured_run, perform]
    refine mem_events_bind ?_
    rw [sendInvite_events, inviteEvents, hsame]
    simp [initOk, hfilled]
  exact (hgood _ hinvite).2

end Agreement

/-- All requests carry one identity exactly when the ports have fifteen bits, the addresses
fit, the client is the one that the thread knows, and no dialog is left from other addresses. -/
theorem one_identity_iff (s : State) (t : Typed) :
    OneIdentity s t ↔ Uniform t ∧ Unchanged s t := by
  constructor
  · intro h
    rcases registered_addresses h with ⟨⟨hclient, hclientAddr⟩, hserver, hserverAddr⟩
    exact ⟨⟨hclient, hserver, builtIn_id h, hclientAddr, hserverAddr⟩, dialog_unchanged h⟩
  · exact fun h => oneIdentity_of_uniform h.1 h.2

/-- The defaults of the window, with another client id and a high server port. -/
def highPort : Typed where
  ui := {
    edServid := ascii "34020000000020000002"
    edserverip := ascii "192.168.5.138"
    edServSipport := ascii "40000"
    edClientID := ascii "34020000001320000009"
    edclientip := ascii "192.168.21.76"
    edclientSipport := ascii "5060" }
  clientPort := 5060
  serverPort := 40000
  clientPort_text := by decide
  serverPort_text := by decide
  clientPort_range := by decide
  serverPort_range := by decide

theorem highPort_not_one_identity : ¬ OneIdentity longId highPort := by
  intro h
  have hport := (registered_addresses h).2.1
  exact absurd hport (by decide)

end SimpleSipClient.Messages
