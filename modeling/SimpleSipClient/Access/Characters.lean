import SimpleSipClient.Access.Step
import SimpleSipClient.Access.Json

/-! # Text messages beyond ASCII

A text message is JSON in Unicode, but the slot parses and forwards its Latin-1 form. What
the message says is carried out exactly when that form happens to be UTF-8 and no string
that matters has changed: the stream and the address of a start command, or anything in a
face command, which is posted as a whole.
-/

namespace SimpleSipClient.Access

open Foundation SMS

/-! ## What a message says -/

inductive Branch where
  | login (heartbeat : Int)
  | start (ip : List UInt16) (port : Int) (code : List UInt16)
  | face
  | failure (reason : List UInt16)
  | nothing

def Branch.isStart : Branch → Prop
  | .start _ _ _ => True
  | _ => False

def Branch.isFace : Branch → Prop
  | .face => True
  | _ => False

def JsonDoc.branch (doc : JsonDoc) : Branch :=
  if (doc.object "type").toInt = 1 then
    if (doc.object "code").toInt = 200 then .login (doc.object "heartbeat").toInt else .nothing
  else if (doc.object "type").toInt = 3 then
    if (doc.object "cmd").toInt = 0x3000001 then
      .start (doc.object "sms_ip").toString (doc.object "sms_port").toInt
        (doc.object "stream_id").toString
    else if (doc.object "cmd").toInt = 0x3000002 ∨ (doc.object "cmd").toInt = 0x3000003 then .face
    else .nothing
  else if (doc.object "type").toInt = 5 then
    if (doc.object "result_code").toInt ≠ 0 then .failure (doc.object "result_reason").toString
    else .nothing
  else .nothing

def instructed (ws : WsState) (body : SMS.Bytes) : Branch → Handler Unit
  | .login heartbeat => do
      onHeartbeatTimeout ws
      startTimer (int32 (heartbeat * 1000))
  | .start ip port code => startSMS ip port code
  | .face => Traced.emit (.post body)
  | .failure reason => Traced.emit (.resultReason reason)
  | .nothing => pure ()

/-- The wording of the log is left open. -/
def Event.quiet : Event → Event
  | .unknownMessage _ => .unknownMessage []
  | .resultReason _ => .resultReason []
  | e => e

def Alike (x y : Exec Event State Unit) : Prop :=
  x.events.map Event.quiet = y.events.map Event.quiet ∧ x.outcome = y.outcome

section Messages

variable (toInt : Marks → Int) (fromJson : SMS.Bytes → JsonDoc)

/-- The message takes the branch that its text says, with the values that it says, and
what is posted is the text in UTF-8. -/
def Handled (ws : WsState) (t : JsonText) (s : State) : Prop :=
  Alike (onTextMessageReceived fromJson ws (utf16 t.chars) s)
    (instructed ws (utf8 t.chars) (t.meaning toInt).branch s)

/-- The parser reads the text of an object, here the text as it arrives. -/
def ReadsText (t : JsonText) : Prop := fromJson (utf8 t.reread.chars) = t.reread.meaning toInt

def AcceptsOnlyUtf8 : Prop :=
  ∀ bs, ¬ WellFormed bs → (fromJson bs).parseError = true ∧ (fromJson bs).isObject = false

/-- The strings that a start command uses are ASCII but for their escapes. -/
def PlainStart (t : JsonText) : Prop :=
  ∀ key ∈ ["sms_ip", "stream_id"], ∀ l, t.last key = some (.string l) →
    ∀ r ∈ l.stretches, Ascii r.chars

/-- The message survives Latin-1. -/
structure Readable (t : JsonText) : Prop where
  wellFormed : WellFormed (toLatin1 (utf16 t.chars))
  start : (t.meaning toInt).branch.isStart → PlainStart t
  face : (t.meaning toInt).branch.isFace → Ascii t.chars

/-! ## The branch that is taken -/

theorem onTextMessageReceived_branch {recv : List UInt16} (ws : WsState)
    (h : rejected fromJson recv = false) :
    onTextMessageReceived fromJson ws recv =
      instructed ws (toLatin1 recv) (document fromJson recv).branch := by
  rw [onTextMessageReceived, if_neg (by simp [h])]
  simp only [JsonDoc.branch, apply_ite (instructed ws (toLatin1 recv))]
  rfl

/-- How the branch of the reread text relates to the one of the text. -/
inductive Branch.Rereads (plain : Prop) : Branch → Branch → Prop where
  | login (heartbeat : Int) : Rereads plain (.login heartbeat) (.login heartbeat)
  | start {ip ip' code code' : List UInt16} (port : Int) (h : (ip' = ip ∧ code' = code) ↔ plain) :
      Rereads plain (.start ip port code) (.start ip' port code')
  | face : Rereads plain .face .face
  | failure (reason reason' : List UInt16) : Rereads plain (.failure reason) (.failure reason')
  | nothing : Rereads plain .nothing .nothing

theorem branch_rereads {t : JsonText} (h : ∀ r ∈ t.stretches, r.Decodable) :
    Branch.Rereads (PlainStart t) (t.meaning toInt).branch (t.reread.meaning toInt).branch := by
  have hint : ∀ key, PlainKey key →
      ((t.reread.meaning toInt).object key).toInt = ((t.meaning toInt).object key).toInt :=
    fun _ hkey => t.toInt_reread toInt hkey
  have hstart : ((t.reread.meaning toInt).object "sms_ip").toString =
        ((t.meaning toInt).object "sms_ip").toString ∧
      ((t.reread.meaning toInt).object "stream_id").toString =
        ((t.meaning toInt).object "stream_id").toString ↔ PlainStart t := by
    rw [JsonText.toString_reread_iff toInt (by decide) h,
      JsonText.toString_reread_iff toInt (by decide) h, PlainStart, List.forall_mem_cons,
      List.forall_mem_singleton]
  simp (disch := decide) only [JsonDoc.branch, hint]
  split
  · split
    · exact .login _
    · exact .nothing
  split
  · split
    · exact .start _ hstart
    split
    · exact .face
    · exact .nothing
  split
  · split
    · exact .failure _ _
    · exact .nothing
  · exact .nothing

/-! ## Carrying a branch out -/

theorem instructed_no_unknown (ws : WsState) (body : SMS.Bytes) (b : Branch) (s : State) :
    Event.unknownMessage [] ∉ (instructed ws body b s).events.map Event.quiet := by
  cases b with
  | login heartbeat =>
      cases ws <;>
        simp [instructed, onHeartbeatTimeout, startTimer, Traced.bind_run, Event.quiet]
  | start ip port code => simp [instructed, startSMS, Traced.get_bind]
  | face => simp [instructed, Event.quiet]
  | failure reason => simp [instructed, Event.quiet]
  | nothing => simp [instructed]

theorem startSMS_alike {ip ip' code code' : List UInt16} (port : Int) (s : State) :
    Alike (startSMS ip' port code' s) (startSMS ip port code s) ↔ ip' = ip ∧ code' = code := by
  simp only [Alike, startSMS, Traced.get_bind, Traced.set_run]
  constructor
  · rintro ⟨-, h⟩
    have hsessions := congrArg State.sessions (Prod.mk.inj (Except.ok.inj h)).2
    have hsession := List.cons.inj (List.append_cancel_left hsessions)
    have hfields := Session.mk.inj hsession.1
    exact ⟨hfields.1, congrArg SMS.State.code hfields.2.2⟩
  · rintro ⟨rfl, rfl⟩
    exact ⟨trivial, rfl⟩

/-- What it takes for the reread text to have the effect of the text. -/
theorem instructed_alike {plain : Prop} {b b' : Branch} (h : b.Rereads plain b') (ws : WsState)
    (body body' : SMS.Bytes) (s : State) :
    Alike (instructed ws body' b' s) (instructed ws body b s) ↔
      (b.isStart → plain) ∧ (b.isFace → body' = body) := by
  cases h with
  | login heartbeat => simp [Alike, instructed, Branch.isStart, Branch.isFace]
  | start port hplain =>
      simp only [instructed, Branch.isStart, Branch.isFace, true_imp_iff, false_imp_iff, and_true]
      exact (startSMS_alike port s).trans hplain
  | face => simp [Alike, instructed, Event.quiet, Branch.isStart, Branch.isFace]
  | failure reason reason' => simp [Alike, instructed, Event.quiet, Branch.isStart, Branch.isFace]
  | nothing => simp [Alike, instructed, Branch.isStart, Branch.isFace]

/-! ## Messages that are handled -/

section Handled

variable {toInt fromJson} {t : JsonText}

theorem not_handled_of_not_wellFormed (hutf8 : AcceptsOnlyUtf8 fromJson)
    (h : ¬ WellFormed (toLatin1 (utf16 t.chars))) (ws : WsState) (s : State) :
    ¬ Handled toInt fromJson ws t s := by
  intro halike
  rcases hutf8 _ h with ⟨herror, hobject⟩
  have hrejected : rejected fromJson (utf16 t.chars) = true := by
    simp [rejected, document, herror, hobject]
  have hcode : onTextMessageReceived fromJson ws (utf16 t.chars) =
      Traced.emit (.unknownMessage (utf16 t.chars)) := by
    rw [onTextMessageReceived, if_pos hrejected]
  have hevents := halike.1
  rw [hcode] at hevents
  have hno := instructed_no_unknown ws (utf8 t.chars) (t.meaning toInt).branch s
  rw [← hevents] at hno
  exact hno List.mem_cons_self

/-- A text whose Latin-1 form is UTF-8 is parsed as the reread text. -/
theorem handled_iff_of_wellFormed (hreads : ReadsText toInt fromJson t)
    (h : WellFormed (toLatin1 (utf16 t.chars))) (ws : WsState) (s : State) :
    Handled toInt fromJson ws t s ↔
      ((t.meaning toInt).branch.isStart → PlainStart t) ∧
        ((t.meaning toInt).branch.isFace → Ascii t.chars) := by
  have hstretches := t.wellFormed_iff.mp h
  have hbytes : utf8 t.reread.chars = toLatin1 (utf16 t.chars) := JsonText.readsAs hstretches
  have hdoc : document fromJson (utf16 t.chars) = t.reread.meaning toInt := by
    rw [document, ← hbytes]
    exact hreads
  have hok : rejected fromJson (utf16 t.chars) = false := by
    rw [rejected, hdoc]
    rfl
  rw [Handled, onTextMessageReceived_branch fromJson ws hok, hdoc,
    instructed_alike (branch_rereads toInt hstretches)]
  exact and_congr_right fun _ => imp_congr_right fun _ => latin1_eq_utf8_iff t.chars

end Handled

end Messages

/-! ## Two messages with names -/

/-- A number that is spelled in digits. -/
def decimal (m : Marks) : Int := m.chars.foldl (fun n c => n * 10 + (c.toNat - 48)) 0

/-- A parser that knows one text. -/
def parsesOnly (bs : SMS.Bytes) (doc : JsonDoc) (b : SMS.Bytes) : JsonDoc :=
  if b = bs then doc else { parseError := true, isObject := false, object := fun _ => .other }

theorem parsesOnly_readsText (toInt : Marks → Int) (t : JsonText) :
    ReadsText toInt (parsesOnly (utf8 t.reread.chars) (t.reread.meaning toInt)) t :=
  if_pos rfl

theorem parsesOnly_utf8 (cs : List Char) (doc : JsonDoc) :
    AcceptsOnlyUtf8 (parsesOnly (utf8 cs) doc) := by
  intro bs hbs
  have hne : bs ≠ utf8 cs := fun h => hbs (h ▸ wellFormed_utf8 cs)
  rw [parsesOnly, if_neg hne]
  exact ⟨rfl, rfl⟩

/-- A string without escapes, as a key or a value. -/
def plainLiteral (s : String) (h : Unescaped s.toList) : Literal := ⟨⟨s.toList, h⟩, []⟩

def mark (c : Char) (h : IsAscii c ∧ '"' ∉ [c]) : Marks where
  chars := [c]
  ascii := fun _ hd => List.mem_singleton.mp hd ▸ h.1
  unquoted := h.2

def comma : Marks := mark ',' (by decide)

def colon : Marks := mark ':' (by decide)

/-- `{"type": 3, "cmd": …, "name": "张三"}` -/
def named (cmd : Marks) : JsonText where
  members :=
    [⟨mark '{' (by decide), plainLiteral "type" (by decide), colon, .number (mark '3' (by decide))⟩,
      ⟨comma, plainLiteral "cmd" (by decide), colon, .number cmd⟩,
      ⟨comma, plainLiteral "name" (by decide), colon,
        .string (plainLiteral "张三" (by decide))⟩]
  closing := mark '}' (by decide)

def startNamed : JsonText := named ⟨"50331649".toList, by decide, by decide⟩

def faceNamed : JsonText := named ⟨"50331650".toList, by decide, by decide⟩

def parsesNamed (t : JsonText) : SMS.Bytes → JsonDoc :=
  parsesOnly (utf8 t.reread.chars) (t.reread.meaning decimal)

end SimpleSipClient.Access
