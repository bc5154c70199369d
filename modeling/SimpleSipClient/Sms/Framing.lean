import SimpleSipClient.Foundation.Framing
import SimpleSipClient.Sms.Step

/-! # The stream of messages

A message is a header in network order and a body as long as the header says. The
reader takes 20 bytes for the header, checks the magic number and takes the body.
Everything the connection builds is such a message, so the bytes written in a run are
read back as the messages of its calls, in order.
-/

namespace SimpleSipClient.SMS

open Foundation

/-! ## Headers in network order -/

def SMSHeader.toWire (h : SMSHeader) : SMSHeader where
  magic := qToBigEndian32 h.magic
  channelId := h.channelId
  flag := h.flag
  cmdType := qToBigEndian16 h.cmdType
  cmd := qToBigEndian32 h.cmd
  seqnum := qToBigEndian32 h.seqnum
  length := qToBigEndian32 h.length

theorem littleEndian_qToBigEndian32 (x : UInt32) :
    littleEndian 4 (qToBigEndian32 x).toNat = bigEndian 4 x.toNat := by
  have hlt := swapBytes_lt 4 x.toNat
  rw [qToBigEndian32, UInt32.toNat_ofNat_of_lt' hlt, littleEndian_swapBytes]

theorem littleEndian_qToBigEndian16 (x : UInt16) :
    littleEndian 2 (qToBigEndian16 x).toNat = bigEndian 2 x.toNat := by
  have hlt := swapBytes_lt 2 x.toNat
  rw [qToBigEndian16, UInt16.toNat_ofNat_of_lt' hlt, littleEndian_swapBytes]

/-- A single byte has only one order. -/
theorem littleEndian_one (v : Nat) : littleEndian 1 v = bigEndian 1 v := rfl

theorem SMSHeader.toWire_bytes (h : SMSHeader) :
    h.toWire.bytes =
      bigEndian 4 h.magic.toNat ++ (bigEndian 1 h.channelId.toNat ++
        (bigEndian 1 h.flag.toNat ++ (bigEndian 2 h.cmdType.toNat ++
          (bigEndian 4 h.cmd.toNat ++ (bigEndian 4 h.seqnum.toNat ++
            bigEndian 4 h.length.toNat))))) := by
  simp only [SMSHeader.bytes, SMSHeader.toWire, littleEndian_qToBigEndian32,
    littleEndian_qToBigEndian16, littleEndian_one]

def readHeader (bs : Bytes) : Option (SMSHeader × Bytes) := do
  let (magic, bs) ← takeWord 4 bs
  let (channelId, bs) ← takeWord 1 bs
  let (flag, bs) ← takeWord 1 bs
  let (cmdType, bs) ← takeWord 2 bs
  let (cmd, bs) ← takeWord 4 bs
  let (seqnum, bs) ← takeWord 4 bs
  let (length, bs) ← takeWord 4 bs
  return ({
    magic := UInt32.ofNat magic
    channelId := UInt8.ofNat channelId
    flag := UInt8.ofNat flag
    cmdType := UInt16.ofNat cmdType
    cmd := UInt32.ofNat cmd
    seqnum := UInt32.ofNat seqnum
    length := UInt32.ofNat length }, bs)

theorem readHeader_toWire (h : SMSHeader) (rest : Bytes) :
    readHeader (h.toWire.bytes ++ rest) = some (h, rest) := by
  have h32 (x : UInt32) : UInt32.ofNat (x.toNat % 256 ^ 4) = x := by
    rw [Nat.mod_eq_of_lt (show x.toNat < 256 ^ 4 from x.toNat_lt), UInt32.ofNat_toNat]
  have h16 (x : UInt16) : UInt16.ofNat (x.toNat % 256 ^ 2) = x := by
    rw [Nat.mod_eq_of_lt (show x.toNat < 256 ^ 2 from x.toNat_lt), UInt16.ofNat_toNat]
  have h8 (x : UInt8) : UInt8.ofNat (x.toNat % 256 ^ 1) = x := by
    rw [Nat.mod_eq_of_lt (show x.toNat < 256 ^ 1 from x.toNat_lt), UInt8.ofNat_toNat]
  simp only [readHeader, SMSHeader.toWire_bytes, List.append_assoc, takeWord_bigEndian, h32, h16,
    h8, Option.bind_eq_bind, Option.bind_some, Option.pure_def]

/-! ## Messages -/

structure Message where
  header : SMSHeader
  body : Bytes
  magic_eq : header.magic = 0xFFFF559F
  length_eq : header.length.toNat = body.length

def Message.encode (m : Message) : Bytes := m.header.toWire.bytes ++ m.body

def readMessage (bs : Bytes) : Option (Message × Bytes) :=
  match readHeader bs with
  | none => none
  | some (h, rest) =>
      if hm : h.magic = 0xFFFF559F then
        if hl : h.length.toNat ≤ rest.length then
          some (⟨h, rest.take h.length.toNat, hm, by simp [hl]⟩, rest.drop h.length.toNat)
        else none
      else none

theorem readMessage_encode (m : Message) (rest : Bytes) :
    readMessage (m.encode ++ rest) = some (m, rest) := by
  rcases m with ⟨h, body, hm, hl⟩
  have hroom : h.length.toNat ≤ (body ++ rest).length := by
    rw [hl, List.length_append]
    omega
  have hbody : (body ++ rest).take h.length.toNat = body := List.take_left' hl.symm
  have hrest : (body ++ rest).drop h.length.toNat = rest := List.drop_left' hl.symm
  rw [readMessage, Message.encode, List.append_assoc, readHeader_toWire]
  simp only [dif_pos hm, dif_pos hroom, hbody, hrest]

theorem encode_ne_nil (m : Message) : m.encode ≠ [] := by
  rw [Message.encode, SMSHeader.toWire_bytes]
  simp [bigEndian, littleEndian]

/-- The wire format of the streaming media server. -/
def wire : Framing UInt8 Message where
  encode := Message.encode
  read := readMessage
  encode_ne_nil := encode_ne_nil
  read_encode := readMessage_encode

end SimpleSipClient.SMS
