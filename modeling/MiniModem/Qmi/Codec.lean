import MiniModem.Qmi.Message

/-!
# The QMI codec

`src/qmi/codec.cpp`: the byte reader and writer, and the encoder and decoder of messages built from
them. A read that fails leaves its reader and its out-parameter alone, so `readU8`, `readU16`,
`readBytes` and `decodeTlv` return an option; `decodeHeader` and `decodeMessage` write their
out-parameter as they go, and return it whether they succeed or not.
-/

namespace MiniModem.Qmi
open Lib

/-- A view of the bytes that have not been read. -/
structure ByteReader where
  data : Bytes
  deriving DecidableEq, Repr

namespace ByteReader

/-- One byte. -/
def readU8 : ByteReader → Option (UInt8 × ByteReader)
  | ⟨[]⟩ => none
  | ⟨b :: rest⟩ => some (b, ⟨rest⟩)

/-- Two bytes, little endian. -/
def readU16 : ByteReader → Option (UInt16 × ByteReader)
  | ⟨lo :: hi :: rest⟩ => some (ofBytes lo hi, ⟨rest⟩)
  | _ => none

/-- As many bytes as are asked for, or none. -/
def readBytes (reader : ByteReader) (size : ℕ) : Option (Bytes × ByteReader) :=
  if reader.data.length < size then none
  else some (reader.data.take size, ⟨reader.data.drop size⟩)

/-- How many bytes are left. -/
def remaining (reader : ByteReader) : ℕ := reader.data.length

end ByteReader

/-- The bytes written so far. -/
structure ByteWriter where
  buffer : Bytes := []
  deriving DecidableEq, Repr

namespace ByteWriter

/-- One byte is appended. -/
def writeU8 (writer : ByteWriter) (value : UInt8) : ByteWriter :=
  ⟨writer.buffer ++ [value]⟩

/-- Two bytes, little endian. -/
def writeU16 (writer : ByteWriter) (value : UInt16) : ByteWriter :=
  ⟨writer.buffer ++ [lowByte value, highByte value]⟩

/-- Bytes are appended. -/
def writeBytes (writer : ByteWriter) (data : Bytes) : ByteWriter :=
  ⟨writer.buffer ++ data⟩

end ByteWriter

/-- One TLV off the front of the reader. -/
def decodeTlv (reader : ByteReader) : Option (Tlv × ByteReader) := do
  let (type, reader) ← reader.readU16
  let (length, reader) ← reader.readU16
  if reader.remaining < length.toNat then none
  else
    let (value, reader) ← reader.readBytes length.toNat
    return ({ type, value }, reader)

/-- The length of the value is narrowed to 16 bits. -/
def encodeTlv (writer : ByteWriter) (tlv : Tlv) : ByteWriter :=
  ((writer.writeU16 tlv.type).writeU16 (UInt16.ofNat tlv.value.length)).writeBytes tlv.value

/-- The six fields in order; the reader is missing from the result when a read failed. -/
def decodeHeader (reader : ByteReader) (header : Header) : Option ByteReader × Header :=
  match reader.readU8 with
  | none => (none, header)
  | some (version, reader) =>
    let header := { header with version }
    match reader.readU8 with
    | none => (none, header)
    | some (flags, reader) =>
      let header := { header with flags }
      match reader.readU16 with
      | none => (none, header)
      | some (transactionId, reader) =>
        let header := { header with transactionId }
        match reader.readU16 with
        | none => (none, header)
        | some (serviceId, reader) =>
          let header := { header with serviceId }
          match reader.readU16 with
          | none => (none, header)
          | some (messageId, reader) =>
            let header := { header with messageId }
            match reader.readU16 with
            | none => (none, header)
            | some (payloadLength, reader) => (some reader, { header with payloadLength })

/-- The fields in their order on the wire. -/
def encodeHeader (writer : ByteWriter) (header : Header) : ByteWriter :=
  (((((writer.writeU8 header.version).writeU8 header.flags).writeU16
    header.transactionId).writeU16 header.serviceId).writeU16 header.messageId).writeU16
    header.payloadLength

/-- The `while` loop over the payload. Each round reads at least four bytes, so the size of the
payload bounds the number of rounds; it is the fuel `decodeMessage` passes. -/
def decodeTlvs : ℕ → ByteReader → List Tlv → Bool × List Tlv
  | 0, _, tlvs => (true, tlvs)
  | fuel + 1, payload, tlvs =>
    if payload.remaining > 0 then
      match decodeTlv payload with
      | none => (false, tlvs)
      | some (tlv, payload) => decodeTlvs fuel payload (tlvs ++ [tlv])
    else (true, tlvs)

/-- Whether `bytes` starts with a message, and the out-parameter `message` after the call. -/
def decodeMessage (bytes : Bytes) (message : Message) : Bool × Message :=
  match decodeHeader ⟨bytes⟩ message.header with
  | (none, header) => (false, { message with header })
  | (some reader, header) =>
    let message := { message with header }
    if reader.remaining < header.payloadLength.toNat then (false, message)
    else
      match reader.readBytes header.payloadLength.toNat with
      | none => (false, message)
      | some (payload, _) =>
        let (ok, tlvs) := decodeTlvs payload.length ⟨payload⟩ []
        (ok, { message with tlvs })

/-- The payload first, then a header with its size (narrowed to 16 bits), then both together. -/
def encodeMessage (message : Message) : Bytes :=
  let payload := (message.tlvs.foldl encodeTlv {}).buffer
  let header := { message.header with payloadLength := UInt16.ofNat payload.length }
  ((encodeHeader {} header).writeBytes payload).buffer

example : decodeMessage (encodeMessage ⟨{ flags := 2, transactionId := 0x1234 }, [⟨7, [1, 2]⟩]⟩) {} =
    (true, ⟨{ flags := 2, transactionId := 0x1234, payloadLength := 6 }, [⟨7, [1, 2]⟩]⟩) := by decide

end MiniModem.Qmi
