import MiniModem.Lib.LittleEndian

/-!
# QMI messages and protocol numbers

The data types of `include/qmi/message.hpp` and the numbers of `include/qmi/protocol.hpp`. On the wire
a message is a 10-byte header (version, flags, transaction id, service id, message id, payload length)
followed by its TLVs, each a 16-bit type, a 16-bit length and that many bytes; every 16-bit field is
little endian.
-/

namespace MiniModem.Qmi
open Lib

/-- The wire header, with the default member values of the source. -/
structure Header where
  version : UInt8 := 1
  flags : UInt8 := 0
  transactionId : UInt16 := 0
  serviceId : UInt16 := 0
  messageId : UInt16 := 0
  payloadLength : UInt16 := 0
  deriving DecidableEq, Repr

/-- A TLV owns its value; its length is the size of the value. -/
structure Tlv where
  type : UInt16 := 0
  value : Bytes := []
  deriving DecidableEq, Repr

/-- A header and the TLVs of the payload. -/
structure Message where
  header : Header := {}
  tlvs : List Tlv := []
  deriving DecidableEq, Repr

/-- QMI services. -/
inductive Service
  | Control | Nas | Wds | Dms | Uim
  deriving DecidableEq, Repr

/-- The service id on the wire. -/
def Service.code : Service → UInt16
  | Control => 0
  | Nas => 1
  | Wds => 2
  | Dms => 3
  | Uim => 4

/-- Messages of the NAS service. -/
inductive NasMessage
  | GetSignal | GetRegistration | GetOperator | StartNetwork
  deriving DecidableEq, Repr

/-- The message id on the wire. -/
def NasMessage.code : NasMessage → UInt16
  | GetSignal => 1
  | GetRegistration => 2
  | GetOperator => 3
  | StartNetwork => 4

/-- TLVs of the NAS service. -/
inductive NasTlv
  | SignalStrength | Registration | Operator | Technology
  deriving DecidableEq, Repr

/-- The TLV type on the wire. -/
def NasTlv.code : NasTlv → UInt16
  | SignalStrength => 1
  | Registration => 2
  | Operator => 3
  | Technology => 4

/-- What kind of message a header announces. -/
inductive Flags
  | Request | Response | Indication
  deriving DecidableEq, Repr

/-- The flags byte on the wire. -/
def Flags.code : Flags → UInt8
  | Request => 0x01
  | Response => 0x02
  | Indication => 0x04

end MiniModem.Qmi
