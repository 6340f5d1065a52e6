import MiniModem.Modem.Modem
import MiniModem.Qmi.CodecRoundTrip

/-!
# The dispatcher

`src/qmi/dispatcher.cpp`: the response to a request, from what the modem says about itself. Whichever
handler a request reaches, the response carries its ids (`dispatch_header`).
-/

namespace MiniModem.Qmi
open Lib

variable {σ : Type*} (M : MiniModem.Modem σ) (modem : σ)

/-- What all responses have in common. -/
def response (request : Message) (serviceId messageId : UInt16) (tlvs : List Tlv) : Message :=
  { header :=
      { version := 1
        flags := Flags.Response.code
        transactionId := request.header.transactionId
        serviceId
        messageId }
    tlvs }

/-- The `int` is narrowed to one byte. -/
def handleGetSignal (request : Message) : Message :=
  response request Service.Nas.code NasMessage.GetSignal.code
    [{ type := NasTlv.SignalStrength.code, value := [UInt8.ofInt (M.signalStrength modem)] }]

/-- Whether the modem is registered. -/
def handleGetRegistration (request : Message) : Message :=
  response request Service.Nas.code NasMessage.GetRegistration.code
    [{ type := NasTlv.Registration.code, value := [if M.isRegistered modem then 1 else 0] }]

/-- The operator code, whatever it is. -/
def handleGetOperator (request : Message) : Message :=
  response request Service.Nas.code NasMessage.GetOperator.code
    [{ type := NasTlv.Operator.code, value := M.operatorCode modem }]

/-- The messages of the network access service. -/
def handleNas (request : Message) : Message :=
  if request.header.messageId = NasMessage.GetSignal.code then handleGetSignal M modem request
  else if request.header.messageId = NasMessage.GetRegistration.code then
    handleGetRegistration M modem request
  else if request.header.messageId = NasMessage.GetOperator.code then handleGetOperator M modem request
  else response request request.header.serviceId request.header.messageId []

/-- A request to any other service gets a response without TLVs. -/
def dispatch (request : Message) : Message :=
  if request.header.serviceId = Service.Nas.code then handleNas M modem request
  else response request request.header.serviceId request.header.messageId []

/-- The header of the response to a request. -/
def responseHeader (request : Message) : Header :=
  { version := 1
    flags := Flags.Response.code
    transactionId := request.header.transactionId
    serviceId := request.header.serviceId
    messageId := request.header.messageId }

/-- A response is for the request's transaction, service and message, whichever handler made it. -/
lemma dispatch_header (request : Message) :
    (dispatch M modem request).header = responseHeader request := by
  rw [dispatch]
  split
  · next nas =>
    rw [handleNas]
    split
    · next signal => simp [handleGetSignal, response, responseHeader, nas, signal]
    · split
      · next registration => simp [handleGetRegistration, response, responseHeader, nas, registration]
      · split
        · next operator => simp [handleGetOperator, response, responseHeader, nas, operator]
        · rfl
  · rfl

/-- A response fits into a frame when the operator code does. -/
lemma dispatch_fits (request : Message) (short : (M.operatorCode modem).length ≤ 65531) :
    payloadSize (dispatch M modem request).tlvs ≤ 65535 := by
  rw [dispatch, handleNas, handleGetSignal, handleGetRegistration, handleGetOperator]
  split
  · split
    · simp [response, payloadSize]
    · split
      · simp [response, payloadSize]
      · split
        · simp [response, payloadSize]
          omega
        · simp [response, payloadSize]
  · simp [response, payloadSize]

end MiniModem.Qmi
