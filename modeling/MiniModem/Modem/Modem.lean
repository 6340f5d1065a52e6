import MiniModem.Modem.EventBus

/-!
# The modem

What `include/modem/modem.hpp` declares of the modem and the sessions and `main` use of it. The
implementation is not part of the repository, so the state of the modem is a type parameter and its
functions are a record that the rest of the development is generic in.
-/

namespace MiniModem
open Lib Modem

/-- The functions of a modem with states `σ`. Those that may publish return the events in order. -/
structure Modem (σ : Type*) where
  isRegistered : σ → Bool
  signalStrength : σ → ℤ
  operatorCode : σ → Bytes
  handleAt : σ → Bytes → σ × Bytes × List ModemEvent
  networkSearchComplete : σ → σ × Bool × List ModemEvent

/-- A modem with the initial values of the declaration, whose search ends in a registration. Its state
is whether it is registered. It is what the runs on fixed inputs use. -/
def sampleModem : Modem Bool where
  isRegistered := id
  signalStrength _ := 75
  operatorCode _ := [50, 53, 48, 48, 49]
  handleAt registered _ := (registered, [79, 75, 13, 10], [])
  networkSearchComplete _ :=
    (true, true, [{ type := .NetworkRegistered, operatorCode := [50, 53, 48, 48, 49] }])

end MiniModem
