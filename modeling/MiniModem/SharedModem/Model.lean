import MiniModem.Daemon.State
import MiniModem.Lib.Audience
import MiniModem.Lib.System

/-!
# The shared modem

What the daemon is for: one modem that clients of two kinds use at the same time. A client sends lines or
messages, one at a time, and is told the response at once; the events of the modem are announced to all.
There are no descriptors here, no buffers, no partial reads or writes and no ids that wrap around.
-/

namespace MiniModem
open Lib Modem Daemon

/-- What a client is told: a registration, or the response to a line or to a request of its own. -/
inductive Told
  | registered (event : ModemEvent)
  | text (response : Bytes)
  | message (response : Qmi.Message)

/-- The registrations among some events. -/
def registrations (events : List ModemEvent) : List ModemEvent :=
  events.filter fun event => event.type = .NetworkRegistered

/-- The modem, and the clients in the order in which they have connected. -/
structure SharedModem (σ : Type*) where
  modem : σ
  clients : Audience Server Told := []

namespace SharedModem

/-- What happens to the modem and its clients. -/
inductive Action
  | connect (server : Server)
  | disconnect (client : ℕ)
  | line (client : ℕ) (input : Bytes)
  | request (client : ℕ) (input : Qmi.Message)
  | timer
  | publish (event : ModemEvent)

/-- The client who has sent the line or the message of an action. -/
def Action.client? : Action → Option ℕ
  | .line client _ => some client
  | .request client _ => some client
  | .connect _ | .disconnect _ | .timer | .publish _ => none

/-- What clients are told of some events: the registrations among them. -/
def news (events : List ModemEvent) : List Told := (registrations events).map .registered

section
variable {σ : Type*} (M : MiniModem.Modem σ)

/-- Lines come from clients of the AT server, and requests from clients of the QMI server. -/
def system : System (SharedModem σ) Action where
  step s
    | .connect server => some { s with clients := s.clients.join server }
    | .disconnect client =>
      if (s.clients.present? client).isSome then some { s with clients := s.clients.leave client }
      else none
    | .line client input =>
      if s.clients.present? client = some .atServer then
        let (modem, response, events) := M.handleAt s.modem input
        some { modem, clients := (s.clients.announce (news events)).tell client [.text response] }
      else none
    | .request client input =>
      if s.clients.present? client = some .qmiServer then
        let response := Qmi.dispatch M s.modem input
        some { s with clients := s.clients.tell client [.message response] }
      else none
    | .timer =>
      let (modem, _, events) := M.networkSearchComplete s.modem
      some { modem, clients := s.clients.announce (news events) }
    | .publish event => some { s with clients := s.clients.announce (news [event]) }

/-- The events of an action. -/
def Action.events (s : SharedModem σ) : Action → List ModemEvent
  | .connect _ => []
  | .disconnect _ => []
  | .line _ input => (M.handleAt s.modem input).2.2
  | .request _ _ => []
  | .timer => (M.networkSearchComplete s.modem).2.2
  | .publish event => [event]

/-- The response to an action, and the client that it is for. -/
def Action.response (s : SharedModem σ) : Action → Option (ℕ × Told)
  | .connect _ => none
  | .disconnect _ => none
  | .line client input => some (client, .text (M.handleAt s.modem input).2.1)
  | .request client input => some (client, .message (Qmi.dispatch M s.modem input))
  | .timer => none
  | .publish _ => none

end

/-- The registrations of two lists of events, one after the other. -/
lemma registrations_append (events more : List ModemEvent) :
    registrations (events ++ more) = registrations events ++ registrations more :=
  List.filter_append ..

/-- No events are no news. -/
@[simp] lemma news_nil : news [] = [] := rfl

/-- An event is news if it is a registration. -/
lemma news_cons (event : ModemEvent) (events : List ModemEvent) :
    news (event :: events) =
      (if event.type = .NetworkRegistered then [.registered event] else []) ++ news events := by
  rw [news, registrations, List.filter_cons]
  by_cases registered : event.type = .NetworkRegistered
  · simp only [registered, decide_true, if_true]
    rfl
  · simp only [registered, decide_false, Bool.false_eq_true, if_false]
    rfl

/-- The news of two lists of events, one after the other. -/
@[simp] lemma news_append (events more : List ModemEvent) :
    news (events ++ more) = news events ++ news more := by
  rw [news, registrations_append, List.map_append]
  rfl

end SharedModem

end MiniModem
