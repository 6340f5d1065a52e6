import MiniModem.Daemon.Records

/-!
# What belongs to a client

A client of the QMI server is known by the address of its session, which no other session ever has
(`HasClient.unique`). What it has, its parser, its outbox and the bytes written for it, does not depend on
this address, nor on the descriptor: serving the session and the events it hears make the same of it
under any other (`servedQmi_client`, `hear_client`).
-/

namespace MiniModem.Daemon
open Lib Transport Modem

/-- What belongs to a client. -/
structure Client where
  connected : Bool
  parser : Qmi.FrameParser
  outbox : Outbox
  sent : Bytes

/-- What a client sees of its session. -/
def Owned.client (connected : Bool) (owned : Owned .qmiServer) : Client :=
  { connected, parser := owned.session.input, outbox := owned.session.outbox, sent := owned.sent }

section
variable {σ : Type*}

/-- The client with the session at the address, as it is, or as it was when its session was destroyed. -/
inductive HasClient (d : Daemon σ) (addr : ℕ) : Client → Prop
  | connected {fd : Fd} {owned : Owned .qmiServer} (here : d.session? .qmiServer fd = some owned)
      (this : owned.addr = addr) : HasClient d addr (owned.client true)
  | gone {owned : Owned .qmiServer} (mem : ⟨.qmiServer, owned⟩ ∈ d.destroyed)
      (this : owned.addr = addr) : HasClient d addr (owned.client false)

variable {M : MiniModem.Modem σ} {fds : Descriptors} {c : ℕ} {d d' : Daemon σ}

/-- There is one client under an address. -/
lemma HasClient.unique (known : Known fds d) {client client' : Client} (one : HasClient d c client)
    (other : HasClient d c client') : client = client' := by
  obtain ⟨⟨⟨-, s⟩, recorded⟩, -⟩ := known
  cases one with
  | @connected fd owned here this =>
    cases other with
    | @connected fd' owned' there that =>
      obtain ⟨-, rfl⟩ := s.unique _ _ _ _ _ _ here there (this.trans that.symm)
      rw [here] at there
      cases there
      rfl
    | gone mem that => exact absurd (this.trans that.symm) (recorded.gone _ mem _ _ _ here)
  | @gone owned mem this =>
    cases other with
    | connected there that => exact absurd (that.trans this.symm) (recorded.gone _ mem _ _ _ there)
    | @gone owned' mem' that =>
      cases recorded.unique _ mem _ mem' (this.trans that.symm)
      rfl

/-- A client has an address that has been given. -/
lemma HasClient.lt (known : Known fds d) {client : Client} (there : HasClient d c client) :
    c < d.allocated := by
  obtain ⟨⟨⟨-, s⟩, recorded⟩, -⟩ := known
  cases there with
  | connected here this => exact this ▸ (s.subscription _ _ _ here).2
  | gone mem this => exact this ▸ recorded.lt _ mem

/-- All new sessions look the same to their clients. -/
lemma Unused.client {owned owned' : Owned .qmiServer} (unused : Unused owned) (unused' : Unused owned')
    (connected : Bool) : owned'.client connected = owned.client connected := by
  simp only [Owned.client, unused.input, unused.outbox, unused.sent, unused'.input, unused'.outbox,
    unused'.sent]

/-! ### The same client under another address -/

/-- The session of a client with another address, descriptor and subscription. -/
def Owned.under (addr : ℕ) (tty : Tty) (subscription : Subscription) (owned : Owned .qmiServer) :
    Owned .qmiServer :=
  { owned with addr, session := { owned.session with tty, subscription } }

/-- A session is determined by what its client sees, its address, its descriptor and its subscription. -/
lemma Owned.eq_under {connected : Bool} {owned owned' : Owned .qmiServer}
    (same : owned'.client connected = owned.client connected) :
    owned' = owned.under owned'.addr owned'.session.tty owned'.session.subscription := by
  obtain ⟨addr, ⟨tty, input, outbox, subscription⟩, sent⟩ := owned
  obtain ⟨addr', ⟨tty', input', outbox', subscription'⟩, sent'⟩ := owned'
  cases same
  rfl

/-- A session hears events whatever its address is. -/
lemma Owned.hear_under (addr : ℕ) (tty : Tty) (subscription : Subscription) (n : ℕ)
    (events : List ModemEvent) (owned : Owned .qmiServer) :
    (owned.under addr tty subscription).hear n events =
      (owned.hear n events).under addr tty subscription := by
  let move (session : Server.qmiServer.Session) : Server.qmiServer.Session :=
    { session with tty, subscription }
  have once : ∀ event, Function.Commute (Server.onEvent .qmiServer event) move := by
    intro event session
    simp only [Server.onEvent_eq]
    split
    · rfl
    · rfl
  have all : events.foldl (fun session event => (Server.onEvent .qmiServer event)^[n] session)
      (move owned.session) =
        move (events.foldl (fun session event => (Server.onEvent .qmiServer event)^[n] session)
          owned.session) :=
    List.foldl_hom move fun session event => (once event).iterate_left n session
  exact congrArg (fun session => ({ addr, session, sent := owned.sent } : Owned .qmiServer)) all

/-- What a client sees of events depends on what it has seen before. -/
lemma hear_client {n : ℕ} {events : List ModemEvent} {connected : Bool} {owned owned' : Owned .qmiServer}
    (same : owned'.client connected = owned.client connected) :
    (owned'.hear n events).client connected = (owned.hear n events).client connected := by
  rw [Owned.eq_under same, Owned.hear_under]
  rfl

/-- Writing does not look at the address, the descriptor or the subscription. -/
lemma Owned.onWritable_under (addr : ℕ) (tty : Tty) (subscription : Subscription) (events : Events)
    (writes : List WriteResult) (owned : Owned .qmiServer) :
    (owned.under addr tty subscription).onWritable events writes =
      ((owned.onWritable events writes).1,
        (owned.onWritable events writes).2.under addr tty subscription) := by
  simp only [onWritable, Session.onWritable]
  split
  · split
    · rfl
    · split
      · rfl
      · rfl
  · rfl

/-- Serving a session does not depend on its address. -/
lemma servedQmi_under (addr : ℕ) (tty : Tty) (subscription : Subscription) (modem : σ) (events : Events)
    (env : Environment) (owned : Owned .qmiServer) :
    servedQmi M modem events env (owned.under addr tty subscription) =
      ((servedQmi M modem events env owned).1,
        (servedQmi M modem events env owned).2.under addr tty subscription) := by
  rw [servedQmi, servedQmi, Owned.onWritable_under]
  generalize owned.onWritable events env.writes = written
  obtain ⟨alive, written⟩ := written
  simp only
  split
  · have alive' := Qmi.Session.onReadable_alive M modem events env.reads written.session
    have session := Qmi.Session.onReadable_session M modem events env.reads written.session
    have alive'' := Qmi.Session.onReadable_alive M modem events env.reads
      (written.under addr tty subscription).session
    have session' := Qmi.Session.onReadable_session M modem events env.reads
      (written.under addr tty subscription).session
    rw [Prod.ext_iff]
    refine ⟨alive''.trans alive'.symm, ?_⟩
    simp only [session, session']
    rfl
  · rfl

/-- What a client sees of being served depends on what it has seen before. -/
lemma servedQmi_client (modem : σ) (events : Events) (env : Environment) {connected : Bool}
    {owned owned' : Owned .qmiServer} (same : owned'.client connected = owned.client connected) :
    (servedQmi M modem events env owned').1 = (servedQmi M modem events env owned).1 ∧
      ∀ connected, (servedQmi M modem events env owned').2.client connected =
        (servedQmi M modem events env owned).2.client connected := by
  rw [Owned.eq_under same, servedQmi_under]
  exact ⟨rfl, fun _ => rfl⟩

end

end MiniModem.Daemon
