import MiniModem.SharedModem.Agreement
import MiniModem.SharedModem.Input

/-!
# Responses

A client is answered each line or message by one response, in the order in which it has asked
(`Answered.exec`), and a client of one server asks for nothing of the other. With what is known of the input
and of the registrations, this is what a session has told (`session_told`).
-/

namespace MiniModem
open Lib Transport Modem Daemon

/-- The response to a line or a message, by the server that it is sent to. -/
def Daemon.Server.response {σ : Type*} (M : MiniModem.Modem σ) (modem : σ) :
    (server : Server) → server.Item → Told
  | .atServer, line => .text (M.handleAt modem line).2.1
  | .qmiServer, request => .message (Qmi.dispatch M modem request)

namespace SharedModem
variable {σ : Type*} {M : MiniModem.Modem σ} {s s' : SharedModem σ} {c : ℕ}

/-- The response to what has been asked, in some state of the modem. -/
def RespondsTo (M : MiniModem.Modem σ) (server : Server) (item : server.Item) (told : Told) : Prop :=
  ∃ modem, told = server.response M modem item

/-- What an action asks for a client of the server is answered. -/
lemma asks_answers {server : Server} (kind : ∀ other, s.clients.present? c = some other → other = server)
    {action : Action} (run : (system M).step s action = some s') :
    List.Forall₂ (RespondsTo M server) (action.asks c server) (action.answers M s c) := by
  rcases eq_or_ne action.client? (some c) with own | other
  · cases action with
    | line client input =>
      obtain rfl : client = c := Option.some.inj own
      simp only [system] at run
      split at run
      · next present =>
        obtain rfl := kind _ present
        simp only [Action.asks, Action.answers, Action.response, Option.toList_some, if_true, decide_true,
          List.filter_cons_of_pos, List.filter_nil, List.map_cons, List.map_nil]
        exact .cons ⟨s.modem, rfl⟩ .nil
      · cases run
    | request client input =>
      obtain rfl : client = c := Option.some.inj own
      simp only [system] at run
      split at run
      · next present =>
        obtain rfl := kind _ present
        simp only [Action.asks, Action.answers, Action.response, Option.toList_some, if_true, decide_true,
          List.filter_cons_of_pos, List.filter_nil, List.map_cons, List.map_nil]
        exact .cons ⟨s.modem, rfl⟩ .nil
      · cases run
    | connect other => cases own
    | disconnect client => cases own
    | timer => cases own
    | publish event => cases own
  · rw [asks_eq_nil other, answers_eq_nil other]
    exact .nil

/-- The clients have got responses to all that they have asked so far. -/
structure Answered (M : MiniModem.Modem σ) (s : SharedModem σ) (history : List Action) : Prop where
  clients : ∀ (c : ℕ) (client : Listener Server Told), s.clients[c]? = some client →
    List.Forall₂ (RespondsTo M client.kind) (itemsOf client.kind c history) (client.told.filter Told.isResponse)
  later : ∀ (c : ℕ) server, s.clients[c]? = none → itemsOf server c history = []

/-- Nobody has asked for anything yet. -/
lemma Answered.start (modem : σ) : Answered M { modem } [] where
  clients _ _ none := by cases none
  later _ _ _ := rfl

/-- Each action answers what it asks. -/
lemma Answered.step {history : List Action} (answered : Answered M s history) {action : Action}
    (run : (system M).step s action = some s') : Answered M s' (history ++ [action]) := by
  have items : ∀ server c, itemsOf server c (history ++ [action]) =
      itemsOf server c history ++ action.asks c server := by
    intro server c
    rw [itemsOf_append]
    exact congrArg _ (List.append_nil _)
  -- a client that has not connected yet asks for nothing
  have silent : ∀ (c : ℕ) server, s.clients[c]? = none → itemsOf server c (history ++ [action]) = [] := by
    intro c server none
    have asks : List.Forall₂ (RespondsTo M server) (action.asks c server) (action.answers M s c) := by
      refine asks_answers ?_ run
      intro other present
      rw [Audience.present?, none] at present
      cases present
    rw [(step_absent none run).1, List.forall₂_nil_right_iff] at asks
    rw [items, answered.later c server none, asks]
    rfl
  refine ⟨?_, ?_⟩
  · intro c client' there
    rcases here : s.clients[c]? with _ | client
    · obtain ⟨-, none | ⟨server, new⟩⟩ := step_absent here run
      · rw [none] at there
        cases there
      · rw [new] at there
        cases there
        rw [silent c server here]
        exact .nil
    · obtain ⟨present, told, -⟩ := step_client here run
      rw [told] at there
      cases there
      have asks : List.Forall₂ (RespondsTo M client.kind) (action.asks c client.kind)
          (action.answers M s c) := by
        refine asks_answers ?_ run
        intro other present
        obtain ⟨before, e⟩ := Audience.present?_eq_some.mp present
        rw [here] at e
        cases e
        rfl
      have own : (action.answers M s c).filter Told.isResponse = action.answers M s c :=
        List.filter_eq_self.mpr fun _ mem => (mem_answers mem).1
      have quiet : (if client.present then news (action.events M s) else []).filter Told.isResponse = [] := by
        split
        · exact filter_news _
        · rfl
      rw [items, List.filter_append, List.filter_append, quiet, own, List.nil_append]
      exact List.rel_append (answered.clients c client here) asks
  · intro c server none
    rcases here : s.clients[c]? with _ | client
    · exact silent c server here
    · obtain ⟨present, told, -⟩ := step_client here run
      rw [none] at told
      cases told

/-- Along a run all that is asked is answered. -/
lemma Answered.exec {history as : List Action} (answered : Answered M s history)
    (run : (system M).exec s as = some s') : Answered M s' (history ++ as) := by
  induction as generalizing s history with
  | nil =>
    cases run
    rwa [List.append_nil]
  | cons action as ih =>
    obtain ⟨between, first, rest⟩ := ((system M).exec_cons_eq_some).mp run
    rw [List.append_cons]
    exact ih (answered.step first) rest

/-- What a session has told, whether it is there or has been destroyed, is what its client has been told in the
run of the shared modem: a response to each line or message that its reader has found in what was read from its
descriptor, in their order, and the registrations published while it was there, in their order. -/
structure SessionTold (M : MiniModem.Modem σ) (fds : Descriptors) (modem : σ) (steps : List Step)
    {server : Server} (owned : Owned server) (told : List Told) : Prop where
  client : ∃ s present, (system M).exec { modem }
      ((Daemon.system M).project (fun d step _ => actions M d step) (boot fds modem) steps) = some s ∧
    s.clients[owned.addr]? = some ⟨server, present, told⟩
  output : owned.output = told.flatMap server.wire
  responses : List.Forall₂ (RespondsTo M server)
    (server.reader.feed [] (chunksOf owned.addr
      ((Daemon.system M).project (fun d step _ => chunksRead d step) (boot fds modem) steps))).1
    (told.filter Told.isResponse)
  registrations : told.filterMap Told.event? = registrations
    ((Daemon.system M).project (fun d step _ => publishedTo M owned.addr d step) (boot fds modem) steps)

/-- Every session of a run has told what its client has been told. -/
lemma session_told {fds : Descriptors} {modem : σ} {steps : List Step} {d : Daemon σ}
    (run : (Daemon.system M).exec (boot fds modem) steps = some d) (bound : d.allocated < 2 ^ 64)
    {server : Server} (owned : Owned server) (has : d.HasSession owned) :
    ∃ told, SessionTold M fds modem steps owned told := by
  obtain ⟨s, present, told, run', client, output, registered⟩ := registrations_told run bound owned has
  have answered := (Answered.start modem).exec (M := M) run'
  have responses := answered.clients owned.addr _ client
  have input := congrArg Prod.fst ((exec_fed run).input server owned has)
  simp only at input
  rw [List.nil_append, ← input] at responses
  exact ⟨told, ⟨s, present, run', client⟩, output, responses, registered⟩

end SharedModem

end MiniModem
