import MiniModem.SharedModem.Model

/-!
# What clients are told

One action tells a client the news of its events, while the client is there, and the response if the action
is the client's own (`step_client`). Along a run these add up: a client that is there all the time hears
all the news in their order, with the responses to its own actions in between (`exec_told`); any client has been
told the registrations that were published while it was there (`exec_registrationsTold`); and the responses are
those of one user who does everything alone, one action after the other (`exec_replay`).
-/

namespace MiniModem
open Lib Modem Daemon

/-- The registration that a client is told of. -/
def Told.event? : Told → Option ModemEvent
  | registered event => some event
  | text _ => none
  | message _ => none

/-- Whether a client is told something because it has asked. -/
def Told.isResponse : Told → Bool
  | registered _ => false
  | text _ => true
  | message _ => true

namespace SharedModem

section
variable {σ : Type*} (M : MiniModem.Modem σ)

/-- The response to an action, if it is the client's own. -/
def Action.answers (s : SharedModem σ) (c : ℕ) (action : Action) : List Told :=
  ((action.response M s).toList.filter fun response => response.1 = c).map Prod.snd

/-- What an action publishes if a client is there. -/
def Action.heardBy (s : SharedModem σ) (c : ℕ) (action : Action) : List ModemEvent :=
  if (s.clients.present? c).isSome then action.events M s else []

/-- What an action tells a client that is there. -/
def Action.toldTo (s : SharedModem σ) (c : ℕ) (action : Action) : List Told :=
  news (action.events M s) ++ action.answers M s c

/-- One user who does everything alone: the state of the modem at the end, and the responses, with the
clients that they are for. -/
def replay : σ → List Action → σ × List (ℕ × Told)
  | modem, [] => (modem, [])
  | modem, .connect _ :: actions => replay modem actions
  | modem, .disconnect _ :: actions => replay modem actions
  | modem, .line client input :: actions =>
    let (modem, response, _) := M.handleAt modem input
    let (last, responses) := replay modem actions
    (last, (client, .text response) :: responses)
  | modem, .request client input :: actions =>
    let (last, responses) := replay modem actions
    (last, (client, .message (Qmi.dispatch M modem input)) :: responses)
  | modem, .timer :: actions => replay (M.networkSearchComplete modem).1 actions
  | modem, .publish _ :: actions => replay modem actions

end

section
variable {σ : Type*} {M : MiniModem.Modem σ} {s s' : SharedModem σ} {c : ℕ}
  {client : Listener Server Told}

/-- News are no responses. -/
lemma filter_news (events : List ModemEvent) : (news events).filter Told.isResponse = [] := by
  rw [news, List.filter_map, List.map_eq_nil_iff]
  exact List.filter_eq_nil_iff.mpr fun _ _ => by simp [Told.isResponse]

/-- News are registrations. -/
lemma filterMap_news (events : List ModemEvent) :
    (news events).filterMap Told.event? = registrations events := by
  rw [news, List.filterMap_map]
  exact List.filterMap_some

/-- An answer is a response, and no registration. -/
lemma mem_answers {action : Action} {told : Told} (mem : told ∈ action.answers M s c) :
    told.isResponse = true ∧ told.event? = none := by
  rw [Action.answers, List.mem_map] at mem
  obtain ⟨response, mem, rfl⟩ := mem
  have made := (List.mem_filter.mp mem).1
  cases action with
  | line client input =>
    obtain rfl := List.mem_singleton.mp made
    exact ⟨rfl, rfl⟩
  | request client input =>
    obtain rfl := List.mem_singleton.mp made
    exact ⟨rfl, rfl⟩
  | connect server => cases made
  | disconnect client => cases made
  | timer => cases made
  | publish event => cases made

/-- Responses go to who has asked. -/
lemma answers_eq_nil {action : Action} (other : action.client? ≠ some c) : action.answers M s c = [] := by
  cases action with
  | line client input =>
    have ne : client ≠ c := fun e => other (congrArg some e)
    simp [Action.answers, Action.response, ne]
  | request client input =>
    have ne : client ≠ c := fun e => other (congrArg some e)
    simp [Action.answers, Action.response, ne]
  | connect server => rfl
  | disconnect client => rfl
  | timer => rfl
  | publish event => rfl

/-- The news that a client hears, and the response that it gets. -/
lemma step_client (here : s.clients[c]? = some client) {action : Action}
    (run : (system M).step s action = some s') :
    ∃ present, s'.clients[c]? = some ⟨client.kind, present, client.told ++
        ((if client.present then news (action.events M s) else []) ++ action.answers M s c)⟩ ∧
      (present = true → client.present = true) := by
  obtain ⟨kind, present, told⟩ := client
  cases action with
  | connect server =>
    cases run
    refine ⟨present, ?_, id⟩
    rw [Audience.join_of_some here]
    simp [Action.events, Action.answers, Action.response]
  | disconnect client =>
    simp only [system] at run
    split at run
    · cases run
      rcases eq_or_ne c client with rfl | ne
      · refine ⟨false, ?_, fun present => absurd present Bool.false_ne_true⟩
        rw [Audience.leave_self, here]
        simp [Action.events, Action.answers, Action.response]
      · refine ⟨present, ?_, id⟩
        rw [Audience.leave_ne ne, here]
        simp [Action.events, Action.answers, Action.response]
    · cases run
  | line client input =>
    simp only [system] at run
    split at run
    · cases run
      refine ⟨present, ?_, id⟩
      rw [Audience.tell_of_some (Audience.announce_of_some here _)]
      by_cases own : client = c
      · simp [Action.events, Action.answers, Action.response, own]
      · simp [Action.events, Action.answers, Action.response, own]
    · cases run
  | request client input =>
    simp only [system] at run
    split at run
    · cases run
      refine ⟨present, ?_, id⟩
      rw [Audience.tell_of_some here]
      by_cases own : client = c
      · simp [Action.events, Action.answers, Action.response, own]
      · simp [Action.events, Action.answers, Action.response, own]
    · cases run
  | timer =>
    cases run
    refine ⟨present, ?_, id⟩
    rw [Audience.announce_of_some here]
    simp [Action.events, Action.answers, Action.response]
  | publish event =>
    cases run
    refine ⟨present, ?_, id⟩
    rw [Audience.announce_of_some here]
    simp [Action.events, Action.answers, Action.response]

/-- A client that has not connected yet gets no response. -/
lemma step_absent (none : s.clients[c]? = none) {action : Action}
    (run : (system M).step s action = some s') :
    action.answers M s c = [] ∧ (s'.clients[c]? = .none ∨ ∃ server, s'.clients[c]? = some { kind := server }) := by
  have absent : ∀ i server, s.clients.present? i = some server → i ≠ c := by
    rintro i server present rfl
    rw [Audience.present?, none] at present
    cases present
  cases action with
  | connect server =>
    cases run
    exact ⟨rfl, (Audience.join_of_none none).imp_right fun new => ⟨server, new⟩⟩
  | disconnect client =>
    simp only [system] at run
    split at run
    · next present =>
      cases run
      obtain ⟨server, present⟩ := Option.isSome_iff_exists.mp present
      refine ⟨rfl, .inl ?_⟩
      rw [Audience.leave_ne (absent client server present).symm, none]
    · cases run
  | line client input =>
    simp only [system] at run
    split at run
    · next present =>
      cases run
      have ne := absent client _ present
      refine ⟨answers_eq_nil fun e => ne (Option.some.inj e), .inl ?_⟩
      rw [Audience.tell_ne ne.symm, Audience.announce_get, none, Option.map_none]
    · cases run
  | request client input =>
    simp only [system] at run
    split at run
    · next present =>
      cases run
      have ne := absent client _ present
      refine ⟨answers_eq_nil fun e => ne (Option.some.inj e), .inl ?_⟩
      rw [Audience.tell_ne ne.symm, none]
    · cases run
  | timer =>
    cases run
    refine ⟨rfl, .inl ?_⟩
    rw [Audience.announce_get, none, Option.map_none]
  | publish event =>
    cases run
    refine ⟨rfl, .inl ?_⟩
    rw [Audience.announce_get, none, Option.map_none]

/-! ### Runs -/

/-- A client that is there all the time hears everything. -/
lemma exec_told (here : s.clients[c]? = some client) {as : List Action}
    (run : (system M).exec s as = some s') :
    ∃ client', s'.clients[c]? = some client' ∧ client'.kind = client.kind ∧
      (client'.present = true → client.present = true ∧
        client'.told = client.told ++ (system M).project (fun s action _ => action.toldTo M s c) s as) := by
  induction as generalizing s client with
  | nil =>
    cases run
    exact ⟨client, here, rfl, fun present => ⟨present, (List.append_nil _).symm⟩⟩
  | cons action as ih =>
    obtain ⟨between, first, rest⟩ := ((system M).exec_cons_eq_some).mp run
    obtain ⟨present, there, was⟩ := step_client here first
    obtain ⟨client', last, kind, told⟩ := ih there rest
    refine ⟨client', last, kind, fun present' => ?_⟩
    obtain ⟨between', told⟩ := told present'
    have there := was between'
    refine ⟨there, ?_⟩
    rw [told, System.project_cons first, if_pos there, Action.toldTo, List.append_assoc]

/-- The registrations that a client has been told of. -/
def registrationsTold (s : SharedModem σ) (c : ℕ) : List ModemEvent :=
  (s.clients[c]?.map fun client => client.told.filterMap Told.event?).getD []

/-- A client is told the registrations of an action if it is there. -/
lemma step_registrationsTold {action : Action} (run : (system M).step s action = some s') :
    s'.registrationsTold c = s.registrationsTold c ++ registrations (action.heardBy M s c) := by
  have silent : (action.answers M s c).filterMap Told.event? = [] :=
    List.filterMap_eq_nil_iff.mpr fun _ mem => (mem_answers mem).2
  rcases here : s.clients[c]? with _ | client
  · have nobody : s.clients.present? c = none := by
      rw [Audience.present?, here, Option.bind_none]
    rw [Action.heardBy, nobody]
    obtain ⟨-, gone | ⟨server, new⟩⟩ := step_absent here run
    · rw [registrationsTold, registrationsTold, here, gone]
      rfl
    · rw [registrationsTold, registrationsTold, here, new]
      rfl
  · obtain ⟨present, there, -⟩ := step_client here run
    rw [registrationsTold, registrationsTold, here, there, Action.heardBy, Audience.present?_isSome here]
    simp only [Option.map_some, Option.getD_some, List.filterMap_append, silent, List.append_nil]
    split
    · rw [filterMap_news]
    · rfl

/-- The registrations that a client has been told of are those published while it was there, whether it is still
there or not. -/
lemma exec_registrationsTold {as : List Action} (run : (system M).exec s as = some s') :
    s'.registrationsTold c = s.registrationsTold c ++
      registrations ((system M).project (fun s action _ => action.heardBy M s c) s as) := by
  induction as generalizing s with
  | nil =>
    cases run
    exact (List.append_nil _).symm
  | cons action as ih =>
    obtain ⟨between, first, rest⟩ := ((system M).exec_cons_eq_some).mp run
    rw [ih rest, step_registrationsTold first, System.project_cons first, registrations_append,
      List.append_assoc]

/-- The responses that a client has got. -/
def responses (s : SharedModem σ) (c : ℕ) : List Told :=
  (s.clients[c]?.map fun client => client.told.filter Told.isResponse).getD []

/-- A client gets the response to its own action. -/
lemma step_responses {action : Action} (run : (system M).step s action = some s') :
    s'.responses c = s.responses c ++ action.answers M s c := by
  have own : (action.answers M s c).filter Told.isResponse = action.answers M s c :=
    List.filter_eq_self.mpr fun _ mem => (mem_answers mem).1
  rcases here : s.clients[c]? with _ | client
  · obtain ⟨nothing, gone | ⟨server, new⟩⟩ := step_absent here run
    · rw [responses, responses, here, gone, nothing]
      rfl
    · rw [responses, responses, here, new, nothing]
      rfl
  · obtain ⟨present, there, -⟩ := step_client here run
    rw [responses, responses, here, there]
    simp only [Option.map_some, Option.getD_some, List.filter_append, own]
    split
    · rw [filter_news, List.nil_append]
    · rfl

/-- The responses of a client are those to its own actions, whether it is still there or not. -/
lemma exec_responses {as : List Action} (run : (system M).exec s as = some s') :
    s'.responses c =
      s.responses c ++ (system M).project (fun s action _ => action.answers M s c) s as := by
  induction as generalizing s with
  | nil =>
    cases run
    exact (List.append_nil _).symm
  | cons action as ih =>
    obtain ⟨between, first, rest⟩ := ((system M).exec_cons_eq_some).mp run
    rw [ih rest, step_responses first, System.project_cons first, List.append_assoc]

/-- The modem and all responses are those of one user who does everything alone. -/
lemma exec_replay {as : List Action} (run : (system M).exec s as = some s') :
    replay M s.modem as =
      (s'.modem, (system M).project (fun s action _ => (action.response M s).toList) s as) := by
  induction as generalizing s with
  | nil =>
    cases run
    rfl
  | cons action as ih =>
    obtain ⟨between, first, rest⟩ := ((system M).exec_cons_eq_some).mp run
    rw [System.project_cons first]
    have later := ih rest
    cases action with
    | connect server =>
      cases first
      exact later
    | disconnect client =>
      simp only [system] at first
      split at first
      · cases first
        exact later
      · cases first
    | line client input =>
      simp only [system] at first
      split at first
      · cases first
        rw [replay]
        simp only [later]
        rfl
      · cases first
    | request client input =>
      simp only [system] at first
      split at first
      · cases first
        rw [replay]
        simp only [later]
        rfl
      · cases first
    | timer =>
      cases first
      exact later
    | publish event =>
      cases first
      exact later

end

end SharedModem

end MiniModem
