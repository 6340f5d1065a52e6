import MiniModem.Daemon.Records

/-!
# Where a session comes from

A session, whether it is there or has been destroyed, is what a step has made of it: the step has created it, or
was its own callback, or has let it hear what was published, or it had been destroyed before (`Origin.of_step`).
What is known of all sessions is carried along a step by these cases.
-/

namespace MiniModem.Daemon
open Lib Transport Modem

/-- A session that is there, or a session destroyed as it was then. -/
def HasSession {σ : Type*} (d : Daemon σ) {server : Server} (owned : Owned server) : Prop :=
  (∃ fd, d.session? server fd = some owned) ∨ ⟨server, owned⟩ ∈ d.destroyed

/-- No callback of this step serves the session at the address. -/
def Unserved {σ : Type*} (d : Daemon σ) (step : Step) (addr : ℕ) : Prop :=
  ∀ server fd (owned : Owned server), step.target = some fd → d.session? server fd = some owned →
    owned.addr ≠ addr

/-- What a session was before a step. -/
inductive Origin {σ : Type*} (M : MiniModem.Modem σ) (d : Daemon σ) (step : Step) {server : Server}
    (last : Owned server) : Prop
  | created (unused : Unused last) (later : d.allocated ≤ last.addr) (other : Unserved d step last.addr)
  | served {fd : Fd} {owned : Owned server} {events : Events} {env : Environment}
      (this : step = .deliver fd events env) (here : d.session? server fd = some owned)
      (there : (d.serve M server fd events env owned).2.session? server fd = some last)
      (addr : last.addr = owned.addr)
  | heard {fd : Fd} {owned : Owned server} (here : d.session? server fd = some owned)
      (heard : last = owned.hear (d.reach step.order ⟨server, owned.addr⟩) (published M d step))
      (other : Unserved d step owned.addr)
  | gone (mem : ⟨server, last⟩ ∈ d.destroyed) (other : Unserved d step last.addr)

section
variable {σ : Type*} {M : MiniModem.Modem σ} {fds : Descriptors} {d d' : Daemon σ} {step : Step}
  {server : Server} {last : Owned server}

/-- An address that has not been given yet is not served. -/
lemma Subscribed.unserved_later (s : Subscribed d) {addr : ℕ} (later : d.allocated ≤ addr) (step : Step) :
    Unserved d step addr := by
  intro server fd owned _ here e
  have lt := (s.subscription server fd owned here).2
  omega

/-- A session is not served in a step that is about another descriptor. -/
lemma Subscribed.unserved_other (s : Subscribed d) {fd : Fd} {owned : Owned server}
    (here : d.session? server fd = some owned) (target : step.target ≠ some fd) :
    Unserved d step owned.addr := by
  intro server' fd' owned' target' there e
  obtain ⟨-, rfl⟩ := s.unique _ _ _ _ _ _ there here e
  exact target target'

/-- A session that has been destroyed is not served. -/
lemma Recorded.unserved (recorded : Recorded d) (mem : ⟨server, last⟩ ∈ d.destroyed) (step : Step) :
    Unserved d step last.addr := by
  intro server' fd owned _ here
  exact recorded.gone _ mem server' fd owned here

/-- Where a session that is there after a step comes from. -/
lemma Origin.of_live (known : Known fds d) (run : (system M).step d step = some d') {fd : Fd}
    (there : d'.session? server fd = some last) : Origin M d step last := by
  obtain ⟨⟨⟨w, s⟩, -⟩, -⟩ := known
  rcases here : d.session? server fd with _ | owned
  · obtain ⟨unused, -, later⟩ := step_new w run here there
    exact .created unused later (s.unserved_later later step)
  · rcases step_owned w run here with ⟨events, env, rfl, handled⟩ | ⟨target, heard, -⟩
    · obtain ⟨last', there', identity, -, ⟨-, r⟩ | ⟨-, rfl⟩⟩ := handleClient_inv w here handled
      · rw [r.gone] at there
        cases there
      · obtain rfl : last' = last := Option.some.inj (there'.symm.trans there)
        exact .served rfl here there' (congrArg Prod.fst identity)
    · rw [here] at heard
      exact .heard here (Option.some.inj (there.symm.trans heard)) (s.unserved_other here target)

/-- Where a session that has been destroyed after a step comes from. -/
lemma Origin.of_destroyed (known : Known fds d) (run : (system M).step d step = some d')
    (mem : ⟨server, last⟩ ∈ d'.destroyed) : Origin M d step last := by
  have w := known.1.1.1
  have recorded := known.1.2
  rcases step_destroyed w run with same | ⟨server', fd, owned, last', here, addr, grown⟩
  · rw [same] at mem
    exact .gone mem (recorded.unserved mem step)
  · rcases step_owned w run here with ⟨events, env, rfl, handled⟩ | ⟨-, heard, -⟩
    · have frame := (serves_serve (M := M) here events env).frame
      obtain ⟨last'', there, identity, -, ⟨-, r⟩ | ⟨-, rfl⟩⟩ := handleClient_inv w here handled
      · rw [r.destroyed, frame.destroyed, List.mem_append, List.mem_singleton] at mem
        rcases mem with mem | e
        · exact .gone mem (recorded.unserved mem _)
        · cases e
          exact .served rfl here there (congrArg Prod.fst identity)
      · -- a session that stays alive is not destroyed
        have same : d.destroyed = d.destroyed ++ [⟨server', last'⟩] := frame.destroyed.symm.trans grown
        simp at same
    · rw [here, Option.map_some] at heard
      have mem : ⟨server', last'⟩ ∈ d'.destroyed := by
        rw [grown]
        exact List.mem_append_right _ (List.mem_singleton_self _)
      have ne := ((kept_known fds).step known run).1.2.gone _ mem server' fd _ heard
      exact absurd addr.symm ne

/-- The origins together: one of them applies to every session that is there or has been destroyed. -/
lemma Origin.of_step (known : Known fds d) (run : (system M).step d step = some d') (has : d'.HasSession last) :
    Origin M d step last := by
  rcases has with ⟨fd, there⟩ | mem
  · exact .of_live known run there
  · exact .of_destroyed known run mem

end

end MiniModem.Daemon
