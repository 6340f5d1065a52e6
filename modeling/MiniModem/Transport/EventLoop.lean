import MiniModem.Lib.Outcome
import MiniModem.Lib.UnorderedMap
import MiniModem.Transport.Tty

/-!
# The event loop

`src/transport/epoll.cpp` and `src/transport/event_loop.cpp`: the interest list of the kernel, and the
callbacks of the descriptors in it. `epoll_ctl` fails for a descriptor that is in the list already (ADD)
or is not (MOD), and ADD may fail for reasons of its own; a failure is thrown. A DEL of a descriptor
that is not in the list is ignored.
-/

namespace MiniModem.Transport
open Lib

/-- The interest list: the events last set for each descriptor. -/
structure Epoll where
  interest : UnorderedMap Fd Events := ∅

namespace Epoll

/-- `possible` says whether the kernel has room for the descriptor. -/
def add (possible : Bool) (fd : Fd) (events : Events) (epoll : Epoll) : Outcome Epoll :=
  if possible = true ∧ fd ∉ epoll.interest then .returned ⟨epoll.interest.insert fd events⟩
  else .threw epoll

/-- It throws if the descriptor is not in the interest list. -/
def modify (fd : Fd) (events : Events) (epoll : Epoll) : Outcome Epoll :=
  if fd ∈ epoll.interest then .returned ⟨epoll.interest.insert fd events⟩ else .threw epoll

/-- A descriptor that is not in the interest list is no error. -/
def remove (fd : Fd) (epoll : Epoll) : Epoll := ⟨epoll.interest.erase fd⟩

end Epoll

/-- The callbacks are data; what they do is for the program to say. -/
structure EventLoop (Callback : Type*) where
  epoll : Epoll := {}
  running : Bool := true
  callbacks : UnorderedMap Fd Callback := ∅

namespace EventLoop
variable {Callback : Type*}

/-- The callback is stored after `epoll` has taken the descriptor, unless there is one already. -/
def addFd (possible : Bool) (fd : Fd) (events : Events) (callback : Callback)
    (loop : EventLoop Callback) : Outcome (EventLoop Callback) :=
  ((loop.epoll.add possible fd events).map fun epoll => { loop with epoll }).andThen fun loop =>
    .returned { loop with callbacks := UnorderedMap.emplace fd callback loop.callbacks }

/-- The mask changes, and the callback stays. -/
def modifyFd (fd : Fd) (events : Events) (loop : EventLoop Callback) : Outcome (EventLoop Callback) :=
  (loop.epoll.modify fd events).map fun epoll => { loop with epoll }

/-- Both the interest and the callback go. -/
def removeFd (fd : Fd) (loop : EventLoop Callback) : EventLoop Callback :=
  { loop with epoll := loop.epoll.remove fd, callbacks := loop.callbacks.erase fd }

/-- The loop is left when the batch is done. -/
def stop (loop : EventLoop Callback) : EventLoop Callback := { loop with running := false }

/-- Adding succeeds for a descriptor that is not in the interest list, if the kernel does not refuse it. -/
lemma addFd_returned {possible : Bool} {fd : Fd} {events : Events} {callback : Callback}
    {loop loop' : EventLoop Callback} :
    loop.addFd possible fd events callback = .returned loop' ↔
      (possible = true ∧ fd ∉ loop.epoll.interest) ∧
        loop' =
          { loop with
            epoll := ⟨loop.epoll.interest.insert fd events⟩
            callbacks := UnorderedMap.emplace fd callback loop.callbacks } := by
  rw [addFd, Epoll.add]
  split
  · next can => simp [Outcome.map, Outcome.andThen, can, eq_comm]
  · next cannot => simp [Outcome.map, Outcome.andThen, cannot]

/-- Modifying succeeds for a descriptor that is in the interest list. -/
lemma modifyFd_returned {fd : Fd} {events : Events} {loop loop' : EventLoop Callback} :
    loop.modifyFd fd events = .returned loop' ↔
      fd ∈ loop.epoll.interest ∧
        loop' = { loop with epoll := ⟨loop.epoll.interest.insert fd events⟩ } := by
  rw [modifyFd, Epoll.modify]
  split
  · next there => simp [Outcome.map, there, eq_comm]
  · next gone => simp [Outcome.map, gone]

end EventLoop

end MiniModem.Transport
