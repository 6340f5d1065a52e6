import MiniModem.Lib.LittleEndian
import MiniModem.Lib.UnorderedMap

/-!
# The event bus

`src/modem/event_bus.cpp`: handlers under the ids of their subscriptions. `publish` copies the ids, in
whatever order the container iterates, and then looks each of them up again, since a handler may change
the container. The handlers are data here: what they do to the rest of the program, `World`, is a
parameter of `publish`. Where they leave the bus alone, publishing runs over the subscribers there were
at the start (`publish_eq`), and each of them is called.
-/

namespace MiniModem.Modem
open Lib

/-- Kinds of event. -/
inductive EventType
  | NetworkRegistered | NetworkLost | SignalChanged | SimInserted | SimRemoved
  deriving DecidableEq, Repr

/-- An event, with the data of the kinds that have some. -/
structure ModemEvent where
  type : EventType
  operatorCode : Bytes := []
  signalStrength : ℤ := 0
  deriving DecidableEq, Repr

/-- `std::uint64_t`, which wraps around. -/
abbrev SubscriptionId := UInt64

/-- A pointer to an event bus. -/
abbrev BusPtr := ℕ

/-- Ids do not collide below the bound. -/
lemma id_inj {n m : ℕ} (n_lt : n < 2 ^ 64) (m_lt : m < 2 ^ 64)
    (e : UInt64.ofNat n = UInt64.ofNat m) : n = m := by
  have toNat := congrArg UInt64.toNat e
  rwa [UInt64.toNat_ofNat', UInt64.toNat_ofNat', Nat.mod_eq_of_lt n_lt, Nat.mod_eq_of_lt m_lt] at toNat

/-- The owner of a subscription; an empty one has no bus and the id 0. -/
structure Subscription where
  bus : Option BusPtr := none
  id : SubscriptionId := 0
  deriving DecidableEq, Repr

/-- The handlers, and the id of the next subscription. -/
structure EventBus (Handler : Type*) where
  nextId : SubscriptionId := 1
  handlers : UnorderedMap SubscriptionId Handler := ∅

/-- The order in which the container is iterated. -/
structure IterationOrder where
  order : List SubscriptionId → List SubscriptionId
  perm : ∀ ids, (order ids).Perm ids

/-- Iteration in the order of the entries. -/
def IterationOrder.entries : IterationOrder := ⟨id, fun ids => .refl ids⟩

namespace EventBus
variable {Handler World : Type*}

/-- The id counter wraps around; a handler is not stored under an id that is taken. -/
def subscribe (this : BusPtr) (handler : Handler) (bus : EventBus Handler) :
    Subscription × EventBus Handler :=
  (⟨some this, bus.nextId⟩,
    { nextId := bus.nextId + 1, handlers := UnorderedMap.emplace bus.nextId handler bus.handlers })

/-- An id without a handler is no error. -/
def unsubscribe (id : SubscriptionId) (bus : EventBus Handler) : EventBus Handler :=
  { bus with handlers := bus.handlers.erase id }

/-- Call the handlers of the ids in turn, as far as they are still there. -/
def publishTo (bus : World → EventBus Handler) (call : Handler → ModemEvent → World → World)
    (event : ModemEvent) (ids : List SubscriptionId) (world : World) : World :=
  ids.foldl
    (fun world id =>
      match (bus world).handlers.lookup id with
      | none => world
      | some handler => call handler event world)
    world

/-- The handlers found at the beginning are called one after the other, each with the bus as it is then. -/
def publish (bus : World → EventBus Handler) (call : Handler → ModemEvent → World → World)
    (order : IterationOrder) (event : ModemEvent) (world : World) : World :=
  publishTo bus call event (order.order (bus world).handlers.keys) world

/-- The handlers there are, in the order of iteration. -/
def subscribers (order : IterationOrder) (bus : EventBus Handler) : List Handler :=
  (order.order bus.handlers.keys).filterMap fun id => bus.handlers.lookup id

/-- The subscribers are the handlers in the map, in whatever order. -/
lemma mem_subscribers {order : IterationOrder} {bus : EventBus Handler} {handler : Handler} :
    handler ∈ bus.subscribers order ↔ ∃ id, bus.handlers.lookup id = some handler := by
  rw [subscribers, List.mem_filterMap]
  refine ⟨?_, ?_⟩
  · intro called
    obtain ⟨id, -, e⟩ := called
    exact ⟨id, e⟩
  · intro stored
    obtain ⟨id, e⟩ := stored
    refine ⟨id, (order.perm _).mem_iff.mpr ?_, e⟩
    exact UnorderedMap.mem_iff_lookup.mpr ⟨handler, e⟩

/-- Handlers that leave the bus alone are called as the bus had them at the start. -/
theorem publish_eq {bus : World → EventBus Handler} {call : Handler → ModemEvent → World → World}
    (keep : ∀ handler event world, bus (call handler event world) = bus world)
    (order : IterationOrder) (event : ModemEvent) (world : World) :
    publish bus call order event world =
      ((bus world).subscribers order).foldl (fun world handler => call handler event world)
        world := by
  rw [publish, subscribers]
  generalize order.order (bus world).handlers.keys = ids
  induction ids generalizing world with
  | nil => rfl
  | cons id ids ih =>
    rw [publishTo, List.foldl_cons, List.filterMap_cons]
    rcases e : (bus world).handlers.lookup id with _ | handler
    · exact ih world
    · simp only [List.foldl_cons]
      rw [← keep handler event world]
      exact ih (call handler event world)

/-- The ids are given out in turn, and the handlers are stored under some that have been given out. -/
structure Issued (made : ℕ) (bus : EventBus Handler) : Prop where
  counter : bus.nextId = UInt64.ofNat (made + 1)
  issued : ∀ id ∈ bus.handlers, ∃ n, 0 < n ∧ n ≤ made ∧ id = UInt64.ofNat n

namespace Issued
variable {made : ℕ} {bus : EventBus Handler}

/-- On a new bus no id has been issued. -/
lemma new : Issued 0 ({} : EventBus Handler) := by
  refine ⟨rfl, ?_⟩
  intro id mem
  cases mem

/-- Subscribing issues one more id. -/
lemma subscribe (ids : bus.Issued made) (this : BusPtr) (handler : Handler) :
    (bus.subscribe this handler).2.Issued (made + 1) := by
  refine ⟨?_, ?_⟩
  · show bus.nextId + 1 = UInt64.ofNat (made + 1 + 1)
    rw [ids.counter]
    exact (UInt64.ofNat_add (made + 1) 1).symm
  · intro id mem
    rcases UnorderedMap.mem_emplace.mp mem with rfl | mem
    · exact ⟨made + 1, Nat.succ_pos made, le_rfl, ids.counter⟩
    · obtain ⟨n, pos, le, e⟩ := ids.issued id mem
      exact ⟨n, pos, Nat.le_succ_of_le le, e⟩

/-- Unsubscribing issues none. -/
lemma unsubscribe (ids : bus.Issued made) (id : SubscriptionId) : (bus.unsubscribe id).Issued made := by
  refine ⟨ids.counter, ?_⟩
  intro id' mem
  exact ids.issued id' (AList.mem_erase.mp mem).2

/-- The next id is not in use. -/
lemma fresh (ids : bus.Issued made) (bound : made + 1 < 2 ^ 64) : bus.nextId ∉ bus.handlers := by
  intro mem
  obtain ⟨n, pos, le, e⟩ := ids.issued _ mem
  rw [ids.counter] at e
  have := id_inj bound (by omega) e
  omega

/-- The id 0 is not in use. -/
lemma ne_zero (ids : bus.Issued made) (bound : made < 2 ^ 64) {id : SubscriptionId}
    (mem : id ∈ bus.handlers) : id ≠ 0 := by
  obtain ⟨n, pos, le, rfl⟩ := ids.issued id mem
  intro e
  have := id_inj (m := 0) (by omega) (by omega) e
  omega

end Issued

end EventBus

/-- Unsubscribe, unless the subscription is empty; it is empty afterwards. -/
def Subscription.reset {Handler : Type*} (subscription : Subscription) (bus : EventBus Handler) :
    Subscription × EventBus Handler :=
  if subscription.bus ≠ none ∧ subscription.id ≠ 0 then ({}, bus.unsubscribe subscription.id)
  else ({}, bus)

/-- Which handlers the destructor of a subscription leaves. -/
lemma lookup_reset {Handler : Type*} {subscription : Subscription} {bus : EventBus Handler}
    (some : subscription.bus ≠ none) (id : SubscriptionId) (handler : Handler) :
    (subscription.reset bus).2.handlers.lookup id = .some handler ↔
      ¬ (id = subscription.id ∧ subscription.id ≠ 0) ∧ bus.handlers.lookup id = .some handler := by
  rw [Subscription.reset]
  by_cases zero : subscription.id = 0
  · rw [if_neg (by simp [zero])]
    simp [zero]
  · rw [if_pos ⟨some, zero⟩]
    apply UnorderedMap.lookup_erase_iff.trans
    simp [zero]

/-- A reset takes away the handler under its id, unless the id is 0. -/
lemma mem_reset {Handler : Type*} {subscription : Subscription} {bus : EventBus Handler}
    (some : subscription.bus ≠ none) (id : SubscriptionId) :
    id ∈ (subscription.reset bus).2.handlers ↔
      ¬ (id = subscription.id ∧ subscription.id ≠ 0) ∧ id ∈ bus.handlers := by
  simp only [UnorderedMap.mem_iff_lookup, lookup_reset some, exists_and_left]

/-- A reset issues no id. -/
lemma EventBus.Issued.reset {Handler : Type*} {made : ℕ} {bus : EventBus Handler} (ids : bus.Issued made)
    (subscription : Subscription) : (subscription.reset bus).2.Issued made := by
  rw [Subscription.reset]
  split
  · exact ids.unsubscribe subscription.id
  · exact ids

end MiniModem.Modem
