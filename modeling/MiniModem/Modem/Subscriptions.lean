import Mathlib.Logic.Function.Basic
import MiniModem.Lib.Ownership
import MiniModem.Lib.System
import MiniModem.Modem.EventBus

/-!
# The owners of subscriptions

The constructors, the destructor, the assignment and `reset` of `EventBus::Subscription`, for any number of
objects under their addresses and any number of buses. As with descriptors the ids that a bus has handlers
for are owned, each by one object (`subscriptions_owned`). The counter of ids wraps around, so this is
limited to as many subscriptions on one bus as there are ids.
-/

namespace MiniModem.Modem
open Lib

/-- The address of an object of the class. -/
abbrev SubscriptionPtr := ℕ

/-- The live objects and the buses, and a record that no code reads: the subscriptions made on each bus. -/
structure Subscriptions (Handler : Type*) where
  objects : UnorderedMap SubscriptionPtr Subscription := ∅
  buses : BusPtr → EventBus Handler := fun _ => {}
  made : BusPtr → ℕ := fun _ => 0

namespace Subscriptions
variable {Handler : Type*}

/-- `Subscription()` -/
def constructDefault (this : SubscriptionPtr) (s : Subscriptions Handler) : Subscriptions Handler :=
  { s with objects := s.objects.insert this {} }

/-- A subscription is made on the bus. -/
def count (bus : BusPtr) (s : Subscriptions Handler) : Subscriptions Handler :=
  { s with made := Function.update s.made bus (s.made bus + 1) }

/-- The life of an object ends, after its destructor. -/
def endLife (this : SubscriptionPtr) (s : Subscriptions Handler) : Subscriptions Handler :=
  { s with objects := s.objects.erase this }

/-- `EventBus::subscribe`, which returns its result into a new object. -/
def subscribe (this : SubscriptionPtr) (bus : BusPtr) (handler : Handler) (s : Subscriptions Handler) :
    Subscriptions Handler :=
  let (subscription, eventBus) := (s.buses bus).subscribe bus handler
  { s with objects := s.objects.insert this subscription, buses := Function.update s.buses bus eventBus }

/-- `reset()` -/
def reset (this : SubscriptionPtr) (subscription : Subscription) (s : Subscriptions Handler) :
    Subscriptions Handler :=
  { s with
    objects := s.objects.insert this {}
    buses :=
      match subscription.bus with
      | none => s.buses
      | some bus => Function.update s.buses bus (subscription.reset (s.buses bus)).2 }

/-- `Subscription(Subscription&& other)`, where `source` is the object at `other` -/
def moveConstruct (this other : SubscriptionPtr) (source : Subscription) (s : Subscriptions Handler) :
    Subscriptions Handler :=
  { s with objects := (s.objects.insert this source).insert other {} }

/-- `operator=(Subscription&& other)` -/
def moveAssign (this other : SubscriptionPtr) (subscription source : Subscription)
    (s : Subscriptions Handler) : Subscriptions Handler :=
  if this = other then s
  else
    let s := s.reset this subscription
    { s with objects := (s.objects.insert this source).insert other {} }

/-- `~Subscription()` -/
def destruct (this : SubscriptionPtr) (subscription : Subscription) (s : Subscriptions Handler) :
    Subscriptions Handler :=
  s.reset this subscription

end Subscriptions

/-- A constructor, a call or the destructor, with the address of the object. -/
inductive SubscriptionStep (Handler : Type*)
  | constructDefault (this : SubscriptionPtr)
  | subscribe (this : SubscriptionPtr) (bus : BusPtr) (handler : Handler)
  | moveConstruct (this other : SubscriptionPtr)
  | moveAssign (this other : SubscriptionPtr)
  | reset (this : SubscriptionPtr)
  | destruct (this : SubscriptionPtr)

/-- The objects as a system. A constructor runs at an address where no object lives, everything else on live
objects; after its destructor an object is no more. -/
def subscriptionSystem {Handler : Type*} : System (Subscriptions Handler) (SubscriptionStep Handler) where
  step s
    | .constructDefault this => if this ∉ s.objects then some (s.constructDefault this) else none
    | .subscribe this bus handler =>
      if this ∉ s.objects then some ((s.subscribe this bus handler).count bus) else none
    | .moveConstruct this other =>
      if this ∉ s.objects then
        (s.objects.lookup other).map fun source => s.moveConstruct this other source
      else none
    | .moveAssign this other =>
      (s.objects.lookup this).bind fun subscription =>
        (s.objects.lookup other).map fun source => s.moveAssign this other subscription source
    | .reset this => (s.objects.lookup this).map fun subscription => s.reset this subscription
    | .destruct this => (s.objects.lookup this).map fun subscription => (s.destruct this subscription).endLife this

/-- What a subscription owns: an id of a bus. -/
def subscriptionOwner : Movable Subscription (BusPtr × SubscriptionId) where
  owned subscription := subscription.bus.map fun bus => (bus, subscription.id)
  empty := {}
  owned_empty := rfl

/-- An object owns the id that it holds on a bus. -/
lemma subscriptionOwner_owned {subscription : Subscription} {bus : BusPtr} {id : SubscriptionId} :
    subscriptionOwner.owned subscription = some (bus, id) ↔ subscription = ⟨some bus, id⟩ := by
  obtain ⟨bus', id'⟩ := subscription
  simp [subscriptionOwner]

namespace Subscriptions
variable {Handler : Type*} {s : Subscriptions Handler}

/-- The ids for which the buses have handlers. -/
def held (s : Subscriptions Handler) : Set (BusPtr × SubscriptionId) :=
  {r | r.2 ∈ (s.buses r.1).handlers}

/-- No bus has given out all ids. -/
def Bounded (s : Subscriptions Handler) : Prop := ∀ bus, s.made bus < 2 ^ 64

/-- The ids in use have been given out, and each is owned. -/
structure Sound (s : Subscriptions Handler) : Prop where
  ids : ∀ bus, (s.buses bus).Issued (s.made bus)
  exact : s.Bounded → subscriptionOwner.Exact s.objects s.held

namespace Sound

/-- Without objects nothing is owned or stored. -/
lemma nil : Sound ({} : Subscriptions Handler) := by
  refine ⟨fun bus => .new, ?_⟩
  intro _
  have none : ({} : Subscriptions Handler).held = ∅ := by
    rw [Set.eq_empty_iff_forall_notMem]
    intro r mem
    cases mem
  rw [none]
  exact .nil

/-- A bound that holds after a subscription held before it. -/
lemma bounded_of_subscribe {this : SubscriptionPtr} {bus : BusPtr} {handler : Handler}
    (bounded : ((s.subscribe this bus handler).count bus).Bounded) :
    s.made bus + 1 < 2 ^ 64 ∧ s.Bounded := by
  have here := bounded bus
  simp only [count, Subscriptions.subscribe, Function.update_self] at here
  refine ⟨here, ?_⟩
  intro bus'
  rcases eq_or_ne bus' bus with rfl | ne
  · omega
  · have there := bounded bus'
    simpa only [count, Subscriptions.subscribe, Function.update_of_ne ne] using there

/-- A subscription adds a handler under the id that it returns. -/
lemma subscribe_held (this : SubscriptionPtr) (bus : BusPtr) (handler : Handler) :
    (s.subscribe this bus handler).held =
      s.held ∪ {r | subscriptionOwner.owned ⟨some bus, (s.buses bus).nextId⟩ = some r} := by
  ext r
  obtain ⟨bus', id⟩ := r
  rw [Set.mem_union, Set.mem_ofPred_eq, subscriptionOwner_owned, held, held, Set.mem_ofPred_eq,
    Set.mem_ofPred_eq]
  rcases eq_or_ne bus' bus with rfl | ne
  · simp only [Subscriptions.subscribe, Function.update_self, EventBus.subscribe,
      UnorderedMap.mem_emplace, Subscription.mk.injEq, true_and]
    rw [or_comm, eq_comm]
  · simp [Subscriptions.subscribe, ne, ne.symm]

/-- The new object owns the id that it gets. -/
lemma subscribe (sound : s.Sound) {this : SubscriptionPtr} (new : this ∉ s.objects) (bus : BusPtr)
    (handler : Handler) : ((s.subscribe this bus handler).count bus).Sound := by
  refine ⟨?_, ?_⟩
  · intro bus'
    rcases eq_or_ne bus' bus with rfl | ne
    · simp only [count, Subscriptions.subscribe, Function.update_self]
      exact (sound.ids bus').subscribe bus' handler
    · simp only [count, Subscriptions.subscribe, Function.update_of_ne ne]
      exact sound.ids bus'
  · intro bounded
    obtain ⟨bound, bounded⟩ := bounded_of_subscribe bounded
    have more : ((s.subscribe this bus handler).count bus).held = (s.subscribe this bus handler).held := rfl
    rw [more, subscribe_held]
    apply (sound.exact bounded).construct ⟨some bus, (s.buses bus).nextId⟩ new
    intro r e
    obtain ⟨bus', id⟩ := r
    cases subscriptionOwner_owned.mp e
    exact (sound.ids bus).fresh bound

/-- An object owns an id only if its bus has a handler for it. -/
lemma mem_held (sound : s.Sound) (bounded : s.Bounded) {this : SubscriptionPtr} {bus : BusPtr}
    {id : SubscriptionId} (here : s.objects.lookup this = some ⟨some bus, id⟩) :
    id ∈ (s.buses bus).handlers :=
  ((sound.exact bounded).held (bus, id)).mpr ⟨this, _, here, rfl⟩

/-- A reset takes away the handler that the object owns. -/
lemma reset_held (sound : s.Sound) (bounded : s.Bounded) {this : SubscriptionPtr}
    {subscription : Subscription} (here : s.objects.lookup this = some subscription) :
    (s.reset this subscription).held = s.held \ {r | subscriptionOwner.Owns s.objects this r} := by
  obtain ⟨bus, id⟩ := subscription
  ext r
  obtain ⟨bus', id'⟩ := r
  rw [Set.mem_sdiff, Set.mem_ofPred_eq, Movable.owns_of_lookup here, subscriptionOwner_owned]
  cases bus with
  | none =>
    simp [held, Subscriptions.reset]
  | some bus =>
    -- the id is in use, so it is not 0
    have used : id ≠ 0 := (sound.ids bus).ne_zero (bounded bus) (sound.mem_held bounded here)
    simp only [held, Subscriptions.reset, Set.mem_ofPred_eq]
    rcases eq_or_ne bus' bus with rfl | ne
    · rw [Function.update_self, mem_reset (by simp)]
      simp [used, and_comm, eq_comm]
    · rw [Function.update_of_ne ne]
      simp [ne.symm]

/-- A reset keeps the ownership sound. -/
lemma reset (sound : s.Sound) {this : SubscriptionPtr} {subscription : Subscription}
    (here : s.objects.lookup this = some subscription) : (s.reset this subscription).Sound := by
  refine ⟨?_, ?_⟩
  · intro bus'
    obtain ⟨bus, id⟩ := subscription
    cases bus with
    | none => exact sound.ids bus'
    | some bus =>
      simp only [Subscriptions.reset]
      rcases eq_or_ne bus' bus with rfl | ne
      · rw [Function.update_self]
        exact (sound.ids bus').reset ⟨some bus', id⟩
      · rw [Function.update_of_ne ne]
        exact sound.ids bus'
  · intro bounded
    rw [sound.reset_held bounded here]
    exact (sound.exact bounded).reset this

/-- An object that has been reset owns nothing. -/
lemma not_owns_reset {this : SubscriptionPtr} {subscription : Subscription}
    {r : BusPtr × SubscriptionId} :
    ¬ subscriptionOwner.Owns (s.reset this subscription).objects this r :=
  Movable.not_owns_empty

/-- Each step keeps the ownership sound. -/
lemma step (sound : s.Sound) {step : SubscriptionStep Handler} {s' : Subscriptions Handler}
    (run : subscriptionSystem.step s step = some s') : s'.Sound := by
  cases step with
  | constructDefault this =>
    simp only [subscriptionSystem, Option.ite_none_right_eq_some, Option.some.injEq] at run
    obtain ⟨new, rfl⟩ := run
    exact ⟨sound.ids, fun bounded => (sound.exact bounded).constructEmpty new⟩
  | subscribe this bus handler =>
    simp only [subscriptionSystem, Option.ite_none_right_eq_some, Option.some.injEq] at run
    obtain ⟨new, rfl⟩ := run
    exact sound.subscribe new bus handler
  | moveConstruct this other =>
    simp only [subscriptionSystem, Option.ite_none_right_eq_some, Option.map_eq_some_iff] at run
    obtain ⟨new, source, there, rfl⟩ := run
    exact ⟨sound.ids, fun bounded => (sound.exact bounded).moveConstruct new there⟩
  | moveAssign this other =>
    simp only [subscriptionSystem, Option.bind_eq_some_iff, Option.map_eq_some_iff] at run
    obtain ⟨subscription, here, source, there, rfl⟩ := run
    rw [Subscriptions.moveAssign]
    split
    · exact sound
    · next ne =>
      have after := sound.reset here
      have there' : (s.reset this subscription).objects.lookup other = some source :=
        (AList.lookup_insert_ne (Ne.symm ne)).trans there
      refine ⟨after.ids, fun bounded => ?_⟩
      have moved := (after.exact bounded).move ne there'
      rwa [Movable.sdiff_owns fun r => not_owns_reset] at moved
  | reset this =>
    simp only [subscriptionSystem, Option.map_eq_some_iff] at run
    obtain ⟨subscription, here, rfl⟩ := run
    exact sound.reset here
  | destruct this =>
    simp only [subscriptionSystem, Option.map_eq_some_iff] at run
    obtain ⟨subscription, here, rfl⟩ := run
    have after := sound.reset here
    refine ⟨after.ids, fun bounded => ?_⟩
    have destroyed := (after.exact bounded).destroy this
    rwa [Movable.sdiff_owns fun r => not_owns_reset] at destroyed

end Sound

/-- The object at an address is bound to the bus, under the id. -/
def Holds (s : Subscriptions Handler) (this : SubscriptionPtr) (bus : BusPtr) (id : SubscriptionId) :
    Prop :=
  s.objects.lookup this = some ⟨some bus, id⟩

/-- The ids that a bus has handlers for are the ids of the objects bound to it, and no id is that of two
objects. -/
structure Owned (s : Subscriptions Handler) : Prop where
  handlers : ∀ bus id, id ∈ (s.buses bus).handlers ↔ ∃ this, s.Holds this bus id
  unique : ∀ bus id this other, s.Holds this bus id → s.Holds other bus id → other = this

/-- Owning an id on a bus is holding it. -/
lemma owns_iff {this : SubscriptionPtr} {bus : BusPtr} {id : SubscriptionId} :
    subscriptionOwner.Owns s.objects this (bus, id) ↔ s.Holds this bus id := by
  simp [Movable.Owns, Holds, subscriptionOwner_owned]

/-- Each handler has one owner. -/
lemma Sound.owned (sound : s.Sound) (bounded : s.Bounded) : s.Owned := by
  have exact := sound.exact bounded
  refine ⟨?_, ?_⟩
  · intro bus id
    refine (exact.held (bus, id)).trans (exists_congr fun this => owns_iff)
  · intro bus id this other here there
    exact exact.unique this other (bus, id) (owns_iff.mpr here) (owns_iff.mpr there)

end Subscriptions

/-- As long as no bus has given out all ids, every handler is owned by one object, and every object that is
bound to a bus owns a handler there. -/
theorem subscriptions_owned {Handler : Type*} (steps : List (SubscriptionStep Handler)) :
    subscriptionSystem.Always (fun s => s.Bounded → s.Owned) {} steps := by
  have sound : subscriptionSystem.Always Subscriptions.Sound {} steps :=
    System.always_of_step (fun _ _ _ sound next => sound.step next) .nil steps
  intro before sub s run bounded
  exact (sound before sub s run).owned bounded

/-- A subscription that is returned into a local object and moved to its place. The bus has the new handler, and
the object at that place owns it. -/
lemma exec_moved {Handler : Type*} {s : Subscriptions Handler} {bus : BusPtr} (handler : Handler)
    {source member : SubscriptionPtr} (ne : member ≠ source) (new : source ∉ s.objects ∧ member ∉ s.objects) :
    ∃ s', subscriptionSystem.exec s [.subscribe source bus handler, .moveConstruct member source,
        .destruct source] = some s' ∧
      s'.Holds member bus (s.buses bus).nextId ∧
      (s'.buses bus).handlers = UnorderedMap.emplace (s.buses bus).nextId handler (s.buses bus).handlers := by
  -- the destructor of the local object finds no bus
  simp [System.exec, subscriptionSystem, Subscriptions.subscribe, Subscriptions.count,
    Subscriptions.moveConstruct, Subscriptions.destruct, Subscriptions.endLife, Subscriptions.reset,
    Subscriptions.Holds, EventBus.subscribe, new, ne, AList.lookup_insert_ne, AList.lookup_erase_ne]

/-- The handler goes with its last owner. -/
example : (subscriptionSystem.exec ({} : Subscriptions ℕ) [.subscribe 0 0 5, .moveConstruct 1 0, .destruct 0,
    .destruct 1]).map (fun s => ((s.buses 0).handlers.keys, s.made 0, s.objects.keys)) = some ([], 1, []) := rfl

end MiniModem.Modem
