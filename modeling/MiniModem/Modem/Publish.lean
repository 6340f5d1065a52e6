import MiniModem.Modem.EventBus

/-!
# Publishing to handlers that change the bus

A handler may subscribe others and reset subscriptions while it is called, its own among them. `publish`
works on a copy of the ids, so the container may change under it. `calls` are the calls that it makes
(`publishTo_eq`), and each lookup on the way sees the handlers there were at the start, but for those that
calls before it have unsubscribed (`lookup_publishTo`): ids are not given out twice.
-/

namespace MiniModem.Modem
open Lib

/-- What a handler does with the bus: it subscribes another one, or it resets the subscription of an id. -/
inductive BusAction (Handler : Type*)
  | subscribe (handler : Handler)
  | unsubscribe (id : SubscriptionId)

/-- A call of a handler, with the ids it has subscribed and unsubscribed. -/
structure HandlerCall (Handler : Type*) where
  id : SubscriptionId
  handler : Handler
  subscribed : List SubscriptionId
  unsubscribed : List SubscriptionId

/-- What a handler makes of the rest of the program, `S`, and what it does with the bus. Both may depend on
the bus, so also on the ids that its subscriptions will get. -/
abbrev Behaviour (Handler S : Type*) :=
  Handler → ModemEvent → S × EventBus Handler → S × List (BusAction Handler)

namespace EventBus
variable {Handler S : Type*} (this : BusPtr)

/-- The bus after the actions of a handler. -/
def perform : List (BusAction Handler) → EventBus Handler → EventBus Handler
  | [], bus => bus
  | .subscribe handler :: actions, bus => perform actions (bus.subscribe this handler).2
  | .unsubscribe id :: actions, bus => perform actions (bus.unsubscribe id)

/-- The ids that the actions subscribe. -/
def subscribed : List (BusAction Handler) → EventBus Handler → List SubscriptionId
  | [], _ => []
  | .subscribe handler :: actions, bus =>
    (bus.subscribe this handler).1.id :: subscribed actions (bus.subscribe this handler).2
  | .unsubscribe id :: actions, bus => subscribed actions (bus.unsubscribe id)

/-- The ids that the actions unsubscribe. -/
def unsubscribed : List (BusAction Handler) → List SubscriptionId
  | [] => []
  | .subscribe _ :: actions => unsubscribed actions
  | .unsubscribe id :: actions => id :: unsubscribed actions

variable {this} {made : ℕ} {bus : EventBus Handler}

/-- The ids that have been issued count the subscriptions. -/
lemma Issued.perform (ids : bus.Issued made) (actions : List (BusAction Handler)) :
    (bus.perform this actions).Issued (made + (bus.subscribed this actions).length) := by
  induction actions generalizing made bus with
  | nil => exact ids
  | cons action actions ih =>
    cases action with
    | subscribe handler =>
      have after := ih (ids.subscribe this handler)
      rwa [Nat.add_right_comm, Nat.add_assoc] at after
    | unsubscribe id => exact ih (ids.unsubscribe id)

/-- The ids that are subscribed come after those that have been given out. -/
lemma Issued.subscribed (ids : bus.Issued made) {actions : List (BusAction Handler)} {id : SubscriptionId}
    (mem : id ∈ bus.subscribed this actions) :
    ∃ n, made < n ∧ n ≤ made + (bus.subscribed this actions).length ∧ id = UInt64.ofNat n := by
  induction actions generalizing made bus with
  | nil => cases mem
  | cons action actions ih =>
    cases action with
    | subscribe handler =>
      rw [EventBus.subscribed, List.mem_cons] at mem
      rw [EventBus.subscribed, List.length_cons]
      rcases mem with rfl | mem
      · exact ⟨made + 1, by omega, by omega, ids.counter⟩
      · obtain ⟨n, lt, le, e⟩ := ih (ids.subscribe this handler) mem
        exact ⟨n, by omega, by omega, e⟩
    | unsubscribe id' => exact ih (ids.unsubscribe id') mem

/-- What a lookup sees after the actions, under an id that they do not subscribe. -/
lemma lookup_perform {actions : List (BusAction Handler)} {id : SubscriptionId}
    (old : id ∉ bus.subscribed this actions) :
    (bus.perform this actions).handlers.lookup id =
      if id ∈ unsubscribed actions then none else bus.handlers.lookup id := by
  induction actions generalizing bus with
  | nil => rfl
  | cons action actions ih =>
    cases action with
    | subscribe handler =>
      rw [subscribed, List.mem_cons, not_or] at old
      rw [perform, ih old.2, unsubscribed]
      congr 1
      exact UnorderedMap.lookup_emplace_ne old.1
    | unsubscribe id' =>
      rw [perform, ih old, unsubscribed]
      rcases eq_or_ne id id' with rfl | ne
      · simp [unsubscribe]
      · simp [unsubscribe, AList.lookup_erase_ne ne, ne]

variable (this) (behave : Behaviour Handler S) (event : ModemEvent)

/-- The call of a handler. -/
def call (handler : Handler) (event : ModemEvent) (world : S × EventBus Handler) :
    S × EventBus Handler :=
  let (state, actions) := behave handler event world
  (state, world.2.perform this actions)

/-- The calls made for the ids in turn. -/
def calls : List SubscriptionId → S × EventBus Handler → List (HandlerCall Handler)
  | [], _ => []
  | id :: ids, world =>
    match world.2.handlers.lookup id with
    | none => calls ids world
    | some handler =>
      let actions := (behave handler event world).2
      ⟨id, handler, world.2.subscribed this actions, unsubscribed actions⟩ ::
        calls ids (call this behave handler event world)

/-- The calls that `publish` makes. -/
def publishCalls (order : IterationOrder) (world : S × EventBus Handler) : List (HandlerCall Handler) :=
  calls this behave event (order.order world.2.handlers.keys) world

variable {this behave event} {ids : List SubscriptionId} {world : S × EventBus Handler}

/-- An id without a handler is passed over. -/
lemma publishTo_cons_none {id : SubscriptionId} (gone : world.2.handlers.lookup id = none) :
    publishTo Prod.snd (call this behave) event (id :: ids) world =
      publishTo Prod.snd (call this behave) event ids world := by
  rw [publishTo, List.foldl_cons, gone, publishTo]

/-- The handler of the first id is called first. -/
lemma publishTo_cons_some {id : SubscriptionId} {handler : Handler}
    (there : world.2.handlers.lookup id = some handler) :
    publishTo Prod.snd (call this behave) event (id :: ids) world =
      publishTo Prod.snd (call this behave) event ids (call this behave handler event world) := by
  rw [publishTo, List.foldl_cons, there, publishTo]

/-- An id without a handler is no call. -/
lemma calls_cons_none {id : SubscriptionId} (gone : world.2.handlers.lookup id = none) :
    calls this behave event (id :: ids) world = calls this behave event ids world := by
  rw [calls, gone]

/-- The handler of the first id is the first call. -/
lemma calls_cons_some {id : SubscriptionId} {handler : Handler}
    (there : world.2.handlers.lookup id = some handler) :
    calls this behave event (id :: ids) world =
      ⟨id, handler, world.2.subscribed this (behave handler event world).2,
          unsubscribed (behave handler event world).2⟩ ::
        calls this behave event ids (call this behave handler event world) := by
  rw [calls, there]

/-- Publishing makes the calls, one after the other. -/
lemma publishTo_eq (ids : List SubscriptionId) (world : S × EventBus Handler) :
    publishTo Prod.snd (call this behave) event ids world =
      (calls this behave event ids world).foldl
        (fun world c => call this behave c.handler event world) world := by
  induction ids generalizing world with
  | nil => rfl
  | cons id ids ih =>
    rcases there : world.2.handlers.lookup id with _ | handler
    · rw [publishTo_cons_none there, calls_cons_none there, ih]
    · rw [publishTo_cons_some there, calls_cons_some there, ih, List.foldl_cons]

/-- The calls for two lists of ids, one after the other. -/
lemma calls_append (before after : List SubscriptionId) (world : S × EventBus Handler) :
    calls this behave event (before ++ after) world =
      calls this behave event before world ++
        calls this behave event after (publishTo Prod.snd (call this behave) event before world) := by
  induction before generalizing world with
  | nil => rfl
  | cons id before ih =>
    rcases there : world.2.handlers.lookup id with _ | handler
    · rw [List.cons_append, calls_cons_none there, calls_cons_none there, publishTo_cons_none there, ih]
    · rw [List.cons_append, calls_cons_some there, calls_cons_some there, publishTo_cons_some there, ih,
        List.cons_append]

/-- The ids of the calls are some of those given, in their order. -/
lemma calls_sublist (ids : List SubscriptionId) (world : S × EventBus Handler) :
    List.Sublist ((calls this behave event ids world).map HandlerCall.id) ids := by
  induction ids generalizing world with
  | nil => exact List.nil_sublist _
  | cons id ids ih =>
    rcases there : world.2.handlers.lookup id with _ | handler
    · rw [calls_cons_none there]
      exact (ih world).cons id
    · rw [calls_cons_some there]
      exact (ih _).cons_cons id

/-- Where in the copy of the ids a call comes from. -/
lemma calls_split {before after : List (HandlerCall Handler)} {c : HandlerCall Handler}
    (split : calls this behave event ids world = before ++ c :: after) :
    ∃ pre post, ids = pre ++ c.id :: post ∧ calls this behave event pre world = before ∧
      (publishTo Prod.snd (call this behave) event pre world).2.handlers.lookup c.id =
        some c.handler := by
  induction ids generalizing world before with
  | nil =>
    rw [calls] at split
    simp at split
  | cons id ids ih =>
    rcases there : world.2.handlers.lookup id with _ | handler
    · rw [calls_cons_none there] at split
      obtain ⟨pre, post, rfl, e, found⟩ := ih split
      refine ⟨id :: pre, post, rfl, ?_, ?_⟩
      · rw [calls_cons_none there, e]
      · rw [publishTo_cons_none there, found]
    · rw [calls_cons_some there] at split
      cases before with
      | nil =>
        obtain ⟨rfl, -⟩ := List.cons.inj split
        exact ⟨[], ids, rfl, rfl, there⟩
      | cons first before =>
        obtain ⟨rfl, rest⟩ := List.cons.inj split
        obtain ⟨pre, post, rfl, e, found⟩ := ih rest
        refine ⟨id :: pre, post, rfl, ?_, ?_⟩
        · rw [calls_cons_some there, e]
        · rw [publishTo_cons_some there, found]

/-- The ids that the calls subscribe come after those that have been given out. -/
lemma Issued.calls (given : world.2.Issued made) (ids : List SubscriptionId) {id : SubscriptionId}
    (mem : id ∈ (calls this behave event ids world).flatMap HandlerCall.subscribed) :
    ∃ n, made < n ∧
      n ≤ made + ((calls this behave event ids world).flatMap HandlerCall.subscribed).length ∧
        id = UInt64.ofNat n := by
  induction ids generalizing made world with
  | nil => cases mem
  | cons id' ids ih =>
    rcases there : world.2.handlers.lookup id' with _ | handler
    · rw [calls_cons_none there] at mem ⊢
      exact ih given mem
    · rw [calls_cons_some there] at mem ⊢
      simp only [List.flatMap_cons, List.mem_append] at mem
      simp only [List.flatMap_cons, List.length_append]
      rcases mem with mem | mem
      · obtain ⟨n, lt, le, e⟩ := given.subscribed mem
        exact ⟨n, lt, by omega, e⟩
      · obtain ⟨n, lt, le, e⟩ := ih (given.perform _) mem
        exact ⟨n, by omega, by omega, e⟩

/-- What a lookup sees after the calls, under an id that they do not subscribe. -/
lemma lookup_publishTo (ids : List SubscriptionId) (world : S × EventBus Handler) {id : SubscriptionId}
    (old : id ∉ (calls this behave event ids world).flatMap HandlerCall.subscribed) :
    (publishTo Prod.snd (call this behave) event ids world).2.handlers.lookup id =
      if id ∈ (calls this behave event ids world).flatMap HandlerCall.unsubscribed then none
      else world.2.handlers.lookup id := by
  induction ids generalizing world with
  | nil => rfl
  | cons id' ids ih =>
    rcases there : world.2.handlers.lookup id' with _ | handler
    · rw [calls_cons_none there] at old ⊢
      rw [publishTo_cons_none there]
      exact ih world old
    · rw [calls_cons_some there] at old ⊢
      rw [List.flatMap_cons, List.mem_append, not_or] at old
      rw [publishTo_cons_some there, ih _ old.2, List.flatMap_cons, call, lookup_perform old.1]
      simp only [List.mem_append]
      split
      · next later => rw [if_pos (.inr later)]
      · next later => simp only [later, or_false]

/-- What publishing to the ids does in a state. The handlers called are subscribed at the start, each is
called once, and `c` is not called if a call before it has unsubscribed it, or if a call has subscribed it;
the handlers that no call before their turn has unsubscribed are called. -/
structure Delivers (this : BusPtr) (behave : Behaviour Handler S) (event : ModemEvent)
    (ids : List SubscriptionId) (world : S × EventBus Handler) : Prop where
  subscribed : ∀ c ∈ calls this behave event ids world, world.2.handlers.lookup c.id = some c.handler
  once : ((calls this behave event ids world).map HandlerCall.id).Nodup
  withdrawn : ∀ before c after, calls this behave event ids world = before ++ c :: after →
    ∀ b ∈ before, c.id ∉ b.unsubscribed
  added : ∀ c ∈ calls this behave event ids world, ∀ b ∈ calls this behave event ids world,
    c.id ∉ b.subscribed
  reached : ∀ before id after, ids = before ++ id :: after → id ∈ world.2.handlers →
    (∀ b ∈ calls this behave event before world, id ∉ b.unsubscribed) →
      ((calls this behave event ids world).map HandlerCall.id).count id = 1

section Delivery
variable (given : world.2.Issued made) (perm : ids.Perm world.2.handlers.keys)
  (bound : made + ((calls this behave event ids world).flatMap HandlerCall.subscribed).length < 2 ^ 64)
include given perm bound

/-- The ids in the copy are not given out again. -/
lemma not_subscribed_again {id : SubscriptionId} (mem : id ∈ ids) :
    id ∉ (calls this behave event ids world).flatMap HandlerCall.subscribed := by
  intro again
  obtain ⟨n, pos, le, e⟩ := given.issued id (perm.mem_iff.mp mem)
  obtain ⟨n', lt, le', e'⟩ := given.calls ids again
  have := id_inj (by omega) (by omega) (e.symm.trans e')
  omega

/-- What is found for an id at its turn. -/
lemma lookup_turn {before after : List SubscriptionId} {id : SubscriptionId}
    (split : ids = before ++ id :: after) :
    (publishTo Prod.snd (call this behave) event before world).2.handlers.lookup id =
      if id ∈ (calls this behave event before world).flatMap HandlerCall.unsubscribed then none
      else world.2.handlers.lookup id := by
  apply lookup_publishTo before world
  have old : id ∉ (calls this behave event ids world).flatMap HandlerCall.subscribed :=
    not_subscribed_again given perm bound (by simp [split])
  rw [split, calls_append, List.flatMap_append, List.mem_append, not_or] at old
  exact old.1

/-- A call is one of a handler subscribed at the start that no call before it has unsubscribed. -/
lemma calls_turn {before after : List (HandlerCall Handler)} {c : HandlerCall Handler}
    (split : calls this behave event ids world = before ++ c :: after) :
    c.id ∈ ids ∧ c.id ∉ before.flatMap HandlerCall.unsubscribed ∧
      world.2.handlers.lookup c.id = some c.handler := by
  obtain ⟨pre, post, e, rfl, found⟩ := calls_split split
  rw [lookup_turn given perm bound e] at found
  split at found
  · cases found
  · next kept => exact ⟨by simp [e], kept, found⟩

/-- Publishing to any ids delivers to them. -/
lemma delivers : Delivers this behave event ids world := by
  have nodup : ids.Nodup := perm.nodup_iff.mpr world.2.handlers.keys_nodup
  have once : ((calls this behave event ids world).map HandlerCall.id).Nodup :=
    nodup.sublist (calls_sublist ids world)
  refine ⟨?_, once, ?_, ?_, ?_⟩
  · intro c mem
    obtain ⟨before, after, split⟩ := List.append_of_mem mem
    exact (calls_turn given perm bound split).2.2
  · intro before c after split b mem unsubscribed
    exact (calls_turn given perm bound split).2.1 (List.mem_flatMap.mpr ⟨b, mem, unsubscribed⟩)
  · intro c mem b mem' added
    obtain ⟨before, after, split⟩ := List.append_of_mem mem
    exact not_subscribed_again given perm bound (calls_turn given perm bound split).1
      (List.mem_flatMap.mpr ⟨b, mem', added⟩)
  · intro before id after split mem kept
    apply List.count_eq_one_of_mem once
    obtain ⟨handler, there⟩ := UnorderedMap.mem_iff_lookup.mp mem
    have found := lookup_turn given perm bound split
    rw [if_neg (by simpa using kept), there] at found
    rw [split, calls_append, calls_cons_some found]
    simp

end Delivery

/-- In every state that a bus can be in, `publish` makes calls that deliver the event once to each handler
that is still subscribed at its turn. -/
theorem publish_delivers (this : BusPtr) (behave : Behaviour Handler S) (order : IterationOrder)
    (event : ModemEvent) {earlier : List (BusAction Handler)} {world : S × EventBus Handler}
    (reach : world.2 = perform this earlier {})
    (bound : (subscribed this earlier {}).length +
      ((publishCalls this behave event order world).flatMap HandlerCall.subscribed).length < 2 ^ 64) :
    publish Prod.snd (call this behave) order event world =
        (publishCalls this behave event order world).foldl
          (fun world c => call this behave c.handler event world) world ∧
      Delivers this behave event (order.order world.2.handlers.keys) world := by
  have given : world.2.Issued (subscribed this earlier {}).length := by
    have after : (perform this earlier ({} : EventBus Handler)).Issued
        (0 + (subscribed this earlier {}).length) := Issued.new.perform earlier
    rwa [Nat.zero_add, ← reach] at after
  exact ⟨publishTo_eq _ _, delivers given (order.perm _) bound⟩

/-- The third handler of three withdraws the second and itself, and subscribes a fourth. -/
def sampleBehaviour : Behaviour ℕ Unit :=
  fun handler _ _ => ((), if handler = 3 then [.unsubscribe 2, .unsubscribe 3, .subscribe 4] else [])

/-- The bus of three handlers. -/
def sampleWorld : Unit × EventBus ℕ := ((), perform 0 [.subscribe 1, .subscribe 2, .subscribe 3] {})

/-- Only the third and the first are called. -/
theorem publish_delivers_two :
    (publishCalls 0 sampleBehaviour ⟨.SimInserted, [], 0⟩ .entries sampleWorld).map HandlerCall.handler =
        [3, 1] ∧
      Delivers 0 sampleBehaviour ⟨.SimInserted, [], 0⟩ sampleWorld.2.handlers.keys sampleWorld := by
  refine ⟨by decide, ?_⟩
  have reach : sampleWorld.2 = perform 0 [.subscribe 1, .subscribe 2, .subscribe 3] {} := rfl
  exact (publish_delivers 0 sampleBehaviour .entries ⟨.SimInserted, [], 0⟩ reach (by decide)).2

end EventBus

end MiniModem.Modem
