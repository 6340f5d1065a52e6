import Mathlib.Data.List.Infix

/-!
# Audiences

Listeners join, are told things, one by one or all together, and leave. They are numbered in the order in
which they join, and a number is never given to a second listener. Each operation is described by what it
does to the listener with a given number. What is announced is heard by all that are present, in the order
in which it is announced.
-/

namespace MiniModem.Lib

/-- Somebody of some kind who has been told things; after leaving a listener is told nothing more. -/
structure Listener (κ α : Type*) where
  kind : κ
  present : Bool := true
  told : List α := []
  deriving DecidableEq, Repr

/-- All that have joined, those that have left among them. -/
abbrev Audience (κ α : Type*) := List (Listener κ α)

namespace Listener
variable {κ α : Type*}

/-- A listener is told some news. -/
def tell (news : List α) (listener : Listener κ α) : Listener κ α :=
  { listener with told := listener.told ++ news }

/-- A listener hears what is announced while it is present. -/
def hear (news : List α) (listener : Listener κ α) : Listener κ α :=
  if listener.present then listener.tell news else listener

/-- No news change nothing. -/
lemma tell_nil (listener : Listener κ α) : listener.tell [] = listener := by
  rw [tell, List.append_nil]

/-- Being told twice is being told all of it at once. -/
lemma tell_tell (news more : List α) (listener : Listener κ α) :
    (listener.tell news).tell more = listener.tell (news ++ more) := by
  rw [tell, tell, tell, List.append_assoc]

end Listener

namespace Audience
variable {κ α : Type*}

/-- A newcomer gets the next number. -/
def join (kind : κ) (audience : Audience κ α) : Audience κ α := audience ++ [{ kind := kind }]

/-- A listener that leaves keeps its number and what it has been told. -/
def leave (i : ℕ) (audience : Audience κ α) : Audience κ α :=
  audience.modify i fun listener => { listener with present := false }

/-- Tell one listener. -/
def tell (i : ℕ) (news : List α) (audience : Audience κ α) : Audience κ α :=
  audience.modify i fun listener => listener.tell news

/-- Tell all that are present. -/
def announce (news : List α) (audience : Audience κ α) : Audience κ α :=
  audience.map fun listener => listener.hear news

/-- The kind of a listener, if it is present. -/
def present? (i : ℕ) (audience : Audience κ α) : Option κ :=
  audience[i]?.bind fun listener => if listener.present then some listener.kind else none

/-- A listener of a kind is present exactly if it is found there under its number. -/
lemma present?_eq_some {i : ℕ} {audience : Audience κ α} {kind : κ} :
    audience.present? i = some kind ↔ ∃ told, audience[i]? = some ⟨kind, true, told⟩ := by
  rw [present?, Option.bind_eq_some_iff]
  refine ⟨?_, ?_⟩
  · intro found
    obtain ⟨⟨kind', present, told⟩, here, e⟩ := found
    simp only [Option.ite_none_right_eq_some, Option.some.injEq] at e
    obtain ⟨rfl, rfl⟩ := e
    exact ⟨told, here⟩
  · intro found
    obtain ⟨told, here⟩ := found
    exact ⟨_, here, rfl⟩

/-- Whether a listener is there. -/
lemma present?_isSome {i : ℕ} {audience : Audience κ α} {listener : Listener κ α}
    (here : audience[i]? = some listener) : (audience.present? i).isSome = listener.present := by
  rw [present?, here, Option.bind_some]
  split
  · next present => rw [present, Option.isSome_some]
  · next absent => rw [Option.isSome_none, Bool.eq_false_iff.mpr absent]

/-- One more has joined. -/
@[simp] lemma length_join (kind : κ) (audience : Audience κ α) :
    (audience.join kind).length = audience.length + 1 := by
  rw [join, List.length_append, List.length_singleton]

/-- Who leaves is still counted. -/
@[simp] lemma length_leave (i : ℕ) (audience : Audience κ α) :
    (audience.leave i).length = audience.length :=
  List.length_modify _ _ _

/-- Telling one listener adds nobody. -/
@[simp] lemma length_tell (i : ℕ) (news : List α) (audience : Audience κ α) :
    (audience.tell i news).length = audience.length :=
  List.length_modify _ _ _

/-- An announcement adds nobody. -/
@[simp] lemma length_announce (news : List α) (audience : Audience κ α) :
    (audience.announce news).length = audience.length :=
  List.length_map _

/-- The newcomer is there under the number of those before. -/
lemma join_self (kind : κ) (audience : Audience κ α) :
    (audience.join kind)[audience.length]? = some { kind := kind } :=
  List.getElem?_concat_length

/-- Those that were there before keep their numbers. -/
lemma join_of_some {kind : κ} {audience : Audience κ α} {i : ℕ} {listener : Listener κ α}
    (here : audience[i]? = some listener) : (audience.join kind)[i]? = some listener := by
  obtain ⟨lt, -⟩ := List.getElem?_eq_some_iff.mp here
  rw [join, List.getElem?_append_left lt, here]

/-- Who was not there before is new. -/
lemma join_of_none {kind : κ} {audience : Audience κ α} {i : ℕ} (none : audience[i]? = none) :
    (audience.join kind)[i]? = .none ∨ (audience.join kind)[i]? = some { kind := kind } := by
  rcases (List.getElem?_eq_none_iff.mp none).eq_or_lt with e | lt
  · exact .inr (e ▸ join_self kind audience)
  · exact .inl (List.getElem?_eq_none_iff.mpr (by rwa [length_join]))

/-- Who leaves is no longer present. -/
lemma leave_self (i : ℕ) (audience : Audience κ α) :
    (audience.leave i)[i]? = audience[i]?.map fun listener => { listener with present := false } :=
  List.getElem?_modify_eq _ _ _

/-- The others stay. -/
lemma leave_ne {i j : ℕ} (ne : j ≠ i) (audience : Audience κ α) :
    (audience.leave i)[j]? = audience[j]? :=
  List.getElem?_modify_ne _ _ ne.symm

/-- Who is told something is told it last. -/
lemma tell_self (i : ℕ) (news : List α) (audience : Audience κ α) :
    (audience.tell i news)[i]? = audience[i]?.map fun listener => listener.tell news :=
  List.getElem?_modify_eq _ _ _

/-- The others are not told. -/
lemma tell_ne {i j : ℕ} (ne : j ≠ i) (news : List α) (audience : Audience κ α) :
    (audience.tell i news)[j]? = audience[j]? :=
  List.getElem?_modify_ne _ _ ne.symm

/-- An announcement, as each listener hears it. -/
lemma announce_get (news : List α) (audience : Audience κ α) (i : ℕ) :
    (audience.announce news)[i]? = audience[i]?.map fun listener => listener.hear news :=
  List.getElem?_map

/-- Nobody comes or goes when one listener is told something. -/
@[simp] lemma present?_tell (i j : ℕ) (news : List α) (audience : Audience κ α) :
    (audience.tell i news).present? j = audience.present? j := by
  rcases eq_or_ne j i with rfl | ne
  · rw [present?, tell_self, present?]
    rcases audience[j]? with _ | listener
    · rfl
    · rfl
  · rw [present?, tell_ne ne, present?]

/-- Nobody comes or goes when something is announced. -/
@[simp] lemma present?_announce (i : ℕ) (news : List α) (audience : Audience κ α) :
    (audience.announce news).present? i = audience.present? i := by
  rw [present?, announce_get, present?]
  rcases audience[i]? with _ | listener
  · rfl
  · rw [Option.map_some, Option.bind_some, Option.bind_some, Listener.hear]
    split
    · next present => exact if_pos present
    · rfl

/-- A listener and what is announced. -/
lemma announce_of_some {audience : Audience κ α} {i : ℕ} {listener : Listener κ α}
    (here : audience[i]? = some listener) (news : List α) :
    (audience.announce news)[i]? =
      some { listener with told := listener.told ++ if listener.present then news else [] } := by
  rw [announce_get, here, Option.map_some, Listener.hear]
  split
  · rfl
  · rw [List.append_nil]

/-- A listener and what it is told. -/
lemma tell_of_some {audience : Audience κ α} {i : ℕ} {listener : Listener κ α}
    (here : audience[i]? = some listener) (j : ℕ) (news : List α) :
    (audience.tell j news)[i]? =
      some { listener with told := listener.told ++ if j = i then news else [] } := by
  rcases eq_or_ne i j with rfl | ne
  · rw [tell_self, here, if_pos rfl]
    rfl
  · rw [tell_ne ne, here, if_neg ne.symm, List.append_nil]

/-- Telling one listener nothing changes nothing. -/
lemma tell_nil (i : ℕ) (audience : Audience κ α) : audience.tell i [] = audience := by
  apply List.ext_getElem?
  intro j
  rcases eq_or_ne j i with rfl | ne
  · simp only [tell_self, Listener.tell_nil]
    exact Option.map_id'
  · exact tell_ne ne [] audience

/-- Telling one listener twice is telling it all at once. -/
lemma tell_tell (i : ℕ) (news more : List α) (audience : Audience κ α) :
    (audience.tell i news).tell i more = audience.tell i (news ++ more) := by
  apply List.ext_getElem?
  intro j
  rcases eq_or_ne j i with rfl | ne
  · simp only [tell_self, Option.map_map, ← Listener.tell_tell]
    rfl
  · rw [tell_ne ne, tell_ne ne, tell_ne ne]

end Audience

end MiniModem.Lib
