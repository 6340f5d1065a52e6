import Mathlib.Order.BooleanAlgebra.Set
import MiniModem.Lib.UnorderedMap

/-!
# Owners that can be moved

Objects that own a resource or nothing, and that are moved but not copied: a move leaves the old object
empty. `Exact` says that the resources in a set are owned, each by one object, and no others are. The
operations on the objects keep it: a constructor adds to the set what it is given, which must not be in it
yet; a move takes out what the target owned before, and a reset or a destructor what the object owned.
-/

namespace MiniModem.Lib

/-- A type of objects that can be moved: what an object owns, and the object that a move leaves. -/
structure Movable (α ρ : Type*) where
  owned : α → Option ρ
  empty : α
  owned_empty : owned empty = none

namespace Movable
variable {κ α ρ : Type*} [DecidableEq κ] (T : Movable α ρ)

/-- The object at an address owns a resource. -/
def Owns (objects : UnorderedMap κ α) (k : κ) (r : ρ) : Prop :=
  ∃ object, objects.lookup k = some object ∧ T.owned object = some r

/-- The object at one address is moved to another address. -/
def move (this other : κ) (object : α) (objects : UnorderedMap κ α) : UnorderedMap κ α :=
  (objects.insert this object).insert other T.empty

/-- The resources are owned, each by one object, and no others are. -/
structure Exact (objects : UnorderedMap κ α) (held : Set ρ) : Prop where
  held : ∀ r, r ∈ held ↔ ∃ k, T.Owns objects k r
  unique : ∀ k k' r, T.Owns objects k r → T.Owns objects k' r → k' = k

variable {T} {objects : UnorderedMap κ α} {held : Set ρ} {k k' this other : κ} {object : α} {r : ρ}

/-- What an object owns is written in it. -/
lemma owns_of_lookup (here : objects.lookup k = some object) :
    T.Owns objects k r ↔ T.owned object = some r := by
  simp [Owns, here]

/-- An object that is written over owns what it owns now. -/
lemma owns_insert : T.Owns (objects.insert k object) k' r ↔
    (k' = k ∧ T.owned object = some r) ∨ (k' ≠ k ∧ T.Owns objects k' r) := by
  rcases eq_or_ne k' k with rfl | ne
  · simp [Owns]
  · simp [Owns, AList.lookup_insert_ne ne, ne]

/-- An object that is gone owns nothing. -/
lemma owns_erase : T.Owns (objects.erase k) k' r ↔ k' ≠ k ∧ T.Owns objects k' r := by
  rcases eq_or_ne k' k with rfl | ne
  · simp [Owns]
  · simp [Owns, AList.lookup_erase_ne ne, ne]

/-- An object that is left by a move owns nothing. -/
lemma owns_insert_empty : T.Owns (objects.insert k T.empty) k' r ↔ k' ≠ k ∧ T.Owns objects k' r := by
  rw [owns_insert, T.owned_empty]
  simp

/-- What the other object has owned is owned by this one. -/
lemma owns_move (ne : this ≠ other) (here : objects.lookup other = some object) :
    T.Owns (T.move this other object objects) k r ↔
      (k = this ∧ T.Owns objects other r) ∨ (k ≠ this ∧ k ≠ other ∧ T.Owns objects k r) := by
  rw [move, owns_insert_empty, owns_insert, owns_of_lookup here]
  rcases eq_or_ne k this with rfl | ne'
  · simp [ne]
  · simp [ne']

/-- What is not there owns nothing. -/
lemma not_owns_of_new (new : k ∉ objects) : ¬ T.Owns objects k r := by
  intro owns
  obtain ⟨object, here, -⟩ := owns
  exact new (UnorderedMap.mem_iff_lookup.mpr ⟨object, here⟩)

/-- An empty object owns nothing. -/
lemma not_owns_empty : ¬ T.Owns (objects.insert k T.empty) k r := by
  rw [owns_insert_empty]
  exact fun both => both.1 rfl

/-- Taking out what an object owns that owns nothing. -/
lemma sdiff_owns (none : ∀ r, ¬ T.Owns objects k r) : held \ {r | T.Owns objects k r} = held := by
  have empty : {r | T.Owns objects k r} = ∅ := Set.eq_empty_iff_forall_notMem.mpr none
  rw [empty, Set.sdiff_empty]

namespace Exact

/-- Without objects nothing is owned. -/
lemma nil : T.Exact (∅ : UnorderedMap κ α) ∅ := by
  refine ⟨fun r => ?_, fun k k' r owns => ?_⟩
  · simp [Owns]
  · obtain ⟨object, here, -⟩ := owns
    cases here

/-- A new object owns what it is given. -/
lemma construct (exact : T.Exact objects held) (object : α) (new : k ∉ objects)
    (fresh : ∀ r, T.owned object = some r → r ∉ held) :
    T.Exact (objects.insert k object) (held ∪ {r | T.owned object = some r}) := by
  have apart : ∀ k' r, T.owned object = some r → ¬ T.Owns objects k' r :=
    fun k' r given owns => fresh r given ((exact.held r).mpr ⟨k', owns⟩)
  refine ⟨fun r => ?_, fun k₁ k₂ r after after' => ?_⟩
  · rw [Set.mem_union, exact.held, Set.mem_ofPred_eq]
    refine ⟨?_, ?_⟩
    · intro either
      rcases either with ⟨k', owns⟩ | given
      · refine ⟨k', owns_insert.mpr (.inr ⟨?_, owns⟩)⟩
        rintro rfl
        exact not_owns_of_new new owns
      · exact ⟨k, owns_insert.mpr (.inl ⟨rfl, given⟩)⟩
    · intro owned
      obtain ⟨k', owns⟩ := owned
      rcases owns_insert.mp owns with ⟨-, given⟩ | ⟨-, owns⟩
      · exact .inr given
      · exact .inl ⟨k', owns⟩
  · rcases owns_insert.mp after with ⟨rfl, given⟩ | ⟨-, owns⟩
    · rcases owns_insert.mp after' with ⟨rfl, -⟩ | ⟨-, owns'⟩
      · rfl
      · exact absurd owns' (apart k₂ r given)
    · rcases owns_insert.mp after' with ⟨rfl, given⟩ | ⟨-, owns'⟩
      · exact absurd owns (apart k₁ r given)
      · exact exact.unique k₁ k₂ r owns owns'

/-- An object that owns nothing adds nothing. -/
lemma constructEmpty (exact : T.Exact objects held) (new : k ∉ objects) :
    T.Exact (objects.insert k T.empty) held := by
  have more := exact.construct T.empty new (by simp [T.owned_empty])
  have none : {r | T.owned T.empty = some r} = ∅ := by simp [T.owned_empty]
  rwa [none, Set.union_empty] at more

/-- Objects that own what they owned before, but for one of them, which owns nothing any more. -/
lemma released {objects' : UnorderedMap κ α} (exact : T.Exact objects held)
    (owns_iff : ∀ k r, T.Owns objects' k r ↔ k ≠ this ∧ T.Owns objects k r) :
    T.Exact objects' (held \ {r | T.Owns objects this r}) := by
  refine ⟨fun r => ?_, fun k k' r owns owns' => ?_⟩
  · rw [Set.mem_sdiff, exact.held, Set.mem_ofPred_eq]
    refine ⟨?_, ?_⟩
    · intro both
      obtain ⟨⟨k, owns⟩, other⟩ := both
      refine ⟨k, (owns_iff k r).mpr ⟨?_, owns⟩⟩
      rintro rfl
      exact other owns
    · intro owned
      obtain ⟨k, owns⟩ := owned
      obtain ⟨ne, owns⟩ := (owns_iff k r).mp owns
      exact ⟨⟨k, owns⟩, fun owns' => ne (exact.unique _ _ r owns' owns)⟩
  · exact exact.unique k k' r ((owns_iff k r).mp owns).2 ((owns_iff k' r).mp owns').2

/-- An object that is emptied gives up what it has owned. -/
lemma reset (exact : T.Exact objects held) (this : κ) :
    T.Exact (objects.insert this T.empty) (held \ {r | T.Owns objects this r}) :=
  exact.released fun _ _ => owns_insert_empty

/-- An object that is destroyed gives up what it has owned. -/
lemma destroy (exact : T.Exact objects held) (this : κ) :
    T.Exact (objects.erase this) (held \ {r | T.Owns objects this r}) :=
  exact.released fun _ _ => owns_erase

/-- A move changes the owner, and what the target owned before has no owner any more. -/
lemma move (exact : T.Exact objects held) (ne : this ≠ other)
    (here : objects.lookup other = some object) :
    T.Exact (T.move this other object objects) (held \ {r | T.Owns objects this r}) := by
  refine ⟨fun r => ?_, fun k k' r after after' => ?_⟩
  · rw [Set.mem_sdiff, exact.held, Set.mem_ofPred_eq]
    refine ⟨?_, ?_⟩
    · intro both
      obtain ⟨⟨k, owns⟩, others⟩ := both
      rcases eq_or_ne k other with rfl | ne'
      · exact ⟨this, (owns_move ne here).mpr (.inl ⟨rfl, owns⟩)⟩
      · refine ⟨k, (owns_move ne here).mpr (.inr ⟨?_, ne', owns⟩)⟩
        rintro rfl
        exact others owns
    · intro owned
      obtain ⟨k, owns⟩ := owned
      rcases (owns_move ne here).mp owns with ⟨-, owns⟩ | ⟨ne', -, owns⟩
      · exact ⟨⟨other, owns⟩, fun owns' => ne (exact.unique _ _ r owns owns')⟩
      · exact ⟨⟨k, owns⟩, fun owns' => ne' (exact.unique _ _ r owns' owns)⟩
  · rcases (owns_move ne here).mp after with ⟨rfl, owns⟩ | ⟨-, ne', owns⟩
    · rcases (owns_move ne here).mp after' with ⟨rfl, -⟩ | ⟨-, ne'', owns'⟩
      · rfl
      · exact absurd (exact.unique _ _ r owns owns') ne''
    · rcases (owns_move ne here).mp after' with ⟨rfl, owns'⟩ | ⟨-, -, owns'⟩
      · exact absurd (exact.unique _ _ r owns' owns) ne'
      · exact exact.unique _ _ r owns owns'

/-- A move to a new object changes nothing but the owner. -/
lemma moveConstruct (exact : T.Exact objects held) (new : this ∉ objects)
    (here : objects.lookup other = some object) :
    T.Exact (T.move this other object objects) held := by
  have ne : this ≠ other := by
    rintro rfl
    exact new (UnorderedMap.mem_iff_lookup.mpr ⟨object, here⟩)
  have moved := exact.move ne here
  rwa [sdiff_owns fun r => not_owns_of_new new] at moved

end Exact

end Movable

end MiniModem.Lib
