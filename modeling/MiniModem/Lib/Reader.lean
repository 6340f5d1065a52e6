import Mathlib.Data.List.Basic
import Mathlib.Tactic.Ring
import Mathlib.Tactic.Common

/-!
# Incremental readers

A reader keeps a buffer of input it has not used yet. New input is appended to the buffer, and `next`
takes one item off its front or reports that there is none. Callers append one chunk, then call `next`
until it reports none (`drain`), and go on with the next chunk (`feed`).

A reader is *stable* on a class of streams when an item it finds in a buffer is the one it finds when
more input is there already, and when reporting none changes nothing. On such streams the items do not
depend on how the input was cut into chunks (`Stable.feed_eq`). `located` is the same reader with each
item tagged by the offset in the stream at which the buffer started when the item was taken.
-/

namespace MiniModem.Lib

/-- A reader, given by its `next` on the contents of the buffer. An item uses up some input. -/
structure Reader (α β : Type*) where
  next : List α → Option β × List α
  shrinks : ∀ {buf item rest}, next buf = (some item, rest) → rest.length < buf.length

namespace Reader
variable {α β : Type*}

/-- A way of cutting a stream into chunks, none of them empty. -/
def Chunking (s : List α) (chunks : List (List α)) : Prop := chunks.flatten = s ∧ [] ∉ chunks

instance [DecidableEq α] (s : List α) (chunks : List (List α)) : Decidable (Chunking s chunks) :=
  inferInstanceAs (Decidable (_ ∧ _))

variable (R : Reader α β)

/-- At most `n` calls of `next`, stopping at the first that reports none. -/
def drainFuel : ℕ → List α → List β × List α
  | 0, buf => ([], buf)
  | n + 1, buf =>
    match R.next buf with
    | (none, rest) => ([], rest)
    | (some item, rest) =>
      let (items, last) := drainFuel n rest
      (item :: items, last)

/-- Call `next` until it reports none: the items, and what is left in the buffer. -/
def drain (buf : List α) : List β × List α := R.drainFuel (buf.length + 1) buf

/-- Append each chunk in turn and drain after it. -/
def feed : List α → List (List α) → List β × List α
  | buf, [] => ([], buf)
  | buf, chunk :: chunks =>
    let (items, rest) := R.drain (buf ++ chunk)
    let (more, last) := feed rest chunks
    (items ++ more, last)

/-- Every item uses up input, so fuel beyond the length of the buffer is never needed. -/
lemma drainFuel_eq {n buf} (lt : buf.length < n) : R.drainFuel n buf = R.drain buf := by
  suffices same : ∀ k n buf, buf.length ≤ k → buf.length < n →
      R.drainFuel n buf = R.drainFuel (k + 1) buf from same _ n buf le_rfl lt
  intro k
  induction k with
  | zero =>
    intro n buf le lt
    cases n with
    | zero => omega
    | succ n =>
      simp only [drainFuel]
      rcases e : R.next buf with ⟨_ | item, rest⟩
      · rfl
      · have := R.shrinks e
        omega
  | succ k ih =>
    intro n buf le lt
    cases n with
    | zero => omega
    | succ n =>
      rw [drainFuel, drainFuel]
      rcases e : R.next buf with ⟨_ | item, rest⟩
      · rfl
      · have short := R.shrinks e
        simp only
        rw [ih n rest (by omega) (by omega)]

/-- Draining stops at once when `next` reports none. -/
lemma drain_none {buf rest} (e : R.next buf = (none, rest)) : R.drain buf = ([], rest) := by
  simp only [drain, drainFuel, e]

/-- Draining takes an item off the front and goes on with the rest. -/
lemma drain_some {buf item rest} (e : R.next buf = (some item, rest)) :
    R.drain buf = (item :: (R.drain rest).1, (R.drain rest).2) := by
  have short := R.shrinks e
  rw [← R.drainFuel_eq short]
  simp only [drain, drainFuel, e]

/-- Induction along the calls of `next` that draining makes. -/
lemma drain_induct {P : List α → Prop}
    (none : ∀ buf rest, R.next buf = (none, rest) → P buf)
    (some : ∀ buf item rest, R.next buf = (some item, rest) → P rest → P buf) :
    ∀ buf, P buf := by
  intro buf
  induction e : buf.length using Nat.strong_induction_on generalizing buf with
  | _ n ih =>
    rcases h : R.next buf with ⟨_ | item, rest⟩
    · exact none _ _ h
    · exact some _ _ _ h (ih _ (e ▸ R.shrinks h) _ rfl)

/-- Feeding no chunk does nothing. -/
@[simp] lemma feed_nil (buf : List α) : R.feed buf [] = ([], buf) := rfl

/-- Feeding one more chunk in front. -/
lemma feed_cons (buf chunk : List α) (chunks : List (List α)) :
    R.feed buf (chunk :: chunks) =
      ((R.drain (buf ++ chunk)).1 ++ (R.feed (R.drain (buf ++ chunk)).2 chunks).1,
        (R.feed (R.drain (buf ++ chunk)).2 chunks).2) := rfl

/-- Feeding chunks in two portions. -/
lemma feed_append (buf : List α) (chunks more : List (List α)) :
    R.feed buf (chunks ++ more) =
      ((R.feed buf chunks).1 ++ (R.feed (R.feed buf chunks).2 more).1,
        (R.feed (R.feed buf chunks).2 more).2) := by
  induction chunks generalizing buf with
  | nil => rfl
  | cons chunk chunks ih =>
    rw [List.cons_append, feed_cons, ih, feed_cons, List.append_assoc]

/-- Feeding a single chunk is draining it. -/
lemma feed_single (buf chunk : List α) : R.feed buf [chunk] = R.drain (buf ++ chunk) := by
  rw [feed_cons]
  simp

/-- What holds of the buffer after every drain holds after feeding. -/
lemma feed_rule {P : List α → Prop} (drained : ∀ buf, P (R.drain buf).2) {buf : List α} (init : P buf)
    (chunks : List (List α)) : P (R.feed buf chunks).2 := by
  induction chunks generalizing buf with
  | nil => exact init
  | cons chunk chunks ih =>
    rw [feed_cons]
    exact ih (drained _)

/-- The two operations of a reader's owner. -/
inductive Call (α : Type*)
  | push (chunk : List α)
  | next

/-- All input pushed by some calls. -/
def pushed : List (Call α) → List α
  | [] => []
  | .push chunk :: calls => chunk ++ pushed calls
  | .next :: calls => pushed calls

/-- Any interleaving of calls: the items returned, and the buffer afterwards. -/
def run : List α → List (Call α) → List β × List α
  | buf, [] => ([], buf)
  | buf, .push chunk :: calls => run (buf ++ chunk) calls
  | buf, .next :: calls =>
    let (item, rest) := R.next buf
    let (items, last) := run rest calls
    (item.toList ++ items, last)

/-- A push extends the buffer. -/
@[simp] lemma run_push (buf chunk : List α) (calls : List (Call α)) :
    R.run buf (.push chunk :: calls) = R.run (buf ++ chunk) calls := rfl

/-- A call of `next` delivers what it finds. -/
lemma run_next {buf item rest} (e : R.next buf = (item, rest)) (calls : List (Call α)) :
    R.run buf (.next :: calls) = (item.toList ++ (R.run rest calls).1, (R.run rest calls).2) := by
  simp only [run, e]

/-- The same for an object with a `push` and a `next` of its own: the items returned, and the object. -/
def runWith {S : Type*} (push : S → List α → S) (next : S → Option β × S) : S → List (Call α) → List β × S
  | object, [] => ([], object)
  | object, .push chunk :: calls => runWith push next (push object chunk) calls
  | object, .next :: calls =>
    let (item, object) := next object
    let (items, last) := runWith push next object calls
    (item.toList ++ items, last)

/-- The object is the reader with its buffer: `push` appends to it, and `next` is that of the reader. -/
structure Implemented {S : Type*} (push : S → List α → S) (next : S → Option β × S) (buffer : S → List α) :
    Prop where
  push : ∀ object chunk, buffer (push object chunk) = buffer object ++ chunk
  next : ∀ object, R.next (buffer object) = ((next object).1, buffer (next object).2)

/-- Then any interleaving of calls does the same to both. -/
lemma Implemented.run {R : Reader α β} {S : Type*} {push : S → List α → S} {next : S → Option β × S}
    {buffer : S → List α} (implemented : R.Implemented push next buffer) (object : S) (calls : List (Call α)) :
    R.run (buffer object) calls =
      ((runWith push next object calls).1, buffer (runWith push next object calls).2) := by
  induction calls generalizing object with
  | nil => rfl
  | cons call calls ih =>
    cases call with
    | push chunk => rw [run_push, ← implemented.push, ih, runWith]
    | next => rw [R.run_next (implemented.next object), ih, runWith]

/-- On the streams of the class `Good`, what `next` finds does not depend on how much of the input
after it has arrived already, and `next` loses nothing. -/
structure Stable (Good : List α → Prop) : Prop where
  keep : ∀ {buf more rest}, Good (buf ++ more) → R.next buf = (none, rest) → rest = buf
  extend : ∀ {buf more item rest}, Good (buf ++ more) → R.next buf = (some item, rest) →
    R.next (buf ++ more) = (some item, rest ++ more)
  tail : ∀ {buf item rest}, Good buf → R.next buf = (some item, rest) → Good rest

namespace Stable
variable {R : Reader α β} {Good : List α → Prop} (st : R.Stable Good)
include st

/-- The rest of a stream after an item is in the class too, however much has arrived. -/
lemma tail_append {buf more item rest} (good : Good (buf ++ more))
    (e : R.next buf = (some item, rest)) : Good (rest ++ more) :=
  st.tail good (st.extend good e)

/-- Draining a buffer, then draining again with more input, is draining it all at once. -/
lemma drain_append {buf more} (good : Good (buf ++ more)) :
    R.drain (buf ++ more) =
      ((R.drain buf).1 ++ (R.drain ((R.drain buf).2 ++ more)).1,
        (R.drain ((R.drain buf).2 ++ more)).2) := by
  induction buf using R.drain_induct with
  | none buf rest e =>
    rw [R.drain_none e, st.keep good e]
    rfl
  | some buf item rest e ih =>
    rw [R.drain_some e, R.drain_some (st.extend good e), ih (st.tail_append good e)]
    rfl

/-- What draining leaves has no further item, and is the end of the stream. -/
lemma drain_rest {buf more} (good : Good (buf ++ more)) :
    R.next (R.drain buf).2 = (none, (R.drain buf).2) ∧ Good ((R.drain buf).2 ++ more) := by
  induction buf using R.drain_induct with
  | none buf rest e =>
    rw [R.drain_none e]
    have same := st.keep good e
    subst same
    exact ⟨e, good⟩
  | some buf item rest e ih =>
    rw [R.drain_some e]
    exact ih (st.tail_append good e)

/-- On a stream of the class, the items are those of the whole stream, however it is cut. -/
theorem feed_eq {buf chunks} (done : R.next buf = (none, buf)) (good : Good (buf ++ chunks.flatten)) :
    R.feed buf chunks = R.drain (buf ++ chunks.flatten) := by
  induction chunks generalizing buf with
  | nil =>
    rw [List.flatten_nil, List.append_nil, R.drain_none done]
    rfl
  | cons chunk chunks ih =>
    rw [List.flatten_cons, ← List.append_assoc] at good ⊢
    obtain ⟨done', good'⟩ := st.drain_rest good
    rw [feed_cons, ih done' good', st.drain_append good]

end Stable

/-- The reader whose items carry the stream offset of the buffer they were taken from, where `total`
is the length of the input so far. -/
def located (total : ℕ) : Reader α (ℕ × β) where
  next buf := ((R.next buf).1.map (fun item => (total - buf.length, item)), (R.next buf).2)
  shrinks := by
    intro buf item rest e
    rcases h : R.next buf with ⟨_ | item', rest'⟩
    · simp [h] at e
    · simp only [h, Prod.mk.injEq] at e
      rw [← e.2]
      exact R.shrinks h

/-- `feed` with the offset of each item: `total` is the length of the input before the chunks. -/
def feedAt : ℕ → List α → List (List α) → List (ℕ × β) × List α
  | _, buf, [] => ([], buf)
  | total, buf, chunk :: chunks =>
    let (items, rest) := (R.located (total + chunk.length)).drain (buf ++ chunk)
    let (more, last) := feedAt (total + chunk.length) rest chunks
    (items ++ more, last)

/-- The first chunk is drained first. -/
lemma feedAt_cons (total : ℕ) (buf chunk : List α) (chunks : List (List α)) :
    R.feedAt total buf (chunk :: chunks) =
      (((R.located (total + chunk.length)).drain (buf ++ chunk)).1 ++
          (R.feedAt (total + chunk.length)
            ((R.located (total + chunk.length)).drain (buf ++ chunk)).2 chunks).1,
        (R.feedAt (total + chunk.length)
          ((R.located (total + chunk.length)).drain (buf ++ chunk)).2 chunks).2) := rfl

/-- Tagging changes neither the items of a drain nor what it leaves. -/
lemma drain_located (total : ℕ) (buf : List α) :
    (((R.located total).drain buf).1.map Prod.snd, ((R.located total).drain buf).2) =
      R.drain buf := by
  induction buf using R.drain_induct with
  | none buf rest e =>
    have e' : (R.located total).next buf = (none, rest) := by simp [located, e]
    rw [R.drain_none e, (R.located total).drain_none e']
    rfl
  | some buf item rest e ih =>
    have e' : (R.located total).next buf = (some (total - buf.length, item), rest) := by
      simp [located, e]
    rw [R.drain_some e, (R.located total).drain_some e', ← ih]
    rfl

/-- Tagging changes neither the items of a feed nor what it leaves. -/
lemma feed_located (total : ℕ) (buf : List α) (chunks : List (List α)) :
    ((R.feedAt total buf chunks).1.map Prod.snd, (R.feedAt total buf chunks).2) =
      R.feed buf chunks := by
  induction chunks generalizing total buf with
  | nil => rfl
  | cons chunk chunks ih =>
    have same := R.drain_located (total + chunk.length) (buf ++ chunk)
    have rest := congrArg Prod.snd same
    have items := congrArg Prod.fst same
    simp only at rest items
    rw [feed_cons, ← items, ← rest, ← ih (total + chunk.length)]
    simp only [feedAt, List.map_append]

end Reader

end MiniModem.Lib
