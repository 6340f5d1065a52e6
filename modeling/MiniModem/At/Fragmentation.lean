import MiniModem.At.Session

/-!
# Fragmentation of AT input

After a line the reader skips the terminators that are in the buffer at that moment. A CR LF pair that
arrives in one piece ends one line; one that arrives in two pieces ends a second, empty line. So the
lines depend on the fragmentation exactly when the stream has two terminators in a row
(`lines_independent_iff`).
-/

namespace MiniModem.At
open Lib Lib.Reader Transport Modem

/-- A sequence of readable callbacks, each given by the chunks it reads before there is no more. -/
def callbacks {World : Type*} (handle : Bytes → World → World) (reads : List (List Bytes))
    (reader : LineReader) (world : World) : LineReader × World :=
  reads.foldl
    (fun state chunks =>
      (onReadable handle EPOLLIN (chunks.map .bytes) state.1 state.2).2)
    (reader, world)

/-- The lines that a new session passes to `handleAt`. -/
def linesHandled (reads : List (List Bytes)) : List Bytes :=
  (callbacks (fun line lines => lines ++ [line]) reads {} []).2

/-- The responses that a new session queues. -/
def responses {σ : Type*} (M : MiniModem.Modem σ) (modem : σ) (reads : List (List Bytes)) :
    List Bytes :=
  (callbacks
    (fun line (state : σ × List Bytes) =>
      let (modem, response, _) := M.handleAt state.1 line
      (modem, state.2 ++ [response]))
    reads {} (modem, [])).2.2

/-- All chunks are read if none of them is empty. -/
lemma received_map {chunks : List Bytes} (nonempty : [] ∉ chunks) :
    received (chunks.map .bytes) = chunks := by
  induction chunks with
  | nil => rfl
  | cons chunk chunks ih =>
    have some : chunk.length > 0 := by
      rw [gt_iff_lt, List.length_pos_iff]
      rintro rfl
      exact nonempty (by simp)
    rw [List.map_cons, received, if_pos some, ih fun mem => nonempty (List.mem_cons_of_mem _ mem)]

/-- However the reads are spread over callbacks, they feed the line reader. -/
lemma callbacks_eq {World : Type*} (handle : Bytes → World → World) {reads : List (List Bytes)}
    (nonempty : [] ∉ reads.flatten) (reader : LineReader) (world : World) :
    callbacks handle reads reader world =
      (⟨(lineReader.feed reader.buffer reads.flatten).2⟩,
        (lineReader.feed reader.buffer reads.flatten).1.foldl (fun world line => handle line world)
          world) := by
  induction reads generalizing reader world with
  | nil => rfl
  | cons chunks reads ih =>
    rw [List.flatten_cons, List.mem_append, not_or] at nonempty
    obtain ⟨first, rest⟩ := nonempty
    have one : (onReadable handle EPOLLIN (chunks.map .bytes) reader world).2 =
        (⟨(lineReader.feed reader.buffer chunks).2⟩,
          (lineReader.feed reader.buffer chunks).1.foldl (fun world line => handle line world)
            world) := by
      show (readLoop _ _ _).2 = _
      rw [readLoop_eq, received_map first, foldl_readChunk]
    rw [callbacks, List.foldl_cons, one, List.flatten_cons, feed_append, List.foldl_append]
    exact ih rest _ _

/-- The lines are those that the reader finds. -/
lemma linesHandled_eq {reads : List (List Bytes)} (nonempty : [] ∉ reads.flatten) :
    linesHandled reads = (lineReader.feed [] reads.flatten).1 := by
  have log : ∀ (lines before : List Bytes),
      lines.foldl (fun lines line => lines ++ [line]) before = before ++ lines := by
    intro lines
    induction lines with
    | nil => simp
    | cons line lines ih => simp [ih]
  rw [linesHandled, callbacks_eq _ nonempty, log]
  rfl

/-- There is one response for each line. -/
lemma responses_length {σ : Type*} (M : MiniModem.Modem σ) (modem : σ) {reads : List (List Bytes)}
    (nonempty : [] ∉ reads.flatten) :
    (responses M modem reads).length = (linesHandled reads).length := by
  have count : ∀ (lines : List Bytes) (state : σ × List Bytes),
      (lines.foldl
        (fun state line =>
          ((M.handleAt state.1 line).1, state.2 ++ [(M.handleAt state.1 line).2.1]))
        state).2.length = state.2.length + lines.length := by
    intro lines
    induction lines with
    | nil => simp
    | cons line lines ih =>
      intro state
      rw [List.foldl_cons, ih]
      simp
      omega
  rw [linesHandled_eq nonempty, responses, callbacks_eq _ nonempty]
  simpa using count (lineReader.feed [] reads.flatten).1 (modem, [])

/-- The lines passed to the modem, and with them the number of responses, are independent of the
fragmentation exactly for the streams without two terminators in a row. -/
theorem lines_independent_iff (s : Bytes) :
    (∀ reads reads', Chunking s reads.flatten → Chunking s reads'.flatten →
      linesHandled reads = linesHandled reads' ∧
        ∀ (σ : Type) (M : MiniModem.Modem σ) (modem : σ),
          (responses M modem reads).length = (responses M modem reads').length) ↔
    Separated s := by
  refine ⟨?_, ?_⟩
  · intro same before a b after split both
    obtain ⟨termA, termB⟩ := both
    obtain ⟨count, left⟩ := drain_cut termA termB before after
    have whole : Chunking s [[s]].flatten := ⟨by simp, by simp [split]⟩
    have parts : Chunking s [[before ++ [a], b :: after]].flatten := ⟨by simp [split], by simp⟩
    have lines := (same _ _ whole parts).1
    rw [linesHandled_eq whole.2, linesHandled_eq parts.2] at lines
    have lengths := congrArg List.length lines
    simp only [List.flatten_cons, List.flatten_nil, List.append_nil, feed_cons,
      List.nil_append, left, List.length_append, feed_nil] at lengths
    rw [split] at lengths
    rw [lineCount, lineCount, lineCount] at count
    omega
  · intro sep reads reads' cut cut'
    obtain ⟨e, nonempty⟩ := cut
    obtain ⟨e', nonempty'⟩ := cut'
    have start : lineReader.next [] = (none, []) := reader_none (by simp)
    have lines : linesHandled reads = linesHandled reads' := by
      rw [linesHandled_eq nonempty, linesHandled_eq nonempty',
        lineReader_stable.feed_eq start (by rw [e]; exact sep),
        lineReader_stable.feed_eq start (by rw [e']; exact sep), e, e']
    refine ⟨lines, fun σ M modem => ?_⟩
    rw [responses_length M modem nonempty, responses_length M modem nonempty', lines]

/-- `AT\r\n` -/
def attention : Bytes := [65, 84, 13, 10]

/-- A command in one piece is one line; with its CR and its LF in two pieces it is two. -/
theorem lines_depend :
    Chunking attention [[attention]].flatten ∧ Chunking attention [[[65, 84, 13]], [[10]]].flatten ∧
      linesHandled [[attention]] = [[65, 84]] ∧
      linesHandled [[[65, 84, 13]], [[10]]] = [[65, 84], []] := by
  decide

end MiniModem.At
