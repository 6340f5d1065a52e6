import MiniModem.At.Parser

/-!
# What the AT parser keeps of a command

A command that was parsed can be written down again (`Command.text`): it gives the text back, but for one
comma at its end (`parse_lossless`). With this comma an empty last argument is lost
(`parse_arguments_iff`). A question mark at the end comes before the equals sign, so a value that ends with
one becomes part of the name (`parse_value_iff`).
-/

namespace MiniModem.At
open Lib MiniModem.At.Parser

/-- The arguments with commas between them. -/
def joined (arguments : List Bytes) : Bytes := [comma].intercalate arguments

/-- A command as it is written. -/
def Command.text (command : Command) : Bytes :=
  match command.type with
  | .Basic => attentionPrefix ++ command.name
  | .Query => attentionPrefix ++ command.name ++ [questionMark]
  | .Set => attentionPrefix ++ command.name ++ [equalSign] ++ joined command.arguments

/-- The text that is parsed, without the comma that a command with arguments may end with. -/
def written (input : Bytes) (command : Command) : Bytes :=
  if command.type = .Set ∧ input.getLast? = some comma then input.dropLast else input

/-- The arguments of a value. -/
lemma joined_trimmed (value : Bytes) :
    joined (trimmed (value.splitOn comma)) =
      if value.getLast? = some comma then value.dropLast else value :=
  intercalate_trimmed value

/-- The last character behind an equals sign. -/
lemma getLast?_value (front : Bytes) {value : Bytes} {c : UInt8} (other : c ≠ equalSign) :
    (front ++ equalSign :: value).getLast? = some c ↔ value.getLast? = some c := by
  rcases eq_or_ne value [] with rfl | some
  · simp [other.symm]
  · rw [List.getLast?_append_of_ne_nil _ (List.cons_ne_nil _ _), List.getLast?_cons_of_ne_nil some]

lemma Parser.Parsed.text_eq {text : Bytes} {command : Command} (parsed : Parsed text command) :
    command.text = written (attentionPrefix ++ text) command := by
  cases parsed with
  | query => simp [Command.text, written]
  | @set name args ends first =>
    have last : (attentionPrefix ++ name ++ equalSign :: args).getLast? = some comma ↔
        args.getLast? = some comma :=
      getLast?_value (attentionPrefix ++ name) (by decide)
    simp only [Command.text, written, joined_trimmed, true_and, ← List.append_assoc, last]
    split
    · next comma =>
      have some : args ≠ [] := by
        rintro rfl
        cases comma
      rw [List.dropLast_append_of_ne_nil (List.cons_ne_nil _ _), List.dropLast_cons_of_ne_nil some,
        List.append_assoc, List.singleton_append]
    · rw [List.append_assoc, List.singleton_append]
  | basic ends none => simp [Command.text, written]

/-- Every text that starts with `AT` is parsed, and no other. The command gives the text back, but for a
comma at the end of a command with arguments; no argument has a comma in it, and the name of a command
with arguments has no equals sign in it. -/
theorem parse_lossless (input : Bytes) :
    ((parse input).isSome = true ↔ attentionPrefix <+: input) ∧
      ∀ command, parse input = some command →
        command.text = written input command ∧ (∀ argument ∈ command.arguments, comma ∉ argument) ∧
          (command.type = .Set → equalSign ∉ command.name) := by
  refine ⟨?_, ?_⟩
  · rw [Option.isSome_iff_exists]
    refine ⟨?_, ?_⟩
    · intro accepted
      obtain ⟨command, run⟩ := accepted
      obtain ⟨text, rfl, -⟩ := parse_iff.mp run
      exact List.prefix_append _ _
    · intro starts
      obtain ⟨text, rfl⟩ := starts
      obtain ⟨command, parsed⟩ := exists_parsed text
      exact ⟨command, parsed.parse⟩
  · intro command run
    obtain ⟨text, rfl, parsed⟩ := parse_iff.mp run
    refine ⟨parsed.text_eq, ?_, ?_⟩
    · cases parsed with
      | set ends first => exact fun argument mem => notMem_of_mem_splitOn (mem_of_mem_trimmed mem)
      | query | basic => simp
    · cases parsed with
      | set ends first => exact fun _ => first
      | query | basic => simp

/-- What is parsed behind an equals sign, unless it ends with a question mark. -/
lemma parse_value {name value : Bytes} (first : equalSign ∉ name)
    (ends : value.getLast? ≠ some questionMark) :
    parse (attentionPrefix ++ name ++ [equalSign] ++ value) =
      some { name, type := .Set, arguments := trimmed (value.splitOn comma) } := by
  have ends' : (name ++ equalSign :: value).getLast? ≠ some questionMark :=
    fun last => ends ((getLast?_value name (by decide)).mp last)
  have parsed := (Parsed.set ends' first).parse
  rwa [← List.append_assoc, List.append_cons] at parsed

/-- Of two or more arguments without a comma in them, exactly those whose last one is not empty are parsed
as they are. -/
theorem parse_arguments_iff (name : Bytes) (arguments : List Bytes) (first : equalSign ∉ name)
    (several : 2 ≤ arguments.length) (apart : ∀ argument ∈ arguments, comma ∉ argument)
    (ends : (joined arguments).getLast? ≠ some questionMark) :
    parse (attentionPrefix ++ name ++ [equalSign] ++ joined arguments) =
        some { name, type := .Set, arguments } ↔
      arguments.getLast? ≠ some [] := by
  have some : arguments ≠ [] := List.length_pos_iff.mp (by omega)
  have fields : (joined arguments).splitOn comma = arguments := List.splitOn_intercalate comma apart some
  rw [parse_value first ends, fields, ← trimmed_eq_self]
  simp

/-- `AT+X=,,a` -/
theorem parse_arguments_leading :
    parse (attentionPrefix ++ [43, 88] ++ [equalSign] ++ joined [[], [], [97]]) =
      some { name := [43, 88], type := .Set, arguments := [[], [], [97]] } :=
  (parse_arguments_iff [43, 88] [[], [], [97]] (by decide) (by decide) (by decide) (by decide)).mpr
    (by decide)

/-- `AT+X=a,` has two arguments, and one of them is parsed. -/
theorem argument_lost :
    parse (attentionPrefix ++ [43, 88] ++ [equalSign] ++ joined [[97], []]) =
        some { name := [43, 88], type := .Set, arguments := [[97]] } ∧
      parse (attentionPrefix ++ [43, 88] ++ [equalSign] ++ joined [[97], []]) ≠
        some { name := [43, 88], type := .Set, arguments := [[97], []] } := by
  decide

/-- A value is kept, and the name ends at the equals sign, exactly if the value does not end with a question
mark. -/
theorem parse_value_iff (name value : Bytes) (first : equalSign ∉ name) :
    (∃ command, parse (attentionPrefix ++ name ++ [equalSign] ++ value) = some command ∧
        command.name = name ∧
        (joined command.arguments = value ∨ joined command.arguments ++ [comma] = value)) ↔
      value.getLast? ≠ some questionMark := by
  refine ⟨?_, ?_⟩
  · intro kept last
    obtain ⟨command, run, same, -⟩ := kept
    -- the text is that of a query, whose name reaches behind the equals sign
    have text : attentionPrefix ++ name ++ [equalSign] ++ value =
        attentionPrefix ++ (name ++ [equalSign] ++ value.dropLast ++ [questionMark]) := by
      rw [List.append_assoc (name ++ [equalSign]), List.dropLast_append_getLast? _ last]
      simp
    rw [text, Parsed.query.parse, Option.some.injEq] at run
    subst run
    have length := congrArg List.length same
    simp at length
  · intro ends
    refine ⟨_, parse_value first ends, rfl, ?_⟩
    simp only [joined_trimmed]
    split
    · next last => exact .inr (List.dropLast_append_getLast? _ last)
    · exact .inl rfl

/-- `AT+X=a` -/
theorem parse_value_letter :
    ∃ command, parse (attentionPrefix ++ [43, 88] ++ [equalSign] ++ [97]) = some command ∧
      command.name = [43, 88] ∧
      (joined command.arguments = [97] ∨ joined command.arguments ++ [comma] = [97]) :=
  (parse_value_iff [43, 88] [97] (by decide)).mpr (by decide)

/-- `AT+X=a?` is a query of `+X=a`. -/
theorem value_dropped :
    parse (attentionPrefix ++ [43, 88] ++ [equalSign] ++ [97, questionMark]) =
        some { name := [43, 88, equalSign, 97], type := .Query } ∧
      ¬ ∃ command, parse (attentionPrefix ++ [43, 88] ++ [equalSign] ++ [97, questionMark]) =
          some command ∧ command.name = [43, 88] := by
  have run : parse (attentionPrefix ++ [43, 88] ++ [equalSign] ++ [97, questionMark]) =
      some { name := [43, 88, equalSign, 97], type := .Query } := by decide
  refine ⟨run, ?_⟩
  rw [run]
  simp

end MiniModem.At
