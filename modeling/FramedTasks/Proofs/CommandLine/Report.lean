import FramedTasks.CommandLine.Work
import FramedTasks.Proofs.Json.Compact

/-! # Reports that take one line each

A line feed never stands in the compact text of a JSON value, since a writer escapes it
(`Json.newline_not_mem_chars`). So a host that reports its replies as objects prints a line for each
of them, and `Report.echoed` is the object on the line of an echo.
-/

namespace FramedTasks

namespace Json

private theorem digitChar_ne_newline : ∀ digit < 16, '\n' ≠ Nat.digitChar digit := by decide

theorem newline_not_mem_escape (c : Char) : '\n' ∉ escape c := by
  unfold escape
  -- The controls with a letter of their own come first; a line feed is one of them.
  iterate 7
    split
    · decide
  split
  · next control =>
    have high := digitChar_ne_newline (c.toNat / 16) (by omega)
    have low := digitChar_ne_newline (c.toNat % 16) (by omega)
    simp [high, low]
  · next control =>
    rintro (_ | ⟨_, ⟨⟩⟩)
    exact control (by decide)

theorem newline_not_mem_quoteChars (text : String) : '\n' ∉ quoteChars text := by
  simp [quoteChars, List.mem_flatMap, newline_not_mem_escape]

theorem newline_not_mem_intChars (number : Int) : '\n' ∉ Decimal.intChars number := by
  have digits (magnitude : Nat) : '\n' ∉ Decimal.natChars magnitude := fun member => by
    have digit := Nat.isDigit_of_mem_toDigits (by decide) (by decide) member
    contradiction
  unfold Decimal.intChars
  split
  · simp [digits]
  · exact digits _

mutual

/-- The compact text of a value is one line. -/
theorem newline_not_mem_chars : (value : Value) → value.isExact = true → '\n' ∉ value.chars
  | .null, _ | .bool true, _ | .bool false, _ => by simp [Value.chars]
  | .integer value, _ => newline_not_mem_intChars value
  | .text text, _ => newline_not_mem_quoteChars text
  | .list items, exact => by
    simp [Value.chars, newline_not_mem_itemChars items exact]
  | .object members, exact => by
    simp [Value.chars, newline_not_mem_memberChars members exact]

theorem newline_not_mem_itemChars :
    (items : List Value) → areExact items = true → '\n' ∉ itemChars items
  | [], _ => List.not_mem_nil
  | [item], exact => newline_not_mem_chars item (Bool.and_eq_true_iff.mp exact).1
  | item :: next :: rest, exact => by
    obtain ⟨here, later⟩ := Bool.and_eq_true_iff.mp exact
    simp [itemChars, newline_not_mem_chars item here, newline_not_mem_itemChars (next :: rest) later]

theorem newline_not_mem_memberChars :
    (members : List (String × Value)) → holdExact members = true → '\n' ∉ memberChars members
  | [], _ => List.not_mem_nil
  | [(key, value)], exact => by
    simp [memberChars, newline_not_mem_quoteChars,
      newline_not_mem_chars value (Bool.and_eq_true_iff.mp exact).1]
  | (key, value) :: next :: rest, exact => by
    obtain ⟨here, later⟩ := Bool.and_eq_true_iff.mp exact
    simp [memberChars, newline_not_mem_quoteChars, newline_not_mem_chars value here,
      newline_not_mem_memberChars (next :: rest) later]

end

theorem holdExact_append (first second : List (String × Value)) :
    holdExact (first ++ second) = (holdExact first && holdExact second) := by
  induction first with
  | nil => rfl
  | cons member first ih =>
    obtain ⟨key, value⟩ := member
    rw [List.cons_append, holdExact, holdExact, ih, Bool.and_assoc]

theorem holdExact_texts (entries : List (String × String)) :
    holdExact (entries.map fun (key, text) => (key, .text text)) = true := by
  induction entries with
  | nil => rfl
  | cons entry entries ih => exact ih

end Json

namespace CommandLine.Report

theorem isExact_optionalText (text : Option String) : (optionalText text).isExact = true := by
  cases text <;> rfl

theorem isExact_reply (request : InputTask) (answer : OutputTask) :
    (Json.Value.object (replyMembers request answer)).isExact = true := by
  have least := answer.status.code.le_toInt
  have most := answer.status.code.toInt_lt
  rw [Json.Value.isExact, replyMembers, Json.holdExact_append, Json.holdExact_append]
  cases answer.headers with
  | none =>
    simp [Json.holdExact, isExact_optionalText, Json.Value.isExact]
    omega
  | some headers =>
    simp [Json.holdExact, isExact_optionalText, Json.Value.isExact, Json.holdExact_texts]
    omega

theorem reply_json (request : InputTask) (answer : OutputTask) :
    reply .json request answer = (Json.Value.object (replyMembers request answer)).compact ++ "\n" := by
  unfold reply
  simp only

/-- A reply as an object is one line. -/
theorem newline_not_mem_reply (request : InputTask) (answer : OutputTask) :
    '\n' ∉ (Json.Value.object (replyMembers request answer)).compact.toList := by
  rw [Json.Value.compact, String.toList_ofList]
  exact Json.newline_not_mem_chars _ (isExact_reply request answer)

def echoed (id message : String) (headers : Option Headers) (queue : Option String) : Json.Value :=
  .object <|
    [("correlationId", .text id), ("request", .text message),
      ("message", .text ("Processed: " ++ message)),
      ("status", .integer (if queue.isSome then 201 else 200)),
      ("statusName", .text (if queue.isSome then "DONE_WITH_REPLY" else "DONE")),
      ("done", .bool true)] ++
    (match headers with
      | some headers =>
        [("headers", .object (headers.entries.map fun (key, value) => (key, .text value)))]
      | none => []) ++
    [("replyQueueName", optionalText queue)]

theorem object_echo {id : String} (queue : Option String) {task : InputTask}
    (numbered : task.correlationId = some id) :
    .object (replyMembers task (Work.echo queue task)) =
      echoed id task.message task.headers queue := by
  obtain ⟨message, correlationId, originalQueueName, headers⟩ := task
  obtain rfl := numbered
  cases queue <;> cases headers <;> rfl

/-- The line of an echo. -/
theorem reply_echo {id : String} (queue : Option String) {task : InputTask}
    (numbered : task.correlationId = some id) :
    reply .json task (Work.echo queue task) =
      (echoed id task.message task.headers queue).compact ++ "\n" := by
  rw [reply_json, object_echo queue numbered]

theorem newline_not_mem_echoed (id message : String) (headers : Option Headers)
    (queue : Option String) : '\n' ∉ (echoed id message headers queue).compact.toList := by
  rw [← @object_echo id queue { message, correlationId := some id, headers } rfl]
  exact newline_not_mem_reply _ _

end CommandLine.Report

end FramedTasks
