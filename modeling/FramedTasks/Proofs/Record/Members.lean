import FramedTasks.Proofs.Record.Draft
import FramedTasks.Proofs.Record.Values

/-! # Records by their members

A payload that is a map says what a record is: under each name of a field stand some values, and
the field is what these are. A required field stands there once and is of its type; an optional
one is absent or nil, or stands there once and is of its type (`InputTask.ofMembers?`,
`OutputTask.ofMembers?`). A reader that takes the members one after another completes its draft to
the same record (`Draft.complete`): a member changes the draft only at the place of the field that
it names, and not at all if it names none.
-/

namespace FramedTasks

section Except

variable {ε α β : Type}

theorem toOption_bind (result : Except ε α) (next : α → Except ε β) :
    (result >>= next).toOption = result.toOption.bind fun value => (next value).toOption := by
  cases result <;> rfl

theorem toOption_map (result : Except ε α) (change : α → β) :
    (result.map change).toOption = result.toOption.map change := by
  cases result <;> rfl

/-- A reader whose value is wrapped gives what it gave before, wrapped. -/
theorem toOption_map_wrap {γ δ : Type} {result : Except ε (α × γ)} {option : Option α} {rest : γ}
    (read : result.toOption = option.map (·, rest)) (wrap : α → δ) :
    (result.map fun (value, rest) => (wrap value, rest)).toOption =
      (option.map wrap).map (·, rest) := by
  rw [toOption_map, read, Option.map_map, Option.map_map]
  rfl

theorem eq_ok_of_toOption {result : Except ε α} {value : α} (found : result.toOption = some value) :
    result = .ok value := by
  cases result with
  | error fault => contradiction
  | ok other => exact congrArg Except.ok (Option.some.inj found)

theorem exists_error_of_toOption {result : Except ε α} (none : result.toOption = none) :
    ∃ fault, result = .error fault := by
  cases result with
  | error fault => exact ⟨fault, rfl⟩
  | ok value => contradiction

end Except

namespace Json

mutual

/-- A value with the members of its objects in key order, the last one under each key. -/
def Value.ordered : Value → Value
  | .null => .null
  | .bool value => .bool value
  | .integer value => .integer value
  | .number value => .number value
  | .text value => .text value
  | .list items => .list (orderedItems items)
  | .object members => .object (Keyed.ofList (orderedMembers members))

/-- The items of a list, each with its members in key order. -/
def orderedItems : List Value → List Value
  | [] => []
  | item :: rest => item.ordered :: orderedItems rest

/-- The members of an object in the order in which they stand, the members of each value in key
order. -/
def orderedMembers : List (String × Value) → List (String × Value)
  | [] => []
  | (key, value) :: rest => (key, value.ordered) :: orderedMembers rest

end

mutual

/-- How deep lists and objects are nested in a value. -/
def Value.nesting : Value → Nat
  | .null | .bool _ | .integer _ | .number _ | .text _ => 0
  | .list items => itemNesting items + 1
  | .object members => memberNesting members + 1

/-- How deep lists and objects are nested in the items of a list. -/
def itemNesting : List Value → Nat
  | [] => 0
  | item :: rest => max item.nesting (itemNesting rest)

/-- How deep lists and objects are nested in the members of an object. -/
def memberNesting : List (String × Value) → Nat
  | [] => 0
  | (_, value) :: rest => max value.nesting (memberNesting rest)

end

end Json

open Json (Value)

/-- The values of the members under some names, in the order in which they stand. -/
def under (names : List String) (members : List (String × Value)) : List Value :=
  (members.filter fun member => names.contains member.1).map (·.2)

def soleText? : List Value → Option String
  | [.text value] => some value
  | _ => none

/-- A status that must be there: an integer that fits a signed word of 32 bits. -/
def soleStatus? : List Value → Option Status
  | [.integer value] => Status.ofInt? value
  | _ => none

def textOrAbsent? : List Value → Option (Option String)
  | [] | [.null] => some none
  | [.text value] => some (some value)
  | _ => none

/-- Headers that may be absent or nil. Of several values under one key the last one counts. -/
def headersOrAbsent? : List Value → Option (Option Headers)
  | [] | [.null] => some none
  | [.object members] =>
    some (some (Json.headersOf (Keyed.ofList (Json.orderedMembers members))))
  | _ => none

def InputTask.ofMembers? (members : List (String × Value)) : Option InputTask := do
  let message ← soleText? (under ["message", "0", "Message"] members)
  let correlationId ← textOrAbsent? (under ["correlationId", "1", "CorrelationId"] members)
  let originalQueueName ←
    textOrAbsent? (under ["originalQueueName", "2", "OriginalQueueName"] members)
  let headers ← headersOrAbsent? (under ["headers", "3", "Headers"] members)
  some { message, correlationId, originalQueueName, headers }

def OutputTask.ofMembers? (members : List (String × Value)) : Option OutputTask := do
  let message ← soleText? (under ["message", "0", "Message"] members)
  let status ← soleStatus? (under ["status", "1", "Status"] members)
  let headers ← headersOrAbsent? (under ["headers", "2", "Headers"] members)
  let replyQueueName ← textOrAbsent? (under ["replyQueueName", "3", "ReplyQueueName"] members)
  some { message, status, headers, replyQueueName }

/-- The value of a field that stands for some values. -/
def FieldValue.ofValues? (kind : FieldKind) (values : List Value) : Option FieldValue :=
  match kind with
  | .text => (soleText? values).map .text
  | .status => (soleStatus? values).map .status
  | .optionalText => (textOrAbsent? values).map .optionalText
  | .headers => (headersOrAbsent? values).map .headers

/-- A field that stands twice has no value, whatever stands there. -/
theorem FieldValue.ofValues?_twice (kind : FieldKind) (first second : Value) (rest : List Value) :
    ofValues? kind (first :: second :: rest) = none := by
  cases kind <;> cases first <;> rfl

/-- The order in which values stand does not matter: where it could, there are two of them. -/
theorem FieldValue.ofValues?_perm (kind : FieldKind) {values values' : List Value}
    (perm : values.Perm values') : ofValues? kind values = ofValues? kind values' := by
  match values, values', perm.length_eq with
  | [], [], _ => rfl
  | [value], [value'], _ =>
    obtain rfl := List.singleton_perm_singleton.mp perm
    rfl
  | first :: second :: rest, first' :: second' :: rest', _ =>
    rw [ofValues?_twice, ofValues?_twice]

theorem Field.default?_eq_ofValues? (field : Field) :
    field.default? = FieldValue.ofValues? field.kind [] := by
  rw [default?]
  cases field.kind <;> rfl

def FieldValue.written : FieldValue → Value
  | .text value => .text value
  | .status value => .integer value.code.toInt
  | .optionalText none | .headers none => .null
  | .optionalText (some value) => .text value
  | .headers (some map) => .object map.members

theorem Headers.orderedMembers_members (headers : Headers) :
    Json.orderedMembers headers.members = headers.members := by
  rw [members]
  induction headers.entries with
  | nil => rfl
  | cons entry rest ih => rw [List.map_cons, Json.orderedMembers, ih, Value.ordered]

theorem Headers.memberNesting_members (headers : Headers) :
    Json.memberNesting headers.members = 0 := by
  rw [members]
  induction headers.entries with
  | nil => rfl
  | cons entry rest ih => rw [List.map_cons, Json.memberNesting, ih, Value.nesting, Nat.max_self]

/-- What is written for a field makes the field. -/
theorem FieldValue.ofValues?_written (value : FieldValue) :
    ofValues? value.kind [value.written] = some value := by
  rcases value with text | status | (_ | text) | (_ | map)
  · rfl
  · exact congrArg (Option.map FieldValue.status) status.ofInt?_toInt
  · rfl
  · rfl
  · rfl
  · have sorted : Keyed.Sorted map.members := map.sorted.map Value.text
    simp only [kind, written, ofValues?, headersOrAbsent?, map.orderedMembers_members,
      Keyed.ofList_of_sorted sorted, Json.headersOf_members, Option.map_some]

theorem FieldValue.nesting_written (value : FieldValue) : value.written.nesting ≤ 1 := by
  rcases value with text | status | (_ | text) | (_ | map)
  case headers.some =>
    exact Nat.le_of_eq (congrArg (· + 1) map.memberNesting_members)
  all_goals exact Nat.zero_le 1

def Field.names (field : Field) : List String := [field.name, field.digit, field.capitalName]

theorem Field.answersTo_eq_contains (field : Field) (name : String) :
    field.answersTo name = field.names.contains name := by
  simp only [answersTo, names, List.contains_cons, List.contains_nil, Bool.or_false, Bool.or_assoc,
    @BEq.comm _ _ _ name]

section Under

variable {field : Field} {name : String} (value : Value) (members : List (String × Value))

theorem under_of_answersTo (answers : field.answersTo name = true) :
    under field.names ((name, value) :: members) = value :: under field.names members := by
  rw [field.answersTo_eq_contains] at answers
  simp only [under, List.filter_cons, answers, if_true, List.map_cons]

theorem under_of_not_answersTo (silent : field.answersTo name = false) :
    under field.names ((name, value) :: members) = under field.names members := by
  rw [field.answersTo_eq_contains] at silent
  simp only [under, List.filter_cons, silent, Bool.false_eq_true, if_false]

end Under

/-- Whether no name stands for two fields. -/
def Schema.Disjoint (fields : List Field) : Prop :=
  fields.Pairwise fun first second => ∀ name ∈ first.names, second.answersTo name = false

instance (fields : List Field) : Decidable (Schema.Disjoint fields) :=
  inferInstanceAs (Decidable (fields.Pairwise fun first second =>
    ∀ name ∈ first.names, second.answersTo name = false))

namespace Draft

/-- What a place of a draft becomes when some more values stand under the names of its field. -/
def settle (kind : FieldKind) : Option FieldValue → List Value → Option FieldValue
  | none, values => FieldValue.ofValues? kind values
  | some value, [] => some value
  | some _, _ :: _ => none

/-- A value settles a place that is empty, and then more values settle it. -/
theorem settle_cons (kind : FieldKind) (held : Option FieldValue) (value : Value)
    (values : List Value) : settle kind held (value :: values) =
      if held.isSome then none
      else (FieldValue.ofValues? kind [value]).bind fun met => settle kind (some met) values := by
  cases held with
  | some held => rfl
  | none =>
    cases values with
    | nil => cases single : FieldValue.ofValues? kind [value] <;> simp [settle, single]
    | cons second rest =>
      have twice := FieldValue.ofValues?_twice kind value second rest
      cases FieldValue.ofValues? kind [value] <;> simp [settle, twice]

/-- The values of all fields, if a draft and the remaining members make a record. -/
def complete (members : List (String × Value)) : List Field → Draft → Option (List FieldValue)
  | [], _ => some []
  | field :: fields, draft => do
    let value ← settle field.kind (draft.head?.getD none) (under field.names members)
    let values ← complete members fields draft.tail
    some (value :: values)

/-- The values of all fields, if some members make a record by themselves. -/
def initial (members : List (String × Value)) : List Field → Option (List FieldValue)
  | [] => some []
  | field :: fields => do
    let value ← FieldValue.ofValues? field.kind (under field.names members)
    let values ← initial members fields
    some (value :: values)

/-- A field that stands twice spoils the whole record. -/
theorem initial_twice {members : List (String × Value)} {fields : List Field} {field : Field}
    (known : field ∈ fields) (twice : 1 < (under field.names members).length) :
    initial members fields = none := by
  induction fields with
  | nil => contradiction
  | cons first fields ih =>
    rw [initial]
    rcases List.mem_cons.mp known with rfl | later
    · obtain ⟨one, two, rest, several⟩ :
          ∃ one two rest, under field.names members = one :: two :: rest := by
        match under field.names members, twice with
        | one :: two :: rest, _ => exact ⟨one, two, rest, rfl⟩
      rw [several, FieldValue.ofValues?_twice]
      rfl
    · rw [ih later]
      cases FieldValue.ofValues? first.kind (under first.names members) <;> rfl

/-- A record is the same in whatever order its members stand. -/
theorem initial_perm {members members' : List (String × Value)} (perm : members.Perm members')
    (fields : List Field) : initial members fields = initial members' fields := by
  induction fields with
  | nil => rfl
  | cons field fields ih =>
    have same := FieldValue.ofValues?_perm field.kind
      ((perm.filter fun member => field.names.contains member.1).map (·.2))
    rw [initial, initial, ih]
    exact congrArg (Option.bind · _) same

theorem complete_empty (members : List (String × Value)) (schema : Schema) :
    complete members schema.fields (empty schema) = initial members schema.fields := by
  rw [empty]
  induction schema.fields with
  | nil => rfl
  | cons field fields ih =>
    rw [List.length_cons, List.replicate_succ, complete, List.tail_cons, ih]
    rfl

/-- Without further members, a draft is finished as it is. -/
theorem complete_nil (fields : List Field) (draft : Draft) :
    complete [] fields draft = (finish fields draft).toOption := by
  induction fields generalizing draft with
  | nil => rfl
  | cons field fields ih =>
    have settled : settle field.kind (draft.head?.getD none) (under field.names []) =
        (draft.head?.getD none).or field.default? := by
      cases draft.head?.getD none with
      | none => exact field.default?_eq_ofValues?.symm
      | some value => rfl
    rw [complete, finish, settled, ih]
    cases (draft.head?.getD none).or field.default? with
    | none => rfl
    | some value =>
      simp only [toOption_map, Option.bind_eq_bind, Option.bind_some]
      cases (finish fields draft.tail).toOption <;> rfl

section Cons

variable (held : Option FieldValue) (draft : Draft) (index : Nat) (value : FieldValue)

theorem has_cons_zero : has (held :: draft) 0 = held.isSome := rfl

theorem has_cons_succ : has (held :: draft) (index + 1) = has draft index := rfl

theorem put_cons_zero : put (held :: draft) 0 value = some value :: draft := rfl

end Cons

section Step

variable {fields : List Field} {name : String} (value : Value) (members : List (String × Value))

/-- A member that names no field leaves a draft as it is. -/
theorem complete_cons_of_unknown (unknown : fields.findIdx? (·.answersTo name) = none)
    (draft : Draft) :
    complete ((name, value) :: members) fields draft = complete members fields draft := by
  induction fields generalizing draft with
  | nil => rfl
  | cons field fields ih =>
    have silent : ∀ other ∈ field :: fields, other.answersTo name = false := by
      simpa using List.findIdx?_eq_none_iff.mp unknown
    have others : fields.findIdx? (·.answersTo name) = none :=
      List.findIdx?_eq_none_iff.mpr fun other member =>
        silent other (List.mem_cons_of_mem _ member)
    rw [complete, complete, ih others,
      under_of_not_answersTo value members (silent field (List.mem_cons_self ..))]

/-- A member that names a field fills the place of that field, which must be empty. -/
theorem complete_cons_of_known (disjoint : Schema.Disjoint fields) {index : Nat}
    (known : fields.findIdx? (·.answersTo name) = some index) {field : Field}
    (place : fields[index]? = some field) {draft : Draft} (level : draft.length = fields.length) :
    complete ((name, value) :: members) fields draft =
      if draft.has index then none
      else (FieldValue.ofValues? field.kind [value]).bind fun value =>
        complete members fields (draft.put index value) := by
  induction fields generalizing index draft with
  | nil => contradiction
  | cons first fields ih =>
    obtain ⟨apart, disjoint⟩ := List.pairwise_cons.mp disjoint
    obtain _ | ⟨held, draft⟩ := draft
    · contradiction
    rw [List.length_cons, List.length_cons, Nat.add_right_cancel_iff] at level
    rw [List.findIdx?_cons] at known
    cases answers : first.answersTo name with
    | true =>
      -- the first field takes the member, and no other field does
      rw [answers, if_pos rfl] at known
      obtain rfl := Option.some.inj known
      obtain rfl := Option.some.inj place
      have named : name ∈ first.names := by
        rwa [first.answersTo_eq_contains, List.contains_iff_mem] at answers
      have others : fields.findIdx? (·.answersTo name) = none :=
        List.findIdx?_eq_none_iff.mpr fun other member => apart other member name named
      simp only [complete, List.head?_cons, Option.getD_some, List.tail_cons, has_cons_zero,
        put_cons_zero, under_of_answersTo value members answers,
        complete_cons_of_unknown value members others, settle_cons]
      cases held with
      | some held => rfl
      | none =>
        cases FieldValue.ofValues? first.kind [value] <;> rfl
    | false =>
      -- the member goes to a later field
      rw [answers, if_neg Bool.false_ne_true] at known
      obtain ⟨index, later, rfl⟩ := Option.map_eq_some_iff.mp known
      rw [List.getElem?_cons_succ] at place
      have rest := ih disjoint later place level
      rw [complete, under_of_not_answersTo value members answers, List.tail_cons, rest]
      -- what the place before it settles to does not depend on the member
      by_cases met : has draft index = true
      · rw [if_pos met, if_pos (has_cons_succ held draft index ▸ met)]
        cases settle first.kind _ (under first.names members) <;> rfl
      · rw [if_neg met, if_neg (has_cons_succ held draft index ▸ met)]
        cases FieldValue.ofValues? field.kind [value] with
        | none => cases settle first.kind _ (under first.names members) <;> rfl
        | some value => rfl

end Step

end Draft

/-- What a kind of record needs to be found in its members: names that stand for one field each, and
fields that are what a given reading of the members says. -/
structure Record.Found (α : Type) [Record α] (ofMembers? : List (String × Value) → Option α) :
    Prop where
  disjoint : Schema.Disjoint (Record.schema α).fields
  complete (members : List (String × Value)) :
    (Draft.complete members (Record.schema α).fields (Draft.empty (Record.schema α))).map
      Record.ofValues = ofMembers? members

/-- A field that stands twice spoils the whole record. -/
theorem Record.Found.twice {α : Type} [Record α] {ofMembers? : List (String × Value) → Option α}
    (found : Record.Found α ofMembers?) {members : List (String × Value)} {field : Field}
    (known : field ∈ (Record.schema α).fields) (twice : 1 < (under field.names members).length) :
    ofMembers? members = none := by
  rw [← found.complete, Draft.complete_empty, Draft.initial_twice known twice]
  rfl

/-- The members of a record may stand in any order. -/
theorem Record.Found.perm {α : Type} [Record α] {ofMembers? : List (String × Value) → Option α}
    (found : Record.Found α ofMembers?) {members members' : List (String × Value)}
    (perm : members.Perm members') : ofMembers? members = ofMembers? members' := by
  rw [← found.complete, ← found.complete, Draft.complete_empty, Draft.complete_empty,
    Draft.initial_perm perm]

theorem InputTask.found : Record.Found InputTask ofMembers? where
  disjoint := by decide
  complete members := by
    rw [Draft.complete_empty]
    simp only [ofMembers?, Record.schema, Draft.initial, FieldValue.ofValues?, Field.names]
    cases soleText? (under ["message", "0", "Message"] members) with
    | none => rfl
    | some message =>
    cases textOrAbsent? (under ["correlationId", "1", "CorrelationId"] members) with
    | none => rfl
    | some correlationId =>
    cases textOrAbsent? (under ["originalQueueName", "2", "OriginalQueueName"] members) with
    | none => rfl
    | some originalQueueName =>
    cases headersOrAbsent? (under ["headers", "3", "Headers"] members) <;> rfl

theorem OutputTask.found : Record.Found OutputTask ofMembers? where
  disjoint := by decide
  complete members := by
    rw [Draft.complete_empty]
    simp only [ofMembers?, Record.schema, Draft.initial, FieldValue.ofValues?, Field.names]
    cases soleText? (under ["message", "0", "Message"] members) with
    | none => rfl
    | some message =>
    cases soleStatus? (under ["status", "1", "Status"] members) with
    | none => rfl
    | some status =>
    cases headersOrAbsent? (under ["headers", "2", "Headers"] members) with
    | none => rfl
    | some headers =>
    cases textOrAbsent? (under ["replyQueueName", "3", "ReplyQueueName"] members) <;> rfl

end FramedTasks
