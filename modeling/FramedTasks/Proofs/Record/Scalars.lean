import FramedTasks.Proofs.Record.Decoding
import FramedTasks.Proofs.Record.HeaderKeys
import FramedTasks.Proofs.Record.RoundTrip

/-! # Headers with scalar values

A host may put booleans, integers and nil where a header wants a text, and may put a key twice. Both
formats make the same headers of such entries: under each key the text of the last value, and
nothing if that is nil. The texts are no longer than what stood in the MessagePack payload, so the
record can be written again in either format.
-/

namespace FramedTasks

open Json (Value)

/-- A header value that is no list, no object and no number with a fraction. -/
inductive Scalar where
  | nil
  | bool (value : Bool)
  | integer (value : Int)
  | text (value : String)
deriving DecidableEq, Repr

namespace Scalar

def value : Scalar → Value
  | .nil => .null
  | .bool value => .bool value
  | .integer value => .integer value
  | .text value => .text value

def text? : Scalar → Option String
  | .nil => none
  | .bool value => some (toString value)
  | .integer value => some (toString value)
  | .text value => some value

/-- The members of an object that holds some entries. -/
def members (entries : List (String × Scalar)) : List (String × Value) :=
  entries.map fun entry => (entry.1, entry.2.value)

end Scalar

theorem Headers.eq_empty {headers : Headers} (nothing : ∀ key, headers.find? key = none) :
    headers = .empty := by
  obtain ⟨_ | ⟨entry, rest⟩, sorted⟩ := headers
  · rfl
  · have found : Keyed.find? entry.1 (entry :: rest) = none := nothing entry.1
    rw [Keyed.find?_cons, if_pos rfl] at found
    contradiction

/-- The compact text of an integer is its decimal text. -/
theorem Decimal.intText_eq_toString (value : Int) : intText value = toString value := by
  have magnitude (number : Nat) : String.ofList (natChars number) = number.repr := rfl
  change intText value = value.repr
  rw [intText, intChars, Int.repr_eq_if]
  by_cases negative : value < 0
  · have size : value.natAbs = (-value).toNat := by omega
    rw [if_pos negative, if_neg (Int.not_le.mpr negative), size, ← magnitude]
    exact @String.ofList_append ['-'] (natChars (-value).toNat)
  · have size : value.natAbs = value.toNat := by omega
    rw [if_neg negative, if_pos (Int.not_lt.mp negative), size, magnitude]

namespace Scalar

theorem headerText?_value (scalar : Scalar) : Json.headerText? scalar.value = scalar.text? := by
  cases scalar with
  | nil | text => rfl
  | bool value => cases value <;> rfl
  | integer value => exact congrArg some (Decimal.intText_eq_toString value)

theorem orderedMembers_members (entries : List (String × Scalar)) :
    Json.orderedMembers (members entries) = members entries := by
  induction entries with
  | nil => rfl
  | cons entry entries ih =>
    obtain ⟨key, scalar⟩ := entry
    have ordered : scalar.value.ordered = scalar.value := by cases scalar <;> rfl
    rw [members, List.map_cons, Json.orderedMembers, ordered]
    exact congrArg _ ih

theorem last?_members (key : String) (entries : List (String × Scalar)) :
    Keyed.last? key (members entries) = (Keyed.last? key entries).map value := by
  induction entries with
  | nil => rfl
  | cons entry entries ih =>
    rw [members, List.map_cons, Keyed.last?_cons, Keyed.last?_cons, ← members, ih]
    by_cases here : entry.1 = key <;> cases Keyed.last? key entries <;> simp [here]

/-- Headers are there, with the text of the last value under each key, and nothing under a key whose
last value is nil. If no text is left, they are empty and not absent. -/
def AreKept (entries : List (String × Scalar)) (held : Option Headers) : Prop :=
  ∃ headers, held = some headers ∧
    (∀ key, headers.find? key = (Keyed.last? key entries).bind text?) ∧
    ((∀ key, (Keyed.last? key entries).bind text? = none) → headers = .empty)

/-- A reader keeps the entries of headers. -/
theorem areKept_of_headersOrAbsent? {entries : List (String × Scalar)} {held : Option Headers}
    (read : headersOrAbsent? [.object (members entries)] = some held) : AreKept entries held := by
  have found (key : String) :
      (Json.headersOf (Keyed.ofList (Json.orderedMembers (members entries)))).find? key =
        (Keyed.last? key entries).bind text? := by
    rw [orderedMembers_members, Json.find?_headersOf, last?_members, Option.bind_map]
    exact congrArg _ (funext headerText?_value)
  exact ⟨_, (Option.some.inj read).symm, found, fun nothing =>
    Headers.eq_empty fun key => (found key).trans (nothing key)⟩

end Scalar

theorem Keyed.mem_ofList {α : Type} {entries : List (String × α)} {entry : String × α}
    (member : entry ∈ ofList entries) : entry ∈ entries := by
  have inserted (key : String) (value : α) (held : List (String × α))
      (member : entry ∈ insert key value held) : entry = (key, value) ∨ entry ∈ held := by
    induction held with
    | nil => exact .inl (List.mem_singleton.mp member)
    | cons first held ih =>
      rw [insert] at member
      split at member
      · exact List.mem_cons.mp member
      · split at member
        · exact (List.mem_cons.mp member).imp_right (List.mem_cons_of_mem _)
        · rcases List.mem_cons.mp member with rfl | member
          · exact .inr (List.mem_cons_self ..)
          · exact (ih member).imp_right (List.mem_cons_of_mem _)
  induction entries using List.reverseRecOn with
  | nil => exact member
  | append_singleton entries last ih =>
    rw [ofList, List.foldl_append, List.foldl_cons, List.foldl_nil] at member
    rcases inserted _ _ _ member with rfl | member
    · exact List.mem_append_right _ (List.mem_singleton_self _)
    · exact List.mem_append_left _ (ih member)

theorem Keyed.length_ofList_le {α : Type} (entries : List (String × α)) :
    (ofList entries).length ≤ entries.length := by
  have inserted (key : String) (value : α) (held : List (String × α)) :
      (insert key value held).length ≤ held.length + 1 := by
    induction held with
    | nil => exact Nat.le_refl 1
    | cons first held ih =>
      rw [insert]
      split
      · exact Nat.le_refl _
      · split
        · exact Nat.le_succ _
        · exact Nat.succ_le_succ ih
  induction entries using List.reverseRecOn with
  | nil => exact Nat.le_refl 0
  | append_singleton entries last ih =>
    have longer := inserted last.1 last.2 (ofList entries)
    rw [ofList, List.foldl_append, List.foldl_cons, List.foldl_nil, ← ofList, List.length_append,
      List.length_singleton]
    omega

namespace MessagePack

variable {members : List (String × Value)} {bytes : Bytes}

theorem SpellsHead.length_lt {length : Nat} {head : Bytes} (spells : SpellsHead (.text length) head) :
    length < 0x100000000 := by
  cases spells with
  | fixStr small => omega
  | @str width _ narrow fits =>
    cases width with
    | eight => contradiction
    | one | two | four => exact Nat.lt_of_lt_of_le fits (by decide)

theorem SpellsHead.count_lt {count : Nat} {head : Bytes} (spells : SpellsHead (.map count) head) :
    count < 0x100000000 := by
  cases spells with
  | fixMap small => omega
  | map wide fits => rcases wide with rfl | rfl <;> exact Nat.lt_of_lt_of_le fits (by decide)

/-- A text that stands in a payload can be written again. -/
theorem SpellsText.storable {text : String} (spells : SpellsText text bytes) : Storable text := by
  cases spells with
  | intro head => exact head.length_lt

/-- Every member of an object stands in its payload. -/
theorem Spells.of_mem {key : String} {value : Value} (spells : Spells (.objectMembers members) bytes)
    (member : (key, value) ∈ members) :
    Storable key ∧ ∃ item, Spells (.whole value) item := by
  induction members generalizing bytes with
  | nil => contradiction
  | cons first members ih =>
    cases spells with
    | member named spelled others =>
      rcases List.mem_cons.mp member with same | member
      · obtain ⟨rfl, rfl⟩ := Prod.mk.inj same
        exact ⟨named.storable, _, spelled⟩
      · exact ih others member

/-- A value that stands under a name in a payload has an item of its own there. -/
theorem Spells.of_mem_under {value : Value} (spells : Spells (.whole (.object members)) bytes)
    {names : List String} (member : value ∈ under names members) :
    ∃ item, Spells (.whole value) item := by
  obtain ⟨⟨key, _⟩, held, rfl⟩ := List.mem_map.mp member
  cases spells with
  | object _ spelled => exact (spelled.of_mem (List.mem_filter.mp held).1).2

variable {names : List String} (spells : Spells (.whole (.object members)) bytes)
include spells

theorem Spells.storable_text {text : String} (sole : .text text ∈ under names members) :
    Storable text := by
  obtain ⟨_, spelled⟩ := spells.of_mem_under sole
  cases spelled with
  | text spelled => exact spelled.storable

theorem Spells.storable_soleText {text : String} (sole : soleText? (under names members) = some text) :
    StorableValue (.text text) := by
  refine spells.storable_text (show .text text ∈ under names members from ?_)
  unfold soleText? at sole
  split at sole
  · next value only =>
    obtain rfl := Option.some.inj sole
    exact only ▸ List.mem_singleton_self _
  · contradiction

theorem Spells.storable_textOrAbsent {text? : Option String}
    (held : textOrAbsent? (under names members) = some text?) :
    StorableValue (.optionalText text?) := by
  rintro text ⟨⟩
  refine spells.storable_text (show .text text ∈ under names members from ?_)
  unfold textOrAbsent? at held
  split at held
  · cases Option.some.inj held
  · cases Option.some.inj held
  · next value only =>
    obtain rfl := Option.some.inj (Option.some.inj held)
    exact only ▸ List.mem_singleton_self _
  · contradiction

end MessagePack

theorem Utf8.length_encodeChars_le (chars : List Char) :
    (encodeChars chars).length ≤ 4 * chars.length := by
  induction chars with
  | nil => exact Nat.le_refl 0
  | cons c chars ih =>
    have width : (String.utf8EncodeChar c).length ≤ 4 :=
      String.length_utf8EncodeChar c ▸ c.utf8Size_le_four
    rw [encodeChars] at ih ⊢
    rw [List.flatMap_cons, List.length_append, List.length_cons]
    omega

/-- An integer that stands in a payload has at most twenty digits and a sign. -/
theorem MessagePack.storable_toString {value : Int} {bytes : Bytes}
    (spells : Spells (.whole (.integer value)) bytes) : Storable (toString value) := by
  have range : -0x8000000000000000 ≤ value ∧ value < 0x10000000000000000 := by
    cases spells with
    | integer head integer =>
      cases head with
      | fixPos small | fixNeg small =>
        obtain rfl := Option.some.inj integer
        omega
      | @unsigned width number fits =>
        obtain rfl := Option.some.inj integer
        have most : number < 0x10000000000000000 :=
          Nat.lt_of_lt_of_le fits (by cases width <;> decide)
        omega
      | @signed width number least most =>
        obtain rfl := Option.some.inj integer
        have half : Nat.pow 256 width.bytes / 2 ≤ 0x8000000000000000 := by cases width <;> decide
        omega
      | _ => contradiction
  have digits : (Decimal.natChars value.natAbs).length ≤ 20 :=
    (Nat.length_toDigits_le_iff (by decide) (by decide)).mpr (by omega)
  have signed : (Decimal.intChars value).length ≤ 21 := by
    rw [Decimal.intChars]
    split
    · exact Nat.succ_le_succ digits
    · omega
  have written : Utf8.encode (toString value) = Utf8.encodeChars (Decimal.intChars value) := by
    rw [← Decimal.intText_eq_toString, Decimal.intText, Utf8.encode, String.toList_ofList]
  have short := Utf8.length_encodeChars_le (Decimal.intChars value)
  rw [Storable, written]
  omega

namespace Scalar

variable {entries : List (String × Scalar)}

/-- The text of a scalar that stands in a payload can be written. -/
theorem storable_text {scalar : Scalar} {bytes : Bytes}
    (spells : MessagePack.Spells (.whole scalar.value) bytes) {text : String}
    (kept : scalar.text? = some text) : MessagePack.Storable text := by
  cases scalar with
  | nil => contradiction
  | bool value =>
    obtain rfl := Option.some.inj kept
    cases value <;> decide
  | integer value =>
    obtain rfl := Option.some.inj kept
    exact MessagePack.storable_toString spells
  | text value =>
    obtain rfl := Option.some.inj kept
    cases spells with
    | text spelled => exact spelled.storable

/-- The headers of entries that stand in a payload can be written. -/
theorem storable_headers {bytes : Bytes} {held : Option Headers}
    (spells : MessagePack.Spells (.whole (.object (members entries))) bytes)
    (read : headersOrAbsent? [.object (members entries)] = some held) :
    MessagePack.StorableValue (.headers held) := by
  obtain rfl := Option.some.inj read
  rw [orderedMembers_members]
  rintro _ ⟨⟩
  cases spells with
  | object head spelled =>
    have kept := Keyed.length_ofList_le (members entries)
    have texts := Keyed.length_ofList_le ((Keyed.ofList (members entries)).filterMap fun member =>
      (Json.headerText? member.2).map fun text => (member.1, text))
    have few := List.length_filterMap_le (fun member : String × Value =>
      (Json.headerText? member.2).map fun text => (member.1, text)) (Keyed.ofList (members entries))
    have count := head.count_lt
    refine ⟨Nat.lt_of_le_of_lt (Nat.le_trans texts (Nat.le_trans few kept)) count, ?_⟩
    intro entry member
    obtain ⟨⟨key, _⟩, held, changed⟩ := List.mem_filterMap.mp (Keyed.mem_ofList member)
    obtain ⟨text, found, rfl⟩ := Option.map_eq_some_iff.mp changed
    have stands := Keyed.mem_ofList held
    obtain ⟨⟨_, scalar⟩, -, same⟩ := List.mem_map.mp stands
    obtain ⟨rfl, rfl⟩ := Prod.mk.inj same
    obtain ⟨storable, item, spelled⟩ := spelled.of_mem stands
    exact ⟨storable, storable_text spelled (scalar.headerText?_value ▸ found)⟩

end Scalar

theorem InputTask.of_ofMembers? {members : List (String × Value)} {task : InputTask}
    (made : ofMembers? members = some task) :
    soleText? (under ["message", "0", "Message"] members) = some task.message ∧
      textOrAbsent? (under ["correlationId", "1", "CorrelationId"] members) =
        some task.correlationId ∧
      textOrAbsent? (under ["originalQueueName", "2", "OriginalQueueName"] members) =
        some task.originalQueueName ∧
      headersOrAbsent? (under ["headers", "3", "Headers"] members) = some task.headers := by
  simp only [ofMembers?, Option.bind_eq_bind, Option.bind_eq_some_iff, Option.some.injEq] at made
  obtain ⟨message, text, correlationId, first, originalQueueName, second, headers, map, rfl⟩ := made
  exact ⟨text, first, second, map⟩

theorem OutputTask.of_ofMembers? {members : List (String × Value)} {task : OutputTask}
    (made : ofMembers? members = some task) :
    soleText? (under ["message", "0", "Message"] members) = some task.message ∧
      headersOrAbsent? (under ["headers", "2", "Headers"] members) = some task.headers ∧
      textOrAbsent? (under ["replyQueueName", "3", "ReplyQueueName"] members) =
        some task.replyQueueName := by
  simp only [ofMembers?, Option.bind_eq_bind, Option.bind_eq_some_iff, Option.some.injEq] at made
  obtain ⟨message, text, status, -, headers, map, replyQueueName, optional, rfl⟩ := made
  exact ⟨text, map, optional⟩

namespace Codec

/-- A record is read from its JSON payload and from its MessagePack payload, and comes back from every
payload that is written for it. -/
def ComesBack {α : Type} [Record α] (text packed : Bytes) (task : α) : Prop :=
  (∀ keys, decode ⟨.json, keys⟩ text = .ok task ∧ decode ⟨.messagePack, keys⟩ packed = .ok task) ∧
    ∀ format writing reading, decode ⟨format, reading⟩ (encode ⟨format, writing⟩ task) = .ok task

section Members

variable {members : List (String × Value)} {text packed : Bytes}
  (spellsText : WireFormat.json.Spells members text)
  (spellsPacked : WireFormat.messagePack.Spells members packed)
  (shallow : (Value.object members).nesting < Json.depthLimit)
include spellsText spellsPacked shallow

theorem comesBack_of_found {α : Type} [Record α] {ofMembers? : List (String × Value) → Option α}
    (found : Record.Found α ofMembers?) (readable : Record.Readable α) {task : α}
    (made : ofMembers? members = some task)
    (storable : ∀ value ∈ Record.values task, MessagePack.StorableValue value) :
    ComesBack text packed task := by
  have deeper : (Value.object members).nesting < MessagePack.depthLimit :=
    Nat.lt_trans shallow (by decide)
  refine ⟨fun keys => ⟨?_, ?_⟩, fun format writing reading => ?_⟩
  · exact eq_ok_of_toOption ((toOption_decode_of_found spellsText shallow found keys).trans made)
  · exact eq_ok_of_toOption ((toOption_decode_of_found spellsPacked deeper found keys).trans made)
  · exact decode_encode_of_readable readable format writing reading task fun _ => storable

end Members

/-- Entries with scalar values are the same headers in both formats, in both kinds of record: under
each key the text of the last value there, and none if that is nil. Writing the record again and
reading it changes nothing. -/
theorem decode_scalar_headers (entries : List (String × Scalar)) (members : List (String × Value))
    (text packed : Bytes) (spellsText : WireFormat.json.Spells members text)
    (spellsPacked : WireFormat.messagePack.Spells members packed)
    (shallow : (Value.object members).nesting < Json.depthLimit) :
    (∀ task, InputTask.ofMembers? members = some task →
      under ["headers", "3", "Headers"] members = [.object (Scalar.members entries)] →
      ComesBack text packed task ∧ Scalar.AreKept entries task.headers) ∧
    ∀ task, OutputTask.ofMembers? members = some task →
      under ["headers", "2", "Headers"] members = [.object (Scalar.members entries)] →
      ComesBack text packed task ∧ Scalar.AreKept entries task.headers := by
  have stored {names : List String} {held : Option Headers}
      (only : under names members = [.object (Scalar.members entries)])
      (read : headersOrAbsent? [.object (Scalar.members entries)] = some held) :
      MessagePack.StorableValue (.headers held) := by
    obtain ⟨item, spelled⟩ :=
      MessagePack.Spells.of_mem_under spellsPacked (only ▸ List.mem_singleton_self _)
    exact Scalar.storable_headers spelled read
  constructor
  · intro task made only
    obtain ⟨message, correlationId, originalQueueName, read⟩ := InputTask.of_ofMembers? made
    rw [only] at read
    refine ⟨comesBack_of_found spellsText spellsPacked shallow InputTask.found InputTask.readable
      made ?_, Scalar.areKept_of_headersOrAbsent? read⟩
    simp only [Record.values, List.mem_cons, List.not_mem_nil, or_false, forall_eq_or_imp, forall_eq]
    exact ⟨spellsPacked.storable_soleText message,
      spellsPacked.storable_textOrAbsent correlationId,
      spellsPacked.storable_textOrAbsent originalQueueName, stored only read⟩
  · intro task made only
    obtain ⟨message, read, replyQueueName⟩ := OutputTask.of_ofMembers? made
    rw [only] at read
    refine ⟨comesBack_of_found spellsText spellsPacked shallow OutputTask.found OutputTask.readable
      made ?_, Scalar.areKept_of_headersOrAbsent? read⟩
    simp only [Record.values, List.mem_cons, List.not_mem_nil, or_false, forall_eq_or_imp, forall_eq]
    exact ⟨spellsPacked.storable_soleText message, trivial, stored only read,
      spellsPacked.storable_textOrAbsent replyQueueName⟩

/-- An integer in more bytes than it needs, the largest one after it under the same key, and a key
whose last value is nil. -/
theorem decode_scalar_headers_repeated :
    let entries : List (String × Scalar) :=
      [("n", .integer 7), ("z", .bool true), ("n", .integer 18446744073709551615), ("z", .nil)]
    let members := [("0", .text "m"), ("3", .object (Scalar.members entries))]
    let text := Utf8.encodeChars (Value.chars (.object members))
    let packed : Bytes := [0x82, 0xA1, 0x30, 0xA1, 0x6D, 0xA1, 0x33, 0x84,
      0xA1, 0x6E, 0xD3, 0, 0, 0, 0, 0, 0, 0, 7, 0xA1, 0x7A, 0xC3,
      0xA1, 0x6E, 0xCF, 0xFF, 0xFF, 0xFF, 0xFF, 0xFF, 0xFF, 0xFF, 0xFF, 0xA1, 0x7A, 0xC0]
    let task : InputTask := ⟨"m", none, none, some (.ofList [("n", "18446744073709551615")])⟩
    ComesBack text packed task ∧ Scalar.AreKept entries task.headers := by
  intro entries members text packed task
  have key {text : String} (short : (Utf8.encode text).length < 32) :=
    MessagePack.SpellsText.intro (.fixStr short)
  have seven := @MessagePack.SpellsHead.signed .eight 7 (by decide) (by decide)
  have largest := @MessagePack.SpellsHead.unsigned .eight 18446744073709551615 (by decide)
  have spelledEntries : MessagePack.Spells (.objectMembers (Scalar.members entries)) _ :=
    .member (key (by decide)) (.integer seven rfl) <|
    .member (key (by decide)) (.bool .trueByte) <|
    .member (key (by decide)) (.integer largest rfl) <|
    .member (key (by decide)) (.nil .nil) .noMember
  have spelled : MessagePack.Spells (.whole (.object members)) packed :=
    .object (.fixMap (by decide)) <|
    .member (key (by decide)) (.text (key (by decide))) <|
    .member (key (by decide)) (.object (.fixMap (by decide)) spelledEntries) .noMember
  exact (decode_scalar_headers entries members text packed (Json.spellsPayload_chars rfl) spelled
    (by decide)).1 task (by decide) rfl

end Codec

end FramedTasks
