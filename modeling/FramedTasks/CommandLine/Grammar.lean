/-! # The grammar of a command line

A command takes parameters, named by a word or by a letter, texts in fixed places, and perhaps a
further command. Arguments are scanned one by one. A value that stands in an argument of its own is
checked only when the next parameter begins or the arguments end, so that an unknown parameter after
it is reported first. Variables of the environment stand in for parameters that are not given.
-/

namespace FramedTasks.CommandLine

/-- What ends the reading of a command line without options. -/
inductive UsageFault where
  /-- Help was asked for. -/
  | help
  /-- The version was asked for. -/
  | version
  /-- Nothing was given at all. -/
  | nothing
  | commandMissing
  | commandUnknown
  | argumentMissing
  | argumentUnknown
  /-- A value is missing or not one of the choices. -/
  | valueInvalid
  /-- A parameter without a value was given one. -/
  | valueUnneeded
  | givenTwice
deriving DecidableEq, Repr

/-- What a parameter takes. -/
inductive Arity where
  /-- No value, and help as the answer. -/
  | help
  /-- No value, and the version as the answer. -/
  | version
  /-- No value. -/
  | switch
  /-- One value. -/
  | single
  /-- A value each time it is given. -/
  | repeated
deriving DecidableEq, Repr

structure Parameter where
  name : String
  letter : Option Char := none
  arity : Arity := .single
  /-- The values that it may have, if not all. -/
  choices : Option (List String) := none
  /-- The variable of the environment that stands in for it. -/
  variableName : Option String := none
deriving DecidableEq, Repr

def Parameter.allows (parameter : Parameter) (value : String) : Bool :=
  match parameter.choices with
  | some choices => choices.contains value
  | none => true

structure Grammar where
  parameters : List Parameter
  places : List Parameter := []
  commands : List String := []
deriving DecidableEq, Repr

/-- The form of an argument. -/
inductive Word where
  /-- After it, all arguments are texts in places. -/
  | divider
  | named (name : String) (value : Option String)
  | letters (letters : List Char)
  | plain
deriving DecidableEq, Repr

/-- The form of an argument, by the hyphens at its front. -/
def Word.ofChars : List Char → Word
  | ['-', '-'] => .divider
  | '-' :: '-' :: rest =>
    let name := String.ofList (rest.takeWhile (· != '='))
    match rest.dropWhile (· != '=') with
    | [] => .named name none
    | _ :: value => .named name (some (String.ofList value))
  | '-' :: letter :: rest => .letters (letter :: rest)
  | _ => .plain

/-- How far the scanning of arguments has come. -/
structure Scan where
  /-- The values given so far, in their order. -/
  given : List (String × String) := []
  /-- The parameter begun last, and its value if that was there already. -/
  pending : Option (Parameter × Option String) := none
  places : List Parameter := []
  divided : Bool := false
deriving DecidableEq, Repr

namespace Scan

def take (scan : Scan) (parameter : Parameter) (value : String) : Except UsageFault Scan :=
  if parameter.arity ≠ .repeated ∧ scan.given.any (·.1 == parameter.name) then .error .givenTwice
  else if parameter.allows value then
    .ok { scan with given := scan.given ++ [(parameter.name, value)] }
  else .error .valueInvalid

def settle (scan : Scan) : Except UsageFault Scan :=
  match scan.pending with
  | none => .ok scan
  | some (_, none) => .error .valueInvalid
  | some (parameter, some value) => take { scan with pending := none } parameter value

def isAwaiting (scan : Scan) : Bool :=
  match scan.pending with
  | some (_, none) => true
  | _ => false

/-- Begin a parameter, whose value is there or follows in the next argument. -/
def begin (scan : Scan) (parameter : Parameter) (value : Option String) :
    Except UsageFault Scan := do
  let scan ← scan.settle
  match parameter.arity, value with
  | .help, _ => .error .help
  | .version, _ => .error .version
  | .switch, _ => scan.take parameter "true"
  | _, some value => scan.take parameter value
  | _, none => .ok { scan with pending := some (parameter, none) }

def takeNamed (grammar : Grammar) (scan : Scan) (name : String) (value : Option String) :
    Except UsageFault Scan :=
  match grammar.parameters.find? (·.name == name) with
  | none => .error .argumentUnknown
  | some parameter =>
    match parameter.arity with
    | .help | .version | .switch =>
      if value.isSome then .error .valueUnneeded else scan.begin parameter none
    | .single | .repeated => scan.begin parameter value

/-- Take parameters given by their letters; the rest after one that has a value is its value. -/
def takeLetters (grammar : Grammar) (scan : Scan) : List Char → Except UsageFault Scan
  | [] => .ok scan
  | letter :: rest =>
    match grammar.parameters.find? (·.letter == some letter) with
    | none => .error .argumentUnknown
    | some parameter =>
      match parameter.arity, rest with
      | .single, [] | .repeated, [] => scan.begin parameter none
      | .single, '=' :: value | .repeated, '=' :: value
      | .single, value | .repeated, value =>
        scan.begin parameter (some (String.ofList value))
      | _, rest =>
        match scan.begin parameter none with
        | .error fault => .error fault
        | .ok scan => takeLetters grammar scan rest

def takePlace (grammar : Grammar) (scan : Scan) (argument : String) : Except UsageFault Scan :=
  match scan.places with
  | place :: places => do
    let scan ← scan.settle
    .ok { scan with pending := some (place, some argument), places }
  | [] =>
    if grammar.commands = [] ∨ (scan.divided ∧ argument ∈ grammar.commands) then
      .error .argumentUnknown
    else .error .commandUnknown

def takeArgument (grammar : Grammar) (scan : Scan) (argument : String) : Except UsageFault Scan :=
  if scan.divided then scan.takePlace grammar argument
  else
    match Word.ofChars argument.toList, scan.pending with
    | .divider, _ => .ok { scan with divided := true }
    | .named name value, _ => scan.takeNamed grammar name value
    | .letters letters, _ => scan.takeLetters grammar letters
    | .plain, some (parameter, none) => .ok { scan with pending := some (parameter, some argument) }
    | .plain, _ => scan.takePlace grammar argument

/-- Take arguments up to a command: the scan, and the command with the arguments behind it. -/
def takeAll (grammar : Grammar) (scan : Scan) :
    List String → Except UsageFault (Scan × Option (String × List String))
  | [] => .ok (scan, none)
  | argument :: rest =>
    if !scan.divided && !scan.isAwaiting && grammar.commands.contains argument then
      .ok (scan, some (argument, rest))
    else
      match scan.takeArgument grammar argument with
      | .error fault => .error fault
      | .ok scan => takeAll grammar scan rest

end Scan

/-- The values that a command has, from its arguments and from the environment. -/
structure Given where
  arguments : List (String × String)
  substitutes : List (String × String)
deriving DecidableEq, Repr

namespace Given

/-- The value of a parameter that stands in for an argument, if it is allowed. -/
def substitute? (environment : List (String × String)) (given : List (String × String))
    (parameter : Parameter) : Except UsageFault (Option (String × String)) :=
  if given.any (·.1 == parameter.name) then .ok none
  else
    match parameter.variableName.bind (environment.lookup ·) with
    | none => .ok none
    | some value =>
      if parameter.allows value then .ok (some (parameter.name, value)) else .error .valueInvalid

/-- The values of a command at the end of its arguments. -/
def ofScan (grammar : Grammar) (environment : List (String × String)) (scan : Scan) :
    Except UsageFault Given := do
  let scan ← scan.settle
  let substitutes ← grammar.parameters.mapM (substitute? environment scan.given)
  return ⟨scan.given, substitutes.filterMap id⟩

/-- The values given for a parameter, in their order. -/
def values (given : Given) (name : String) : List String :=
  (given.arguments.filter (·.1 == name)).map (·.2)

def value? (given : Given) (name : String) : Option String :=
  (given.arguments.lookup name).or (given.substitutes.lookup name)

def isEmpty (given : Given) : Bool := given.arguments.isEmpty && given.substitutes.isEmpty

/-- The value of a parameter that may stand before a command and behind it; an argument goes before
a variable, and the one behind the command before the other. -/
def sharedValue? (outer inner : Given) (name : String) : Option String :=
  (inner.arguments.lookup name).or (outer.value? name)

end Given

end FramedTasks.CommandLine
