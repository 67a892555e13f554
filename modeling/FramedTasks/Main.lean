import FramedTasks.CommandLine.Program

/-! # The executable

The command line, the environment and the input are read here, and the outcome is printed. A local
socket is not to be had in this place, so that a command ends where it would open one.
-/

namespace FramedTasks.Main

open CommandLine

/-- The variables of the environment that stand in for parameters. -/
def variableNames : List String :=
  [Options.outerGrammar, Options.workGrammar, Options.dispatchGrammar].flatMap fun grammar =>
    grammar.parameters.filterMap (·.variableName)

def readEnvironment : IO (List (String × String)) :=
  variableNames.filterMapM fun name => return (← IO.getEnv name).map (name, ·)

/-- The first line of the input, if a command has to read it. -/
def readInput (options : WorkOptions) : IO Descriptor := do
  let bytes ← if options.pipe.isSome then pure [] else do
    let line ← (← IO.getStdin).getLine
    pure line.toUTF8.toList
  return Descriptor.feed { arrivals := [], ending := .closed } bytes

def noSockets : Fault := ⟨.unsupported, none⟩

def outcome (setting : Setting) (arguments : List String) : IO Outcome := do
  match Program.taskOf setting arguments with
  | .ended outcome => return outcome
  | .work options _ =>
    match Work.prepare options (← readInput options) with
    | .error failure => return .failure failure
    | .ok ready =>
      return .failure (.ofSocketError "connect failed" (.connect ready.socket noSockets))
  | .dispatch options _ =>
    match Dispatch.prepare options setting.defaultId with
    | .error failure => return .failure failure
    | .ok ready => return .failure (.ofSocketError "bind failed" (.bind ready.socket noSockets))

end FramedTasks.Main

open FramedTasks in
def main (arguments : List String) : IO UInt32 := do
  let outcome ← Main.outcome { environment := ← Main.readEnvironment } arguments
  IO.print outcome.printed
  if let some text := outcome.error then IO.eprintln s!"error: {text}"
  return outcome.number.toUInt32
