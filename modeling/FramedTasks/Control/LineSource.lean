import FramedTasks.Control.Poll
import FramedTasks.Text.Lines

/-! # Control tokens from a text in memory

Each line is a token. A line that is not well-formed is a fault, and the poll after it goes on with
the next line.
-/

namespace FramedTasks

/-- The bytes that have not been handed out. -/
structure LineSource where
  rest : Bytes
deriving DecidableEq, Repr

namespace LineSource

def notUtf8 : Fault := ⟨.invalidData, some "stream did not contain valid UTF-8"⟩

def pollOf (line : Bytes) : Poll :=
  match Lines.text? line with
  | some text => .token text
  | none => .fault notUtf8

def poll (source : LineSource) : Poll × LineSource :=
  match Lines.first? source.rest with
  | none => (.closed, source)
  | some (line, rest) => (pollOf line, ⟨rest⟩)

/-- The results of all polls until the source is closed. -/
def polls (source : LineSource) : List Poll :=
  match _ : Lines.first? source.rest with
  | none => []
  | some (line, rest) => pollOf line :: polls ⟨rest⟩
termination_by source.rest.length
decreasing_by exact Lines.length_of_first? ‹_›

end LineSource

end FramedTasks
