import SignalGraph.Text.Case

namespace SignalGraph

inductive LogFormat where
  | text
  | json
deriving Repr, DecidableEq

structure LogFormatError where
  name : String
deriving Repr, DecidableEq

def LogFormatError.message (e : LogFormatError) : String := "unknown log format: " ++ e.name

def LogFormat.ofText? (s : String) : Except LogFormatError LogFormat :=
  let name := Text.lowercase s
  if name = "text" then .ok .text
  else if name = "json" then .ok .json
  else .error ⟨name⟩

end SignalGraph
