import SignalGraph.Text.Case
import SignalGraph.Text.Table.Unprintable
import SignalGraph.Text.Table.Extending

namespace SignalGraph.Text

def isPrintable (c : Char) : Bool := !inRanges Table.unprintable c

def isExtending (c : Char) : Bool := inRanges Table.extending c

/-- The code point in base sixteen between braces. -/
def codePointEscape (c : Char) : String :=
  "\\u\x7b" ++ String.ofList (Nat.toDigits 16 c.toNat) ++ "\x7d"

def escapeChar (c : Char) : String :=
  if c = '\x00' then "\\0"
  else if c = '\t' then "\\t"
  else if c = '\r' then "\\r"
  else if c = '\n' then "\\n"
  else if c = '\\' then "\\\\"
  else if c = '"' then "\\\""
  else if isExtending c || !isPrintable c then codePointEscape c
  else String.singleton c

def quoted (s : String) : String :=
  "\"" ++ String.join (s.toList.map escapeChar) ++ "\""

end SignalGraph.Text
