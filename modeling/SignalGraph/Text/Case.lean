import SignalGraph.Text.Table.Lowercase
import SignalGraph.Text.Table.Cased
import SignalGraph.Text.Table.CaseIgnorable

namespace SignalGraph.Text

/-- Whether a code point lies in one of the closed ranges. -/
def inRanges (ranges : Array (Nat × Nat)) (c : Char) : Bool :=
  ranges.any fun r => r.1 ≤ c.toNat && c.toNat ≤ r.2

def isCased (c : Char) : Bool := inRanges Table.cased c

def isCaseIgnorable (c : Char) : Bool := inRanges Table.caseIgnorable c

def Table.CaseRun.holds (r : Table.CaseRun) (n : Nat) : Bool :=
  r.first ≤ n && n ≤ r.last && (n - r.first) % r.step == 0

/-- The small letter of a character; the dotted capital I has a letter and a mark. -/
def lowerChar (c : Char) : List Char :=
  if c = '\u0130' then ['i', '\u0307']
  else
    match Table.lowercase.find? (·.holds c.toNat) with
    | some r => [Char.ofNat ((c.toNat : Int) + r.shift).toNat]
    | none => [c]

/-- Whether the nearest character that counts has a case. -/
def meetsCased (cs : List Char) : Bool :=
  match cs.dropWhile isCaseIgnorable with
  | c :: _ => isCased c
  | [] => false

/-- Small letters of a text, `before` being what precedes it in reverse. -/
def lowerFrom (before : List Char) : List Char → List Char
  | [] => []
  | c :: rest =>
    let small :=
      if c = '\u03a3' then
        if meetsCased before && !meetsCased rest then ['\u03c2'] else ['\u03c3']
      else lowerChar c
    small ++ lowerFrom (c :: before) rest

def lowercase (s : String) : String := String.ofList (lowerFrom [] s.toList)

end SignalGraph.Text
