import SignalGraph.Simulation.Circuit

namespace SignalGraph.Circuit

variable {α : Type} (c : Circuit α)

/-- One part after the other. -/
def oneByOne : List (List Nat) := (List.range c.parts.size).map fun i => [i]

/-- The level of a part, given those of the parts before it: one above the highest of its inputs. -/
def depthOf (depths : Array Nat) (p : Part α) : Nat :=
  (p.stepInputs.map fun i => depths.getD i 0 + 1).max?.getD 0

/-- The levels of all parts. -/
def depths : Array Nat := c.parts.foldl (fun ds p => ds.push (depthOf ds p)) #[]

/-- The levels with a part at the end of one of them, which is added, with those below it, unless it is
there. -/
def raise (levels : List (List Nat)) (depth i : Nat) : List (List Nat) :=
  (levels ++ List.replicate (depth + 1 - levels.length) []).modify depth (· ++ [i])

/-- The parts level by level. -/
def levels : List (List Nat) :=
  c.depths.toList.zipIdx.foldl (fun levels (depth, i) => raise levels depth i) []

end SignalGraph.Circuit
