import SignalGraph.Signal

namespace SignalGraph.VectorFunction

variable {α : Type}

/-- A function of each value by itself. -/
def elementwise (f : α → α) : VectorFunction α := List.map f

def duplicate : VectorFunction α := fun xs => xs ++ xs

def first : VectorFunction α := List.take 1

variable [Scalar α]

/-- A polynomial by its coefficients, the constant one first. -/
def polynomial (coefficients : List α) : VectorFunction α :=
  elementwise fun x => coefficients.foldr (fun k acc => acc * x + k) Scalar.zero

def product : VectorFunction α := fun xs => [xs.foldl (· * ·) Scalar.one]

def sum : VectorFunction α := fun xs => [xs.foldl (· + ·) Scalar.zero]

/-- The values themselves, nothing where the first one is above a bound. -/
def gate (bound : α) : VectorFunction α := fun xs =>
  match xs with
  | [] => []
  | x :: _ => if Scalar.less bound x then [] else xs

/-- The functions that need no numbers of their own, by name. -/
def named? : String → Option (VectorFunction α)
  | "identity" => some (elementwise id)
  | "square" => some (elementwise Scalar.square)
  | "sin" => some (elementwise Scalar.sin)
  | "exp" => some (elementwise Scalar.exp)
  | "sqrt" => some (elementwise Scalar.sqrt)
  | "recip" => some (elementwise Scalar.recip)
  | "product" => some product
  | "sum" => some sum
  | "reverse" => some List.reverse
  | "first" => some first
  | "dup" => some duplicate
  | "empty" => some fun _ => []
  | _ => none

end SignalGraph.VectorFunction
