import SignalGraph.Network.Object

namespace SignalGraph

/-- An object and the number of values it puts out. -/
structure ObjectRecord (α : Type) where
  object : NetworkObject α
  size : Nat

/-- Objects are numbered in the order of their creation and read objects before them; the one edge
that may lead forward is the integrand of a feedback object. -/
structure Network (α : Type) where
  label : Option String
  objects : Array (ObjectRecord α)
  probes : Array Handle

/-- A new object, all handles being of the network it is asked from. -/
inductive Request (α : Type) where
  | source (signal : Signal α)
  | linear (inputs : List Handle) (coefficients : List (Matrix α))
  | nonlinear (input : Handle) (function : VectorFunction α) (size : Nat)
      (params : NonlinearParams α)
  | feedback (input : Handle)
  | filter (input : Handle) (tau : α)
  | slice (input : Handle) (indices : List Nat)

namespace Network

variable {α : Type}

def empty (label : Option String) : Network α := ⟨label, #[], #[]⟩

def size (net : Network α) : Nat := net.objects.size

/-- Whether a handle names an object and its size. -/
def holds (net : Network α) (h : Handle) : Bool :=
  match net.objects[h.id]? with
  | some record => record.size == h.size
  | none => false

def check (net : Network α) (h : Handle) : Except NetworkError Unit :=
  if net.holds h then .ok () else .error (.invalidHandle h.id h.size)

def push (net : Network α) (object : NetworkObject α) (size : Nat) : Handle × Network α :=
  (⟨net.size, size⟩, { net with objects := net.objects.push ⟨object, size⟩ })

/-- The object that a handle names. -/
def object (net : Network α) (h : Handle) : Except NetworkError (NetworkObject α) := do
  net.check h
  match net.objects[h.id]? with
  | some record => return record.object
  | none => throw (.invalidHandle h.id h.size)

/-- How many objects there are of each kind, in the order of first appearance. -/
def kindCounts (net : Network α) : List (String × Nat) :=
  let kinds := net.objects.toList.map (·.object.kind)
  kinds.eraseDups.map fun k => (k, kinds.count k)

/-- Each input with a matrix of its width and of `rows` rows. -/
def checkCoefficients (net : Network α) (rows : Nat) :
    List (Handle × Matrix α) → Except NetworkError Unit
  | [] => .ok ()
  | (h, m) :: rest => do
    net.check h
    if m.nrows ≠ rows || m.ncols ≠ h.size then
      throw (.invalidParameters (.matrixShape m.nrows m.ncols h.size rows))
    net.checkCoefficients rows rest

/-- Rows of the first matrix, zero without one. -/
def outputCount : List (Matrix α) → Nat
  | [] => 0
  | m :: _ => m.nrows

variable [Scalar α]

/-- The object that a request asks for and its size, or why there is none. -/
def grant (net : Network α) : Request α → Except NetworkError (NetworkObject α × Nat)
  | .source signal =>
    if signal.size = 0 then .error (.invalidParameters .emptySource)
    else .ok (.source signal, signal.size)
  | .linear inputs coefficients => do
    if inputs.isEmpty || inputs.length ≠ coefficients.length then
      throw (.invalidParameters (.matrixPerInput inputs.length coefficients.length))
    let rows := outputCount coefficients
    if rows = 0 then throw (.invalidParameters .emptyLinear)
    net.checkCoefficients rows (inputs.zip coefficients)
    return (.linear inputs coefficients, rows)
  | .nonlinear input function size params => do
    net.check input
    if size = 0 then throw (.invalidParameters .emptyNonlinear)
    if params.neuronType = .lifRate && params.neuronCount = 0 then
      throw (.invalidParameters .noNeurons)
    if !Scalar.less Scalar.zero params.radius || !Scalar.isFinite params.radius then
      throw (.invalidParameters (.radius (Scalar.text params.radius)))
    return (.nonlinear input function params, size)
  | .feedback input => do
    net.check input
    return (.feedback input none, input.size)
  | .filter input tau => do
    net.check input
    if !Scalar.atMost Scalar.zero tau || !Scalar.isFinite tau then
      throw (.invalidParameters (.filterTime (Scalar.text tau)))
    return (.filter input tau, input.size)
  | .slice input indices => do
    net.check input
    if indices.isEmpty then throw (.invalidParameters .emptySlice)
    match indices.find? (input.size ≤ ·) with
    | some bad => throw (.invalidParameters (.sliceIndex bad input.size))
    | none => return (.slice input indices, indices.length)

def create (net : Network α) (r : Request α) : Except NetworkError (Handle × Network α) := do
  let (object, size) ← net.grant r
  return net.push object size

omit [Scalar α] in
/-- Closes the loop of a feedback object; it is closed once. -/
def connect (net : Network α) (feedback integrand : Handle) :
    Except NetworkError (Network α) := do
  net.check feedback
  net.check integrand
  if integrand.size ≠ feedback.size then
    throw (.invalidParameters (.integrandSize integrand.size feedback.size))
  match net.objects[feedback.id]? with
  | some ⟨.feedback input none, size⟩ =>
    let record : ObjectRecord α := ⟨.feedback input (some integrand), size⟩
    return { net with objects := net.objects.setIfInBounds feedback.id record }
  | some ⟨.feedback _ (some _), _⟩ => throw (.invalidParameters (.alreadyConnected feedback))
  | some ⟨object, _⟩ => throw (.invalidParameters (.notFeedback feedback object.kind))
  | none => throw (.invalidHandle feedback.id feedback.size)

/-- The number of a new probe on an object. -/
def probe (net : Network α) (h : Handle) : Except NetworkError (Nat × Network α) := do
  net.check h
  return (net.probes.size, { net with probes := net.probes.push h })

end Network

end SignalGraph
