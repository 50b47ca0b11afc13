namespace SignalGraph.Text

def listing (items : List String) : String := "[" ++ ", ".intercalate items ++ "]"

/-- A name with one part between round brackets. -/
def wrapped (name part : String) : String := name ++ "(" ++ part ++ ")"

/-- A name with fields; two points stand for fields that are not shown. -/
def record (name : String) (fields : List (String × String)) (partly : Bool) : String :=
  let parts := fields.map (fun (key, value) => key ++ ": " ++ value) ++ if partly then [".."] else []
  name ++ " \x7b " ++ ", ".intercalate parts ++ " \x7d"

end SignalGraph.Text
