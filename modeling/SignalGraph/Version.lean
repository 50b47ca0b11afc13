namespace SignalGraph

def version : String := "0.1.0"

end SignalGraph
