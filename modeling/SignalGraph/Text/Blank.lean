namespace SignalGraph.Text

/-- The white space of every script, line ends and the next-line control among it. -/
def isBlank (c : Char) : Bool :=
  let n := c.toNat
  (9 ≤ n && n ≤ 13) || n = 0x20 || n = 0x85 || n = 0xa0 || n = 0x1680 ||
    (0x2000 ≤ n && n ≤ 0x200a) || n = 0x2028 || n = 0x2029 || n = 0x202f || n = 0x205f ||
    n = 0x3000

theorem isBlank_of_isWhitespace {c : Char} (h : c.isWhitespace) : isBlank c := by
  simp only [Char.isWhitespace, Bool.or_eq_true, decide_eq_true_eq] at h
  rcases h with ((h | h) | h) | h <;> subst h <;> decide

/-- The text between the blanks at its ends. -/
def trim (s : String) : String :=
  let front := s.toList.dropWhile isBlank
  String.ofList (front.reverse.dropWhile isBlank).reverse

end SignalGraph.Text
