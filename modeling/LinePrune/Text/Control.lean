namespace LinePrune.Text

/-- Control characters are those below the blank, and the one that deletes. -/
def isControl (c : Char) : Bool :=
  c.toNat < 0x20 || c.toNat = 0x7F

end LinePrune.Text
