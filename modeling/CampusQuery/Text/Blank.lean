import CampusQuery.Text.Ranges

/-! White space as Unicode defines it, and texts of nothing else. -/

namespace CampusQuery

/-- The characters with the property White_Space. -/
def blankRanges : CodeRanges :=
  [(0x9, 0xd), (0x20, 0x20), (0x85, 0x85), (0xa0, 0xa0), (0x1680, 0x1680), (0x2000, 0x200a),
    (0x2028, 0x2029), (0x202f, 0x202f), (0x205f, 0x205f), (0x3000, 0x3000)]

def isBlankChar (c : Char) : Bool :=
  blankRanges.contains c

/-- Empty, or white space only. -/
def isBlank (s : String) : Bool :=
  s.toList.all isBlankChar

end CampusQuery
