/-!
# Blanks

The Unicode white space characters, and texts without those at their ends.
-/

namespace Autoflow.Text

/-- The code points with the property White_Space. -/
def blanks : List Nat :=
  [0x9, 0xa, 0xb, 0xc, 0xd, 0x20, 0x85, 0xa0, 0x1680, 0x2000, 0x2001, 0x2002, 0x2003, 0x2004,
    0x2005, 0x2006, 0x2007, 0x2008, 0x2009, 0x200a, 0x2028, 0x2029, 0x202f, 0x205f, 0x3000]

/-- Whether a character is white space. -/
def isBlank (c : Char) : Bool := blanks.contains c.toNat

/-- A text without the blanks at its two ends. -/
def trimBlanks (s : String) : String :=
  String.ofList (((s.toList.dropWhile isBlank).reverse.dropWhile isBlank).reverse)

/-- Whether a text is made of blanks only. -/
def isBlankText (s : String) : Bool := s.toList.all isBlank

/-- Lower case for the letters A to Z, other characters stay. -/
def lowerAscii (s : String) : String := String.ofList (s.toList.map Char.toLower)

end Autoflow.Text
