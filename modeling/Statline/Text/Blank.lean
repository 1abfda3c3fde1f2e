namespace Statline.Text

/-- The code points with the Unicode property White_Space, as closed ranges. -/
def whiteSpace : List (Nat × Nat) :=
  [(0x09, 0x0D), (0x20, 0x20), (0x85, 0x85), (0xA0, 0xA0), (0x1680, 0x1680), (0x2000, 0x200A),
    (0x2028, 0x2029), (0x202F, 0x202F), (0x205F, 0x205F), (0x3000, 0x3000)]

def isSpace (c : Char) : Bool :=
  whiteSpace.any fun (first, last) => first ≤ c.toNat && c.toNat ≤ last

/-- A name is blank when it is empty or holds white space only. -/
def isBlank (name : String) : Bool :=
  name.toList.all isSpace

def dropSpaces (text : List Char) : List Char :=
  text.dropWhile isSpace

/-- The text between the white space at its two ends. -/
def trim (text : List Char) : List Char :=
  (dropSpaces (dropSpaces text).reverse).reverse

theorem isBlank_empty : isBlank "" = true := rfl

end Statline.Text
