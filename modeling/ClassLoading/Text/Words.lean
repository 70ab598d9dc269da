/-!
# Lines and words

A text falls into lines, which end at a line feed or at a carriage return and a line feed, and a
line falls into words, which blanks set apart. The blanks are the characters with the Unicode
property White_Space.
-/

namespace ClassLoading.Text

def isBlank (c : Char) : Bool :=
  let n := c.toNat
  (9 ≤ n && n ≤ 13) || n == 0x20 || n == 0x85 || n == 0xA0 || n == 0x1680 ||
    (0x2000 ≤ n && n ≤ 0x200A) || n == 0x2028 || n == 0x2029 || n == 0x202F || n == 0x205F ||
    n == 0x3000

/-- The lines of a text, the first of which begins with what was read before, backwards. -/
def linesFrom (begun : List Char) : List Char → List (List Char)
  | [] => [begun.reverse]
  | '\r' :: '\n' :: rest => begun.reverse :: linesFrom [] rest
  | '\n' :: rest => begun.reverse :: linesFrom [] rest
  | c :: rest => linesFrom (c :: begun) rest

def lines (text : List Char) : List (List Char) :=
  linesFrom [] text

/-- The words of a line, the first of which begins with what was read before, backwards. -/
def wordsFrom (begun : List Char) : List Char → List (List Char)
  | [] => if begun.isEmpty then [] else [begun.reverse]
  | c :: rest =>
    if isBlank c then
      if begun.isEmpty then wordsFrom [] rest else begun.reverse :: wordsFrom [] rest
    else wordsFrom (c :: begun) rest

def words (line : List Char) : List (List Char) :=
  wordsFrom [] line

end ClassLoading.Text
