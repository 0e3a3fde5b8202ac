/-!
# Lines and words

Files are bytes; what is read of them is text, if the bytes are valid UTF-8 (`decode?`).

A line of a text ends at a line feed, and a carriage return before it belongs to the line end. Text
after the last line feed is a line if there is any; a carriage return at its end belongs to it.

Words are separated by blanks: the `White_Space` characters of Unicode in headers, only the five
ASCII ones in the bodies of mesh files. A text is cut into its words by `words`.
-/

namespace Candela.Text

/-- Some bytes as text. -/
def decode? (bytes : List UInt8) : Option String := String.fromUTF8? ⟨bytes.toArray⟩

/-! ## Lines -/

/-- A finished line without the carriage return before its line feed. -/
def dropReturn (line : List Char) : List Char :=
  if line.getLast? = some '\r' then line.dropLast else line

/-- The lines of a text, its current line given in reverse. -/
def splitLines (current : List Char) : List Char → List (List Char)
  | [] => if current = [] then [] else [current.reverse]
  | '\n' :: rest => dropReturn current.reverse :: splitLines [] rest
  | c :: rest => splitLines (c :: current) rest

/-- The lines of a text. -/
def lines (s : String) : List String := (splitLines [] s.toList).map String.ofList

/-! ## Words -/

/-- Whether a character has the property `White_Space`. -/
def isBlank (c : Char) : Bool :=
  let n := c.toNat
  (0x09 ≤ n && n ≤ 0x0d) || n == 0x20 || n == 0x85 || n == 0xa0 || n == 0x1680 ||
    (0x2000 ≤ n && n ≤ 0x200a) || n == 0x2028 || n == 0x2029 || n == 0x202f || n == 0x205f ||
    n == 0x3000

/-- Whether a character is a blank, a tab, a line feed, a form feed or a carriage return. -/
def isAsciiBlank (c : Char) : Bool :=
  c == ' ' || c == '\t' || c == '\n' || c == '\x0c' || c == '\r'

/-- Takes the blanks off both ends. -/
def trim (cs : List Char) : List Char :=
  ((cs.dropWhile isBlank).reverse.dropWhile isBlank).reverse

/-- A finished word, given in reverse, before some others; there are no empty words. -/
def putWord (word : List Char) (rest : List (List Char)) : List (List Char) :=
  match word with
  | [] => rest
  | cs => cs.reverse :: rest

/-- The words of a text in reverse, its current word and the words before that given in reverse. -/
def wordsAcc (blank : Char → Bool) (word : List Char) (before : List (List Char)) :
    List Char → List (List Char)
  | [] => putWord word before
  | c :: rest =>
    if blank c then wordsAcc blank [] (putWord word before) rest
    else wordsAcc blank (c :: word) before rest

/-- The longest pieces of a text without separators, in their order. -/
def words (blank : Char → Bool) (cs : List Char) : List (List Char) :=
  (wordsAcc blank [] [] cs).reverse

end Candela.Text
