/-!
# Names

Names of materials and nodes are arbitrary text; the generated code names its functions and
variables after them. `snake` writes a name in lower-case words of ASCII letters and digits that are
joined by single underscores, which is legal after any letter.

A fresh name is the first of a sequence of candidates outside a finite list (`fresh`). Since the
candidates differ, one of the first `taken.length + 1` is free, so the search is bounded by the
list.
-/

namespace Candela.Text

/-! ## Snake identifiers -/

/-- Whether a character is an ASCII letter or digit. -/
def isWordChar (c : Char) : Bool := c.isAlphanum

/-- The words of a name. A word begins where an upper-case letter follows a lower-case one or a
digit (`afterLower`), and anything that is no letter or digit is one underscore unless one has just
been written (`afterBar`). -/
def snakeChars (afterLower afterBar : Bool) : List Char → List Char
  | [] => []
  | c :: rest =>
    if c.isUpper then
      if afterLower then '_' :: c.toLower :: snakeChars false false rest
      else c.toLower :: snakeChars false false rest
    else if isWordChar c then c :: snakeChars true false rest
    else if afterBar then snakeChars false true rest
    else '_' :: snakeChars false true rest

/-- Takes the underscores off both ends. -/
def trimBars (cs : List Char) : List Char :=
  ((cs.dropWhile (· == '_')).reverse.dropWhile (· == '_')).reverse

/-- The snake identifier of a name; a name without letters and digits is `node`. -/
def snake (name : String) : String :=
  match trimBars (snakeChars false false name.toList) with
  | [] => "node"
  | cs => String.ofList cs

/-- Replaces every character that cannot stand in an identifier by an underscore. -/
def sanitize (s : String) : String :=
  String.ofList (s.toList.map fun c => if isWordChar c || c == '_' then c else '_')

/-! ## Fresh names -/

/-- The first candidate from `start` on that is not taken, among `fuel` many; else the next one. -/
def firstFree (taken : List String) (candidate : Nat → String) : Nat → Nat → String
  | 0, start => candidate start
  | fuel + 1, start =>
    if candidate start ∈ taken then firstFree taken candidate fuel (start + 1)
    else candidate start

/-- The base name if it is free, else the base with the first free number from two on. -/
def fresh (taken : List String) (base separator : String) : String :=
  if base ∈ taken then firstFree taken (fun n => base ++ separator ++ toString n) taken.length 2
  else base

end Candela.Text
