import Candela.Keyed

/-!
# Paths

Paths are kept as they are written: joining two of them adds at most the slash between them. What is
looked up by a path is found under any way to write it (`samePath`, `findPath?`).
-/

namespace Candela.Text

/-- Whether a path starts at the root. -/
def isAbsolute (path : String) : Bool := path.startsWith "/"

/-- A path put after a base, unless it is absolute. -/
def joinPath (base path : String) : String :=
  if isAbsolute path then path
  else if base.isEmpty || base.endsWith "/" then base ++ path
  else base ++ "/" ++ path

/-- The steps of a path. A slash more than needed and a step that stays where it is mean nothing,
except that a relative path may start with one that does. -/
def pathSteps (path : String) : List String :=
  let moves (steps : List String) := steps.filter fun s => s ≠ "" && s ≠ "."
  match path.splitOn "/" with
  | "" :: steps => (if isAbsolute path then ["/"] else []) ++ moves steps
  | "." :: steps => "." :: moves steps
  | steps => moves steps

/-- Whether two paths are the same step by step. -/
def samePath (a b : String) : Bool := pathSteps a == pathSteps b

/-- What a map has for a path. Of several ways to write the path the last one counts. -/
def findPath? {α : Type} (files : Keyed α) (path : String) : Option α :=
  (files.entries.filter fun e => samePath e.1 path).getLast?.map (·.2)

/-- The directory of a file: what stands before the last slash, the root keeping its own. -/
def directory (path : String) : String :=
  match (path.toList.reverse.dropWhile (· != '/')) with
  | [] => ""
  | ['/'] => "/"
  | _ :: rest => String.ofList rest.reverse

end Candela.Text
