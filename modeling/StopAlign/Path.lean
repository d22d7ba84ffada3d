/-!
# Path — names of files below directories

- `pathSteps`  : the steps of a path that lead somewhere
- `normalPath` : a path without empty steps and without steps to the same directory
- `joinPath`   : a name below a directory; a name from the root stands for itself, and the empty
  directory is the one where a path starts
- `parentPath` : a path without its last step
-/

namespace StopAlign

/-- Characters cut at slashes, where `step` is the step before them in reverse order. -/
def cutSteps (step : List Char) : List Char → List String
  | [] => [String.ofList step.reverse]
  | c :: cs =>
    if c = '/' then String.ofList step.reverse :: cutSteps [] cs else cutSteps (c :: step) cs

def pathSteps (path : String) : List String :=
  (cutSteps [] path.toList).filter fun step => step ≠ "" ∧ step ≠ "."

def fromRoot (path : String) : Bool :=
  path.toList.head? == some '/'

/-- The root that a path begins at: two slashes are one of their own. -/
def rootMark (path : String) : String :=
  match path.toList with
  | '/' :: '/' :: '/' :: _ => "/"
  | '/' :: '/' :: _ => "//"
  | '/' :: _ => "/"
  | _ => ""

def pathOf (root : String) (steps : List String) : String :=
  let path := root ++ "/".intercalate steps
  if path = "" then "." else path

def normalPath (path : String) : String := pathOf (rootMark path) (pathSteps path)

def parentPath (path : String) : String := pathOf (rootMark path) (pathSteps path).dropLast

def joinPath (directory name : String) : String :=
  if fromRoot name ∨ directory = "" then normalPath name
  else normalPath (directory ++ "/" ++ name)

end StopAlign
