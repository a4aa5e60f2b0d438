/-!
Contract: paths as texts.

Owns:
- the components of a path, `parent?` and `join`;
- the segments that a path is walked by.

A path keeps its spelling: the parent of a path is a leading part of its text.
-/

namespace Wireframe.Command.Path

/-- The parts of some characters between slashes, each with the offset of its
end. `start` is the offset of the first part and `done` its reversed start. -/
def parts (start : Nat) (done : List Char) : List Char → List (List Char × Nat)
  | [] => [(done.reverse, start + done.length)]
  | char :: rest =>
      if char = '/' then
        (done.reverse, start + done.length) :: parts (start + done.length + 1) [] rest
      else parts start (char :: done) rest

/-- Whether a part counts: empty ones do not, and a single dot only as the start
of the path. -/
def isComponent (part : List Char × Nat) : Bool :=
  !part.1.isEmpty && (part.1 != ['.'] || part.2 == 1)

def components (path : String) : List (List Char × Nat) :=
  (parts 0 [] path.toList).filter isComponent

def isAbsolute (path : String) : Bool :=
  path.toList.head? == some '/'

/-- The path without its last component. -/
def parent? (path : String) : Option String :=
  match (components path).reverse with
  | [] => none
  | [_] => some (if isAbsolute path then "/" else "")
  | _ :: (_, stop) :: _ => some (String.ofList (path.toList.take stop))

def join (base relative : String) : String :=
  match base.toList.getLast? with
  | none => relative
  | some '/' => base ++ relative
  | some _ => base ++ "/" ++ relative

/-- The non-empty parts of a path, in order. -/
def segments (path : String) : List String :=
  ((parts 0 [] path.toList).filter fun part => !part.1.isEmpty).map fun part =>
    String.ofList part.1

def hasTrailingSlash (path : String) : Bool :=
  path.toList.getLast? == some '/'

end Wireframe.Command.Path
