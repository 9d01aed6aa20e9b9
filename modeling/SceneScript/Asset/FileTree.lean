/-!
# Trees of files

Files lie in folders, and are found by paths. A path is followed step by step: each step starts from
a folder, `.` and nothing stay there, and `..` leads to the folder around it.
-/

namespace SceneScript

inductive FileTree where
  | file (bytes : List UInt8)
  | folder (entries : List (String × FileTree))
  deriving Inhabited

namespace FileTree

def empty : FileTree := folder []

def entries : FileTree → List (String × FileTree)
  | file _ => []
  | folder entries => entries

/-- Puts a file into the folders along a path, which are made where they are missing. -/
def add (bytes : List UInt8) : List String → FileTree → FileTree
  | [], _ => file bytes
  | name :: rest, tree =>
    let inner := (tree.entries.lookup name).getD empty
    folder ((name, add bytes rest inner) :: tree.entries)

/-- The step stays in its folder. -/
def isIdle (step : String) : Bool := step = "" || step = "."

/-- Follows the steps of a path. The folders around the place are given from the inside out. -/
def follow : List FileTree → FileTree → List String → Option FileTree
  | _, tree, [] => some tree
  | _, file _, _ :: _ => none
  | around, folder entries, step :: rest =>
    if isIdle step then follow around (folder entries) rest
    else if step = ".." then
      match around with
      | [] => none
      | outer :: around => follow around outer rest
    else
      match entries.lookup step with
      | some inner => follow (folder entries :: around) inner rest
      | none => none

/-- The file at the end of some steps. -/
def fileAt? (tree : FileTree) (steps : List String) : Option (List UInt8) :=
  match follow [] tree steps with
  | some (file bytes) => some bytes
  | _ => none

/-- The tree with one folder and the files in it, given with their paths from there. -/
def ofFiles (folder : String) (files : List (String × List UInt8)) : FileTree :=
  files.foldl (fun tree (path, bytes) =>
    tree.add bytes (folder :: (path.splitOn "/").filter (!isIdle ·))) empty

/-- The file that a path from a folder of the tree leads to. A path from the root leads out of the
tree. -/
def read? (tree : FileTree) (folder path : String) : Option (List UInt8) :=
  if path.startsWith "/" then none else tree.fileAt? (folder :: path.splitOn "/")

end FileTree
end SceneScript
