import PushQueue.Location
import PushQueue.Text.Fields

/-! A tree of text files, in which paths are looked up part by part. -/

namespace PushQueue

structure FileTree where
  /-- The parts of each file's path from the root, and its text. -/
  files : List (List String × String)
  /-- The directory that relative paths start from. -/
  current : List String

namespace FileTree

def parts (path : String) : List String := (Text.fields '/' path.toList).map String.ofList

/-- A directory is the root, the current one, one above it, or one above a file. -/
def isDirectory (tree : FileTree) (place : List String) : Bool :=
  place.isPrefixOf tree.current ||
    tree.files.any fun f => place.isPrefixOf f.1 && place.length < f.1.length

/-- The place that the parts of a path lead to; every part but the last has to be a directory. -/
def walk (tree : FileTree) : List String → List String → Option (List String)
  | place, [] => some place
  | place, part :: rest =>
    if !tree.isDirectory place then none
    else if part = "" ∨ part = "." then tree.walk place rest
    else if part = ".." then tree.walk place.dropLast rest
    else tree.walk (place ++ [part]) rest

def state (tree : FileTree) (path : String) : FileState :=
  let start := if path.startsWith "/" then [] else tree.current
  if path.isEmpty then .missing
  else
    match tree.walk start (parts path) with
    | none => .missing
    | some place =>
      match tree.files.lookup place with
      | some content => .text content
      | none => if tree.isDirectory place then .unreadable else .missing

end FileTree

end PushQueue
