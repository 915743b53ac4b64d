import RecordCodec.Text.Trim

/-!
This module contains path texts: how they divide into components, how they are joined and cleaned,
and what their parts are.
-/

namespace RecordCodec.Files

open RecordCodec.Text

/--
The components of a path text, which slashes divide. An empty component stands before a slash at the
start, after one at the end and between two that follow each other.
-/
def components (path : String) : List String :=
  (splitAtAll (· == '/') path.toList).map String.ofList

def isRooted (path : String) : Bool :=
  path.toList.head? == some '/'

/--
Drop the components that stay at a place, and resolve those that go up. What goes up beyond the
start is dropped if the path starts at the root. `stack` holds the components so far, the last one
first.
-/
def resolveDots (isRooted : Bool) (stack : List String) : List String → List String
  | [] => stack.reverse
  | part :: parts =>
    if part == "" || part == "." then resolveDots isRooted stack parts
    else if part == ".." then
      match stack with
      | top :: below =>
        if top == ".." then resolveDots isRooted (".." :: stack) parts
        else resolveDots isRooted below parts
      | [] => resolveDots isRooted (if isRooted then [] else [".."]) parts
    else resolveDots isRooted (part :: stack) parts

def clean (path : String) : String :=
  let parts := "/".intercalate (resolveDots (isRooted path) [] (components path))
  if isRooted path then "/" ++ parts
  else if parts == "" then "." else parts

def joinPath (dir path : String) : String :=
  if dir != "" then clean (dir ++ "/" ++ path)
  else if path != "" then clean path
  else ""

def parentOf (path : String) : String :=
  clean ("/".intercalate ((components path).dropLast ++ [""]))

def baseOf (path : String) : String :=
  if path == "" then "." else ((components path).filter (· != "")).getLast?.getD "/"

def extensionOf (path : String) : String :=
  let last := (((components path).getLast?).getD "").toList
  if last.contains '.' then
    String.ofList ('.' :: (last.reverse.takeWhile (· != '.')).reverse)
  else ""

end RecordCodec.Files
