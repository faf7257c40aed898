import Codeflux.Go.Text

/-!
# Slash-separated paths of the host language
-/

namespace Codeflux.Go

section

variable (path : String)

/-- The parts of a path between its slashes: `strings.Split(path, "/")`. -/
def components : List String :=
  (path.toList.splitOn '/').map String.ofList

/-- Is the path rooted? This is `path.IsAbs`. -/
def isAbs : Bool := path.toList.head? == some '/'

/-- One more part, after the resolved parts `stack`, the last one first. -/
def cleanPart (rooted : Bool) (stack : List String) (part : String) : List String :=
  if part = "" ∨ part = "." then stack
  else if part = ".." then
    match stack with
    | [] => if rooted then [] else [".."]
    | top :: rest => if top = ".." then ".." :: top :: rest else rest
  else part :: stack

/-- The parts of a path after lexical resolution. -/
def cleanComponents : List String :=
  ((components path).foldl (cleanPart (isAbs path)) []).reverse

/-- The shortest equivalent path by lexical processing: `path.Clean`. -/
def clean : String :=
  if isAbs path then "/" ++ String.intercalate "/" (cleanComponents path)
  else if cleanComponents path = [] then "."
  else String.intercalate "/" (cleanComponents path)

/-- The last element of a path: `filepath.Base`. -/
def lastElement : String :=
  if path = "" then "."
  else ((components path).filter (· ≠ "")).getLast?.getD "/"

/-- What is left of two lists of parts after the parts they share at the front. -/
def dropShared : List String → List String → List String × List String
  | b :: base, t :: target => if b = t then dropShared base target else (b :: base, t :: target)
  | base, target => (base, target)

/-- The parts of a cleaned path as it is written: a path with no part left is `.`. -/
def writtenComponents : List String :=
  if cleanComponents path = [] ∧ isAbs path = false then ["."] else cleanComponents path

end

/-- The path that leads from `base` to `target`, if there is one without knowing the working
directory: `filepath.Rel`. -/
def rel (base target : String) : Option String :=
  if clean target = clean base then some "."
  else if isAbs base ≠ isAbs target then none
  else
    match dropShared (cleanComponents base) (writtenComponents target) with
    | (up, down) =>
      if up.head? = some ".." then none
      else some (String.intercalate "/" (up.map (fun _ => "..") ++ down))

example : clean "cmd/../secret.go" = "secret.go" := by decide

example : rel "/work/task" "/work/task/cmd" = some "cmd" := by decide

example : rel "/work/task" "/work/other" = some "../other" := by decide

example : clean "../a//./b/" = "../a/b" := by decide

end Codeflux.Go
