import Covenant.Text.Split

namespace Covenant.Text

/-- The steps of a path, without those that stay where they are. -/
def pathSteps (path : String) : List String :=
  (split '/' path).filter fun s => s != "" && s != "."

/-- Slashes and single dots at the end do not count; two dots name no file. -/
def fileName? (path : String) : Option String :=
  (pathSteps path).getLast?.filter (· != "..")

/-- What follows the last dot, if something stands before that. -/
def extension? (path : String) : Option String := do
  let cs := (← fileName? path).toList
  let after := cs.reverse.takeWhile (· != '.')
  if after.length + 1 < cs.length then some (String.ofList after.reverse) else none

end Covenant.Text
