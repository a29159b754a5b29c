import Covenant.Json.Value

namespace Covenant.Json.Value

mutual

/-- Objects are joined member by member; anything else takes the place of what it lies on. -/
def overlay : Value → Value → Value
  | .object base, .object layer => .object (overlayMembers base layer)
  | _, layer => layer

def overlayMembers (base : Members) : List (String × Value) → Members
  | [] => base
  | (key, v) :: rest =>
    let joined := match base.get? key with
      | some below => overlay below v
      | none => v
    overlayMembers (Members.insert key joined base) rest

end

def at? : Value → List String → Option Value
  | v, [] => some v
  | .object members, name :: path => (Members.get? members name).bind (at? · path)
  | _, _ :: _ => none

end Covenant.Json.Value
