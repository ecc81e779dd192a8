import ScriptPack.Build.Arguments

/-!
Moving and turning the selected entities.
-/

namespace ScriptPack

open BuildM View

def Position.inDirection (direction : String) (amount : Number.Single) : Except Problem Position :=
  let none := Coord.facingHere
  match Text.lower direction with
  | "left" => .ok ⟨.ofFacing amount, none, none⟩
  | "right" => .ok ⟨.ofFacing amount.neg, none, none⟩
  | "up" => .ok ⟨none, .ofFacing amount, none⟩
  | "down" => .ok ⟨none, .ofFacing amount.neg, none⟩
  | "forward" | "forwards" => .ok ⟨none, none, .ofFacing amount⟩
  | "backward" | "backwards" => .ok ⟨none, none, .ofFacing amount.neg⟩
  | _ => .error (.invalidDirection direction)

def Selector.single (selector : Selector) : Selector :=
  if selector.selectsMultiple then { selector with count := some 1 } else selector

namespace ArgumentM

def runTeleport : ArgumentM Unit := do
  match ← next? selector with
  | some destination =>
      emitSelected (.teleportTo selfTarget destination.render)
  | none =>
      let place ← position
      match ← next? coordinate with
      | some yaw =>
          let pitch ← next? coordinate
          emitSelected (.teleportRotated selfTarget place yaw (pitch.getD .here))
      | none => emitSelected (.teleport selfTarget place)

def runTeleportHere : ArgumentM Unit := do
  let selector ← next selector
  let place ← positionOrHere
  emitSelected (.teleport selector.render place)

def runMove : ArgumentM Unit := do
  let direction ← next identifier
  let amount ← next number
  let place ← ofExcept id (Position.inDirection direction amount)
  emitSelected (.teleport selfTarget place)

def runFace : ArgumentM Unit := do
  match ← next? selector with
  | some other =>
      emitSelected (.teleportFacingEntity selfTarget .here other.single.render)
  | none =>
      let place ← position
      emitSelected (.teleportFacing selfTarget .here place)

def facedTag : String := "_mcc_here"

def runFaceHere : ArgumentM Unit := do
  let selector ← next selector
  let faced := "@e[tag=" ++ facedTag ++ ",c=1]"
  emitAllSelected [
    .tagAdd selfTarget facedTag,
    .execute selector.render .here (.teleportFacingEntity selfTarget .here faced),
    .tagRemove selfTarget facedTag] "facehere"

def runRotate : ArgumentM Unit := do
  let yaw ← next number
  let pitch ← next? number
  let pitch := (pitch.map Coord.ofRelative).getD .here
  emitSelected (.teleportRotated selfTarget .here (.ofRelative yaw) pitch)

end ArgumentM

end ScriptPack
