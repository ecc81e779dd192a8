import ScriptPack.Build.Movement
import ScriptPack.Build.NullEntity

/-!
What is done to entities: killing, removing, damaging and tagging them, and making null entities.
-/

namespace ScriptPack

open BuildM NullEntity View

namespace ArgumentM

def runSay : ArgumentM Unit := do
  let text ← next string
  emitSelected (.say text)

def runKill : ArgumentM Unit := do
  let selector ← next? selector
  let active := (← getThe Build).active
  emit (.kill (selector.getD active).render)

def silentRemoval : BuildM Command :=
  let below : Position := ⟨.here, .ofRelative (.ofInt (-9999)), .here⟩
  modifyGet fun build =>
    build.sharedFile "silent_remove" [.teleport selfTarget below, .kill selfTarget]

def runRemove : ArgumentM Unit := do
  let removal ← silentRemoval
  match ← next? selector with
  | some selector => emit (.execute selector.render .here removal)
  | none => emitSelected removal

def damagerName : String := "_dmg_from"

def runDamage : ArgumentM Unit := do
  let amount ← next integer
  let cause := ((← next? identifier).map Text.lower).getD "all"
  let target := (← getThe Build).active.render
  match ← next? selector with
  | some damager => emit (.damageBy target amount cause damager.single.render)
  | none =>
      if ← isNext coordinate then
        let place ← position
        requireFeature .nulls
        let damager := named damagerName
        emitAll [
          .summon identifier place (some spawnEvent) (some damagerName),
          .damageBy target amount cause damager,
          .triggerEvent damager despawnEvent] "damagefrom"
      else emit (.damage target amount cause)

def runTag : ArgumentM Unit := do
  let mode ← next identifier
  let tag ← name
  let target := (← getThe Build).active.render
  match Text.upper mode with
  | "ADD" => emit (.tagAdd target tag)
  | "REMOVE" => emit (.tagRemove target tag)
  | "SINGLE" =>
      emitAll [.tagRemove ("@e[tag=" ++ tag ++ "]") tag, .tagAdd target tag] "tagsingle"
  | _ => fail (.invalidTagMode mode)

def runNullCreate : ArgumentM Unit := do
  let name ← next string
  let className ← next? string
  let place ← positionOrHere
  let event ← summonEvent className
  emitSelected (.summon identifier place (some event) (some name))

def runNullSingle : ArgumentM Unit := do
  let name ← next string
  let className ← next? string
  let place ← position
  let event ← summonEvent className
  emitAllSelected [
    .triggerEvent (named name) despawnEvent,
    .summon identifier place (some event) (some name)] "singletonnull"

def runNullRemove : ArgumentM Unit := do
  let everyOne ← word? "all"
  let active := (← getThe Build).active
  let target := if everyOne then NullEntity.everyOne else active.render
  BuildM.emit (.triggerEvent target NullEntity.despawnEvent)

def runNullClass : ArgumentM Unit := do
  let target := (← getThe Build).active.render
  if ← word? "remove" then emit (.triggerEvent target cleanEvent)
  else
    let event ← summonEvent (some (← name))
    let lines := [cleanEvent, event].map fun event =>
      Line.plain (.triggerEvent target event)
    modifyThe Build (·.emitBatch lines "nullclass" true)

def runNullEntity : ArgumentM Unit := do
  let mode ← next identifier
  match Text.upper mode with
  | "CREATE" => runNullCreate
  | "SINGLE" => runNullSingle
  | "REMOVE" => runNullRemove
  | "CLASS" => runNullClass
  | _ => fail (.invalidNullMode mode)

end ArgumentM

end ScriptPack
