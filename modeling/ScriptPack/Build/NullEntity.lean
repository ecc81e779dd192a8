import ScriptPack.Build.Emit

/-!
Entities that packs bring along: the null entity, an invisible marker, and the exploder. A class of
null entities is a group of components that adds a type family of the class.
-/

namespace ScriptPack

namespace NullEntity

def identifier : String := "dummy:null"

def despawnEvent : String := "dummy:despawn"

def cleanEvent : String := "dummy:class_clean"

def spawnEvent : String := "minecraft:entity_spawned"

def classEvent (name : String) : String :=
  "dummy:class_" ++ name

def named (name : String) : String :=
  "@e[type=" ++ identifier ++ ",name=\"" ++ name ++ "\"]"

def everyOne : String :=
  "@e[type=" ++ identifier ++ "]"

def adding (group : String) : Json :=
  .object [("add", .object [("component_groups", .array [.string group])])]

def classGroup (name : String) : String :=
  "class_" ++ name

def describe (identifier : String) : Json :=
  .object [
    ("identifier", .string identifier),
    ("is_spawnable", .bool false),
    ("is_summonable", .bool true),
    ("is_experimental", .bool false)]

def groups (classes : List String) : Json :=
  .object (("despawn", .object [("minecraft:instant_despawn", .object [])]) ::
    classes.map fun name =>
      (classGroup name, .object [("minecraft:type_family",
        .object [("family", .array [.string "null", .string name])])]))

def events (classes : List String) : Json :=
  let clean := Json.object [("remove", .object [("component_groups",
    .array (classes.map fun name => .string (classGroup name)))])]
  .object ((despawnEvent, adding "despawn") ::
    classes.map (fun name => (classEvent name, adding (classGroup name))) ++
      [(cleanEvent, clean)])

def components : Json :=
  .object [
    ("minecraft:physics",
      .object [("has_gravity", .bool false), ("has_collision", .bool false)]),
    ("minecraft:collision_box", .object [("width", .integer 0), ("height", .integer 0)]),
    ("minecraft:damage_sensor",
      .object [("triggers", .object [("deals_damage", .bool false)])])]

def asset (classes : List String) : Asset where
  kind := .entity
  name := "null"
  content := Json.canonical (.object [
    ("format_version", .string "1.16.0"),
    ("minecraft:entity", .object [
      ("description", describe identifier),
      ("component_groups", groups classes),
      ("components", components),
      ("events", events classes)])])

end NullEntity

def exploderAsset : Asset where
  kind := .entity
  name := "exploder"
  content := Json.canonical (.object [
    ("format_version", .string "1.16.0"),
    ("minecraft:entity", .object [
      ("description", NullEntity.describe "dummy:exploder"),
      ("components", .object [("minecraft:explode", .object [
        ("fuse_length", .integer 0),
        ("fuse_lit", .bool true),
        ("power", .integer 3),
        ("causes_fire", .bool false)])])])])

def Build.useNullClass (build : Build) (name : String) : String × Build :=
  let name := Text.lower name
  let nullClasses :=
    if build.nullClasses.contains name then build.nullClasses else build.nullClasses ++ [name]
  (NullEntity.classEvent name, { build with nullClasses })

def Build.enableFeature (build : Build) (feature : Feature) : Build :=
  let (isNew, session) := build.session.enableFeature feature
  let build := { build with session }
  match isNew, feature with
  | true, .nulls =>
      { build with environment := build.environment.set "null" [.text NullEntity.identifier] }
  | true, .exploders => build.addAsset exploderAsset
  | _, _ => build

def BuildM.requireFeature (feature : Feature) : BuildM Unit := do
  let build ← get
  if build.session.hasFeature feature then return else fail (.featureDisabled feature)

def BuildM.summonEvent (className : Option String) : BuildM String :=
  match className with
  | some name => modifyGet (·.useNullClass name)
  | none => return NullEntity.spawnEvent

end ScriptPack
