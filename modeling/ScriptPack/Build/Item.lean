import ScriptPack.Build.Arguments

/-!
Giving items, with the components that restrict their use.
-/

namespace ScriptPack

structure ItemComponents where
  keptOnDeath : Bool := false
  /-- Where the item is locked. -/
  lock : Option String := none
  placedOn : List String := []
  destroys : List String := []

namespace ItemComponents

def unsupported : List String :=
  ["enchant", "name", "lore", "title", "author", "page", "dye"]

def read (components : ItemComponents) (tokens : List Token) : Except Problem ItemComponents :=
  match tokens with
  | [] => .ok components
  | token :: rest =>
      match View.identifier.view? token.kind with
      | none => .ok components
      | some word =>
          match Text.lower word with
          | "keep" => read { components with keptOnDeath := true } rest
          | "lockinventory" => read { components with lock := some "lock_in_inventory" } rest
          | "lockslot" => read { components with lock := some "lock_in_slot" } rest
          | "canplaceon" =>
              match _taken : View.takeName rest with
              | .error problem => .error problem
              | .ok (block, rest) =>
                  read { components with placedOn := components.placedOn ++ [block] } rest
          | "candestroy" =>
              match _taken : View.takeName rest with
              | .error problem => .error problem
              | .ok (block, rest) =>
                  read { components with destroys := components.destroys ++ [block] } rest
          | lower =>
              if unsupported.contains lower then .error (.unsupportedItemAttribute word)
              else .error (.unknownItemAttribute word)
termination_by tokens.length
decreasing_by
  · simp
  · simp
  · simp
  · obtain ⟨_, rfl⟩ := View.exists_of_takeName _taken
    simp only [List.length_cons]
    omega
  · obtain ⟨_, rfl⟩ := View.exists_of_takeName _taken
    simp only [List.length_cons]
    omega

def blockList (name : String) (blocks : List String) : List (String × Json) :=
  if blocks.isEmpty then []
  else [(name, .object [("blocks", .array (blocks.map .string))])]

def members (components : ItemComponents) : List (String × Json) :=
  blockList "minecraft:can_destroy" components.destroys ++
    blockList "minecraft:can_place_on" components.placedOn ++
    (components.lock.toList.map fun mode =>
      ("minecraft:item_lock", .object [("mode", .string mode)])) ++
    (if components.keptOnDeath then [("minecraft:keep_on_death", .object [])] else [])

def text? (components : ItemComponents) : Option String :=
  if components.members.isEmpty then none
  else some (Json.object components.members).compact

end ItemComponents

def ArgumentM.runGive : ArgumentM Unit := do
  let item ← name
  let count ← next? View.integer
  let data ← next? View.integer
  let components ← BuildM.ofExcept id (ItemComponents.read {} (← get))
  let target := (← getThe Build).active.render
  BuildM.emit (.give target item (count.getD 1) (data.getD 0) components.text?)

end ScriptPack
