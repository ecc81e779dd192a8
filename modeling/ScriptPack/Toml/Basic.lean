/-!
TOML documents. A table remembers how it came to be, since that decides which later lines may add
to it.
-/

namespace ScriptPack

/-- How a table came to be. -/
inductive TableOrigin where
  /-- By its own header, or as the table of the whole document. -/
  | header
  /-- By the header of a table inside it. -/
  | implied
  /-- By a dotted key. -/
  | dotted
  /-- Between braces. -/
  | braces
deriving DecidableEq, Repr

inductive Toml where
  | string (text : String)
  | boolean (value : Bool)
  /-- A number, as it is written. -/
  | number (written : String)
  /-- A date, a time, or both, as it is written. -/
  | moment (written : String)
  | array (items : List Toml)
  | table (origin : TableOrigin) (members : List (String × Toml))
  /-- Tables that headers in double brackets add one by one, last one first. -/
  | tables (elements : List (List (String × Toml)))

namespace Toml

abbrev Members := List (String × Toml)

def putMember (name : String) (value : Toml) : Members → Members
  | [] => [(name, value)]
  | (other, kept) :: rest =>
      if name == other then (name, value) :: rest
      else (other, kept) :: putMember name value rest

def get? (members : Members) (name : String) : Option Toml :=
  members.lookup name

def greatestDepth : Nat := 80

/-- Adds a member to the table that dotted keys lead to from here. A table made by a header takes
no dotted keys from outside. -/
def addDotted (name : String) (value : Toml) : List String → Members → Option Members
  | [], members =>
      if (get? members name).isSome then none else some (putMember name value members)
  | key :: path, members =>
      match get? members key with
      | none => do
          let inner ← addDotted name value path []
          some (putMember key (.table .dotted inner) members)
      | some (.table .dotted inner) => do
          let inner ← addDotted name value path inner
          some (putMember key (.table .dotted inner) members)
      | some (.table .implied inner) =>
          if path.isEmpty then none
          else do
            let inner ← addDotted name value path inner
            some (putMember key (.table .implied inner) members)
      | some (.tables (last :: earlier)) =>
          if path.isEmpty then none
          else do
            let last ← addDotted name value path last
            some (putMember key (.tables (last :: earlier)) members)
      | some _ => none

def updateAt (change : Members → Option Members) : List String → Members → Option Members
  | [], members => change members
  | key :: path, members =>
      match get? members key with
      | none => do
          let inner ← updateAt change path []
          some (putMember key (.table .implied inner) members)
      | some (.table .braces _) => none
      | some (.table origin inner) => do
          let inner ← updateAt change path inner
          some (putMember key (.table origin inner) members)
      | some (.tables (last :: earlier)) => do
          let last ← updateAt change path last
          some (putMember key (.tables (last :: earlier)) members)
      | some _ => none

def openTable (name : String) (members : Members) : Option Members :=
  match get? members name with
  | none => some (putMember name (.table .header []) members)
  | some (.table .implied inner) => some (putMember name (.table .header inner) members)
  | some _ => none

def openElement (name : String) (members : Members) : Option Members :=
  match get? members name with
  | none => some (putMember name (.tables [[]]) members)
  | some (.tables elements) => some (putMember name (.tables ([] :: elements)) members)
  | some _ => none

end Toml

end ScriptPack
