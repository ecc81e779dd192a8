import ScriptPack.Build.Expression

/-!
Reading the arguments of a statement. Arguments are taken from the front of its tokens, each
through a view.
-/

namespace ScriptPack

theorem exists_ok_of_bind {ε α β : Type} {first : Except ε α} {next : α → Except ε β} {result : β}
    (ran : first >>= next = .ok result) : ∃ value, first = .ok value ∧ next value = .ok result := by
  cases first with
  | error error => cases ran
  | ok value => exact ⟨value, rfl, ran⟩

namespace View

def take {α : Type} (view : View α) : List Token → Except Problem (α × List Token)
  | [] => .error .endOfStatement
  | token :: rest =>
      match view.view? token.kind with
      | some value => .ok (value, rest)
      | none => .error (.unexpectedToken view.name token.kind.kindName)

def isNext {α : Type} (view : View α) (tokens : List Token) : Bool :=
  tokens.head?.any fun token => view.admits token.kind

def takeIf {α : Type} (view : View α) : List Token → Option α × List Token
  | [] => (none, [])
  | token :: rest =>
      match view.view? token.kind with
      | some value => (some value, rest)
      | none => (none, token :: rest)

theorem exists_of_take {α : Type} {view : View α} {tokens rest : List Token} {value : α}
    (taken : view.take tokens = .ok (value, rest)) : ∃ token, tokens = token :: rest := by
  cases tokens with
  | nil => simp [take] at taken
  | cons token tail =>
    simp only [take] at taken
    split at taken
    · cases taken
      exact ⟨token, rfl⟩
    · simp at taken

theorem takeIf_suffix {α : Type} (view : View α) (tokens : List Token) :
    (view.takeIf tokens).2 <:+ tokens := by
  cases tokens with
  | nil => exact List.suffix_refl []
  | cons token tail =>
    simp only [takeIf]
    split
    · exact List.suffix_cons token tail
    · exact List.suffix_refl _

def takePosition (tokens : List Token) : Except Problem (Position × List Token) := do
  let (x, tokens) ← coordinate.take tokens
  let (y, tokens) ← coordinate.take tokens
  let (z, tokens) ← coordinate.take tokens
  return (⟨x, y, z⟩, tokens)

def takeName (tokens : List Token) : Except Problem (String × List Token) :=
  match string.takeIf tokens with
  | (some text, rest) => .ok (text, rest)
  | (none, tokens) => identifier.take tokens

theorem exists_of_takePosition {tokens rest : List Token} {position : Position}
    (taken : takePosition tokens = .ok (position, rest)) :
    ∃ x y z, tokens = x :: y :: z :: rest := by
  obtain ⟨⟨x, afterX⟩, xTaken, taken⟩ := exists_ok_of_bind taken
  obtain ⟨⟨y, afterY⟩, yTaken, taken⟩ := exists_ok_of_bind taken
  obtain ⟨⟨z, afterZ⟩, zTaken, taken⟩ := exists_ok_of_bind taken
  cases taken
  obtain ⟨_, rfl⟩ := exists_of_take xTaken
  obtain ⟨_, rfl⟩ := exists_of_take yTaken
  obtain ⟨_, rfl⟩ := exists_of_take zTaken
  exact ⟨_, _, _, rfl⟩

theorem exists_of_takeName {tokens rest : List Token} {name : String}
    (taken : takeName tokens = .ok (name, rest)) : ∃ token, tokens = token :: rest := by
  unfold takeName at taken
  cases tokens with
  | nil => simp [takeIf, take] at taken
  | cons token tail =>
    simp only [takeIf] at taken
    cases found : string.view? token.kind with
    | some text =>
      rw [found] at taken
      cases taken
      exact ⟨token, rfl⟩
    | none =>
      rw [found] at taken
      exact exists_of_take taken

def takeKind (board : Scoreboard) (tokens : List Token) :
    Except Problem (Option CounterKind × List Token) :=
  match tokens with
  | [] => .ok (none, [])
  | token :: rest =>
      match token.kind with
      | .record name =>
          match board.record? name with
          | some record => .ok (some record.kind, rest)
          | none => .error (.unknownRecord name)
      | .word word =>
          match Text.lower word with
          | "int" => .ok (some .int, rest)
          | "time" => .ok (some .time, rest)
          | "bool" => .ok (some .bool, rest)
          | "decimal" => do
              let (precision, rest) ← integer.take rest
              if precision < 0 || Value.greatestPrecision < precision.toInt.toNat then
                .error .invalidPrecision
              else return (some (.decimal precision.toInt.toNat), rest)
          | _ => .ok (none, tokens)
      | _ => .ok (none, tokens)

/-- Takes a counter and its default: an optional kind, a name, and a literal or counter after an
equals sign. -/
def takeDefinition (board : Scoreboard) (tokens : List Token) :
    Except Problem (Parameter × List Token) := do
  let (kind, tokens) ← takeKind board tokens
  let (name, tokens) ← identifier.take tokens
  let counter : Counter := ⟨name, kind.getD .int⟩
  match tokens with
  | ⟨.assign none, _⟩ :: rest => do
      let (operand, rest) ← operand.take rest
      return (⟨counter, some operand⟩, rest)
  | tokens => return (⟨counter, none⟩, tokens)

/-- A kind is written out, or is that of a record which the scoreboard has. -/
theorem takeKind_eq_ok {board : Scoreboard} {tokens rest : List Token} {kind : Option CounterKind}
    (taken : takeKind board tokens = .ok (kind, rest)) : rest <:+ tokens ∧
      ∀ name fields, kind = some (.record name fields) →
        ∃ word record, board.record? word = some record ∧ record.kind = .record name fields := by
  cases tokens with
  | nil =>
    cases taken
    exact ⟨List.suffix_refl _, by simp⟩
  | cons token tail =>
    have tailSuffix := List.suffix_cons token tail
    simp only [takeKind] at taken
    split at taken
    · split at taken
      · rename_i record found
        cases taken
        exact ⟨tailSuffix, fun _ _ same => ⟨_, record, found, Option.some.inj same⟩⟩
      · cases taken
    · split at taken
      iterate 3
        · cases taken
          exact ⟨tailSuffix, by simp⟩
      · obtain ⟨⟨precision, after⟩, found, taken⟩ := exists_ok_of_bind taken
        dsimp only at taken
        split at taken <;> cases taken
        obtain ⟨_, rfl⟩ := exists_of_take found
        exact ⟨⟨[_, _], rfl⟩, by simp⟩
      · cases taken
        exact ⟨List.suffix_refl _, by simp⟩
    · cases taken
      exact ⟨List.suffix_refl _, by simp⟩

theorem suffix_of_takeDefinition {board : Scoreboard} {tokens rest : List Token}
    {parameter : Parameter} (taken : takeDefinition board tokens = .ok (parameter, rest)) :
    rest <:+ tokens ∧ rest.length < tokens.length := by
  obtain ⟨⟨kind, afterKind⟩, kindTaken, taken⟩ := exists_ok_of_bind taken
  obtain ⟨⟨name, afterName⟩, nameTaken, taken⟩ := exists_ok_of_bind taken
  have first := (takeKind_eq_ok kindTaken).1
  have later : rest <:+ afterName := by
    dsimp only at taken
    split at taken
    · obtain ⟨⟨operand, afterOperand⟩, operandTaken, taken⟩ := exists_ok_of_bind taken
      cases taken
      obtain ⟨_, rfl⟩ := exists_of_take operandTaken
      exact ⟨[_, _], rfl⟩
    · cases taken
      exact List.suffix_refl _
  obtain ⟨_, rfl⟩ := exists_of_take nameTaken
  have shorter := first.length_le
  have shorterYet := later.length_le
  rw [List.length_cons] at shorter
  exact ⟨later.trans ((List.suffix_cons _ _).trans first), by omega⟩

end View

abbrev ArgumentM := StateT (List Token) BuildM

namespace ArgumentM

def read {α : Type} (reader : List Token → Except Problem (α × List Token)) : ArgumentM α := do
  match reader (← get) with
  | .ok (value, rest) =>
      set rest
      return value
  | .error problem => BuildM.fail problem

def next {α : Type} (view : View α) : ArgumentM α :=
  read view.take

def next? {α : Type} (view : View α) : ArgumentM (Option α) :=
  modifyGet view.takeIf

def isNext {α : Type} (view : View α) : ArgumentM Bool := do
  return view.isNext (← get)

def position : ArgumentM Position :=
  read View.takePosition

def positionOrHere : ArgumentM Position := do
  let x ← next? View.coordinate
  let y ← next? View.coordinate
  let z ← next? View.coordinate
  return ⟨x.getD .here, y.getD .here, z.getD .here⟩

def name : ArgumentM String :=
  read View.takeName

def word? (word : String) : ArgumentM Bool :=
  modifyGet fun tokens =>
    match tokens with
    | ⟨.word text, _⟩ :: rest =>
        if Text.sameWord text word then (true, rest) else (false, tokens)
    | _ => (false, tokens)

end ArgumentM

end ScriptPack
