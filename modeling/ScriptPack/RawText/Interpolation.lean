import ScriptPack.RawText.Basic
import ScriptPack.Token.Lexer

/-!
Interpolation. In the text of a message a name between braces stands for a counter, and a selector
between braces for the entities it selects; braces around anything else are plain text.
-/

namespace ScriptPack

/-- A piece of a text: a plain character, or what stands between braces. -/
inductive Segment where
  | plain (c : Char)
  | counter (accessor : List Char)
  | entities (selector : List Char)
deriving DecidableEq, Repr

namespace Segment

def isAccessorChar (c : Char) : Bool :=
  c.isAlphanum || c == '-' || c == ':' || c == '.' || c == '_'

def greatestAccessor : Nat := 16

def readAccessor? (text : List Char) : Option (Segment × List Char) :=
  let name := text.takeWhile isAccessorChar
  match text.dropWhile isAccessorChar with
  | '\x7d' :: rest =>
      if name.isEmpty || greatestAccessor < name.length then none else some (.counter name, rest)
  | _ => none

/-- The text up to the first `]` with a closing brace after it, on the same line; the text is not
empty. -/
def readClauses? : List Char → Option (List Char × List Char)
  | [] => none
  | c :: rest =>
      if c == '\n' then none
      else
        match rest with
        | ']' :: '\x7d' :: after => some ([c], after)
        | _ => (readClauses? rest).map fun (clauses, after) => (c :: clauses, after)

def readEntities? : List Char → Option (Segment × List Char)
  | '@' :: base :: rest =>
      if "pseai".toList.contains base then
        match rest with
        | '\x7d' :: after => some (.entities ['@', base], after)
        | '[' :: clauses =>
            (readClauses? clauses).map fun (clauses, after) =>
              (.entities ('@' :: base :: '[' :: clauses ++ [']']), after)
        | _ => none
      else none
  | _ => none

def readBraces? (text : List Char) : Option (Segment × List Char) :=
  (readAccessor? text).or (readEntities? text)

def source : Segment → List Char
  | plain c => [c]
  | counter accessor => '\x7b' :: accessor ++ ['\x7d']
  | entities selector => '\x7b' :: selector ++ ['\x7d']

section

variable {text rest : List Char} {segment : Segment}

theorem source_readAccessor? (read : readAccessor? text = some (segment, rest)) :
    '\x7b' :: text = segment.source ++ rest := by
  have whole := List.takeWhile_append_dropWhile (p := isAccessorChar) (l := text)
  simp only [readAccessor?] at read
  split at read
  · rename_i found
    split at read
    · cases read
    · cases read
      rw [found] at whole
      simp [source, whole]
  · cases read

theorem source_readClauses? {clauses : List Char} (read : readClauses? text = some (clauses, rest)) :
    text = clauses ++ ']' :: '\x7d' :: rest := by
  fun_induction readClauses? text generalizing clauses with
  | case1 => cases read
  | case2 => cases read
  | case3 =>
    cases read
    rfl
  | case4 c text _ _ ih =>
    obtain ⟨⟨inner, after⟩, found, equal⟩ := Option.map_eq_some_iff.1 read
    cases equal
    rw [ih found]
    rfl

theorem source_readEntities? (read : readEntities? text = some (segment, rest)) :
    '\x7b' :: text = segment.source ++ rest := by
  unfold readEntities? at read
  split at read
  · split at read
    · split at read
      · cases read
        rfl
      · obtain ⟨⟨clauses, after⟩, found, equal⟩ := Option.map_eq_some_iff.1 read
        cases equal
        rw [source_readClauses? found]
        simp [source]
      · cases read
    · cases read
  · cases read

theorem source_readBraces? (read : readBraces? text = some (segment, rest)) :
    '\x7b' :: text = segment.source ++ rest := by
  unfold readBraces? at read
  cases found : readAccessor? text with
  | some result =>
    rw [found, Option.some_or] at read
    exact source_readAccessor? (by rw [found, read])
  | none =>
    rw [found, Option.none_or] at read
    exact source_readEntities? read

theorem readBraces?_length (read : readBraces? text = some (segment, rest)) :
    rest.length ≤ text.length := by
  have whole := congrArg List.length (source_readBraces? read)
  have positive : 0 < segment.source.length := by cases segment <;> simp [source]
  rw [List.length_cons, List.length_append] at whole
  omega

end

def ofText (text : List Char) : List Segment :=
  match text with
  | [] => []
  | c :: rest =>
      if c == '\x7b' then
        match _found : readBraces? rest with
        | some (segment, after) => segment :: ofText after
        | none => .plain c :: ofText rest
      else .plain c :: ofText rest
termination_by text.length
decreasing_by
  · have := readBraces?_length _found
    simp only [List.length_cons]
    omega
  · simp
  · simp

end Segment

/-- A text with its interpolations. -/
structure Message where
  terms : List RawTerm := []
  /-- Commands to run before the text is shown. -/
  setup : List Command := []
  /-- Whether the text shows scores of whoever executes the command. -/
  readsScores : Bool := false
deriving DecidableEq

namespace Message

def pushText (message : Message) (text : String) : Message :=
  match message.terms.getLast? with
  | some (.text last) =>
      { message with terms := message.terms.dropLast ++ [.text (last ++ text)] }
  | _ => { message with terms := message.terms ++ [.text text] }

def pushAll (board : Scoreboard) (target : String) (index : Nat) (message : Message) :
    List Segment → Message
  | [] => message
  | .plain c :: rest =>
      pushAll board target index (message.pushText (String.singleton c)) rest
  | .entities selector :: rest =>
      let terms := message.terms ++ [.selector (String.ofList selector)]
      pushAll board target index { message with terms } rest
  | .counter accessor :: rest =>
      match board.get? (String.ofList accessor) with
      | some counter =>
          pushAll board target (index + 1)
            { terms := message.terms ++ counter.display target index
              setup := message.setup ++ counter.displaySetup target index
              readsScores := true } rest
      | none =>
          let text := String.ofList ('\x7b' :: accessor ++ ['\x7d'])
          pushAll board target index (message.pushText text) rest

def ofText (board : Scoreboard) (target text : String) : Message :=
  pushAll board target 0 {} (Segment.ofText text.toList)

def rawText (message : Message) : String :=
  ScriptPack.rawText message.terms

end Message

end ScriptPack
