import ScriptPack.Text.Letter
import ScriptPack.Token.Basic

/-!
Reading tokens. The text is taken apart from the front: blanks and commas divide tokens, `//` and
`/* */` enclose comments, and a minus sign belongs to the number after it when nothing but a gap
stands before it. Every step consumes at least one character, so reading ends with the text.
-/

namespace ScriptPack

/-- What can be wrong with the text of a script. -/
inductive SourceFault where
  | invalidRange (text : String)
  | invalidCoordinate (text : String)
  | invalidSelector (text : String)
  | unterminatedSelector (text : String)
  | invalidNumber (text : String)
  | unterminatedString
  | unterminatedComment
  | namelessReference
  | unexpectedCharacter (c : Char)
  | unclosedBlock
  | unknownStatement (source : String)
deriving DecidableEq, Repr

def SourceFault.message : SourceFault → String
  | invalidRange text => s!"Invalid range '{text}'"
  | invalidCoordinate text => s!"Invalid coordinate '{text}'"
  | invalidSelector text => s!"Invalid selector '{text}'"
  | unterminatedSelector text => s!"Unterminated selector '{text}'"
  | invalidNumber text => s!"Invalid number '{text}'"
  | unterminatedString => "Unterminated string literal"
  | unterminatedComment => "Unterminated block comment"
  | namelessReference => "Expected a name after '$'"
  | unexpectedCharacter c => "Unexpected character: '" ++ String.singleton c ++ "'"
  | unclosedBlock => "Block is never closed."
  | unknownStatement source => s!"Unknown statement '{source}'."

namespace Token

def isNameChar (c : Char) : Bool :=
  Text.isAlphanumeric c || c == '_' || c == ':' || c == '.'

def isNumericChar (c : Char) : Bool :=
  c.isDigit || c == '.' || c == '-'

def isAsciiLetter (c : Char) : Bool :=
  c.isAlpha

def timeUnit? (c : Char) : Option Int32 :=
  match c with
  | 't' => some 1
  | 's' => some 20
  | 'm' => some 1200
  | 'h' => some 72000
  | _ => none

def readInteger (text rest : List Char) : Except SourceFault (Value × List Char) :=
  match Number.readInt32? text with
  | none => .error (.invalidNumber (String.ofList text))
  | some value =>
      match rest with
      | [] => .ok (.int value, [])
      | c :: after =>
          match timeUnit? c with
          | some unit =>
              if after.head?.any isNameChar then .ok (.int value, c :: after)
              else .ok (.int (value * unit), after)
          | none => .ok (.int value, c :: after)

def readRange (text rest : List Char) : Except SourceFault (Value × List Char) :=
  match Range.readChars? text with
  | some range => .ok (.range range, rest)
  | none => .error (.invalidRange (String.ofList text))

def readNumber (first : Char) (rest : List Char) : Except SourceFault (Value × List Char) :=
  let whole := first :: rest.takeWhile Char.isDigit
  let after := rest.dropWhile Char.isDigit
  match after with
  | '.' :: c :: more =>
      if c == '.' then
        readRange (whole ++ after.takeWhile isNumericChar) (after.dropWhile isNumericChar)
      else if c.isDigit then
        let text := whole ++ '.' :: (c :: more).takeWhile Char.isDigit
        match Number.readSingle? text with
        | some value => .ok (.float value, (c :: more).dropWhile Char.isDigit)
        | none => .error (.invalidNumber (String.ofList text))
      else readInteger whole after
  | _ => readInteger whole after

/-- The text up to the bracket that closes the brackets opened so far, whether that bracket
stands on the same line, and the rest. -/
def takeBrackets (depth : Nat) : List Char → List Char × Bool × List Char
  | [] => ([], false, [])
  | '\n' :: rest => ([], false, '\n' :: rest)
  | c :: rest =>
      if c == ']' && depth == 1 then ([c], true, rest)
      else
        let depth := if c == '[' then depth + 1 else if c == ']' then depth - 1 else depth
        let (text, closed, rest) := takeBrackets depth rest
        (c :: text, closed, rest)

def takeArguments (text : List Char) : List Char × Bool × List Char :=
  match text with
  | '[' :: _ => takeBrackets 0 text
  | _ => ([], true, text)

def readSelector (rest : List Char) : Except SourceFault (Selector × List Char) :=
  let base := '@' :: rest.takeWhile isAsciiLetter
  let after := rest.dropWhile isAsciiLetter
  let (brackets, closed, after) := takeArguments after
  let text := base ++ brackets
  if !closed then .error (.unterminatedSelector (String.ofList text))
  else
    match Selector.readChars? text with
    | some selector => .ok (selector, after)
    | none => .error (.invalidSelector (String.ofList text))

def escaped (c : Char) : List Char :=
  match c with
  | 'n' => ['\n']
  | 't' => ['\t']
  | '\\' => ['\\']
  | '"' => ['"']
  | '\'' => ['\'']
  | other => ['\\', other]

def readQuoted (quote : Char) : List Char → Except SourceFault (List Char × List Char)
  | [] => .error .unterminatedString
  | '\\' :: c :: rest => (readQuoted quote rest).map fun (text, rest) => (escaped c ++ text, rest)
  | c :: rest =>
      if c == '\\' || c == '\n' then .error .unterminatedString
      else if c == quote then .ok ([], rest)
      else (readQuoted quote rest).map fun (text, rest) => (c :: text, rest)

def skipComment? : List Char → Option (Nat × List Char)
  | [] => none
  | '*' :: '/' :: rest => some (0, rest)
  | c :: rest =>
      (skipComment? rest).map fun (lines, rest) => (if c == '\n' then lines + 1 else lines, rest)

def countLines (text : List Char) : Nat :=
  text.count '\n'

/-- What is read at one place: a token or something between tokens. -/
structure Lexeme where
  kind? : Option TokenKind
  rest : List Char
  /-- Line breaks passed. -/
  lines : Nat := 0
  /-- Whether a minus sign right after it may belong to a number. -/
  gap : Bool := false

/-- A fault and the line breaks passed before it was found. -/
structure LexFault where
  fault : SourceFault
  lines : Nat := 0

namespace Lexeme

def token (kind : TokenKind) (rest : List Char) : Except LexFault Lexeme :=
  .ok { kind? := some kind, rest }

def opening (kind : TokenKind) (rest : List Char) : Except LexFault Lexeme :=
  .ok { kind? := some kind, rest, gap := true }

def separator (lines : Nat) (rest : List Char) : Except LexFault Lexeme :=
  .ok { kind? := none, rest, lines, gap := true }

def comment (lines : Nat) (rest : List Char) : Except LexFault Lexeme :=
  .ok { kind? := none, rest, lines }

def ofValue : Except SourceFault (Value × List Char) → Except LexFault Lexeme
  | .ok (value, rest) => token (.literal value) rest
  | .error fault => .error { fault }

def extensible (plain extended : TokenKind) (rest : List Char) : Except LexFault Lexeme :=
  match rest with
  | '=' :: rest => opening extended rest
  | rest => token plain rest

end Lexeme

def ofWord (word : String) : TokenKind :=
  match word with
  | "true" => .literal (.bool true)
  | "false" => .literal (.bool false)
  | "and" => .both
  | "not" => .negation
  | word => .word word

def readText (quote : Char) (rest : List Char) : Except LexFault Lexeme :=
  match readQuoted quote rest with
  | .ok (text, rest) => Lexeme.token (.literal (.text (String.ofList text))) rest
  | .error fault => .error { fault }

def readTarget (rest : List Char) : Except LexFault Lexeme :=
  match readSelector rest with
  | .ok (selector, rest) => Lexeme.token (.literal (.selector selector)) rest
  | .error fault => .error { fault }

def readEquals (rest : List Char) : Except LexFault Lexeme :=
  match rest with
  | '=' :: rest => Lexeme.opening (.compare .eq) rest
  | rest => Lexeme.opening (.assign none) rest

def readBang (rest : List Char) : Except LexFault Lexeme :=
  match rest with
  | '=' :: rest => Lexeme.opening (.compare .ne) rest
  | c :: _ =>
      if c.isDigit || c == '.' then
        let text := rest.takeWhile isNumericChar
        match Range.readChars? text with
        | some range =>
            Lexeme.token (.literal (.range range.invert)) (rest.dropWhile isNumericChar)
        | none => .error { fault := .invalidRange (String.ofList ('!' :: text)) }
      else Lexeme.token .negation rest
  | [] => Lexeme.token .negation []

def readArith (op : ArithOp) (rest : List Char) : Except LexFault Lexeme :=
  Lexeme.extensible (.arith op) (.assign (some op)) rest

def readSlash (rest : List Char) : Except LexFault Lexeme :=
  match rest with
  | '/' :: rest => Lexeme.comment 0 (rest.dropWhile (· != '\n'))
  | '*' :: rest =>
      match skipComment? rest with
      | some (lines, rest) => Lexeme.comment lines rest
      | none => .error { fault := .unterminatedComment, lines := countLines rest }
  | rest => readArith .div rest

def readMinus (gap : Bool) (rest : List Char) : Except LexFault Lexeme :=
  if gap && rest.head?.any Char.isDigit then Lexeme.ofValue (readNumber '-' rest)
  else readArith .sub rest

def readDots (rest : List Char) : Except LexFault Lexeme :=
  if rest.head? == some '.' then
    Lexeme.ofValue (readRange ('.' :: rest.takeWhile isNumericChar) (rest.dropWhile isNumericChar))
  else .error { fault := .unexpectedCharacter '.' }

def readCoord (mark : Char) (rest : List Char) : Except LexFault Lexeme :=
  let text := mark :: rest.takeWhile isNumericChar
  match Coord.readChars? text with
  | some coord => Lexeme.token (.literal (.coord coord)) (rest.dropWhile isNumericChar)
  | none => .error { fault := .invalidCoordinate (String.ofList text) }

def readReference (rest : List Char) : Except LexFault Lexeme :=
  let name := rest.takeWhile isNameChar
  if name.isEmpty then .error { fault := .namelessReference }
  else Lexeme.token (.reference (String.ofList name)) (rest.dropWhile isNameChar)

def readWord (c : Char) (rest : List Char) : Except LexFault Lexeme :=
  if c.isDigit then Lexeme.ofValue (readNumber c rest)
  else if Text.isAlphabetic c || c == '_' then
    Lexeme.token (ofWord (String.ofList (c :: rest.takeWhile isNameChar))) (rest.dropWhile isNameChar)
  else .error { fault := .unexpectedCharacter c }

def readLexeme (gap : Bool) (c : Char) (rest : List Char) : Except LexFault Lexeme :=
  match c with
  | ' ' | '\t' | ',' | '\r' => Lexeme.separator 0 rest
  | '\n' => Lexeme.separator 1 rest
  | '\x7b' => Lexeme.token .openBlock rest
  | '\x7d' => Lexeme.token .closeBlock rest
  | '(' => Lexeme.opening .openParen rest
  | ')' => Lexeme.token .closeParen rest
  | '/' => readSlash rest
  | '"' | '\'' => readText c rest
  | '=' => readEquals rest
  | '!' => readBang rest
  | '<' => Lexeme.extensible (.compare .lt) (.compare .le) rest
  | '>' => Lexeme.extensible (.compare .gt) (.compare .ge) rest
  | '-' => readMinus gap rest
  | '+' => readArith .add rest
  | '*' => readArith .mul rest
  | '%' => readArith .mod rest
  | '.' => readDots rest
  | '~' | '^' => readCoord c rest
  | '@' => readTarget rest
  | '$' => readReference rest
  | c => readWord c rest

section Suffixes

variable {rest after : List Char} {lexeme : Lexeme}

theorem map_eq_ok {ε α β : Type} {outcome : Except ε α} {f : α → β} {value : β} :
    outcome.map f = .ok value ↔ ∃ found, outcome = .ok found ∧ f found = value := by
  cases outcome <;> simp [Except.map]

theorem readInteger_suffix {text : List Char} {value : Value}
    (read : readInteger text rest = .ok (value, after)) : after <:+ rest := by
  unfold readInteger at read
  repeat' split at read
  all_goals cases read
  all_goals simp

theorem readRange_suffix {text : List Char} {value : Value}
    (read : readRange text rest = .ok (value, after)) : after <:+ rest := by
  unfold readRange at read
  split at read <;> cases read
  exact List.suffix_rfl

theorem readNumber_suffix {first : Char} {value : Value}
    (read : readNumber first rest = .ok (value, after)) : after <:+ rest := by
  have digits : rest.dropWhile Char.isDigit <:+ rest := List.dropWhile_suffix _
  unfold readNumber at read
  dsimp only at read
  split at read
  · next c more starts =>
    repeat' split at read
    · exact (readRange_suffix read).trans ((List.dropWhile_suffix _).trans digits)
    · cases read
      rw [starts] at digits
      exact (List.dropWhile_suffix _).trans ((List.suffix_cons _ _).trans digits)
    · cases read
    · exact (readInteger_suffix read).trans digits
  · exact (readInteger_suffix read).trans digits

theorem takeBrackets_suffix (depth : Nat) (text : List Char) : (takeBrackets depth text).2.2 <:+ text := by
  fun_induction takeBrackets depth text with
  | case4 depth c rest _ _ _ text closed after taken ih =>
    rw [taken] at ih
    exact ih.trans (List.suffix_cons c rest)
  | _ => simp

theorem readSelector_suffix {selector : Selector}
    (read : readSelector rest = .ok (selector, after)) : after <:+ rest := by
  have brackets (text : List Char) : (takeArguments text).2.2 <:+ text := by
    unfold takeArguments
    split
    · exact takeBrackets_suffix 0 _
    · exact List.suffix_rfl
  unfold readSelector at read
  dsimp only at read
  repeat' split at read
  all_goals cases read
  exact (brackets _).trans (List.dropWhile_suffix _)

theorem readQuoted_suffix {quote : Char} {text : List Char}
    (read : readQuoted quote rest = .ok (text, after)) : after <:+ rest := by
  fun_induction readQuoted quote rest generalizing text with
  | case2 c rest ih =>
    obtain ⟨found, inner, same⟩ := map_eq_ok.1 read
    cases same
    exact (ih inner).trans ((List.suffix_cons c rest).trans (List.suffix_cons _ _))
  | case5 c rest _ _ _ ih =>
    obtain ⟨found, inner, same⟩ := map_eq_ok.1 read
    cases same
    exact (ih inner).trans (List.suffix_cons c rest)
  | case4 c =>
    cases read
    exact List.suffix_cons c after
  | _ => cases read

theorem skipComment?_passed {text : List Char} {lines : Nat}
    (skipped : skipComment? text = some (lines, rest)) :
    ∃ passed, text = passed ++ rest ∧ countLines passed = lines := by
  fun_induction skipComment? text generalizing lines with
  | case1 => cases skipped
  | case2 text =>
    cases skipped
    exact ⟨['*', '/'], rfl, rfl⟩
  | case3 c text _ ih =>
    obtain ⟨found, inner, same⟩ := Option.map_eq_some_iff.1 skipped
    cases same
    obtain ⟨passed, rfl, counted⟩ := ih inner
    refine ⟨c :: passed, rfl, ?_⟩
    rw [countLines, List.count_cons, ← countLines, counted]
    split <;> rfl

/-- What is read at `c` in front of the text: a part of it is passed, and line breaks are counted
unless they belong to a token. -/
def Lexeme.IsRead (c : Char) (text : List Char) (lexeme : Lexeme) : Prop :=
  ∃ passed, text = passed ++ lexeme.rest ∧
    lexeme.lines = if lexeme.kind?.isSome then 0 else countLines (c :: passed)

variable {c : Char}

theorem isRead_token {kind : TokenKind} {gap : Bool} (suffix : after <:+ rest) :
    Lexeme.IsRead c rest ⟨some kind, after, 0, gap⟩ := by
  obtain ⟨passed, same⟩ := suffix
  exact ⟨passed, same.symm, rfl⟩

theorem isRead_ofValue {outcome : Except SourceFault (Value × List Char)}
    (read : Lexeme.ofValue outcome = .ok lexeme)
    (suffix : ∀ value after, outcome = .ok (value, after) → after <:+ rest) : lexeme.IsRead c rest := by
  unfold Lexeme.ofValue at read
  split at read <;> cases read
  exact isRead_token (suffix _ _ rfl)

theorem isRead_extensible {plain extended : TokenKind}
    (read : Lexeme.extensible plain extended rest = .ok lexeme) : lexeme.IsRead c rest := by
  unfold Lexeme.extensible at read
  split at read <;> cases read
  · exact isRead_token (List.suffix_cons _ _)
  · exact isRead_token List.suffix_rfl

theorem isRead_slash (read : readSlash rest = .ok lexeme) : lexeme.IsRead '/' rest := by
  unfold readSlash at read
  split at read
  · next text =>
    cases read
    refine ⟨'/' :: text.takeWhile (· != '\n'), by simp, (List.count_eq_zero.2 fun member => ?_).symm⟩
    simp only [List.mem_cons, Char.reduceEq, false_or] at member
    simpa using List.all_eq_true.1 List.all_takeWhile _ member
  · split at read <;> cases read
    obtain ⟨passed, rfl, counted⟩ := skipComment?_passed ‹_›
    exact ⟨'*' :: passed, rfl, counted.symm⟩
  · exact isRead_extensible read

theorem isRead_lexeme {gap : Bool} (read : readLexeme gap c rest = .ok lexeme) :
    lexeme.IsRead c rest := by
  have named : rest.dropWhile isNameChar <:+ rest := List.dropWhile_suffix _
  have numeric : rest.dropWhile isNumericChar <:+ rest := List.dropWhile_suffix _
  have number {first c : Char} (read : Lexeme.ofValue (readNumber first rest) = .ok lexeme) :
      lexeme.IsRead c rest :=
    isRead_ofValue read fun _ _ => readNumber_suffix
  unfold readLexeme at read
  split at read
  case h_1 | h_2 | h_3 | h_4 | h_5 =>
    cases read
    exact ⟨[], rfl, rfl⟩
  case h_10 => exact isRead_slash read
  case h_11 | h_12 =>
    unfold readText at read
    split at read <;> cases read
    exact isRead_token (readQuoted_suffix ‹_›)
  case h_13 =>
    unfold readEquals at read
    split at read <;> cases read
    · exact isRead_token (List.suffix_cons _ _)
    · exact isRead_token List.suffix_rfl
  case h_14 =>
    unfold readBang at read
    dsimp only at read
    repeat' split at read
    all_goals cases read
    · exact isRead_token (List.suffix_cons _ _)
    · exact isRead_token numeric
    all_goals exact isRead_token List.suffix_rfl
  case h_15 | h_16 | h_18 | h_19 | h_20 => exact isRead_extensible read
  case h_17 =>
    unfold readMinus at read
    split at read
    · exact number read
    · exact isRead_extensible read
  case h_21 =>
    unfold readDots at read
    split at read
    · exact isRead_ofValue read fun _ _ found => (readRange_suffix found).trans numeric
    · cases read
  case h_22 | h_23 =>
    unfold readCoord at read
    dsimp only at read
    split at read <;> cases read
    exact isRead_token numeric
  case h_24 =>
    unfold readTarget at read
    split at read <;> cases read
    exact isRead_token (readSelector_suffix ‹_›)
  case h_25 =>
    unfold readReference at read
    dsimp only at read
    split at read <;> cases read
    exact isRead_token named
  case h_26 =>
    unfold readWord at read
    repeat' split at read
    · exact number read
    · cases read
      exact isRead_token named
    · cases read
  all_goals
    cases read
    exact isRead_token List.suffix_rfl

theorem readLexeme_length {gap : Bool} (read : readLexeme gap c rest = .ok lexeme) :
    lexeme.rest.length ≤ rest.length := by
  obtain ⟨passed, same, -⟩ := isRead_lexeme read
  simp [same]

end Suffixes

/-- The tokens of a text that starts on the line `line`, and the line it ends on. `gap` tells
whether a minus sign at its start may belong to a number. -/
def scan (line : Nat) (gap : Bool) (text : List Char) :
    Except (Nat × SourceFault) (List Token × Nat) :=
  match text with
  | [] => .ok ([], line)
  | c :: rest =>
      match _found : readLexeme gap c rest with
      | .error fault => .error (line + fault.lines, fault.fault)
      | .ok lexeme =>
          match scan (line + lexeme.lines) lexeme.gap lexeme.rest with
          | .error fault => .error fault
          | .ok (tokens, last) =>
              match lexeme.kind? with
              | some kind => .ok (⟨kind, line⟩ :: tokens, last)
              | none => .ok (tokens, last)
termination_by text.length
decreasing_by
  have := readLexeme_length _found
  simp only [List.length_cons]
  omega

def readAll (source : String) : Except (Nat × SourceFault) (List Token) :=
  (scan 1 true source.toList).map Prod.fst

end Token

end ScriptPack
