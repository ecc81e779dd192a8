import ScriptPack.Token.Lexer

/-!
Lines of a script are read apart from each other. What is read at one place ends before a line break
that follows the text, and what stands after the break does not change it. Main result: the tokens of
a text, a line break and a second text are those of the two texts, those of the second further down.
-/

namespace ScriptPack

open List

namespace Token

variable {more rest after : List Char} {lexeme : Lexeme}

section Readers

variable {text brackets : List Char} {p : Char → Bool} {value : Value}

theorem takeWhile_append_break (stops : p '\n' = false) (rest more : List Char) :
    (rest ++ '\n' :: more).takeWhile p = rest.takeWhile p := by
  induction rest with
  | nil => simp [stops]
  | cons c rest ih => by_cases kept : p c = true <;> simp [kept, ih]

theorem dropWhile_append_break (stops : p '\n' = false) (rest more : List Char) :
    (rest ++ '\n' :: more).dropWhile p = rest.dropWhile p ++ '\n' :: more := by
  induction rest with
  | nil => simp [stops]
  | cons c rest ih => by_cases kept : p c = true <;> simp [kept, ih]

theorem head?_append_break (stops : p '\n' = false) (rest more : List Char) :
    (rest ++ '\n' :: more).head?.any p = rest.head?.any p := by
  cases rest with
  | nil => simpa using stops
  | cons c rest => rfl

theorem starts_before_break {c : Char} {others : List Char} (apart : c ≠ '\n')
    (starts : rest ++ '\n' :: more = c :: others) : ∃ tail, rest = c :: tail := by
  cases rest with
  | nil => exact absurd (cons.inj starts).1.symm apart
  | cons d rest => exact ⟨rest, by rw [(cons.inj starts).1]⟩

theorem readInteger_append_break (read : readInteger text rest = .ok (value, after)) :
    readInteger text (rest ++ '\n' :: more) = .ok (value, after ++ '\n' :: more) := by
  unfold readInteger at read ⊢
  split at read
  · cases read
  · cases rest with
    | nil =>
      cases read
      rfl
    | cons c rest =>
      have next := @head?_append_break isNameChar (by decide) rest more
      grind

theorem readRange_append_break (read : readRange text rest = .ok (value, after)) :
    readRange text (rest ++ '\n' :: more) = .ok (value, after ++ '\n' :: more) := by
  unfold readRange at read ⊢
  split at read <;> cases read
  rfl

theorem readNumber_append_break {first : Char} (read : readNumber first rest = .ok (value, after)) :
    readNumber first (rest ++ '\n' :: more) = .ok (value, after ++ '\n' :: more) := by
  unfold readNumber at read ⊢
  rw [takeWhile_append_break (by decide), dropWhile_append_break (by decide)]
  dsimp only at read ⊢
  generalize rest.dropWhile Char.isDigit = digits at read ⊢
  generalize first :: rest.takeWhile Char.isDigit = whole at read ⊢
  have integral (read : readInteger whole digits = .ok (value, after)) :
      readInteger whole (digits ++ '\n' :: more) = .ok (value, after ++ '\n' :: more) :=
    readInteger_append_break read
  match digits with
  | [] => exact integral read
  | [c] =>
    have stops : Char.isDigit '\n' = false := by decide
    grind
  | c :: d :: others =>
    have numeric := @takeWhile_append_break isNumericChar (by decide) (c :: d :: others) more
    have numeric' := @dropWhile_append_break isNumericChar (by decide) (c :: d :: others) more
    have decimals := @takeWhile_append_break Char.isDigit (by decide) (d :: others) more
    have decimals' := @dropWhile_append_break Char.isDigit (by decide) (d :: others) more
    grind [readRange_append_break]

theorem takeBrackets_append_break {depth : Nat}
    (taken : takeBrackets depth text = (brackets, true, after)) :
    takeBrackets depth (text ++ '\n' :: more) = (brackets, true, after ++ '\n' :: more) := by
  fun_induction takeBrackets depth text generalizing brackets with
  | case1 | case2 => cases taken
  | case3 depth c rest plain closing =>
    cases taken
    rw [cons_append, takeBrackets.eq_3 _ _ _ plain, if_pos closing]
  | case4 depth c rest plain other next text closed after' step =>
    rename_i ih
    cases taken
    rw [cons_append, takeBrackets.eq_3 _ _ _ plain, if_neg other]
    dsimp only
    rw [ih step]

theorem takeArguments_append_break (taken : takeArguments text = (brackets, true, after)) :
    takeArguments (text ++ '\n' :: more) = (brackets, true, after ++ '\n' :: more) := by
  unfold takeArguments at taken
  split at taken
  · exact takeBrackets_append_break taken
  · rename_i plain
    cases taken
    refine takeArguments.eq_2 _ fun _ starts => ?_
    obtain ⟨tail, same⟩ := starts_before_break (by decide) starts
    exact plain tail same

theorem readSelector_append_break {selector : Selector}
    (read : readSelector rest = .ok (selector, after)) :
    readSelector (rest ++ '\n' :: more) = .ok (selector, after ++ '\n' :: more) := by
  unfold readSelector at read ⊢
  rw [takeWhile_append_break (by decide), dropWhile_append_break (by decide)]
  rcases taken : takeArguments (rest.dropWhile isAsciiLetter) with ⟨brackets, closed, found⟩
  simp only [taken] at read
  cases closed with
  | false => cases read
  | true =>
    simp only [takeArguments_append_break taken]
    split at read
    · cases read
    · split at read <;> cases read
      rfl

theorem readQuoted_append_break {quote : Char} {content : List Char}
    (read : readQuoted quote text = .ok (content, after)) :
    readQuoted quote (text ++ '\n' :: more) = .ok (content, after ++ '\n' :: more) := by
  fun_induction readQuoted quote text generalizing content with
  | case1 => cases read
  | case2 c rest ih =>
    obtain ⟨found, inner, ⟨⟩⟩ := map_eq_ok.1 read
    rw [cons_append, cons_append, readQuoted.eq_2, ih inner]
    rfl
  | case3 c rest plain broken => cases read
  | case4 c rest plain sound closing =>
    cases read
    rw [cons_append, readQuoted.eq_3 _ _ _ (by grind), if_neg sound, if_pos closing]
  | case5 c rest plain sound other ih =>
    obtain ⟨found, inner, ⟨⟩⟩ := map_eq_ok.1 read
    rw [cons_append, readQuoted.eq_3 _ _ _ (by grind), if_neg sound, if_neg other, ih inner]
    rfl

theorem skipComment?_append_break {lines : Nat} (skipped : skipComment? text = some (lines, after)) :
    skipComment? (text ++ '\n' :: more) = some (lines, after ++ '\n' :: more) := by
  fun_induction skipComment? text generalizing lines with
  | case1 => cases skipped
  | case2 rest =>
    cases skipped
    rfl
  | case3 c rest plain ih =>
    obtain ⟨found, inner, same⟩ := Option.map_eq_some_iff.mp skipped
    cases same
    rw [cons_append, skipComment?.eq_3, ih inner]
    · rfl
    · intro _ star starts
      obtain ⟨tail, same⟩ := starts_before_break (by decide) starts
      exact plain tail star same

/-- Reading goes the same way when a line break and more text follow. -/
def StopsAtBreak (read : List Char → Except LexFault Lexeme) : Prop :=
  ∀ ⦃rest : List Char⦄ ⦃lexeme : Lexeme⦄, read rest = .ok lexeme → ∀ more : List Char,
    read (rest ++ '\n' :: more) = .ok { lexeme with rest := lexeme.rest ++ '\n' :: more }

theorem stopsAtBreak_ofValue {read : List Char → Except SourceFault (Value × List Char)}
    (stops : ∀ ⦃rest value after⦄, read rest = .ok (value, after) → ∀ more : List Char,
      read (rest ++ '\n' :: more) = .ok (value, after ++ '\n' :: more)) :
    StopsAtBreak fun rest => Lexeme.ofValue (read rest) := by
  intro rest lexeme done more
  dsimp only at done ⊢
  cases found : read rest with
  | error fault =>
    rw [found] at done
    cases done
  | ok found' =>
    rw [found] at done
    cases done
    rw [stops found more]
    rfl

theorem stopsAtBreak_extensible (plain extended : TokenKind) :
    StopsAtBreak (Lexeme.extensible plain extended) := by
  intro rest lexeme done more
  unfold Lexeme.extensible at done ⊢
  cases rest <;> grind [Lexeme.opening, Lexeme.token]

theorem stopsAtBreak_text (quote : Char) : StopsAtBreak (readText quote) := by
  intro rest lexeme done more
  unfold readText at done ⊢
  split at done
  · cases done
    rw [readQuoted_append_break ‹_›]
    rfl
  · cases done

theorem stopsAtBreak_target : StopsAtBreak readTarget := by
  intro rest lexeme done more
  unfold readTarget at done ⊢
  split at done
  · cases done
    rw [readSelector_append_break ‹_›]
    rfl
  · cases done

theorem stopsAtBreak_bang : StopsAtBreak readBang := by
  intro rest lexeme done more
  unfold readBang at done ⊢
  cases rest with
  | nil =>
    cases done
    rfl
  | cons c rest =>
    have numeric := @takeWhile_append_break isNumericChar (by decide) (c :: rest) more
    have others := @dropWhile_append_break isNumericChar (by decide) (c :: rest) more
    grind [Lexeme.opening, Lexeme.token]

theorem stopsAtBreak_slash : StopsAtBreak readSlash := by
  intro rest lexeme done more
  unfold readSlash at done
  split at done
  · cases done
    rw [cons_append, readSlash, dropWhile_append_break (by decide)]
    rfl
  · split at done <;> cases done
    simp only [cons_append, readSlash, skipComment?_append_break ‹_›]
    rfl
  · rename_i line block
    rw [readSlash.eq_3]
    · exact stopsAtBreak_extensible _ _ done more
    all_goals
      intro _ starts
      obtain ⟨tail, same⟩ := starts_before_break (by decide) starts
    · exact line tail same
    · exact block tail same

theorem stopsAtBreak_minus (gap : Bool) : StopsAtBreak (readMinus gap) := by
  intro rest lexeme done more
  unfold readMinus at done ⊢
  rw [head?_append_break (by decide)]
  split at done
  · rw [if_pos ‹_›]
    exact stopsAtBreak_ofValue (fun _ _ _ read _ => readNumber_append_break read) done more
  · rw [if_neg ‹_›]
    exact stopsAtBreak_extensible _ _ done more

theorem stopsAtBreak_dots : StopsAtBreak readDots := by
  intro rest lexeme done more
  unfold readDots at done ⊢
  rw [takeWhile_append_break (by decide), dropWhile_append_break (by decide)]
  split at done
  · rename_i dot
    rw [if_pos (by cases rest <;> simp_all)]
    exact @stopsAtBreak_ofValue (readRange ('.' :: rest.takeWhile isNumericChar))
      (fun _ _ _ read _ => readRange_append_break read) _ _ done more
  · cases done

theorem stopsAtBreak_coord (mark : Char) : StopsAtBreak (readCoord mark) := by
  intro rest lexeme done more
  unfold readCoord at done ⊢
  rw [takeWhile_append_break (by decide), dropWhile_append_break (by decide)]
  dsimp only at done ⊢
  split at done <;> cases done
  rfl

theorem stopsAtBreak_reference : StopsAtBreak readReference := by
  intro rest lexeme done more
  unfold readReference at done ⊢
  rw [takeWhile_append_break (by decide), dropWhile_append_break (by decide)]
  dsimp only at done ⊢
  split at done <;> cases done
  rw [if_neg ‹_›]
  rfl

theorem stopsAtBreak_word (c : Char) : StopsAtBreak (readWord c) := by
  intro rest lexeme done more
  unfold readWord at done ⊢
  split at done
  · rw [if_pos ‹_›]
    exact stopsAtBreak_ofValue (fun _ _ _ read _ => readNumber_append_break read) done more
  · rw [if_neg ‹_›]
    split at done <;> cases done
    rw [if_pos ‹_›, takeWhile_append_break (by decide), dropWhile_append_break (by decide)]
    rfl

theorem stopsAtBreak_equals : StopsAtBreak readEquals := by
  intro rest lexeme done more
  unfold readEquals at done ⊢
  cases rest <;> grind [Lexeme.opening]

theorem stopsAtBreak_lexeme (gap : Bool) (c : Char) : StopsAtBreak (readLexeme gap c) := by
  intro rest lexeme done more
  unfold readLexeme at done ⊢
  split at done
  case h_10 => exact stopsAtBreak_slash done more
  case h_11 | h_12 => exact stopsAtBreak_text _ done more
  case h_13 => exact stopsAtBreak_equals done more
  case h_14 => exact stopsAtBreak_bang done more
  case h_15 | h_16 | h_18 | h_19 | h_20 => exact stopsAtBreak_extensible _ _ done more
  case h_17 => exact stopsAtBreak_minus _ done more
  case h_21 => exact stopsAtBreak_dots done more
  case h_22 | h_23 => exact stopsAtBreak_coord _ done more
  case h_24 => exact stopsAtBreak_target done more
  case h_25 => exact stopsAtBreak_reference done more
  case h_26 => exact stopsAtBreak_word _ done more
  all_goals
    cases done
    rfl

end Readers

section Scanning

variable {line : Nat} {gap : Bool} {c : Char}

def Lexeme.tokens (line : Nat) (lexeme : Lexeme) : List Token :=
  (lexeme.kind?.map (Token.mk · line)).toList

theorem scan_of_error {fault : LexFault} (read : readLexeme gap c rest = .error fault) :
    scan line gap (c :: rest) = .error (line + fault.lines, fault.fault) := by
  rw [scan]
  split <;> simp_all

theorem scan_of_ok (read : readLexeme gap c rest = .ok lexeme) :
    scan line gap (c :: rest) = (scan (line + lexeme.lines) lexeme.gap lexeme.rest).map
      fun scanned => (lexeme.tokens line ++ scanned.1, scanned.2) := by
  rw [scan]
  split
  · simp_all
  · rename_i found same
    cases same.symm.trans read
    unfold Lexeme.tokens
    split
    · simp_all [Except.map]
    · cases lexeme.kind? <;> simp_all [Except.map]

/-- Induction over the lexemes of a text, with the line and the gap in front of each. -/
theorem scan_induction {motive : Nat → Bool → List Char → Prop} (nil : ∀ line gap, motive line gap [])
    (error : ∀ line gap c rest fault, readLexeme gap c rest = .error fault → motive line gap (c :: rest))
    (ok : ∀ line gap c rest lexeme, readLexeme gap c rest = .ok lexeme →
      motive (line + lexeme.lines) lexeme.gap lexeme.rest → motive line gap (c :: rest))
    (line : Nat) (gap : Bool) (text : List Char) : motive line gap text := by
  fun_induction scan line gap text with
  | case1 line gap => exact nil line gap
  | case2 line gap c rest fault read => exact error line gap c rest fault read
  | case3 line gap c rest lexeme read _ _ ih => exact ok line gap c rest lexeme read ih
  | case4 line gap c rest lexeme read _ _ _ _ _ ih => exact ok line gap c rest lexeme read ih
  | case5 line gap c rest lexeme read _ _ _ _ ih => exact ok line gap c rest lexeme read ih

/-- What is scanned when the text starts `lines` lines further down. -/
def further (lines : Nat) : Except (Nat × SourceFault) (List Token × Nat) →
    Except (Nat × SourceFault) (List Token × Nat)
  | .ok (tokens, last) => .ok (tokens.map (moveDown lines), last + lines)
  | .error (line, fault) => .error (line + lines, fault)

theorem scan_further (lines line : Nat) (gap : Bool) (text : List Char) :
    scan (line + lines) gap text = further lines (scan line gap text) := by
  induction line, gap, text using scan_induction with
  | nil line gap => simp [scan, further]
  | error line gap c rest fault read =>
    rw [scan_of_error read, scan_of_error read, further, Nat.add_right_comm]
  | ok line gap c rest lexeme read ih =>
    rw [scan_of_ok read, scan_of_ok read, Nat.add_right_comm, ih]
    cases scan (line + lexeme.lines) lexeme.gap lexeme.rest with
    | error fault => rfl
    | ok scanned =>
      obtain ⟨kind?, _, _, _⟩ := lexeme
      cases kind? <;> rfl

theorem scan_append_break {first : List Char} {tokens : List Token} {last : Nat}
    (scanned : scan line gap first = .ok (tokens, last)) (second : List Char) :
    scan line gap (first ++ '\n' :: second) = (scan (last + 1) true second).map
      fun others => (tokens ++ others.1, others.2) := by
  induction line, gap, first using scan_induction generalizing tokens with
  | nil line gap =>
    rw [scan] at scanned
    cases scanned
    have broken : readLexeme gap '\n' second = .ok ⟨none, second, 1, true⟩ := rfl
    exact scan_of_ok broken
  | error line gap c rest fault read =>
    rw [scan_of_error read] at scanned
    cases scanned
  | ok line gap c rest lexeme read ih =>
    rw [scan_of_ok read] at scanned
    obtain ⟨others, found, ⟨⟩⟩ := map_eq_ok.1 scanned
    rw [cons_append, scan_of_ok (stopsAtBreak_lexeme gap c read second), ih found]
    cases scan (others.2 + 1) true second with
    | error fault => rfl
    | ok more => simp [Except.map, Lexeme.tokens]

end Scanning

/-- A text that can be read has the same tokens in front of a line break and any other text, and that
text has the tokens, or the fault, that it has alone: only its lines are counted on from the line on
which the first text ends. -/
theorem lines_read_apart {first : String} {tokens : List Token} (read : readAll first = .ok tokens) :
    ∃ last, scan 1 true first.toList = .ok (tokens, last) ∧ ∀ second : String,
      readAll (first ++ "\n" ++ second) = match readAll second with
        | .ok others => .ok (tokens ++ others.map (moveDown last))
        | .error (line, fault) => .error (line + last, fault) := by
  unfold readAll at read ⊢
  cases scanned : scan 1 true first.toList with
  | error fault =>
    rw [scanned] at read
    cases read
  | ok found =>
    rw [scanned] at read
    cases read
    refine ⟨found.2, rfl, fun second => ?_⟩
    have apart : (first ++ "\n" ++ second).toList = first.toList ++ '\n' :: second.toList := by simp
    rw [apart, scan_append_break scanned, Nat.add_comm, scan_further]
    rcases scan 1 true second.toList with ⟨line, fault⟩ | ⟨others, last⟩ <;> rfl

set_option maxRecDepth 20000 in
theorem lines_read_apart_comment :
    readAll "say /* a\nb */ 1" = .ok [⟨.word "say", 1⟩, ⟨.literal (.int 1), 2⟩] ∧
      ∃ last, scan 1 true "say /* a\nb */ 1".toList =
          .ok ([⟨.word "say", 1⟩, ⟨.literal (.int 1), 2⟩], last) ∧ ∀ second : String,
        readAll ("say /* a\nb */ 1" ++ "\n" ++ second) = match readAll second with
          | .ok others => .ok ([⟨.word "say", 1⟩, ⟨.literal (.int 1), 2⟩] ++ others.map (moveDown last))
          | .error (line, fault) => .error (line + last, fault) := by
  have read : readAll "say /* a\nb */ 1" = .ok [⟨.word "say", 1⟩, ⟨.literal (.int 1), 2⟩] := by
    cbv
  exact ⟨read, lines_read_apart read⟩

end Token

end ScriptPack
