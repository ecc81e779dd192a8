import ScriptPack.Proofs.Emission

/-!
Names that a session generates one after the other. Each word has a count of its own, and a name is
the word with the count behind it; so names from one word differ, and names from two words are the
same where the longer word has taken digits from the number of the shorter one.
-/

namespace ScriptPack

namespace Session

def generateNames (session : Session) : List String → List String
  | [] => []
  | word :: rest =>
      (session.generateName word).1 :: (session.generateName word).2.generateNames rest

/-- The words, each with the number that it is given. -/
def numbered (session : Session) : List String → List (String × Nat)
  | [] => []
  | word :: rest => (word, session.count word) :: (session.generateName word).2.numbered rest

theorem generateNames_eq (session : Session) (words : List String) :
    session.generateNames words = (session.numbered words).map fun (word, number) =>
      word ++ toString number := by
  induction words generalizing session with
  | nil => rfl
  | cons word rest ih =>
    rw [generateNames, ih]
    rfl

theorem mem_numbered_iff {session : Session} {words : List String} {word : String} {number : Nat} :
    (word, number) ∈ session.numbered words ↔
      session.count word ≤ number ∧ number < session.count word + words.count word := by
  induction words generalizing session with
  | nil => simp [numbered]
  | cons first rest ih =>
    rw [numbered, List.mem_cons, ih, count_generateName, List.count_cons]
    by_cases same : word = first
    · subst same
      simp only [Prod.mk.injEq, beq_self_eq_true, true_and, if_true]
      omega
    · simp [same, Ne.symm same]

theorem nodup_numbered (session : Session) (words : List String) : (session.numbered words).Nodup := by
  induction words generalizing session with
  | nil => exact List.nodup_nil
  | cons word rest ih =>
    refine List.nodup_cons.2 ⟨fun again => ?_, ih _⟩
    have later := (mem_numbered_iff.1 again).1
    rw [count_generateName, if_pos rfl] at later
    omega

/-- No word is another one with digits behind it that begin a number of the other one, and is used
so often that it is given the rest of the number. -/
def AreApart (words : List String) : Prop :=
  ∀ word digits number other, digits ≠ "" → toString number = digits ++ toString other →
    number < words.count word → words.count (word ++ digits) ≤ other

variable {session : Session} {words : List String}

theorem mem_numbered_fresh_iff (fresh : session.generated = .empty) {word : String} {number : Nat} :
    (word, number) ∈ session.numbered words ↔ number < words.count word := by
  simp [mem_numbered_iff, count, fresh]

theorem nodup_generateNames_iff (fresh : session.generated = .empty) :
    (session.generateNames words).Nodup ↔ AreApart words := by
  have mem {word : String} {number : Nat} := @mem_numbered_fresh_iff session words fresh word number
  rw [generateNames_eq, List.nodup_map_iff_inj_on (session.nodup_numbered words)]
  constructor
  · intro injective word digits number other nonempty isNumber used
    by_contra usedOther
    have same := injective (word, number) (mem.2 used) (word ++ digits, other)
      (mem.2 (Nat.lt_of_not_le usedOther)) (by simp [isNumber, String.append_assoc])
    have sameWord : word ++ "" = word ++ digits := String.append_empty.trans (congrArg Prod.fst same)
    exact nonempty ((String.append_right_inj word).1 sameWord).symm
  · rintro apart ⟨word, number⟩ isWord ⟨other, otherNumber⟩ isOther same
    have clash {word digits : String} {number otherNumber : Nat}
        (isNumber : toString number = digits ++ toString otherNumber)
        (used : number < words.count word) (usedOther : otherNumber < words.count (word ++ digits)) :
        (word, number) = (word ++ digits, otherNumber) := by
      by_cases empty : digits = ""
      · subst empty
        rw [String.append_empty, Text.toString_inj.1 (isNumber.trans String.empty_append)]
      · exact absurd (apart word digits number otherNumber empty isNumber used)
          (Nat.not_le_of_lt usedOther)
    obtain ⟨digits, ⟨rfl, isNumber⟩ | ⟨rfl, isNumber⟩⟩ := Text.append_eq_append same
    · exact clash isNumber (mem.1 isWord) (mem.1 isOther)
    · exact (clash isNumber (mem.1 isOther) (mem.1 isWord)).symm

theorem areApart_of_noDigit
    (noDigit : ∀ word ∈ words, ∀ c ∈ word.toList.getLast?, c.isDigit = false) : AreApart words := by
  intro word digits number other nonempty isNumber _
  by_contra usedOther
  have member : word ++ digits ∈ words :=
    List.count_pos_iff.1 (Nat.zero_lt_of_lt (Nat.lt_of_not_le usedOther))
  obtain ⟨c, isLast, digit⟩ := exists_last_digit word nonempty isNumber
  rw [noDigit _ member c isLast] at digit
  cases digit

end Session

open Session in
/-- Which names a fresh session generates, and when all of them differ. Words that end in no digit
never clash. -/
theorem generated_names_nodup_iff {session : Session} (fresh : session.generated = .empty)
    (words : List String) :
    (∀ name, name ∈ session.generateNames words ↔
      ∃ word, ∃ number < words.count word, name = word ++ toString number) ∧
    ((session.generateNames words).Nodup ↔ AreApart words) ∧
    ((∀ word ∈ words, ∀ c ∈ word.toList.getLast?, c.isDigit = false) →
      (session.generateNames words).Nodup) := by
  refine ⟨fun name => ?_, nodup_generateNames_iff fresh,
    fun noDigit => (nodup_generateNames_iff fresh).2 (areApart_of_noDigit noDigit)⟩
  rw [generateNames_eq, List.mem_map]
  constructor
  · rintro ⟨⟨word, number⟩, member, rfl⟩
    exact ⟨word, number, (mem_numbered_fresh_iff fresh).1 member, rfl⟩
  · rintro ⟨word, number, used, rfl⟩
    exact ⟨(word, number), (mem_numbered_fresh_iff fresh).2 used, rfl⟩

/-- The eleventh name from one word is the first one from the word with a digit behind it. -/
theorem generated_names_nodup_iff_clash :
    ¬(Session.generateNames {} (List.replicate 11 "a" ++ ["a1"])).Nodup := by
  intro nodup
  have apart := (generated_names_nodup_iff rfl _).2.1.1 nodup "a" "1" 10 0 (by decide) rfl
  exact absurd (apart (by decide)) (by decide)

end ScriptPack
