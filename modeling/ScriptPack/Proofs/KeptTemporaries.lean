import ScriptPack.Proofs.Balance
import ScriptPack.Proofs.StatementChanges

/-!
Kept temporaries. A statement asks for temporaries, keeps those it has asked for, and runs other lists
of statements in place; the account of a list says, statement by statement, in which order. Main
result: in every account a temporary that a statement keeps is asked for by no later statement of its
list, nor in any list that a later statement runs, whether statements succeed or fail.
-/

namespace ScriptPack

open List Scoreboard

/-- What the inside of a statement does with temporaries. -/
inductive Deed where
  | request (name : String)
  | keep
  /-- A list of statements is run in place; each of them does deeds of its own. -/
  | list (account : List (List Deed))

namespace Deed

/-- The temporary is asked for, perhaps in a list that is run in place. -/
inductive Requests (name : String) : Deed → Prop where
  | own : Requests name (.request name)
  | nested {account : List (List Deed)} {deeds : List Deed} {deed : Deed} (mem : deeds ∈ account)
      (mem_deeds : deed ∈ deeds) (requests : Requests name deed) : Requests name (.list account)

/-- A statement with these deeds asks for the temporary and keeps it, both outside the lists that it
runs. -/
inductive Keeps (name : String) : List Deed → Prop where
  | asked {deeds : List Deed} (kept : .keep ∈ deeds) : Keeps name (.request name :: deeds)
  | later (deed : Deed) {deeds : List Deed} (keeps : Keeps name deeds) : Keeps name (deed :: deeds)

/-- The temporaries that are kept are those with numbers between two bounds. -/
def KeepsBetween (deeds : List Deed) (bounds : Nat × Nat) : Prop :=
  ∀ name, Keeps name deeds ↔
    ∃ index, bounds.1 ≤ index ∧ index < bounds.2 ∧ name = temporaryObjective index

def AtLeast (number : Nat) (deeds : List Deed) : Prop :=
  ∀ deed ∈ deeds, ∀ name, deed.Requests name →
    ∃ index, number ≤ index ∧ name = temporaryObjective index

theorem AtLeast.mono {number lower : Nat} {deeds : List Deed} (bound : AtLeast number deeds)
    (le : lower ≤ number) : AtLeast lower deeds := by
  intro deed mem name requests
  obtain ⟨index, isLater, named⟩ := bound deed mem name requests
  exact ⟨index, le.trans isLater, named⟩

theorem AtLeast.cons {number : Nat} {deed : Deed} {deeds : List Deed}
    (first : ∀ name, deed.Requests name →
      ∃ index, number ≤ index ∧ name = temporaryObjective index)
    (rest : AtLeast number deeds) : AtLeast number (deed :: deeds) := by
  intro other mem
  rcases mem_cons.1 mem with rfl | mem
  · exact first
  · exact rest other mem

end Deed

namespace Build

/-- The number of the next temporary, and the numbers to go back to, are the same. -/
def SameNumbers (before after : Build) : Prop :=
  after.scoreboard.nextTemporary = before.scoreboard.nextTemporary ∧
    after.scoreboard.scopes = before.scoreboard.scopes

theorem SameNumbers.of_board {before after : Build} (board : after.scoreboard = before.scoreboard) :
    before.SameNumbers after :=
  ⟨by rw [board], by rw [board]⟩

end Build

open BuildM

section Account

variable (run : List Statement → BuildM Unit)
  (lists : List Statement → Build → List (List Deed) → Prop)

/-- The deeds lead the inside of a statement from a state to another. Lists are `run`, with accounts as
`lists` has them. -/
inductive Inside : Build → List Deed → Build → Prop where
  | done (build : Build) : Inside build [] build
  | still {before middle after : Build} {deeds : List Deed} (same : before.SameNumbers middle)
      (rest : Inside middle deeds after) : Inside before deeds after
  | request (kind : CounterKind) {before after : Build} {deeds : List Deed}
      (rest : Inside { before with scoreboard := (before.scoreboard.temporary kind).2 } deeds after) :
      Inside before (.request (before.scoreboard.temporary kind).1.name :: deeds) after
  | keep {before after : Build} {deeds : List Deed}
      (rest : Inside { before with scoreboard := before.scoreboard.keepTemporaries } deeds after) :
      Inside before (.keep :: deeds) after
  | list {before after : Build} {statements : List Statement} {account : List (List Deed)}
      {deeds : List Deed} (accounts : lists statements before account)
      (rest : Inside (final (run statements) before) deeds after) :
      Inside before (.list account :: deeds) after

/-- What the upcoming statements do, at most `steps` of them and up to the first that fails. -/
inductive UpcomingAccount : Nat → Build → List (List Deed) → Prop where
  | stop (build : Build) : UpcomingAccount 0 build []
  | ended {steps : Nat} {build : Build} (upcoming : build.upcoming = []) :
      UpcomingAccount (steps + 1) build []
  | succeeded {steps : Nat} {before after : Build} {statement : Statement} {rest : List Statement}
      {deeds : List Deed} {account : List (List Deed)} (upcoming : before.upcoming = statement :: rest)
      (inside : Inside run lists ({ before with upcoming := rest }.enter statement) deeds
        (final (runStatement run statement) ({ before with upcoming := rest }.enter statement)))
      (ran : runScoped run statement { before with upcoming := rest } = .ok () after)
      (later : UpcomingAccount steps after account) :
      UpcomingAccount (steps + 1) before (deeds :: account)
  | failed {steps : Nat} {before after : Build} {statement : Statement} {rest : List Statement}
      {deeds : List Deed} {error : Error} (upcoming : before.upcoming = statement :: rest)
      (inside : Inside run lists ({ before with upcoming := rest }.enter statement) deeds
        (final (runStatement run statement) ({ before with upcoming := rest }.enter statement)))
      (ran : runScoped run statement { before with upcoming := rest } = .error error after) :
      UpcomingAccount (steps + 1) before [deeds]

/-- The numbers of the next temporary between the upcoming statements. -/
def boundaries (run : List Statement → BuildM Unit) : Nat → Build → List Nat
  | 0, build => [build.scoreboard.nextTemporary]
  | steps + 1, build =>
      build.scoreboard.nextTemporary ::
        match build.upcoming with
        | [] => []
        | statement :: rest =>
            match runScoped run statement { build with upcoming := rest } with
            | .ok _ after => boundaries run steps after
            | .error _ after => [after.scoreboard.nextTemporary]

end Account

def SectionAccount : Nat → List Statement → Build → List (List Deed) → Prop
  | 0, _, _, account => account = []
  | depth + 1, statements, outer, account =>
      UpcomingAccount (runSection depth) (SectionAccount depth) statements.length
        { outer with upcoming := statements, scoreboard := outer.scoreboard.pushScope } account

/-- A list that is run in place leaves the numbers of temporaries as they are, also when it fails. -/
def RestoresNumbers (run : List Statement → BuildM Unit) : Prop :=
  ∀ (statements : List Statement) (before : Build),
    before.SameNumbers (final (run statements) before)

/-- In these accounts temporaries are asked for with numbers from the present one on. -/
def BoundsRequests (lists : List Statement → Build → List (List Deed) → Prop) : Prop :=
  ∀ statements before account, lists statements before account →
    ∀ deeds ∈ account, Deed.AtLeast before.scoreboard.nextTemporary deeds

/-! The inside of a statement. -/

section Inside

variable {run : Runner} {lists : List Statement → Build → List (List Deed) → Prop}
  {before after : Build}
  {deeds : List Deed}

/-- Temporaries are asked for with numbers from the present one on. -/
theorem Inside.atLeast (restores : RestoresNumbers run) (bounds : BoundsRequests lists)
    (inside : Inside run lists before deeds after) :
    Deed.AtLeast before.scoreboard.nextTemporary deeds := by
  induction inside with
  | done build => exact fun _ mem => absurd mem not_mem_nil
  | still same _ ih => exact same.1 ▸ ih
  | request kind _ ih =>
    rw [nextTemporary_temporary] at ih
    refine .cons (fun name requests => ?_) (ih.mono (Nat.le_succ _))
    cases requests
    exact ⟨_, le_rfl, rfl⟩
  | keep _ ih =>
    rw [nextTemporary_keepTemporaries] at ih
    exact .cons (fun name requests => by cases requests) ih
  | list accounts _ ih =>
    rw [(restores _ _).1] at ih
    refine .cons (fun name requests => ?_) ih
    cases requests with
    | nested mem mem_deeds requests => exact bounds _ _ _ accounts _ mem _ mem_deeds name requests

/-- The scope of the statement ends with a number `kept` to go back to, and the temporaries that the
statement keeps are those from the present number up to it. -/
theorem Inside.exists_kept (restores : RestoresNumbers run)
    (inside : Inside run lists before deeds after) {saved : Nat} {rest : List Nat}
    (scopes : before.scoreboard.scopes = saved :: rest)
    (le : saved ≤ before.scoreboard.nextTemporary) :
    ∃ kept, after.scoreboard.scopes = kept :: rest ∧ saved ≤ kept ∧
      (.keep ∉ deeds → kept = saved) ∧ (.keep ∈ deeds → before.scoreboard.nextTemporary ≤ kept) ∧
      Deed.KeepsBetween deeds (before.scoreboard.nextTemporary, kept) := by
  induction inside generalizing saved with
  | done build =>
    refine ⟨saved, scopes, le_rfl, fun _ => rfl, fun mem => absurd mem not_mem_nil,
      fun name => ⟨fun keeps => ?_, ?_⟩⟩
    · cases keeps
    · rintro ⟨index, isLater, isKept, -⟩
      omega
  | still same _ ih =>
    rw [← same.1] at le ⊢
    exact ih (same.2.trans scopes) le
  | @request kind before after deeds inside ih =>
    have number := before.scoreboard.nextTemporary_temporary kind
    obtain ⟨kept, scopes', saved_le, unkept, isKept, names⟩ :=
      ih ((before.scoreboard.extends_temporary kind).scopes.trans scopes) (by rw [number]; omega)
    rw [number] at isKept names
    refine ⟨kept, scopes', saved_le, fun noKeep => unkept fun mem => noKeep (.tail _ mem),
      fun mem => ?_, fun name => ⟨fun keeps => ?_, ?_⟩⟩
    · have mem : Deed.keep ∈ deeds := by simpa using mem
      have := isKept mem
      omega
    · cases keeps with
      | asked mem => exact ⟨_, le_rfl, by have := isKept mem; omega, rfl⟩
      | later _ keeps =>
        obtain ⟨index, isLater, index_lt, named⟩ := (names name).1 keeps
        exact ⟨index, by omega, index_lt, named⟩
    · rintro ⟨index, isLater, index_lt, rfl⟩
      rcases isLater.eq_or_lt with rfl | isLater
      · have mem : Deed.keep ∈ deeds := by
          by_contra noKeep
          have := unkept noKeep
          omega
        exact .asked mem
      · exact .later _ ((names _).2 ⟨index, isLater, index_lt, rfl⟩)
  | @keep before after deeds inside ih =>
    have number := before.scoreboard.nextTemporary_keepTemporaries
    have scopes' : before.scoreboard.keepTemporaries.scopes =
        before.scoreboard.nextTemporary :: rest := by
      rw [keepTemporaries, scopes]
    obtain ⟨kept, ended, number_le, -, -, names⟩ := ih scopes' (by rw [number])
    rw [number] at names
    refine ⟨kept, ended, le.trans number_le, fun noKeep => absurd mem_cons_self noKeep,
      fun _ => number_le, fun name => ⟨fun keeps => ?_, fun found => .later _ ((names name).2 found)⟩⟩
    cases keeps with
    | later _ keeps => exact (names name).1 keeps
  | @list before after statements account deeds accounts inside ih =>
    obtain ⟨number, same⟩ := restores statements before
    rw [number] at ih
    obtain ⟨kept, ended, saved_le, unkept, isKept, names⟩ := ih (same.trans scopes) le
    refine ⟨kept, ended, saved_le, fun noKeep => unkept fun mem => noKeep (.tail _ mem),
      fun mem => isKept (by simpa using mem),
      fun name => ⟨fun keeps => ?_, fun found => .later _ ((names name).2 found)⟩⟩
    cases keeps with
    | later _ keeps => exact (names name).1 keeps

theorem exists_inside_of_changes {governs decides : Prop}
    (accounted : ∀ statements build, ∃ account, lists statements build account)
    (changes : Build.Changes run governs decides before after) :
    ∃ deeds, Inside run lists before deeds after := by
  induction changes using Relation.ReflTransGen.head_induction_on with
  | refl => exact ⟨[], .done _⟩
  | @head first second change _ ih =>
    obtain ⟨deeds, inside⟩ := ih
    cases change with
    | quiet same => exact ⟨deeds, .still (.of_board same.board) inside⟩
    | board change =>
      cases change with
      | quiet number scopes => exact ⟨deeds, .still ⟨number, scopes⟩ inside⟩
      | request kind => exact ⟨_, .request kind inside⟩
      | keep => exact ⟨_, .keep inside⟩
    | advance _ suffix =>
      refine ⟨deeds, .still ?_ inside⟩
      exact .of_board rfl
    | enter _ =>
      obtain ⟨_, _, entered, -⟩ := first.enterBlock_eq
      exact ⟨deeds, .still (.of_board (by rw [entered])) inside⟩
    | remember _ chosen =>
      refine ⟨deeds, .still ?_ inside⟩
      exact .of_board rfl
    | list _ _ statements =>
      obtain ⟨account, accounts⟩ := accounted statements first
      exact ⟨_, .list accounts inside⟩

theorem exists_inside (run : Runner)
    (accounted : ∀ statements build, ∃ account, lists statements build account)
    (statement : Statement) (before : Build) :
    ∃ deeds, Inside run lists before deeds (final (runStatement run statement) before) := by
  have still {after : Build} (same : before.SameNumbers after) :
      ∃ deeds, Inside run lists before deeds after :=
    ⟨[], .still same (.done after)⟩
  cases isBrace : statement.isBrace with
  | true => exact still (.of_board (final_runStatement_brace run isBrace before).1)
  | false => exact exists_inside_of_changes accounted (makes_runStatement run isBrace before)

end Inside

/-! Around statements and lists. -/

section Around

variable {run : Runner} {lists : List Statement → Build → List (List Deed) → Prop}
  {before : Build}

theorem final_checkReachable_scoreboard (build : Build) :
    (final checkReachable build).scoreboard = build.scoreboard := by
  unfold checkReachable
  rw [final_bind_of_ok (get_apply build)]
  rcases build.unreachable with _ | _ | left <;> rfl

theorem final_runScoped_scoreboard (run : Runner) (statement : Statement)
    (before : Build) : (final (runScoped run statement) before).scoreboard =
      (final (runStatement run statement) (before.enter statement)).scoreboard.popScope := by
  unfold runScoped
  rw [final_bind_of_ok (modify_apply _ before)]
  generalize ended : (final (runStatement run statement) _).scoreboard.popScope = board
  refine final_bind (motive := fun build : Build => build.scoreboard = board) ?_
    fun _ middle _ left => ?_
  · exact (congrArg Build.scoreboard (final_always _ _ _)).trans ended
  · refine final_bind (motive := fun build : Build => build.scoreboard = board) ?_
      fun _ after _ reached => ?_
    · exact (final_checkReachable_scoreboard middle).trans left
    · obtain ⟨_, _, _, _, _, settled⟩ := after.settlePops_eq
      rw [final_of_ok (modify_apply _ after), settled]
      exact reached

/-- A statement goes on at the number up to which it has kept temporaries, and leaves the scopes around
it as they are. -/
theorem final_runScoped_numbers (restores : RestoresNumbers run) {statement : Statement}
    {deeds : List Deed} (inside : Inside run lists (before.enter statement) deeds
      (final (runStatement run statement) (before.enter statement))) :
    before.scoreboard.nextTemporary ≤
        (final (runScoped run statement) before).scoreboard.nextTemporary ∧
      (final (runScoped run statement) before).scoreboard.scopes = before.scoreboard.scopes ∧
      Deed.KeepsBetween deeds (before.scoreboard.nextTemporary,
        (final (runScoped run statement) before).scoreboard.nextTemporary) := by
  obtain ⟨kept, scopes, number_le, -, -, names⟩ := inside.exists_kept restores rfl le_rfl
  rw [final_runScoped_scoreboard, popScope, scopes]
  exact ⟨number_le, rfl, names⟩

theorem exists_upcomingAccount (run : Runner)
    (accounted : ∀ statements build, ∃ account, lists statements build account) (steps : Nat)
    (before : Build) : ∃ account, UpcomingAccount run lists steps before account := by
  induction steps generalizing before with
  | zero => exact ⟨[], .stop before⟩
  | succ steps ih =>
    cases upcoming : before.upcoming with
    | nil => exact ⟨[], .ended upcoming⟩
    | cons statement rest =>
      obtain ⟨deeds, inside⟩ := exists_inside run accounted statement
        ({ before with upcoming := rest }.enter statement)
      cases ran : runScoped run statement { before with upcoming := rest } with
      | error error after => exact ⟨[deeds], .failed upcoming inside ran⟩
      | ok value after =>
        obtain ⟨account, later⟩ := ih after
        exact ⟨deeds :: account, .succeeded upcoming inside ran later⟩

variable {steps : Nat} {account : List (List Deed)}

theorem final_runUpcoming_scopes (restores : RestoresNumbers run)
    (accounted : ∀ statements build, ∃ account, lists statements build account) :
    (final (runUpcoming run steps) before).scoreboard.scopes = before.scoreboard.scopes := by
  induction steps generalizing before with
  | zero => rfl
  | succ steps ih =>
    cases upcoming : before.upcoming with
    | nil =>
      rw [runUpcoming, final_bind_of_ok (takeStatement?_nil upcoming)]
      rfl
    | cons statement rest =>
      obtain ⟨deeds, inside⟩ := exists_inside run accounted statement
        ({ before with upcoming := rest }.enter statement)
      rw [runUpcoming, final_bind_of_ok (takeStatement?_cons upcoming)]
      exact final_bind
        (motive := fun build : Build => build.scoreboard.scopes = before.scoreboard.scopes)
        (final_runScoped_numbers restores inside).2.1 fun _ _ _ scopes => ih.trans scopes

theorem boundaries_eq_cons (run : Runner) (steps : Nat) (build : Build) :
    ∃ rest, boundaries run steps build = build.scoreboard.nextTemporary :: rest := by
  cases steps <;> exact ⟨_, rfl⟩

/-- Temporaries are asked for with numbers from the one at the start of the list on. The numbers between
statements do not decrease, what a statement keeps are those between the boundaries around it, and no
later one asks for them. -/
theorem UpcomingAccount.keeps_apart (restores : RestoresNumbers run) (bounds : BoundsRequests lists)
    (accounts : UpcomingAccount run lists steps before account) :
    (∀ deeds ∈ account, Deed.AtLeast before.scoreboard.nextTemporary deeds) ∧
      (account.Pairwise fun earlier later =>
        ∀ name, Deed.Keeps name earlier → ∀ deed ∈ later, ¬deed.Requests name) ∧
      (boundaries run steps before).IsChain (· ≤ ·) ∧
      Forall₂ Deed.KeepsBetween account
        ((boundaries run steps before).zip (boundaries run steps before).tail) := by
  induction accounts with
  | stop build => exact ⟨by simp, .nil, .singleton _, .nil⟩
  | ended upcoming =>
    simp only [boundaries, upcoming]
    exact ⟨by simp, .nil, .singleton _, .nil⟩
  | @succeeded steps before after statement rest deeds account upcoming inside ran later ih =>
    obtain ⟨number_le, -, kept⟩ := final_runScoped_numbers restores inside
    rw [final_of_ok ran] at number_le kept
    have first := inside.atLeast restores bounds
    obtain ⟨requested, apart, chain, between⟩ := ih
    simp only [boundaries, upcoming, ran]
    obtain ⟨numbers, starts⟩ := boundaries_eq_cons run steps after
    rw [starts] at chain between ⊢
    refine ⟨forall_mem_cons.2 ⟨first, fun deeds mem => (requested deeds mem).mono number_le⟩,
      .cons (fun deeds mem name keeps deed mem_deeds requests => ?_) apart,
      .cons_cons number_le chain, .cons kept between⟩
    obtain ⟨index, -, index_lt, rfl⟩ := (kept name).1 keeps
    obtain ⟨other, le_other, named⟩ := requested deeds mem deed mem_deeds _ requests
    have same := temporaryObjective_inj.1 named
    omega
  | failed upcoming inside ran =>
    obtain ⟨number_le, -, kept⟩ := final_runScoped_numbers restores inside
    rw [final_of_error ran] at number_le kept
    have first := inside.atLeast restores bounds
    simp only [boundaries, upcoming, ran]
    exact ⟨forall_mem_singleton.2 first, pairwise_singleton _ _,
      .cons_cons number_le (.singleton _), .cons kept .nil⟩

end Around

/-! Lists at every depth. -/

theorem exists_sectionAccount (depth : Nat) (statements : List Statement) (before : Build) :
    ∃ account, SectionAccount depth statements before account := by
  induction depth generalizing statements before with
  | zero => exact ⟨[], rfl⟩
  | succ depth ih => exact exists_upcomingAccount (runSection depth) ih _ _

theorem restoresNumbers_runSection (depth : Nat) : RestoresNumbers (runSection depth) := by
  induction depth with
  | zero => exact fun _ _ => .of_board rfl
  | succ depth ih =>
    intro statements outer
    unfold runSection
    rw [final_bind_of_ok (get_apply outer), final_bind_of_ok (set_apply _ outer), final_always]
    unfold Build.SameNumbers
    rw [popScope, final_runUpcoming_scopes ih (exists_sectionAccount depth)]
    exact ⟨rfl, rfl⟩

theorem boundsRequests_sectionAccount (depth : Nat) : BoundsRequests (SectionAccount depth) := by
  induction depth with
  | zero =>
    intro statements before account accounts
    cases accounts
    exact fun _ mem => absurd mem not_mem_nil
  | succ depth ih =>
    intro statements before account accounts
    exact (UpcomingAccount.keeps_apart (restoresNumbers_runSection depth) ih accounts).1

/-- The upcoming statements have an account. In every account, what a statement keeps are the
temporaries with numbers between the boundaries around it, and no later statement asks for them, nor
does any list that a later statement runs; from boundary to boundary the number does not decrease; and
a list that is run in place leaves the number and the scopes as they were, also when it fails. -/
theorem kept_temporaries_stay_taken (depth steps : Nat) (before : Build) :
    (∃ account, UpcomingAccount (runSection depth) (SectionAccount depth) steps before account) ∧
      (∀ account, UpcomingAccount (runSection depth) (SectionAccount depth) steps before account →
        List.Forall₂ Deed.KeepsBetween account
            ((boundaries (runSection depth) steps before).zip
              (boundaries (runSection depth) steps before).tail) ∧
          account.Pairwise fun earlier later =>
            ∀ name, Deed.Keeps name earlier → ∀ deed ∈ later, ¬deed.Requests name) ∧
      (boundaries (runSection depth) steps before).Pairwise (· ≤ ·) ∧
      ∀ statements, before.SameNumbers (final (runSection depth statements) before) := by
  have restores := restoresNumbers_runSection depth
  obtain ⟨account, accounts⟩ :=
    exists_upcomingAccount (runSection depth) (exists_sectionAccount depth) steps before
  have apart {account : List (List Deed)}
      (accounts : UpcomingAccount (runSection depth) (SectionAccount depth) steps before account) :=
    accounts.keeps_apart restores (boundsRequests_sectionAccount depth)
  refine ⟨⟨account, accounts⟩, fun account accounts => ?_, ?_, fun statements => ?_⟩
  · obtain ⟨-, pairwise, -, between⟩ := apart accounts
    exact ⟨between, pairwise⟩
  · exact isChain_iff_pairwise.1 (apart accounts).2.2.1
  · exact restores statements before

/-! A condition whose guard is computed, and statements after it that ask for temporaries, the last one
in lists of its own. -/

namespace Guarded

open Nested (statement)

def tripled : Statement :=
  statement .operation [.word "a", .assign none, .word "a", .arith .mul, .literal (.int 3)]

def start : Build :=
  { Build.forScript {} {} "main.mcc" with
    upcoming := [
      statement (.directive .define) [.word "a"],
      statement (.directive .condition)
        [.word "a", .arith .add, .literal (.int 1), .compare .gt, .literal (.int 2)],
      statement (.directive .say) [.literal (.text "x")],
      statement (.directive .repeatBody) [.literal (.int 2)],
      tripled] }

theorem boundaries_start : boundaries (runSection 1) 5 start = [0, 0, 2, 2, 2] := by
  decide +kernel

end Guarded

/-- The condition keeps two temporaries, which the lists after it do not ask for. -/
theorem kept_temporaries_stay_taken_guarded :
    ∃ define condition say repetition,
      UpcomingAccount (runSection 1) (SectionAccount 1) 5 Guarded.start
        [define, condition, say, repetition] ∧
      Deed.Keeps "_mcc_tmp0" condition ∧ Deed.Keeps "_mcc_tmp1" condition ∧
      ∀ deed ∈ repetition, ¬deed.Requests "_mcc_tmp0" ∧ ¬deed.Requests "_mcc_tmp1" := by
  obtain ⟨⟨account, accounts⟩, every, -, -⟩ := kept_temporaries_stay_taken 1 5 Guarded.start
  obtain ⟨between, apart⟩ := every account accounts
  rw [Guarded.boundaries_start] at between
  obtain _ | @⟨define, _, _, _, -, _ | @⟨condition, _, _, _, kept, _ | @⟨say, _, _, _, -,
    _ | @⟨repetition, _, _, _, -, ⟨⟩⟩⟩⟩⟩ := between
  have first : Deed.Keeps "_mcc_tmp0" condition := (kept _).2 ⟨0, le_rfl, Nat.zero_lt_two, rfl⟩
  have second : Deed.Keeps "_mcc_tmp1" condition := (kept _).2 ⟨1, zero_le_one, Nat.one_lt_two, rfl⟩
  have later : ∀ name, Deed.Keeps name condition → ∀ deed ∈ repetition, ¬deed.Requests name :=
    (pairwise_cons.1 (pairwise_cons.1 apart).2).1 repetition (by simp)
  exact ⟨define, condition, say, repetition, accounts, first, second,
    fun deed mem => ⟨later _ first deed mem, later _ second deed mem⟩⟩

end ScriptPack
