import ScriptPack.Proofs.Temporaries
import ScriptPack.Proofs.Replay
import ScriptPack.RawText.Interpolation

/-!
The scores that a message shows. Each counter in a text has a place of its own, by which the scores
that show a time are told apart. Main result: after the preparation every time is shown in minutes
and seconds, however many there are.
-/

namespace ScriptPack

open List Message Option TimeScores

/-! ## What a text shows -/

def RawTerm.score? : RawTerm → Option (String × String)
  | score target objective => some (target, objective)
  | _ => none

def Segment.counter? (board : Scoreboard) : Segment → Option Counter
  | counter accessor => board.get? (String.ofList accessor)
  | _ => none

/-- The targets and objectives of the scores that a counter is shown by. -/
def Counter.shownScores (counter : Counter) (target : String) (index : Nat) : List (String × String) :=
  (counter.display target index).filterMap RawTerm.score?

namespace Message

variable {board : Scoreboard} {target text : String}

/-- The counters that stand in a text, in order. -/
def shownCounters (board : Scoreboard) (text : String) : List Counter :=
  (Segment.ofText text.toList).filterMap (Segment.counter? board)

def shownScores (message : Message) : List (String × String) :=
  message.terms.filterMap RawTerm.score?

theorem setup_pushText (message : Message) (text : String) :
    (message.pushText text).setup = message.setup := by
  unfold pushText
  split <;> rfl

theorem shownScores_pushText (message : Message) (text : String) :
    (message.pushText text).shownScores = message.shownScores := by
  unfold pushText shownScores
  split
  · next last isLast =>
    obtain ⟨start, terms⟩ := getLast?_eq_some_iff.1 isLast
    simp [terms, filterMap_cons, RawTerm.score?]
  · simp [filterMap_cons, RawTerm.score?]

/-- Every counter adds its preparation and its scores, and nothing else does. -/
theorem pushAll_shows (message : Message) (index : Nat) (segments : List Segment) :
    let shown := (segments.filterMap (Segment.counter? board)).zipIdx index
    (message.pushAll board target index segments).setup = message.setup ++
        shown.flatMap (fun (counter, place) => counter.displaySetup target place) ∧
      (message.pushAll board target index segments).shownScores = message.shownScores ++
        shown.flatMap fun (counter, place) => counter.shownScores target place := by
  fun_induction pushAll board target index message segments with
  | case1 => simp
  | case2 index message c rest ih =>
    rwa [setup_pushText, shownScores_pushText] at ih
  | case3 index message selector rest terms ih =>
    simpa [shownScores, terms, filterMap_cons, Segment.counter?, RawTerm.score?] using ih
  | case4 index message accessor rest counter found ih =>
    simpa [shownScores, Counter.shownScores, filterMap_cons, Segment.counter?, found] using ih
  | case5 index message accessor rest missing text ih =>
    simpa [setup_pushText, shownScores_pushText, filterMap_cons, Segment.counter?, missing] using ih

theorem setup_ofText : (ofText board target text).setup = (shownCounters board text).zipIdx.flatMap
    fun (counter, place) => counter.displaySetup target place :=
  (pushAll_shows {} 0 _).1

end Message

/-! ## Times -/

namespace TimeScores

def mark : String := "_mcc_t_"

def names (shown : TimeScores) : List String :=
  [shown.minutes, shown.seconds, shown.rest, shown.unit]

/-- The scores show the time in minutes and the seconds beyond them. -/
def Show (shown : TimeScores) (time : Int) (scores : Scores) : Prop :=
  (scores shown.minutes).toInt = time / 1200 ∧ (scores shown.seconds).toInt = time / 20 % 60

variable {index other : Nat} {objective : String}

theorem mark_of_mem_names (member : objective ∈ (atPlace index).names) :
    mark.toList <+: objective.toList := by
  simp only [names, atPlace, mem_cons, not_mem_nil, or_false] at member
  rcases member with rfl | rfl | rfl | rfl <;> simp [mark]

theorem place_unique (member : objective ∈ (atPlace index).names)
    (again : objective ∈ (atPlace other).names) : index = other := by
  simp only [names, atPlace, mem_cons, not_mem_nil, or_false] at member again
  rcases member with rfl | rfl | rfl | rfl <;> rcases again with same | same | same | same <;>
    first
    | exact Text.toString_inj.1 ((String.append_right_inj _).1 same)
    | simpa using congrArg String.toList same

end TimeScores

/-- A time that is not negative and whose score is not named like those that show times. -/
structure Counter.IsShowable (scores : Scores) (counter : Counter) : Prop where
  apart : ¬mark.toList <+: counter.name.toList
  positive : 0 ≤ (scores counter.name).toInt

section

variable (calls : Calls) {scores : Scores}

/-- Preparing a counter changes only the scores of its place, which then show it if it is a time. -/
theorem exists_replay_display {counter : Counter} (index : Nat)
    (showable : counter.kind = .time → counter.IsShowable scores) :
    ∃ later, replayAll? calls (counter.displaySetup selfTarget index) scores = some later ∧
      (counter.kind = .time → (atPlace index).Show (scores counter.name).toInt later) ∧
      ∀ objective ∉ (atPlace index).names, later objective = scores objective := by
  unfold Counter.displaySetup
  split
  swap
  · next isOther => exact ⟨scores, rfl, fun isTime => absurd isTime isOther, fun _ _ => rfl⟩
  next isTime =>
  obtain ⟨unmarked, positive⟩ := showable isTime
  have apart : counter.name ∉ (atPlace index).names := mt mark_of_mem_names unmarked
  have distinct : (atPlace index).names.Nodup := by simp [names, atPlace]
  simp only [names, mem_cons, not_mem_nil, or_false, not_or, nodup_cons] at apart distinct ⊢
  obtain ⟨⟨minutesSeconds, minutesRest, minutesUnit⟩, ⟨secondsRest, secondsUnit⟩, restUnit, -⟩ := distinct
  have perSecond : ¬(20 : Int32) = 0 ∧ (20 : Int32).toInt = 20 := by decide
  have perMinute : ¬(60 : Int32) = 0 ∧ (60 : Int32).toInt = 60 := by decide
  -- the commands one by one: different names keep their scores
  simp only [TimeScores.Show, replayAll?, Command.replay?, ScoreOp.compute?, ArithOp.compute?, Scores.put,
    and_self, if_true, if_false, bind_some, map_some, apart, perSecond, perMinute,
    minutesSeconds, minutesRest, secondsRest, secondsUnit, restUnit, Ne.symm minutesSeconds,
    Ne.symm minutesRest, Ne.symm minutesUnit, Ne.symm secondsRest, Ne.symm restUnit, some.injEq,
    exists_eq_left']
  have greatest := (scores counter.name).toInt_lt
  generalize (scores counter.name).toInt = time at *
  have fits {value : Int} (low : 0 ≤ value) (high : value ≤ time) : (Int32.ofInt value).toInt = value :=
    Int32.toInt_ofInt_of_le (by omega) (by omega)
  have inSeconds : (Int32.ofInt (time / 20)).toInt = time / 20 := fits (by omega) (by omega)
  have inMinutes : (time / 20).tdiv 60 = time / 1200 := by
    rw [Int.tdiv_eq_ediv_of_nonneg (by omega)]
    omega
  have minutes : (Int32.ofInt (time / 1200)).toInt = time / 1200 := fits (by omega) (by omega)
  have whole : (Int32.ofInt (time / 1200 * 60)).toInt = time / 1200 * 60 := fits (by omega) (by omega)
  rw [Int.tdiv_eq_ediv_of_nonneg positive, inSeconds, inMinutes, minutes, whole,
    fits (by omega) (by omega)]
  refine ⟨fun _ => ⟨rfl, by omega⟩, ?_⟩
  rintro objective ⟨isMinutes, isSeconds, isRest, isUnit⟩
  simp only [isMinutes, isSeconds, isRest, isUnit, if_false]

/-- All counters of a text, from a place on. What one preparation leaves, the later ones keep. -/
theorem exists_replay_displays {counters : List Counter} (index : Nat)
    (showable : ∀ counter ∈ counters, counter.kind = .time → counter.IsShowable scores) :
    ∃ final, replayAll? calls ((counters.zipIdx index).flatMap fun (counter, place) =>
        counter.displaySetup selfTarget place) scores = some final ∧
      (∀ counter place, (counter, place) ∈ counters.zipIdx index → counter.kind = .time →
        (atPlace place).Show (scores counter.name).toInt final) ∧
      ∀ objective, (∀ place ≥ index, objective ∉ (atPlace place).names) →
        final objective = scores objective := by
  induction counters generalizing scores index with
  | nil => exact ⟨scores, rfl, nofun, fun _ _ => rfl⟩
  | cons counter rest ih =>
    obtain ⟨first, others⟩ := forall_mem_cons.1 showable
    obtain ⟨middle, prepared, shows, same⟩ := exists_replay_display calls index first
    have kept {other : Counter} (isShowable : other.IsShowable scores) :
        middle other.name = scores other.name :=
      same other.name (mt mark_of_mem_names isShowable.apart)
    obtain ⟨final, replayed, shown, unchanged⟩ := @ih middle (index + 1) fun other member isTime => by
      have isShowable := others other member isTime
      exact ⟨isShowable.apart, kept isShowable ▸ isShowable.positive⟩
    refine ⟨final, ?_, fun other place member isTime => ?_, fun objective apart => ?_⟩
    · rw [zipIdx_cons, flatMap_cons, replayAll?_append, prepared, bind_some, replayed]
    · rw [zipIdx_cons] at member
      obtain same | later := mem_cons.1 member
      · cases same
        have left {objective : String} (isName : objective ∈ (atPlace index).names) :
            final objective = middle objective :=
          unchanged objective fun place later again => by
            have := place_unique isName again
            omega
        rw [TimeScores.Show, left (by simp [names]), left (by simp [names])]
        exact shows isTime
      · rw [← kept (others other (fst_mem_of_mem_zipIdx later) isTime)]
        exact shown other place later isTime
    · rw [unchanged objective fun place later => apart place (by omega),
        same objective (apart index le_rfl)]

end

/-- However many counters a text shows, each has scores of its own place in it; once the preparation
has been replayed, those of a time are its minutes and seconds, and no other scores have changed. -/
theorem times_shown_in_minutes {board : Scoreboard} {text : String} {scores : Scores} (calls : Calls)
    (showable : ∀ counter ∈ shownCounters board text, counter.kind = .time →
      counter.IsShowable scores) :
    let message := ofText board selfTarget text
    let shown := (shownCounters board text).zipIdx
    message.shownScores =
        shown.flatMap (fun (counter, place) => counter.shownScores selfTarget place) ∧
      ∃ final, replayAll? calls message.setup scores = some final ∧
        (∀ counter place, (counter, place) ∈ shown → counter.kind = .time →
          counter.shownScores selfTarget place =
            [(selfTarget, (atPlace place).minutes), (selfTarget, (atPlace place).seconds)] ∧
          (atPlace place).Show (scores counter.name).toInt final) ∧
        ∀ objective, ¬mark.toList <+: objective.toList →
          final objective = scores objective := by
  intro message shown
  obtain ⟨final, replayed, shows, unchanged⟩ := exists_replay_displays calls 0 showable
  refine ⟨(pushAll_shows {} 0 _).2, final, ?_, fun counter place member isTime => ?_, ?_⟩
  · rw [setup_ofText, replayed]
  · refine ⟨?_, shows counter place member isTime⟩
    simp [Counter.shownScores, Counter.display, Counter.displayOf, isTime, filterMap_cons, RawTerm.score?]
  · exact fun objective apart => unchanged objective fun _ _ => mt mark_of_mem_names apart

namespace Clock

def board : Scoreboard :=
  (Scoreboard.addCounter {} ⟨"timer", .time⟩).addCounter ⟨"d", .decimal 1⟩

def text : String := "\x7btimer\x7d, \x7bd\x7d, \x7btimer\x7d"

end Clock

/-- Two minutes and five seconds are shown twice. -/
theorem times_shown_in_minutes_twice :
    let message := ofText Clock.board selfTarget Clock.text
    ∃ final, replayAll? (fun _ _ => none) message.setup (fun _ => 2500) = some final ∧
      (atPlace 0).Show 2500 final ∧ (final "_mcc_t_mins2").toInt = 2 ∧
        (final "_mcc_t_secs2").toInt = 5 := by
  have shown : shownCounters Clock.board Clock.text =
      [⟨"timer", .time⟩, ⟨"d", .decimal 1⟩, ⟨"timer", .time⟩] := by decide +kernel
  have timer : Counter.IsShowable (fun _ => 2500) ⟨"timer", .time⟩ := ⟨by decide, by decide⟩
  obtain ⟨-, final, replayed, shows, -⟩ := @times_shown_in_minutes Clock.board Clock.text
    (fun _ => 2500) (fun _ _ => none) (by simp [shown, timer])
  rw [shown] at shows
  exact ⟨final, replayed, (shows ⟨"timer", .time⟩ 0 (by simp) rfl).2,
    (shows ⟨"timer", .time⟩ 2 (by simp) rfl).2⟩

end ScriptPack
