import CourseRegistration.Proofs.Reporting

/-!
# When a window is open

A window is given in whole milliseconds, an instant in nanoseconds, and the instant counts as the
millisecond that it falls into.  That is the one it has reached, before 1970 as well as after, so
both ends of a window come out as exact bounds on nanoseconds (`windowOpen_iff`): the window opens
with the first nanosecond of the millisecond after its start, and closes with the first nanosecond
of the millisecond one hour after its start.

Starts are any 64-bit words, and for the last ones an hour later is no such word any more.  The end
is only added up for instants after the start, though, and no instant of the calendar comes as late
as that.  `windowOpen?` makes the order of evaluation visible, with `none` for a sum that does not
fit its word; it never is `none`, and it agrees with `windowOpen` (`windowOpen?_eq`).

Outside the window a student's own requests end before anything else about them is looked at.  The
main statement is `window_exact`.
-/

namespace CourseRegistration

open Check

/-! ## Milliseconds -/

namespace Instant

/-- Every instant falls into a millisecond that has a word. -/
lemma toInt_milliseconds (t : Instant) : t.milliseconds.toInt = t.nanoseconds / 1000000 := by
  have hfirst := t.first_le
  have hlast := t.le_last
  exact Int64.toInt_ofInt_of_le (by omega) (by omega)

/-- An hour after the millisecond of an instant still has a word. -/
lemma milliseconds_add_hour_le (t : Instant) :
    t.milliseconds.toInt + 3600000 ≤ Int64.maxValue.toInt := by
  have hmax : Int64.maxValue.toInt = 9223372036854775807 := rfl
  have hlast := t.le_last
  rw [toInt_milliseconds, hmax]
  omega

lemma lt_milliseconds_iff {t : Instant} {n : Int64} :
    n < t.milliseconds ↔ (n.toInt + 1) * 1000000 ≤ t.nanoseconds := by
  rw [Int64.lt_iff_toInt_lt, toInt_milliseconds, ← Int.add_one_le_iff,
    Int.le_ediv_iff_mul_le (by decide)]

lemma milliseconds_lt_iff {t : Instant} {n : Int64} :
    t.milliseconds < n ↔ t.nanoseconds < n.toInt * 1000000 := by
  rw [Int64.lt_iff_toInt_lt, toInt_milliseconds, Int.ediv_lt_iff_lt_mul (by decide)]

end Instant

/-! ## The window -/

variable {start : Int64} {now : Instant}

/-- The millisecond that comes `n` milliseconds after `m`, if it fits its word. -/
def millisecondsAfter? (m n : Int64) : Option Int64 :=
  if Int64.minValue.toInt ≤ m.toInt + n.toInt ∧ m.toInt + n.toInt ≤ Int64.maxValue.toInt then
    some (m + n)
  else none

/-- Whether the window that starts at millisecond `start` is open, evaluated from left to right: its
end is added up for an instant after its start only. -/
def windowOpen? (start : Int64) (now : Instant) : Option Bool :=
  if start < now.milliseconds then
    (millisecondsAfter? start windowLength).map fun finish => decide (now.milliseconds < finish)
  else some false

lemma toInt_windowLength : windowLength.toInt = 3600000 :=
  rfl

/-- A window that starts before an instant of the calendar has an end. -/
lemma windowEnd_fits (started : start < now.milliseconds) :
    Int64.minValue.toInt ≤ start.toInt + windowLength.toInt ∧
      start.toInt + windowLength.toInt ≤ Int64.maxValue.toInt := by
  have hmin : Int64.minValue.toInt ≤ start.toInt := Int64.minValue_le_toInt start
  have hbefore := Int64.lt_iff_toInt_lt.1 started
  have hlast := now.milliseconds_add_hour_le
  rw [toInt_windowLength]
  omega

lemma toInt_windowEnd (started : start < now.milliseconds) :
    (start + windowLength).toInt = start.toInt + 3600000 := by
  have hmin : Int64.minValue.toInt = -9223372036854775808 := rfl
  have hmax : Int64.maxValue.toInt = 9223372036854775807 := rfl
  obtain ⟨hlow, hhigh⟩ := windowEnd_fits started
  rw [toInt_windowLength, hmin] at hlow
  rw [toInt_windowLength, hmax] at hhigh
  rw [Int64.toInt_add, toInt_windowLength]
  exact Int.bmod_eq_of_le (by omega) (by omega)

/-- **The end of a window is never added up where it does not fit its word.** -/
theorem windowOpen?_eq (start : Int64) (now : Instant) :
    windowOpen? start now = some (windowOpen start now) := by
  unfold windowOpen? windowOpen
  split_ifs with started
  · rw [millisecondsAfter?, if_pos (windowEnd_fits started), Option.map_some,
      decide_eq_true started, Bool.true_and]
  · rw [decide_eq_false started, Bool.false_and]

/-- The window with the last of all starts has no end, and is closed all the same. -/
example : millisecondsAfter? Int64.maxValue windowLength = none ∧
    windowOpen? Int64.maxValue .epoch = some false := by decide

/-- **The window is open from the millisecond after its start up to one hour after its start.** -/
theorem windowOpen_iff : windowOpen start now = true ↔
    (start.toInt + 1) * 1000000 ≤ now.nanoseconds ∧
      now.nanoseconds < (start.toInt + 3600000) * 1000000 := by
  rw [windowOpen, Bool.and_eq_true, decide_eq_true_iff, decide_eq_true_iff,
    ← Instant.lt_milliseconds_iff]
  refine and_congr_right fun started => ?_
  rw [Instant.milliseconds_lt_iff, toInt_windowEnd started]

/-! ## Requests outside the window -/

/-- The student who makes the request on their own account; the others are made by staff. -/
def Request.applicant? : Request → Option StudentId
  | .enroll id _ | .drop id _ | .switchGroup id _ => some id
  | .staffEnroll .. | .staffDrop .. | .resize .. => none

namespace Office

variable {o : Office} {request : Request} {id : StudentId} {student : Student}

/-- The window is the first thing that is looked at. -/
lemma decide_of_closed (own : request.applicant? = some id)
    (known : o.registry.students.get? id = some student)
    (closed : student.windowOpen o.clock = false) :
    o.decide request = .error (.failed .outsideWindow []) := by
  have hstudent : o.registry.student id = .ok student := Registry.student_eq_ok.2 known
  cases request with
  | enroll id' key =>
    obtain rfl := Option.some.inj own
    simp only [Office.decide, Registry.enroll, hstudent, ok_bind, closed]
    rfl
  | drop id' course =>
    obtain rfl := Option.some.inj own
    simp only [Office.decide, Registry.drop, hstudent, ok_bind, closed]
    rfl
  | switchGroup id' key =>
    obtain rfl := Option.some.inj own
    simp only [Office.decide, Registry.switchGroup, hstudent, ok_bind, closed]
    rfl
  | staffEnroll | staffDrop | resize => cases own

/-- A request that is refused without a note leaves nothing behind but the report of its failure. -/
lemma handle_of_refused (cancelled : Bool) {cause : Failure} (found : ¬ o.Misses request)
    (h : o.decide request = .error (.failed cause [])) :
    o.handle cancelled request =
      (⟨.failed cause, [], [], [.failed request.action request.subject cause]⟩, o) := by
  rw [handle_reported cancelled found, h]
  rfl

lemma not_misses_of_applicant (own : request.applicant? = some id) : ¬ o.Misses request := by
  rintro ⟨key, capacity, rfl, -⟩
  cases own

/-- **An enrollment window is exact to the nanosecond, and no sum in it overflows.**  Whether it is
open can always be told, and it is open exactly from the millisecond after its start up to one hour
after its start.  At any other time each of a student's own requests is refused for just that,
whatever else is wrong with it: nothing is offered to the journal and nothing changes. -/
theorem window_exact :
    (∀ (start : Int64) (now : Instant),
      windowOpen? start now = some (windowOpen start now) ∧
      (windowOpen start now = true ↔
        (start.toInt + 1) * 1000000 ≤ now.nanoseconds ∧
          now.nanoseconds < (start.toInt + 3600000) * 1000000)) ∧
    ∀ (o : Office) (cancelled : Bool) (request : Request) (id : StudentId) (student : Student),
      request.applicant? = some id → o.registry.students.get? id = some student →
      ¬ ((student.windowStart.toInt + 1) * 1000000 ≤ o.clock.nanoseconds ∧
        o.clock.nanoseconds < (student.windowStart.toInt + 3600000) * 1000000) →
      o.handle cancelled request =
        (⟨.failed .outsideWindow, [], [],
          [.failed request.action request.subject .outsideWindow]⟩, o) := by
  refine ⟨fun start now => ⟨windowOpen?_eq start now, windowOpen_iff⟩, ?_⟩
  intro o cancelled request id student own known outside
  have closed : student.windowOpen o.clock = false :=
    Bool.eq_false_iff.2 fun opened => outside (windowOpen_iff.1 opened)
  exact handle_of_refused cancelled (not_misses_of_applicant own)
    (decide_of_closed own known closed)

/-- The windows of the small registry open at the start of 1970.  One nanosecond earlier student 1
is not even told that there is no group 9, and one nanosecond after the last the course is not
dropped any more. -/
theorem window_exact_small :
    let early : Office := ⟨.small, ⟨-1, by decide, by decide⟩, .script .accepting⟩
    let late : Office := ⟨.small, ⟨3599999000000, by decide, by decide⟩, .script .accepting⟩
    early.handle true (.enroll ⟨1⟩ ⟨⟨100⟩, ⟨9⟩⟩) = (⟨.failed .outsideWindow, [], [],
      [.failed .enroll (.studentCourse ⟨1⟩ ⟨100⟩) .outsideWindow]⟩, early) ∧
    late.handle false (.drop ⟨1⟩ ⟨100⟩) = (⟨.failed .outsideWindow, [], [],
      [.failed .drop (.studentCourse ⟨1⟩ ⟨100⟩) .outsideWindow]⟩, late) ∧
    windowOpen (-1) ⟨0, by decide, by decide⟩ = true ∧
    windowOpen (-1) ⟨3599998999999, by decide, by decide⟩ = true := by
  intro early late
  obtain ⟨hours, closed⟩ := window_exact
  exact ⟨closed early true _ ⟨1⟩ _ rfl rfl (by decide),
    closed late false _ ⟨1⟩ _ rfl rfl (by decide),
    (hours _ _).2.2 (by decide), (hours _ _).2.2 (by decide)⟩

end Office

end CourseRegistration
