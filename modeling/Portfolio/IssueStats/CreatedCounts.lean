import Mathlib.Algebra.BigOperators.Group.List.Basic
import Portfolio.IssueStats.StatsService

/-!
# Issues created on a day

The nightly job at 03:00 local time. The date that it finds for yesterday is the UTC date 24 hours
earlier, and the day that `aggregateDailyStats` makes of a date is the local day in which that date
begins in UTC. Both are the day before the night just for offsets from 0 to 3 hours
(`createdCount_exact_iff`).
-/

namespace Portfolio.IssueStats

/-- 03:00 of the day after `day`. -/
def jobTime (offset day : Int) : Int := (day + 1) * msPerDay + 3 * msPerHour - offset

namespace Database

def createdOn (db : Database) (offset : Int) (date : CivilDate) : Nat :=
  db.countIssues fun issue => localDate offset issue.createdAt = date

/-- The row of a date after the job has run in the night after it. -/
def rowAfterJob (db : Database) (offset : Int) (date : CivilDate) : Option DailyIssueStats :=
  (db.handleDailyStatsAggregation offset (jobTime offset date.toDays)).dailyIssueStats.lookup date

theorem fresh_asOf {db : Database} {now : Int} :
    ∀ id ∈ (⟨db.issues.entries.filter fun e => e.2.createdAt ≤ now,
      db.issues.nodupKeys.sublist List.filter_sublist⟩ : AList fun _ : Int => Issue), id < db.nextId := by
  intro id hid
  exact db.fresh id ((List.filter_sublist.map Sigma.fst).mem hid)

/-- What there is of the issues at the time `now`. -/
def asOf (db : Database) (now : Int) : Database where
  issues := ⟨db.issues.entries.filter fun e => e.2.createdAt ≤ now,
    db.issues.nodupKeys.sublist List.filter_sublist⟩
  nextId := db.nextId
  fresh := fresh_asOf
  comments := db.comments.filter fun comment => comment.createdAt ≤ now

/-- The rows after `n` nights, the first of them after the day `first`. -/
def afterNights (db : Database) (offset first : Int) : Nat → AList fun _ : CivilDate => DailyIssueStats
  | 0 => ∅
  | n + 1 =>
    let now := jobTime offset (first + n)
    let found := { db.asOf now with dailyIssueStats := db.afterNights offset first n }
    (found.handleDailyStatsAggregation offset now).dailyIssueStats

end Database

/-- The row of each date has the issues of that local day, and the rows of consecutive nights have
each issue of their days once. -/
structure CountsDays (offset : Int) : Prop where
  row : ∀ (db : Database) (date : CivilDate),
    (db.rowAfterJob offset date).map (·.createdCount) = some (db.createdOn offset date)
  once : ∀ (db : Database) (first : Int) (n : Nat),
    ((db.afterNights offset first n).entries.map fun row => row.2.createdCount).sum =
      db.countIssues fun issue =>
        first ≤ localDay offset issue.createdAt ∧ localDay offset issue.createdAt < first + n

variable {offset : Int}

/-! ### The date and the day of a night -/

theorem lt_msPerDay (hmax : offset ≤ 14 * msPerHour) : offset < msPerDay := by
  rw [msPerHour] at hmax
  rw [msPerDay]
  omega

theorem le_of_le_three (hmax : offset ≤ 3 * msPerHour) : offset ≤ 14 * msPerHour := by
  rw [msPerHour] at hmax ⊢
  omega

theorem ge_of_nonneg (hmin : 0 ≤ offset) : -12 * msPerHour ≤ offset := by
  rw [msPerHour]
  omega

/-- The job goes back 24 hours and takes the date in UTC. -/
theorem yesterday_eq (hmin : -12 * msPerHour ≤ offset) (hmax : offset ≤ 14 * msPerHour) (day : Int) :
    isoDate (setDate offset (jobTime offset day) (getDate offset (jobTime offset day) - 1)) =
      ofDays (if offset ≤ 3 * msPerHour then day else day - 1) := by
  rw [setDate_getDate_sub, isoDate, jobTime]
  rw [msPerHour] at hmin hmax
  rw [msPerDay, msPerHour]
  congr 1
  split <;> omega

/-- East of Greenwich a date counts its own day. -/
theorem inDay_iff_localDate {date : CivilDate} (hmin : 0 ≤ offset) (hmax : offset < msPerDay) {t : Int} :
    InDay offset date t ↔ localDate offset t = date := by
  have hday := localDay_parseDate date (by rw [msPerDay]; omega) hmax
  rw [if_pos hmin] at hday
  rw [inDay_iff_localDay, hday, localDate_eq_iff]

namespace Database
variable (db : Database)

theorem aggregateDailyStats_rows (date : CivilDate) :
    (db.aggregateDailyStats offset date).dailyIssueStats =
      db.dailyIssueStats.insert date (db.dailyStats offset date) := rfl

theorem handleDailyStatsAggregation_eq (hmin : -12 * msPerHour ≤ offset) (hmax : offset ≤ 14 * msPerHour)
    (day : Int) :
    db.handleDailyStatsAggregation offset (jobTime offset day) =
      db.aggregateDailyStats offset (ofDays (if offset ≤ 3 * msPerHour then day else day - 1)) := by
  rw [handleDailyStatsAggregation, ← yesterday_eq hmin hmax]

theorem createdCount_eq (date : CivilDate) :
    (db.dailyStats offset date).createdCount =
      db.countIssues fun issue => InDay offset date issue.createdAt := rfl

theorem createdCount_dailyStats (hmin : 0 ≤ offset) (hmax : offset < msPerDay) (date : CivilDate) :
    (db.dailyStats offset date).createdCount = db.createdOn offset date := by
  refine List.countP_congr fun e _ => ?_
  rw [decide_eq_true_eq, decide_eq_true_eq]
  exact inDay_iff_localDate hmin hmax

/-! ### One night -/

theorem rowAfterJob_of_le (hmin : -12 * msPerHour ≤ offset) (hthree : offset ≤ 3 * msPerHour)
    (date : CivilDate) : db.rowAfterJob offset date = some (db.dailyStats offset date) := by
  rw [rowAfterJob, handleDailyStatsAggregation_eq _ hmin (le_of_le_three hthree), if_pos hthree,
    ofDays_toDays, aggregateDailyStats_rows, AList.lookup_insert]

/-- Farther east the job writes the row of another date. -/
theorem rowAfterJob_of_gt (hmin : -12 * msPerHour ≤ offset) (hmax : offset ≤ 14 * msPerHour)
    (hlate : ¬ offset ≤ 3 * msPerHour) (date : CivilDate) :
    db.rowAfterJob offset date = db.dailyIssueStats.lookup date := by
  have hother : date ≠ ofDays (date.toDays - 1) := by
    intro heq
    have hdays := congrArg CivilDate.toDays heq
    rw [toDays_ofDays] at hdays
    omega
  rw [rowAfterJob, handleDailyStatsAggregation_eq _ hmin hmax, if_neg hlate, aggregateDailyStats_rows,
    AList.lookup_insert_ne hother]

/-- Midnight at the beginning of a date. -/
def midnight (offset : Int) (date : CivilDate) : Int := date.toDays * msPerDay - offset

theorem localDate_midnight (offset : Int) (date : CivilDate) : localDate offset (midnight offset date) = date := by
  rw [localDate_eq_iff, localDay, midnight, msPerDay]
  omega

/-- West of Greenwich a date counts the day before. -/
theorem not_inDay_midnight (hmin : -msPerDay ≤ offset) (hneg : offset < 0) (date : CivilDate) :
    ¬ InDay offset date (midnight offset date) := by
  have hday := localDay_parseDate date hmin (by rw [msPerDay]; omega)
  rw [if_neg (Int.not_le.2 hneg)] at hday
  rw [inDay_iff_localDay, hday, localDay, midnight, msPerDay]
  omega

def issueAt (t : Int) : Issue where
  projectId := 1
  reporterId := 1
  assigneeId := none
  title := ""
  description := none
  createdAt := t
  updatedAt := t

/-- A database with one issue. -/
def single (t : Int) : Database := Database.empty.createIssue (issueAt t)

theorem countIssues_single (t : Int) (p : Issue → Prop) [DecidablePred p] :
    (single t).countIssues p = if p (issueAt t) then 1 else 0 := by
  have hentries : (single t).issues.entries = [⟨1, issueAt t⟩] := rfl
  rw [countIssues, hentries, List.countP_singleton]
  simp only [decide_eq_true_eq]

theorem row_iff (hmin : -12 * msPerHour ≤ offset) (hmax : offset ≤ 14 * msPerHour) (date : CivilDate) :
    (∀ db : Database, (db.rowAfterJob offset date).map (·.createdCount) = some (db.createdOn offset date)) ↔
      0 ≤ offset ∧ offset ≤ 3 * msPerHour := by
  constructor
  · intro h
    have hthree : offset ≤ 3 * msPerHour := by
      by_contra hlate
      have hrow := h Database.empty
      rw [rowAfterJob_of_gt _ hmin hmax hlate] at hrow
      cases hrow
    refine ⟨?_, hthree⟩
    by_contra hneg
    have hminDay : -msPerDay ≤ offset := by
      rw [msPerHour] at hmin
      rw [msPerDay]
      omega
    have hrow := h (single (midnight offset date))
    have hin : localDate offset (issueAt (midnight offset date)).createdAt = date :=
      localDate_midnight offset date
    have hout : ¬ InDay offset date (issueAt (midnight offset date)).createdAt :=
      not_inDay_midnight hminDay (Int.not_le.1 hneg) date
    rw [rowAfterJob_of_le _ hmin hthree, Option.map_some, Option.some_inj, createdCount_eq, createdOn,
      countIssues_single, countIssues_single, if_neg hout, if_pos hin] at hrow
    exact absurd hrow Nat.zero_ne_one
  · rintro ⟨hnonneg, hthree⟩ db
    rw [rowAfterJob_of_le _ hmin hthree, Option.map_some,
      createdCount_dailyStats db hnonneg (lt_msPerDay hmax)]

/-! ### Consecutive nights -/

theorem afterNights_succ (hmin : 0 ≤ offset) (hmax : offset ≤ 3 * msPerHour) (first : Int) (n : Nat) :
    db.afterNights offset first (n + 1) =
      (db.afterNights offset first n).insert (ofDays (first + n))
        ((db.asOf (jobTime offset (first + n))).dailyStats offset (ofDays (first + n))) := by
  simp only [afterNights, handleDailyStatsAggregation_eq _ (ge_of_nonneg hmin) (le_of_le_three hmax),
    if_pos hmax, aggregateDailyStats_rows]
  rfl

/-- The nights so far have written rows for their days only. -/
theorem mem_afterNights (hmin : 0 ≤ offset) (hmax : offset ≤ 3 * msPerHour) {first : Int} {n : Nat}
    {date : CivilDate} (h : date ∈ db.afterNights offset first n) : date.toDays < first + n := by
  induction n with
  | zero => exact absurd h (AList.notMem_empty date)
  | succ n ih =>
    rw [afterNights_succ db hmin hmax, AList.mem_insert] at h
    rcases h with rfl | h
    · rw [toDays_ofDays]
      omega
    · have := ih h
      omega

/-- The issues of a day are all there in the night after it. -/
theorem createdOn_asOf (offset : Int) (date : CivilDate) :
    (db.asOf (jobTime offset date.toDays)).createdOn offset date = db.createdOn offset date := by
  rw [createdOn, createdOn, countIssues, countIssues, asOf, List.countP_filter]
  refine List.countP_congr fun e _ => ?_
  simp only [Bool.and_eq_true, decide_eq_true_eq, and_iff_left_iff_imp]
  intro hdate
  rw [localDate_eq_iff, localDay] at hdate
  rw [jobTime, msPerHour]
  rw [msPerDay] at hdate ⊢
  omega

theorem countIssues_or {p q : Issue → Prop} [DecidablePred p] [DecidablePred q]
    (hdisjoint : ∀ issue, p issue → ¬ q issue) :
    (db.countIssues fun issue => p issue ∨ q issue) = db.countIssues p + db.countIssues q := by
  simp only [countIssues]
  induction db.issues.entries with
  | nil => rfl
  | cons e entries ih =>
    rw [List.countP_cons, List.countP_cons, List.countP_cons, ih]
    by_cases hp : p e.2
    · simp [hp, hdisjoint e.2 hp]
      omega
    · simp [hp]
      omega

theorem sum_afterNights (hmin : 0 ≤ offset) (hmax : offset ≤ 3 * msPerHour) (first : Int) (n : Nat) :
    ((db.afterNights offset first n).entries.map fun row => row.2.createdCount).sum =
      db.countIssues fun issue =>
        first ≤ localDay offset issue.createdAt ∧ localDay offset issue.createdAt < first + n := by
  have hmaxDay := lt_msPerDay (le_of_le_three hmax)
  induction n with
  | zero =>
    refine (List.countP_eq_zero.2 fun e _ => ?_).symm
    rw [decide_eq_true_eq]
    omega
  | succ n ih =>
    have hnew : ofDays (first + n) ∉ db.afterNights offset first n := by
      intro hmem
      have hlt := mem_afterNights db hmin hmax hmem
      rw [toDays_ofDays] at hlt
      omega
    have hday := createdOn_asOf db offset (ofDays (first + n))
    rw [toDays_ofDays] at hday
    rw [afterNights_succ db hmin hmax, AList.entries_insert_of_notMem hnew, List.map_cons, List.sum_cons, ih,
      createdCount_dailyStats _ hmin hmaxDay, hday, createdOn, ← countIssues_or]
    · refine List.countP_congr fun e _ => ?_
      simp only [localDate_eq_iff, toDays_ofDays, decide_eq_true_eq]
      omega
    · intro issue hdate hrange
      rw [localDate_eq_iff, toDays_ofDays] at hdate
      omega

end Database

theorem createdCount_exact_iff (hmin : -12 * msPerHour ≤ offset) (hmax : offset ≤ 14 * msPerHour) :
    CountsDays offset ↔ 0 ≤ offset ∧ offset ≤ 3 * msPerHour := by
  constructor
  · intro h
    exact (Database.row_iff hmin hmax (ofDays 0)).1 fun db => h.row db (ofDays 0)
  · rintro ⟨hnonneg, hthree⟩
    refine ⟨fun db date => ?_, fun db first n => Database.sum_afterNights db hnonneg hthree first n⟩
    exact (Database.row_iff hmin hmax date).2 ⟨hnonneg, hthree⟩ db

theorem createdCount_exact_utc : CountsDays 0 :=
  (createdCount_exact_iff (by decide) (by decide)).2 ⟨by decide, by decide⟩

/-- In Seoul the job of 2025-01-31 writes the row of 2025-01-29. -/
theorem createdCount_seoul :
    ¬ ∀ offset : Int, -12 * msPerHour ≤ offset → offset ≤ 14 * msPerHour → CountsDays offset := by
  intro h
  have hrow := (h (9 * msPerHour) (by decide) (by decide)).row (Database.single 1738206000000)
    (ofDays 20118)
  revert hrow
  decide +kernel

end Portfolio.IssueStats
