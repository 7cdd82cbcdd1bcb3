import Portfolio.IssueStats.IssueService

/-!
# Daily statistics

`StatsService.aggregateDailyStats` and the nightly job of `StatsScheduler` (`backend/node.js`).
Instants are milliseconds from the start of 1970 in UTC, and the server's clock is `offset` ahead of
them. A string that has a date and no time stands for that date: `new Date` reads it in UTC, `setHours`
and `setDate` work on local time, and `toISOString` is in UTC again.
-/

namespace Portfolio.IssueStats

def msPerHour : Int := 3600000

def msPerDay : Int := 86400000

/-! ### `Date` -/

section
variable (offset : Int)

/-- The local day in which an instant lies. -/
def localDay (t : Int) : Int := (t + offset) / msPerDay

def localDate (t : Int) : CivilDate := ofDays (localDay offset t)

def getDate (t : Int) : Int := (localDate offset t).day

def setDate (t day : Int) : Int :=
  makeDay (localDate offset t).year (localDate offset t).month day * msPerDay + (t + offset) % msPerDay -
    offset

def setHours (t hours minutes seconds ms : Int) : Int :=
  localDay offset t * msPerDay + hours * msPerHour + minutes * 60000 + seconds * 1000 + ms - offset

end

/-- `new Date(date)` -/
def parseDate (date : CivilDate) : Int := date.toDays * msPerDay

/-- `toISOString().split('T')[0]` -/
def isoDate (t : Int) : CivilDate := ofDays (t / msPerDay)

/-! ### `aggregateDailyStats` -/

section
variable (offset : Int) (date : CivilDate)

def startOfDay : Int := setHours offset (parseDate date) 0 0 0 0

def endOfDay : Int := setHours offset (parseDate date) 23 59 59 999

/-- `gte: startOfDay, lte: endOfDay` -/
def InDay (t : Int) : Prop := startOfDay offset date ≤ t ∧ t ≤ endOfDay offset date

instance (t : Int) : Decidable (InDay offset date t) := inferInstanceAs (Decidable (_ ∧ _))

end

/-- `in: ['RESOLVED', 'CLOSED']` -/
def IssueStatus.IsResolved (status : IssueStatus) : Prop := status = .resolved ∨ status = .closed

instance (status : IssueStatus) : Decidable status.IsResolved := inferInstanceAs (Decidable (_ ∨ _))

namespace Database

/-- `issue.count` -/
def countIssues (db : Database) (p : Issue → Prop) [DecidablePred p] : Nat :=
  db.issues.entries.countP fun e => p e.2

def dailyStats (db : Database) (offset : Int) (date : CivilDate) : DailyIssueStats where
  createdCount := db.countIssues fun issue => InDay offset date issue.createdAt
  resolvedCount := db.countIssues fun issue => InDay offset date issue.updatedAt ∧ issue.status.IsResolved
  commentCount := db.comments.countP fun comment => InDay offset date comment.createdAt

def aggregateDailyStats (db : Database) (offset : Int) (date : CivilDate) : Database :=
  { db with dailyIssueStats := db.dailyIssueStats.insert date (db.dailyStats offset date) }

/-- The job, which cron starts at `now`. -/
def handleDailyStatsAggregation (db : Database) (offset now : Int) : Database :=
  let yesterday := setDate offset now (getDate offset now - 1)
  db.aggregateDailyStats offset (isoDate yesterday)

end Database

/-! ### Days and their instants -/

variable {offset : Int} {date : CivilDate}

theorem localDate_eq_iff {t : Int} : localDate offset t = date ↔ localDay offset t = date.toDays := by
  constructor
  · rintro rfl
    exact (toDays_ofDays _).symm
  · intro h
    rw [localDate, h, ofDays_toDays]

/-- The day of the month can go below 1. -/
theorem setDate_getDate_sub (t n : Int) : setDate offset t (getDate offset t - n) = t - n * msPerDay := by
  have hday : makeDay (localDate offset t).year (localDate offset t).month (getDate offset t - n) =
      localDay offset t - n := by
    rw [Int.sub_eq_add_neg, makeDay_add, getDate, ← CivilDate.toDays, localDate, toDays_ofDays,
      ← Int.sub_eq_add_neg]
  rw [setDate, hday, localDay, msPerDay]
  omega

/-- The instants between the two bounds are one local day. -/
theorem inDay_iff_localDay {t : Int} :
    InDay offset date t ↔ localDay offset t = localDay offset (parseDate date) := by
  simp only [InDay, startOfDay, endOfDay, setHours, msPerHour]
  generalize localDay offset (parseDate date) = day
  rw [localDay, msPerDay]
  omega

/-- East of Greenwich midnight in UTC falls on the date, west of it on the day before. -/
theorem localDay_parseDate (date : CivilDate) (hmin : -msPerDay ≤ offset) (hmax : offset < msPerDay) :
    localDay offset (parseDate date) = if 0 ≤ offset then date.toDays else date.toDays - 1 := by
  rw [localDay, parseDate]
  rw [msPerDay] at hmin hmax ⊢
  split <;> omega

end Portfolio.IssueStats
