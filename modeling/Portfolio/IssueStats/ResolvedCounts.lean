import Portfolio.IssueStats.StatsService
import Portfolio.Lib.Machine

/-!
# Issues resolved on a day

Histories of requests and aggregations. `aggregateDailyStats` takes an issue for resolved on a day
if it is resolved and has last been written on that day; the history itself knows on which day its
status has changed (`resolvedCount_iff`).
-/

namespace Portfolio.IssueStats

inductive Event where
  | request (now : Int) (found : Found) (request : IssueRequest)
  | aggregateDailyStats (date : CivilDate)

def Event.time : Event → Option Int
  | .request now _ _ => some now
  | .aggregateDailyStats _ => none

structure StatusChange where
  id : Int
  old : IssueStatus
  new : IssueStatus
  deriving DecidableEq, Repr

/-- The status of an issue before and after a write. -/
def statusChange (db db' : Database) (id : Int) : List StatusChange :=
  match db.issues.lookup id, db'.issues.lookup id with
  | some old, some new => [⟨id, old.status, new.status⟩]
  | _, _ => []

/-- A request that fails writes nothing. -/
def Database.step (offset : Int) (db : Database) : Event → Database × List StatusChange
  | .request now found request =>
    match db.handle found now request with
    | .error _ => (db, [])
    | .ok db' => (db', request.updated.toList.flatMap (statusChange db db'))
  | .aggregateDailyStats date => (db.aggregateDailyStats offset date, [])

def history (offset : Int) : Machine Database Event StatusChange := ⟨Database.empty, Database.step offset⟩

/-- The database after a history that starts with `db`, and the changes of status in it. -/
def runFrom (offset : Int) (db : Database) (events : List Event) : Database × List StatusChange :=
  ((history offset).startAt db).run events

namespace Database

def Resolved (db : Database) (id : Int) : Prop := ∃ issue ∈ db.issues.lookup id, issue.status.IsResolved

/-- The event writes the row of an issue that is there. -/
def Writes (db : Database) (event : Event) (id : Int) : Prop :=
  ∃ now found request, event = .request now found request ∧ request.updated = some id ∧
    ∃ db', db.handle found now request = .ok db'

end Database

/-- The status of the issue has gone from an unresolved one to a resolved one. -/
def HasResolved (changes : List StatusChange) (id : Int) : Prop :=
  ∃ change ∈ changes, change.id = id ∧ ¬ change.old.IsResolved ∧ change.new.IsResolved

instance (changes : List StatusChange) (id : Int) : Decidable (HasResolved changes id) :=
  inferInstanceAs (Decidable (∃ change ∈ changes, _))

/-- The issues that have been resolved by one of the changes and still are. -/
def Database.resolvedBy (db : Database) (changes : List StatusChange) : Nat :=
  db.issues.entries.countP fun e => e.2.status.IsResolved ∧ HasResolved changes e.1

/-! ### One event -/

/-- What an event does to the row of one issue. -/
inductive RowStep (id : Int) (db : Database) (event : Event) :
    Option Issue → Option Issue → List StatusChange → Prop
  | kept {row : Option Issue} {changes : List StatusChange} (hwrites : ¬ db.Writes event id)
      (hchanges : ∀ change ∈ changes, change.id ≠ id) : RowStep id db event row row changes
  | created {issue : Issue} (hopen : issue.status = .open) (htime : event.time = some issue.updatedAt) :
      RowStep id db event none (some issue) []
  | updated {old new : Issue} (hwrites : db.Writes event id) (htime : event.time = some new.updatedAt) :
      RowStep id db event (some old) (some new) [⟨id, old.status, new.status⟩]
  | deleted {row : Option Issue} : RowStep id db event row none []

/-- A row has the time of the event, unless it is kept. -/
theorem RowStep.updatedAt {p : Int → Prop} {id : Int} {db : Database} {event : Event} {old : Option Issue}
    {issue : Issue} {changes : List StatusChange} (h : RowStep id db event old (some issue) changes)
    (hevent : ∀ t ∈ event.time, p t)
    (hkept : ¬ db.Writes event id → old = some issue → p issue.updatedAt) : p issue.updatedAt := by
  cases h with
  | kept hwrites => exact hkept hwrites rfl
  | created hopen htime => exact hevent _ htime
  | updated hwrites htime => exact hevent _ htime

namespace Database

theorem lookup_nextId (db : Database) : db.issues.lookup db.nextId = none := by
  rw [AList.lookup_eq_none]
  exact fun hmem => Int.lt_irrefl _ (db.fresh _ hmem)

theorem statusChange_eq {db db' : Database} {id : Int} {old new : Issue}
    (hold : db.issues.lookup id = some old) (hnew : db'.issues.lookup id = some new) :
    statusChange db db' id = [⟨id, old.status, new.status⟩] := by
  rw [statusChange, hold, hnew]

theorem id_of_mem_statusChange {db db' : Database} {id : Int} {change : StatusChange}
    (h : change ∈ statusChange db db' id) : change.id = id := by
  rw [statusChange] at h
  split at h
  · exact congrArg StatusChange.id (List.mem_singleton.1 h)
  · cases h

/-- A request that is not about the issue. -/
theorem rowStep_other {db db' : Database} {found : Found} {now id : Int} {request : IssueRequest}
    (hlookup : db'.issues.lookup id = db.issues.lookup id) (hupdated : request.updated ≠ some id) :
    RowStep id db (.request now found request) (db.issues.lookup id) (db'.issues.lookup id)
      (request.updated.toList.flatMap (statusChange db db')) := by
  rw [hlookup]
  refine .kept ?_ ?_
  · rintro ⟨_, _, _, hevent, hid, -⟩
    cases hevent
    exact hupdated hid
  · intro change hchange heq
    obtain ⟨id', hid', hchange⟩ := List.mem_flatMap.1 hchange
    rw [Option.mem_toList] at hid'
    rw [← heq, id_of_mem_statusChange hchange] at hupdated
    exact hupdated hid'

/-- A request that writes the row of an issue again. -/
theorem rowStep_insert {db db' : Database} {found : Found} {now id id' : Int} {request : IssueRequest}
    {old new : Issue} (hhandle : db.handle found now request = .ok db') (hrequest : request.updated = some id')
    (hold : db.issues.lookup id' = some old) (hnow : new.updatedAt = now)
    (hissues : db'.issues = db.issues.insert id' new) :
    RowStep id db (.request now found request) (db.issues.lookup id) (db'.issues.lookup id)
      (request.updated.toList.flatMap (statusChange db db')) := by
  by_cases hid : id = id'
  · subst hid
    have hnew : db'.issues.lookup id = some new := by rw [hissues, AList.lookup_insert]
    have hchanges : request.updated.toList.flatMap (statusChange db db') =
        [⟨id, old.status, new.status⟩] := by
      rw [hrequest, Option.toList_some, List.flatMap_singleton, statusChange_eq hold hnew]
    rw [hchanges, hold, hnew]
    exact .updated ⟨now, found, request, rfl, hrequest, db', hhandle⟩ (congrArg some hnow.symm)
  · refine rowStep_other ?_ ?_
    · rw [hissues, AList.lookup_insert_ne hid]
    · rw [hrequest]
      exact fun heq => hid (Option.some_inj.1 heq).symm

theorem rowStep (offset : Int) (db : Database) (event : Event) (id : Int) :
    RowStep id db event (db.issues.lookup id) ((db.step offset event).1.issues.lookup id)
      (db.step offset event).2 := by
  cases event with
  | aggregateDailyStats date =>
    refine .kept ?_ fun _ hchange => absurd hchange List.not_mem_nil
    rintro ⟨_, _, _, hevent, -⟩
    cases hevent
  | request now found request =>
    cases hhandle : db.handle found now request with
    | error error =>
      simp only [step, hhandle]
      refine .kept ?_ fun _ hchange => absurd hchange List.not_mem_nil
      rintro ⟨_, _, _, hevent, -, db', hok⟩
      cases hevent
      rw [hhandle] at hok
      cases hok
    | ok db' =>
      simp only [step, hhandle]
      have hwrote := wrote_of_handle hhandle
      obtain ⟨issues, hissues⟩ : ∃ issues, db'.issues = issues := ⟨_, rfl⟩
      rw [hissues] at hwrote
      cases hwrote with
      | created issue hopen hnow =>
        by_cases hid : id = db.nextId
        · rw [hid, db.lookup_nextId, hissues, AList.lookup_insert]
          exact .created hopen (congrArg some hnow.symm)
        · refine rowStep_other ?_ (by simp [IssueRequest.updated])
          rw [hissues, AList.lookup_insert_ne hid]
      | updated hissue => exact rowStep_insert hhandle (by rfl) hissue rfl hissues
      | viewed hissue hstatus hnow => exact rowStep_insert hhandle (by rfl) hissue hnow hissues
      | @deleted id' =>
        by_cases hid : id = id'
        · rw [hid, hissues, AList.lookup_erase]
          exact .deleted
        · refine rowStep_other ?_ (by simp [IssueRequest.updated])
          rw [hissues, AList.lookup_erase_ne hid]
      | commented =>
        refine rowStep_other ?_ (by simp [IssueRequest.updated])
        rw [hissues]

theorem Resolved.lookup {db : Database} {id : Int} {issue : Issue} (h : db.Resolved id)
    (hissue : db.issues.lookup id = some issue) : issue.status.IsResolved := by
  obtain ⟨issue', hissue', hresolved⟩ := h
  obtain rfl := Option.some_inj.1 (hissue.symm.trans hissue')
  exact hresolved

theorem Resolved.exists {db : Database} {id : Int} (h : db.Resolved id) :
    ∃ issue, db.issues.lookup id = some issue := by
  obtain ⟨issue, hissue, -⟩ := h
  exact ⟨issue, hissue⟩

end Database

theorem HasResolved.append_left {changes later : List StatusChange} {id : Int} (h : HasResolved changes id) :
    HasResolved (changes ++ later) id := by
  obtain ⟨change, hchange, hresolved⟩ := h
  exact ⟨change, List.mem_append_left later hchange, hresolved⟩

/-! ### Runs -/

section Runs
variable {offset : Int} {db : Database} {id : Int}

theorem runFrom_concat (events : List Event) (event : Event) (id : Int) :
    ∃ changes, (runFrom offset db (events ++ [event])).2 = (runFrom offset db events).2 ++ changes ∧
      RowStep id (runFrom offset db events).1 event ((runFrom offset db events).1.issues.lookup id)
        ((runFrom offset db (events ++ [event])).1.issues.lookup id) changes := by
  simp only [runFrom, Machine.run_concat]
  exact ⟨_, rfl, Database.rowStep offset _ event id⟩

/-- Every row has the time of the last write. -/
theorem updatedAt_runFrom {p : Int → Prop} {events : List Event}
    (hdb : ∀ id issue, db.issues.lookup id = some issue → p issue.updatedAt)
    (hevents : ∀ event ∈ events, ∀ t ∈ event.time, p t) {issue : Issue}
    (hissue : (runFrom offset db events).1.issues.lookup id = some issue) : p issue.updatedAt := by
  induction events using List.reverseRecOn generalizing issue with
  | nil => exact hdb id issue hissue
  | append_singleton events event ih =>
    have hevent := hevents event (List.mem_append_right _ (List.mem_singleton_self event))
    obtain ⟨changes, -, hstep⟩ := runFrom_concat events event id
    rw [hissue] at hstep
    exact hstep.updatedAt hevent fun _ hold => ih (fun e he => hevents e (List.mem_append_left _ he)) hold

/-- A row that is newer than the rows of `db` has been created since, or it has been written. -/
theorem absent_or_writes {p : Int → Prop} {events : List Event}
    (hdb : ∀ id issue, db.issues.lookup id = some issue → p issue.updatedAt) {issue : Issue}
    (hissue : (runFrom offset db events).1.issues.lookup id = some issue) (hnew : ¬ p issue.updatedAt) :
    (∃ moment, moment <+: events ∧ (runFrom offset db moment).1.issues.lookup id = none) ∨
      ∃ pre event post, events = pre ++ event :: post ∧ (runFrom offset db pre).1.Writes event id := by
  induction events using List.reverseRecOn generalizing issue with
  | nil => exact absurd (hdb id issue hissue) hnew
  | append_singleton events event ih =>
    obtain ⟨changes, -, hstep⟩ := runFrom_concat events event id
    generalize hold : (runFrom offset db events).1.issues.lookup id = old at hstep
    rw [hissue] at hstep
    cases hstep with
    | kept =>
      rcases ih hold hnew with ⟨moment, hmoment, hnone⟩ | ⟨pre, earlier, post, rfl, hwrites⟩
      · exact .inl ⟨moment, hmoment.trans (List.prefix_append ..), hnone⟩
      · exact .inr ⟨pre, earlier, post ++ [event], by simp, hwrites⟩
    | created => exact .inl ⟨events, List.prefix_append .., hold⟩
    | updated hwrites => exact .inr ⟨events, event, [], rfl, hwrites⟩

/-- A row that has been written has the time of that write or of a later one. -/
theorem updatedAt_of_writes {p : Int → Prop} {pre post : List Event} {event : Event}
    (hwrites : (runFrom offset db pre).1.Writes event id)
    (hevents : ∀ e ∈ event :: post, ∀ t ∈ e.time, p t) {issue : Issue}
    (hissue : (runFrom offset db (pre ++ event :: post)).1.issues.lookup id = some issue) :
    p issue.updatedAt := by
  induction post using List.reverseRecOn generalizing issue with
  | nil =>
    have hevent := hevents event List.mem_cons_self
    obtain ⟨changes, -, hstep⟩ := runFrom_concat pre event id
    rw [hissue] at hstep
    exact hstep.updatedAt hevent fun hnot _ => absurd hwrites hnot
  | append_singleton post last ih =>
    have hlast := hevents last (by simp)
    have hsplit : pre ++ event :: (post ++ [last]) = (pre ++ event :: post) ++ [last] := by simp
    rw [hsplit] at hissue
    obtain ⟨changes, -, hstep⟩ := runFrom_concat (pre ++ event :: post) last id
    rw [hissue] at hstep
    refine hstep.updatedAt hlast fun _ hold => ih (fun e he => hevents e ?_) hold
    exact List.mem_cons.2 ((List.mem_cons.1 he).imp_right (List.mem_append_left _))

/-- A status changes by a write to the row of an unresolved issue. -/
theorem HasResolved.writes {events : List Event} (h : HasResolved (runFrom offset db events).2 id) :
    ∃ pre event post, events = pre ++ event :: post ∧ (runFrom offset db pre).1.Writes event id ∧
      ¬ (runFrom offset db pre).1.Resolved id := by
  induction events using List.reverseRecOn with
  | nil =>
    obtain ⟨change, hchange, -⟩ := h
    cases hchange
  | append_singleton events event ih =>
    obtain ⟨changes, hout, hstep⟩ := runFrom_concat events event id
    obtain ⟨change, hchange, hid, hunresolved, hresolved⟩ := h
    rw [hout] at hchange
    rcases List.mem_append.1 hchange with hchange | hchange
    · obtain ⟨pre, earlier, post, rfl, hwrites, hnot⟩ := ih ⟨change, hchange, hid, hunresolved, hresolved⟩
      exact ⟨pre, earlier, post ++ [event], by simp, hwrites, hnot⟩
    · generalize hold : (runFrom offset db events).1.issues.lookup id = old at hstep
      generalize (runFrom offset db (events ++ [event])).1.issues.lookup id = new at hstep
      cases hstep with
      | kept hwrites hchanges => exact absurd hid (hchanges change hchange)
      | created => cases hchange
      | updated hwrites =>
        obtain rfl := List.mem_singleton.1 hchange
        exact ⟨events, event, [], rfl, hwrites, fun hres => hunresolved (hres.lookup hold)⟩
      | deleted => cases hchange

/-- An issue that is unresolved or not there and resolved later has changed in between: a new one is
open. -/
theorem hasResolved_of_later {pre rest : List Event} (hpre : ¬ (runFrom offset db pre).1.Resolved id)
    (h : (runFrom offset db (pre ++ rest)).1.Resolved id) :
    HasResolved (runFrom offset db (pre ++ rest)).2 id := by
  induction rest using List.reverseRecOn with
  | nil =>
    rw [List.append_nil] at h
    exact absurd h hpre
  | append_singleton rest event ih =>
    rw [← List.append_assoc] at h ⊢
    obtain ⟨changes, hout, hstep⟩ := runFrom_concat (pre ++ rest) event id
    rw [hout]
    by_cases hres : (runFrom offset db (pre ++ rest)).1.Resolved id
    · exact (ih hres).append_left
    · obtain ⟨issue, hissue, hresolved⟩ := h
      generalize hold : (runFrom offset db (pre ++ rest)).1.issues.lookup id = old at hstep
      rw [hissue] at hstep
      cases hstep with
      | kept => exact absurd ⟨issue, hold, hresolved⟩ hres
      | created hopen =>
        rw [hopen] at hresolved
        exact absurd hresolved (by decide)
      | updated =>
        refine ⟨_, List.mem_append_right _ (List.mem_singleton_self _), rfl, fun hunres => ?_, hresolved⟩
        exact hres ⟨_, hold, hunres⟩

end Runs

/-! ### The count -/

theorem countP_eq_iff {α : Type} {p q : α → Bool} {l : List α} (h : ∀ x ∈ l, q x → p x) :
    l.countP p = l.countP q ↔ ∀ x ∈ l, p x → q x := by
  induction l with
  | nil => simp
  | cons x l ih =>
    have hle : l.countP q ≤ l.countP p := List.countP_mono_left fun y hy => h y (List.mem_cons_of_mem x hy)
    have ih := ih fun y hy => h y (List.mem_cons_of_mem x hy)
    have hx := h x List.mem_cons_self
    rw [List.countP_cons, List.countP_cons, List.forall_mem_cons, ← ih]
    by_cases hp : p x
    · by_cases hq : q x
      · simp [hp, hq]
      · simp [hp, hq]
        omega
    · have hq : ¬ q x := fun hq => hp (hx hq)
      simp [hp, hq]

/-- The row that is made right after the day `date` counts the issues that have been resolved on it;
`before` are the events of the days before. -/
def CountsResolved (offset : Int) (date : CivilDate) (before during : List Event) : Prop :=
  let evening := runFrom offset (runFrom offset Database.empty before).1 during
  ((evening.1.aggregateDailyStats offset date).dailyIssueStats.lookup date).map (·.resolvedCount) =
    some (evening.1.resolvedBy evening.2)

theorem resolvedCount_eq (offset : Int) (db : Database) (date : CivilDate) :
    (db.dailyStats offset date).resolvedCount =
      db.countIssues fun issue => InDay offset date issue.updatedAt ∧ issue.status.IsResolved := rfl

/-- The row is right if the issues that it takes for resolved on the day are. -/
theorem countsResolved_iff {offset : Int} {date : CivilDate} {before during : List Event}
    (hduring : ∀ event ∈ during, ∀ t ∈ event.time, InDay offset date t) :
    CountsResolved offset date before during ↔
      ∀ id issue,
        (runFrom offset (runFrom offset Database.empty before).1 during).1.issues.lookup id = some issue →
        InDay offset date issue.updatedAt → issue.status.IsResolved →
        HasResolved (runFrom offset (runFrom offset Database.empty before).1 during).2 id := by
  simp only [CountsResolved]
  generalize (runFrom offset Database.empty before).1 = morning
  have hrow : ((runFrom offset morning during).1.aggregateDailyStats offset date).dailyIssueStats.lookup date =
      some ((runFrom offset morning during).1.dailyStats offset date) := AList.lookup_insert _
  rw [hrow, Option.map_some, Option.some_inj, resolvedCount_eq, Database.resolvedBy, Database.countIssues,
    countP_eq_iff]
  · constructor
    · intro h id issue hissue hday hresolved
      have hhas := h ⟨id, issue⟩ (AList.mem_lookup_iff.1 hissue) (decide_eq_true ⟨hday, hresolved⟩)
      exact (of_decide_eq_true hhas).2
    · intro h e he hp
      obtain ⟨hday, hresolved⟩ := of_decide_eq_true hp
      exact decide_eq_true ⟨hresolved, h e.1 e.2 (AList.mem_lookup_iff.2 he) hday hresolved⟩
  · intro e he hq
    obtain ⟨hresolved, hhas⟩ := of_decide_eq_true hq
    obtain ⟨pre, event, post, rfl, hwrites, -⟩ := hhas.writes
    have hafter : ∀ e ∈ event :: post, ∀ t ∈ e.time, InDay offset date t :=
      fun e he => hduring e (List.mem_append_right pre he)
    exact decide_eq_true ⟨updatedAt_of_writes hwrites hafter (AList.mem_lookup_iff.2 he), hresolved⟩

/-- It is on a day on which every issue that is written is unresolved, or is not there, at some
moment. -/
theorem resolvedCount_iff {offset : Int} {date : CivilDate} {before during : List Event}
    (hbefore : ∀ event ∈ before, ∀ t ∈ event.time, t < startOfDay offset date)
    (hduring : ∀ event ∈ during, ∀ t ∈ event.time, InDay offset date t) :
    CountsResolved offset date before during ↔
      ∀ pre event post id, during = pre ++ event :: post →
        (runFrom offset (runFrom offset Database.empty before).1 pre).1.Writes event id →
        ∃ moment, moment <+: during ∧
          ¬ (runFrom offset (runFrom offset Database.empty before).1 moment).1.Resolved id := by
  have hmorning : ∀ id issue, (runFrom offset Database.empty before).1.issues.lookup id = some issue →
      issue.updatedAt < startOfDay offset date :=
    fun id issue => updatedAt_runFrom (p := (· < startOfDay offset date)) (fun _ _ h => by cases h) hbefore
  rw [countsResolved_iff hduring]
  generalize (runFrom offset Database.empty before).1 = morning at hmorning ⊢
  constructor
  · rintro h pre event post id rfl hwrites
    by_contra hall
    have hall : ∀ moment, moment <+: pre ++ event :: post → (runFrom offset morning moment).1.Resolved id :=
      fun moment hmoment => by_contra fun hnot => hall ⟨moment, hmoment, hnot⟩
    obtain ⟨issue, hissue, hresolved⟩ := hall _ (List.prefix_refl _)
    have hday := updatedAt_of_writes hwrites (fun e he => hduring e (List.mem_append_right pre he)) hissue
    obtain ⟨pre', event', post', hsplit, -, hnot⟩ := (h id issue hissue hday hresolved).writes
    exact hnot (hall pre' (hsplit ▸ List.prefix_append ..))
  · intro h id issue hissue hday hresolved
    have hresolvedAt : (runFrom offset morning during).1.Resolved id := ⟨issue, hissue, hresolved⟩
    obtain ⟨moment, ⟨rest, rfl⟩, hnot⟩ : ∃ moment, moment <+: during ∧
        ¬ (runFrom offset morning moment).1.Resolved id := by
      rcases absent_or_writes (p := (· < startOfDay offset date)) hmorning hissue (Int.not_lt.2 hday.1) with
        ⟨moment, hmoment, hnone⟩ | ⟨pre, event, post, hsplit, hwrites⟩
      · refine ⟨moment, hmoment, fun hres => ?_⟩
        obtain ⟨issue', hissue'⟩ := hres.exists
        rw [hnone] at hissue'
        cases hissue'
      · exact h pre event post id hsplit hwrites
    exact hasResolved_of_later hnot hresolvedAt

/-- On 1970-01-01 an issue is reported and resolved. -/
def firstDay : List Event :=
  [.request 0 {} (.create 1 1 { title := "crash" }),
    .request 3600000 {} (.update 1 { status := some (some .resolved) })]

theorem resolvedCount_iff_firstDay : CountsResolved 0 (ofDays 0) [] firstDay := by
  refine (resolvedCount_iff (by decide) (by decide +kernel)).2 fun _ _ _ id _ _ => ?_
  refine ⟨[], List.nil_prefix, ?_⟩
  rintro ⟨issue, hissue, -⟩
  cases hissue

/-- On the next day it is viewed, and counted again. -/
theorem resolvedCount_viewed :
    ¬ ∀ (offset : Int) (date : CivilDate) (before during : List Event),
      (∀ event ∈ before, ∀ t ∈ event.time, t < startOfDay offset date) →
      (∀ event ∈ during, ∀ t ∈ event.time, InDay offset date t) →
      CountsResolved offset date before during := by
  intro h
  have hcount := h 0 (ofDays 1) firstDay [.request 90000000 {} (.incrementViewCount 1)]
    (by decide +kernel) (by decide +kernel)
  revert hcount
  rw [CountsResolved]
  decide +kernel

end Portfolio.IssueStats
