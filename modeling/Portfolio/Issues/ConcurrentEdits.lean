import Portfolio.Issues.IssueService

/-!
# Views and edits of one issue

A transaction writes back every column it has read. The number of views stays right as long as no
view is committed between its read and its write; an edit survives a view that has read it.
`Current` says so for one commit, and is exactly what every commit of a run has to meet.
-/

namespace Portfolio.Issues

def Transaction.isView : Transaction → Bool
  | .getIssueById => true
  | .updateIssue _ => false

def Transaction.request? : Transaction → Option IssueUpdateRequest
  | .getIssueById => none
  | .updateIssue request => some request

/-- The row has the values of all fields that the request sets. -/
structure IssueUpdateRequest.CarriedBy (request : IssueUpdateRequest) (issue : Issue) : Prop where
  title : ∀ v ∈ request.title, issue.title = v
  description : ∀ v ∈ request.description, issue.description = some v
  status : ∀ v ∈ request.status, issue.status = v
  assigneeId : ∀ v ∈ request.assigneeId, issue.assigneeId = some v

namespace IssueTable

/-- The number of completed calls of `getIssueById`. -/
def views (t : IssueTable) : Nat := t.committed.countP (·.isView)

def lastUpdate (t : IssueTable) : Option IssueUpdateRequest :=
  (t.committed.filterMap (·.request?)).getLast?

/-- The row carries the last committed edit and counts the views. -/
structure Faithful (t : IssueTable) : Prop where
  edit : ∀ request ∈ t.lastUpdate, request.CarriedBy t.row
  views : t.row.viewCount.toInt = t.views

/-- What a transaction that commits has read has the present number of views and, if it is a view
itself, the last committed edit; and the number of views fits its column. -/
def Current (t : IssueTable) (read : Issue) : Transaction → Prop
  | .getIssueById =>
    read.viewCount = t.row.viewCount ∧ (∀ request ∈ t.lastUpdate, request.CarriedBy read) ∧
      t.views + 1 < 2 ^ 31
  | .updateIssue _ => read.viewCount = t.row.viewCount

/-! ### Commits -/

section Commit
variable (t : IssueTable) (read : Issue) (now : Nat)

@[simp] theorem views_commit (transaction : Transaction) :
    (t.commit transaction read now).views = t.views + if transaction.isView then 1 else 0 := by
  simp [views, commit, List.countP_append, List.countP_cons]

@[simp] theorem lastUpdate_commit_getIssueById :
    (t.commit .getIssueById read now).lastUpdate = t.lastUpdate := by
  simp [lastUpdate, commit, Transaction.request?]

@[simp] theorem lastUpdate_commit_updateIssue (request : IssueUpdateRequest) :
    (t.commit (.updateIssue request) read now).lastUpdate = some request := by
  simp [lastUpdate, commit, Transaction.request?]

end Commit
end IssueTable

theorem IssueUpdateRequest.carriedBy_apply (request : IssueUpdateRequest) (issue : Issue) :
    request.CarriedBy (request.apply issue) := by
  refine ⟨fun v hv => ?_, fun v hv => ?_, fun v hv => ?_, fun v hv => ?_⟩
  · simp [apply, Option.mem_def.1 hv]
  · simp [apply, Option.mem_def.1 hv]
  · simp [apply, Option.mem_def.1 hv]
  · simp [apply, Option.mem_def.1 hv]

/-- `CarriedBy` looks at the four fields of the request. -/
theorem IssueUpdateRequest.CarriedBy.congr {request : IssueUpdateRequest} {a b : Issue}
    (h : request.CarriedBy a)
    (htitle : b.title = a.title) (hdescription : b.description = a.description)
    (hstatus : b.status = a.status)
    (hassignee : b.assigneeId = a.assigneeId) : request.CarriedBy b :=
  ⟨htitle ▸ h.title, hdescription ▸ h.description, hstatus ▸ h.status, hassignee ▸ h.assigneeId⟩

/-- A count that fits goes up by one. -/
theorem toInt_add_one {c : Int32} {n : Nat} (hc : c.toInt = n) (hn : n + 1 < 2 ^ 31) :
    (c + 1).toInt = (n + 1 : Nat) := by
  obtain rfl : c = Int32.ofNat n := Int32.toInt.inj (by rw [hc, Int32.toInt_ofNat_of_lt (by omega)])
  rw [show (1 : Int32) = Int32.ofNat 1 from rfl, ← Int32.ofNat_add, Int32.toInt_ofNat_of_lt hn]

namespace IssueTable

/-- A commit keeps the row faithful exactly if what was read is current. -/
theorem Faithful.commit_iff {t : IssueTable} (h : t.Faithful) (transaction : Transaction)
    (read : Issue) (now : Nat) :
    (t.commit transaction read now).Faithful ↔ t.Current read transaction := by
  cases transaction with
  | updateIssue request =>
    constructor
    · intro h'
      have hviews := h'.views
      rw [views_commit] at hviews
      exact Int32.toInt.inj (hviews.trans h.views.symm)
    · intro hread
      have hread : read.viewCount = t.row.viewCount := hread
      refine ⟨fun r hr => ?_, ?_⟩
      · rw [lastUpdate_commit_updateIssue] at hr
        obtain rfl := Option.some.inj hr
        exact (request.carriedBy_apply read).congr rfl rfl rfl rfl
      · rw [views_commit]
        show read.viewCount.toInt = t.views
        rw [hread]
        exact h.views
  | getIssueById =>
    constructor
    · intro h'
      have hviews : (read.viewCount + 1).toInt = (t.views + 1 : Nat) := by
        have hcommit := h'.views
        rw [views_commit, if_pos (show Transaction.isView .getIssueById = true from rfl)] at hcommit
        exact hcommit
      have hfits : t.views + 1 < 2 ^ 31 := by
        have := Int32.toInt_lt (read.viewCount + 1)
        omega
      refine ⟨?_, fun r hr => ?_, hfits⟩
      · have hboth : read.viewCount + 1 = t.row.viewCount + 1 :=
          Int32.toInt.inj (hviews.trans (toInt_add_one h.views hfits).symm)
        simpa using hboth
      · rw [← t.lastUpdate_commit_getIssueById read now] at hr
        exact (h'.edit r hr).congr rfl rfl rfl rfl
    · rintro ⟨hread, hedit, hfits⟩
      refine ⟨fun r hr => ?_, ?_⟩
      · rw [lastUpdate_commit_getIssueById] at hr
        exact (hedit r hr).congr rfl rfl rfl rfl
      · rw [views_commit]
        show (read.viewCount + 1).toInt = _
        rw [hread, toInt_add_one h.views hfits]
        rfl

end IssueTable

/-! ### Runs -/

/-- If the next step is a commit, what was read is current. -/
def TransactionState.Current (t : IssueTable) : TransactionState → Prop
  | .loaded transaction read => t.Current read transaction
  | .begun _ | .finished => True

def CommitsCurrent (s : Threads IssueTable TransactionState) (k : TransactionState) (_ : Nat) : Prop :=
  k.Current s.shared

theorem faithful_next_iff {t : IssueTable} (h : t.Faithful) (k : TransactionState) (now : Nat) :
    (k.next now t).1.Faithful ↔ k.Current t := by
  cases k with
  | begun transaction => exact iff_of_true h trivial
  | loaded transaction read => exact h.commit_iff transaction read now
  | finished => exact iff_of_true h trivial

theorem faithful_new (projectId reporterId : Int) (request : IssueRequest) (now : Nat) :
    IssueTable.Faithful { row := newIssue projectId reporterId request now } := by
  refine ⟨fun _ h => ?_, rfl⟩
  cases h

/-- All through a run the row carries the fields of the last committed `updateIssue` and counts the
completed calls of `getIssueById` if and only if every transaction that commits has read the present
number of views and, if it is a view, the last committed edit, with fewer than `2 ^ 31` views. -/
theorem faithful_iff_commits_current (projectId reporterId : Int) (request : IssueRequest) (now : Nat)
    (acts : List (Sched Transaction Nat)) :
    (∀ pre, pre <+: acts →
        ((issueMachine (newIssue projectId reporterId request now)).run pre).1.shared.Faithful) ↔
      (issueMachine (newIssue projectId reporterId request now)).Along (OfCall CommitsCurrent) acts := by
  have hgood : ∀ pre,
      (issueMachine (newIssue projectId reporterId request now)).Along (OfCall CommitsCurrent) pre →
      ((issueMachine (newIssue projectId reporterId request now)).run pre).1.shared.Faithful := by
    intro pre hpre
    exact issueProtocol.machine_inv (I := fun s => s.shared.Faithful)
      (faithful_new projectId reporterId request now) (fun _ _ h => h)
      (fun s i k now h hk hG => (faithful_next_iff h k now).2 hG) pre hpre
  refine (issueMachine (newIssue projectId reporterId request now)).always_iff_along
    (P := fun s => s.1.shared.Faithful) (fun pre _ hpre => hgood pre hpre) fun pre a _ hpre hP => ?_
  cases a with
  | call transaction => trivial
  | step i time =>
    intro k hk
    rw [Machine.run_concat] at hP
    refine (faithful_next_iff (hgood pre hpre) k time).1 ?_
    have hP : (issueProtocol.exec ((issueMachine (newIssue projectId reporterId request now)).run pre).1
      (.step i time)).shared.Faithful := hP
    rw [issueProtocol.exec_step hk] at hP
    exact hP

/-- A view reads the row, an edit is committed, and the view writes the old title back; then two
views that overlap count as one. -/
theorem view_undoes_edit :
    (¬ ((issueMachine (newIssue 1 1 { title := "old" } 0)).run
      [.call .getIssueById, .step 0 1, .call (.updateIssue { title := some "new" }), .step 1 2,
        .step 1 3, .step 0 4]).1.shared.Faithful) ∧
    ¬ ((issueMachine (newIssue 1 1 { title := "old" } 0)).run
      [.call .getIssueById, .call .getIssueById, .step 0 1, .step 1 2, .step 0 3,
        .step 1 4]).1.shared.Faithful := by
  refine ⟨fun h => ?_, fun h => ?_⟩
  · have := (h.edit { title := some "new" } (by decide)).title "new" rfl
    exact absurd this (by decide)
  · exact absurd h.views (by decide)

end Portfolio.Issues
