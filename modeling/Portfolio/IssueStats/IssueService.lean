import Mathlib.Data.List.AList
import Portfolio.Lib.Civil

/-!
# Issues and comments

`IssueService` and `CommentService` (`backend/node.js`), as far as they write. Times are in
milliseconds. The tables of the projects and the users belong to other services; `Found` says what a
request finds in them. Every id is below `nextId`, and none is given out twice.
-/

namespace Portfolio.IssueStats

inductive IssueStatus where
  | open
  | inProgress
  | resolved
  | closed
  deriving DecidableEq, Repr

structure Issue where
  projectId : Int
  reporterId : Int
  assigneeId : Option Int
  title : String
  description : Option String
  status : IssueStatus := .open
  viewCount : Int := 0
  createdAt : Int
  updatedAt : Int
  deriving DecidableEq, Repr

structure Comment where
  issueId : Int
  authorId : Int
  content : String
  createdAt : Int
  updatedAt : Int
  deriving DecidableEq, Repr

/-- A row of `DailyIssueStats`, without its `date`. -/
structure DailyIssueStats where
  createdCount : Nat
  resolvedCount : Nat
  commentCount : Nat
  deriving DecidableEq, Repr

structure Database where
  issues : AList fun _ : Int => Issue := ∅
  nextId : Int := 1
  fresh : ∀ id ∈ issues, id < nextId
  comments : List Comment := []
  dailyIssueStats : AList fun _ : CivilDate => DailyIssueStats := ∅

theorem fresh_empty : ∀ id ∈ (∅ : AList fun _ : Int => Issue), id < 1 :=
  fun id hid => absurd hid (AList.notMem_empty id)

def Database.empty : Database := { fresh := fresh_empty }

/-! ### Requests -/

structure CreateIssueDto where
  title : String
  description : Option String := none
  assigneeId : Option Int := none
  deriving DecidableEq, Repr

/-- Fields that are not given stay as they are; each can also be null. -/
structure UpdateIssueDto where
  title : Option (Option String) := none
  description : Option (Option String) := none
  status : Option (Option IssueStatus) := none
  assigneeId : Option (Option Int) := none
  deriving DecidableEq, Repr

/-- Whether the project, the user who makes the request and the assignee are there. -/
structure Found where
  project : Bool := true
  user : Bool := true
  assignee : Bool := true
  deriving DecidableEq, Repr

inductive IssueError where
  /-- `NotFoundException` -/
  | notFound (resource : String) (id : Int)
  /-- What the Prisma client throws: a foreign key, a null for a column that has none, no record. -/
  | foreignKey
  | validation
  | recordNotFound
  deriving DecidableEq, Repr

namespace UpdateIssueDto

/-- A null in a column that has none. -/
def isInvalid (dto : UpdateIssueDto) : Bool := dto.title = some none ∨ dto.status = some none

/-- The `data` of `update`, with `updatedAt`. -/
def apply (dto : UpdateIssueDto) (now : Int) (issue : Issue) : Issue :=
  { issue with
    title := (dto.title.getD none).getD issue.title
    description := dto.description.getD issue.description
    status := (dto.status.getD none).getD issue.status
    assigneeId := dto.assigneeId.getD issue.assigneeId
    updatedAt := now }

end UpdateIssueDto

/-! ### The tables -/

namespace Database

theorem fresh_create {db : Database} {issue : Issue} :
    ∀ id ∈ db.issues.insert db.nextId issue, id < db.nextId + 1 := by
  intro id hid
  rcases AList.mem_insert _ |>.1 hid with rfl | hid
  · exact Int.lt_add_one_of_le (Int.le_refl _)
  · exact Int.lt_add_one_of_le (Int.le_of_lt (db.fresh id hid))

/-- `issue.create` -/
def createIssue (db : Database) (issue : Issue) : Database :=
  { db with issues := db.issues.insert db.nextId issue, nextId := db.nextId + 1, fresh := fresh_create }

theorem fresh_update {db : Database} {id : Int} {old issue : Issue} (h : db.issues.lookup id = some old) :
    ∀ id' ∈ db.issues.insert id issue, id' < db.nextId := by
  intro id' hid
  rcases AList.mem_insert _ |>.1 hid with rfl | hid
  · exact db.fresh id' (AList.lookup_isSome.1 (Option.isSome_of_eq_some h))
  · exact db.fresh id' hid

/-- `issue.update`; it throws if there is no such row. -/
def updateIssue (db : Database) (id : Int) (change : Issue → Issue) : Except IssueError Database :=
  match h : db.issues.lookup id with
  | none => .error .recordNotFound
  | some issue =>
    .ok { db with issues := db.issues.insert id (change issue), fresh := fresh_update h }

theorem fresh_delete {db : Database} {id : Int} : ∀ id' ∈ db.issues.erase id, id' < db.nextId :=
  fun id' hid => db.fresh id' (AList.mem_erase.1 hid).2

/-- `issue.delete`, with the comments on the issue. -/
def deleteIssue (db : Database) (id : Int) : Database :=
  { db with
    issues := db.issues.erase id
    comments := db.comments.filter (·.issueId ≠ id)
    fresh := fresh_delete }

/-! ### The services -/

/-- An assignee of 0 is not looked up. -/
def create (db : Database) (found : Found) (now projectId reporterId : Int) (dto : CreateIssueDto) :
    Except IssueError Database :=
  if found.project = false then .error (.notFound "Project" projectId)
  else if dto.assigneeId.getD 0 ≠ 0 ∧ found.assignee = false then
    .error (.notFound "User" (dto.assigneeId.getD 0))
  else if found.user = false ∨ dto.assigneeId.isSome ∧ found.assignee = false then .error .foreignKey
  else
    .ok (db.createIssue {
      projectId := projectId
      reporterId := reporterId
      assigneeId := dto.assigneeId
      title := dto.title
      description := dto.description
      createdAt := now
      updatedAt := now })

def update (db : Database) (found : Found) (now id : Int) (dto : UpdateIssueDto) :
    Except IssueError Database :=
  match db.issues.lookup id with
  | none => .error (.notFound "Issue" id)
  | some _ =>
    if (dto.assigneeId.getD none).isSome ∧ found.assignee = false then
      .error (.notFound "User" ((dto.assigneeId.getD none).getD 0))
    else if dto.isInvalid then .error .validation
    else db.updateIssue id (dto.apply now)

def delete (db : Database) (id : Int) : Except IssueError Database :=
  match db.issues.lookup id with
  | none => .error (.notFound "Issue" id)
  | some _ => .ok (db.deleteIssue id)

def incrementViewCount (db : Database) (now id : Int) : Except IssueError Database :=
  db.updateIssue id fun issue => { issue with viewCount := issue.viewCount + 1, updatedAt := now }

/-- `CommentService.create` -/
def createComment (db : Database) (found : Found) (now issueId authorId : Int) (content : String) :
    Except IssueError Database :=
  match db.issues.lookup issueId with
  | none => .error (.notFound "Issue" issueId)
  | some _ =>
    if found.user = false then .error .foreignKey
    else .ok { db with comments := db.comments ++ [⟨issueId, authorId, content, now, now⟩] }

end Database

inductive IssueRequest where
  | create (projectId reporterId : Int) (dto : CreateIssueDto)
  | update (id : Int) (dto : UpdateIssueDto)
  | delete (id : Int)
  | incrementViewCount (id : Int)
  | createComment (issueId authorId : Int) (content : String)
  deriving DecidableEq, Repr

/-- The issue whose row is written again. -/
def IssueRequest.updated : IssueRequest → Option Int
  | .update id _ | .incrementViewCount id => some id
  | .create .. | .delete _ | .createComment .. => none

namespace Database

def handle (db : Database) (found : Found) (now : Int) : IssueRequest → Except IssueError Database
  | .create projectId reporterId dto => db.create found now projectId reporterId dto
  | .update id dto => db.update found now id dto
  | .delete id => db.delete id
  | .incrementViewCount id => db.incrementViewCount now id
  | .createComment issueId authorId content => db.createComment found now issueId authorId content

/-! ### What a request writes -/

theorem updateIssue_eq_ok {db db' : Database} {id : Int} {change : Issue → Issue}
    (h : db.updateIssue id change = .ok db') :
    ∃ issue, db.issues.lookup id = some issue ∧ db'.issues = db.issues.insert id (change issue) := by
  rw [updateIssue] at h
  split at h
  · cases h
  · next issue hissue =>
    cases h
    exact ⟨issue, hissue, rfl⟩

/-- What has happened to the table of the issues when a request has succeeded. -/
inductive Wrote (db : Database) (now : Int) :
    IssueRequest → (AList fun _ : Int => Issue) → Prop
  | created {projectId reporterId : Int} {dto : CreateIssueDto} (issue : Issue) (hopen : issue.status = .open)
      (hnow : issue.updatedAt = now) :
      Wrote db now (.create projectId reporterId dto) (db.issues.insert db.nextId issue)
  | updated {id : Int} {dto : UpdateIssueDto} {issue : Issue} (hissue : db.issues.lookup id = some issue) :
      Wrote db now (.update id dto) (db.issues.insert id (dto.apply now issue))
  | viewed {id : Int} {issue issue' : Issue} (hissue : db.issues.lookup id = some issue)
      (hstatus : issue'.status = issue.status) (hnow : issue'.updatedAt = now) :
      Wrote db now (.incrementViewCount id) (db.issues.insert id issue')
  | deleted {id : Int} : Wrote db now (.delete id) (db.issues.erase id)
  | commented {issueId authorId : Int} {content : String} :
      Wrote db now (.createComment issueId authorId content) db.issues

theorem wrote_of_handle {db db' : Database} {found : Found} {now : Int} {request : IssueRequest}
    (h : db.handle found now request = .ok db') : Wrote db now request db'.issues := by
  cases request with
  | create projectId reporterId dto =>
    simp only [handle, create] at h
    split at h
    · cases h
    split at h
    · cases h
    split at h
    · cases h
    cases h
    exact .created _ rfl rfl
  | update id dto =>
    simp only [handle, update] at h
    split at h
    · cases h
    split at h
    · cases h
    split at h
    · cases h
    obtain ⟨issue, hissue, hissues⟩ := updateIssue_eq_ok h
    rw [hissues]
    exact .updated hissue
  | delete id =>
    simp only [handle, delete] at h
    split at h
    · cases h
    cases h
    exact .deleted
  | incrementViewCount id =>
    obtain ⟨issue, hissue, hissues⟩ := updateIssue_eq_ok h
    rw [hissues]
    exact .viewed hissue rfl rfl
  | createComment issueId authorId content =>
    simp only [handle, createComment] at h
    split at h
    · cases h
    split at h
    · cases h
    cases h
    exact .commented

end Database
end Portfolio.IssueStats
