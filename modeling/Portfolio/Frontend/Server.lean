import Portfolio.Lib.Table
import Portfolio.Teams.TeamService

/-!
# The server behind the web client

The requests of `team/api.ts` and `issue/api.ts` (`react/frontend`), answered with the tables and
checks of the Node backend (`TeamService`, `IssueService`, `CommentService`) in the types that the
client declares. A request that is refused has no answer. How a list is cut into pages is left to the
backend. The users that DTOs of members and issues carry along and the validation of request bodies are left
out.
-/

namespace Portfolio.Frontend
open Teams

/-! ### Types of the client -/

@[ext] structure PaginatedResponse (α : Type) where
  items : List α
  totalCount : Nat
  deriving DecidableEq, Repr

structure WorkspaceItem where
  id : Int
  teamId : Int
  title : String
  content : Option String
  createdBy : Int
  createdAt : Nat
  updatedAt : Nat
  deriving DecidableEq, Repr

inductive IssueStatus where
  | open
  | inProgress
  | resolved
  | closed
  deriving DecidableEq, Repr

def IssueStatus.text : IssueStatus → String
  | .open => "OPEN"
  | .inProgress => "IN_PROGRESS"
  | .resolved => "RESOLVED"
  | .closed => "CLOSED"

structure Issue where
  id : Int
  projectId : Int
  reporterId : Int
  assigneeId : Option Int
  title : String
  description : Option String
  status : IssueStatus
  createdAt : Nat
  updatedAt : Nat
  deriving DecidableEq, Repr

structure Comment where
  id : Int
  issueId : Int
  authorId : Int
  content : String
  createdAt : Nat
  updatedAt : Nat
  deriving DecidableEq, Repr

/-- The first row of a page and how many it has, from `page` and `size`; a page without a size has
all rows, and a request may be refused. -/
abbrev Paging := Option Int → Option Int → Option (Nat × Option Nat)

def Paging.page {α : Type} (paging : Paging) (page size : Option Int) (rows : List α) :
    Option (PaginatedResponse α) :=
  (paging page size).map fun (offset, limit) => {
    items := match limit with
      | none => rows.drop offset
      | some n => (rows.drop offset).take n
    totalCount := rows.length }

/-! ### Tables -/

structure Server where
  db : TeamDb
  projects : List Int := []
  items : List WorkspaceItem := []
  issues : List Issue := []
  comments : List Comment := []
  nextItemId : Int := 1
  nextIssueId : Int := 1
  nextCommentId : Int := 1

/-- What does not change: the user who is logged in, and the pages. -/
structure Api where
  userId : Int
  itemPages : Paging
  issuePages : Paging

namespace Server

def verifyTeamMember (s : Server) (userId teamId : Int) : Bool := (s.db.findMembership teamId userId).isSome

def teamMembers (s : Server) (teamId : Int) : List TeamMember := s.db.members.filter (·.teamId = teamId)

def teamItems (s : Server) (teamId : Int) : List WorkspaceItem := s.items.filter (·.teamId = teamId)

def findItem (s : Server) (itemId : Int) : Option WorkspaceItem := findRow WorkspaceItem.id s.items itemId

def projectIssues (s : Server) (projectId : Int) (status : Option IssueStatus) : List Issue :=
  s.issues.filter fun i => i.projectId = projectId ∧ ∀ st ∈ status, i.status = st

def findIssue (s : Server) (issueId : Int) : Option Issue := findRow Issue.id s.issues issueId

def issueComments (s : Server) (issueId : Int) : List Comment := s.comments.filter (·.issueId = issueId)

end Server

/-! ### Queries -/

inductive Query where
  | team (teamId : Int)
  | teamMembers (teamId : Int)
  | workspaceItems (teamId : Int) (page size : Option Int)
  | workspaceItem (itemId : Int)
  | projectIssues (projectId : Int) (status : Option IssueStatus) (page size : Option Int)
  | issue (issueId : Int)
  | issueComments (issueId : Int)
  deriving DecidableEq, Repr

inductive Response where
  | team (team : Team) (members : List TeamMember)
  | teamMembers (members : PaginatedResponse TeamMember)
  | workspaceItems (items : PaginatedResponse WorkspaceItem)
  | workspaceItem (item : WorkspaceItem)
  | projectIssues (issues : PaginatedResponse Issue)
  | issue (issue : Issue)
  | issueComments (comments : PaginatedResponse Comment)
  deriving DecidableEq, Repr

/-- Lists are sorted by their times: items and issues begin with the newest. -/
def Server.fetch (api : Api) (s : Server) : Query → Option Response
  | .team teamId => match s.db.findTeam teamId with
    | none => none
    | some team =>
      if s.verifyTeamMember api.userId teamId then some (.team team (s.teamMembers teamId)) else none
  | .teamMembers teamId =>
    if s.verifyTeamMember api.userId teamId then
      some (.teamMembers ⟨s.teamMembers teamId, (s.teamMembers teamId).length⟩)
    else none
  | .workspaceItems teamId page size =>
    if s.verifyTeamMember api.userId teamId then
      (api.itemPages.page page size (s.teamItems teamId).reverse).map .workspaceItems
    else none
  | .workspaceItem itemId => match s.findItem itemId with
    | none => none
    | some item => if s.verifyTeamMember api.userId item.teamId then some (.workspaceItem item) else none
  | .projectIssues projectId status page size =>
    (api.issuePages.page page size (s.projectIssues projectId status).reverse).map .projectIssues
  | .issue issueId => (s.findIssue issueId).map .issue
  | .issueComments issueId => match s.findIssue issueId with
    | none => none
    | some _ => some (.issueComments ⟨s.issueComments issueId, (s.issueComments issueId).length⟩)

/-! ### Mutations -/

inductive Mutation where
  | createTeam (name : String)
  | addTeamMember (teamId userId : Int) (role : TeamRole)
  | updateTeamMemberRole (teamId memberId : Int) (role : TeamRole)
  | removeTeamMember (teamId memberId : Int)
  | createWorkspaceItem (teamId : Int) (title content : String)
  | updateWorkspaceItem (itemId : Int) (title content : String)
  | deleteWorkspaceItem (itemId : Int)
  | createIssue (projectId : Int) (title description : String) (assigneeId : Option Int)
  /-- A missing assignee is left alone, `null` removes it. -/
  | updateIssue (issueId : Int) (title description : String) (status : IssueStatus)
    (assigneeId : Option (Option Int))
  | deleteIssue (issueId : Int)
  | createComment (issueId : Int) (content : String)
  deriving DecidableEq, Repr

/-- The data of a response that the client reads. -/
inductive Reply where
  | issue (data : Issue)
  | comment (data : Comment)
  | other
  deriving DecidableEq, Repr

namespace Server

/-- A request to `TeamController`. -/
def ofTeamRequest (s : Server) (request : TeamRequest) : Option (Server × Reply) :=
  match request.node s.db with
  | .ok db => some ({ s with db := db }, .other)
  | .error _ => none

def createWorkspaceItem (s : Server) (userId teamId : Int) (title content : String) (now : Nat) :
    Option (Server × Reply) :=
  if s.verifyTeamMember userId teamId then
    some ({ s with
      items := s.items ++ [{
        id := s.nextItemId, teamId := teamId, title := title, content := some content,
        createdBy := userId, createdAt := now, updatedAt := now }]
      nextItemId := s.nextItemId + 1 }, .other)
  else none

end Server

def WorkspaceItem.edit (title content : String) (now : Nat) (item : WorkspaceItem) : WorkspaceItem :=
  { item with title := title, content := some content, updatedAt := now }

def Issue.edit (title description : String) (status : IssueStatus) (assigneeId : Option (Option Int))
    (now : Nat) (issue : Issue) : Issue :=
  { issue with
    title := title
    description := some description
    status := status
    assigneeId := assigneeId.getD issue.assigneeId
    updatedAt := now }

namespace Server

def updateWorkspaceItem (s : Server) (userId itemId : Int) (title content : String) (now : Nat) :
    Option (Server × Reply) :=
  match s.findItem itemId with
  | none => none
  | some item =>
    if s.verifyTeamMember userId item.teamId then
      some ({ s with
        items := updateRow WorkspaceItem.id s.items itemId (WorkspaceItem.edit title content now) }, .other)
    else none

def deleteWorkspaceItem (s : Server) (userId itemId : Int) : Option (Server × Reply) :=
  match s.findItem itemId with
  | none => none
  | some item =>
    if s.verifyTeamMember userId item.teamId then
      some ({ s with items := deleteRow WorkspaceItem.id s.items itemId }, .other)
    else none

def createIssue (s : Server) (userId projectId : Int) (title description : String)
    (assigneeId : Option Int) (now : Nat) : Option (Server × Reply) :=
  if projectId ∈ s.projects ∧ ∀ a ∈ assigneeId, s.db.hasUser a then
    let issue : Issue := {
      id := s.nextIssueId, projectId := projectId, reporterId := userId, assigneeId := assigneeId,
      title := title, description := some description, status := .open, createdAt := now, updatedAt := now }
    some ({ s with issues := s.issues ++ [issue], nextIssueId := s.nextIssueId + 1 }, .issue issue)
  else none

def updateIssue (s : Server) (issueId : Int) (title description : String) (status : IssueStatus)
    (assigneeId : Option (Option Int)) (now : Nat) : Option (Server × Reply) :=
  match s.findIssue issueId with
  | none => none
  | some issue =>
    if ∀ a ∈ assigneeId.join, s.db.hasUser a then
      some ({ s with
        issues := updateRow Issue.id s.issues issueId (Issue.edit title description status assigneeId now) },
        .issue (issue.edit title description status assigneeId now))
    else none

/-- The comments of the issue are deleted with it. -/
def deleteIssue (s : Server) (issueId : Int) : Option (Server × Reply) :=
  match s.findIssue issueId with
  | none => none
  | some _ => some ({ s with
      issues := deleteRow Issue.id s.issues issueId
      comments := s.comments.filter (·.issueId ≠ issueId) }, .other)

def createComment (s : Server) (userId issueId : Int) (content : String) (now : Nat) :
    Option (Server × Reply) :=
  match s.findIssue issueId with
  | none => none
  | some _ =>
    let comment : Comment := {
      id := s.nextCommentId, issueId := issueId, authorId := userId, content := content,
      createdAt := now, updatedAt := now }
    some ({ s with comments := s.comments ++ [comment], nextCommentId := s.nextCommentId + 1 },
      .comment comment)

def mutate (s : Server) (userId : Int) (now : Nat) : Mutation → Option (Server × Reply)
  | .createTeam name => s.ofTeamRequest (.createTeam userId name)
  | .addTeamMember teamId member role => s.ofTeamRequest (.addMember userId teamId member role)
  | .updateTeamMemberRole teamId memberId role =>
    s.ofTeamRequest (.updateMemberRole userId teamId memberId role)
  | .removeTeamMember teamId memberId => s.ofTeamRequest (.removeMember userId teamId memberId)
  | .createWorkspaceItem teamId title content => s.createWorkspaceItem userId teamId title content now
  | .updateWorkspaceItem itemId title content => s.updateWorkspaceItem userId itemId title content now
  | .deleteWorkspaceItem itemId => s.deleteWorkspaceItem userId itemId
  | .createIssue projectId title description assigneeId =>
    s.createIssue userId projectId title description assigneeId now
  | .updateIssue issueId title description status assigneeId =>
    s.updateIssue issueId title description status assigneeId now
  | .deleteIssue issueId => s.deleteIssue issueId
  | .createComment issueId content => s.createComment userId issueId content now

end Server
end Portfolio.Frontend
