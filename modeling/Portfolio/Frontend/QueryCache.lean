import Portfolio.Frontend.Server
import Portfolio.Lib.Machine

/-!
# The query cache

The hooks of `team/hooks.ts` and `issue/hooks.ts` (`react/frontend`). A query that completes stores
its result as fresh under its key; a mutation that succeeds makes entries stale whose keys begin with
one of the keys that its `onSuccess` invalidates.
-/

namespace Portfolio.Frontend
open Teams

/-! ### Keys -/

inductive KeyPart where
  | text (s : String)
  | number (n : Int)
  | page (page size : Option Int)
  | undefined
  deriving DecidableEq, Repr

abbrev QueryKey := List KeyPart

def KeyPart.optional {α : Type} (f : α → KeyPart) : Option α → KeyPart
  | none => .undefined
  | some a => f a

namespace teamKeys

def all : QueryKey := [.text "teams"]

def lists : QueryKey := all ++ [.text "list"]

def list : QueryKey := lists

def details : QueryKey := all ++ [.text "detail"]

def detail (id : Int) : QueryKey := details ++ [.number id]

def members (teamId : Int) : QueryKey := all ++ [.number teamId, .text "members"]

def workspaceItems (teamId : Int) : QueryKey := all ++ [.number teamId, .text "workspace-items"]

def workspaceItem (itemId : Int) : QueryKey := [.text "workspace-items", .number itemId]

end teamKeys

namespace Query

/-- `queryKey` of the hook. -/
def key : Query → QueryKey
  | .team teamId => teamKeys.detail teamId
  | .teamMembers teamId => teamKeys.members teamId
  | .workspaceItems teamId page size => teamKeys.workspaceItems teamId ++ [.page page size]
  | .workspaceItem itemId => teamKeys.workspaceItem itemId
  | .projectIssues projectId status page size =>
    [.text "issues", .number projectId, .optional (fun st => .text st.text) status, .optional .number page,
      .optional .number size]
  | .issue issueId => [.text "issue", .number issueId]
  | .issueComments issueId => [.text "comments", .number issueId]

/-- `enabled` of the hook. -/
def enabled : Query → Bool
  | .team teamId | .teamMembers teamId | .workspaceItems teamId _ _ => teamId ≠ 0
  | .workspaceItem itemId => itemId ≠ 0
  | .projectIssues projectId _ _ _ => projectId ≠ 0
  | .issue issueId | .issueComments issueId => issueId ≠ 0

end Query

/-- The keys that `onSuccess` of the hook invalidates. -/
def Mutation.onSuccess : Mutation → Reply → List QueryKey
  | .createTeam _, _ => [teamKeys.list]
  | .addTeamMember teamId _ _, _ => [teamKeys.members teamId, teamKeys.detail teamId]
  | .updateTeamMemberRole teamId _ _, _ => [teamKeys.members teamId, teamKeys.detail teamId]
  | .removeTeamMember teamId _, _ => [teamKeys.members teamId, teamKeys.detail teamId]
  | .createWorkspaceItem teamId _ _, _ => [teamKeys.workspaceItems teamId]
  | .updateWorkspaceItem itemId _ _, _ => [teamKeys.workspaceItem itemId]
  | .deleteWorkspaceItem _, _ => [teamKeys.all]
  | .createIssue projectId _ _ _, _ => [[.text "issues", .number projectId]]
  | .updateIssue .., .issue data =>
    [[.text "issue", .number data.id], [.text "issues", .number data.projectId]]
  | .updateIssue .., _ => []
  | .deleteIssue _, _ => [[.text "issues"]]
  | .createComment .., .comment data => [[.text "comments", .number data.issueId]]
  | .createComment .., _ => []

/-! ### The cache -/

structure Entry where
  result : Response
  fresh : Bool
  deriving DecidableEq, Repr

structure QueryCache where
  entries : QueryKey → Option Entry := fun _ => none

namespace QueryCache

def store (cache : QueryCache) (key : QueryKey) (result : Response) : QueryCache where
  entries k := if k = key then some ⟨result, true⟩ else cache.entries k

def invalidateQueries (cache : QueryCache) (queryKey : QueryKey) : QueryCache where
  entries k := (cache.entries k).map fun e => if queryKey.isPrefixOf k then { e with fresh := false } else e

end QueryCache

/-! ### The client -/

structure Client where
  server : Server
  cache : QueryCache := {}

inductive Action where
  | query (q : Query)
  | mutate (m : Mutation) (now : Nat)
  deriving DecidableEq, Repr

namespace Client

def query (api : Api) (c : Client) (q : Query) : Client :=
  if q.enabled then
    match c.server.fetch api q with
    | none => c
    | some result => { c with cache := c.cache.store q.key result }
  else c

def mutate (api : Api) (c : Client) (m : Mutation) (now : Nat) : Client :=
  match c.server.mutate api.userId now m with
  | none => c
  | some (server, reply) => ⟨server, (m.onSuccess reply).foldl .invalidateQueries c.cache⟩

def exec (api : Api) (c : Client) : Action → Client
  | .query q => c.query api q
  | .mutate m now => c.mutate api m now

/-- Queries and mutations one after the other, on given tables and an empty cache. -/
def machine (api : Api) (server : Server) : Machine Client Action Unit where
  init := { server := server }
  step c a := (c.exec api a, [])

end Client
end Portfolio.Frontend
