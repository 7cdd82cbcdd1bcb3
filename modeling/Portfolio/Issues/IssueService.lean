import Portfolio.Lib.Interleaving

/-!
# Issues

`IssueService` (`backend/spring`) on one issue: `createIssue` makes the row, then any number of
transactions of `getIssueById` and `updateIssue` run at once. A transaction reads the whole row,
changes the entity in memory and writes all its columns when it commits (there is no version
column). `committed` lists the transactions in the order of their commits; no transaction reads it.
-/

namespace Portfolio.Issues

inductive IssueStatus where
  | open
  | inProgress
  | resolved
  | closed
  deriving DecidableEq, Repr

structure Issue where
  projectId : Int
  reporterId : Int
  assigneeId : Option Int := none
  title : String
  description : Option String
  status : IssueStatus
  createdAt : Nat
  updatedAt : Nat
  viewCount : Int32 := 0
  deriving DecidableEq, Repr

structure IssueRequest where
  title : String
  description : Option String := none
  assigneeId : Option Int := none

/-- Fields that are null are left alone. -/
structure IssueUpdateRequest where
  title : Option String := none
  description : Option String := none
  status : Option IssueStatus := none
  assigneeId : Option Int := none
  deriving DecidableEq, Repr

/-- The entity of `createIssue` after `onCreate`. -/
def newIssue (projectId reporterId : Int) (request : IssueRequest) (now : Nat) : Issue where
  projectId := projectId
  reporterId := reporterId
  assigneeId := request.assigneeId
  title := request.title
  description := request.description
  status := .open
  createdAt := now
  updatedAt := now

def Issue.incrementViewCount (issue : Issue) : Issue := { issue with viewCount := issue.viewCount + 1 }

/-- The setters that `updateIssue` calls. -/
def IssueUpdateRequest.apply (request : IssueUpdateRequest) (issue : Issue) : Issue :=
  { issue with
    title := request.title.getD issue.title
    description := request.description.or issue.description
    status := request.status.getD issue.status
    assigneeId := request.assigneeId.or issue.assigneeId }

/-! ### Transactions -/

inductive Transaction where
  | getIssueById
  | updateIssue (request : IssueUpdateRequest)
  deriving DecidableEq, Repr

/-- What the transaction does to the entity. -/
def Transaction.change : Transaction → Issue → Issue
  | .getIssueById, issue => issue.incrementViewCount
  | .updateIssue request, issue => request.apply issue

structure IssueTable where
  row : Issue
  committed : List Transaction := []
  deriving DecidableEq, Repr

inductive TransactionState where
  | begun (transaction : Transaction)
  /-- The row has been read. -/
  | loaded (transaction : Transaction) (read : Issue)
  | finished
  deriving DecidableEq, Repr

/-- All columns but `createdAt` are written, after `onUpdate`. -/
def IssueTable.commit (t : IssueTable) (transaction : Transaction) (read : Issue) (now : Nat) :
    IssueTable where
  row := { transaction.change read with createdAt := t.row.createdAt, updatedAt := now }
  committed := t.committed ++ [transaction]

def TransactionState.next (now : Nat) (t : IssueTable) :
    TransactionState → IssueTable × TransactionState
  | .begun transaction => (t, .loaded transaction t.row)
  | .loaded transaction read => (t.commit transaction read now, .finished)
  | .finished => (t, .finished)

def issueProtocol : Protocol IssueTable Transaction TransactionState Nat where
  start := .begun
  next := TransactionState.next

/-- Concurrent transactions on a new issue. -/
def issueMachine (issue : Issue) :
    Machine (Threads IssueTable TransactionState) (Sched Transaction Nat) Unit :=
  issueProtocol.machine { row := issue }

end Portfolio.Issues
