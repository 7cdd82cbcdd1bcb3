import Mathlib.Logic.Function.Iterate
import Portfolio.Lib.Interleaving
import Portfolio.Lib.Text
import Portfolio.Teams.TeamStore

/-!
# The team services

`RolesGuard` and `TeamService` of the Node backend, request by request (`TeamRequest.node`) and
statement by statement (`TeamCall`), and `TeamService` of the Spring backend (`TeamRequest.spring`).
A transaction becomes visible at its commit. Validation of the request bodies is left out: both
services take a user id, a team id, a member id, a role or a name as they come. The tables of Node
hold names of any length, that of Spring has the column that Hibernate makes of a `String`; the id
that an insert takes before it is refused is left out.
-/

namespace Portfolio.Teams

/-- The exceptions of both services, with their messages; `database` is a constraint, a value
that is too long or a missing row. -/
inductive HttpException where
  | notFound (message : String)
  | forbidden (message : String)
  | badRequest (message : String)
  | database
  deriving DecidableEq, Repr

/-! ### Changes of a member -/

/-- What `updateMemberRole` and `removeMember` do to a member. -/
inductive Change where
  | setRole (newRole : TeamRole)
  | remove
  deriving DecidableEq, Repr

/-- The change leaves an OWNER an OWNER. -/
def Change.keepsOwner : Change → Bool
  | .setRole newRole => decide (newRole = .owner)
  | .remove => false

/-- The statement itself. -/
def Change.apply (db : TeamDb) (memberId : Int) : Change → TeamDb
  | .setRole newRole => db.updateRole memberId newRole
  | .remove => db.deleteMember memberId

namespace TeamDb
variable {db : TeamDb}

theorem TablesOk.change (h : TablesOk db) (memberId : Int) (change : Change) :
    TablesOk (change.apply db memberId) := by
  cases change with
  | setRole newRole => exact h.updateRole _ _
  | remove => exact h.deleteMember _

theorem TablesOk.ownerCount_change (h : TablesOk db) {m : TeamMember} (hm : m ∈ db.members)
    (change : Change)
    (t : Int) :
    (change.apply db m.id).ownerCount t + (if m.owns t then 1 else 0) =
      db.ownerCount t + if m.teamId = t ∧ change.keepsOwner then 1 else 0 := by
  cases change with
  | setRole newRole => simpa [Change.apply, Change.keepsOwner] using h.ownerCount_updateRole hm newRole t
  | remove => simpa [Change.apply, Change.keepsOwner] using h.ownerCount_deleteMember hm t

/-- A change leaves an owner in a team, unless it takes the role from the last one. -/
theorem TablesOk.owned_change (h : TablesOk db) {m : TeamMember} (hm : m ∈ db.members)
    {change : Change} {t : Int}
    (hpos : 0 < db.ownerCount t)
    (hlast : m.owns t = true → change.keepsOwner = false → 1 < db.ownerCount t) :
    0 < (change.apply db m.id).ownerCount t := by
  have hcount := h.ownerCount_change hm change t
  cases howns : m.owns t with
  | false =>
    rw [howns, if_neg Bool.false_ne_true] at hcount
    omega
  | true =>
    have hteam : m.teamId = t := by
      simp only [TeamMember.owns, decide_eq_true_eq] at howns
      exact howns.1
    cases hkeep : change.keepsOwner with
    | false =>
      have := hlast howns hkeep
      rw [howns, if_pos rfl] at hcount
      omega
    | true =>
      rw [howns, if_pos rfl, if_pos ⟨hteam, hkeep⟩] at hcount
      omega

end TeamDb

/-! ### Node -/

namespace Node
open TeamDb

/-- `teamMember.create`: the keys of the row are checked. -/
def createMember (db : TeamDb) (teamId userId : Int) (role : TeamRole) : Except HttpException TeamDb :=
  if (db.findTeam teamId).isSome ∧ db.hasUser userId ∧ db.findMembership teamId userId = none then
    .ok (db.insertMember teamId userId role)
  else .error .database

def createTeam (db : TeamDb) (userId : Int) (name : String) : Except HttpException TeamDb :=
  createMember (db.insertTeam name).1 (db.insertTeam name).2.id userId .owner

def canActivate (db : TeamDb) (requiredRoles : List TeamRole) (userId teamId : Int) :
    Except HttpException TeamMember :=
  match db.findMembership teamId userId with
  | none => .error (.forbidden "You are not a member of this team")
  | some membership =>
    if membership.role ∈ requiredRoles then .ok membership
    else .error (.forbidden "You do not have permission to perform this action")

def addMember (db : TeamDb) (teamId userId : Int) (role : TeamRole) : Except HttpException TeamDb :=
  match db.findTeam teamId with
  | none => .error (.notFound "Team not found")
  | some _ =>
    if !db.hasUser userId then .error (.notFound "User not found")
    else match db.findMembership teamId userId with
      | some _ => .error (.badRequest "User is already a member of this team")
      | none => createMember db teamId userId role

/-- The exception for the last owner. -/
def lastOwner : Change → HttpException
  | .setRole _ => .badRequest "Cannot change the role of the last owner"
  | .remove => .badRequest "Cannot remove the last owner"

/-- What `updateMemberRole` and `removeMember` have in common. -/
def changeMember (db : TeamDb) (teamId memberId : Int) (change : Change) :
    Except HttpException TeamDb :=
  match db.findMember memberId with
  | none => .error (.notFound "Team member not found")
  | some m =>
    if m.teamId ≠ teamId then .error (.notFound "Team member not found")
    else if m.role = .owner ∧ !change.keepsOwner ∧ db.ownerCount teamId ≤ 1 then .error (lastOwner change)
    else .ok (change.apply db memberId)

def updateMemberRole (db : TeamDb) (teamId memberId : Int) (role : TeamRole) :
    Except HttpException TeamDb :=
  changeMember db teamId memberId (.setRole role)

def removeMember (db : TeamDb) (teamId memberId : Int) : Except HttpException TeamDb :=
  changeMember db teamId memberId .remove

end Node

/-! ### Spring -/

namespace Spring
open TeamDb

/-- `teamRepository.save` of a new row: its `name` is a `varchar(255)`. -/
def saveTeam (db : TeamDb) (name : String) : Except HttpException (TeamDb × Team) :=
  if javaLength name ≤ 255 then .ok (db.insertTeam name) else .error .database

/-- `teamMemberRepository.save` of a new row: the unique key is checked. -/
def saveMember (db : TeamDb) (teamId userId : Int) (role : TeamRole) : Except HttpException TeamDb :=
  if db.findMembership teamId userId = none then .ok (db.insertMember teamId userId role)
  else .error .database

def createTeam (db : TeamDb) (userId : Int) (name : String) : Except HttpException TeamDb :=
  if !db.hasUser userId then .error (.notFound "User not found")
  else do
    let (db', team) ← saveTeam db name
    saveMember db' team.id userId .owner

def assertCanManageMembers (db : TeamDb) (userId teamId : Int) : Except HttpException Unit :=
  match db.findMembership teamId userId with
  | none => .error (.notFound "Team not found")
  | some m =>
    if m.role ≠ .owner ∧ m.role ≠ .manager then
      .error (.forbidden "Only OWNER or MANAGER can manage team members")
    else .ok ()

def addTeamMember (db : TeamDb) (caller teamId userId : Int) (role : TeamRole) :
    Except HttpException TeamDb := do
  assertCanManageMembers db caller teamId
  if !db.hasUser userId then .error (.notFound "User not found")
  else if (db.findMembership teamId userId).isSome then .error (.badRequest "User is already a team member")
  else saveMember db teamId userId role

/-- What `updateTeamMemberRole` and `removeTeamMember` have in common. -/
def changeTeamMember (db : TeamDb) (caller teamId memberId : Int) (change : Change) :
    Except HttpException TeamDb := do
  assertCanManageMembers db caller teamId
  match db.findMember memberId with
  | none => .error (.notFound "Team member not found")
  | some m =>
    if m.teamId ≠ teamId then .error (.notFound "Team member not found in this team")
    else if m.role = .owner ∧ !change.keepsOwner ∧ db.ownerCount teamId ≤ 1 then
      .error (.badRequest "Cannot remove the last owner")
    else .ok (change.apply db memberId)

def updateTeamMemberRole (db : TeamDb) (caller teamId memberId : Int) (role : TeamRole) :
    Except HttpException TeamDb :=
  changeTeamMember db caller teamId memberId (.setRole role)

def removeTeamMember (db : TeamDb) (caller teamId memberId : Int) : Except HttpException TeamDb :=
  changeTeamMember db caller teamId memberId .remove

end Spring

/-! ### Requests one after another -/

inductive TeamRequest where
  | createTeam (caller : Int) (name : String)
  | addMember (caller teamId userId : Int) (role : TeamRole)
  | updateMemberRole (caller teamId memberId : Int) (role : TeamRole)
  | removeMember (caller teamId memberId : Int)
  deriving DecidableEq, Repr

namespace TeamRequest

def caller : TeamRequest → Int
  | .createTeam caller _ | .addMember caller .. | .updateMemberRole caller ..
  | .removeMember caller .. => caller

/-- Through `TeamController`, whose guard asks for an OWNER or a MANAGER. -/
def node (db : TeamDb) : TeamRequest → Except HttpException TeamDb
  | .createTeam caller name => Node.createTeam db caller name
  | .addMember caller teamId userId role => do
    let _ ← Node.canActivate db [.owner, .manager] caller teamId
    Node.addMember db teamId userId role
  | .updateMemberRole caller teamId memberId role => do
    let _ ← Node.canActivate db [.owner, .manager] caller teamId
    Node.updateMemberRole db teamId memberId role
  | .removeMember caller teamId memberId => do
    let _ ← Node.canActivate db [.owner, .manager] caller teamId
    Node.removeMember db teamId memberId

def spring (db : TeamDb) : TeamRequest → Except HttpException TeamDb
  | .createTeam caller name => Spring.createTeam db caller name
  | .addMember caller teamId userId role => Spring.addTeamMember db caller teamId userId role
  | .updateMemberRole caller teamId memberId role =>
    Spring.updateTeamMemberRole db caller teamId memberId role
  | .removeMember caller teamId memberId => Spring.removeTeamMember db caller teamId memberId

end TeamRequest

/-- The table after a request and whether it was accepted; a request that fails changes nothing. -/
def answer (db : TeamDb) : Except HttpException TeamDb → TeamDb × List Bool
  | .ok db' => (db', [true])
  | .error _ => (db, [false])

def nodeMachine (db : TeamDb) : Machine TeamDb TeamRequest Bool where
  init := db
  step db r := answer db (r.node db)

def springMachine (db : TeamDb) : Machine TeamDb TeamRequest Bool where
  init := db
  step db r := answer db (r.spring db)

/-! ### Statements of concurrent requests -/

/-- A request to the Node service, by the statement that it sends next. -/
inductive TeamCall where
  | creating (userId : Int) (name : String)
  | findingTeam (teamId userId : Int) (role : TeamRole)
  | findingUser (teamId userId : Int) (role : TeamRole)
  | findingMembership (teamId userId : Int) (role : TeamRole)
  | inserting (teamId userId : Int) (role : TeamRole)
  | findingMember (teamId memberId : Int) (change : Change)
  | counting (teamId memberId : Int) (change : Change)
  | writing (teamId memberId : Int) (change : Change)
  | done
  | failed (e : HttpException)
  deriving DecidableEq, Repr

namespace TeamCall

def ofResult (db : TeamDb) : Except HttpException TeamDb → TeamDb × TeamCall
  | .ok db' => (db', .done)
  | .error e => (db, .failed e)

def next (db : TeamDb) : TeamCall → TeamDb × TeamCall
  | .creating userId name => ofResult db (Node.createTeam db userId name)
  | .findingTeam teamId userId role => match db.findTeam teamId with
    | none => (db, .failed (.notFound "Team not found"))
    | some _ => (db, .findingUser teamId userId role)
  | .findingUser teamId userId role =>
    if !db.hasUser userId then (db, .failed (.notFound "User not found"))
    else (db, .findingMembership teamId userId role)
  | .findingMembership teamId userId role => match db.findMembership teamId userId with
    | some _ => (db, .failed (.badRequest "User is already a member of this team"))
    | none => (db, .inserting teamId userId role)
  | .inserting teamId userId role => ofResult db (Node.createMember db teamId userId role)
  | .findingMember teamId memberId change => match db.findMember memberId with
    | none => (db, .failed (.notFound "Team member not found"))
    | some m =>
      if m.teamId ≠ teamId then (db, .failed (.notFound "Team member not found"))
      else if m.role = .owner ∧ !change.keepsOwner then (db, .counting teamId memberId change)
      else (db, .writing teamId memberId change)
  | .counting teamId memberId change =>
    if db.ownerCount teamId ≤ 1 then (db, .failed (Node.lastOwner change))
    else (db, .writing teamId memberId change)
  | .writing _ memberId change => match db.findMember memberId with
    | none => (db, .failed .database)
    | some _ => (change.apply db memberId, .done)
  | .done => (db, .done)
  | .failed e => (db, .failed e)

end TeamCall

/-- A call of the service; the guard has let it pass. -/
inductive ServiceRequest where
  | createTeam (userId : Int) (name : String)
  | addMember (teamId userId : Int) (role : TeamRole)
  | updateMemberRole (teamId memberId : Int) (role : TeamRole)
  | removeMember (teamId memberId : Int)
  deriving DecidableEq, Repr

namespace ServiceRequest

def start : ServiceRequest → TeamCall
  | .createTeam userId name => .creating userId name
  | .addMember teamId userId role => .findingTeam teamId userId role
  | .updateMemberRole teamId memberId role => .findingMember teamId memberId (.setRole role)
  | .removeMember teamId memberId => .findingMember teamId memberId .remove

/-- The request as one function. -/
def node (db : TeamDb) : ServiceRequest → Except HttpException TeamDb
  | .createTeam userId name => Node.createTeam db userId name
  | .addMember teamId userId role => Node.addMember db teamId userId role
  | .updateMemberRole teamId memberId role => Node.updateMemberRole db teamId memberId role
  | .removeMember teamId memberId => Node.removeMember db teamId memberId

end ServiceRequest

def teamProtocol : Protocol TeamDb ServiceRequest TeamCall Unit where
  start := ServiceRequest.start
  next _ := TeamCall.next

/-- Any number of concurrent requests. -/
def concurrentTeams (users : List Int) :
    Machine (Threads TeamDb TeamCall) (Sched ServiceRequest Unit) Unit :=
  teamProtocol.machine { users := users }

/-- One statement of a request that runs alone. -/
def TeamCall.advance (s : TeamDb × TeamCall) : TeamDb × TeamCall := s.2.next s.1

theorem advance_ofResult (db : TeamDb) (x : Except HttpException TeamDb) :
    TeamCall.advance (TeamCall.ofResult db x) = TeamCall.ofResult db x := by
  cases x <;> rfl

theorem iterate_advance_change (db : TeamDb) (teamId memberId : Int) (change : Change) :
    Nat.iterate TeamCall.advance 4 (db, .findingMember teamId memberId change) =
      TeamCall.ofResult db (Node.changeMember db teamId memberId change) := by
  simp only [Function.iterate_succ_apply, Function.iterate_zero_apply, TeamCall.advance, TeamCall.next,
    Node.changeMember]
  cases hm : db.findMember memberId with
  | none => rfl
  | some m =>
    by_cases hteam : m.teamId = teamId
    · by_cases hcount : m.role = .owner ∧ change.keepsOwner = false
      · by_cases hlast : db.ownerCount teamId ≤ 1
        · simp [hteam, hcount, hlast, TeamCall.ofResult]
        · simp [hteam, hcount, hlast, TeamCall.ofResult, hm]
      · have hskip : ¬ (m.role = .owner ∧ change.keepsOwner = false ∧ db.ownerCount teamId ≤ 1) :=
          fun h => hcount ⟨h.1, h.2.1⟩
        simp [hteam, hcount, hskip, TeamCall.ofResult, hm]
    · simp [hteam, TeamCall.ofResult]

theorem iterate_advance_add (db : TeamDb) (teamId userId : Int) (role : TeamRole) :
    Nat.iterate TeamCall.advance 4 (db, .findingTeam teamId userId role) =
      TeamCall.ofResult db (Node.addMember db teamId userId role) := by
  cases hteam : db.findTeam teamId with
  | none => simp [TeamCall.advance, TeamCall.next, Node.addMember, hteam, TeamCall.ofResult]
  | some team =>
    cases huser : db.hasUser userId with
    | false => simp [TeamCall.advance, TeamCall.next, Node.addMember, hteam, huser, TeamCall.ofResult]
    | true =>
      cases hmember : db.findMembership teamId userId with
      | none => simp [TeamCall.advance, TeamCall.next, Node.addMember, hteam, huser, hmember]
      | some m =>
        simp [TeamCall.advance, TeamCall.next, Node.addMember, hteam, huser, hmember, TeamCall.ofResult]

/-- Undisturbed, the statements of a request do what its function does. -/
theorem iterate_advance_start (db : TeamDb) (r : ServiceRequest) :
    Nat.iterate TeamCall.advance 4 (db, r.start) = TeamCall.ofResult db (r.node db) := by
  cases r with
  | createTeam userId name =>
    show TeamCall.advance (TeamCall.advance (TeamCall.advance (TeamCall.ofResult db _))) = _
    rw [advance_ofResult, advance_ofResult, advance_ofResult]
    rfl
  | addMember teamId userId role => exact iterate_advance_add ..
  | updateMemberRole teamId memberId role => exact iterate_advance_change ..
  | removeMember teamId memberId => exact iterate_advance_change ..

end Portfolio.Teams
