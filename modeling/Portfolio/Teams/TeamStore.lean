import Mathlib.Data.List.Nodup

/-!
# Team tables

The tables of teams and memberships behind the two team services (`backend/node.js`,
`backend/spring`), with the statements that the services send. Ids are assigned in order; the times
of the rows are left out. `TablesOk` is what the keys of the tables promise.
-/

namespace Portfolio.Teams

inductive TeamRole where
  | owner
  | manager
  | member
  deriving DecidableEq, Repr

structure Team where
  id : Int
  name : String
  deriving DecidableEq, Repr

structure TeamMember where
  id : Int
  teamId : Int
  userId : Int
  role : TeamRole
  deriving DecidableEq, Repr

/-- The member is an owner of the team. -/
def TeamMember.owns (m : TeamMember) (teamId : Int) : Bool :=
  decide (m.teamId = teamId ∧ m.role = .owner)

structure TeamDb where
  users : List Int
  teams : List Team := []
  members : List TeamMember := []
  nextTeamId : Int := 1
  nextMemberId : Int := 1
  deriving DecidableEq, Repr

namespace TeamDb

/-! ### Statements -/

def findTeam (db : TeamDb) (id : Int) : Option Team := db.teams.find? (·.id = id)

def hasUser (db : TeamDb) (id : Int) : Bool := decide (id ∈ db.users)

def findMember (db : TeamDb) (id : Int) : Option TeamMember := db.members.find? (·.id = id)

def findMembership (db : TeamDb) (teamId userId : Int) : Option TeamMember :=
  db.members.find? fun m => m.teamId = teamId ∧ m.userId = userId

def ownerCount (db : TeamDb) (teamId : Int) : Nat := db.members.countP (·.owns teamId)

def insertTeam (db : TeamDb) (name : String) : TeamDb × Team :=
  let team := { id := db.nextTeamId, name := name }
  ({ db with teams := db.teams ++ [team], nextTeamId := db.nextTeamId + 1 }, team)

def insertMember (db : TeamDb) (teamId userId : Int) (role : TeamRole) : TeamDb :=
  { db with
    members := db.members ++ [{ id := db.nextMemberId, teamId := teamId, userId := userId, role := role }]
    nextMemberId := db.nextMemberId + 1 }

def updateRole (db : TeamDb) (id : Int) (role : TeamRole) : TeamDb :=
  { db with members := db.members.map fun m => if m.id = id then { m with role := role } else m }

def deleteMember (db : TeamDb) (id : Int) : TeamDb :=
  { db with members := db.members.filter (·.id ≠ id) }

/-! ### Keys -/

structure TablesOk (db : TeamDb) : Prop where
  ids : (db.members.map (·.id)).Nodup
  fresh : ∀ m ∈ db.members, m.id < db.nextMemberId
  unique : (db.members.map fun m => (m.teamId, m.userId)).Nodup
  team : ∀ m ∈ db.members, ∃ t ∈ db.teams, t.id = m.teamId
  teamFresh : ∀ t ∈ db.teams, t.id < db.nextTeamId

variable {db : TeamDb}

theorem findMember_mem {id : Int} {m : TeamMember} (h : db.findMember id = some m) :
    m ∈ db.members ∧ m.id = id :=
  ⟨List.mem_of_find?_eq_some h, by simpa using List.find?_some h⟩

theorem findMembership_mem {teamId userId : Int} {m : TeamMember}
    (h : db.findMembership teamId userId = some m) :
    m ∈ db.members ∧ m.teamId = teamId ∧ m.userId = userId :=
  ⟨List.mem_of_find?_eq_some h, by simpa using List.find?_some h⟩

/-- The row with a given id, and the rows around it. -/
theorem TablesOk.split (h : TablesOk db) {m : TeamMember} (hm : m ∈ db.members) :
    ∃ l r, db.members = l ++ m :: r ∧ (∀ x ∈ l, x.id ≠ m.id) ∧ ∀ x ∈ r, x.id ≠ m.id := by
  obtain ⟨l, r, hlr⟩ := List.append_of_mem hm
  have hids := h.ids
  rw [hlr, List.map_append, List.map_cons, List.nodup_append] at hids
  obtain ⟨-, hr, hdisj⟩ := hids
  refine ⟨l, r, hlr, fun x hx heq => ?_, fun x hx heq => ?_⟩
  · exact hdisj x.id (List.mem_map_of_mem hx) m.id (by simp) heq
  · exact (List.nodup_cons.1 hr).1 (heq ▸ List.mem_map_of_mem hx)

theorem TablesOk.updateRole_members (h : TablesOk db) {m : TeamMember} (hm : m ∈ db.members)
    (role : TeamRole) :
    ∃ l r, db.members = l ++ m :: r ∧
      (db.updateRole m.id role).members = l ++ { m with role := role } :: r := by
  obtain ⟨l, r, hlr, hl, hr⟩ := h.split hm
  have hkeep : ∀ k : List TeamMember, (∀ x ∈ k, x.id ≠ m.id) →
      k.map (fun x => if x.id = m.id then { x with role := role } else x) = k := by
    intro k hk
    exact (List.map_congr_left fun x hx => if_neg (hk x hx)).trans (List.map_id' k)
  refine ⟨l, r, hlr, ?_⟩
  simp only [updateRole, hlr, List.map_append, List.map_cons, if_true, hkeep l hl, hkeep r hr]

theorem TablesOk.deleteMember_members (h : TablesOk db) {m : TeamMember} (hm : m ∈ db.members) :
    ∃ l r, db.members = l ++ m :: r ∧ (db.deleteMember m.id).members = l ++ r := by
  obtain ⟨l, r, hlr, hl, hr⟩ := h.split hm
  refine ⟨l, r, hlr, ?_⟩
  simp only [deleteMember, hlr, List.filter_append, List.filter_cons, ne_eq, not_true_eq_false,
    decide_false]
  rw [List.filter_eq_self.2 fun x hx => by simpa using hl x hx,
    List.filter_eq_self.2 fun x hx => by simpa using hr x hx]
  rfl

/-! ### Owners -/

theorem ownerCount_insertMember (db : TeamDb) (teamId userId : Int) (role : TeamRole) (t : Int) :
    (db.insertMember teamId userId role).ownerCount t =
      db.ownerCount t + if teamId = t ∧ role = .owner then 1 else 0 := by
  simp [ownerCount, insertMember, List.countP_append, List.countP_singleton, TeamMember.owns]

theorem TablesOk.ownerCount_updateRole (h : TablesOk db) {m : TeamMember} (hm : m ∈ db.members)
    (role : TeamRole)
    (t : Int) :
    (db.updateRole m.id role).ownerCount t + (if m.owns t then 1 else 0) =
      db.ownerCount t + if m.teamId = t ∧ role = .owner then 1 else 0 := by
  obtain ⟨l, r, hlr, hlr'⟩ := h.updateRole_members hm role
  simp only [ownerCount, hlr, hlr', List.countP_append, List.countP_cons]
  simp only [TeamMember.owns, decide_eq_true_eq]
  omega

theorem TablesOk.ownerCount_deleteMember (h : TablesOk db) {m : TeamMember} (hm : m ∈ db.members)
    (t : Int) :
    (db.deleteMember m.id).ownerCount t + (if m.owns t then 1 else 0) = db.ownerCount t := by
  obtain ⟨l, r, hlr, hlr'⟩ := h.deleteMember_members hm
  simp only [ownerCount, hlr, hlr', List.countP_append, List.countP_cons]
  omega

/-! ### Statements keep the keys -/

namespace TablesOk

theorem updateRole (h : TablesOk db) (id : Int) (role : TeamRole) :
    TablesOk (db.updateRole id role) := by
  have hids : (db.updateRole id role).members.map (·.id) = db.members.map (·.id) := by
    simp only [TeamDb.updateRole, List.map_map]
    refine List.map_congr_left fun m _ => ?_
    simp only [Function.comp]
    split <;> rfl
  have hkeys : (db.updateRole id role).members.map (fun m => (m.teamId, m.userId)) =
      db.members.map fun m => (m.teamId, m.userId) := by
    simp only [TeamDb.updateRole, List.map_map]
    refine List.map_congr_left fun m _ => ?_
    simp only [Function.comp]
    split <;> rfl
  have hrow : ∀ m ∈ (db.updateRole id role).members,
      ∃ n ∈ db.members, m.id = n.id ∧ m.teamId = n.teamId := by
    intro m hm
    obtain ⟨n, hn, rfl⟩ := List.mem_map.1 hm
    refine ⟨n, hn, ?_⟩
    split <;> exact ⟨rfl, rfl⟩
  refine ⟨hids ▸ h.ids, fun m hm => ?_, hkeys ▸ h.unique, fun m hm => ?_, h.teamFresh⟩
  · obtain ⟨n, hn, hid, -⟩ := hrow m hm
    rw [hid]
    exact h.fresh n hn
  · obtain ⟨n, hn, -, hteam⟩ := hrow m hm
    rw [hteam]
    exact h.team n hn

theorem deleteMember (h : TablesOk db) (id : Int) : TablesOk (db.deleteMember id) where
  ids := (List.filter_sublist.map _).nodup h.ids
  fresh m hm := h.fresh m (List.mem_of_mem_filter hm)
  unique := (List.filter_sublist.map _).nodup h.unique
  team m hm := h.team m (List.mem_of_mem_filter hm)
  teamFresh := h.teamFresh

theorem insertTeam (h : TablesOk db) (name : String) : TablesOk (db.insertTeam name).1 where
  ids := h.ids
  fresh := h.fresh
  unique := h.unique
  team m hm := by
    obtain ⟨t, ht, hid⟩ := h.team m hm
    exact ⟨t, List.mem_append_left _ ht, hid⟩
  teamFresh t ht := by
    show t.id < db.nextTeamId + 1
    rcases List.mem_append.1 ht with ht | ht
    · have := h.teamFresh t ht
      omega
    · obtain rfl := List.mem_singleton.1 ht
      show db.nextTeamId < db.nextTeamId + 1
      omega

theorem insertMember (h : TablesOk db) {teamId userId : Int} (hteam : ∃ t ∈ db.teams, t.id = teamId)
    (hnew : db.findMembership teamId userId = none) (role : TeamRole) :
    TablesOk (db.insertMember teamId userId role) := by
  have hfresh : db.nextMemberId ∉ db.members.map (·.id) := by
    intro hmem
    obtain ⟨m, hm, hid⟩ := List.mem_map.1 hmem
    have := h.fresh m hm
    omega
  have hpair : (teamId, userId) ∉ db.members.map fun m => (m.teamId, m.userId) := by
    intro hmem
    obtain ⟨m, hm, heq⟩ := List.mem_map.1 hmem
    obtain ⟨rfl, rfl⟩ := Prod.mk.inj heq
    simpa using List.find?_eq_none.1 hnew m hm
  refine ⟨?_, fun m hm => ?_, ?_, fun m hm => ?_, h.teamFresh⟩
  · simp only [TeamDb.insertMember, List.map_append, List.map_singleton]
    exact List.concat_eq_append ▸ h.ids.concat hfresh
  · show m.id < db.nextMemberId + 1
    rcases List.mem_append.1 hm with hm | hm
    · have := h.fresh m hm
      omega
    · obtain rfl := List.mem_singleton.1 hm
      show db.nextMemberId < db.nextMemberId + 1
      omega
  · simp only [TeamDb.insertMember, List.map_append, List.map_singleton]
    exact List.concat_eq_append ▸ h.unique.concat hpair
  · rcases List.mem_append.1 hm with hm | hm
    · exact h.team m hm
    · obtain rfl := List.mem_singleton.1 hm
      exact hteam

end TablesOk
end TeamDb
end Portfolio.Teams
