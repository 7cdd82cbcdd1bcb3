import Portfolio.Teams.TeamService

/-!
# The two services agree

`ruling` says what a request comes to: who may make it (`Granted`) and what it does to the tables
(`effect`). Both services answer by it, although their checks stand in different places, and it
keeps the keys of the tables and an owner in every team (`Inv`). They part only at the name of a new
team that is too long for Spring (`NameFits`).
-/

namespace Portfolio.Teams
open TeamDb

/-! ### The ruling -/

/-- The user is OWNER or MANAGER of the team. -/
def CanManage (db : TeamDb) (userId teamId : Int) : Prop :=
  ∃ m ∈ db.findMembership teamId userId, m.role ≠ .member

instance (db : TeamDb) (userId teamId : Int) : Decidable (CanManage db userId teamId) :=
  inferInstanceAs (Decidable (∃ m ∈ db.findMembership teamId userId, _))

/-- The member is in the team and the change does not take the role from its last owner. -/
def ChangeOk (db : TeamDb) (teamId memberId : Int) (change : Change) : Prop :=
  ∃ m ∈ db.findMember memberId, m.teamId = teamId ∧
    ¬ (m.role = .owner ∧ change.keepsOwner = false ∧ db.ownerCount teamId ≤ 1)

instance (db : TeamDb) (teamId memberId : Int) (change : Change) :
    Decidable (ChangeOk db teamId memberId change) :=
  inferInstanceAs (Decidable (∃ m ∈ db.findMember memberId, _))

namespace TeamRequest

def Granted (db : TeamDb) : TeamRequest → Prop
  | .createTeam caller _ => db.hasUser caller = true
  | .addMember caller teamId userId _ =>
    CanManage db caller teamId ∧ db.hasUser userId = true ∧ db.findMembership teamId userId = none
  | .updateMemberRole caller teamId memberId role =>
    CanManage db caller teamId ∧ ChangeOk db teamId memberId (.setRole role)
  | .removeMember caller teamId memberId =>
    CanManage db caller teamId ∧ ChangeOk db teamId memberId .remove

instance (db : TeamDb) : ∀ r, Decidable (Granted db r)
  | .createTeam .. => inferInstanceAs (Decidable (_ = _))
  | .addMember .. => inferInstanceAs (Decidable (_ ∧ _ ∧ _))
  | .updateMemberRole .. => inferInstanceAs (Decidable (_ ∧ _))
  | .removeMember .. => inferInstanceAs (Decidable (_ ∧ _))

/-- The name of a new team fits into its column at Spring. -/
def NameFits : TeamRequest → Prop
  | .createTeam _ name => javaLength name ≤ 255
  | .addMember .. | .updateMemberRole .. | .removeMember .. => True

def effect (db : TeamDb) : TeamRequest → TeamDb
  | .createTeam caller name => (db.insertTeam name).1.insertMember db.nextTeamId caller .owner
  | .addMember _ teamId userId role => db.insertMember teamId userId role
  | .updateMemberRole _ _ memberId role => db.updateRole memberId role
  | .removeMember _ _ memberId => db.deleteMember memberId

def ruling (db : TeamDb) (r : TeamRequest) : TeamDb × List Bool :=
  if r.Granted db then (r.effect db, [true]) else (db, [false])

end TeamRequest

/-! ### Both services answer by it -/

section Answers
variable {db : TeamDb}

/-- A guard in front of a part of the ruling. -/
theorem answer_canActivate {userId teamId : Int} {x : Except HttpException TeamDb} {P : Prop}
    [Decidable P]
    {db' : TeamDb}
    (hx : CanManage db userId teamId → answer db x = if P then (db', [true]) else (db, [false])) :
    answer db (Node.canActivate db [.owner, .manager] userId teamId >>= fun _ => x) =
      if CanManage db userId teamId ∧ P then (db', [true]) else (db, [false]) := by
  by_cases hcan : CanManage db userId teamId
  · obtain ⟨m, hf, hm⟩ := id hcan
    rw [Option.mem_def] at hf
    have hmem : m.role ∈ [TeamRole.owner, .manager] := by
      revert hm
      cases m.role <;> simp
    simp only [Node.canActivate, hf, if_pos hmem, bind, Except.bind, hcan, true_and]
    exact hx hcan
  · rw [if_neg fun h => hcan h.1]
    rcases Option.eq_none_or_eq_some (db.findMembership teamId userId) with hf | ⟨m, hf⟩
    · simp [Node.canActivate, hf, bind, Except.bind, answer]
    · have hm : m.role = .member := by
        by_contra hm
        exact hcan ⟨m, hf, hm⟩
      simp [Node.canActivate, hf, hm, bind, Except.bind, answer]

theorem answer_assertCanManageMembers {userId teamId : Int} {x : Except HttpException TeamDb} {P : Prop}
    [Decidable P] {db' : TeamDb} (hx : answer db x = if P then (db', [true]) else (db, [false])) :
    answer db (Spring.assertCanManageMembers db userId teamId >>= fun _ => x) =
      if CanManage db userId teamId ∧ P then (db', [true]) else (db, [false]) := by
  rcases Option.eq_none_or_eq_some (db.findMembership teamId userId) with hf | ⟨m, hf⟩
  · simp [CanManage, Spring.assertCanManageMembers, hf, bind, Except.bind, answer]
  · cases hm : m.role <;>
      simp [CanManage, Spring.assertCanManageMembers, hf, hm, bind, Except.bind, ← hx, answer]

/-- The lookup of a member and the rule of the last owner, whatever the exceptions say. -/
theorem answer_change (db : TeamDb) (teamId memberId : Int) (change : Change)
    (missing other last : HttpException) :
    answer db (match db.findMember memberId with
      | none => .error missing
      | some m =>
        if m.teamId ≠ teamId then .error other
        else if m.role = .owner ∧ !change.keepsOwner ∧ db.ownerCount teamId ≤ 1 then .error last
        else .ok (change.apply db memberId)) =
      if ChangeOk db teamId memberId change then (change.apply db memberId, [true]) else (db, [false]) := by
  rcases Option.eq_none_or_eq_some (db.findMember memberId) with hm | ⟨m, hm⟩
  · simp [ChangeOk, hm, answer]
  · by_cases hteam : m.teamId = teamId
    · by_cases hlast : m.role = .owner ∧ change.keepsOwner = false ∧ db.ownerCount teamId ≤ 1
      · simp [ChangeOk, hm, hteam, hlast, answer]
      · have hok : ChangeOk db teamId memberId change := ⟨m, hm, hteam, hlast⟩
        have hguard : ¬ (m.role = .owner ∧ (!change.keepsOwner) = true ∧ db.ownerCount teamId ≤ 1) := by
          simpa using hlast
        simp only [hm, hteam, ne_eq, not_true_eq_false, if_false, hguard, if_pos hok, answer]
    · simp [ChangeOk, hm, hteam, answer]

theorem TeamDb.TablesOk.findMembership_new (h : TablesOk db) (name : String) (userId : Int) :
    (db.insertTeam name).1.findMembership db.nextTeamId userId = none := by
  refine List.find?_eq_none.2 fun m hm => ?_
  obtain ⟨t, ht, hid⟩ := h.team m hm
  have := h.teamFresh t ht
  simp only [decide_eq_true_eq, not_and]
  omega

theorem findTeam_new (db : TeamDb) (name : String) :
    ((db.insertTeam name).1.findTeam db.nextTeamId).isSome = true := by
  simp [findTeam, insertTeam]

theorem TeamDb.TablesOk.findTeam_of_membership (h : TablesOk db) {teamId userId : Int} {m : TeamMember}
    (hm : db.findMembership teamId userId = some m) : (db.findTeam teamId).isSome = true := by
  obtain ⟨hmem, hteam, -⟩ := findMembership_mem hm
  obtain ⟨t, ht, hid⟩ := h.team m hmem
  rw [findTeam, List.find?_isSome]
  exact ⟨t, ht, by simp [hid, hteam]⟩

/-- In front of the guard the team of a request exists, since the caller is one of its members. -/
theorem answer_addMember (h : TablesOk db) {caller teamId : Int} (hcan : CanManage db caller teamId)
    (userId : Int)
    (role : TeamRole) :
    answer db (Node.addMember db teamId userId role) =
      if db.hasUser userId = true ∧ db.findMembership teamId userId = none then
        (db.insertMember teamId userId role, [true])
      else (db, [false]) := by
  obtain ⟨m, hm, -⟩ := hcan
  have hteam := h.findTeam_of_membership hm
  obtain ⟨team, hteam'⟩ := Option.isSome_iff_exists.1 hteam
  cases huser : db.hasUser userId with
  | false => simp [Node.addMember, hteam', huser, answer]
  | true =>
    rcases Option.eq_none_or_eq_some (db.findMembership teamId userId) with hnew | ⟨n, hn⟩
    · simp [Node.addMember, Node.createMember, hteam', huser, hnew, answer]
    · simp [Node.addMember, hteam', huser, hn, answer]

theorem node_answer (h : TablesOk db) (r : TeamRequest) : answer db (r.node db) = r.ruling db := by
  cases r with
  | createTeam caller name =>
    have hnew := h.findMembership_new name caller
    have hteam := findTeam_new db name
    have huser : (db.insertTeam name).1.hasUser caller = db.hasUser caller := rfl
    have hid : (db.insertTeam name).2.id = db.nextTeamId := rfl
    cases hu : db.hasUser caller with
    | false =>
      simp [TeamRequest.node, Node.createTeam, Node.createMember, TeamRequest.ruling,
        TeamRequest.Granted, huser, hu, answer]
    | true =>
      simp [TeamRequest.node, Node.createTeam, Node.createMember, TeamRequest.ruling,
        TeamRequest.Granted, TeamRequest.effect, hid, hteam, hnew, huser, hu, answer]
  | addMember caller teamId userId role =>
    exact answer_canActivate fun hcan => answer_addMember h hcan userId role
  | updateMemberRole caller teamId memberId role => exact answer_canActivate fun _ => answer_change ..
  | removeMember caller teamId memberId => exact answer_canActivate fun _ => answer_change ..

theorem spring_answer (h : TablesOk db) {r : TeamRequest} (hfits : r.caller ∈ db.users → r.NameFits) :
    answer db (r.spring db) = r.ruling db := by
  cases r with
  | createTeam caller name =>
    have hnew := h.findMembership_new name caller
    have hid : (db.insertTeam name).2.id = db.nextTeamId := rfl
    cases hu : db.hasUser caller with
    | false =>
      simp [TeamRequest.spring, Spring.createTeam, TeamRequest.ruling, TeamRequest.Granted, hu, answer]
    | true =>
      have hname : javaLength name ≤ 255 := hfits (by simpa [hasUser, TeamRequest.caller] using hu)
      simp [TeamRequest.spring, Spring.createTeam, Spring.saveTeam, Spring.saveMember, hname, bind,
        Except.bind, TeamRequest.ruling, TeamRequest.Granted, TeamRequest.effect, hid, hnew, hu, answer]
  | addMember caller teamId userId role =>
    refine answer_assertCanManageMembers ?_
    cases huser : db.hasUser userId with
    | false => simp [answer]
    | true =>
      rcases Option.eq_none_or_eq_some (db.findMembership teamId userId) with hnew | ⟨n, hn⟩
      · simp [Spring.saveMember, hnew, TeamRequest.effect, answer]
      · simp [hn, answer]
  | updateMemberRole caller teamId memberId role => exact answer_assertCanManageMembers (answer_change ..)
  | removeMember caller teamId memberId => exact answer_assertCanManageMembers (answer_change ..)

/-- A name that is too long is refused by Spring, while the ruling grants the team. -/
theorem nameFits_of_spring_answer {r : TeamRequest}
    (h : (r.ruling db).2 = (answer db (r.spring db)).2) (hcaller : r.caller ∈ db.users) : r.NameFits := by
  cases r with
  | createTeam caller name =>
    have hu : db.hasUser caller = true := by simpa [hasUser, TeamRequest.caller] using hcaller
    by_contra hname
    have hlong : ¬ javaLength name ≤ 255 := hname
    simp [TeamRequest.ruling, TeamRequest.Granted, TeamRequest.spring, Spring.createTeam, Spring.saveTeam,
      hu, hlong, bind, Except.bind, answer] at h
  | addMember | updateMemberRole | removeMember => exact trivial

end Answers

/-! ### Owners -/

/-- The keys of the tables hold and every team has an owner. -/
structure Inv (db : TeamDb) : Prop where
  tables : TablesOk db
  owned : ∀ t ∈ db.teams, 0 < db.ownerCount t.id

namespace Inv
variable {db : TeamDb}

theorem init (users : List Int) : Inv { users := users } where
  tables := {
    ids := .nil
    fresh := fun _ h => by cases h
    unique := .nil
    team := fun _ h => by cases h
    teamFresh := fun _ h => by cases h }
  owned _ h := by cases h

theorem insertMember (h : Inv db) {teamId userId : Int} (hteam : ∃ t ∈ db.teams, t.id = teamId)
    (hnew : db.findMembership teamId userId = none) (role : TeamRole) :
    Inv (db.insertMember teamId userId role) := by
  refine ⟨h.tables.insertMember hteam hnew role, fun t ht => ?_⟩
  rw [ownerCount_insertMember]
  have := h.owned t ht
  omega

theorem createTeam (h : Inv db) (userId : Int) (name : String) :
    Inv ((db.insertTeam name).1.insertMember db.nextTeamId userId .owner) := by
  have hteam : ({ id := db.nextTeamId, name := name } : Team) ∈ (db.insertTeam name).1.teams := by
    simp [insertTeam]
  refine ⟨(h.tables.insertTeam name).insertMember ⟨_, hteam, rfl⟩ (h.tables.findMembership_new name userId) _,
    fun t ht => ?_⟩
  rw [ownerCount_insertMember]
  rcases List.mem_append.1 ht with ht | ht
  · have : 0 < (db.insertTeam name).1.ownerCount t.id := h.owned t ht
    omega
  · obtain rfl := List.mem_singleton.1 ht
    simp

/-- A change that the rule of the last owner lets pass. -/
theorem change (h : Inv db) {teamId memberId : Int} {change : Change}
    (hok : ChangeOk db teamId memberId change) :
    Inv (change.apply db memberId) := by
  obtain ⟨m, hm, hteam, hlast⟩ := hok
  obtain ⟨hmem, rfl⟩ := findMember_mem hm
  have hteams : (change.apply db m.id).teams = db.teams := by cases change <;> rfl
  refine ⟨h.tables.change _ _, fun t ht => h.tables.owned_change hmem (h.owned t (hteams ▸ ht)) ?_⟩
  intro howns hkeep
  simp only [TeamMember.owns, decide_eq_true_eq] at howns
  by_contra hle
  exact hlast ⟨howns.2, hkeep, by rw [← hteam, howns.1]; omega⟩

theorem effect (h : Inv db) {r : TeamRequest} (hr : r.Granted db) : Inv (r.effect db) := by
  cases r with
  | createTeam caller name => exact h.createTeam caller name
  | addMember caller teamId userId role =>
    obtain ⟨⟨m, hm, -⟩, -, hnew⟩ := hr
    obtain ⟨hmem, hteam, -⟩ := findMembership_mem hm
    exact h.insertMember (hteam ▸ h.tables.team m hmem) hnew role
  | updateMemberRole caller teamId memberId role => exact h.change hr.2
  | removeMember caller teamId memberId => exact h.change hr.2

theorem ruling (h : Inv db) (r : TeamRequest) : Inv (r.ruling db).1 := by
  unfold TeamRequest.ruling
  split
  · rename_i hr
    exact h.effect hr
  · exact h

end Inv

/-! ### Runs -/

theorem nodeMachine_inv {db : TeamDb} (h : Inv db) (requests : List TeamRequest) :
    Inv ((nodeMachine db).run requests).1 := by
  refine (nodeMachine db).run_inv (P := fun _ _ db => Inv db) h (fun _ _ db r h => ?_) requests
  show Inv (answer db (r.node db)).1
  rw [node_answer h.tables]
  exact h.ruling r

theorem answer_length (db db' : TeamDb) (x y : Except HttpException TeamDb) :
    (answer db x).2.length = (answer db' y).2.length := by
  cases x <;> cases y <;> rfl

theorem effect_users (db : TeamDb) (r : TeamRequest) : (r.effect db).users = db.users := by
  cases r <;> rfl

theorem ruling_users (db : TeamDb) (r : TeamRequest) : (r.ruling db).1.users = db.users := by
  unfold TeamRequest.ruling
  split
  · exact effect_users db r
  · rfl

/-- The Node and the Spring service accept the same requests and end with the same tables if and only
if the names of the teams that existing users create fit; in the tables every team has an owner and no
user is in a team twice. -/
theorem node_spring_agree_iff (users : List Int) (requests : List TeamRequest) :
    ((nodeMachine { users := users }).run requests = (springMachine { users := users }).run requests ↔
      ∀ r ∈ requests, r.caller ∈ users → r.NameFits) ∧
      (∀ t ∈ ((nodeMachine { users := users }).run requests).1.teams,
        ∃ m ∈ ((nodeMachine { users := users }).run requests).1.members,
          m.teamId = t.id ∧ m.role = .owner) ∧
      (((nodeMachine { users := users }).run requests).1.members.map fun m =>
        (m.teamId, m.userId)).Nodup := by
  have hnode : ∀ s r, Inv s → (nodeMachine { users := users }).step s r = r.ruling s :=
    fun s r hinv => node_answer hinv.tables r
  refine ⟨?_, fun t ht => ?_, (nodeMachine_inv (.init users) requests).tables.unique⟩
  · rw [← (nodeMachine { users := users }).along_iff_forall_mem]
    refine (nodeMachine _).run_eq_iff_along (springMachine { users := users })
      (I := fun db => Inv db ∧ db.users = users) rfl ⟨.init users, rfl⟩ ?_ (fun s t r => answer_length ..)
      ?_ ?_ requests
    · rintro s r ⟨hinv, hs⟩
      rw [hnode s r hinv]
      exact ⟨hinv.ruling r, (ruling_users s r).trans hs⟩
    · rintro s r ⟨hinv, rfl⟩ hfits
      rw [hnode s r hinv]
      exact (spring_answer hinv.tables hfits).symm
    · rintro s r ⟨hinv, rfl⟩ hout
      rw [hnode s r hinv] at hout
      exact nameFits_of_spring_answer hout
  · obtain ⟨m, hm, howns⟩ := List.countP_pos_iff.1 ((nodeMachine_inv (.init users) requests).owned t ht)
    exact ⟨m, hm, by simpa [TeamMember.owns] using howns⟩

theorem long_name_splits {name : String} (hlong : ¬ javaLength name ≤ 255) :
    ((nodeMachine { users := [1] }).run [.createTeam 1 name]).2 = [true] ∧
      ((springMachine { users := [1] }).run [.createTeam 1 name]).2 = [false] := by
  refine ⟨rfl, ?_⟩
  simp [springMachine, Machine.run, TeamRequest.spring, Spring.createTeam, Spring.saveTeam, hasUser,
    hlong, bind, Except.bind, answer]

/-- Node stores a name of 256 letters, Spring does not. -/
theorem long_name_refused :
    let name := String.ofList (List.replicate 256 'a')
    ((nodeMachine { users := [1] }).run [.createTeam 1 name]).2 = [true] ∧
      ((springMachine { users := [1] }).run [.createTeam 1 name]).2 = [false] := by
  have hlength : ∀ n, javaLength (String.ofList (List.replicate n 'a')) = n := by
    intro n
    simp [javaLength]
  have h256 := hlength 256
  exact long_name_splits (by omega)

end Portfolio.Teams
