import Mathlib.Data.Set.Insert
import Portfolio.Teams.Agreement

/-!
# Who decides about ownership

The guard of the Node service looks at the role of the caller and lets a MANAGER pass; the service
looks at the row it changes and asks for nothing but a second owner. So the owners of a team change
with every granted request that gives or takes the role (`Oversteps`), whoever makes it.
-/

namespace Portfolio.Teams
open TeamDb

/-- The members with role OWNER. -/
def owners (db : TeamDb) (teamId : Int) : Set TeamMember := {m | m ∈ db.members ∧ m.owns teamId = true}

namespace TeamRequest

/-- A request about the members of a team by a user who is not its OWNER. -/
def ByNonOwner (teamId : Int) (db : TeamDb) (r : TeamRequest) : Prop :=
  (∀ caller name, r ≠ .createTeam caller name) ∧ ∀ m ∈ db.findMembership teamId r.caller, m.role ≠ .owner

/-- The request would give or take the role OWNER of the team. -/
def TouchesOwner (teamId : Int) (db : TeamDb) : TeamRequest → Prop
  | .createTeam .. => False
  | .addMember _ team _ role => team = teamId ∧ role = .owner
  | .updateMemberRole _ _ memberId role =>
    ∃ m ∈ db.findMember memberId, m.teamId = teamId ∧ ¬ (m.role = .owner ↔ role = .owner)
  | .removeMember _ _ memberId => ∃ m ∈ db.findMember memberId, m.owns teamId = true

/-- It does: the caller is OWNER or MANAGER, and the rules of the service let it pass. -/
def Oversteps (teamId : Int) (db : TeamDb) (r : TeamRequest) : Prop :=
  r.Granted db ∧ r.TouchesOwner teamId db

end TeamRequest

/-! ### One request -/

section Step
variable {db : TeamDb} {teamId : Int}

theorem owners_insertMember (db : TeamDb) (team userId : Int) (role : TeamRole) (teamId : Int) :
    owners (db.insertMember team userId role) teamId =
      owners db teamId ∪
        {m | m = ⟨db.nextMemberId, team, userId, role⟩ ∧ team = teamId ∧ role = .owner} := by
  ext m
  simp only [owners, insertMember, List.mem_append, List.mem_singleton, Set.mem_ofPred_eq, Set.mem_union]
  constructor
  · rintro ⟨hm | rfl, howns⟩
    · exact .inl ⟨hm, howns⟩
    · exact .inr ⟨rfl, by simpa [TeamMember.owns] using howns⟩
  · rintro (⟨hm, howns⟩ | ⟨rfl, howns⟩)
    · exact ⟨.inl hm, howns⟩
    · exact ⟨.inr rfl, by simpa [TeamMember.owns] using howns⟩

theorem owners_insertMember_iff (h : TablesOk db) (team userId : Int) (role : TeamRole) :
    owners (db.insertMember team userId role) teamId = owners db teamId ↔
      ¬ (team = teamId ∧ role = .owner) := by
  rw [owners_insertMember]
  constructor
  · rintro heq ⟨hteam, hrole⟩
    have hmem : (⟨db.nextMemberId, team, userId, role⟩ : TeamMember) ∈ owners db teamId :=
      heq ▸ Set.mem_union_right _ ⟨rfl, hteam, hrole⟩
    have := h.fresh _ hmem.1
    simp at this
  · intro hnot
    refine Set.union_eq_self_of_subset_right fun m hm => absurd hm.2 hnot

theorem mem_owners_updateRole (h : TablesOk db) {m : TeamMember} (hm : m ∈ db.members) (role : TeamRole)
    (x : TeamMember) :
    x ∈ owners (db.updateRole m.id role) teamId ↔
      (x ∈ owners db teamId ∧ x.id ≠ m.id) ∨
        (x = { m with role := role } ∧ m.teamId = teamId ∧ role = .owner) := by
  constructor
  · rintro ⟨hx, howns⟩
    obtain ⟨y, hy, rfl⟩ := List.mem_map.1 hx
    by_cases hid : y.id = m.id
    · obtain rfl := List.inj_on_of_nodup_map h.ids hy hm hid
      simp only [if_true, TeamMember.owns, decide_eq_true_eq] at howns ⊢
      exact .inr ⟨trivial, howns⟩
    · rw [if_neg hid] at howns ⊢
      exact .inl ⟨⟨hy, howns⟩, hid⟩
  · rintro (⟨⟨hx, howns⟩, hid⟩ | ⟨rfl, hrow⟩)
    · exact ⟨List.mem_map.2 ⟨x, hx, if_neg hid⟩, howns⟩
    · exact ⟨List.mem_map.2 ⟨m, hm, if_pos rfl⟩, by simpa [TeamMember.owns] using hrow⟩

theorem owners_updateRole_iff (h : TablesOk db) {m : TeamMember} (hm : m ∈ db.members)
    (role : TeamRole) :
    owners (db.updateRole m.id role) teamId = owners db teamId ↔
      ¬ (m.teamId = teamId ∧ ¬ (m.role = .owner ↔ role = .owner)) := by
  have hrow : ∀ x ∈ owners db teamId, x.id = m.id → x = m ∧ m.teamId = teamId ∧ m.role = .owner := by
    intro x hx hid
    obtain rfl := List.inj_on_of_nodup_map h.ids hx.1 hm hid
    exact ⟨rfl, by simpa [TeamMember.owns] using hx.2⟩
  constructor
  · rintro heq ⟨hteam, hdiff⟩
    by_cases hrole : role = .owner
    · -- The role is given: the new row was not an owner before.
      have hmem : { m with role := role } ∈ owners db teamId :=
        heq ▸ (mem_owners_updateRole h hm role _).2 (.inr ⟨rfl, hteam, hrole⟩)
      obtain ⟨-, -, howner⟩ := hrow _ hmem rfl
      exact hdiff (iff_of_true howner hrole)
    · -- The role is taken: the old row is not an owner any more.
      have howner : m.role = .owner := by
        by_contra hno
        exact hdiff (iff_of_false hno hrole)
      have hmem : m ∈ owners (db.updateRole m.id role) teamId :=
        heq ▸ ⟨hm, by simp [TeamMember.owns, hteam, howner]⟩
      rcases (mem_owners_updateRole h hm role m).1 hmem with ⟨-, hne⟩ | ⟨-, -, hr⟩
      · exact hne rfl
      · exact hrole hr
  · intro hnot
    ext x
    rw [mem_owners_updateRole h hm role]
    constructor
    · rintro (⟨hx, -⟩ | ⟨rfl, hteam, hrole⟩)
      · exact hx
      · have howner : m.role = .owner := by
          by_contra hno
          exact hnot ⟨hteam, fun hiff => hno (hiff.2 hrole)⟩
        have hsame : { m with role := role } = m := by rw [hrole, ← howner]
        rw [hsame]
        exact ⟨hm, by simp [TeamMember.owns, hteam, howner]⟩
    · intro hx
      by_cases hid : x.id = m.id
      · obtain ⟨rfl, hteam, howner⟩ := hrow x hx hid
        have hrole : role = .owner := by
          by_contra hno
          exact hnot ⟨hteam, fun hiff => hno (hiff.1 howner)⟩
        exact .inr ⟨by rw [hrole, ← howner], hteam, hrole⟩
      · exact .inl ⟨hx, hid⟩

theorem owners_deleteMember_iff (h : TablesOk db) {m : TeamMember} (hm : m ∈ db.members) :
    owners (db.deleteMember m.id) teamId = owners db teamId ↔ ¬ m.owns teamId = true := by
  constructor
  · intro heq howns
    have hmem : m ∈ owners (db.deleteMember m.id) teamId := heq ▸ ⟨hm, howns⟩
    simpa using (List.mem_filter.1 hmem.1).2
  · intro hnot
    ext x
    constructor
    · rintro ⟨hx, howns⟩
      exact ⟨List.mem_of_mem_filter hx, howns⟩
    · rintro ⟨hx, howns⟩
      refine ⟨List.mem_filter.2 ⟨hx, ?_⟩, howns⟩
      simp only [ne_eq, decide_not, Bool.not_eq_true', decide_eq_false_iff_not]
      intro hid
      obtain rfl := List.inj_on_of_nodup_map h.ids hx hm hid
      exact hnot howns

/-- A request about members changes the owners if and only if it oversteps. -/
theorem owners_ruling_iff (h : TablesOk db) {r : TeamRequest}
    (hr : ∀ caller name, r ≠ .createTeam caller name) :
    owners (r.ruling db).1 teamId = owners db teamId ↔ ¬ r.Oversteps teamId db := by
  unfold TeamRequest.ruling TeamRequest.Oversteps
  split
  · rename_i hg
    rw [and_iff_right hg]
    cases r with
    | createTeam caller name => exact absurd rfl (hr caller name)
    | addMember caller team userId role => exact owners_insertMember_iff h team userId role
    | updateMemberRole caller team memberId role =>
      obtain ⟨-, m, hm, -⟩ := hg
      obtain ⟨hmem, rfl⟩ := findMember_mem hm
      rw [Option.mem_def] at hm
      simpa [TeamRequest.TouchesOwner, TeamRequest.effect, hm] using owners_updateRole_iff h hmem role
    | removeMember caller team memberId =>
      obtain ⟨-, m, hm, -⟩ := hg
      obtain ⟨hmem, rfl⟩ := findMember_mem hm
      rw [Option.mem_def] at hm
      simpa [TeamRequest.TouchesOwner, TeamRequest.effect, hm] using owners_deleteMember_iff h hmem
  · rename_i hg
    exact iff_of_true rfl fun ho => hg ho.1

end Step

/-! ### Sequences -/

/-- The tables after some requests to a server that starts empty. -/
def reached (users : List Int) (before : List TeamRequest) : TeamDb :=
  ((nodeMachine { users := users }).run before).1

/-- From every state that can be reached: requests of users who are not OWNER of the team leave its
owners alone all along if and only if none of them oversteps. -/
theorem owners_unchanged_iff (users : List Int) (before requests : List TeamRequest) (teamId : Int)
    (h : (nodeMachine (reached users before)).Along (TeamRequest.ByNonOwner teamId) requests) :
    (∀ pre, pre <+: requests →
        owners ((nodeMachine (reached users before)).run pre).1 teamId =
          owners (reached users before) teamId) ↔
      (nodeMachine (reached users before)).Along (fun db r => ¬ r.Oversteps teamId db) requests := by
  have hinv : ∀ pre, Inv ((nodeMachine (reached users before)).run pre).1 := fun pre =>
    nodeMachine_inv (nodeMachine_inv (.init users) before) pre
  have hstep : ∀ pre r, pre ++ [r] <+: requests →
      (owners ((nodeMachine (reached users before)).run (pre ++ [r])).1 teamId =
          owners ((nodeMachine (reached users before)).run pre).1 teamId ↔
        ¬ r.Oversteps teamId ((nodeMachine (reached users before)).run pre).1) := by
    rintro pre r ⟨post, rfl⟩
    have hr : (∀ caller name, r ≠ .createTeam caller name) ∧ _ := h pre r post (by simp)
    have hrun : ((nodeMachine (reached users before)).run (pre ++ [r])).1 =
        (r.ruling ((nodeMachine (reached users before)).run pre).1).1 := by
      rw [Machine.run_concat, ← node_answer (hinv pre).tables r]
      rfl
    rw [hrun]
    exact owners_ruling_iff (hinv pre).tables hr.1
  have hgood : ∀ pre, pre <+: requests →
      (nodeMachine (reached users before)).Along (fun db r => ¬ r.Oversteps teamId db) pre →
      owners ((nodeMachine (reached users before)).run pre).1 teamId =
        owners (reached users before) teamId := by
    intro pre hpre halong
    induction pre using List.reverseRecOn with
    | nil => rfl
    | append_singleton pre r ih =>
      obtain ⟨halong, hr⟩ := (Machine.along_concat _).1 halong
      rw [(hstep pre r hpre).2 hr]
      exact ih ((List.prefix_append ..).trans hpre) halong
  refine (nodeMachine (reached users before)).always_iff_along
    (P := fun s => owners s.1 teamId = owners (reached users before) teamId) hgood
    fun pre r hpre halong hP => ?_
  have hsame := hgood pre ((List.prefix_append ..).trans hpre) halong
  exact (hstep pre r hpre).1 (hP.trans hsame.symm)

/-- A team with the owner 1 and the manager 2. -/
def managed : List TeamRequest := [.createTeam 1 "team", .addMember 1 1 2 .manager]

/-- The manager adds an ordinary member. -/
theorem owners_unchanged_iff_add_member :
    TeamRequest.ByNonOwner 1 (reached [1, 2, 3] managed) (.addMember 2 1 3 .member) ∧
      ∀ pre, pre <+: [TeamRequest.addMember 2 1 3 .member] →
        owners ((nodeMachine (reached [1, 2, 3] managed)).run pre).1 1 =
          owners (reached [1, 2, 3] managed) 1 := by
  have hby : TeamRequest.ByNonOwner 1 (reached [1, 2, 3] managed) (.addMember 2 1 3 .member) :=
    ⟨by simp, by decide⟩
  have hnot : ¬ TeamRequest.Oversteps 1 (reached [1, 2, 3] managed) (.addMember 2 1 3 .member) :=
    fun h => absurd h.2.2 (by decide)
  refine ⟨hby, (owners_unchanged_iff _ _ _ 1 ?_).2 ?_⟩
  · exact (Machine.along_concat _).2 ⟨Machine.along_nil _ _, hby⟩
  · exact (Machine.along_concat _).2 ⟨Machine.along_nil _ _, hnot⟩

/-- The manager makes itself an owner. -/
theorem manager_becomes_owner :
    TeamRequest.ByNonOwner 1 (reached [1, 2] managed) (.updateMemberRole 2 1 2 .owner) ∧
      owners ((nodeMachine (reached [1, 2] managed)).run [.updateMemberRole 2 1 2 .owner]).1 1 ≠
        owners (reached [1, 2] managed) 1 := by
  refine ⟨⟨by simp, by decide⟩, fun heq => ?_⟩
  have hmem : (⟨2, 1, 2, .owner⟩ : TeamMember) ∈
      owners ((nodeMachine (reached [1, 2] managed)).run [.updateMemberRole 2 1 2 .owner]).1 1 :=
    ⟨by decide, by decide⟩
  rw [heq] at hmem
  exact absurd hmem.1 (by decide)

end Portfolio.Teams
