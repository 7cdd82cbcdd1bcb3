import Portfolio.Teams.Agreement

/-!
# The last owner under concurrency

`updateMemberRole` and `removeMember` read the member, count the owners and write, each in a
statement of its own. What they have read stays true until they write (`Current`) unless another
request takes the role from one of two owners while they are about to take it from the other
(`Exclusive`). Requests that add owners or take the role from nobody do not matter.
-/

namespace Portfolio.Teams
open TeamDb

/-- The team whose members the next statement changes. -/
def TeamCall.writtenTeam : TeamCall → Option Int
  | .writing teamId _ _ => some teamId
  | _ => none

/-- Team and member about which the call has read and has not written yet. -/
def TeamCall.target : TeamCall → Option (Int × Int)
  | .counting teamId memberId _ | .writing teamId memberId _ => some (teamId, memberId)
  | _ => none

/-- Team and member, if the next statement takes the role of an owner. -/
def TeamCall.takes (db : TeamDb) : TeamCall → Option (Int × Int)
  | .writing teamId memberId change =>
    if (db.findMember memberId).any (·.role = .owner) && !change.keepsOwner then some (teamId, memberId) else none
  | _ => none

/-- A request takes the role from an owner while another one of the team is about to take it from another
owner only if the team has a third. -/
def Exclusive (s : Threads TeamDb TeamCall) (k : TeamCall) (_ : Unit) : Prop :=
  ∀ x ∈ k.takes s.shared, ∀ l ∈ s.calls, ∀ y ∈ l.takes s.shared,
    y.1 = x.1 → y.2 = x.2 ∨ 2 < s.shared.ownerCount x.1

instance (s : Threads TeamDb TeamCall) (k : TeamCall) (u : Unit) : Decidable (Exclusive s k u) :=
  inferInstanceAs (Decidable (∀ x ∈ k.takes s.shared, ∀ l ∈ s.calls, ∀ y ∈ l.takes s.shared,
    y.1 = x.1 → y.2 = x.2 ∨ 2 < s.shared.ownerCount x.1))

/-- What the call has read is still so. -/
def Current (db : TeamDb) : TeamCall → Prop
  | .counting teamId memberId _ =>
    memberId < db.nextMemberId ∧ ∀ m ∈ db.members, m.id = memberId → m.teamId = teamId
  | .writing teamId memberId change =>
    (memberId < db.nextMemberId ∧ ∀ m ∈ db.members, m.id = memberId → m.teamId = teamId) ∧
      ∀ m ∈ db.members, m.id = memberId → m.role = .owner → change.keepsOwner = false →
        1 < db.ownerCount teamId
  | _ => True

structure ConcurrentInv (s : Threads TeamDb TeamCall) : Prop where
  db : Inv s.shared
  current : ∀ k ∈ s.calls, Current s.shared k

/-! ### Other calls -/

/-- What a call has read outlives a change that leaves its row and the number of owners of its
team. -/
theorem Current.mono {db db' : TeamDb} {k : TeamCall} (h : Current db k)
    (hnext : db.nextMemberId ≤ db'.nextMemberId)
    (hkeep : ∀ t id, k.target = some (t, id) → id < db.nextMemberId →
      (∀ m ∈ db.members, m.id = id → m.teamId = t) →
      (∀ m ∈ db'.members, m.id = id → m ∈ db.members) ∧ db.ownerCount t ≤ db'.ownerCount t) :
    Current db' k := by
  cases k with
  | counting t memberId change =>
    obtain ⟨hrow, -⟩ := hkeep t memberId rfl h.1 h.2
    exact ⟨Int.lt_of_lt_of_le h.1 hnext, fun m hm hid => h.2 m (hrow m hm hid) hid⟩
  | writing t memberId change =>
    obtain ⟨⟨hlt, hteam⟩, hlast⟩ := h
    obtain ⟨hrow, hcount⟩ := hkeep t memberId rfl hlt hteam
    refine ⟨⟨Int.lt_of_lt_of_le hlt hnext, fun m hm hid => hteam m (hrow m hm hid) hid⟩,
      fun m hm hid ho hk => ?_⟩
    exact Nat.lt_of_lt_of_le (hlast m (hrow m hm hid) hid ho hk) hcount
  | _ => trivial

/-- An insert keeps what other calls have read. -/
theorem Current.insertMember {db : TeamDb} {k : TeamCall} (h : Current db k) (teamId userId : Int)
    (role : TeamRole) :
    Current (db.insertMember teamId userId role) k := by
  have hnext : db.nextMemberId ≤ db.nextMemberId + 1 := by omega
  refine h.mono hnext fun t id _ hlt _ => ⟨fun m hm hid => ?_, ?_⟩
  · rcases List.mem_append.1 hm with hm | hm
    · exact hm
    · obtain rfl := List.mem_singleton.1 hm
      have : db.nextMemberId = id := hid
      omega
  · rw [ownerCount_insertMember]
    omega

/-- The rows after a change: those of other members, and that of the member with its new role. -/
theorem mem_change {db : TeamDb} (h : TablesOk db) {m x : TeamMember} (hm : m ∈ db.members) {change : Change}
    (hx : x ∈ (change.apply db m.id).members) :
    (x ∈ db.members ∧ x.id ≠ m.id) ∨ ∃ role, change = .setRole role ∧ x = { m with role := role } := by
  cases change with
  | setRole role =>
    obtain ⟨y, hy, rfl⟩ := List.mem_map.1 hx
    by_cases hid : y.id = m.id
    · rw [if_pos hid, List.inj_on_of_nodup_map h.ids hy hm hid]
      exact .inr ⟨role, rfl, rfl⟩
    · rw [if_neg hid]
      exact .inl ⟨hy, hid⟩
  | remove =>
    obtain ⟨hmem, hid⟩ := List.mem_filter.1 hx
    exact .inl ⟨hmem, by simpa using hid⟩

theorem takes_writing {db : TeamDb} (h : TablesOk db) {x : TeamMember} (hx : x ∈ db.members)
    (hrole : x.role = .owner) {change : Change} (hkeep : change.keepsOwner = false) (teamId : Int) :
    TeamCall.takes db (.writing teamId x.id change) = some (teamId, x.id) := by
  have hfind : db.findMember x.id = some x := by
    cases hfind : db.findMember x.id with
    | none => exact absurd (decide_eq_true rfl) (List.find?_eq_none.1 hfind x hx)
    | some y =>
      obtain ⟨hy, hid⟩ := findMember_mem hfind
      rw [List.inj_on_of_nodup_map h.ids hy hx hid]
  simp [TeamCall.takes, hfind, hrole, hkeep]

/-- What a call has read outlives a change, unless that takes the role from one of two owners and the call is
about to take it from the other. -/
theorem Current.change {db : TeamDb} {l : TeamCall} (h : Current db l) (hdb : Inv db) {m : TeamMember}
    (hm : m ∈ db.members) (change : Change)
    (hapart : m.role = .owner → change.keepsOwner = false → ∀ y ∈ l.takes db, y.1 = m.teamId →
      y.2 = m.id ∨ 2 < db.ownerCount m.teamId) :
    Current (change.apply db m.id) l := by
  have hnext : (change.apply db m.id).nextMemberId = db.nextMemberId := by cases change <;> rfl
  have hrow : ∀ t id, (∀ x ∈ db.members, x.id = id → x.teamId = t) →
      ∀ x ∈ (change.apply db m.id).members, x.id = id → x.teamId = t := by
    intro t id hteam x hx hid
    rcases mem_change hdb.tables hm hx with ⟨hold, -⟩ | ⟨role, -, rfl⟩
    · exact hteam x hold hid
    · exact hteam m hm hid
  cases l with
  | counting t id change' => exact ⟨hnext ▸ h.1, hrow t id h.2⟩
  | writing t id change' =>
    obtain ⟨⟨hlt, hteam⟩, hlast⟩ := h
    refine ⟨⟨hnext ▸ hlt, hrow t id hteam⟩, fun x hx hid ho hk => ?_⟩
    have hcount := hdb.tables.ownerCount_change hm change t
    rcases mem_change hdb.tables hm hx with ⟨hold, hother⟩ | ⟨role, rfl, rfl⟩
    · -- another member's row
      have hbefore := hlast x hold hid ho hk
      cases howns : m.owns t with
      | false =>
        rw [howns, if_neg Bool.false_ne_true] at hcount
        omega
      | true =>
        obtain ⟨hmteam, hmrole⟩ : m.teamId = t ∧ m.role = .owner := by simpa [TeamMember.owns] using howns
        rw [howns, if_pos rfl] at hcount
        cases hkeep : change.keepsOwner with
        | true =>
          have hboth : m.teamId = t ∧ change.keepsOwner = true := ⟨hmteam, hkeep⟩
          rw [if_pos hboth] at hcount
          omega
        | false =>
          have htakes := takes_writing hdb.tables hold ho hk t
          rw [hid] at htakes
          rcases hapart hmrole hkeep _ htakes hmteam.symm with hsame | hthree
          · exact absurd (hid.trans hsame) hother
          · rw [hmteam] at hthree
            omega
    · -- the row of the member itself, which is or has become an owner
      have hmteam : m.teamId = t := hteam m hm hid
      have hboth : m.teamId = t ∧ (Change.setRole role).keepsOwner = true := ⟨hmteam, decide_eq_true ho⟩
      rw [if_pos hboth] at hcount
      obtain ⟨team, hmem, hteamId⟩ := hdb.tables.team m hm
      have hpos := hdb.owned team hmem
      rw [hteamId, hmteam] at hpos
      cases howns : m.owns t with
      | false =>
        rw [howns, if_neg Bool.false_ne_true] at hcount
        omega
      | true =>
        obtain ⟨-, hmrole⟩ : m.teamId = t ∧ m.role = .owner := by simpa [TeamMember.owns] using howns
        have hbefore := hlast m hm hid hmrole hk
        rw [howns, if_pos rfl] at hcount
        omega
  | _ => trivial

/-! ### Steps -/

/-- What a statement other than a write leaves behind: what it has read is so, and what others have
read stays. -/
structure ReadsOk (db : TeamDb) (s : TeamDb × TeamCall) : Prop where
  inv : Inv s.1
  own : Current s.1 s.2
  others : ∀ l, Current db l → Current s.1 l

theorem ReadsOk.same {db : TeamDb} (h : Inv db) {k : TeamCall} (hk : Current db k) :
    ReadsOk db (db, k) :=
  ⟨h, hk, fun _ hl => hl⟩

theorem reads_createMember {db : TeamDb} (h : Inv db) (teamId userId : Int) (role : TeamRole) :
    ReadsOk db (TeamCall.ofResult db (Node.createMember db teamId userId role)) := by
  unfold Node.createMember
  split
  · rename_i hok
    obtain ⟨hteam, -, hnew⟩ := hok
    obtain ⟨t, ht⟩ := Option.isSome_iff_exists.1 hteam
    have hmem : ∃ t ∈ db.teams, t.id = teamId :=
      ⟨t, List.mem_of_find?_eq_some ht, by simpa using List.find?_some ht⟩
    exact ⟨h.insertMember hmem hnew role, trivial, fun l hl => hl.insertMember teamId userId role⟩
  · exact .same h trivial

theorem reads_createTeam {db : TeamDb} (h : Inv db) (userId : Int) (name : String) :
    ReadsOk db (TeamCall.ofResult db (Node.createTeam db userId name)) := by
  unfold Node.createTeam Node.createMember
  split
  · refine ⟨h.createTeam userId name, trivial, fun l hl => ?_⟩
    have hteam : Current (db.insertTeam name).1 l := hl
    exact hteam.insertMember _ userId .owner
  · exact .same h trivial

theorem reads_findMember {db : TeamDb} (h : Inv db) (teamId memberId : Int) (change : Change) :
    ReadsOk db (TeamCall.next db (.findingMember teamId memberId change)) := by
  simp only [TeamCall.next]
  split
  · exact .same h trivial
  rename_i m hm
  obtain ⟨hmem, rfl⟩ := findMember_mem hm
  have hrow : ∀ x ∈ db.members, x.id = m.id → x = m :=
    fun x hx hid => List.inj_on_of_nodup_map h.tables.ids hx hmem hid
  split
  · exact .same h trivial
  rename_i hteam
  have hfound : m.id < db.nextMemberId ∧ ∀ x ∈ db.members, x.id = m.id → x.teamId = teamId :=
    ⟨h.tables.fresh m hmem, fun x hx hid => by rw [hrow x hx hid]; exact not_not.1 hteam⟩
  split
  · exact .same h hfound
  · rename_i hskip
    refine .same h ⟨hfound, fun x hx hid ho hk => absurd ⟨?_, ?_⟩ hskip⟩
    · rw [← hrow x hx hid]
      exact ho
    · rw [hk]
      rfl

theorem reads_next {db : TeamDb} (h : Inv db) {k : TeamCall} (hk : Current db k)
    (hwrite : k.writtenTeam = none) :
    ReadsOk db (k.next db) := by
  cases k with
  | creating userId name => exact reads_createTeam h userId name
  | findingTeam teamId userId role =>
    simp only [TeamCall.next]
    split
    · exact .same h trivial
    · exact .same h trivial
  | findingUser teamId userId role =>
    simp only [TeamCall.next]
    split
    · exact .same h trivial
    · exact .same h trivial
  | findingMembership teamId userId role =>
    simp only [TeamCall.next]
    split
    · exact .same h trivial
    · exact .same h trivial
  | inserting teamId userId role => exact reads_createMember h teamId userId role
  | findingMember teamId memberId change => exact reads_findMember h teamId memberId change
  | counting teamId memberId change =>
    simp only [TeamCall.next]
    split
    · exact .same h trivial
    · rename_i hcount
      exact .same h ⟨hk, fun _ _ _ _ _ => Nat.lt_of_not_le hcount⟩
  | writing teamId memberId change => cases hwrite
  | done => exact .same h trivial
  | failed e => exact .same h trivial

/-- A write of a request whose reads are still so. -/
theorem write_next {db : TeamDb} (h : Inv db) {teamId memberId : Int} {change : Change}
    (hk : Current db (.writing teamId memberId change)) :
    Inv (TeamCall.next db (.writing teamId memberId change)).1 ∧
      ∀ l, Current db l →
        (∀ x ∈ TeamCall.takes db (.writing teamId memberId change), ∀ y ∈ l.takes db,
          y.1 = x.1 → y.2 = x.2 ∨ 2 < db.ownerCount x.1) →
        Current (TeamCall.next db (.writing teamId memberId change)).1 l := by
  obtain ⟨⟨-, hteam⟩, hlast⟩ := hk
  simp only [TeamCall.next]
  split
  · exact ⟨h, fun _ hl _ => hl⟩
  rename_i m hm
  obtain ⟨hmem, rfl⟩ := findMember_mem hm
  obtain rfl := hteam m hmem rfl
  have hok : ChangeOk db m.teamId m.id change := by
    refine ⟨m, hm, rfl, fun hno => ?_⟩
    have := hlast m hmem rfl hno.1 hno.2.1
    omega
  exact ⟨h.change hok, fun l hl hapart => hl.change h hmem change fun hrole hkeep =>
    hapart _ (takes_writing h.tables hmem hrole hkeep m.teamId)⟩

/-! ### Runs -/

theorem ConcurrentInv.step {s : Threads TeamDb TeamCall} (h : ConcurrentInv s) {i : Nat} {k : TeamCall}
    (hi : s.calls[i]? = some k) (hG : Exclusive s k ()) :
    ConcurrentInv ⟨(k.next s.shared).1, s.calls.set i (k.next s.shared).2⟩ := by
  have hk := h.current k (List.mem_of_getElem? hi)
  cases hw : k.writtenTeam with
  | none =>
    have hreads := reads_next h.db hk hw
    refine ⟨hreads.inv, fun l hl => ?_⟩
    rcases List.mem_or_eq_of_mem_set hl with hl | rfl
    · exact hreads.others l (h.current l hl)
    · exact hreads.own
  | some t =>
    obtain ⟨memberId, change, rfl⟩ : ∃ memberId change, k = .writing t memberId change := by
      cases k with
      | writing teamId memberId change =>
        obtain rfl : teamId = t := by simpa [TeamCall.writtenTeam] using hw
        exact ⟨memberId, change, rfl⟩
      | _ => cases hw
    obtain ⟨hinv, hothers⟩ := write_next h.db hk
    refine ⟨hinv, fun l hl => ?_⟩
    rcases List.mem_or_eq_of_mem_set hl with hold | rfl
    · exact hothers l (h.current l hold) fun x hx => hG x hx l hold
    · -- The call itself is over.
      simp only [TeamCall.next]
      split
      · trivial
      · trivial

/-- Every team has an owner at every moment of a run in which a request of `updateMemberRole` or `removeMember`
that takes the role from an owner, while another one is about to take it from another owner of the team, finds
a third. -/
theorem every_team_has_owner (users : List Int) (acts : List (Sched ServiceRequest Unit))
    (hacts : (concurrentTeams users).Along (OfCall Exclusive) acts) :
    ∀ t ∈ ((concurrentTeams users).run acts).1.shared.teams,
      ∃ m ∈ ((concurrentTeams users).run acts).1.shared.members, m.teamId = t.id ∧ m.role = .owner := by
  have hinv : ConcurrentInv ((concurrentTeams users).run acts).1 :=
    teamProtocol.machine_inv ⟨.init users, fun _ h => by cases h⟩
      (fun s r h => ⟨h.db, fun k hk => by
        rcases List.mem_append.1 hk with hk | hk
        · exact h.current k hk
        · obtain rfl := List.mem_singleton.1 hk
          cases r <;> trivial⟩)
      (fun s i k _ h hk hG => h.step hk hG) acts hacts
  intro t ht
  obtain ⟨m, hm, howns⟩ := List.countP_pos_iff.1 (hinv.db.owned t ht)
  exact ⟨m, hm, by simpa [TeamMember.owns] using howns⟩

/-- Two owners, and requests to demote one of them and to remove the other. -/
def twoDemotions : List (Sched ServiceRequest Unit) :=
  [.call (.createTeam 1 "team"), .step 0 (), .call (.addMember 1 2 .owner), .step 1 (), .step 1 (),
    .step 1 (), .step 1 (), .call (.updateMemberRole 1 1 .member), .call (.removeMember 1 2)]

/-- A second request to demote the first owner runs together with the first one, and the removal of the other
owner comes after them: it finds a single owner. -/
def demotedTwice : List (Sched ServiceRequest Unit) :=
  twoDemotions ++ [.call (.updateMemberRole 1 1 .member), .step 2 (), .step 2 (), .step 4 (), .step 4 (),
    .step 2 (), .step 3 (), .step 4 (), .step 3 ()]

theorem every_team_has_owner_demotedTwice :
    (concurrentTeams [1, 2]).Along (OfCall Exclusive) demotedTwice ∧
      ∀ t ∈ ((concurrentTeams [1, 2]).run demotedTwice).1.shared.teams,
        ∃ m ∈ ((concurrentTeams [1, 2]).run demotedTwice).1.shared.members,
          m.teamId = t.id ∧ m.role = .owner := by
  have hacts : (concurrentTeams [1, 2]).Along (OfCall Exclusive) demotedTwice :=
    (Machine.along_iff_forall_lt _).2 (by decide)
  exact ⟨hacts, every_team_has_owner _ _ hacts⟩

/-- Together: both count two owners, and the team is left without one. -/
def bothAtOnce : List (Sched ServiceRequest Unit) :=
  twoDemotions ++ [.step 2 (), .step 2 (), .step 3 (), .step 3 (), .step 2 (), .step 3 ()]

theorem team_without_owner :
    ∃ t ∈ ((concurrentTeams [1, 2]).run bothAtOnce).1.shared.teams,
      ¬ ∃ m ∈ ((concurrentTeams [1, 2]).run bothAtOnce).1.shared.members,
        m.teamId = t.id ∧ m.role = .owner := by
  decide

end Portfolio.Teams
