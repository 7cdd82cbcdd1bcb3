import Portfolio.Frontend.QueryCache
import Portfolio.Teams.Agreement

/-!
# What mutations do to the results of queries

A mutation leaves the result of a query as it was, or it invalidates the key of the query, or it
`Misses` the query: then the result is another one and the key is not invalidated.
-/

namespace Portfolio.Frontend
open Teams TeamDb

/-- The keys of the tables. -/
structure Server.Ok (s : Server) : Prop where
  db : TablesOk s.db
  items : Assigned WorkspaceItem.id s.items s.nextItemId
  issues : Assigned Issue.id s.issues s.nextIssueId

/-- The team that a query about items asks for. -/
def Query.itemTeam (s : Server) : Query → Option Int
  | .workspaceItems teamId _ _ => some teamId
  | .workspaceItem itemId => (s.findItem itemId).map (·.teamId)
  | _ => none

/-- The mutation changes the result and leaves the entry fresh: pages that show an item that is
edited, the details of an item or issue that is deleted and the comments of the issue, and the items of
a team that the user leaves. -/
def Mutation.Misses (api : Api) (s : Server) (now : Nat) : Mutation → Query → Prop
  | .updateWorkspaceItem itemId title content, .workspaceItems teamId page size =>
    ∃ item ∈ s.findItem itemId, item.edit title content now ≠ item ∧
      ∃ shown ∈ api.itemPages.page page size (s.teamItems teamId).reverse, item ∈ shown.items
  | .deleteWorkspaceItem itemId, .workspaceItem id => id = itemId
  | .deleteIssue issueId, .issue id => id = issueId
  | .deleteIssue issueId, .issueComments id => id = issueId
  | .removeTeamMember teamId memberId, q =>
    q.itemTeam s = some teamId ∧ ∃ m ∈ s.db.findMember memberId, m.userId = api.userId
  | _, _ => False

/-! ### Requests about teams -/

section Teams
variable {db : TeamDb} {userId teamId : Int}

theorem tablesOk_effect (h : TablesOk db) {r : TeamRequest} (hr : r.Granted db) : TablesOk (r.effect db) := by
  cases r with
  | createTeam caller name =>
    have hteam : ({ id := db.nextTeamId, name := name } : Team) ∈ (db.insertTeam name).1.teams := by
      simp [insertTeam]
    exact (h.insertTeam name).insertMember ⟨_, hteam, rfl⟩ (h.findMembership_new name caller) _
  | addMember caller team member role =>
    obtain ⟨⟨m, hm, -⟩, -, hnew⟩ := hr
    obtain ⟨hmem, rfl, -⟩ := findMembership_mem hm
    exact h.insertMember (h.team m hmem) hnew role
  | updateMemberRole caller team memberId role => exact h.updateRole _ _
  | removeMember caller team memberId => exact h.deleteMember _

/-- A request that a service grants has the effect of the ruling. -/
theorem granted_of_node (h : TablesOk db) {r : TeamRequest} {db' : TeamDb} (hr : r.node db = .ok db') :
    r.Granted db ∧ db' = r.effect db := by
  have hanswer := node_answer h r
  rw [hr, TeamRequest.ruling, answer] at hanswer
  split at hanswer
  · rename_i hgranted
    exact ⟨hgranted, congrArg Prod.fst hanswer⟩
  · simp at hanswer

theorem isSome_findMembership : (db.findMembership teamId userId).isSome = true ↔
    ∃ m ∈ db.members, m.teamId = teamId ∧ m.userId = userId := by
  rw [findMembership, List.find?_isSome]
  simp

/-- A team with members is not the next one. -/
theorem ne_nextTeamId (h : TablesOk db) (hmember : (db.findMembership teamId userId).isSome = true) :
    teamId ≠ db.nextTeamId := by
  obtain ⟨m, hm, rfl, -⟩ := isSome_findMembership.1 hmember
  obtain ⟨t, ht, hid⟩ := h.team m hm
  have := h.teamFresh t ht
  omega

/-- The team whose members a request changes; a new team has none before. -/
def changedTeam : TeamRequest → Option Int
  | .createTeam .. => none
  | .addMember _ team _ _ | .updateMemberRole _ team _ _ | .removeMember _ team _ => some team

/-- The request takes the user out of the team. -/
def Leaves (db : TeamDb) (userId teamId : Int) : TeamRequest → Prop
  | .removeMember _ team memberId => teamId = team ∧ ∃ m ∈ db.findMember memberId, m.userId = userId
  | _ => False

theorem findTeam_effect (r : TeamRequest) {teamId : Int} (hne : teamId ≠ db.nextTeamId) :
    (r.effect db).findTeam teamId = db.findTeam teamId := by
  cases r with
  | createTeam caller name =>
    have hnew : (db.nextTeamId = teamId) = False := eq_false (Ne.symm hne)
    simp [TeamRequest.effect, findTeam, insertTeam, insertMember, List.find?_append, hnew]
  | addMember caller team member role => rfl
  | updateMemberRole caller team memberId role => rfl
  | removeMember caller team memberId => rfl

theorem members_effect (h : TablesOk db) {r : TeamRequest} (hr : r.Granted db) (hne : teamId ≠ db.nextTeamId)
    (hteam : changedTeam r ≠ some teamId) :
    (r.effect db).members.filter (·.teamId = teamId) = db.members.filter (·.teamId = teamId) := by
  have hrow : ∀ memberId team change, ChangeOk db team memberId change → team ≠ teamId →
      ∀ x ∈ db.members, x.id = memberId → decide (x.teamId = teamId) = false := by
    rintro memberId team change ⟨m, hm, rfl, -⟩ hne x hx rfl
    obtain ⟨hmem, hid⟩ := findMember_mem hm
    obtain rfl := List.inj_on_of_nodup_map h.ids hx hmem hid.symm
    exact decide_eq_false hne
  cases r with
  | createTeam caller name => exact filter_concat_of_not (decide_eq_false (Ne.symm hne))
  | addMember caller team member role =>
    exact filter_concat_of_not (decide_eq_false fun heq => hteam (congrArg some heq))
  | updateMemberRole caller team memberId role =>
    have hteam : team ≠ teamId := fun heq => hteam (congrArg some heq)
    exact filter_updateRow_of_not fun x hx hid => by
      have := hrow memberId team _ hr.2 hteam x hx hid
      exact ⟨this, this⟩
  | removeMember caller team memberId =>
    exact filter_deleteRow_of_not (hrow memberId team _ hr.2 fun heq => hteam (congrArg some heq))

/-- A request keeps the user in the team unless it takes the user out. -/
theorem isSome_findMembership_effect (h : TablesOk db) {r : TeamRequest} (hr : r.Granted db)
    (hmember : (db.findMembership teamId userId).isSome = true) :
    ((r.effect db).findMembership teamId userId).isSome = true ↔ ¬ Leaves db userId teamId r := by
  obtain ⟨m, hm, hteam, huser⟩ := isSome_findMembership.1 hmember
  cases r with
  | createTeam caller name =>
    exact iff_of_true (isSome_findMembership.2 ⟨m, List.mem_append_left _ hm, hteam, huser⟩) not_false
  | addMember caller team member role =>
    exact iff_of_true (isSome_findMembership.2 ⟨m, List.mem_append_left _ hm, hteam, huser⟩) not_false
  | updateMemberRole caller team memberId role =>
    refine iff_of_true (isSome_findMembership.2 ⟨_, List.mem_map_of_mem hm, ?_, ?_⟩) not_false
    · split <;> exact hteam
    · split <;> exact huser
  | removeMember caller team memberId =>
    obtain ⟨-, removed, hremoved, hin, -⟩ := hr
    obtain ⟨hmem, rfl⟩ := findMember_mem hremoved
    rw [isSome_findMembership]
    constructor
    · rintro ⟨x, hx, hxteam, hxuser⟩ ⟨rfl, removed', hremoved', hremoveduser⟩
      obtain rfl := Option.some.inj (hremoved.symm.trans hremoved')
      obtain ⟨hx, hid⟩ := List.mem_filter.1 hx
      have heq : x = removed := List.inj_on_of_nodup_map h.unique hx hmem
        (by rw [hxteam, hxuser, hin, hremoveduser])
      simp [heq] at hid
    · intro hstays
      refine ⟨m, List.mem_filter.2 ⟨hm, decide_eq_true fun hid => hstays ?_⟩, hteam, huser⟩
      obtain rfl := List.inj_on_of_nodup_map h.ids hm hmem hid
      exact ⟨hteam.symm.trans hin, m, hremoved, huser⟩

end Teams

/-! ### What a query reads -/

section Reads
variable {api : Api} {s s' : Server} {q : Query} {response : Response}

theorem fetch_workspaceItems_congr {teamId : Int} {page size : Option Int}
    (h : s.fetch api (.workspaceItems teamId page size) = some response) (hdb : s'.db = s.db)
    (hrows : s'.teamItems teamId = s.teamItems teamId) :
    s'.fetch api (.workspaceItems teamId page size) = some response := by
  rw [← h, Server.fetch, Server.fetch, Server.verifyTeamMember, Server.verifyTeamMember, hdb, hrows]

theorem fetch_workspaceItem_congr {itemId : Int} (h : s.fetch api (.workspaceItem itemId) = some response)
    (hdb : s'.db = s.db) (hfind : s'.findItem itemId = s.findItem itemId) :
    s'.fetch api (.workspaceItem itemId) = some response := by
  rw [← h, Server.fetch, Server.fetch, hfind]
  simp only [Server.verifyTeamMember, hdb]
  rfl

theorem fetch_projectIssues_congr {projectId : Int} {status : Option IssueStatus} {page size : Option Int}
    (h : s.fetch api (.projectIssues projectId status page size) = some response)
    (hrows : s'.projectIssues projectId status = s.projectIssues projectId status) :
    s'.fetch api (.projectIssues projectId status page size) = some response := by
  rw [← h, Server.fetch, Server.fetch, hrows]

theorem fetch_issue_congr {issueId : Int} (h : s.fetch api (.issue issueId) = some response)
    (hfind : s'.findIssue issueId = s.findIssue issueId) :
    s'.fetch api (.issue issueId) = some response := by
  rw [← h, Server.fetch, Server.fetch, hfind]

theorem fetch_issueComments_congr {issueId : Int} (h : s.fetch api (.issueComments issueId) = some response)
    (hfind : (s'.findIssue issueId).isSome = (s.findIssue issueId).isSome)
    (hrows : s'.issueComments issueId = s.issueComments issueId) :
    s'.fetch api (.issueComments issueId) = some response := by
  rw [← h, Server.fetch, Server.fetch, hrows]
  cases hissue : s.findIssue issueId with
  | none =>
    have hnone : s'.findIssue issueId = none := by simpa [hissue] using hfind
    rw [hnone]
  | some issue =>
    obtain ⟨issue', hissue'⟩ := Option.isSome_iff_exists.1 (hfind.trans (congrArg Option.isSome hissue))
    rw [hissue']

theorem issue_of_fetch {issueId : Int}
    (h : s.fetch api (.issue issueId) = some response ∨ s.fetch api (.issueComments issueId) = some response) :
    ∃ issue, s.findIssue issueId = some issue := by
  cases hissue : s.findIssue issueId with
  | none => simp [Server.fetch, hissue] at h
  | some issue => exact ⟨issue, rfl⟩

/-- What a query about items finds, as long as the user is in the team. -/
theorem itemTeam_of_fetch (h : s.fetch api q = some response) {t : Int}
    (hteam : q.itemTeam s = some t) : s.verifyTeamMember api.userId t = true := by
  cases q with
  | workspaceItems t page size =>
    obtain rfl := Option.some.inj hteam
    by_contra hnot
    simp [Server.fetch, hnot] at h
  | workspaceItem itemId =>
    obtain ⟨item, hitem, rfl⟩ := Option.map_eq_some_iff.1 hteam
    by_contra hnot
    simp [Server.fetch, hitem, hnot] at h
  | team | teamMembers | projectIssues | issue | issueComments => cases hteam

theorem fetch_effect (h : s.Ok) {r : TeamRequest} (hr : r.Granted s.db) (hfetch : s.fetch api q = some response)
    (hmembers : ∀ t, q = .team t ∨ q = .teamMembers t → changedTeam r ≠ some t)
    (hstays : ∀ t, q.itemTeam s = some t → ¬ Leaves s.db api.userId t r) :
    ({ s with db := r.effect s.db } : Server).fetch api q = some response := by
  have hchanged : ∀ t, changedTeam r ≠ some t → ¬ Leaves s.db api.userId t r := by
    intro t hne hleaves
    cases r with
    | removeMember caller team memberId => exact hne (congrArg some hleaves.1.symm)
    | _ => exact hleaves
  have hverify : ∀ t, s.verifyTeamMember api.userId t = true → ¬ Leaves s.db api.userId t r →
      ({ s with db := r.effect s.db } : Server).verifyTeamMember api.userId t = true := by
    exact fun t hmember hnot => (isSome_findMembership_effect h.db hr hmember).2 hnot
  cases q with
  | team t =>
    have hne := hmembers t (.inl rfl)
    by_cases hmember : s.verifyTeamMember api.userId t = true
    · have hnext := ne_nextTeamId h.db hmember
      have hlist : ({ s with db := r.effect s.db } : Server).teamMembers t = s.teamMembers t :=
        members_effect h.db hr hnext hne
      simp only [Server.fetch, hlist, findTeam_effect r hnext, hverify t hmember (hchanged t hne)]
      simpa only [Server.fetch, hmember] using hfetch
    · simp only [Server.fetch, hmember] at hfetch
      split at hfetch <;> simp at hfetch
  | teamMembers t =>
    have hne := hmembers t (.inr rfl)
    by_cases hmember : s.verifyTeamMember api.userId t = true
    · have hlist : ({ s with db := r.effect s.db } : Server).teamMembers t = s.teamMembers t :=
        members_effect h.db hr (ne_nextTeamId h.db hmember) hne
      simp only [Server.fetch, hlist, hverify t hmember (hchanged t hne)]
      simpa only [Server.fetch, hmember] using hfetch
    · simp [Server.fetch, hmember] at hfetch
  | workspaceItems t page size =>
    have hmember := itemTeam_of_fetch hfetch (t := t) rfl
    rw [Server.fetch, if_pos hmember] at hfetch
    rw [Server.fetch, if_pos (hverify t hmember (hstays t rfl))]
    exact hfetch
  | workspaceItem itemId =>
    cases hitem : s.findItem itemId with
    | none => simp [Server.fetch, hitem] at hfetch
    | some item =>
      have hteam : (Query.workspaceItem itemId).itemTeam s = some item.teamId := by simp [Query.itemTeam, hitem]
      have hmember := itemTeam_of_fetch hfetch hteam
      have hfind : ({ s with db := r.effect s.db } : Server).findItem itemId = some item := hitem
      simp only [Server.fetch, hfind, hverify _ hmember (hstays _ hteam)]
      simpa only [Server.fetch, hitem, hmember] using hfetch
  | projectIssues | issue | issueComments => exact hfetch

end Reads

/-! ### Mutations -/

section Mutations
variable {api : Api} {s s' : Server} {q : Query} {response : Response} {now : Nat} {reply : Reply}

theorem WorkspaceItem.id_edit (title content : String) (now : Nat) (item : WorkspaceItem) :
    (item.edit title content now).id = item.id := rfl

theorem Issue.id_edit (title description : String) (status : IssueStatus) (assigneeId : Option (Option Int))
    (now : Nat) (issue : Issue) : (issue.edit title description status assigneeId now).id = issue.id := rfl

/-- The key begins with one of the keys that are invalidated. -/
def Invalidated (keys : List QueryKey) (key : QueryKey) : Prop := ∃ k ∈ keys, k.isPrefixOf key = true

theorem ofTeamRequest_eq_some (h : s.Ok) {r : TeamRequest} (hm : s.ofTeamRequest r = some (s', reply)) :
    r.Granted s.db ∧ s' = { s with db := r.effect s.db } := by
  cases hr : r.node s.db with
  | error e => simp [Server.ofTeamRequest, hr] at hm
  | ok db' =>
    obtain ⟨hgranted, rfl⟩ := granted_of_node h.db hr
    simp only [Server.ofTeamRequest, hr, Option.some.injEq, Prod.mk.injEq] at hm
    exact ⟨hgranted, hm.1.symm⟩

/-- A request about members, when the keys of the members are invalidated. -/
theorem kept_of_teamRequest (h : s.Ok) {r : TeamRequest} (hm : s.ofTeamRequest r = some (s', reply))
    (hfetch : s.fetch api q = some response) {keys : List QueryKey}
    (hkeys : ∀ t, changedTeam r = some t → teamKeys.members t ∈ keys ∧ teamKeys.detail t ∈ keys)
    (hstays : ∀ t, q.itemTeam s = some t → ¬ Leaves s.db api.userId t r) :
    Invalidated keys q.key ∨ s'.fetch api q = some response := by
  obtain ⟨hr, rfl⟩ := ofTeamRequest_eq_some h hm
  by_cases hmembers : ∀ t, q = .team t ∨ q = .teamMembers t → changedTeam r ≠ some t
  · exact .inr (fetch_effect h hr hfetch hmembers hstays)
  · push Not at hmembers
    obtain ⟨t, hq, hteam⟩ := hmembers
    obtain ⟨hlist, hdetail⟩ := hkeys t hteam
    rcases hq with rfl | rfl
    · exact .inl ⟨_, hdetail, by simp [Query.key]⟩
    · exact .inl ⟨_, hlist, by simp [Query.key]⟩

theorem Paging.page_map {α : Type} (paging : Paging) (page size : Option Int) (f : α → α) (rows : List α) :
    paging.page page size (rows.map f) =
      (paging.page page size rows).map fun r => ⟨r.items.map f, r.totalCount⟩ := by
  simp only [Paging.page, Option.map_map, List.length_map]
  congr 1
  funext ⟨offset, limit⟩
  cases limit with
  | none => simp
  | some n => simp

theorem mem_of_page {α : Type} {paging : Paging} {page size : Option Int} {rows : List α}
    {shown : PaginatedResponse α} (h : paging.page page size rows = some shown) {r : α} (hr : r ∈ shown.items) :
    r ∈ rows := by
  obtain ⟨⟨offset, limit⟩, -, rfl⟩ := Option.map_eq_some_iff.1 h
  cases limit with
  | none => exact List.mem_of_mem_drop hr
  | some n => exact List.mem_of_mem_drop (List.mem_of_mem_take hr)

/-- A page after one of the items is edited. -/
theorem fetch_edited (h : s.Ok) {itemId : Int} {item : WorkspaceItem} (hitem : s.findItem itemId = some item)
    {title content : String} (hdb : s'.db = s.db)
    (hitems : s'.items = updateRow WorkspaceItem.id s.items itemId (WorkspaceItem.edit title content now))
    {teamId : Int} {page size : Option Int}
    (hfetch : s.fetch api (.workspaceItems teamId page size) = some response) :
    s'.fetch api (.workspaceItems teamId page size) = some response ↔
      ¬ (Mutation.updateWorkspaceItem itemId title content).Misses api s now
        (.workspaceItems teamId page size) := by
  have hmember := itemTeam_of_fetch hfetch (t := teamId) rfl
  have hmember' : s'.verifyTeamMember api.userId teamId = true := by
    rw [Server.verifyTeamMember, hdb]
    exact hmember
  rw [Server.fetch, if_pos hmember] at hfetch
  obtain ⟨shown, hshown, rfl⟩ := Option.map_eq_some_iff.1 hfetch
  have hrows : s'.teamItems teamId =
      updateRow WorkspaceItem.id (s.teamItems teamId) itemId (WorkspaceItem.edit title content now) := by
    rw [Server.teamItems, hitems]
    exact filter_updateRow fun _ => rfl
  have hpage : (⟨shown.items.map fun r => if r.id = itemId then r.edit title content now else r,
      shown.totalCount⟩ : PaginatedResponse WorkspaceItem) = shown ↔
        ∀ r ∈ shown.items, r.id = itemId → r.edit title content now = r := by
    rw [PaginatedResponse.ext_iff, and_iff_left rfl]
    conv_lhs => rhs; rw [← List.map_id shown.items]
    rw [List.map_inj_left]
    refine forall₂_congr fun r _ => ?_
    split
    · exact ⟨fun heq _ => heq, fun heq => heq ‹_›⟩
    · exact iff_of_true rfl fun hid => absurd hid ‹_›
  rw [Server.fetch, if_pos hmember', hrows, updateRow, ← List.map_reverse, Paging.page_map, hshown]
  simp only [Option.map_some, Option.some.injEq, Response.workspaceItems.injEq, hpage]
  constructor
  · rintro hsame ⟨r, hr, hedit, shown', hshown', hmem⟩
    obtain rfl := Option.some.inj (hshown.symm.trans hshown')
    obtain rfl := Option.some.inj (hitem.symm.trans hr)
    exact hedit (hsame item hmem (mem_of_findRow hitem).2)
  · intro hmiss r hr hid
    by_contra hedit
    have hmem : r ∈ s.items := (List.mem_filter.1 (List.mem_reverse.1 (mem_of_page hshown hr))).1
    obtain rfl := eq_of_findRow h.items.nodup hitem hmem hid
    exact hmiss ⟨r, hitem, hedit, shown, hshown, hr⟩

/-! ### What an answered request has done -/

theorem createWorkspaceItem_eq_some {teamId : Int} {title content : String}
    (hm : s.createWorkspaceItem api.userId teamId title content now = some (s', reply)) :
    ∃ item : WorkspaceItem, item.id = s.nextItemId ∧ item.teamId = teamId ∧
      s' = { s with items := s.items ++ [item], nextItemId := s.nextItemId + 1 } := by
  simp only [Server.createWorkspaceItem, Option.ite_none_right_eq_some, Option.some.injEq, Prod.mk.injEq] at hm
  obtain ⟨-, rfl, -⟩ := hm
  exact ⟨_, rfl, rfl, rfl⟩

theorem updateWorkspaceItem_eq_some {itemId : Int} {title content : String}
    (hm : s.updateWorkspaceItem api.userId itemId title content now = some (s', reply)) :
    ∃ item, s.findItem itemId = some item ∧ s' = { s with
      items := updateRow WorkspaceItem.id s.items itemId (WorkspaceItem.edit title content now) } := by
  cases hitem : s.findItem itemId with
  | none => simp [Server.updateWorkspaceItem, hitem] at hm
  | some item =>
    simp only [Server.updateWorkspaceItem, hitem, Option.ite_none_right_eq_some, Option.some.injEq,
      Prod.mk.injEq] at hm
    exact ⟨item, rfl, hm.2.1.symm⟩

theorem deleteWorkspaceItem_eq_some {itemId : Int}
    (hm : s.deleteWorkspaceItem api.userId itemId = some (s', reply)) :
    ∃ item, s.findItem itemId = some item ∧
      s' = { s with items := deleteRow WorkspaceItem.id s.items itemId } := by
  cases hitem : s.findItem itemId with
  | none => simp [Server.deleteWorkspaceItem, hitem] at hm
  | some item =>
    simp only [Server.deleteWorkspaceItem, hitem, Option.ite_none_right_eq_some, Option.some.injEq,
      Prod.mk.injEq] at hm
    exact ⟨item, rfl, hm.2.1.symm⟩

theorem createIssue_eq_some {projectId : Int} {title description : String} {assigneeId : Option Int}
    (hm : s.createIssue api.userId projectId title description assigneeId now = some (s', reply)) :
    ∃ issue : Issue, issue.id = s.nextIssueId ∧ issue.projectId = projectId ∧
      s' = { s with issues := s.issues ++ [issue], nextIssueId := s.nextIssueId + 1 } := by
  simp only [Server.createIssue, Option.ite_none_right_eq_some, Option.some.injEq, Prod.mk.injEq] at hm
  obtain ⟨-, rfl, -⟩ := hm
  exact ⟨_, rfl, rfl, rfl⟩

theorem updateIssue_eq_some {issueId : Int} {title description : String} {status : IssueStatus}
    {assigneeId : Option (Option Int)}
    (hm : s.updateIssue issueId title description status assigneeId now = some (s', reply)) :
    ∃ issue, s.findIssue issueId = some issue ∧
      reply = .issue (issue.edit title description status assigneeId now) ∧ s' = { s with
        issues := updateRow Issue.id s.issues issueId (Issue.edit title description status assigneeId now) } := by
  cases hissue : s.findIssue issueId with
  | none => simp [Server.updateIssue, hissue] at hm
  | some issue =>
    simp only [Server.updateIssue, hissue, Option.ite_none_right_eq_some, Option.some.injEq,
      Prod.mk.injEq] at hm
    exact ⟨issue, rfl, hm.2.2.symm, hm.2.1.symm⟩

theorem deleteIssue_eq_some {issueId : Int} (hm : s.deleteIssue issueId = some (s', reply)) :
    s' = { s with
      issues := deleteRow Issue.id s.issues issueId
      comments := s.comments.filter (·.issueId ≠ issueId) } := by
  cases hissue : s.findIssue issueId with
  | none => simp [Server.deleteIssue, hissue] at hm
  | some issue =>
    simp only [Server.deleteIssue, hissue, Option.some.injEq, Prod.mk.injEq] at hm
    exact hm.1.symm

theorem createComment_eq_some {issueId : Int} {content : String}
    (hm : s.createComment api.userId issueId content now = some (s', reply)) :
    ∃ comment : Comment, comment.issueId = issueId ∧ reply = .comment comment ∧
      s' = { s with comments := s.comments ++ [comment], nextCommentId := s.nextCommentId + 1 } := by
  cases hissue : s.findIssue issueId with
  | none => simp [Server.createComment, hissue] at hm
  | some issue =>
    simp only [Server.createComment, hissue, Option.some.injEq, Prod.mk.injEq] at hm
    exact ⟨_, rfl, hm.2.symm, hm.1.symm⟩

theorem kept_createWorkspaceItem {teamId : Int} {title content : String}
    (hm : s.createWorkspaceItem api.userId teamId title content now = some (s', reply))
    (hfetch : s.fetch api q = some response) :
    Invalidated [teamKeys.workspaceItems teamId] q.key ∨ s'.fetch api q = some response := by
  obtain ⟨item, -, rfl, rfl⟩ := createWorkspaceItem_eq_some hm
  cases q with
  | workspaceItems t page size =>
    by_cases hteam : item.teamId = t
    · subst hteam
      exact .inl ⟨_, List.mem_singleton_self _, by simp [Query.key]⟩
    · refine .inr (fetch_workspaceItems_congr hfetch rfl ?_)
      exact filter_concat_of_not (decide_eq_false hteam)
  | workspaceItem itemId =>
    cases hitem : s.findItem itemId with
    | none => simp [Server.fetch, hitem] at hfetch
    | some item =>
      refine .inr (fetch_workspaceItem_congr hfetch rfl ?_)
      exact (findRow_append hitem _).trans hitem.symm
  | team | teamMembers | projectIssues | issue | issueComments => exact .inr hfetch

theorem kept_updateWorkspaceItem (h : s.Ok) {itemId : Int} {title content : String}
    (hm : s.updateWorkspaceItem api.userId itemId title content now = some (s', reply))
    (hfetch : s.fetch api q = some response)
    (hmiss : ¬ (Mutation.updateWorkspaceItem itemId title content).Misses api s now q) :
    Invalidated [teamKeys.workspaceItem itemId] q.key ∨ s'.fetch api q = some response := by
  obtain ⟨item, hitem, rfl⟩ := updateWorkspaceItem_eq_some hm
  cases q with
  | workspaceItems t page size =>
    refine .inr ((fetch_edited h hitem ?_ ?_ hfetch).2 hmiss)
    · rfl
    · rfl
  | workspaceItem id =>
    by_cases hid : id = itemId
    · subst hid
      exact .inl ⟨_, List.mem_singleton_self _, by simp [Query.key]⟩
    · refine .inr (fetch_workspaceItem_congr hfetch rfl ?_)
      exact findRow_updateRow_of_ne (WorkspaceItem.id_edit title content now) hid
  | team | teamMembers | projectIssues | issue | issueComments => exact .inr hfetch

theorem kept_deleteWorkspaceItem {itemId : Int}
    (hm : s.deleteWorkspaceItem api.userId itemId = some (s', reply)) (hfetch : s.fetch api q = some response)
    (hmiss : ¬ (Mutation.deleteWorkspaceItem itemId).Misses api s now q) :
    Invalidated [teamKeys.all] q.key ∨ s'.fetch api q = some response := by
  obtain ⟨item, -, rfl⟩ := deleteWorkspaceItem_eq_some hm
  cases q with
  | team | teamMembers | workspaceItems => exact .inl ⟨_, List.mem_singleton_self _, rfl⟩
  | workspaceItem id =>
    refine .inr (fetch_workspaceItem_congr hfetch rfl ?_)
    exact findRow_deleteRow_of_ne hmiss
  | projectIssues | issue | issueComments => exact .inr hfetch

theorem kept_createIssue {projectId : Int} {title description : String} {assigneeId : Option Int}
    (hm : s.createIssue api.userId projectId title description assigneeId now = some (s', reply))
    (hfetch : s.fetch api q = some response) :
    Invalidated [[.text "issues", .number projectId]] q.key ∨ s'.fetch api q = some response := by
  obtain ⟨issue, -, rfl, rfl⟩ := createIssue_eq_some hm
  cases q with
  | projectIssues p status page size =>
    by_cases hproject : issue.projectId = p
    · subst hproject
      exact .inl ⟨_, List.mem_singleton_self _, by simp [Query.key]⟩
    · refine .inr (fetch_projectIssues_congr hfetch ?_)
      exact filter_concat_of_not (decide_eq_false fun hshown => hproject hshown.1)
  | issue issueId =>
    obtain ⟨issue, hissue⟩ := issue_of_fetch (.inl hfetch)
    refine .inr (fetch_issue_congr hfetch ?_)
    exact (findRow_append hissue _).trans hissue.symm
  | issueComments issueId =>
    obtain ⟨issue, hissue⟩ := issue_of_fetch (.inr hfetch)
    refine .inr (fetch_issueComments_congr hfetch ?_ ?_)
    · exact congrArg Option.isSome ((findRow_append hissue _).trans hissue.symm)
    · rfl
  | team | teamMembers | workspaceItems | workspaceItem => exact .inr hfetch

theorem kept_updateIssue (h : s.Ok) {issueId : Int} {title description : String} {status : IssueStatus}
    {assigneeId : Option (Option Int)}
    (hm : s.updateIssue issueId title description status assigneeId now = some (s', reply))
    (hfetch : s.fetch api q = some response) :
    Invalidated ((Mutation.updateIssue issueId title description status assigneeId).onSuccess reply) q.key ∨
      s'.fetch api q = some response := by
  obtain ⟨issue, hissue, rfl, rfl⟩ := updateIssue_eq_some hm
  have hid : issue.id = issueId := (mem_of_findRow hissue).2
  cases q with
  | projectIssues p st page size =>
    by_cases hproject : issue.projectId = p
    · subst hproject
      exact .inl ⟨_, List.mem_cons_of_mem _ List.mem_cons_self, by simp [Query.key, Issue.edit]⟩
    · have hrows : ∀ r ∈ s.issues, r.id = issueId → ∀ r' : Issue, r'.projectId = r.projectId →
          decide (r'.projectId = p ∧ ∀ st' ∈ st, r'.status = st') = false := by
        intro r hr hrid r' hr'
        obtain rfl := eq_of_findRow h.issues.nodup hissue hr hrid
        exact decide_eq_false fun hshown => hproject (hr'.symm.trans hshown.1)
      refine .inr (fetch_projectIssues_congr hfetch ?_)
      exact filter_updateRow_of_not fun r hr hrid => ⟨hrows r hr hrid r rfl, hrows r hr hrid _ rfl⟩
  | issue id =>
    by_cases heq : id = issueId
    · subst heq
      exact .inl ⟨_, List.mem_cons_self, by simp [Query.key, Issue.edit, hid]⟩
    · refine .inr (fetch_issue_congr hfetch ?_)
      exact findRow_updateRow_of_ne (Issue.id_edit title description status assigneeId now) heq
  | issueComments id =>
    refine .inr (fetch_issueComments_congr hfetch ?_ ?_)
    · exact isSome_findRow_updateRow (Issue.id_edit title description status assigneeId now)
    · rfl
  | team | teamMembers | workspaceItems | workspaceItem => exact .inr hfetch

theorem kept_deleteIssue {issueId : Int} (hm : s.deleteIssue issueId = some (s', reply))
    (hfetch : s.fetch api q = some response) (hmiss : ¬ (Mutation.deleteIssue issueId).Misses api s now q) :
    Invalidated [[.text "issues"]] q.key ∨ s'.fetch api q = some response := by
  obtain rfl := deleteIssue_eq_some hm
  cases q with
  | projectIssues => exact .inl ⟨_, List.mem_singleton_self _, rfl⟩
  | issue id =>
    refine .inr (fetch_issue_congr hfetch ?_)
    exact findRow_deleteRow_of_ne hmiss
  | issueComments id =>
    refine .inr (fetch_issueComments_congr hfetch ?_ ?_)
    · exact congrArg Option.isSome (findRow_deleteRow_of_ne hmiss)
    · exact @filter_deleteRow_of_not _ _ _ Comment.issueId _ _ _ fun r _ hr =>
        decide_eq_false fun heq => hmiss (heq.symm.trans hr)
  | team | teamMembers | workspaceItems | workspaceItem => exact .inr hfetch

theorem kept_createComment {issueId : Int} {content : String}
    (hm : s.createComment api.userId issueId content now = some (s', reply))
    (hfetch : s.fetch api q = some response) :
    Invalidated ((Mutation.createComment issueId content).onSuccess reply) q.key ∨
      s'.fetch api q = some response := by
  obtain ⟨comment, rfl, rfl, rfl⟩ := createComment_eq_some hm
  cases q with
  | issueComments id =>
    by_cases hid : comment.issueId = id
    · subst hid
      exact .inl ⟨_, List.mem_singleton_self _, by simp [Query.key]⟩
    · refine .inr (fetch_issueComments_congr hfetch ?_ ?_)
      · rfl
      · exact filter_concat_of_not (decide_eq_false hid)
  | team | teamMembers | workspaceItems | workspaceItem | projectIssues | issue => exact .inr hfetch

/-- What a mutation leaves as it was. -/
theorem kept (h : s.Ok) {m : Mutation} (hm : s.mutate api.userId now m = some (s', reply))
    (hfetch : s.fetch api q = some response) (hmiss : ¬ m.Misses api s now q) :
    Invalidated (m.onSuccess reply) q.key ∨ s'.fetch api q = some response := by
  cases m with
  | createTeam name =>
    refine kept_of_teamRequest h hm hfetch ?_ fun _ _ => id
    simp [changedTeam]
  | addTeamMember teamId userId role =>
    refine kept_of_teamRequest h hm hfetch ?_ fun _ _ => id
    rintro t ⟨rfl⟩
    simp [Mutation.onSuccess]
  | updateTeamMemberRole teamId memberId role =>
    refine kept_of_teamRequest h hm hfetch ?_ fun _ _ => id
    rintro t ⟨rfl⟩
    simp [Mutation.onSuccess]
  | removeTeamMember teamId memberId =>
    refine kept_of_teamRequest h hm hfetch ?_ ?_
    · rintro t ⟨rfl⟩
      simp [Mutation.onSuccess]
    · rintro t hteam ⟨rfl, hself⟩
      exact hmiss ⟨hteam, hself⟩
  | createWorkspaceItem teamId title content => exact kept_createWorkspaceItem hm hfetch
  | updateWorkspaceItem itemId title content => exact kept_updateWorkspaceItem h hm hfetch hmiss
  | deleteWorkspaceItem itemId => exact kept_deleteWorkspaceItem hm hfetch hmiss
  | createIssue projectId title description assigneeId => exact kept_createIssue hm hfetch
  | updateIssue issueId title description status assigneeId => exact kept_updateIssue h hm hfetch
  | deleteIssue issueId => exact kept_deleteIssue hm hfetch hmiss
  | createComment issueId content => exact kept_createComment hm hfetch

theorem missed_of_leaves (h : s.Ok) {r : TeamRequest} (hr : r.Granted s.db)
    (hfetch : s.fetch api q = some response) {teamId : Int} (hteam : q.itemTeam s = some teamId)
    (hleaves : Leaves s.db api.userId teamId r) :
    ({ s with db := r.effect s.db } : Server).fetch api q ≠ some response := by
  intro hfetch'
  have hmember := itemTeam_of_fetch hfetch hteam
  have hmember' := itemTeam_of_fetch hfetch' (t := teamId) (by cases q <;> exact hteam)
  exact (isSome_findMembership_effect h.db hr hmember).1 hmember' hleaves

/-- What a mutation misses does change. -/
theorem missed (h : s.Ok) {m : Mutation} (hm : s.mutate api.userId now m = some (s', reply))
    (hfetch : s.fetch api q = some response) (hmiss : m.Misses api s now q) :
    ¬ Invalidated (m.onSuccess reply) q.key ∧ s'.fetch api q ≠ some response := by
  cases m with
  | removeTeamMember teamId memberId =>
    obtain ⟨hteam, hself⟩ := hmiss
    obtain ⟨hr, rfl⟩ := ofTeamRequest_eq_some h hm
    refine ⟨?_, missed_of_leaves h hr hfetch hteam ⟨rfl, hself⟩⟩
    cases q with
    | workspaceItems t page size =>
      simp [Invalidated, Mutation.onSuccess, Query.key, teamKeys.members, teamKeys.detail, teamKeys.details,
        teamKeys.workspaceItems, teamKeys.all]
    | workspaceItem itemId =>
      simp [Invalidated, Mutation.onSuccess, Query.key, teamKeys.members, teamKeys.detail, teamKeys.details,
        teamKeys.workspaceItem, teamKeys.all]
    | team | teamMembers | projectIssues | issue | issueComments => cases hteam
  | updateWorkspaceItem itemId title content =>
    cases q with
    | workspaceItems t page size =>
      obtain ⟨item, hitem, rfl⟩ := updateWorkspaceItem_eq_some hm
      refine ⟨?_, fun hfetch' => ?_⟩
      · simp [Invalidated, Mutation.onSuccess, Query.key, teamKeys.workspaceItem, teamKeys.workspaceItems,
          teamKeys.all]
      · refine (fetch_edited h hitem ?_ ?_ hfetch).1 hfetch' hmiss
        · rfl
        · rfl
    | team | teamMembers | workspaceItem | projectIssues | issue | issueComments => cases hmiss
  | deleteWorkspaceItem itemId =>
    cases q with
    | workspaceItem id =>
      obtain rfl : id = itemId := hmiss
      obtain ⟨item, -, rfl⟩ := deleteWorkspaceItem_eq_some hm
      refine ⟨?_, ?_⟩
      · simp [Invalidated, Mutation.onSuccess, Query.key, teamKeys.workspaceItem, teamKeys.all]
      · simp [Server.fetch, Server.findItem, findRow_deleteRow_self]
    | team | teamMembers | workspaceItems | projectIssues | issue | issueComments => cases hmiss
  | deleteIssue issueId =>
    have hgone : s'.findIssue issueId = none := by
      obtain rfl := deleteIssue_eq_some hm
      exact findRow_deleteRow_self
    cases q with
    | issue id =>
      obtain rfl : id = issueId := hmiss
      refine ⟨?_, ?_⟩
      · simp [Invalidated, Mutation.onSuccess, Query.key]
      · simp [Server.fetch, hgone]
    | issueComments id =>
      obtain rfl : id = issueId := hmiss
      refine ⟨?_, ?_⟩
      · simp [Invalidated, Mutation.onSuccess, Query.key]
      · simp [Server.fetch, hgone]
    | team | teamMembers | workspaceItems | workspaceItem | projectIssues => cases hmiss
  | createTeam | addTeamMember | updateTeamMemberRole | createWorkspaceItem | createIssue | updateIssue
  | createComment => cases hmiss

/-! ### Keys of the tables -/

theorem Server.Ok.mutate (h : s.Ok) {m : Mutation} (hm : s.mutate api.userId now m = some (s', reply)) :
    s'.Ok := by
  have hteams : ∀ r, s.ofTeamRequest r = some (s', reply) → s'.Ok := by
    intro r hr
    obtain ⟨hgranted, rfl⟩ := ofTeamRequest_eq_some h hr
    exact ⟨tablesOk_effect h.db hgranted, h.items, h.issues⟩
  cases m with
  | createTeam | addTeamMember | updateTeamMemberRole | removeTeamMember => exact hteams _ hm
  | createWorkspaceItem teamId title content =>
    obtain ⟨item, hid, -, rfl⟩ := createWorkspaceItem_eq_some hm
    exact ⟨h.db, h.items.insert hid, h.issues⟩
  | updateWorkspaceItem itemId title content =>
    obtain ⟨item, -, rfl⟩ := updateWorkspaceItem_eq_some hm
    exact ⟨h.db, h.items.update (WorkspaceItem.id_edit title content now) itemId, h.issues⟩
  | deleteWorkspaceItem itemId =>
    obtain ⟨item, -, rfl⟩ := deleteWorkspaceItem_eq_some hm
    exact ⟨h.db, h.items.delete itemId, h.issues⟩
  | createIssue projectId title description assigneeId =>
    obtain ⟨issue, hid, -, rfl⟩ := createIssue_eq_some hm
    exact ⟨h.db, h.items, h.issues.insert hid⟩
  | updateIssue issueId title description status assigneeId =>
    obtain ⟨issue, -, -, rfl⟩ := updateIssue_eq_some hm
    exact ⟨h.db, h.items, h.issues.update (Issue.id_edit title description status assigneeId now) issueId⟩
  | deleteIssue issueId =>
    obtain rfl := deleteIssue_eq_some hm
    exact ⟨h.db, h.items, h.issues.delete issueId⟩
  | createComment issueId content =>
    obtain ⟨comment, -, -, rfl⟩ := createComment_eq_some hm
    exact ⟨h.db, h.items, h.issues⟩

end Mutations
end Portfolio.Frontend
