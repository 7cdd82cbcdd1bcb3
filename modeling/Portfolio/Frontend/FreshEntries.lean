import Portfolio.Frontend.QueryResults

/-!
# What the cache shows as fresh

A fresh entry is what its request would return now (`Faithful`). A mutation keeps this if and only if
no entry is fresh that it misses.
-/

namespace Portfolio.Frontend
open Teams TeamDb

/-- The query has a fresh entry. -/
def Client.IsFresh (c : Client) (q : Query) : Prop := ∃ e ∈ c.cache.entries q.key, e.fresh = true

/-- Fresh entries are what their requests would return. -/
def Client.Faithful (api : Api) (c : Client) : Prop :=
  ∀ q, ∀ e ∈ c.cache.entries q.key, e.fresh = true → c.server.fetch api q = some e.result

/-- No entry is fresh that the mutation misses when it succeeds. -/
def Client.Covered (api : Api) (c : Client) : Action → Prop
  | .query _ => True
  | .mutate m now => (c.server.mutate api.userId now m).isSome → ∀ q, c.IsFresh q → ¬ m.Misses api c.server now q


/-! ### Keys and entries -/

theorem text_injective : Function.Injective IssueStatus.text := by
  intro a b
  cases a <;> cases b <;> simp [IssueStatus.text]

theorem optional_injective {α : Type} {f : α → KeyPart} (hf : Function.Injective f)
    (hundefined : ∀ a, f a ≠ .undefined) : Function.Injective (KeyPart.optional f) := by
  intro a b heq
  cases a with
  | none =>
    cases b with
    | none => rfl
    | some b => exact absurd heq.symm (hundefined b)
  | some a =>
    cases b with
    | none => exact absurd heq (hundefined a)
    | some b => exact congrArg some (hf heq)

/-- No two queries share an entry. -/
theorem key_injective : Function.Injective Query.key := by
  have hnumber : Function.Injective (KeyPart.optional .number) :=
    optional_injective (fun _ _ heq => KeyPart.number.inj heq) nofun
  have hstatus : Function.Injective (KeyPart.optional fun st : IssueStatus => .text st.text) :=
    optional_injective (fun _ _ heq => text_injective (KeyPart.text.inj heq)) nofun
  intro q q' heq
  cases q <;> cases q' <;>
    simp [Query.key, teamKeys.detail, teamKeys.details, teamKeys.members, teamKeys.workspaceItems,
      teamKeys.workspaceItem, teamKeys.all, hnumber.eq_iff, hstatus.eq_iff] at heq
  all_goals simp [heq]

theorem entries_store (cache : QueryCache) (q : Query) (result : Response) (q' : Query) :
    (cache.store q.key result).entries q'.key = if q' = q then some ⟨result, true⟩ else cache.entries q'.key := by
  simp only [QueryCache.store, key_injective.eq_iff]

theorem entries_invalidate (keys : List QueryKey) (cache : QueryCache) (key : QueryKey) :
    (keys.foldl .invalidateQueries cache).entries key =
      (cache.entries key).map fun e =>
        if keys.any fun k => k.isPrefixOf key then { e with fresh := false } else e := by
  induction keys generalizing cache with
  | nil => simp
  | cons k keys ih =>
    rw [List.foldl_cons, ih, QueryCache.invalidateQueries, Option.map_map]
    congr 1
    funext e
    by_cases hk : k.isPrefixOf key = true
    · simp [hk]
    · simp [hk]

/-- The entries that stay fresh. -/
theorem fresh_invalidate_iff {keys : List QueryKey} {cache : QueryCache} {key : QueryKey} {e : Entry}
    (hfresh : e.fresh = true) :
    e ∈ (keys.foldl .invalidateQueries cache).entries key ↔ e ∈ cache.entries key ∧ ¬ Invalidated keys key := by
  have hany : keys.any (fun k => k.isPrefixOf key) = true ↔ Invalidated keys key := List.any_eq_true
  rw [entries_invalidate, Option.mem_def, Option.map_eq_some_iff]
  constructor
  · rintro ⟨e, he, rfl⟩
    split at hfresh
    · cases hfresh
    · rename_i hkeys
      rw [if_neg hkeys]
      exact ⟨he, fun hinvalidated => hkeys (hany.2 hinvalidated)⟩
  · rintro ⟨he, hkeys⟩
    exact ⟨e, he, if_neg fun hinvalidated => hkeys (hany.1 hinvalidated)⟩

/-! ### Steps -/

section
variable {api : Api} {c : Client}

theorem Client.Faithful.query (h : c.Faithful api) (q : Query) : (c.query api q).Faithful api := by
  unfold Client.query
  split
  · split
    · exact h
    · rename_i result hresult
      intro q' e he hfresh
      rw [Option.mem_def, entries_store] at he
      split at he
      · subst_vars
        cases he
        exact hresult
      · exact h q' e he hfresh
  · exact h

/-- After a mutation the fresh entries are right if and only if none of them was missed. -/
theorem faithful_mutate_iff (hok : c.server.Ok) (h : c.Faithful api) (m : Mutation) (now : Nat) :
    (c.mutate api m now).Faithful api ↔ c.Covered api (.mutate m now) := by
  cases hm : c.server.mutate api.userId now m with
  | none =>
    refine iff_of_true ?_ fun hsome => ?_
    · rw [Client.mutate, hm]
      exact h
    · rw [hm] at hsome
      cases hsome
  | some result =>
    obtain ⟨server, reply⟩ := result
    have hstep : c.mutate api m now = ⟨server, (m.onSuccess reply).foldl .invalidateQueries c.cache⟩ := by
      rw [Client.mutate, hm]
    rw [hstep]
    constructor
    · rintro hnew - q ⟨e, he, hfresh⟩ hmiss
      obtain ⟨hkeys, hchanged⟩ := missed hok hm (h q e he hfresh) hmiss
      exact hchanged (hnew q e ((fresh_invalidate_iff hfresh).2 ⟨he, hkeys⟩) hfresh)
    · intro hcovered q e he hfresh
      obtain ⟨he, hkeys⟩ := (fresh_invalidate_iff hfresh).1 he
      have hmiss := hcovered (by rw [hm]; rfl) q ⟨e, he, hfresh⟩
      exact (kept hok hm (h q e he hfresh) hmiss).resolve_left hkeys

end

/-! ### Runs -/

/-- The keys of the tables and the fresh entries. -/
structure Client.Good (api : Api) (c : Client) : Prop where
  tables : c.server.Ok
  entries : c.Faithful api

theorem good_exec_iff {api : Api} {c : Client} (h : c.Good api) (a : Action) :
    (c.exec api a).Good api ↔ c.Covered api a := by
  cases a with
  | query q =>
    refine iff_of_true ⟨?_, h.entries.query q⟩ trivial
    show (c.query api q).server.Ok
    have hserver : (c.query api q).server = c.server := by
      unfold Client.query
      split
      · split <;> rfl
      · rfl
    rw [hserver]
    exact h.tables
  | mutate m now =>
    rw [← faithful_mutate_iff h.tables h.entries]
    refine ⟨Client.Good.entries, fun hentries => ⟨?_, hentries⟩⟩
    show (c.mutate api m now).server.Ok
    unfold Client.mutate
    split
    · exact h.tables
    · rename_i hm
      exact h.tables.mutate hm

/-- All through a run of queries and mutations every fresh entry is what its request would return if
and only if no mutation succeeds while an entry is fresh that it misses. -/
theorem fresh_entries_iff_covered (api : Api) {server : Server} (h : server.Ok) (acts : List Action) :
    (∀ pre, pre <+: acts → ((Client.machine api server).run pre).1.Faithful api) ↔
      (Client.machine api server).Along (Client.Covered api) acts := by
  have hgood : ∀ pre, (Client.machine api server).Along (Client.Covered api) pre →
      ((Client.machine api server).run pre).1.Good api := by
    intro pre hpre
    have hinit : Client.Good api { server := server } := by
      refine ⟨h, ?_⟩
      rintro q e ⟨⟩
    exact (Client.machine api server).run_inv_along (P := fun _ _ c => c.Good api) hinit
      (fun _ _ c a hc ha => (good_exec_iff hc a).2 ha) pre hpre
  refine (Client.machine api server).always_iff_along (P := fun s => s.1.Faithful api)
    (fun pre _ hpre => (hgood pre hpre).entries) fun pre a _ hpre hfaithful => ?_
  rw [Machine.run_concat] at hfaithful
  have hc := hgood pre hpre
  cases a with
  | query q => trivial
  | mutate m now => exact (faithful_mutate_iff hc.tables hc.entries m now).1 hfaithful

/-- The pages of the Node backend: items come all at once, issues by tens if nothing else is asked. -/
def nodeApi : Api where
  userId := 1
  itemPages _ _ := some (0, none)
  issuePages page size :=
    if 1 ≤ page.getD 1 ∧ 1 ≤ size.getD 10 then
      some (((page.getD 1 - 1) * size.getD 10).toNat, some (size.getD 10).toNat)
    else none

/-- A team with one item. -/
def teamServer : Server where
  db := {
    users := [1], teams := [⟨1, "Team A"⟩], members := [⟨1, 1, 1, .owner⟩], nextTeamId := 2, nextMemberId := 2 }
  items := [⟨1, 1, "Notes", some "", 1, 0, 0⟩]
  nextItemId := 2

theorem teamServer_ok : teamServer.Ok := by
  refine ⟨⟨?_, ?_, ?_, ?_, ?_⟩, ⟨?_, ?_⟩, ⟨?_, ?_⟩⟩ <;> simp [teamServer]

/-- The list of items still has the old title after an item was edited. -/
theorem old_title_shown :
    ¬ ((Client.machine nodeApi teamServer).run
      [.query (.workspaceItems 1 none none), .mutate (.updateWorkspaceItem 1 "Minutes" "") 1]).1.Faithful nodeApi := by
  intro h
  have hentry := h (.workspaceItems 1 none none) ⟨.workspaceItems ⟨teamServer.items, 1⟩, true⟩ (by decide) rfl
  exact absurd hentry (by decide)

theorem fresh_entries_iff_covered_created :
    ((Client.machine nodeApi teamServer).run
      [.query (.workspaceItems 1 none none), .mutate (.createWorkspaceItem 1 "Minutes" "") 1]).1.Faithful nodeApi := by
  refine (fresh_entries_iff_covered nodeApi teamServer_ok
    [.query (.workspaceItems 1 none none), .mutate (.createWorkspaceItem 1 "Minutes" "") 1]).2 ?_ _
    (List.prefix_refl _)
  intro pre a post hsplit
  have ha : a ∈ pre ++ a :: post := by simp
  rw [← hsplit] at ha
  simp only [List.mem_cons, List.not_mem_nil, or_false] at ha
  rcases ha with rfl | rfl
  · trivial
  · exact fun _ _ _ hmiss => hmiss

end Portfolio.Frontend
