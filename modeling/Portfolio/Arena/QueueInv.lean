import Mathlib.Data.Finset.Card
import Mathlib.Data.List.Sort
import Portfolio.Arena.MatchQueue
import Portfolio.Lib.DefaultMap
import Portfolio.Lib.Machine

/-!
# The match queue refines a finite map

`Agree` ties the index to the buckets. The abstract queue is `latest`: for each player the request
and order of its last `Upsert`, unless a `Remove` came after it.
-/

namespace Portfolio.Arena
open Std

theorem not_before_iff (a b : QueuedPlayer) : b.before a = false ↔
    a.request.elo < b.request.elo ∨ (a.request.elo = b.request.elo ∧ a.order ≤ b.order) := by
  unfold QueuedPlayer.before
  split
  · rw [decide_eq_false_iff_not]
    omega
  · rw [decide_eq_false_iff_not]
    omega

namespace InMemoryMatchQueue

/-! ### Agreement of the two structures -/

/-- The bucket of a rating, if any. -/
def bucketAt (q : InMemoryMatchQueue) (elo : Int) : List BucketEntry := (q.buckets[elo]?).getD []

/-- The index and the buckets hold the same requests. -/
structure Agree (q : InMemoryMatchQueue) : Prop where
  nonempty : ∀ elo : Int, q.buckets[elo]? ≠ some []
  indexed : ∀ elo, ∀ e ∈ q.bucketAt elo,
    e.request.elo = elo ∧ q.index[e.request.playerId]? = some (elo, e.node)
  found : ∀ (p : String) (elo : Int) (node : Nat), q.index[p]? = some (elo, node) →
    ∃ e ∈ q.bucketAt elo, e.node = node ∧ e.request.playerId = p
  nodes : ∀ elo, ((q.bucketAt elo).map (·.node)).Nodup
  fresh : ∀ elo, ∀ e ∈ q.bucketAt elo, e.node < q.nextNode
  sorted : ∀ elo, (q.bucketAt elo).Pairwise fun a b => a.order ≤ b.order

theorem agree_new : Agree {} := by
  have hbucket : ∀ elo : Int, bucketAt {} elo = [] := by
    intro elo
    unfold bucketAt
    rw [TreeMap.getElem?_emptyc]
    rfl
  refine ⟨?_, ?_, ?_, ?_, ?_, ?_⟩
  · intro elo h
    rw [TreeMap.getElem?_emptyc] at h
    cases h
  · intro elo e he
    rw [hbucket] at he
    cases he
  · intro p elo node h
    rw [TreeMap.getElem?_emptyc] at h
    cases h
  · intro elo
    rw [hbucket]
    exact List.Pairwise.nil
  · intro elo e he
    rw [hbucket] at he
    cases he
  · intro elo
    rw [hbucket]
    exact List.Pairwise.nil

/-! ### Erasing -/

theorem getElem?_eraseNode (buckets : TreeMap Int (List BucketEntry)) (elo elo' : Int)
    (bucket : List BucketEntry) (node : Nat) :
    (eraseNode buckets elo bucket node)[elo']? =
      if elo = elo' then (if (bucket.filter (·.node ≠ node)).isEmpty then none
        else some (bucket.filter (·.node ≠ node)))
      else buckets[elo']? := by
  unfold eraseNode
  dsimp only
  split
  · rw [TreeMap.getElem?_erase]
    simp only [Std.compare_eq_iff_eq]
  · rw [TreeMap.getElem?_insert]
    simp only [Std.compare_eq_iff_eq]

/-- In its bucket, the node of the index is the entry of the player. -/
theorem Agree.node_iff {q : InMemoryMatchQueue} (h : Agree q) {p : String} {elo : Int} {node : Nat}
    (hp : q.index[p]? = some (elo, node)) {e : BucketEntry} (he : e ∈ q.bucketAt elo) :
    e.node = node ↔ e.request.playerId = p := by
  constructor
  · intro hnode
    obtain ⟨e', he', hnode', hp'⟩ := h.found p elo node hp
    rw [List.inj_on_of_nodup_map (h.nodes elo) he he' (hnode.trans hnode'.symm), hp']
  · rintro rfl
    have := (h.indexed elo e he).2
    rw [hp] at this
    cases this
    rfl

/-- The queue without player `p`. -/
structure Without (p : String) (q q' : InMemoryMatchQueue) : Prop where
  agree : Agree q'
  bucketAt : ∀ elo, q'.bucketAt elo = (q.bucketAt elo).filter (·.request.playerId ≠ p)
  gone : q'.index[p]? = none
  nextNode : q'.nextNode = q.nextNode

theorem Agree.filter_of_not_mem {q : InMemoryMatchQueue} (h : Agree q) {p : String} {elo : Int}
    (hp : ∀ node, q.index[p]? ≠ some (elo, node)) :
    (q.bucketAt elo).filter (·.request.playerId ≠ p) = q.bucketAt elo := by
  rw [List.filter_eq_self]
  intro e he
  rw [decide_eq_true_eq]
  rintro rfl
  exact hp _ (h.indexed elo e he).2

theorem Agree.without_self {q : InMemoryMatchQueue} (h : Agree q) {p : String}
    (hp : q.index[p]? = none) : Without p q q := by
  refine ⟨h, fun elo => (h.filter_of_not_mem fun node hnode => ?_).symm, hp, rfl⟩
  rw [hp] at hnode
  cases hnode

/-- Erasing the node of player `p` filters `p` out of every bucket. -/
theorem Agree.bucketAt_erase {q : InMemoryMatchQueue} (h : Agree q) {p : String} {elo : Int} {node : Nat}
    (hp : q.index[p]? = some (elo, node)) {bucket : List BucketEntry}
    (hb : q.buckets[elo]? = some bucket) (index : TreeMap String (Int × Nat)) (elo' : Int) :
    bucketAt ⟨eraseNode q.buckets elo bucket node, index, q.nextNode⟩ elo' =
      (q.bucketAt elo').filter (·.request.playerId ≠ p) := by
  have hbucket : q.bucketAt elo = bucket := by
    unfold bucketAt
    rw [hb]
    rfl
  rw [bucketAt, getElem?_eraseNode]
  by_cases helo : elo = elo'
  · subst helo
    have hfilter : bucket.filter (·.node ≠ node) = (q.bucketAt elo).filter (·.request.playerId ≠ p) := by
      rw [hbucket]
      refine List.filter_congr fun e he => ?_
      rw [decide_eq_decide, ne_eq, ne_eq, h.node_iff hp (hbucket ▸ he)]
    rw [if_pos rfl, hfilter]
    split
    · next hempty => exact (List.isEmpty_iff.1 hempty).symm
    · rfl
  · rw [if_neg helo, h.filter_of_not_mem]
    · rfl
    · intro node' hnode'
      rw [hp] at hnode'
      cases hnode'
      exact helo rfl

theorem Agree.erase {q : InMemoryMatchQueue} (h : Agree q) {p : String} {elo : Int} {node : Nat}
    (hp : q.index[p]? = some (elo, node)) {bucket : List BucketEntry}
    (hb : q.buckets[elo]? = some bucket) :
    Without p q { q with buckets := eraseNode q.buckets elo bucket node, index := q.index.erase p } := by
  have hat := h.bucketAt_erase hp hb (q.index.erase p)
  have hindex : ∀ j : String, (q.index.erase p)[j]? = if p = j then none else q.index[j]? := by
    intro j
    rw [TreeMap.getElem?_erase]
    simp only [Std.compare_eq_iff_eq]
  have hmem : ∀ elo' e, e ∈ (q.bucketAt elo').filter (·.request.playerId ≠ p) →
      e ∈ q.bucketAt elo' ∧ p ≠ e.request.playerId := by
    intro elo' e he
    obtain ⟨he, hne⟩ := List.mem_filter.1 he
    exact ⟨he, Ne.symm (of_decide_eq_true hne)⟩
  refine ⟨⟨?_, ?_, ?_, ?_, ?_, ?_⟩, hat, ?_, rfl⟩
  · intro elo' hnil
    have hnil' : (eraseNode q.buckets elo bucket node)[elo']? = some [] := hnil
    rw [getElem?_eraseNode] at hnil'
    split at hnil'
    · split at hnil'
      · cases hnil'
      · next hempty => exact hempty (by simpa using hnil')
    · exact h.nonempty elo' hnil'
  · intro elo' e he
    rw [hat] at he
    obtain ⟨he, hne⟩ := hmem elo' e he
    refine ⟨(h.indexed elo' e he).1, ?_⟩
    rw [hindex, if_neg hne, (h.indexed elo' e he).2]
  · intro j elo' node' hj
    rw [hindex] at hj
    split at hj
    · cases hj
    · next hne =>
      obtain ⟨e, he, hnode, rfl⟩ := h.found j elo' node' hj
      refine ⟨e, ?_, hnode, rfl⟩
      rw [hat, List.mem_filter]
      exact ⟨he, decide_eq_true (Ne.symm hne)⟩
  · intro elo'
    rw [hat]
    exact (h.nodes elo').sublist (List.filter_sublist.map _)
  · intro elo' e he
    rw [hat] at he
    exact h.fresh elo' e (hmem elo' e he).1
  · intro elo'
    rw [hat]
    exact (h.sorted elo').filter _
  · rw [hindex, if_pos rfl]

/-! ### The operations -/

theorem Agree.bucket_of_index {q : InMemoryMatchQueue} (h : Agree q) {p : String} {elo : Int}
    {node : Nat} (hp : q.index[p]? = some (elo, node)) : q.buckets[elo]? = some (q.bucketAt elo) := by
  obtain ⟨e, he, -⟩ := h.found p elo node hp
  unfold bucketAt at he ⊢
  cases hb : q.buckets[elo]? with
  | none =>
    rw [hb] at he
    cases he
  | some bucket => rfl

theorem Agree.dropExisting {q : InMemoryMatchQueue} (h : Agree q) (p : String) :
    Without p q (q.dropExisting p) := by
  unfold InMemoryMatchQueue.dropExisting
  cases hp : q.index[p]? with
  | none => exact h.without_self hp
  | some x =>
    obtain ⟨elo, node⟩ := x
    dsimp only
    rw [h.bucket_of_index hp]
    exact h.erase hp (h.bucket_of_index hp)

theorem Agree.remove {q : InMemoryMatchQueue} (h : Agree q) (p : String) :
    Without p q (q.remove p).1 ∧ (q.remove p).2 = (q.index[p]?).isSome := by
  unfold InMemoryMatchQueue.remove
  cases hp : q.index[p]? with
  | none => exact ⟨h.without_self hp, rfl⟩
  | some x =>
    obtain ⟨elo, node⟩ := x
    dsimp only
    rw [h.bucket_of_index hp]
    exact ⟨h.erase hp (h.bucket_of_index hp), rfl⟩

theorem insertEntry_perm (entry : BucketEntry) (bucket : List BucketEntry) :
    (insertEntry entry bucket).Perm (entry :: bucket) := by
  induction bucket with
  | nil => exact List.Perm.refl _
  | cons e bucket ih =>
    unfold insertEntry
    split
    · exact List.Perm.refl _
    · exact (ih.cons e).trans (List.Perm.swap entry e bucket)

theorem insertEntry_sorted (entry : BucketEntry) {bucket : List BucketEntry}
    (h : bucket.Pairwise fun a b => a.order ≤ b.order) :
    (insertEntry entry bucket).Pairwise fun a b => a.order ≤ b.order := by
  induction bucket with
  | nil => exact List.pairwise_singleton _ _
  | cons e bucket ih =>
    obtain ⟨he, hrest⟩ := List.pairwise_cons.1 h
    unfold insertEntry
    split
    · next hlt =>
      refine List.pairwise_cons.2 ⟨?_, h⟩
      intro b hb
      rcases List.mem_cons.1 hb with rfl | hb
      · exact Nat.le_of_lt hlt
      · exact (Nat.le_of_lt hlt).trans (he b hb)
    · next hle =>
      refine List.pairwise_cons.2 ⟨?_, ih hrest⟩
      intro b hb
      rcases List.mem_cons.1 ((insertEntry_perm entry bucket).mem_iff.1 hb) with rfl | hb
      · exact Nat.le_of_not_lt hle
      · exact he b hb

theorem bucketAt_insertRequest (q : InMemoryMatchQueue) (r : MatchRequest) (order : Nat) (elo : Int) :
    (q.insertRequest r order).bucketAt elo =
      if r.elo = elo then insertEntry ⟨r, order, q.nextNode⟩ (q.bucketAt r.elo) else q.bucketAt elo := by
  unfold bucketAt insertRequest
  dsimp only
  rw [TreeMap.getElem?_insert]
  simp only [Std.compare_eq_iff_eq]
  split <;> rfl

theorem mem_insertRequest {q : InMemoryMatchQueue} {r : MatchRequest} {order : Nat} {elo : Int}
    {e : BucketEntry} : e ∈ (q.insertRequest r order).bucketAt elo ↔
      (r.elo = elo ∧ e = ⟨r, order, q.nextNode⟩) ∨ e ∈ q.bucketAt elo := by
  rw [bucketAt_insertRequest]
  split
  · next helo =>
    rw [(insertEntry_perm _ _).mem_iff, List.mem_cons, helo]
    simp only [true_and]
  · next helo => simp only [helo, false_and, false_or]

/-- Player `r.playerId` is not in `q`; its request goes into the bucket of its rating. -/
theorem Agree.insertRequest {q : InMemoryMatchQueue} (h : Agree q) {r : MatchRequest} (order : Nat)
    (hp : q.index[r.playerId]? = none) : Agree (q.insertRequest r order) := by
  have hindex : ∀ j : String, (q.insertRequest r order).index[j]? =
      if r.playerId = j then some (r.elo, q.nextNode) else q.index[j]? := by
    intro j
    unfold InMemoryMatchQueue.insertRequest
    dsimp only
    rw [TreeMap.getElem?_insert]
    simp only [Std.compare_eq_iff_eq]
  have hother : ∀ elo, ∀ e ∈ q.bucketAt elo, r.playerId ≠ e.request.playerId := by
    intro elo e he heq
    have := (h.indexed elo e he).2
    rw [← heq, hp] at this
    cases this
  refine ⟨?_, ?_, ?_, ?_, ?_, ?_⟩
  · intro elo hnil
    have hget : (q.buckets.insert r.elo _)[elo]? = some [] := hnil
    rw [TreeMap.getElem?_insert] at hget
    split at hget
    · have hlen := (insertEntry_perm ⟨r, order, q.nextNode⟩ ((q.buckets[r.elo]?).getD [])).length_eq
      rw [Option.some.inj hget] at hlen
      cases hlen
    · exact h.nonempty elo hget
  · intro elo e he
    rw [hindex]
    rcases mem_insertRequest.1 he with ⟨helo, rfl⟩ | he
    · exact ⟨helo, by rw [if_pos rfl, helo]⟩
    · rw [if_neg (hother _ e he)]
      exact h.indexed elo e he
  · intro j elo node hj
    rw [hindex] at hj
    split at hj
    · next hrj =>
      cases hj
      exact ⟨⟨r, order, q.nextNode⟩, mem_insertRequest.2 (.inl ⟨rfl, rfl⟩), rfl, hrj⟩
    · obtain ⟨e, he, hnode, hej⟩ := h.found j elo node hj
      exact ⟨e, mem_insertRequest.2 (.inr he), hnode, hej⟩
  · intro elo
    rw [bucketAt_insertRequest]
    split
    · rw [((insertEntry_perm _ _).map _).nodup_iff, List.map_cons, List.nodup_cons]
      refine ⟨?_, h.nodes r.elo⟩
      intro hmem
      obtain ⟨e, he, hnode⟩ := List.mem_map.1 hmem
      exact Nat.lt_irrefl _ (hnode ▸ h.fresh _ e he)
    · exact h.nodes elo
  · intro elo e he
    rcases mem_insertRequest.1 he with ⟨-, rfl⟩ | he
    · exact Nat.lt_succ_self _
    · exact Nat.lt_succ_of_lt (h.fresh _ e he)
  · intro elo
    rw [bucketAt_insertRequest]
    split
    · exact insertEntry_sorted _ (h.sorted r.elo)
    · exact h.sorted elo

/-! ### What the queue holds -/

/-- The queued players, in no particular order. -/
def contents (q : InMemoryMatchQueue) : List QueuedPlayer := q.entries.map (·.queued)

theorem mem_entries {q : InMemoryMatchQueue} {e : BucketEntry} :
    e ∈ q.entries ↔ ∃ elo, e ∈ q.bucketAt elo := by
  unfold entries
  rw [List.mem_flatMap]
  constructor
  · rintro ⟨⟨elo, bucket⟩, hb, he⟩
    rw [TreeMap.mem_toList_iff_getElem?_eq_some] at hb
    refine ⟨elo, ?_⟩
    rw [bucketAt, hb]
    exact he
  · rintro ⟨elo, he⟩
    unfold bucketAt at he
    cases hb : q.buckets[elo]? with
    | none =>
      rw [hb] at he
      cases he
    | some bucket =>
      rw [hb] at he
      exact ⟨(elo, bucket), TreeMap.mem_toList_iff_getElem?_eq_some.2 hb, he⟩

theorem mem_contents {q : InMemoryMatchQueue} {x : QueuedPlayer} :
    x ∈ q.contents ↔ ∃ elo, ∃ e ∈ q.bucketAt elo, e.queued = x := by
  unfold contents
  simp only [List.mem_map, mem_entries]
  constructor
  · rintro ⟨e, ⟨elo, he⟩, hx⟩
    exact ⟨elo, e, he, hx⟩
  · rintro ⟨elo, e, he, hx⟩
    exact ⟨e, ⟨elo, he⟩, hx⟩

theorem Without.mem_contents {p : String} {q q' : InMemoryMatchQueue} (h : Without p q q')
    {x : QueuedPlayer} : x ∈ q'.contents ↔ x ∈ q.contents ∧ x.request.playerId ≠ p := by
  rw [InMemoryMatchQueue.mem_contents, InMemoryMatchQueue.mem_contents]
  simp only [h.bucketAt, List.mem_filter, decide_eq_true_eq]
  constructor
  · rintro ⟨elo, e, ⟨he, hne⟩, rfl⟩
    exact ⟨⟨elo, e, he, rfl⟩, hne⟩
  · rintro ⟨⟨elo, e, he, rfl⟩, hne⟩
    exact ⟨elo, e, ⟨he, hne⟩, rfl⟩

theorem Agree.upsert {q : InMemoryMatchQueue} (h : Agree q) (r : MatchRequest) (order : Nat) :
    Agree (q.upsert r order) ∧ ∀ x, x ∈ (q.upsert r order).contents ↔
      x = ⟨r, order⟩ ∨ (x ∈ q.contents ∧ x.request.playerId ≠ r.playerId) := by
  have hw := h.dropExisting r.playerId
  refine ⟨hw.agree.insertRequest order hw.gone, fun x => ?_⟩
  rw [← hw.mem_contents, InMemoryMatchQueue.mem_contents, InMemoryMatchQueue.mem_contents]
  constructor
  · rintro ⟨elo, e, he, rfl⟩
    rcases mem_insertRequest.1 he with ⟨-, rfl⟩ | he
    · exact .inl rfl
    · exact .inr ⟨elo, e, he, rfl⟩
  · rintro (rfl | ⟨elo, e, he, rfl⟩)
    · exact ⟨r.elo, _, mem_insertRequest.2 (.inl ⟨rfl, rfl⟩), rfl⟩
    · exact ⟨elo, e, mem_insertRequest.2 (.inr he), rfl⟩

theorem bucketAt_of_mem {q : InMemoryMatchQueue} {kv : Int × List BucketEntry}
    (h : kv ∈ q.buckets.toList) : q.bucketAt kv.1 = kv.2 := by
  rw [bucketAt, TreeMap.mem_toList_iff_getElem?_eq_some.1 h]
  rfl

theorem Agree.nodup_players {q : InMemoryMatchQueue} (h : Agree q) :
    (q.entries.map (·.request.playerId)).Nodup := by
  unfold entries
  rw [List.nodup_iff_pairwise_ne, List.pairwise_map, List.pairwise_flatMap]
  constructor
  · intro kv hkv
    rw [← bucketAt_of_mem hkv]
    refine (List.pairwise_map.1 (h.nodes kv.1)).imp_of_mem ?_
    intro a b ha hb hnode hp
    have hia := (h.indexed kv.1 a ha).2
    rw [hp, (h.indexed kv.1 b hb).2] at hia
    exact hnode (congrArg Prod.snd (Option.some.inj hia)).symm
  · refine (pairwise_toList q.buckets).imp_of_mem ?_
    intro a b ha hb hne x hx y hy hp
    have hix := (h.indexed a.1 x (bucketAt_of_mem ha ▸ hx)).2
    rw [hp, (h.indexed b.1 y (bucketAt_of_mem hb ▸ hy)).2] at hix
    exact hne (congrArg Prod.fst (Option.some.inj hix)).symm

theorem Agree.nodup_contents {q : InMemoryMatchQueue} (h : Agree q) :
    (q.contents.map (·.request.playerId)).Nodup := by
  unfold contents
  rw [List.map_map]
  exact h.nodup_players

theorem Agree.index_iff {q : InMemoryMatchQueue} (h : Agree q) {p : String} :
    (∃ v, q.index[p]? = some v) ↔ p ∈ q.entries.map (·.request.playerId) := by
  rw [List.mem_map]
  constructor
  · rintro ⟨⟨elo, node⟩, hp⟩
    obtain ⟨e, he, -, hep⟩ := h.found p elo node hp
    exact ⟨e, mem_entries.2 ⟨elo, he⟩, hep⟩
  · rintro ⟨e, he, rfl⟩
    obtain ⟨elo, he⟩ := mem_entries.1 he
    exact ⟨_, (h.indexed elo e he).2⟩

theorem Agree.size_eq {q : InMemoryMatchQueue} (h : Agree q) : q.size = q.entries.length := by
  have hnodup : (q.index.toList.map (·.1)).Nodup := by
    rw [List.nodup_iff_pairwise_ne, List.pairwise_map]
    exact pairwise_toList q.index
  have hperm : (q.index.toList.map (·.1)).Perm (q.entries.map (·.request.playerId)) := by
    rw [List.perm_ext_iff_of_nodup hnodup h.nodup_players]
    intro p
    rw [← h.index_iff, List.mem_map]
    constructor
    · rintro ⟨⟨j, v⟩, hkv, rfl⟩
      exact ⟨v, TreeMap.mem_toList_iff_getElem?_eq_some.1 hkv⟩
    · rintro ⟨v, hv⟩
      exact ⟨(p, v), TreeMap.mem_toList_iff_getElem?_eq_some.2 hv, rfl⟩
  have hlen := hperm.length_eq
  rw [List.length_map, List.length_map, TreeMap.length_toList] at hlen
  exact hlen

/-- The buckets already are in the order of `FetchOrdered`. -/
theorem Agree.contents_sorted {q : InMemoryMatchQueue} (h : Agree q) :
    q.contents.Pairwise fun a b => b.before a = false := by
  have helo : ∀ kv ∈ q.buckets.toList, ∀ e ∈ kv.2, e.request.elo = kv.1 := by
    intro kv hkv e he
    exact (h.indexed kv.1 e (bucketAt_of_mem hkv ▸ he)).1
  unfold contents entries
  rw [List.pairwise_map, List.pairwise_flatMap]
  constructor
  · intro kv hkv
    have hsorted := h.sorted kv.1
    rw [bucketAt_of_mem hkv] at hsorted
    refine hsorted.imp_of_mem fun ha hb hab => ?_
    exact (not_before_iff _ _).2 (.inr ⟨(helo kv hkv _ ha).trans (helo kv hkv _ hb).symm, hab⟩)
  · refine TreeMap.ordered_keys_toList.imp_of_mem fun ha hb hab x hx y hy => ?_
    refine (not_before_iff _ _).2 (.inl ?_)
    show x.request.elo < y.request.elo
    rw [helo _ ha x hx, helo _ hb y hy]
    exact Std.compare_eq_lt.1 hab

/-- Where the orders differ, sorting has nothing left to decide. -/
theorem Agree.fetchOrdered_eq {q : InMemoryMatchQueue} (h : Agree q)
    {sort : List QueuedPlayer → List QueuedPlayer} (hsort : IsSort sort)
    (horders : ∀ x ∈ q.contents, ∀ y ∈ q.contents, x.order = y.order → x = y) :
    q.fetchOrdered sort = q.contents := by
  obtain ⟨hperm, hsorted⟩ := hsort q.contents
  refine hperm.eq_of_pairwise (fun a b ha hb hab hba => ?_) hsorted h.contents_sorted
  rw [not_before_iff] at hab hba
  exact horders a (hperm.mem_iff.1 ha) b hb (by omega)

end InMemoryMatchQueue

/-! ### Runs -/

inductive QueueOp where
  | upsert (request : MatchRequest) (order : Nat)
  | remove (playerId : String)
  deriving DecidableEq, Repr

/-- The player that an operation is about. -/
def QueueOp.player : QueueOp → String
  | .upsert request _ => request.playerId
  | .remove playerId => playerId

/-- The outputs are the results of `Remove`. -/
def queueMachine : Machine InMemoryMatchQueue QueueOp Bool where
  init := {}
  step q
    | .upsert request order => (q.upsert request order, [])
    | .remove playerId => ((q.remove playerId).1, [(q.remove playerId).2])

/-- The abstract queue: the last request of player `p`, if its last operation was an `Upsert`. -/
def latest (ops : List QueueOp) (p : String) : Option QueuedPlayer :=
  ops.foldl (fun current op => match op with
    | .upsert request order => if request.playerId = p then some ⟨request, order⟩ else current
    | .remove playerId => if playerId = p then none else current) none

theorem latest_upsert (ops : List QueueOp) (r : MatchRequest) (order : Nat) (p : String) :
    latest (ops ++ [.upsert r order]) p = if r.playerId = p then some ⟨r, order⟩ else latest ops p := by
  unfold latest
  rw [List.foldl_append]
  rfl

theorem latest_remove (ops : List QueueOp) (j p : String) :
    latest (ops ++ [.remove j]) p = if j = p then none else latest ops p := by
  unfold latest
  rw [List.foldl_append]
  rfl

/-- The queue holds what the abstract queue holds. -/
def Represents (ops : List QueueOp) (q : InMemoryMatchQueue) : Prop :=
  ∀ p x, latest ops p = some x ↔ x ∈ q.contents ∧ x.request.playerId = p

theorem Represents.upsert {ops : List QueueOp} {q : InMemoryMatchQueue} (h : Represents ops q)
    (hagree : q.Agree) (r : MatchRequest) (order : Nat) :
    Represents (ops ++ [.upsert r order]) (q.upsert r order) := by
  intro p x
  rw [latest_upsert, (hagree.upsert r order).2]
  split
  · next hp =>
    subst hp
    constructor
    · intro hx
      cases hx
      exact ⟨.inl rfl, rfl⟩
    · rintro ⟨rfl | ⟨-, hne⟩, hx⟩
      · rfl
      · exact absurd hx hne
  · next hp =>
    rw [h]
    constructor
    · rintro ⟨hx, rfl⟩
      exact ⟨.inr ⟨hx, Ne.symm hp⟩, rfl⟩
    · rintro ⟨rfl | ⟨hx, -⟩, rfl⟩
      · exact absurd rfl hp
      · exact ⟨hx, rfl⟩

theorem Represents.remove {ops : List QueueOp} {q : InMemoryMatchQueue} (h : Represents ops q)
    (hagree : q.Agree) (j : String) : Represents (ops ++ [.remove j]) (q.remove j).1 := by
  intro p x
  rw [latest_remove, (hagree.remove j).1.mem_contents]
  split
  · next hp =>
    subst hp
    constructor
    · intro hx
      cases hx
    · rintro ⟨⟨-, hne⟩, hx⟩
      exact absurd hx hne
  · next hp =>
    rw [h]
    constructor
    · rintro ⟨hx, rfl⟩
      exact ⟨⟨hx, Ne.symm hp⟩, rfl⟩
    · rintro ⟨⟨hx, -⟩, hxp⟩
      exact ⟨hx, hxp⟩

theorem queue_run (ops : List QueueOp) :
    (queueMachine.run ops).1.Agree ∧ Represents ops (queueMachine.run ops).1 := by
  refine queueMachine.run_inv (P := fun ops _ q => q.Agree ∧ Represents ops q) ?_ ?_ ops
  · refine ⟨InMemoryMatchQueue.agree_new, fun p x => ?_⟩
    constructor
    · intro h
      cases h
    · rintro ⟨h, -⟩
      cases h
  · rintro ops _ q op ⟨hagree, h⟩
    cases op with
    | upsert r order => exact ⟨(hagree.upsert r order).1, h.upsert hagree r order⟩
    | remove j => exact ⟨(hagree.remove j).1.agree, h.remove hagree j⟩

theorem latest_isSome (ops : List QueueOp) (p : String) :
    (latest ops p).isSome ↔ p ∈ (queueMachine.run ops).1.entries.map (·.request.playerId) := by
  rw [Option.isSome_iff_exists, List.mem_map]
  constructor
  · rintro ⟨x, hx⟩
    obtain ⟨hmem, hp⟩ := ((queue_run ops).2 p x).1 hx
    obtain ⟨e, he, rfl⟩ := List.mem_map.1 hmem
    exact ⟨e, he, hp⟩
  · rintro ⟨e, he, hp⟩
    exact ⟨e.queued, ((queue_run ops).2 p e.queued).2 ⟨List.mem_map.2 ⟨e, he, rfl⟩, hp⟩⟩

theorem player_mem_of_latest {ops : List QueueOp} {p : String} (h : (latest ops p).isSome) :
    p ∈ ops.map QueueOp.player := by
  induction ops using List.reverseRecOn with
  | nil => cases h
  | append_singleton ops op ih =>
    rw [List.map_append, List.mem_append]
    cases op with
    | upsert r order =>
      rw [latest_upsert] at h
      split at h
      · next hp => exact .inr (List.mem_singleton.2 hp.symm)
      · exact .inl (ih h)
    | remove j =>
      rw [latest_remove] at h
      split at h
      · cases h
      · exact .inl (ih h)

/-- The players whose last operation was an `Upsert`. -/
def presentPlayers (ops : List QueueOp) : Finset String :=
  (ops.map QueueOp.player).toFinset.filter fun p => (latest ops p).isSome

theorem card_presentPlayers (ops : List QueueOp) :
    (presentPlayers ops).card = (queueMachine.run ops).1.entries.length := by
  have hset : presentPlayers ops = ((queueMachine.run ops).1.entries.map (·.request.playerId)).toFinset := by
    ext p
    rw [presentPlayers, Finset.mem_filter, List.mem_toFinset, List.mem_toFinset, ← latest_isSome]
    exact ⟨And.right, fun h => ⟨player_mem_of_latest h, h⟩⟩
  rw [hset, List.toFinset_card_of_nodup (queue_run ops).1.nodup_players, List.length_map]

/-- The queue `q` after `ops` is the finite map of their last upserts. -/
structure RefinesMap (sort : List QueuedPlayer → List QueuedPlayer) (ops : List QueueOp)
    (q : InMemoryMatchQueue) : Prop where
  nonempty : ∀ elo : Int, q.buckets[elo]? ≠ some []
  indexed : ∀ (p : String) (elo : Int) (node : Nat), q.index[p]? = some (elo, node) →
    ∃ bucket, q.buckets[elo]? = some bucket ∧
      ∃ e ∈ bucket, e.node = node ∧ e.request.playerId = p ∧ e.request.elo = elo
  entries : ∀ (elo : Int) (bucket : List BucketEntry), q.buckets[elo]? = some bucket →
    ∀ e ∈ bucket, q.index[e.request.playerId]? = some (elo, e.node)
  once : (q.entries.map (·.request.playerId)).Nodup
  size : q.size = (presentPlayers ops).card
  remove : ∀ p, (q.remove p).2 = true ↔ (latest ops p).isSome
  fetched : ∀ p x, latest ops p = some x ↔ x ∈ q.fetchOrdered sort ∧ x.request.playerId = p
  fetchedOnce : ((q.fetchOrdered sort).map (·.request.playerId)).Nodup
  sorted : (q.fetchOrdered sort).Pairwise fun a b =>
    a.request.elo < b.request.elo ∨ (a.request.elo = b.request.elo ∧ a.order ≤ b.order)

theorem queue_refines_map {sort : List QueuedPlayer → List QueuedPlayer} (hsort : IsSort sort)
    (ops : List QueueOp) : RefinesMap sort ops (queueMachine.run ops).1 := by
  obtain ⟨h, hmem⟩ := queue_run ops
  obtain ⟨hperm, hsorted⟩ := hsort (queueMachine.run ops).1.contents
  refine ⟨h.nonempty, ?_, ?_, h.nodup_players, ?_, ?_, ?_, ?_, ?_⟩
  · intro p elo node hp
    obtain ⟨e, he, hnode, hep⟩ := h.found p elo node hp
    exact ⟨_, h.bucket_of_index hp, e, he, hnode, hep, (h.indexed elo e he).1⟩
  · intro elo bucket hb e he
    refine (h.indexed elo e ?_).2
    rw [InMemoryMatchQueue.bucketAt, hb]
    exact he
  · rw [h.size_eq, card_presentPlayers]
  · intro p
    rw [(h.remove p).2, Option.isSome_iff_exists, h.index_iff, latest_isSome]
  · intro p x
    rw [hmem p x]
    exact and_congr_left fun _ => hperm.mem_iff.symm
  · exact (hperm.map _).nodup_iff.2 h.nodup_contents
  · exact hsorted.imp fun hab => (not_before_iff _ _).1 hab

theorem isSort_insertionSort : IsSort (List.insertionSort fun a b => b.before a = false) := by
  intro l
  have htotal : Std.Total fun a b : QueuedPlayer => b.before a = false := by
    constructor
    intro a b
    simp only [not_before_iff]
    omega
  have htrans : IsTrans QueuedPlayer fun a b => b.before a = false := by
    constructor
    intro a b c
    simp only [not_before_iff]
    omega
  exact ⟨List.perm_insertionSort _ l, List.pairwise_insertionSort _ l⟩

/-- A player comes back with another rating, one with the same rating, and one leaves. -/
def requeueOps : List QueueOp :=
  [.upsert ⟨"alice", 1200, 0, "global"⟩ 1, .upsert ⟨"bob", 1100, 0, "global"⟩ 2,
    .upsert ⟨"carol", 1200, 10, "global"⟩ 3, .upsert ⟨"alice", 1250, 20, "global"⟩ 4,
    .upsert ⟨"carol", 1200, 30, "global"⟩ 5, .remove "bob"]

theorem queue_refines_map_requeue :
    ((queueMachine.run requeueOps).1.fetchOrdered (List.insertionSort fun a b => b.before a = false)).map
        (fun x => (x.request.playerId, x.order)) = [("carol", 5), ("alice", 4)] ∧
      RefinesMap (List.insertionSort fun a b => b.before a = false) requeueOps
        (queueMachine.run requeueOps).1 :=
  ⟨by decide +kernel, queue_refines_map isSort_insertionSort requeueOps⟩

end Portfolio.Arena
