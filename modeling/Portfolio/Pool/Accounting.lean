import Portfolio.Pool.ConnectionPool

/-!
# Accounting

What a step of one call does to the places of the connections is one of a few moves (`Move`): take,
put, add, remove, create, discount. So every connection of the pool is in one place, idle, in use or
in transit inside one call (`Placed`). `Held` adds whom a connection in use belongs to: one open
`PooledConnection` or one call that is about to hand it out, and nobody once it is closed. A second close that
has found the same `PooledConnection` open does no harm, unless the connection is acquired before its release.
-/

namespace Portfolio.Pool

/-! ### Moves of a connection -/

/-- The pool as one call sees it: idle, in use, the counter, and what the call has in transit. -/
structure View where
  available : List Conn
  inUse : Finset Conn
  total : Int
  carried : Option Conn

/-- One if `x` is in the set. -/
def inSet (u : Finset Conn) (x : Conn) : Nat := if x ∈ u then 1 else 0

/-- One if `x` is what is carried. -/
def inHand (c : Option Conn) (x : Conn) : Nat := if c = some x then 1 else 0

@[simp] theorem inHand_none (x : Conn) : inHand none x = 0 := rfl

@[simp] theorem inHand_some (c x : Conn) : inHand (some c) x = if c = x then 1 else 0 := by
  simp [inHand]

@[simp] theorem inSet_insert (u : Finset Conn) (c x : Conn) :
    inSet (insert c u) x = if c = x then 1 else inSet u x := by
  by_cases hx : c = x
  · simp [inSet, hx]
  · simp [inSet, hx, Ne.symm hx]

@[simp] theorem inSet_erase (u : Finset Conn) (c x : Conn) :
    inSet (u.erase c) x = if c = x then 0 else inSet u x := by
  by_cases hx : c = x
  · simp [inSet, hx]
  · simp [inSet, hx, Ne.symm hx]

theorem inSet_of_mem {u : Finset Conn} {x : Conn} (h : x ∈ u) : inSet u x = 1 := if_pos h

theorem inSet_le_one (u : Finset Conn) (x : Conn) : inSet u x ≤ 1 := by
  unfold inSet
  split <;> omega

namespace View

/-- The places of `x`. -/
def places (v : View) (x : Conn) : Nat := v.available.count x + inSet v.inUse x + inHand v.carried x

def size (v : View) : Nat := v.available.length + v.inUse.card + v.carried.toList.length

end View

/-- What one step can do, with the connection that it creates. -/
inductive Move (max : Int) : View → View → Option Conn → Prop where
  | stay (v : View) : Move max v v none
  | take (a u t c) : Move max ⟨c :: a, u, t, none⟩ ⟨a, u, t, some c⟩ none
  | put (a u t c) : Move max ⟨a, u, t, some c⟩ ⟨a ++ [c], u, t, none⟩ none
  | add (a u t c) : Move max ⟨a, u, t, some c⟩ ⟨a, insert c u, t, none⟩ none
  | remove (a u t c) : c ∈ u → Move max ⟨a, u, t, none⟩ ⟨a, u.erase c, t, some c⟩ none
  | create (a u t c) : t < max → Move max ⟨a, u, t, none⟩ ⟨a, u, t + 1, some c⟩ (some c)
  | discount (a u t c) : Move max ⟨a, u, t, some c⟩ ⟨a, u, t - 1, none⟩ none

namespace Move
variable {max : Int} {v w : View} {created : Option Conn}

/-- The places of a connection do not grow, unless it is created. -/
theorem places_le (h : Move max v w created) (x : Conn) :
    w.places x ≤ v.places x + if created = some x then 1 else 0 := by
  cases h with
  | stay => simp
  | take a u t c =>
    simp only [View.places, List.count_cons, beq_iff_eq, inHand_none, inHand_some]
    omega
  | put a u t c =>
    simp only [View.places, List.count_append, List.count_singleton, beq_iff_eq, inHand_none, inHand_some]
    omega
  | add a u t c =>
    simp only [View.places, inSet_insert, inHand_none, inHand_some]
    split <;> omega
  | remove a u t c hc =>
    simp only [View.places, inSet_erase, inHand_none, inHand_some]
    split
    · rename_i hx
      rw [← hx, inSet_of_mem hc]
      omega
    · omega
  | create a u t c => simp [View.places]
  | discount a u t c => simp [View.places]

/-- The counter follows the number of connections. -/
theorem total_sub_size (h : Move max v w created) (hone : ∀ x, v.places x ≤ 1) :
    w.total - w.size = v.total - v.size := by
  cases h with
  | stay => rfl
  | take a u t c =>
    simp only [View.size, List.length_cons, Option.toList_none, Option.toList_some, List.length_nil]
    omega
  | put a u t c =>
    simp only [View.size, List.length_append, List.length_cons, Option.toList_none, Option.toList_some,
      List.length_nil]
    omega
  | add a u t c =>
    have hc : c ∉ u := by
      intro hc
      have := hone c
      simp [View.places, inSet_of_mem hc] at this
    simp only [View.size, Finset.card_insert_of_notMem hc, Option.toList_none, Option.toList_some,
      List.length_cons, List.length_nil]
    omega
  | remove a u t c hc =>
    have := Finset.card_erase_add_one hc
    simp only [View.size, Option.toList_none, Option.toList_some, List.length_cons, List.length_nil]
    omega
  | create a u t c =>
    simp only [View.size, Option.toList_none, Option.toList_some, List.length_cons, List.length_nil]
    omega
  | discount a u t c =>
    simp only [View.size, Option.toList_none, Option.toList_some, List.length_cons, List.length_nil]
    omega

end Move

/-! ### Steps are moves -/

def view (p : ConnectionPool) (k : Call) : View := ⟨p.available, p.inUse, p.totalConnections, k.carried⟩

/-- The connection that a step creates. -/
def Call.created (config : PoolConfig) (env : Env) (p : ConnectionPool) : Call → Option Conn
  | .allocating => if p.totalConnections < config.maxConnections then env.factory else none
  | _ => none

theorem carried_disposed (acquiring raised : Bool) : (Call.disposed acquiring raised).carried = none := by
  cases acquiring <;> cases raised <;> rfl

theorem step_move {config : PoolConfig} {env : Env} (hcaught : env.health ≠ .escapes) {p p' : ConnectionPool}
    {k k' : Call} (h : k.Step config env p p' k') :
    Move config.maxConnections (view p k) (view p' k') (k.created config env p) := by
  cases h with
  | poll queue | get queue =>
    simp only [view, queue]
    exact .take ..
  | create room factory =>
    simp only [Call.created, if_pos room, factory]
    exact .create _ _ _ _ room
  | refused room factory =>
    simp only [Call.created, if_pos room, factory]
    exact .stay _
  | full full =>
    simp only [Call.created, if_neg (Int.not_lt.2 full)]
    exact .stay _
  | escape health | raise health => exact absurd health hcaught
  | register => exact .add ..
  | remove inUse => exact .remove _ _ _ _ inUse
  | giveBack => exact .put ..
  | discount =>
    simp only [view, carried_disposed]
    exact .discount ..
  | _ => exact .stay _

/-! ### Every connection is in one place -/

section Placed
variable {config : PoolConfig} {made : Nat → Conn}

def Call.carries (x : Conn) (k : Call) : Nat := inHand k.carried x

/-- The places of `x` in the whole pool. -/
def places (s : Threads ConnectionPool Call) (x : Conn) : Nat :=
  s.shared.available.count x + inSet s.shared.inUse x + (s.calls.map (Call.carries x)).sum

/-- A created connection is not in the pool yet, and no exception leaves a health check. -/
structure Sound (config : PoolConfig) (s : Threads ConnectionPool Call) (k : Call) (env : Env) :
    Prop where
  fresh : ∀ c ∈ k.created config env s.shared, places s c = 0
  caught : env.health ≠ .escapes

instance (config : PoolConfig) (s : Threads ConnectionPool Call) (k : Call) (env : Env) :
    Decidable (Sound config s k env) :=
  decidable_of_iff ((∀ c ∈ k.created config env s.shared, places s c = 0) ∧ env.health ≠ .escapes)
    ⟨fun h => ⟨h.1, h.2⟩, fun h => ⟨h.fresh, h.caught⟩⟩

structure Placed (s : Threads ConnectionPool Call) : Prop where
  one : ∀ x, places s x ≤ 1
  total : s.shared.totalConnections = existing s

theorem view_places_le {s : Threads ConnectionPool Call} {i : Nat} {k : Call}
    (hk : s.calls[i]? = some k)
    (x : Conn) : (view s.shared k).places x ≤ places s x := by
  have := le_sum_map (Call.carries x) hk
  simp only [View.places, view, places, Call.carries] at this ⊢
  omega

theorem Placed.step {s : Threads ConnectionPool Call} (h : Placed s) {i : Nat} {k : Call} {env : Env}
    (hk : s.calls[i]? = some k) (hs : Sound config s k env) :
    Placed ⟨(k.next config env s.shared).1, s.calls.set i (k.next config env s.shared).2⟩ := by
  have hmove := step_move hs.caught (k.next_step config env s.shared)
  have hview : ∀ x, (view s.shared k).places x ≤ 1 := fun x => (view_places_le hk x).trans (h.one x)
  refine ⟨fun x => ?_, ?_⟩
  · have hle := hmove.places_le x
    have hset := sum_map_set (Call.carries x) hk (k.next config env s.shared).2
    have hone := h.one x
    have hfresh : (if k.created config env s.shared = some x then 1 else 0) + places s x ≤ 1 := by
      split
      · rename_i hc
        have := hs.fresh x hc
        omega
      · omega
    simp only [places, View.places, view, Call.carries] at *
    omega
  · have htotal := hmove.total_sub_size hview
    have hset := sum_map_set (fun k => k.carried.toList.length) hk (k.next config env s.shared).2
    have := h.total
    simp only [existing, inTransit, View.size, view] at *
    omega

theorem Placed.call {s : Threads ConnectionPool Call} (h : Placed s) (r : Request) :
    Placed ⟨s.shared, s.calls ++ [r.start]⟩ := by
  have hstart : r.start.carried = none := by cases r <;> rfl
  refine ⟨fun x => ?_, ?_⟩
  · have := h.one x
    simpa [places, sum_map_concat, Call.carries, hstart] using this
  · simpa [existing, inTransit, hstart] using h.total

theorem new_eq (config : PoolConfig) (made : Nat → Conn) :
    ConnectionPool.new config made =
      { available := (List.range config.minConnections.toNat).map made
        totalConnections := config.minConnections.toNat } := by
  unfold ConnectionPool.new
  induction config.minConnections.toNat with
  | zero => rfl
  | succ n ih =>
    rw [List.range_succ, List.foldl_append, ih, List.map_append]
    rfl

theorem Placed.new (hmade : ∀ m n, made m = made n → m = n) :
    Placed (⟨.new config made, []⟩ : Threads ConnectionPool Call) := by
  rw [new_eq]
  refine ⟨fun x => ?_, by simp [existing, inTransit]⟩
  have hnodup : ((List.range config.minConnections.toNat).map made).Nodup :=
    List.nodup_range.map fun m n => hmade m n
  simpa [places, inSet] using List.nodup_iff_count_le_one.1 hnodup x

end Placed

/-! ### Every connection in use belongs to one holder -/

section Held
variable {config : PoolConfig} {made : Nat → Conn} {s : Threads ConnectionPool Call}

/-- The connection that the call is about to put into use. -/
def Call.registers : Call → Option Conn
  | .registering c => some c
  | _ => none

/-- A connection in use that the call is about to hand out. -/
def Call.recorded : Call → Option Conn
  | .recording c => some c
  | _ => none

def Call.records (x : Conn) (k : Call) : Nat := inHand k.recorded x

/-- The connection of a call that has found its `PooledConnection` open and has not been through the section of
`release`. -/
def Call.closes (pooled : List PooledConnection) : Call → Option Conn
  | .marking n => pooled[n]?.map (·.raw)
  | .releasing c => some c
  | _ => none

/-- The same of a `PooledConnection` that is closed by now. -/
def Call.stale (pooled : List PooledConnection) : Call → Option Conn
  | .marking n => (pooled[n]?.filter (·.closed)).map (·.raw)
  | .releasing c => some c
  | _ => none

theorem Call.closes_of_stale {pooled : List PooledConnection} {k : Call} {c : Conn}
    (h : k.stale pooled = some c) : k.closes pooled = some c := by
  cases k with
  | marking n =>
    obtain ⟨w, hw, hraw⟩ := Option.map_eq_some_iff.1 h
    exact Option.map_eq_some_iff.2 ⟨w, (Option.filter_eq_some_iff.1 hw).1, hraw⟩
  | releasing c' => exact h
  | _ => cases h

/-- The `PooledConnection` that is handed out is open. -/
theorem Call.stale_append {pooled : List PooledConnection} {k : Call} {w : PooledConnection} {c : Conn}
    (hopen : w.closed = false) (h : k.stale (pooled ++ [w]) = some c) : k.stale pooled = some c := by
  cases k with
  | marking n =>
    obtain ⟨v, hv, hraw⟩ := Option.map_eq_some_iff.1 h
    obtain ⟨hfound, hclosed⟩ := Option.filter_eq_some_iff.1 hv
    refine Option.map_eq_some_iff.2 ⟨v, Option.filter_eq_some_iff.2 ⟨?_, hclosed⟩, hraw⟩
    by_cases hlt : n < pooled.length
    · rwa [List.getElem?_append_left hlt] at hfound
    · rw [List.getElem?_append_right (Nat.le_of_not_lt hlt), List.getElem?_singleton] at hfound
      split at hfound
      · obtain rfl := Option.some.inj hfound
        rw [hopen] at hclosed
        cases hclosed
      · cases hfound
  | releasing c' => exact h
  | _ => cases h

/-- Only the connection of the `PooledConnection` that is closed becomes stale. -/
theorem Call.stale_set {pooled : List PooledConnection} {k : Call} {n : Nat} {w : PooledConnection} {c : Conn}
    (hw : pooled[n]? = some w) (h : k.stale (pooled.set n { w with closed := true }) = some c) :
    c = w.raw ∨ k.stale pooled = some c := by
  cases k with
  | marking m =>
    obtain ⟨v, hv, hraw⟩ := Option.map_eq_some_iff.1 h
    obtain ⟨hfound, hclosed⟩ := Option.filter_eq_some_iff.1 hv
    by_cases hm : n = m
    · subst hm
      rw [List.getElem?_set_self (List.getElem?_eq_some_iff.1 hw).1] at hfound
      obtain rfl := Option.some.inj hfound
      exact .inl hraw.symm
    · rw [List.getElem?_set_ne hm] at hfound
      exact .inr (Option.map_eq_some_iff.2 ⟨v, Option.filter_eq_some_iff.2 ⟨hfound, hclosed⟩, hraw⟩)
  | releasing c' => exact .inr h
  | _ => cases h

def PooledConnection.holds (x : Conn) (w : PooledConnection) : Nat :=
  inHand (if w.closed then none else some w.raw) x

/-- Open `PooledConnection`s of `x`. -/
def holders (pooled : List PooledConnection) (x : Conn) : Nat :=
  (pooled.map (PooledConnection.holds x)).sum

/-- Who has `x` that is in use: open `PooledConnection`s and calls of `acquire` at their end. -/
def owners (s : Threads ConnectionPool Call) (x : Conn) : Nat :=
  holders s.shared.pooled x + (s.calls.map (Call.records x)).sum

/-- No connection is put into use while a close of it is between its check and the section of `release`. -/
def Alone (s : Threads ConnectionPool Call) (k : Call) : Prop :=
  ∀ c ∈ k.registers, ∀ k' ∈ s.calls, k'.closes s.shared.pooled ≠ some c

instance (s : Threads ConnectionPool Call) (k : Call) : Decidable (Alone s k) :=
  inferInstanceAs (Decidable (∀ c ∈ k.registers, ∀ k' ∈ s.calls, k'.closes s.shared.pooled ≠ some c))

/-- What is in use has one owner, and what a second close is about to release has none. -/
structure Held (s : Threads ConnectionPool Call) : Prop where
  held : ∀ x, owners s x ≤ inSet s.shared.inUse x
  free : ∀ k ∈ s.calls, ∀ c, k.stale s.shared.pooled = some c → owners s c = 0

namespace Held

theorem owners_set {i : Nat} {k : Call} (hk : s.calls[i]? = some k) (k' : Call) (p : ConnectionPool) (x : Conn) :
    owners ⟨p, s.calls.set i k'⟩ x + k.records x + holders s.shared.pooled x =
      owners s x + k'.records x + holders p.pooled x := by
  have hset := sum_map_set (Call.records x) hk k'
  simp only [owners]
  omega

/-- Steps that neither hand over nor close. -/
theorem stay (h : Held s) {i : Nat} {k k' : Call} {p : ConnectionPool} (hk : s.calls[i]? = some k)
    (hpooled : p.pooled = s.shared.pooled) (hinUse : p.inUse = s.shared.inUse)
    (hrecorded : k'.recorded = k.recorded)
    (hstale : ∀ c, k'.stale s.shared.pooled = some c → k.stale s.shared.pooled = some c) :
    Held ⟨p, s.calls.set i k'⟩ := by
  have howners : ∀ x, owners ⟨p, s.calls.set i k'⟩ x = owners s x := by
    intro x
    have hset := owners_set hk k' p x
    simp only [Call.records, hrecorded, hpooled] at hset
    omega
  refine ⟨fun x => ?_, fun k₀ hmem c hc => ?_⟩
  · show _ ≤ inSet p.inUse x
    rw [howners, hinUse]
    exact h.held x
  · have hc : k₀.stale p.pooled = some c := hc
    rw [hpooled] at hc
    rw [howners]
    rcases List.mem_or_eq_of_mem_set hmem with hold | hnew
    · exact h.free k₀ hold c hc
    · exact h.free k (List.mem_of_getElem? hk) c (hstale c (hnew ▸ hc))

/-- `_in_use.add` -/
theorem add (h : Held s) (hplaced : Placed s) {i : Nat} {c : Conn} {p : ConnectionPool}
    (hk : s.calls[i]? = some (.registering c)) (hpooled : p.pooled = s.shared.pooled)
    (hinUse : p.inUse = insert c s.shared.inUse) (halone : Alone s (.registering c)) :
    Held ⟨p, s.calls.set i (.recording c)⟩ := by
  have howners : ∀ x, owners ⟨p, s.calls.set i (.recording c)⟩ x = owners s x + if c = x then 1 else 0 := by
    intro x
    have hset := owners_set hk (.recording c) p x
    simp only [Call.records, Call.recorded, inHand_none, inHand_some, hpooled] at hset
    omega
  refine ⟨fun x => ?_, fun k hmem x hx => ?_⟩
  · have hheld := h.held x
    -- The connection was in transit, so it was not in use and had no owner.
    have hone := (view_places_le hk x).trans (hplaced.one x)
    simp only [view, View.places, Call.carried, inHand_some] at hone
    show _ ≤ inSet p.inUse x
    rw [howners, hinUse, inSet_insert]
    split
    · next hx =>
      rw [if_pos hx] at hone
      omega
    · exact hheld
  · have hx : k.stale p.pooled = some x := hx
    rw [hpooled] at hx
    rw [howners]
    rcases List.mem_or_eq_of_mem_set hmem with hold | hnew
    · have hne : c ≠ x := fun heq => halone c rfl k hold (heq ▸ Call.closes_of_stale hx)
      rw [if_neg hne]
      exact h.free k hold x hx
    · rw [hnew] at hx
      cases hx

/-- The return of `acquire`. -/
theorem handOut (h : Held s) {i m : Nat} {c : Conn} {p : ConnectionPool} (hk : s.calls[i]? = some (.recording c))
    (hpooled : p.pooled = s.shared.pooled ++ [{ raw := c }]) (hinUse : p.inUse = s.shared.inUse) :
    Held ⟨p, s.calls.set i (.acquired m)⟩ := by
  have howners : ∀ x, owners ⟨p, s.calls.set i (.acquired m)⟩ x = owners s x := by
    intro x
    have hset := owners_set hk (.acquired m) p x
    have hholders : holders p.pooled x = holders s.shared.pooled x + if c = x then 1 else 0 := by
      rw [hpooled]
      simp [holders, PooledConnection.holds]
    simp only [Call.records, Call.recorded, inHand_none, inHand_some, hholders] at hset
    omega
  refine ⟨fun x => ?_, fun k hmem x hx => ?_⟩
  · show _ ≤ inSet p.inUse x
    rw [howners, hinUse]
    exact h.held x
  · have hx : k.stale p.pooled = some x := hx
    rw [howners]
    rcases List.mem_or_eq_of_mem_set hmem with hold | hnew
    · exact h.free k hold x (Call.stale_append (by rfl) (hpooled ▸ hx))
    · rw [hnew] at hx
      cases hx

/-- `_closed` is set. -/
theorem close (h : Held s) {i n : Nat} {w : PooledConnection} {p : ConnectionPool}
    (hk : s.calls[i]? = some (.marking n)) (hw : s.shared.pooled[n]? = some w)
    (hpooled : p.pooled = s.shared.pooled.set n { w with closed := true }) (hinUse : p.inUse = s.shared.inUse) :
    Held ⟨p, s.calls.set i (.releasing w.raw)⟩ := by
  have hholders : ∀ x, holders p.pooled x + w.holds x = holders s.shared.pooled x := by
    intro x
    have hset := sum_map_set (PooledConnection.holds x) hw { w with closed := true }
    have hnone : PooledConnection.holds x { w with closed := true } = 0 := rfl
    rw [hnone] at hset
    rw [hpooled]
    unfold holders
    omega
  have howners : ∀ x, owners ⟨p, s.calls.set i (.releasing w.raw)⟩ x + w.holds x = owners s x := by
    intro x
    have hset := owners_set hk (.releasing w.raw) p x
    have hold := hholders x
    simp only [Call.records, Call.recorded, inHand_none] at hset
    omega
  -- closed now or before, its connection has no owner
  have hnone : owners ⟨p, s.calls.set i (.releasing w.raw)⟩ w.raw = 0 := by
    have hold := howners w.raw
    cases hclosed : w.closed with
    | true =>
      have hfree := h.free _ (List.mem_of_getElem? hk) w.raw (by simp [Call.stale, hw, Option.filter, hclosed])
      omega
    | false =>
      have hheld := h.held w.raw
      have hone := inSet_le_one s.shared.inUse w.raw
      have hholds : w.holds w.raw = 1 := by simp [PooledConnection.holds, hclosed]
      omega
  refine ⟨fun x => ?_, fun k hmem x hx => ?_⟩
  · show _ ≤ inSet p.inUse x
    rw [hinUse]
    exact (Nat.le.intro (howners x)).trans (h.held x)
  · have hx : k.stale p.pooled = some x := hx
    have hcase : x = w.raw ∨ ∃ k₀ ∈ s.calls, k₀.stale s.shared.pooled = some x := by
      rcases List.mem_or_eq_of_mem_set hmem with hold | hnew
      · rw [hpooled] at hx
        exact (Call.stale_set hw hx).imp_right fun hstale => ⟨k, hold, hstale⟩
      · rw [hnew] at hx
        exact .inl (Option.some.inj hx).symm
    rcases hcase with rfl | ⟨k₀, hk₀, hstale⟩
    · exact hnone
    · have hfree := h.free k₀ hk₀ x hstale
      have hold := howners x
      omega

/-- The section of `release`. -/
theorem remove (h : Held s) {i : Nat} {c : Conn} {p : ConnectionPool} (hk : s.calls[i]? = some (.releasing c))
    (hpooled : p.pooled = s.shared.pooled) (hinUse : p.inUse = s.shared.inUse.erase c) :
    Held ⟨p, s.calls.set i (.unrecording c)⟩ := by
  have howners : ∀ x, owners ⟨p, s.calls.set i (.unrecording c)⟩ x = owners s x := by
    intro x
    have hset := owners_set hk (.unrecording c) p x
    simp only [Call.records, Call.recorded, inHand_none, hpooled] at hset
    omega
  refine ⟨fun x => ?_, fun k hmem x hx => ?_⟩
  · show _ ≤ inSet p.inUse x
    rw [howners, hinUse, inSet_erase]
    split
    · next hx =>
      subst hx
      exact (h.free _ (List.mem_of_getElem? hk) c rfl).le
    · exact h.held x
  · have hx : k.stale p.pooled = some x := hx
    rw [hpooled] at hx
    rw [howners]
    rcases List.mem_or_eq_of_mem_set hmem with hold | hnew
    · exact h.free k hold x hx
    · rw [hnew] at hx
      cases hx

theorem step (h : Held s) (hplaced : Placed s) {i : Nat} {k : Call} (env : Env)
    (hk : s.calls[i]? = some k)
    (halone : Alone s k) :
    Held ⟨(k.next config env s.shared).1, s.calls.set i (k.next config env s.shared).2⟩ := by
  have hstep := k.next_step config env s.shared
  generalize (k.next config env s.shared).1 = p at hstep ⊢
  generalize (k.next config env s.shared).2 = k' at hstep ⊢
  cases hstep with
  | register => exact h.add hplaced hk rfl rfl halone
  | handOut => exact h.handOut hk rfl rfl
  | @find n w found isOpen =>
    refine h.stay hk rfl rfl rfl fun c hc => ?_
    simp [Call.stale, found, Option.filter, isOpen] at hc
  | mark found => exact h.close hk found rfl rfl
  | remove => exact h.remove hk rfl rfl
  | @discount c acquiring raised =>
    have hrecorded : (Call.disposed acquiring raised).recorded = none := by
      cases acquiring <;> cases raised <;> rfl
    have hstale : (Call.disposed acquiring raised).stale s.shared.pooled = none := by
      cases acquiring <;> cases raised <;> rfl
    exact h.stay hk rfl rfl hrecorded fun c hc => absurd (hstale.symm.trans hc) (by simp)
  | _ => exact h.stay hk rfl rfl rfl fun c hc => by first | exact hc | cases hc

theorem call (h : Held s) (r : Request) : Held ⟨s.shared, s.calls ++ [r.start]⟩ := by
  have hrecorded : r.start.recorded = none := by cases r <;> rfl
  have howners : ∀ x, owners ⟨s.shared, s.calls ++ [r.start]⟩ x = owners s x := by
    intro x
    simp [owners, Call.records, hrecorded]
  refine ⟨fun x => (howners x).trans_le (h.held x), fun k hmem x hx => ?_⟩
  rw [howners]
  rcases List.mem_append.1 hmem with hold | hnew
  · exact h.free k hold x hx
  · rw [List.mem_singleton.1 hnew] at hx
    cases r <;> cases hx

theorem new : Held (⟨.new config made, []⟩ : Threads ConnectionPool Call) := by
  rw [new_eq]
  exact ⟨fun x => by simp [owners, holders], fun k hk => absurd hk List.not_mem_nil⟩

/-- No connection is held by two open `PooledConnection`s. -/
theorem exclusive (h : Held s) {i j : Nat} {v w : PooledConnection} (hi : s.shared.pooled[i]? = some v)
    (hj : s.shared.pooled[j]? = some w) (hv : v.closed = false) (hw : w.closed = false)
    (hraw : v.raw = w.raw) :
    i = j := by
  have hle : holders s.shared.pooled w.raw ≤ 1 := by
    have hheld := h.held w.raw
    have hone := inSet_le_one s.shared.inUse w.raw
    rw [owners] at hheld
    omega
  refine eq_of_sum_map_le_one _ hle hi hj ?_ ?_
  · simp [PooledConnection.holds, hv, hraw]
  · simp [PooledConnection.holds, hw]

end Held
end Held

/-! ### Runs -/

section Runs
variable {config : PoolConfig} {made : Nat → Conn}

/-- The counter is within its bound and counts the connections, and no connection is held by two open
`PooledConnection`s. -/
structure Accounted (config : PoolConfig) (s : Threads ConnectionPool Call) : Prop where
  bounded : s.shared.totalConnections ≤ config.maxConnections
  counted : s.shared.totalConnections = existing s
  exclusive : ∀ (i j : Nat) (v w : PooledConnection), s.shared.pooled[i]? = some v →
    s.shared.pooled[j]? = some w → v.closed = false → w.closed = false → v.raw = w.raw → i = j

theorem step_total_le {env : Env} {p p' : ConnectionPool} {k k' : Call} (h : k.Step config env p p' k')
    (hle : p.totalConnections ≤ config.maxConnections) : p'.totalConnections ≤ config.maxConnections := by
  cases h with
  | create room => exact room
  | discount =>
    show p.totalConnections - 1 ≤ config.maxConnections
    omega
  | _ => exact hle

/-- The counter never passes its bound, whatever the callbacks do. -/
theorem total_le_max (hconfig : config.postInit = .ok ()) (acts : List (Sched Request Env)) :
    ((poolMachine config made).run acts).1.shared.totalConnections ≤ config.maxConnections := by
  obtain ⟨hmin, -, hle⟩ := PoolConfig.bounds_of_postInit hconfig
  refine (protocol config).machine_always
    (I := fun s => s.shared.totalConnections ≤ config.maxConnections) ?_ (fun _ _ h => h)
    (fun s i k env h hk => ?_) acts
  · rw [new_eq]
    show (config.minConnections.toNat : Int) ≤ config.maxConnections
    omega
  · exact step_total_le (k.next_step config env s.shared) h

/-- The accounting of the pool, in runs in which the factory makes new connections, no exception
leaves a health check and no connection is acquired while a close of it has yet to release it. -/
theorem pool_accounting (hconfig : config.postInit = .ok ()) (hmade : ∀ m n, made m = made n → m = n)
    (acts : List (Sched Request Env))
    (hacts : (poolMachine config made).Along
      (OfCall fun s k env => Sound config s k env ∧ Alone s k) acts) :
    Accounted config ((poolMachine config made).run acts).1 := by
  have hinv := (protocol config).machine_inv (I := fun s => Placed s ∧ Held s) ⟨.new hmade, .new⟩
    (fun s r h => ⟨h.1.call r, h.2.call r⟩)
    (fun s i k env h hk hG => ⟨h.1.step hk hG.1, h.2.step h.1 env hk hG.2⟩) acts hacts
  exact ⟨total_le_max hconfig acts, hinv.1.total, fun i j v w hi hj => hinv.2.exclusive hi hj⟩

/-- One connection. -/
def single : PoolConfig where
  minConnections := 1
  maxConnections := 1
  connectionFactory := true
  acquisitionTimeout := 1

/-- One connection to begin with, and room for another. -/
def pair : PoolConfig := { single with maxConnections := 2 }

/-- Two threads acquire, of which the second creates a connection; the first connection is closed twice at once
and acquired again, and the second turns out to be broken when it is closed. -/
def contended : List (Sched Request Env) :=
  List.flatten
    [.call .acquire :: List.replicate 4 (.step 0 {}),
      [.call .acquire, .step 1 {}, .step 1 { factory := some 7 }, .step 1 {}, .step 1 {}, .step 1 {}],
      [.call (.close 0), .call (.close 0), .step 2 {}, .step 3 {}, .step 2 {}, .step 3 {}, .step 2 {}, .step 3 {}],
      List.replicate 3 (.step 2 {}),
      .call .acquire :: List.replicate 4 (.step 4 {}),
      .call (.close 1) :: List.replicate 4 (.step 5 {}),
      [.step 5 { health := .unhealthy }, .step 5 {}, .step 5 {}]]

theorem pool_accounting_contended : pair.postInit = .ok () ∧ Accounted pair ((poolMachine pair id).run contended).1 :=
  ⟨rfl, pool_accounting rfl (fun _ _ h => h) _ ((Machine.along_iff_forall_lt _).2 (by decide +kernel))⟩

example : let s := ((poolMachine pair id).run contended).1
    s.calls = [.acquired 0, .acquired 1, .released, .released, .acquired 2, .released] ∧
      s.shared.pooled = [⟨0, true⟩, ⟨7, true⟩, ⟨0, false⟩] ∧ s.shared.totalConnections = 1 := by decide +kernel

/-- Two threads close one `PooledConnection`. Both find it open; the second gives back a connection
that a third thread has acquired in between, and a fourth thread acquires it too. -/
theorem not_accounted_of_overlapping_close : single.postInit = .ok () ∧
    ¬ Accounted single ((poolMachine single id).run
      (.call .acquire :: List.replicate 4 (.step 0 {}) ++
        [.call (.close 0), .call (.close 0), .step 1 {}, .step 2 {}] ++ List.replicate 5 (.step 1 {}) ++
        .call .acquire :: List.replicate 4 (.step 3 {}) ++ List.replicate 5 (.step 2 {}) ++
        .call .acquire :: List.replicate 4 (.step 4 {}))).1 := by
  refine ⟨rfl, fun h => ?_⟩
  have := h.exclusive 1 2 { raw := 0 } { raw := 0 } (by decide +kernel) (by decide +kernel) rfl rfl rfl
  omega

end Runs

end Portfolio.Pool
