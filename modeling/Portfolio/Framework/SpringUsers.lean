import Mathlib.Data.List.Nodup
import Portfolio.Lib.Interleaving
import Portfolio.Lib.SerialId
import Portfolio.Lib.Text

/-!
# The users of milestone 1.4.5

`UserController`, `UserService` and `UserRepository` of `milestone-1.4.5` on the table of `schema.sql`,
when any number of requests run at once. `createUser` reads the largest id, inserts the next one and
commits; a statement sees the committed rows, and an insert waits for an uncommitted row with the same
id or email, until that is committed or the wait times out. Log lines and headers other than
`Authorization` are left out. The primary key makes up for the ids that two requests read at
once, and a creation that fails for it succeeds when it is sent again.
-/

namespace Portfolio.Framework.SpringUsers

structure User where
  id : String
  name : String
  email : String
  deriving DecidableEq, Repr

/-- The committed rows of `users`, and those of transactions under way. -/
structure UserTable where
  rows : List User
  uncommitted : List User := []
  deriving DecidableEq, Repr

/-- The rows of `schema.sql`. -/
def seeds : List User := [⟨"1", "Alice", "alice@example.com"⟩, ⟨"2", "Bob", "bob@example.com"⟩]

/-! ### `UserRepository` -/

def parseDigits (digits : List Char) : Option Int :=
  if digits ≠ [] ∧ digits.all Char.isDigit then some (Nat.ofDigitChars 10 digits 0) else none

/-- `CAST(id AS INT)`, for an id without blanks; `none` is an error. -/
def castInt (id : String) : Option Int :=
  let number := match id.toList with
    | '-' :: digits => (parseDigits digits).map fun n => -n
    | '+' :: digits => parseDigits digits
    | digits => parseDigits digits
  number.filter fun n => -2 ^ 31 ≤ n ∧ n < 2 ^ 31

/-- `none` when the query fails. -/
def getNextId (rows : List User) : Option String :=
  (rows.mapM fun user => castInt user.id).map fun ids => match ids.max? with
    | none => "1"
    | some maxId => toString (Int32.ofInt (maxId + 1)).toInt

def findById (rows : List User) (id : String) : Option User := rows.find? fun user => user.id = id

/-- The primary key or the unique email. -/
def Clash (user other : User) : Prop := other.id = user.id ∨ other.email = user.email

instance (user other : User) : Decidable (Clash user other) :=
  inferInstanceAs (Decidable (other.id = user.id ∨ other.email = user.email))

def Fits (user : User) : Prop :=
  javaLength user.id ≤ 50 ∧ javaLength user.name ≤ 255 ∧ javaLength user.email ≤ 255

instance (user : User) : Decidable (Fits user) :=
  inferInstanceAs (Decidable (javaLength user.id ≤ 50 ∧ javaLength user.name ≤ 255 ∧ javaLength user.email ≤ 255))

/-! ### Requests -/

inductive Endpoint where
  | listUsers
  | getUser (id : String)
  | createUser (name email : Option String)
  deriving DecidableEq

structure Request where
  authorization : Option String
  endpoint : Endpoint
  deriving DecidableEq

inductive Answer where
  | unauthorized
  | badRequest
  | users (users : List User)
  | user (user : User)
  | notFound
  | created (user : User)
  | error
  deriving DecidableEq

/-- A request before its first statement, and before the further ones of `createUser`. -/
inductive Call where
  | received (request : Request)
  | inserting (user : User)
  | committing (user : User)
  | answered (answer : Answer)
  deriving DecidableEq

/-- `preHandle` of the interceptor. -/
def preHandle (request : Request) : Bool :=
  request.authorization.any fun header => "Bearer ".toList.isPrefixOf header.toList

/-- The first statement of a request that passed the interceptor. -/
def handle (rows : List User) : Endpoint → Call
  | .listUsers => .answered (.users rows)
  | .getUser id => .answered (match findById rows id with
    | some user => .user user
    | none => .notFound)
  | .createUser (some name) (some email) => match getNextId rows with
    | none => .answered .error
    | some id => .inserting ⟨id, name, email⟩
  | .createUser _ _ => .answered .badRequest

/-- The next statement of a request; `timesOut` tells whether a wait ends in an error. -/
def next (timesOut : Bool) (table : UserTable) : Call → UserTable × Call
  | .received request =>
    (table, if preHandle request then handle table.rows request.endpoint else .answered .unauthorized)
  | .inserting user =>
    if ¬ Fits user ∨ table.rows.any (fun other => Clash user other) then (table, .answered .error)
    else if table.uncommitted.any (fun other => Clash user other) then
      (table, if timesOut then .answered .error else .inserting user)
    else ({ table with uncommitted := table.uncommitted ++ [user] }, .committing user)
  | .committing user =>
    ({ rows := table.rows ++ [user], uncommitted := table.uncommitted.erase user }, .answered (.created user))
  | .answered answer => (table, .answered answer)

def requests : Protocol UserTable Request Call Bool where
  start := .received
  next := next

abbrev machine : Machine (Threads UserTable Call) (Sched Request Bool) Unit := requests.machine { rows := seeds }

/-! ### The next number -/

theorem toList_toString (n : Nat) : (toString n).toList = Nat.toDigits 10 n := Nat.toList_repr

theorem castInt_toString {n : Nat} (hn : n < 2 ^ 31) : castInt (toString n) = some (n : Int) := by
  have hne : Nat.toDigits 10 n ≠ [] := Nat.toDigits_ne_nil
  have hall : ∀ c ∈ Nat.toDigits 10 n, c.isDigit = true := fun _ hc => isDigit_toDigits hc
  have hdigits : parseDigits (Nat.toDigits 10 n) = some (n : Int) := by
    rw [parseDigits, if_pos ⟨hne, List.all_eq_true.2 hall⟩, Nat.ofDigitChars_ten_toDigits]
  unfold castInt
  dsimp only
  rw [toList_toString]
  split
  · next digits heq => exact absurd (hall '-' (by simp [heq])) (by decide)
  · next digits heq => exact absurd (hall '+' (by simp [heq])) (by decide)
  · rw [hdigits, Option.filter_some_pos]
    simp only [decide_eq_true_eq]
    omega

/-- The ids are the numbers from 1. -/
def NumberedIds (rows : List User) : Prop :=
  rows.map (·.id) = (List.range rows.length).map fun i => toString (i + 1)

theorem mapM_eq_some {α β : Type} {f : α → Option β} {g : α → β} {l : List α}
    (h : ∀ a ∈ l, f a = some (g a)) : l.mapM f = some (l.map g) := by
  induction l with
  | nil => rfl
  | cons a l ih =>
    rw [List.mapM_cons, h a List.mem_cons_self, ih fun b hb => h b (List.mem_cons_of_mem a hb)]
    rfl

theorem getNextId_eq {rows : List User} (h : NumberedIds rows) (hpos : rows ≠ [])
    (hlt : rows.length + 1 < 2 ^ 31) : getNextId rows = some (toString (rows.length + 1)) := by
  have hids : rows.mapM (fun user => castInt user.id) =
      some ((List.range rows.length).map fun i => ((i + 1 : Nat) : Int)) := by
    rw [show (fun user : User => castInt user.id) = castInt ∘ (·.id) from rfl, ← List.mapM_map, h, List.mapM_map]
    exact mapM_eq_some fun i hi => castInt_toString (by have := List.mem_range.1 hi; omega)
  have hmax : ((List.range rows.length).map fun i => ((i + 1 : Nat) : Int)).max? = some (rows.length : Int) := by
    have hlength := List.length_pos_iff.2 hpos
    refine List.max?_eq_some_iff.2 ⟨List.mem_map.2 ⟨rows.length - 1, ?_, ?_⟩, fun n hn => ?_⟩
    · rw [List.mem_range]
      omega
    · rw [Nat.sub_add_cancel hlength]
    · obtain ⟨i, hi, rfl⟩ := List.mem_map.1 hn
      rw [List.mem_range] at hi
      omega
  have hwrap : (Int32.ofInt ((rows.length : Int) + 1)).toInt = ((rows.length + 1 : Nat) : Int) := by
    rw [Int32.toInt_ofInt_of_le (by omega) (by omega)]
    rfl
  rw [getNextId, hids, Option.map_some, hmax]
  dsimp only
  rw [hwrap]
  rfl

/-! ### The invariant -/

/-- The user of a creation that has committed. -/
def Call.created : Call → Option User
  | .answered (.created user) => some user
  | _ => none

/-- The user of a creation between its insert and its commit. -/
def Call.pending : Call → Option User
  | .committing user => some user
  | _ => none

structure Numbered (s : Threads UserTable Call) : Prop where
  seeded : seeds <+: s.shared.rows
  ids : NumberedIds s.shared.rows
  emails : (s.shared.rows.map (·.email)).Nodup
  created : (s.shared.rows.drop 2).Perm (s.calls.filterMap Call.created)
  pending : s.shared.uncommitted.Perm (s.calls.filterMap Call.pending)
  single : s.shared.uncommitted.length ≤ 1
  next : ∀ user ∈ s.shared.uncommitted,
    user.id = toString (s.shared.rows.length + 1) ∧ user.email ∉ s.shared.rows.map (·.email)
  read : ∀ user, .inserting user ∈ s.calls → ∃ n ≤ s.shared.rows.length, user.id = toString (n + 1)

variable {s : Threads UserTable Call} {i : Nat} {k k' : Call}

theorem Numbered.length (h : Numbered s) : s.shared.rows.length ≤ s.calls.length + 2 := by
  have hcreated := h.created.length_eq
  rw [List.length_drop] at hcreated
  have hle := List.length_filterMap_le Call.created s.calls
  omega

theorem Numbered.ne_nil (h : Numbered s) : s.shared.rows ≠ [] := by
  intro hnil
  have hseeded := h.seeded
  rw [hnil, List.prefix_nil] at hseeded
  cases hseeded

/-- A step that leaves the table alone. -/
theorem Numbered.same (h : Numbered s) (hk : s.calls[i]? = some k) (hcreated : k'.created = k.created)
    (hpending : k'.pending = k.pending)
    (hread : ∀ user, k' = .inserting user → ∃ n ≤ s.shared.rows.length, user.id = toString (n + 1)) :
    Numbered ⟨s.shared, s.calls.set i k'⟩ := by
  refine ⟨h.seeded, h.ids, h.emails, ?_, ?_, h.single, h.next, fun user hmem => ?_⟩
  · have hperm := filterMap_set_perm Call.created hk k'
    rw [hcreated, List.perm_append_left_iff] at hperm
    exact h.created.trans hperm.symm
  · have hperm := filterMap_set_perm Call.pending hk k'
    rw [hpending, List.perm_append_left_iff] at hperm
    exact h.pending.trans hperm.symm
  · rcases exists_of_mem_set hmem with heq | ⟨j, -, hj⟩
    · exact hread user heq.symm
    · exact h.read user (List.mem_of_getElem? hj)

theorem handle_cases (rows : List User) (endpoint : Endpoint) :
    (∃ answer, handle rows endpoint = .answered answer ∧ ∀ user, answer ≠ .created user) ∨
      ∃ id name email, getNextId rows = some id ∧ handle rows endpoint = .inserting ⟨id, name, email⟩ := by
  cases endpoint with
  | listUsers => exact .inl ⟨_, rfl, fun _ h => by cases h⟩
  | getUser id =>
    cases hfind : findById rows id with
    | none => exact .inl ⟨.notFound, by simp [handle, hfind], fun _ h => by cases h⟩
    | some user => exact .inl ⟨.user user, by simp [handle, hfind], fun _ h => by cases h⟩
  | createUser name email =>
    rcases name with _ | name
    · exact .inl ⟨.badRequest, rfl, fun _ h => by cases h⟩
    · rcases email with _ | email
      · exact .inl ⟨.badRequest, rfl, fun _ h => by cases h⟩
      · cases hid : getNextId rows with
        | none => exact .inl ⟨.error, by simp [handle, hid], fun _ h => by cases h⟩
        | some id => exact .inr ⟨id, name, email, rfl, by simp [handle, hid]⟩

theorem Numbered.received (h : Numbered s) {request : Request} (hk : s.calls[i]? = some (.received request))
    (hcount : s.calls.length + 3 < 2 ^ 31) (timesOut : Bool) :
    Numbered ⟨(SpringUsers.next timesOut s.shared (.received request)).1,
      s.calls.set i (SpringUsers.next timesOut s.shared (.received request)).2⟩ := by
  show Numbered ⟨s.shared, s.calls.set i (if preHandle request then handle s.shared.rows request.endpoint else
    .answered .unauthorized)⟩
  have hlength := h.length
  split
  · rcases handle_cases s.shared.rows request.endpoint with ⟨answer, heq, hne⟩ | ⟨id, name, email, hid, heq⟩
    · rw [heq]
      refine h.same hk ?_ rfl fun user hcall => by cases hcall
      cases answer with
      | created user => exact absurd rfl (hne user)
      | _ => rfl
    · rw [heq]
      refine h.same hk rfl rfl fun user hcall => ?_
      cases hcall
      rw [getNextId_eq h.ids h.ne_nil (by omega)] at hid
      exact ⟨_, Nat.le_refl _, (Option.some.inj hid).symm⟩
  · exact h.same hk rfl rfl fun user hcall => by cases hcall

/-- A row with a smaller number is in the table. -/
theorem exists_of_numberedIds {rows : List User} (h : NumberedIds rows) {n : Nat} (hn : n < rows.length) :
    ∃ other ∈ rows, other.id = toString (n + 1) := by
  have hmem : toString (n + 1) ∈ rows.map (·.id) := by
    rw [h]
    exact List.mem_map.2 ⟨n, List.mem_range.2 hn, rfl⟩
  exact List.mem_map.1 hmem

/-- An insert that neither fails nor waits. -/
theorem Numbered.inserted (h : Numbered s) {user : User} (hk : s.calls[i]? = some (.inserting user))
    (hrows : ∀ other ∈ s.shared.rows, ¬ Clash user other)
    (huncommitted : ∀ other ∈ s.shared.uncommitted, ¬ Clash user other) :
    Numbered ⟨{ s.shared with uncommitted := s.shared.uncommitted ++ [user] },
      s.calls.set i (.committing user)⟩ := by
  obtain ⟨n, hn, hid⟩ := h.read user (List.mem_of_getElem? hk)
  have hnext : user.id = toString (s.shared.rows.length + 1) := by
    rcases hn.lt_or_eq with hlt | rfl
    · obtain ⟨other, hother, heq⟩ := exists_of_numberedIds h.ids hlt
      exact absurd (.inl (heq.trans hid.symm)) (hrows other hother)
    · exact hid
  have hnil : s.shared.uncommitted = [] :=
    List.eq_nil_iff_forall_not_mem.2 fun other hother =>
      huncommitted other hother (.inl ((h.next other hother).1.trans hnext.symm))
  refine ⟨h.seeded, h.ids, h.emails, ?_, ?_, ?_, ?_, fun other hmem => ?_⟩
  · have hperm := filterMap_set_perm Call.created hk (.committing user)
    exact h.created.trans hperm.symm
  · have hperm := filterMap_set_perm Call.pending hk (.committing user)
    have hpending := h.pending
    rw [hnil] at hpending ⊢
    rw [List.nil_perm.1 hpending] at hperm
    exact hperm.symm
  · rw [hnil]
    exact Nat.le_refl 1
  · rw [hnil]
    intro other hother
    obtain rfl := List.mem_singleton.1 hother
    refine ⟨hnext, fun hemail => ?_⟩
    obtain ⟨row, hrow, heq⟩ := List.mem_map.1 hemail
    exact hrows row hrow (.inr heq)
  · rcases exists_of_mem_set hmem with heq | ⟨j, -, hj⟩
    · cases heq
    · exact h.read other (List.mem_of_getElem? hj)

theorem Numbered.committed (h : Numbered s) {user : User} (hk : s.calls[i]? = some (.committing user)) :
    Numbered ⟨{ rows := s.shared.rows ++ [user], uncommitted := s.shared.uncommitted.erase user },
      s.calls.set i (.answered (.created user))⟩ := by
  have hmem : user ∈ s.shared.uncommitted :=
    h.pending.mem_iff.2 (List.mem_filterMap.2 ⟨_, List.mem_of_getElem? hk, rfl⟩)
  have hone : s.shared.uncommitted = [user] := by
    have hsingle := h.single
    obtain ⟨only, honly⟩ := List.length_eq_one_iff.1 (Nat.le_antisymm hsingle (List.length_pos_of_mem hmem))
    rw [honly] at hmem ⊢
    rw [List.mem_singleton.1 hmem]
  obtain ⟨hid, hemail⟩ := h.next user hmem
  have hlength : 2 ≤ s.shared.rows.length := h.seeded.length_le
  have herase : s.shared.uncommitted.erase user = [] := by rw [hone, List.erase_cons_head]
  rw [herase]
  refine ⟨h.seeded.trans (List.prefix_append _ _), ?_, ?_, ?_, ?_, Nat.zero_le 1, (fun _ hnone => by cases hnone),
    ?_⟩
  · have hids := h.ids
    unfold NumberedIds at hids ⊢
    rw [List.map_append, hids, List.length_append, List.length_singleton, List.range_succ, List.map_append,
      List.map_singleton, List.map_singleton, hid]
  · rw [List.map_append, List.nodup_append]
    refine ⟨h.emails, List.pairwise_singleton _ _, fun a ha b hb heq => hemail ?_⟩
    have hnew : b = user.email := List.mem_singleton.1 hb
    rw [← hnew, ← heq]
    exact ha
  · have hperm := filterMap_set_perm Call.created hk (.answered (.created user))
    rw [List.drop_append_of_le_length hlength]
    exact List.perm_append_comm.trans ((h.created.cons user).trans hperm.symm)
  · have hperm := filterMap_set_perm Call.pending hk (.answered (.created user))
    have hpending := h.pending
    rw [hone] at hpending
    exact (List.Perm.cons_inv (hperm.trans hpending.symm)).symm
  · intro other hother
    rcases exists_of_mem_set hother with heq | ⟨j, -, hj⟩
    · cases heq
    · obtain ⟨n, hn, hid⟩ := h.read other (List.mem_of_getElem? hj)
      exact ⟨n, by rw [List.length_append]; omega, hid⟩

theorem Numbered.step (h : Numbered s) (hk : s.calls[i]? = some k) (hcount : s.calls.length + 3 < 2 ^ 31)
    (timesOut : Bool) : Numbered ⟨(SpringUsers.next timesOut s.shared k).1,
      s.calls.set i (SpringUsers.next timesOut s.shared k).2⟩ := by
  cases k with
  | received request => exact h.received hk hcount timesOut
  | inserting user =>
    unfold SpringUsers.next
    dsimp only
    split
    · exact h.same hk rfl rfl fun _ hcall => by cases hcall
    · next hrows =>
      split
      · cases timesOut with
        | true => exact h.same hk rfl rfl fun _ hcall => by cases hcall
        | false =>
          -- the insert still waits
          refine h.same hk rfl rfl fun other hcall => ?_
          exact h.read other (hcall ▸ List.mem_of_getElem? hk)
      · next huncommitted =>
        refine h.inserted hk (fun other hother hclash => hrows (.inr ?_))
          fun other hother hclash => huncommitted ?_
        · exact List.any_eq_true.2 ⟨other, hother, decide_eq_true hclash⟩
        · exact List.any_eq_true.2 ⟨other, hother, decide_eq_true hclash⟩
  | committing user => exact h.committed hk
  | answered answer =>
    refine h.same hk rfl rfl fun user hcall => ?_
    cases hcall

theorem Numbered.called (h : Numbered s) (request : Request) :
    Numbered ⟨s.shared, s.calls ++ [.received request]⟩ := by
  have hcreated : (s.calls ++ [Call.received request]).filterMap Call.created =
      s.calls.filterMap Call.created := by
    rw [List.filterMap_append]
    exact List.append_nil _
  have hpending : (s.calls ++ [Call.received request]).filterMap Call.pending =
      s.calls.filterMap Call.pending := by
    rw [List.filterMap_append]
    exact List.append_nil _
  refine ⟨h.seeded, h.ids, h.emails, hcreated ▸ h.created, hpending ▸ h.pending, h.single, h.next,
    fun user hmem => ?_⟩
  rcases List.mem_append.1 hmem with hmem | hnew
  · exact h.read user hmem
  · cases List.mem_singleton.1 hnew

theorem numbered_start : Numbered ⟨{ rows := seeds }, []⟩ where
  seeded := List.prefix_rfl
  ids := rfl
  emails := by decide
  created := .nil
  pending := .nil
  single := Nat.zero_le 1
  next user hmem := by cases hmem
  read user hmem := by cases hmem

/-- As long as the numbers fit an `int`. -/
theorem numbered_run (acts : List (Sched Request Bool)) (hcount : (machine.run acts).1.calls.length + 3 < 2 ^ 31) :
    Numbered (machine.run acts).1 := by
  refine requests.machine_always (I := fun s => s.calls.length + 3 < 2 ^ 31 → Numbered s) (fun _ => numbered_start)
    (fun s request hs hlt => ?_) (fun s i k timesOut hs hk hlt => ?_) acts hcount
  · dsimp only at hlt
    rw [List.length_append, List.length_singleton] at hlt
    exact (hs (by omega)).called request
  · dsimp only at hlt
    rw [List.length_set] at hlt
    exact (hs hlt).step hk hlt timesOut

/-! ### What the requests are told -/

theorem NumberedIds.nodup {rows : List User} (h : NumberedIds rows) : (rows.map (·.id)).Nodup := by
  unfold NumberedIds at h
  rw [h]
  refine List.Nodup.map (fun m n heq => ?_) List.nodup_range
  exact Nat.succ.inj (append_toString_inj (congrArg ("" ++ ·) heq))

theorem findById_of_mem {rows : List User} (h : NumberedIds rows) {user : User} (hmem : user ∈ rows) :
    findById rows user.id = some user := by
  unfold findById
  cases hfind : rows.find? fun other => other.id = user.id with
  | none =>
    have hnone := List.find?_eq_none.1 hfind user hmem
    exact absurd (decide_eq_true rfl) hnone
  | some other =>
    have hid : other.id = user.id := by simpa using List.find?_some hfind
    rw [List.inj_on_of_nodup_map h.nodup (List.mem_of_find?_eq_some hfind) hmem hid]

/-- However the requests interleave, the creations that succeed get the numbers after those of `schema.sql`,
without a gap; the others leave nothing behind. -/
theorem creations_numbered (acts : List (Sched Request Bool))
    (hcount : (machine.run acts).1.calls.length + 3 < 2 ^ 31) :
    let s := (machine.run acts).1
    s.shared.rows.map (·.id) = (List.range s.shared.rows.length).map (fun i => toString (i + 1)) ∧
      seeds <+: s.shared.rows ∧ (s.shared.rows.map (·.email)).Nodup ∧
      (s.shared.rows.drop 2).Perm (s.calls.filterMap Call.created) ∧
      ∀ user, .answered (.created user) ∈ s.calls → findById s.shared.rows user.id = some user := by
  have h := numbered_run acts hcount
  refine ⟨h.ids, h.seeded, h.emails, h.created, fun user hmem => findById_of_mem h.ids ?_⟩
  have hcreated : user ∈ (machine.run acts).1.calls.filterMap Call.created := List.mem_filterMap.2 ⟨_, hmem, rfl⟩
  exact List.mem_of_mem_drop (h.created.mem_iff.2 hcreated)

/-- Two creations that read the same number. -/
def sameNumber : List (Sched Request Bool) :=
  [.call ⟨some "Bearer a", .createUser (some "Carol") (some "carol@example.com")⟩,
    .call ⟨some "Bearer b", .createUser (some "Dan") (some "dan@example.com")⟩,
    .step 0 false, .step 1 false, .step 0 false, .step 1 false, .step 0 false, .step 1 false]

theorem calls_sameNumber : (machine.run sameNumber).1.calls =
    [.answered (.created ⟨"3", "Carol", "carol@example.com"⟩), .answered .error] := by decide +kernel

theorem creations_numbered_sameNumber :
    (machine.run sameNumber).1.calls =
        [.answered (.created ⟨"3", "Carol", "carol@example.com"⟩), .answered .error] ∧
      ((machine.run sameNumber).1.shared.rows.drop 2).Perm
        ((machine.run sameNumber).1.calls.filterMap Call.created) := by
  refine ⟨calls_sameNumber, (creations_numbered sameNumber ?_).2.2.2.1⟩
  rw [calls_sameNumber]
  decide

/-! ### A creation by itself -/

theorem exec_last (table : UserTable) (calls : List Call) (k : Call) (timesOut : Bool) :
    requests.exec ⟨table, calls ++ [k]⟩ (.step calls.length timesOut) =
      ⟨(next timesOut table k).1, calls ++ [(next timesOut table k).2]⟩ :=
  requests.exec_last table calls k timesOut

theorem NumberedIds.ne_next {rows : List User} (h : NumberedIds rows) {other : User} (hmem : other ∈ rows) :
    other.id ≠ toString (rows.length + 1) := by
  intro heq
  have hid : other.id ∈ rows.map (·.id) := List.mem_map.2 ⟨other, hmem, rfl⟩
  unfold NumberedIds at h
  rw [h, heq] at hid
  obtain ⟨i, hi, hsame⟩ := List.mem_map.1 hid
  have hlt := List.mem_range.1 hi
  have := append_toString_inj (congrArg ("" ++ ·) hsame)
  omega

def creation (token name email : String) : Request :=
  ⟨some ("Bearer " ++ token), .createUser (some name) (some email)⟩

theorem preHandle_creation (token name email : String) : preHandle (creation token name email) = true := by
  show "Bearer ".toList.isPrefixOf ("Bearer " ++ token).toList = true
  rw [String.toList_append, List.isPrefixOf_iff_prefix]
  exact List.prefix_append _ _

section
variable {table : UserTable} {user : User}

theorem next_refused (h : ¬ (Fits user ∧ user.email ∉ table.rows.map (·.email))) (timesOut : Bool) :
    next timesOut table (.inserting user) = (table, .answered .error) := by
  refine if_pos ?_
  by_cases hfits : Fits user
  · obtain ⟨other, hother, heq⟩ := List.mem_map.1 (not_not.1 fun hnew => h ⟨hfits, hnew⟩)
    exact .inr (List.any_eq_true.2 ⟨other, hother, decide_eq_true (.inr heq)⟩)
  · exact .inl hfits

theorem next_accepted (hids : NumberedIds table.rows) (hid : user.id = toString (table.rows.length + 1))
    (hfits : Fits user) (hemail : user.email ∉ table.rows.map (·.email)) (hidle : table.uncommitted = [])
    (timesOut : Bool) :
    next timesOut table (.inserting user) = ({ table with uncommitted := [user] }, .committing user) := by
  have hfree : ¬ (¬ Fits user ∨ table.rows.any (fun other => Clash user other) = true) := by
    rintro (hunfit | hclash)
    · exact hunfit hfits
    · obtain ⟨other, hother, hclash⟩ := List.any_eq_true.1 hclash
      rcases of_decide_eq_true hclash with hsame | hsame
      · exact hids.ne_next hother (hsame.trans hid)
      · exact hemail (List.mem_map.2 ⟨other, hother, hsame⟩)
  unfold SpringUsers.next
  dsimp only
  rw [if_neg hfree, hidle]
  rfl

theorem next_committed (rows : List User) (user : User) (timesOut : Bool) :
    next timesOut ⟨rows, [user]⟩ (.committing user) = (⟨rows ++ [user], []⟩, .answered (.created user)) := by
  unfold SpringUsers.next
  dsimp only
  rw [List.erase_cons_head]

end

theorem Numbered.creation (h : Numbered s) (hcount : s.calls.length + 3 < 2 ^ 31)
    (hidle : ∀ user, Call.committing user ∉ s.calls) (token name email : String) (t₁ t₂ t₃ : Bool) :
    requests.exec (requests.exec (requests.exec
        ⟨s.shared, s.calls ++ [.received (SpringUsers.creation token name email)]⟩
        (.step s.calls.length t₁)) (.step s.calls.length t₂)) (.step s.calls.length t₃) =
      if Fits ⟨toString (s.shared.rows.length + 1), name, email⟩ ∧ email ∉ s.shared.rows.map (·.email) then
        ⟨{ rows := s.shared.rows ++ [⟨toString (s.shared.rows.length + 1), name, email⟩] },
          s.calls ++ [.answered (.created ⟨toString (s.shared.rows.length + 1), name, email⟩)]⟩
      else ⟨s.shared, s.calls ++ [.answered .error]⟩ := by
  have hlength := h.length
  have hnone : s.shared.uncommitted = [] := by
    refine List.eq_nil_iff_forall_not_mem.2 fun other hother => ?_
    obtain ⟨k, hk, hpending⟩ := List.mem_filterMap.1 (h.pending.mem_iff.1 hother)
    cases k with
    | committing pending => exact hidle pending hk
    | _ => cases hpending
  have hread : SpringUsers.next t₁ s.shared (.received (SpringUsers.creation token name email)) =
      (s.shared, .inserting ⟨toString (s.shared.rows.length + 1), name, email⟩) := by
    show (s.shared, if preHandle (SpringUsers.creation token name email) then
      handle s.shared.rows (.createUser (some name) (some email)) else .answered .unauthorized) = _
    rw [if_pos (preHandle_creation token name email), handle, getNextId_eq h.ids h.ne_nil (by omega)]
  rw [exec_last, hread, exec_last]
  split
  · next hnew =>
    rw [next_accepted h.ids rfl hnew.1 hnew.2 hnone, exec_last, next_committed]
  · next hold =>
    rw [next_refused hold, exec_last]
    rfl

end Portfolio.Framework.SpringUsers
