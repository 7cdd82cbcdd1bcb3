import Portfolio.Framework.Container
import Portfolio.Lib.Acyclic
import Portfolio.Lib.Machine

/-!
# Singletons are built once

`Inv` follows the container through nested calls of `resolve`: `stack` has the names whose factories
are running, and since no factory depends on itself, none of them is resolved again before it is
done. What can go wrong is the cache, which takes `None` for "not built yet"; a factory that raises
has not built anything either.
-/

namespace Portfolio.Framework
open Std

/-- Two entries that a count of at most one both counts are the same. -/
theorem eq_of_countP_le_one {α : Type} {p : α → Bool} {l : List α} (h : l.countP p ≤ 1) {a b : α}
    (ha : a ∈ l) (hb : b ∈ l) (hpa : p a = true) (hpb : p b = true) : a = b := by
  rw [List.countP_eq_length_filter] at h
  have ha := List.mem_filter.2 ⟨ha, hpa⟩
  have hb := List.mem_filter.2 ⟨hb, hpb⟩
  cases hf : l.filter p with
  | nil =>
    rw [hf] at ha
    cases ha
  | cons x rest =>
    rw [hf] at h ha hb
    obtain rfl : rest = [] := List.eq_nil_of_length_eq_zero (by simpa using h)
    rw [List.mem_singleton.1 ha, List.mem_singleton.1 hb]

section
variable {V W : Type}

/-! ### What is asked of the log -/

namespace ContainerEvent

def isResolving (name : String) : ContainerEvent V → Bool
  | resolving n => n = name
  | _ => false

def isExecuting (name : String) : ContainerEvent V → Bool
  | executing n => n = name
  | _ => false

def isExecuted (name : String) : ContainerEvent V → Bool
  | executed n _ => n = name
  | _ => false

end ContainerEvent

open ContainerEvent

abbrev Registrations (V W : Type) := TreeMap String (DependencyContainer.Registration V W)

/-- The name has a factory, which is for a singleton or not. -/
def HasFactory (registrations : Registrations V W) (singleton : Bool) (name : String) : Prop :=
  ∃ registration, registrations[name]? = some registration ∧ registration.factory.isSome ∧
    registration.singleton = singleton

/-- The factories of singletons are executed at most once, all calls of `resolve` for one of them
return the same value, and other factories are executed with every call. -/
structure BuiltOnce (registrations : Registrations V W) (log : List (ContainerEvent V)) : Prop where
  once : ∀ name, HasFactory registrations true name → log.countP (isExecuting name) ≤ 1
  same : ∀ name, HasFactory registrations true name → ∀ v v', .resolved name v ∈ log →
    .resolved name v' ∈ log → v = v'
  each : ∀ name, HasFactory registrations false name →
    log.countP (isExecuting name) = log.countP (isResolving name)

/-- No singleton is resolved after its factory has returned `None` or raised an exception. -/
def NotResolvedAgain (registrations : Registrations V W) (log : List (ContainerEvent V)) : Prop :=
  ∀ pre name post, log = pre ++ .resolving name :: post → HasFactory registrations true name →
    ∀ outcome, .executed name outcome ∈ pre → ∃ v, outcome = .ok (some v)

/-- The code may resolve the name. -/
inductive Code.Calls (name : String) : Code V W → Prop where
  | here (k) : Calls name (.resolve name k)
  | later (n k outcome) : Calls name (k outcome) → Calls name (.resolve n k)
  | effect (change k w) : Calls name (k w) → Calls name (.effect change k)

/-- The factory of `a` may resolve `b`. -/
def DependsOn (registrations : Registrations V W) (a b : String) : Prop :=
  ∃ registration, registrations[a]? = some registration ∧
    ∃ factory, registration.factory = some factory ∧ factory.Calls b

variable {registrations : Registrations V W} {log : List (ContainerEvent V)}

theorem notResolvedAgain_concat {event : ContainerEvent V} :
    NotResolvedAgain registrations (log ++ [event]) ↔ NotResolvedAgain registrations log ∧
      ∀ name, event = .resolving name → HasFactory registrations true name →
        ∀ outcome, .executed name outcome ∈ log → ∃ v, outcome = .ok (some v) := by
  constructor
  · intro h
    refine ⟨fun pre name post hlog => h pre name (post ++ [event]) (by simp [hlog]), ?_⟩
    rintro name rfl
    exact h log name [] rfl
  · rintro ⟨h, hlast⟩ pre name post hlog
    rcases concat_eq_append_cons.1 hlog with ⟨rfl, rfl, rfl⟩ | ⟨post', rfl, hlog'⟩
    · exact hlast name rfl
    · exact h pre name post' hlog'

theorem notResolvedAgain_note {event : ContainerEvent V} (hevent : ∀ name, event ≠ .resolving name) :
    NotResolvedAgain registrations (log ++ [event]) ↔ NotResolvedAgain registrations log := by
  rw [notResolvedAgain_concat]
  exact and_iff_left fun name heq => absurd heq (hevent name)

/-! ### The invariant -/

/-- What no call changes. -/
def kind (registrations : Registrations V W) (name : String) : Option (Option (Code V W) × Bool) :=
  (registrations.get? name).map fun r => (r.factory, r.singleton)

theorem kind_of_get {name : String} {r : DependencyContainer.Registration V W}
    (hr : registrations[name]? = some r) : kind registrations name = some (r.factory, r.singleton) := by
  rw [kind, TreeMap.get?_eq_getElem?, hr, Option.map_some]

theorem get_of_kind {name : String} {factory : Option (Code V W)} {singleton : Bool}
    (h : kind registrations name = some (factory, singleton)) :
    ∃ r, registrations[name]? = some r ∧ r.factory = factory ∧ r.singleton = singleton := by
  obtain ⟨r, hr, heq⟩ := Option.map_eq_some_iff.1 h
  exact ⟨r, hr, congrArg Prod.fst heq, congrArg Prod.snd heq⟩

/-- The container `c` after calls on these registrations, while the factories of `stack` run. -/
structure Inv (registrations : Registrations V W) (stack : List String) (c : DependencyContainer V W) :
    Prop where
  kind : ∀ name, kind c.registrations name = kind registrations name
  cached : ∀ name, HasFactory registrations true name → ∀ r, c.registrations[name]? = some r →
    ∀ v, r.value = some v ↔ .executed name (.ok (some v)) ∈ c.log
  running : ∀ name ∈ stack, ∀ r, c.registrations[name]? = some r →
    HasFactory registrations true name → r.value = none
  counts : ∀ name, c.log.countP (isExecuted name) + stack.count name = c.log.countP (isExecuting name)
  returned : ∀ name, HasFactory registrations true name → ∀ v, .resolved name v ∈ c.log →
    .executed name (.ok v) ∈ c.log
  each : ∀ name, HasFactory registrations false name →
    c.log.countP (isExecuting name) = c.log.countP (isResolving name)
  once_iff : (∀ name, HasFactory registrations true name → c.log.countP (isExecuting name) ≤ 1) ↔
    NotResolvedAgain registrations c.log

namespace Inv
open DependencyContainer

variable {stack : List String} {c : DependencyContainer V W} {name : String}
  {r : DependencyContainer.Registration V W} {factory : Code V W}

theorem hasFactory_iff (h : Inv registrations stack c) (hr : c.registrations[name]? = some r) {b : Bool} :
    HasFactory registrations b name ↔ r.factory.isSome ∧ r.singleton = b := by
  obtain ⟨r', hr', hfactory, hsingleton⟩ := get_of_kind ((h.kind name).symm.trans (kind_of_get hr))
  rw [← hfactory, ← hsingleton]
  constructor
  · rintro ⟨r'', hr'', hb⟩
    cases hr'.symm.trans hr''
    exact hb
  · exact fun hb => ⟨r', hr', hb⟩

theorem dependsOn (h : Inv registrations stack c) (hr : c.registrations[name]? = some r)
    (hfactory : r.factory = some factory) {n : String} (hcalls : factory.Calls n) :
    DependsOn registrations name n := by
  obtain ⟨r', hr', hfactory', -⟩ := get_of_kind ((h.kind name).symm.trans (kind_of_get hr))
  exact ⟨r', hr', factory, hfactory'.trans hfactory, hcalls⟩

theorem effect (h : Inv registrations stack c) (world : W) :
    Inv registrations stack { c with world := world } :=
  ⟨h.kind, h.cached, h.running, h.counts, h.returned, h.each, h.once_iff⟩

theorem resolved (h : Inv registrations stack c) {v : Option V}
    (hv : HasFactory registrations true name → .executed name (.ok v) ∈ c.log) :
    Inv registrations stack (c.note (.resolved name v)) := by
  refine ⟨h.kind, ?_, h.running, ?_, ?_, ?_, ?_⟩
  · intro n hn r' hr' v'
    simpa [note] using h.cached n hn r' hr' v'
  · intro n
    simpa [note, isExecuted, isExecuting] using h.counts n
  · intro n hn v' hv'
    simp only [note, List.mem_append, List.mem_singleton, reduceCtorEq, or_false,
      ContainerEvent.resolved.injEq] at hv' ⊢
    rcases hv' with hv' | ⟨rfl, rfl⟩
    · exact h.returned n hn v' hv'
    · exact hv hn
  · intro n hn
    simpa [note, isExecuting, isResolving] using h.each n hn
  · simpa [note, isExecuting, notResolvedAgain_note] using h.once_iff

/-- A name that is not to be built, with what its factory has returned if it has one. -/
theorem executed_of_hit (h : Inv registrations stack c) (hr : c.registrations[name]? = some r)
    (hhit : r.factory = none ∨ r.singleton ∧ r.value ≠ none) {b : Bool}
    (hb : HasFactory registrations b name) :
    b = true ∧ ∃ v, r.value = some v ∧ .executed name (.ok (some v)) ∈ c.log := by
  obtain ⟨hfactory, rfl⟩ := (h.hasFactory_iff hr).1 hb
  rcases hhit with hnone | ⟨hsingleton, hvalue⟩
  · simp [hnone] at hfactory
  · obtain ⟨v, hv⟩ := Option.ne_none_iff_exists'.1 hvalue
    rw [hsingleton] at hb
    exact ⟨hsingleton, v, hv, (h.cached name hb r hr v).1 hv⟩

theorem resolving (h : Inv registrations stack c) (hr : c.registrations[name]? = some r)
    (hhit : r.factory = none ∨ r.singleton ∧ r.value ≠ none) :
    Inv registrations stack (c.note (.resolving name)) := by
  refine ⟨h.kind, ?_, h.running, ?_, ?_, ?_, ?_⟩
  · intro n hn r' hr' v
    simpa [note] using h.cached n hn r' hr' v
  · intro n
    simpa [note, isExecuted, isExecuting] using h.counts n
  · intro n hn v hv
    simp only [note, List.mem_append, List.mem_singleton, reduceCtorEq, or_false] at hv ⊢
    exact h.returned n hn v hv
  · intro n hn
    have hne : name ≠ n := by
      rintro rfl
      exact absurd (h.executed_of_hit hr hhit hn).1 Bool.false_ne_true
    simpa [note, isExecuting, isResolving, hne] using h.each n hn
  · have hcount : ∀ n, (c.note (.resolving name)).log.countP (isExecuting n) =
        c.log.countP (isExecuting n) := by simp [note, isExecuting]
    simp only [hcount]
    simp only [note]
    rw [notResolvedAgain_concat, h.once_iff]
    refine ⟨fun hagain => ⟨hagain, ?_⟩, And.left⟩
    rintro n ⟨rfl⟩ hn outcome houtcome
    obtain ⟨-, v, -, hlog⟩ := h.executed_of_hit hr hhit hn
    have honce : c.log.countP (isExecuted name) ≤ 1 := by
      have := h.once_iff.2 hagain name hn
      have := h.counts name
      omega
    have heq := eq_of_countP_le_one honce houtcome hlog (by simp [isExecuted]) (by simp [isExecuted])
    exact ⟨v, by simpa using heq⟩

/-- A call that finds what it returns. -/
theorem hit (h : Inv registrations stack c) (hr : c.registrations[name]? = some r)
    (hhit : r.factory = none ∨ r.singleton ∧ r.value ≠ none) :
    Inv registrations stack ((c.note (.resolving name)).note (.resolved name r.value)) := by
  refine (h.resolving hr hhit).resolved fun hname => ?_
  obtain ⟨-, v, hv, hlog⟩ := h.executed_of_hit hr hhit hname
  rw [hv]
  exact List.mem_append_left _ hlog

/-- A call that starts a factory. -/
theorem begin (h : Inv registrations stack c) (hr : c.registrations[name]? = some r)
    (hmiss : ¬ (r.singleton ∧ r.value ≠ none)) (hstack : name ∉ stack) :
    Inv registrations (name :: stack) ((c.note (.resolving name)).note (.executing name)) := by
  refine ⟨h.kind, ?_, ?_, ?_, ?_, ?_, ?_⟩
  · intro n hn r' hr' v
    simpa [note] using h.cached n hn r' hr' v
  · intro n hn r' hr' hsingleton
    rcases List.mem_cons.1 hn with rfl | hn
    · cases hr.symm.trans hr'
      have := ((h.hasFactory_iff hr).1 hsingleton).2
      by_contra hvalue
      exact hmiss ⟨this, hvalue⟩
    · exact h.running n hn r' hr' hsingleton
  · intro n
    have := h.counts n
    by_cases hne : name = n
    · subst hne
      simp [note, isExecuted, isExecuting]
      omega
    · simpa [note, isExecuted, isExecuting, hne, List.count_cons] using this
  · intro n hn v hv
    simp only [note, List.append_assoc, List.mem_append, List.mem_cons, List.not_mem_nil, or_false,
      List.cons_append, List.nil_append, reduceCtorEq] at hv ⊢
    exact h.returned n hn v hv
  · intro n hn
    have := h.each n hn
    by_cases hne : name = n
    · simpa [note, isExecuting, isResolving, hne] using this
    · simpa [note, isExecuting, isResolving, hne] using this
  · have hcount : ∀ n, ((c.note (.resolving name)).note (.executing name)).log.countP (isExecuting n) =
        c.log.countP (isExecuting n) + if name = n then 1 else 0 := by
      intro n
      simp [note, isExecuting, List.countP_cons]
    simp only [hcount]
    simp only [note]
    rw [notResolvedAgain_note (by simp), notResolvedAgain_concat, ← h.once_iff]
    have hexecuted := h.counts name
    rw [List.count_eq_zero_of_not_mem hstack, Nat.add_zero] at hexecuted
    constructor
    · intro honce
      refine ⟨fun n hn => (Nat.le_add_right _ _).trans (honce n hn), ?_⟩
      rintro n ⟨rfl⟩ hn outcome houtcome
      have := honce name hn
      rw [if_pos rfl] at this
      have hpos : 0 < c.log.countP (isExecuted name) :=
        List.countP_pos_iff.2 ⟨_, houtcome, by simp [isExecuted]⟩
      omega
    · rintro ⟨honce, hlast⟩ n hn
      by_cases hne : name = n
      · subst hne
        have hnone : c.log.countP (isExecuted name) = 0 := by
          refine List.countP_eq_zero.2 fun event hevent hp => ?_
          cases event with
          | executed m outcome =>
            obtain rfl : m = name := by simpa [isExecuted] using hp
            obtain ⟨v, rfl⟩ := hlast m rfl hn outcome hevent
            have hv := (h.cached m hn r hr v).2 hevent
            exact hmiss ⟨((h.hasFactory_iff hr).1 hn).2, by simp [hv]⟩
          | resolving m => simp [isExecuted] at hp
          | executing m => simp [isExecuted] at hp
          | resolved m v => simp [isExecuted] at hp
        rw [if_pos rfl]
        omega
      · rw [if_neg hne]
        exact honce n hn

theorem counts_executed (h : Inv registrations (name :: stack) c) (outcome : Outcome V) (n : String) :
    (c.note (.executed name outcome)).log.countP (isExecuted n) + stack.count n =
      (c.note (.executed name outcome)).log.countP (isExecuting n) := by
  have := h.counts n
  by_cases hne : name = n
  · subst hne
    simp [note, isExecuted, isExecuting] at this ⊢
    omega
  · simpa [note, isExecuted, isExecuting, hne, List.count_cons] using this

/-- A factory ends with nothing to store. -/
theorem executed (h : Inv registrations (name :: stack) c) {outcome : Outcome V}
    (houtcome : HasFactory registrations true name → ∀ v, outcome ≠ .ok (some v)) :
    Inv registrations stack (c.note (.executed name outcome)) := by
  refine ⟨h.kind, ?_, fun n hn => h.running n (List.mem_cons_of_mem _ hn), h.counts_executed outcome,
    ?_, ?_, ?_⟩
  · intro n hn r' hr' v
    have hne : .executed n (.ok (some v)) ≠ ContainerEvent.executed name outcome := by
      rintro ⟨rfl, rfl⟩
      exact houtcome hn v rfl
    simpa [note, hne] using h.cached n hn r' hr' v
  · intro n hn v hv
    simp only [note, List.mem_append, List.mem_singleton, reduceCtorEq, or_false] at hv
    exact List.mem_append_left _ (h.returned n hn v hv)
  · intro n hn
    simpa [note, isExecuting, isResolving] using h.each n hn
  · simpa [note, isExecuting, notResolvedAgain_note] using h.once_iff

/-- The factory of a singleton returns, and what it returns is stored. -/
theorem stored (h : Inv registrations (name :: stack) c) (hstack : name ∉ stack)
    (hkind : Framework.kind registrations name = some (some factory, true)) (v : Option V) :
    Inv registrations stack { c.note (.executed name (.ok v)) with
      registrations := c.registrations.insert name ⟨v, some factory, true⟩ } := by
  refine ⟨?_, ?_, ?_, h.counts_executed (.ok v), ?_, ?_, ?_⟩
  · intro n
    by_cases hne : name = n
    · subst hne
      rw [hkind, kind_of_get TreeMap.getElem?_insert_self]
    · rw [← h.kind n, Framework.kind, Framework.kind]
      simp [TreeMap.getElem?_insert, hne]
  · intro n hn r' hr' v'
    by_cases hne : name = n
    · subst hne
      simp only [TreeMap.getElem?_insert_self, Option.some.injEq] at hr'
      subst hr'
      have hnew : .executed name (.ok (some v')) ∉ c.log := by
        intro hlog
        obtain ⟨r, hr, -⟩ := get_of_kind ((h.kind name).trans hkind)
        have hv := (h.cached name hn r hr v').2 hlog
        rw [h.running name List.mem_cons_self r hr hn] at hv
        cases hv
      simp [note, hnew, eq_comm]
    · have hr' : c.registrations[n]? = some r' := by simpa [TreeMap.getElem?_insert, hne] using hr'
      simpa [note, hne, Ne.symm hne] using h.cached n hn r' hr' v'
  · intro n hn r' hr' hsingleton
    have hne : name ≠ n := by
      rintro rfl
      exact hstack hn
    have hr' : c.registrations[n]? = some r' := by simpa [TreeMap.getElem?_insert, hne] using hr'
    exact h.running n (List.mem_cons_of_mem _ hn) r' hr' hsingleton
  · intro n hn v' hv'
    simp only [note, List.mem_append, List.mem_singleton, reduceCtorEq, or_false] at hv'
    exact List.mem_append_left _ (h.returned n hn v' hv')
  · intro n hn
    simpa [note, isExecuting, isResolving] using h.each n hn
  · simpa [note, isExecuting, notResolvedAgain_note] using h.once_iff

end Inv

/-! ### Runs -/

/-- Code keeps what the calls it makes and changes of the world keep. -/
theorem Code.run_spec {resolve : String → DependencyContainer V W → Option (Outcome V × DependencyContainer V W)}
    {P : DependencyContainer V W → Prop} (hworld : ∀ c world, P c → P { c with world := world })
    (code : Code V W)
    (hresolve : ∀ name c, code.Calls name → P c → ∃ r, resolve name c = some r ∧ P r.2)
    {c : DependencyContainer V W} (hc : P c) : ∃ r, code.run resolve c = some r ∧ P r.2 := by
  induction code generalizing c with
  | done outcome => exact ⟨(outcome, c), rfl, hc⟩
  | resolve name k ih =>
    obtain ⟨r, hr, hP⟩ := hresolve name c (.here k) hc
    rw [Code.run, hr, Option.bind_some]
    exact ih r.1 (fun n c hn => hresolve n c (.later name k r.1 hn)) hP
  | effect change k ih =>
    exact ih c.world (fun n c' hn => hresolve n c' (.effect change k _ hn)) (hworld c _ hc)

namespace DependencyContainer

variable {fuel : Nat} {name : String} {c : DependencyContainer V W}
  {r : DependencyContainer.Registration V W} {factory : Code V W}

theorem resolve_of_hit (hr : c.registrations[name]? = some r)
    (hhit : r.factory = none ∨ r.singleton ∧ r.value ≠ none) :
    resolve (fuel + 1) name c =
      some (.ok r.value, (c.note (.resolving name)).note (.resolved name r.value)) := by
  cases hfactory : r.factory with
  | none => simp only [resolve, hr, hfactory]
  | some factory =>
    rcases hhit with hnone | hcached
    · simp [hfactory] at hnone
    · simp only [resolve, hr, hfactory, if_pos hcached]

theorem resolve_of_error (hr : c.registrations[name]? = some r) (hfactory : r.factory = some factory)
    (hmiss : ¬ (r.singleton ∧ r.value ≠ none)) {e : String} {c' : DependencyContainer V W}
    (hrun : factory.run (resolve fuel) ((c.note (.resolving name)).note (.executing name)) =
      some (.error e, c')) :
    resolve (fuel + 1) name c = some (.error e, c'.note (.executed name (.error e))) := by
  simp only [resolve, hr, hfactory, if_neg hmiss, hrun]

theorem resolve_of_ok (hr : c.registrations[name]? = some r) (hfactory : r.factory = some factory)
    (hmiss : ¬ (r.singleton ∧ r.value ≠ none)) {v : Option V} {c' : DependencyContainer V W}
    (hrun : factory.run (resolve fuel) ((c.note (.resolving name)).note (.executing name)) =
      some (.ok v, c')) :
    resolve (fuel + 1) name c = some (.ok v, (if r.singleton then
      { c'.note (.executed name (.ok v)) with
        registrations := c'.registrations.insert name ⟨v, some factory, r.singleton⟩ }
      else c'.note (.executed name (.ok v))).note (.resolved name v)) := by
  simp only [resolve, hr, hfactory, if_neg hmiss, hrun]
  rfl

/-- A call for a name from which no running factory can be reached. -/
theorem resolve_spec (hacyclic : Acyclic (DependsOn registrations)) {rank : String → Nat}
    (hrank : ∀ a b, b ∈ registrations → DependsOn registrations a b → rank b < rank a)
    {stack : List String} (h : Inv registrations stack c)
    (hstack : ∀ n, Relation.ReflTransGen (DependsOn registrations) name n → n ∉ stack)
    (hfuel : 0 < fuel) (hname : name ∈ registrations → rank name + 1 < fuel) :
    ∃ r, resolve fuel name c = some r ∧ Inv registrations stack r.2 := by
  induction fuel generalizing name stack c with
  | zero => exact absurd hfuel (lt_irrefl 0)
  | succ fuel ih =>
    cases hr : c.registrations[name]? with
    | none =>
      refine ⟨(.error ("Dependency '" ++ name ++ "' is not registered"), c), ?_, h⟩
      simp only [resolve, hr]
    | some r =>
      obtain ⟨r', hr', -⟩ := get_of_kind ((h.kind name).symm.trans (kind_of_get hr))
      have hmem : name ∈ registrations := TreeMap.mem_iff_isSome_getElem?.2 (by simp [hr'])
      have hrankname := hname hmem
      cases hfactory : r.factory with
      | none => exact ⟨_, resolve_of_hit hr (.inl hfactory), h.hit hr (.inl hfactory)⟩
      | some factory =>
        by_cases hcached : r.singleton ∧ r.value ≠ none
        · exact ⟨_, resolve_of_hit hr (.inr hcached), h.hit hr (.inr hcached)⟩
        have hself : name ∉ stack := hstack name .refl
        -- what the factory resolves cannot reach `name`, and has a smaller rank
        have hcalls : ∀ n c', factory.Calls n → Inv registrations (name :: stack) c' →
            ∃ r, resolve fuel n c' = some r ∧ Inv registrations (name :: stack) r.2 := by
          intro n c' hn hc'
          have hdepends := h.dependsOn hr hfactory hn
          refine ih hc' (fun m hm => ?_) (by omega) fun hn => ?_
          · refine List.not_mem_cons_of_ne_of_not_mem ?_ (hstack m (.head hdepends hm))
            rintro rfl
            exact hacyclic m (.head' hdepends hm)
          · have := hrank name n hn hdepends
            omega
        obtain ⟨⟨outcome, c'⟩, hrun, h'⟩ :=
          Code.run_spec (fun _ world hP => hP.effect world) factory hcalls (h.begin hr hcached hself)
        cases outcome with
        | error e => exact ⟨_, resolve_of_error hr hfactory hcached hrun, h'.executed nofun⟩
        | ok v =>
          refine ⟨_, resolve_of_ok hr hfactory hcached hrun, ?_⟩
          cases hsingleton : r.singleton with
          | true =>
            have hkind := (h.kind name).symm.trans (kind_of_get hr)
            rw [hfactory, hsingleton] at hkind
            refine (h'.stored hself hkind v).resolved fun _ => ?_
            simp [note]
          | false =>
            have hname : ¬ HasFactory registrations true name := by
              simp [h.hasFactory_iff hr, hsingleton]
            exact (h'.executed fun hn => absurd hn hname).resolved fun hn => absurd hn hname

theorem serve_spec (hacyclic : Acyclic (DependsOn registrations)) {rank : String → Nat}
    (hrank : ∀ a b, b ∈ registrations → DependsOn registrations a b → rank b < rank a)
    (hfuel : 0 < fuel) (hname : ∀ name ∈ registrations, rank name + 1 < fuel)
    {codes : List (Code V W)} (h : Inv registrations [] c) :
    ∃ c', serve fuel codes c = some c' ∧ Inv registrations [] c' := by
  induction codes generalizing c with
  | nil => exact ⟨c, rfl, h⟩
  | cons code codes ih =>
    obtain ⟨r, hr, h'⟩ := Code.run_spec (fun _ world hP => hP.effect world) code
      (fun n _ _ hc' => resolve_spec hacyclic hrank hc' (fun m _ => List.not_mem_nil) hfuel (hname n)) h
    obtain ⟨c', hc', h'⟩ := ih h'
    exact ⟨c', by rw [serve, hr, Option.bind_some, hc'], h'⟩

/-! ### What is registered -/

theorem log_registered (world : W) (calls : List (Registering V W)) : (registered world calls).log = [] := by
  induction calls using List.reverseRecOn with
  | nil => rfl
  | append_singleton calls call ih =>
    rw [registered, List.foldl_concat, ← registered]
    cases call <;> exact ih

theorem registrations_register (call : Registering V W) :
    (c.register call).registrations = c.registrations.insert call.name call.registration := by
  cases call <;> rfl

theorem get_registered {world : W} {calls : List (Registering V W)}
    (hr : (registered world calls).registrations[name]? = some r) :
    ∃ call ∈ calls, call.name = name ∧ call.registration = r := by
  induction calls using List.reverseRecOn with
  | nil => simp [registered] at hr
  | append_singleton calls call ih =>
    rw [registered, List.foldl_concat, ← registered, registrations_register,
      TreeMap.getElem?_insert] at hr
    split at hr
    · rename_i hname
      cases hr
      exact ⟨call, by simp, LawfulEqOrd.compare_eq_iff_eq.1 hname, rfl⟩
    · obtain ⟨call, hcall, h⟩ := ih hr
      exact ⟨call, List.mem_append_left _ hcall, h⟩

theorem value_registered {world : W} {calls : List (Registering V W)}
    (hr : (registered world calls).registrations[name]? = some r) (hfactory : r.factory.isSome) :
    r.value = none := by
  obtain ⟨call, -, -, rfl⟩ := get_registered hr
  cases call with
  | instance_ n v => cases hfactory
  | factory n code singleton => rfl

theorem dependsOn_registered {world : W} {calls : List (Registering V W)} {a b : String}
    (h : DependsOn (registered world calls).registrations a b) :
    ∃ code singleton, .factory a code singleton ∈ calls ∧ code.Calls b := by
  obtain ⟨r, hr, factory, hfactory, hcalls⟩ := h
  obtain ⟨call, hcall, rfl, rfl⟩ := get_registered hr
  cases call with
  | instance_ n v => cases hfactory
  | factory n code singleton =>
    cases hfactory
    exact ⟨factory, singleton, hcall, hcalls⟩

theorem inv_registered (world : W) (calls : List (Registering V W)) :
    Inv (registered world calls).registrations [] (registered world calls) := by
  refine ⟨fun _ => rfl, ?_, nofun, ?_, ?_, ?_, ?_⟩
  · rintro name ⟨r, hr, hfactory, -⟩ r' hr' v
    cases hr.symm.trans hr'
    simp [log_registered, value_registered hr' hfactory]
  · simp [log_registered]
  · simp [log_registered]
  · simp [log_registered]
  · simp [log_registered, NotResolvedAgain]

end DependencyContainer

open DependencyContainer

/-- When no factory depends on itself, every piece of code that runs with the container ends, and
singletons are built once unless one is resolved again after its factory returned `None` or raised an
exception. -/
theorem builtOnce_iff_notResolvedAgain (world : W) (calls : List (Registering V W))
    (hacyclic : Acyclic (DependsOn (registered world calls).registrations)) {fuel : Nat}
    (hfuel : calls.length < fuel) (codes : List (Code V W)) :
    ∃ c, serve fuel codes (registered world calls) = some c ∧
      (BuiltOnce (registered world calls).registrations c.log ↔
        NotResolvedAgain (registered world calls).registrations c.log) := by
  obtain ⟨rank, hrank, hbound⟩ := hacyclic.exists_rank (calls.map Registering.name).toFinset
  have hname : ∀ name ∈ (registered world calls).registrations,
      name ∈ (calls.map Registering.name).toFinset := by
    intro name hmem
    obtain ⟨r, hr⟩ := Option.isSome_iff_exists.1 (TreeMap.mem_iff_isSome_getElem?.1 hmem)
    obtain ⟨call, hcall, rfl, -⟩ := get_registered hr
    exact List.mem_toFinset.2 (List.mem_map_of_mem hcall)
  have hcard : (calls.map Registering.name).toFinset.card ≤ calls.length :=
    (List.toFinset_card_le _).trans_eq (List.length_map _)
  obtain ⟨c, hc, h⟩ := serve_spec hacyclic (fun a b hb => hrank a b (hname b hb)) (Nat.zero_lt_of_lt hfuel)
    (fun name hmem => by
      have := hbound name (hname name hmem)
      omega)
    (inv_registered world calls)
  refine ⟨c, hc, fun hbuilt => h.once_iff.1 hbuilt.once, fun hagain => ?_⟩
  have honce := h.once_iff.2 hagain
  refine ⟨honce, fun name hname v v' hv hv' => ?_, h.each⟩
  have hexecuted : c.log.countP (isExecuted name) ≤ 1 := by
    have := honce name hname
    have := h.counts name
    omega
  have heq := eq_of_countP_le_one hexecuted (h.returned name hname v hv) (h.returned name hname v' hv')
    (by simp [isExecuted]) (by simp [isExecuted])
  simpa using heq

/-- A repository over a store, and a handler that gets it. -/
def repositoryCalls : List (Registering Nat Unit) :=
  [.factory "store" (.done (.ok (some 3))) true,
    .factory "repository" (.resolve "store" fun _ => .done (.ok (some 5))) true]

theorem builtOnce_iff_notResolvedAgain_repository :
    Acyclic (DependsOn (registered () repositoryCalls).registrations) ∧
      ∃ c, serve 3 [inject "repository" fun _ => .done (.ok none)] (registered () repositoryCalls) = some c ∧
        (BuiltOnce (registered () repositoryCalls).registrations c.log ↔
          NotResolvedAgain (registered () repositoryCalls).registrations c.log) := by
  have hacyclic : Acyclic (DependsOn (registered () repositoryCalls).registrations) := by
    refine .of_rank (fun name => if name = "repository" then 1 else 0) fun a b hab => ?_
    obtain ⟨code, singleton, hmem, hcalls⟩ := dependsOn_registered hab
    simp only [repositoryCalls, List.mem_cons, Registering.factory.injEq, List.not_mem_nil, or_false] at hmem
    rcases hmem with ⟨-, rfl, -⟩ | ⟨rfl, rfl, -⟩
    · cases hcalls
    · rcases hcalls with _ | ⟨_, _, _, hlater⟩
      · decide
      · cases hlater
  exact ⟨hacyclic, builtOnce_iff_notResolvedAgain () repositoryCalls hacyclic (by decide) _⟩

/-- A cache that is optional, and not there. -/
def cacheCalls : List (Registering Nat Unit) := [.factory "cache" (.done (.ok none)) true]

/-- The factory is executed with every call. -/
theorem built_twice :
    ¬ ∀ (calls : List (Registering Nat Unit)) (codes : List (Code Nat Unit)) (fuel : Nat)
      (c : DependencyContainer Nat Unit), Acyclic (DependsOn (registered () calls).registrations) →
        serve fuel codes (registered () calls) = some c →
          BuiltOnce (registered () calls).registrations c.log := by
  intro h
  have hacyclic : Acyclic (DependsOn (registered () cacheCalls).registrations) := by
    refine .of_rank (fun _ => 0) fun a b hab => ?_
    obtain ⟨code, singleton, hmem, hcalls⟩ := dependsOn_registered hab
    obtain ⟨-, rfl, -⟩ := by simpa [cacheCalls] using hmem
    cases hcalls
  have hbuilt := h cacheCalls [inject "cache" fun _ => .done (.ok none), inject "cache" fun _ => .done (.ok none)]
    2 _ hacyclic rfl
  have honce := hbuilt.once "cache" ⟨⟨none, some (.done (.ok none)), true⟩, rfl, rfl, rfl⟩
  revert honce
  decide

end

end Portfolio.Framework
