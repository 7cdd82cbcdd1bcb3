import Mathlib.Data.List.Induction

/-!
# Runs of a step function

A `Machine` is a start state and a step function with outputs. `run` folds it over a list of
inputs; `run_inv` is the invariant rule for properties that read the inputs and outputs so far
together with the current state, `run_inv_along` the same rule when every step is taken under a
guard; `logged` makes what was shown part of the state, for guards that read it. `run_sim` and
`run_eq_iff_along` compare two machines.
-/

namespace Portfolio

/-- Splitting a list that ends in `i`: the split is at the end or inside the rest. -/
theorem concat_eq_append_cons {α : Type} {is pre post : List α} {i j : α} :
    is ++ [i] = pre ++ j :: post ↔
      (is = pre ∧ i = j ∧ post = []) ∨ ∃ post', post = post' ++ [i] ∧ is = pre ++ j :: post' := by
  constructor
  · intro h
    rcases List.eq_nil_or_concat post with rfl | ⟨post', k, rfl⟩
    · obtain ⟨hp, hj⟩ := List.append_inj' h rfl
      exact .inl ⟨hp, List.singleton_inj.1 hj, rfl⟩
    · have h' : is ++ [i] = (pre ++ j :: post') ++ [k] := by simpa using h
      obtain ⟨hp, hk⟩ := List.append_inj' h' rfl
      obtain rfl := List.singleton_inj.1 hk
      exact .inr ⟨post', by simp, hp⟩
  · rintro (⟨rfl, rfl, rfl⟩ | ⟨post', rfl, rfl⟩)
    · rfl
    · simp

/-- A start state and a step that answers an input with the next state and some outputs. -/
structure Machine (σ ι ο : Type) where
  init : σ
  step : σ → ι → σ × List ο

namespace Machine
variable {σ ι ο : Type} (M : Machine σ ι ο)

/-- State and outputs (oldest first) after the inputs `is`. -/
def run (is : List ι) : σ × List ο :=
  is.foldl (fun r i => ((M.step r.1 i).1, r.2 ++ (M.step r.1 i).2)) (M.init, [])

@[simp] theorem run_nil : M.run [] = (M.init, []) := rfl

@[simp] theorem run_concat (is : List ι) (i : ι) :
    M.run (is ++ [i]) =
      ((M.step (M.run is).1 i).1, (M.run is).2 ++ (M.step (M.run is).1 i).2) := by
  simp [run, List.foldl_append]

theorem run_append_fst (is js : List ι) :
    (M.run (is ++ js)).1 = js.foldl (fun s j => (M.step s j).1) (M.run is).1 := by
  induction js using List.reverseRecOn with
  | nil => simp
  | append_singleton js j ih => rw [← List.append_assoc, run_concat, ih, List.foldl_append]; rfl

/-- What a run shows begins with what it has shown earlier. -/
theorem run_snd_prefix {is js : List ι} (h : is <+: js) : (M.run is).2 <+: (M.run js).2 := by
  obtain ⟨rest, rfl⟩ := h
  induction rest using List.reverseRecOn with
  | nil => simp
  | append_singleton rest i ih =>
    rw [← List.append_assoc, run_concat]
    exact ih.trans (List.prefix_append ..)

/-- The same machine, started in another state. -/
def startAt (s : σ) : Machine σ ι ο := { M with init := s }

/-- A run, taken from its first input. -/
theorem run_cons (i : ι) (is : List ι) :
    M.run (i :: is) = (((M.startAt (M.step M.init i).1).run is).1,
      (M.step M.init i).2 ++ ((M.startAt (M.step M.init i).1).run is).2) := by
  induction is using List.reverseRecOn with
  | nil => simp [run, startAt]
  | append_singleton is j ih =>
    rw [← List.cons_append, run_concat, run_concat, ih, List.append_assoc]
    rfl

/-- The same machine with other outputs. -/
def observe {κ : Type} (f : σ → ι → List κ) : Machine σ ι κ where
  init := M.init
  step s i := ((M.step s i).1, f s i)

theorem observe_run_fst {κ : Type} (f : σ → ι → List κ) (is : List ι) :
    ((M.observe f).run is).1 = (M.run is).1 := by
  induction is using List.reverseRecOn with
  | nil => rfl
  | append_singleton is i ih =>
    rw [run_concat, run_concat, ih]
    rfl

theorem observe_run_snd_concat {κ : Type} (f : σ → ι → List κ) (is : List ι) (i : ι) :
    ((M.observe f).run (is ++ [i])).2 = ((M.observe f).run is).2 ++ f (M.run is).1 i := by
  rw [run_concat, observe_run_fst]
  rfl

/-- The same machine, with what it has shown so far in its state. -/
def logged : Machine (σ × List ο) ι ο where
  init := (M.init, [])
  step r i := (((M.step r.1 i).1, r.2 ++ (M.step r.1 i).2), (M.step r.1 i).2)

@[simp] theorem logged_run (is : List ι) : M.logged.run is = (M.run is, (M.run is).2) := by
  induction is using List.reverseRecOn with
  | nil => rfl
  | append_singleton is i ih =>
    rw [run_concat, run_concat, ih]
    rfl

/-- The sum of `f` over the steps of a run. -/
def sumSteps (f : σ → ι → Nat) (is : List ι) : Nat :=
  (is.foldl (fun r i => ((M.step r.1 i).1, r.2 + f r.1 i)) (M.init, 0)).2

theorem sumSteps_concat (f : σ → ι → Nat) (is : List ι) (i : ι) :
    M.sumSteps f (is ++ [i]) = M.sumSteps f is + f (M.run is).1 i := by
  have hstate : ∀ is : List ι, (is.foldl (fun r i =>
      ((M.step r.1 i).1, r.2 + f r.1 i)) (M.init, 0)).1 = (M.run is).1 := by
    intro is
    induction is using List.reverseRecOn with
    | nil => rfl
    | append_singleton is i ih => simp [List.foldl_append, ih]
  simp [sumSteps, List.foldl_append, hstate]

/-- The number of inputs of `is` that meet `φ` in the state in which they are taken. -/
def countSteps (φ : σ → ι → Prop) [∀ s i, Decidable (φ s i)] (is : List ι) : Nat :=
  (is.foldl (fun r i => ((M.step r.1 i).1, r.2 + if φ r.1 i then 1 else 0)) (M.init, 0)).2

theorem countSteps_concat (φ : σ → ι → Prop) [∀ s i, Decidable (φ s i)] (is : List ι) (i : ι) :
    M.countSteps φ (is ++ [i]) = M.countSteps φ is + if φ (M.run is).1 i then 1 else 0 :=
  M.sumSteps_concat (fun s i => if φ s i then 1 else 0) is i

/-- Every input of `is` meets `G` in the state in which it is taken. -/
def Along (G : σ → ι → Prop) (is : List ι) : Prop :=
  ∀ pre i post, is = pre ++ i :: post → G (M.run pre).1 i

theorem along_nil (G : σ → ι → Prop) : M.Along G [] := by
  intro pre i post h
  simp at h

theorem along_concat {G : σ → ι → Prop} {is : List ι} {i : ι} :
    M.Along G (is ++ [i]) ↔ M.Along G is ∧ G (M.run is).1 i := by
  constructor
  · intro h
    exact ⟨fun pre j post hs => h pre j (post ++ [i]) (by simp [hs]), h is i [] rfl⟩
  · rintro ⟨h, hi⟩ pre j post hs
    rcases concat_eq_append_cons.1 hs with ⟨rfl, rfl, rfl⟩ | ⟨post', rfl, hs'⟩
    · exact hi
    · exact h pre j post' hs'

/-- No input is counted if and only if all of them meet the opposite guard. -/
theorem countSteps_eq_zero_iff (φ : σ → ι → Prop) [∀ s i, Decidable (φ s i)] {is : List ι} :
    M.countSteps φ is = 0 ↔ M.Along (fun s i => ¬ φ s i) is := by
  induction is using List.reverseRecOn with
  | nil => exact iff_of_true rfl (M.along_nil _)
  | append_singleton is i ih =>
    rw [countSteps_concat, along_concat, ← ih]
    split
    · next h => simp [h]
    · next h => simp [h]

theorem Along.append_left {G : σ → ι → Prop} {is js : List ι} (h : M.Along G (is ++ js)) :
    M.Along G is :=
  fun pre i post hs => h pre i (post ++ js) (by simp [hs])

/-- `Along` input by input, which can be decided for a run that is given. -/
theorem along_iff_forall_lt {G : σ → ι → Prop} {is : List ι} :
    M.Along G is ↔ ∀ n (h : n < is.length), G (M.run (is.take n)).1 (is.get ⟨n, h⟩) := by
  constructor
  · intro h n hn
    refine h (is.take n) (is.get ⟨n, hn⟩) (is.drop (n + 1)) ?_
    rw [List.get_eq_getElem, List.getElem_cons_drop, List.take_append_drop]
  · rintro h pre i post rfl
    have hlt : pre.length < (pre ++ i :: post).length := by simp
    simpa using h pre.length hlt

/-- A guard that does not read the state. -/
theorem along_iff_forall_mem {G : ι → Prop} {is : List ι} :
    M.Along (fun _ => G) is ↔ ∀ i ∈ is, G i := by
  constructor
  · intro h i hi
    obtain ⟨pre, post, hs⟩ := List.append_of_mem hi
    exact h pre i post hs
  · rintro h pre i post rfl
    exact h i (by simp)

/-- Inputs that meet the guard in every state may be added. -/
theorem Along.append {G : σ → ι → Prop} {is js : List ι} (h : M.Along G is)
    (hjs : ∀ j ∈ js, ∀ s, G s j) : M.Along G (is ++ js) := by
  induction js using List.reverseRecOn with
  | nil => simpa using h
  | append_singleton js j ih =>
    rw [← List.append_assoc, along_concat]
    exact ⟨ih fun k hk => hjs k (by simp [hk]), hjs j (by simp) _⟩

/-- The invariant rule under a guard: `P` reads the inputs and outputs so far and the state. -/
theorem run_inv_along {G : σ → ι → Prop} {P : List ι → List ο → σ → Prop} (h0 : P [] [] M.init)
    (hs : ∀ is os s i, P is os s → G s i → P (is ++ [i]) (os ++ (M.step s i).2) (M.step s i).1)
    (is : List ι) (hG : M.Along G is) : P is (M.run is).2 (M.run is).1 := by
  induction is using List.reverseRecOn with
  | nil => exact h0
  | append_singleton is i ih =>
    obtain ⟨hG, hi⟩ := M.along_concat.1 hG
    rw [run_concat]
    exact hs _ _ _ _ (ih hG) hi

/-- The invariant rule: start state and every step. -/
theorem run_inv {P : List ι → List ο → σ → Prop} (h0 : P [] [] M.init)
    (hs : ∀ is os s i, P is os s → P (is ++ [i]) (os ++ (M.step s i).2) (M.step s i).1)
    (is : List ι) : P is (M.run is).2 (M.run is).1 :=
  M.run_inv_along (G := fun _ _ => True) h0 (fun is os s i h _ => hs is os s i h) is
    fun _ _ _ _ => trivial

/-- `P` holds all through a run if and only if every step meets `G`: runs of such steps have `P`, and
a step that does not meet `G` ends it. -/
theorem always_iff_along {G : σ → ι → Prop} {P : σ × List ο → Prop} {is : List ι}
    (hgood : ∀ pre, pre <+: is → M.Along G pre → P (M.run pre))
    (hbad : ∀ pre i, pre ++ [i] <+: is → M.Along G pre → P (M.run (pre ++ [i])) → G (M.run pre).1 i) :
    (∀ pre, pre <+: is → P (M.run pre)) ↔ M.Along G is := by
  constructor
  · intro h
    have hpre : ∀ pre, pre <+: is → M.Along G pre := by
      intro pre hp
      induction pre using List.reverseRecOn with
      | nil => exact M.along_nil _
      | append_singleton pre i ih =>
        have hG := ih ((List.prefix_append ..).trans hp)
        exact M.along_concat.2 ⟨hG, hbad pre i hp hG (h _ hp)⟩
    exact hpre is (List.prefix_refl _)
  · rintro h pre hp
    obtain ⟨post, rfl⟩ := hp
    exact hgood pre (List.prefix_append ..) h.append_left

/-- A relation between a state and a later one, from single steps. -/
theorem run_append_rel {R : σ → σ → Prop} (h0 : ∀ s, R s s)
    (hs : ∀ s t i, R s t → R s (M.step t i).1) (is js : List ι) :
    R (M.run is).1 (M.run (is ++ js)).1 := by
  induction js using List.reverseRecOn with
  | nil =>
    rw [List.append_nil]
    exact h0 _
  | append_singleton js j ih =>
    rw [← List.append_assoc, run_concat]
    exact hs _ _ j ih

/-- The simulation rule: steps that keep a relation and answer alike give runs that answer alike. -/
theorem run_sim {σ' ο' : Type} (N : Machine σ' ι ο') {R : σ → σ' → Prop} (f : ο → ο')
    (h0 : R M.init N.init)
    (hs : ∀ s t i, R s t → R (M.step s i).1 (N.step t i).1 ∧ (M.step s i).2.map f = (N.step t i).2)
    (is : List ι) : R (M.run is).1 (N.run is).1 ∧ (M.run is).2.map f = (N.run is).2 := by
  induction is using List.reverseRecOn with
  | nil => exact ⟨h0, rfl⟩
  | append_singleton is i ih =>
    obtain ⟨hR, hout⟩ := ih
    obtain ⟨hR', hout'⟩ := hs _ _ i hR
    rw [run_concat, run_concat, List.map_append, hout, hout']
    exact ⟨hR', rfl⟩

/-- Machines that answer alike as long as the inputs meet `G`, and show the first one that does not. -/
theorem run_eq_iff_along (N : Machine σ ι ο) {G : σ → ι → Prop} {I : σ → Prop}
    (hinit : M.init = N.init) (h0 : I M.init) (hI : ∀ s i, I s → I (M.step s i).1)
    (hlen : ∀ s t i, (M.step s i).2.length = (N.step t i).2.length)
    (hgood : ∀ s i, I s → G s i → M.step s i = N.step s i)
    (hbad : ∀ s i, I s → (M.step s i).2 = (N.step s i).2 → G s i) (is : List ι) :
    M.run is = N.run is ↔ M.Along G is := by
  have hinv : ∀ is, I (M.run is).1 := fun is =>
    M.run_inv (P := fun _ _ s => I s) h0 (fun _ _ s i h => hI s i h) is
  have hrun : ∀ is, M.Along G is → M.run is = N.run is := by
    intro is
    induction is using List.reverseRecOn with
    | nil => simp [hinit]
    | append_singleton is i ih =>
      intro h
      obtain ⟨h, hi⟩ := M.along_concat.1 h
      rw [run_concat, run_concat, ← ih h, hgood _ i (hinv is) hi]
  -- the outputs alone tell the first input that does not meet `G`
  have hshown : ∀ is, (M.run is).2 = (N.run is).2 → M.Along G is := by
    intro is
    induction is using List.reverseRecOn with
    | nil => exact fun _ => M.along_nil G
    | append_singleton is i ih =>
      intro h
      rw [run_concat, run_concat] at h
      obtain ⟨hbefore, hlast⟩ := List.append_inj' h (hlen _ _ i)
      have halong := ih hbefore
      rw [← hrun is halong] at hlast
      exact M.along_concat.2 ⟨halong, hbad _ i (hinv is) hlast⟩
  exact ⟨fun h => hshown is (congrArg Prod.snd h), hrun is⟩

end Machine
end Portfolio
