import Portfolio.Chat.SessionInv

/-!
# Nicknames of the chat server

A nickname enters the server by two routes: NICK checks it against the registered sessions, but the
default nickname of a connection is not checked when the connection is registered. The nicknames of
the registered sessions stay distinct as long as no default nickname is in use at that moment.
-/

namespace Portfolio.Chat
open WebSocketServer

namespace WebSocketServer

def isOpen (s : WebSocketServer) (c : Nat) : Bool := (s.heap c).any (·.isOpen)

/-- No two open registered sessions have the same nickname. -/
def UniqueNicknames (s : WebSocketServer) : Prop :=
  ∀ c ∈ s.sessions, ∀ d ∈ s.sessions, s.isOpen c = true → s.isOpen d = true →
    s.nickname c = s.nickname d → c = d

/-- When the handshake of session `c` is done, no open registered session uses its default nickname. -/
def DefaultUnused (s : WebSocketServer) : Event → Prop
  | .accepted c true => ((s.heap c).any fun x => x.read = .accepting) = true →
    ∀ d ∈ s.sessions, s.isOpen d = true → s.nickname d ≠ "user-" ++ toString c
  | _ => True

variable {s t : WebSocketServer}

theorem isOpen_eq {c : Nat} {k : Core} (h : s.cores c = some k) : s.isOpen c = k.isOpen := by
  obtain ⟨x, hx, rfl⟩ := Option.map_eq_some_iff.1 h
  rw [isOpen, hx]
  rfl

/-- Uniqueness by the cores of the open sessions. -/
def Distinct (s : WebSocketServer) : Prop :=
  ∀ c d k l, s.cores c = some k → s.cores d = some l → k.isOpen = true → l.isOpen = true →
    k.nickname = l.nickname → c = d

theorem uniqueNicknames_iff (h : Wf s) : s.UniqueNicknames ↔ Distinct s := by
  constructor
  · intro hu c d k l hk hl hko hlo hname
    refine hu c ((h.registered c).2 ⟨k, hk, hko⟩) d ((h.registered d).2 ⟨l, hl, hlo⟩) ?_ ?_ ?_
    · rw [isOpen_eq hk, hko]
    · rw [isOpen_eq hl, hlo]
    · rw [nickname_eq hk, nickname_eq hl, hname]
  · intro hd c hc d hd' _ _ hname
    obtain ⟨k, hk, hko⟩ := (h.registered c).1 hc
    obtain ⟨l, hl, hlo⟩ := (h.registered d).1 hd'
    rw [nickname_eq hk, nickname_eq hl] at hname
    exact hd c d k l hk hl hko hlo hname

/-- The nickname of one session changes to one that the other open sessions do not have. -/
theorem Distinct.change {c : Nat} {f : Core → Core} (h : Distinct s) (hcores : t.cores = s.change c f)
    (hself : ∀ k d l, s.cores c = some k → (f k).isOpen = true → d ≠ c → s.cores d = some l →
      l.isOpen = true → (f k).nickname ≠ l.nickname) : Distinct t := by
  intro d e k l hk hl hko hlo hname
  rw [hcores] at hk hl
  by_cases hd : d = c
  · by_cases he : e = c
    · rw [hd, he]
    · rw [hd, change_self] at hk
      rw [change_of_ne he] at hl
      obtain ⟨k', hk', rfl⟩ := Option.map_eq_some_iff.1 hk
      exact absurd hname (hself k' e l hk' hko he hl hlo)
  · rw [change_of_ne hd] at hk
    by_cases he : e = c
    · rw [he, change_self] at hl
      obtain ⟨l', hl', rfl⟩ := Option.map_eq_some_iff.1 hl
      exact absurd hname.symm (hself l' d k hl' hlo hd hk hko)
    · rw [change_of_ne he] at hl
      exact h d e k l hk hl hko hlo hname

theorem nickname_ne_of_available (h : Wf s) {name : String} {c d : Nat} {l : Core}
    (havail : s.isNicknameAvailable name c = true) (hne : d ≠ c) (hl : s.cores d = some l)
    (hopen : l.isOpen = true) : name ≠ l.nickname := by
  have hd : d ∈ s.sessions := (h.registered d).2 ⟨l, hl, hopen⟩
  have hfree := List.all_eq_true.1 havail d hd
  simp only [h.lock hd, nickname_eq hl, hne, ne_eq, not_false_eq_true, decide_true, Bool.true_and,
    Bool.not_eq_true', decide_eq_false_iff_not] at hfree
  exact fun heq => hfree heq.symm

theorem Distinct.step {event : Event} (hwf : Wf s) (h : Distinct s) (hev : s.DefaultUnused event)
    (hstep : CoreStep s t event) : Distinct t := by
  cases hstep with
  | quiet hq =>
    unfold Distinct
    rw [hq.cores]
    exact h
  | change c f hch hf =>
    refine h.change hch.cores fun k d l hk ho hne hl hlo hname => hne ?_
    rw [hf.nickname] at hname
    rw [hf.isOpen k hk] at ho
    exact (h c d k l hk hl ho hlo hname).symm
  | rename c name havail hch =>
    exact h.change hch.cores fun k d l _ _ hne hl hlo => nickname_ne_of_available hwf havail hne hl hlo
  | connect hcores _ _ =>
    intro c d k l hk hl hko hlo
    have hold : ∀ c k, t.cores c = some k → k.isOpen = true → s.cores c = some k := by
      intro c k hk ho
      rw [hcores] at hk
      by_cases hc : c = s.nextSessionId
      · subst hc
        rw [Function.update_self] at hk
        cases hk
        cases ho
      · rwa [Function.update_of_ne hc] at hk
    exact h c d k l (hold c k hk hko) (hold d l hl hlo) hko hlo
  | accept c k hk hread hacc =>
    refine h.change hacc.cores fun k' d l hk' _ hne hl hlo => ?_
    rw [hk] at hk'
    cases hk'
    obtain ⟨x, hx, rfl⟩ := Option.map_eq_some_iff.1 hk
    have hreadx : x.read = .accepting := hread
    have hd : d ∈ s.sessions := (hwf.registered d).2 ⟨l, hl, hlo⟩
    have hfree := hev (by simp [hx, hreadx]) d hd (by rw [isOpen_eq hl, hlo])
    rw [nickname_eq hl] at hfree
    show x.core.nickname ≠ _
    rw [hwf.named c x.core hk hread]
    exact hfree.symm
  | close c f hf hcores _ _ =>
    refine h.change hcores fun k d l _ ho => ?_
    rw [hf.isOpen] at ho
    cases ho

/-- A default nickname that is in use is then used twice. -/
theorem not_distinct_accept {c : Nat} (hwf : Wf s) (hev : ¬ s.DefaultUnused (.accepted c true)) :
    ¬ Distinct (s.exec (.accepted c true)) := by
  intro hdis
  simp only [DefaultUnused, not_forall, ne_eq, not_not] at hev
  obtain ⟨hacc, d, hd, hopen, hname⟩ := hev
  obtain ⟨x, hx, hread⟩ : ∃ x, s.heap c = some x ∧ x.read = .accepting := by
    simpa [Option.any_eq_true] using hacc
  have hk : s.cores c = some x.core := core_eq hx
  obtain ⟨l, hl, hlo⟩ := (hwf.registered d).1 hd
  have hcores := (accepts_onAccept hk hread).cores
  have hne : d ≠ c := by
    rintro rfl
    rw [hk] at hl
    cases hl
    exact (hwf.busy d x.core hk hlo).2 hread
  refine hne (hdis d c l { x.core with isOpen := true, read := .reading } ?_ ?_ hlo rfl ?_)
  · show (s.onAccept c true).cores d = _
    rw [hcores, change_of_ne hne, hl]
  · show (s.onAccept c true).cores c = _
    rw [hcores, change_self, hk]
    rfl
  · rw [← nickname_eq hl, hname]
    exact (hwf.named c x.core hk hread).symm

end WebSocketServer

theorem distinct_run {events : List Event} (h : chatMachine.Along DefaultUnused events) :
    Distinct (chatMachine.run events).1 := by
  refine (chatMachine.run_inv_along (P := fun _ _ s => Wf s ∧ Distinct s)
    ⟨wf_init, fun _ _ _ _ hk => nomatch hk⟩ (fun _ _ s event hs hev => ?_) events h).2
  have hstep := coreStep_exec hs.1 event
  exact ⟨hs.1.coreStep hstep, hs.2.step hs.1 hev hstep⟩

/-- The nicknames are unique in every state of a run if and only if no connection is registered while
its default nickname is in use. -/
theorem unique_nicknames_iff (events : List Event) :
    (∀ pre, pre <+: events → (chatMachine.run pre).1.UniqueNicknames) ↔
      chatMachine.Along DefaultUnused events := by
  refine chatMachine.always_iff_along (P := fun run => run.1.UniqueNicknames)
    (fun pre _ halong => (uniqueNicknames_iff (wf_run pre)).2 (distinct_run halong)) fun pre event _ _ hunique => ?_
  have hdis := (uniqueNicknames_iff (wf_run (pre ++ [event]))).1 hunique
  rw [Machine.run_concat] at hdis
  -- only a handshake can break the condition
  cases event with
  | accepted c ok =>
    cases ok with
    | true =>
      by_contra hev
      exact not_distinct_accept (wf_run pre) hev hdis
    | false => trivial
  | connect => trivial
  | arrive _ _ => trivial
  | read _ => trivial
  | runPosted _ => trivial
  | written _ _ => trivial

/-- The first user takes the name that the second connection will be given. -/
def nickRun : List Event :=
  [.connect, .accepted 1 true, .arrive 1 (some "\x7b\"cmd\":\"NICK\",\"name\":\"user-2\"\x7d"), .read 1,
    .connect, .accepted 2 true]

theorem default_nickname_taken : ¬ (chatMachine.run nickRun).1.UniqueNicknames := by
  intro h
  have hnames : (chatMachine.run nickRun).1.nickname 1 = (chatMachine.run nickRun).1.nickname 2 := by
    decide +kernel
  have heq := h 1 (by decide +kernel) 2 (by decide +kernel) (by decide +kernel) (by decide +kernel) hnames
  exact absurd heq (by decide)

end Portfolio.Chat
