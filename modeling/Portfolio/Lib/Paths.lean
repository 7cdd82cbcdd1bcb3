import Mathlib.Data.List.Basic

/-!
# Paths

POSIX paths as strings. A path is split at `/`, and its segments are normalised from the left: an
empty one or `.` is dropped, `..` takes away the name before it. `names` says where an absolute path
leads; `names_join` follows a relative path from a directory, and `climb` says how far up such a
path goes before it goes down (`foldl_push_climbStep`).
-/

namespace Portfolio.Path

def segments (path : String) : List String := (path.toList.splitOn '/').map String.ofList

/-- One more segment after those that are normalised. -/
def push (allowAboveRoot : Bool) (out : List String) (segment : String) : List String :=
  if segment = "" ∨ segment = "." then out
  else if segment = ".." then
    if out = [] ∨ out.getLast? = some ".." then
      if allowAboveRoot then out ++ [".."] else out
    else out.dropLast
  else out ++ [segment]

def normalizeSegments (allowAboveRoot : Bool) (path : String) : List String :=
  (segments path).foldl (push allowAboveRoot) []

def isAbsolute (path : String) : Bool := path.toList.head? = some '/'

def normalize (path : String) : String :=
  if path = "" then "."
  else
    let trailingSeparator : Bool := path.toList.getLast? = some '/'
    let out := "/".intercalate (normalizeSegments (!isAbsolute path) path)
    if out = "" then
      if isAbsolute path then "/" else if trailingSeparator then "./" else "."
    else
      let out := if trailingSeparator then out ++ "/" else out
      if isAbsolute path then "/" ++ out else out

def join (path₁ path₂ : String) : String :=
  if path₁ = "" then normalize path₂
  else if path₂ = "" then normalize path₁
  else normalize (path₁ ++ "/" ++ path₂)

/-- `resolve` from a directory whose path is absolute. -/
def resolve (cwd path : String) : String :=
  "/" ++ "/".intercalate
    (normalizeSegments false (if isAbsolute path then path else cwd ++ "/" ++ path))

/-- Where an absolute path leads. -/
def names (path : String) : List String := normalizeSegments false path

def StrictlyInside (dir path : String) : Prop := names dir <+: names path ∧ names path ≠ names dir

instance (dir path : String) : Decidable (StrictlyInside dir path) :=
  inferInstanceAs (Decidable (_ ∧ _))

/-! ### Names -/

/-- What stands between the separators of a normalised path. -/
structure IsName (name : String) : Prop where
  ne_empty : name ≠ ""
  ne_dot : name ≠ "."
  ne_dotdot : name ≠ ".."
  noSlash : '/' ∉ name.toList

theorem segments_append (a b : String) : segments (a ++ "/" ++ b) = segments a ++ segments b := by
  have : (a ++ "/" ++ b).toList = a.toList ++ '/' :: b.toList := by
    simp [String.toList_append]
  rw [segments, this, List.splitOn_append_cons_self, List.map_append]
  rfl

theorem noSlash_of_mem_splitOn {l seg : List Char} (h : seg ∈ l.splitOn '/') : '/' ∉ seg := by
  induction l generalizing seg with
  | nil =>
    obtain rfl : seg = [] := by simpa using h
    exact List.not_mem_nil
  | cons c l ih =>
    rw [List.splitOn_cons_eq_if_modifyHead] at h
    split at h
    · rcases List.mem_cons.1 h with rfl | h
      · exact List.not_mem_nil
      · exact ih h
    · rename_i hc
      cases hl : l.splitOn '/' with
      | nil => simp at hl
      | cons first rest =>
        rw [hl, List.modifyHead_cons, List.mem_cons] at h
        rcases h with rfl | h
        · have := ih (hl ▸ List.mem_cons_self : first ∈ l.splitOn '/')
          simpa [this] using fun heq => hc (beq_iff_eq.2 heq.symm)
        · exact ih (hl ▸ List.mem_cons_of_mem _ h)

theorem noSlash_of_mem_segments {path seg : String} (h : seg ∈ segments path) :
    '/' ∉ seg.toList := by
  obtain ⟨l, hl, rfl⟩ := List.mem_map.1 h
  rw [String.toList_ofList]
  exact noSlash_of_mem_splitOn hl

theorem push_isName {out : List String} {seg : String} (hout : ∀ name ∈ out, IsName name)
    (hseg : '/' ∉ seg.toList) : ∀ name ∈ push false out seg, IsName name := by
  unfold push
  split
  · exact hout
  · rename_i hne
    split
    · split
      · exact hout
      · intro name hname
        exact hout name (List.dropLast_subset _ hname)
    · rename_i hdots
      intro name hname
      rcases List.mem_append.1 hname with h | h
      · exact hout name h
      · obtain rfl := List.mem_singleton.1 h
        exact ⟨fun h => hne (.inl h), fun h => hne (.inr h), hdots, hseg⟩

theorem isName_of_mem_foldl {segs out : List String} (hsegs : ∀ seg ∈ segs, '/' ∉ seg.toList)
    (hout : ∀ name ∈ out, IsName name) : ∀ name ∈ segs.foldl (push false) out, IsName name := by
  induction segs generalizing out with
  | nil => exact hout
  | cons seg segs ih =>
    exact ih (fun s hs => hsegs s (List.mem_cons_of_mem _ hs))
      (push_isName hout (hsegs seg List.mem_cons_self))

theorem isName_of_mem_names {path name : String} (h : name ∈ names path) : IsName name :=
  isName_of_mem_foldl (fun _ hs => noSlash_of_mem_segments hs)
    (fun _ h => absurd h List.not_mem_nil)
    name h

theorem push_of_isName {name : String} (h : IsName name) (out : List String) :
    push false out name = out ++ [name] := by
  simp [push, h.ne_empty, h.ne_dot, h.ne_dotdot]

theorem foldl_push_of_isName {l : List String} (h : ∀ name ∈ l, IsName name) (out : List String) :
    l.foldl (push false) out = out ++ l := by
  induction l generalizing out with
  | nil => simp
  | cons name l ih =>
    rw [List.foldl_cons, push_of_isName (h name List.mem_cons_self),
      ih fun n hn => h n (List.mem_cons_of_mem _ hn), List.append_assoc, List.singleton_append]

theorem segments_empty : segments "" = [""] := by decide

theorem segments_intercalate_of_noSlash {l : List String} (h : ∀ name ∈ l, '/' ∉ name.toList)
    (hl : l ≠ []) : segments ("/".intercalate l) = l := by
  have hslash : ∀ cs ∈ l.map String.toList, '/' ∉ cs := by
    intro cs hcs
    obtain ⟨name, hname, rfl⟩ := List.mem_map.1 hcs
    exact h name hname
  rw [segments, String.toList_intercalate]
  have hsep : "/".toList = ['/'] := rfl
  rw [hsep, List.splitOn_intercalate '/' hslash (by simpa using hl), List.map_map]
  simp [Function.comp_def]

theorem segments_intercalate {l : List String} (h : ∀ name ∈ l, IsName name) (hl : l ≠ []) :
    segments ("/".intercalate l) = l :=
  segments_intercalate_of_noSlash (fun name hname => (h name hname).noSlash) hl

/-- A name list is read back. -/
theorem names_intercalate {l : List String} (h : ∀ name ∈ l, IsName name) :
    names ("/".intercalate l) = l := by
  by_cases hl : l = []
  · subst hl
    decide
  · rw [names, normalizeSegments, segments_intercalate h hl, foldl_push_of_isName h]
    rfl

/-- Going on from a directory. -/
theorem names_append (a b : String) :
    names (a ++ "/" ++ b) = (segments b).foldl (push false) (names a) := by
  rw [names, normalizeSegments, segments_append, List.foldl_append]
  rfl

theorem names_slash_append (path : String) : names ("/" ++ path) = names path := by
  have h := names_append "" path
  have hroot : names "" = [] := by decide
  rw [hroot, String.empty_append] at h
  exact h

theorem names_append_slash (path : String) : names (path ++ "/") = names path := by
  have h := names_append path ""
  rw [segments_empty, String.append_empty] at h
  exact h

theorem names_normalize {path : String} (h : isAbsolute path = true) :
    names (normalize path) = names path := by
  have hread : names ("/".intercalate (names path)) = names path :=
    names_intercalate fun _ hname => isName_of_mem_names hname
  have hne : path ≠ "" := by
    rintro rfl
    cases h
  have habs : normalizeSegments false path = names path := rfl
  unfold normalize
  simp only [hne, h, Bool.not_true, habs, if_true, if_false]
  split
  · rename_i hempty
    rw [hempty] at hread
    rw [← hread]
    decide
  · rw [names_slash_append]
    split
    · rw [names_append_slash, hread]
    · exact hread

theorem isAbsolute_append {a : String} (h : isAbsolute a = true) (b : String) :
    isAbsolute (a ++ b) = true := by
  unfold isAbsolute at h ⊢
  simp only [decide_eq_true_eq, String.toList_append] at h ⊢
  rw [List.head?_append, h]
  rfl

theorem names_join {dir : String} (hdir : isAbsolute dir = true) {path : String}
    (hpath : path ≠ "") :
    names (join dir path) = (segments path).foldl (push false) (names dir) := by
  have hne : dir ≠ "" := by
    rintro rfl
    cases hdir
  rw [join, if_neg hne, if_neg hpath,
    names_normalize (isAbsolute_append (isAbsolute_append hdir "/") path), names_append]

/-- A name in a directory. -/
theorem names_join_of_isName {dir : String} (hdir : isAbsolute dir = true) {name : String}
    (hname : IsName name) : names (join dir name) = names dir ++ [name] := by
  have hseg : segments name = [name] := by
    rw [segments, List.splitOn_eq_singleton hname.noSlash, List.map_singleton, String.ofList_toList]
  rw [names_join hdir hname.ne_empty, hseg]
  exact push_of_isName hname _

theorem isAbsolute_resolve (cwd path : String) : isAbsolute (resolve cwd path) = true := by
  unfold resolve
  exact isAbsolute_append (by decide) _

/-! ### Up and down -/

/-- One more segment of a relative path that has gone up some levels and then down some names. -/
def climbStep (pos : Nat × List String) (segment : String) : Nat × List String :=
  if segment = "" ∨ segment = "." then pos
  else if segment = ".." then
    if pos.2 = [] then (pos.1 + 1, []) else (pos.1, pos.2.dropLast)
  else (pos.1, pos.2 ++ [segment])

/-- How far up a relative path goes, and where it then goes down. -/
def climb (path : String) : Nat × List String := (segments path).foldl climbStep (0, [])

theorem push_dotdot {out : List String} (h : ∀ name ∈ out, name ≠ "..") :
    push false out ".." = out.dropLast := by
  unfold push
  rw [if_neg (by decide), if_pos rfl]
  split
  · rename_i hout
    rcases hout with rfl | hlast
    · rfl
    · exact absurd rfl (h ".." (List.mem_of_getLast? hlast))
  · rfl

theorem push_climbStep {dir : List String} (hdir : ∀ name ∈ dir, name ≠ "..")
    {pos : Nat × List String} (hpos : ∀ name ∈ pos.2, name ≠ "..") (seg : String) :
    push false (dir.take (dir.length - pos.1) ++ pos.2) seg =
        dir.take (dir.length - (climbStep pos seg).1) ++ (climbStep pos seg).2 ∧
      ∀ name ∈ (climbStep pos seg).2, name ≠ ".." := by
  by_cases hskip : seg = "" ∨ seg = "."
  · simp only [push, climbStep, if_pos hskip]
    exact ⟨trivial, hpos⟩
  · by_cases hdots : seg = ".."
    · subst hdots
      have hnone : ∀ name ∈ dir.take (dir.length - pos.1) ++ pos.2, name ≠ ".." := by
        intro name hname
        rcases List.mem_append.1 hname with h | h
        · exact hdir name (List.take_subset _ _ h)
        · exact hpos name h
      rw [push_dotdot hnone]
      simp only [climbStep, if_neg hskip, if_true]
      by_cases hdown : pos.2 = []
      · simp only [hdown, if_true, List.append_nil]
        refine ⟨?_, fun _ h => absurd h List.not_mem_nil⟩
        rw [List.dropLast_eq_take, List.take_take, List.length_take]
        congr 1
        omega
      · simp only [hdown, if_false]
        exact ⟨List.dropLast_append_of_ne_nil hdown,
          fun name h => hpos name (List.dropLast_subset _ h)⟩
    · simp only [push, climbStep, if_neg hskip, if_neg hdots, List.append_assoc, true_and]
      intro name hname
      rcases List.mem_append.1 hname with h | h
      · exact hpos name h
      · obtain rfl := List.mem_singleton.1 h
        exact hdots

theorem foldl_push_climbStep {dir : List String} (hdir : ∀ name ∈ dir, name ≠ "..")
    (pos : Nat × List String) (hpos : ∀ name ∈ pos.2, name ≠ "..") (segs : List String) :
    segs.foldl (push false) (dir.take (dir.length - pos.1) ++ pos.2) =
      dir.take (dir.length - (segs.foldl climbStep pos).1) ++ (segs.foldl climbStep pos).2 := by
  induction segs generalizing pos with
  | nil => rfl
  | cons seg segs ih =>
    obtain ⟨hpush, hnext⟩ := push_climbStep hdir hpos seg
    rw [List.foldl_cons, List.foldl_cons, hpush, ih _ hnext]

/-- Where a relative path leads from a directory. -/
theorem names_join_climb {dir : String} (hdir : isAbsolute dir = true) {path : String}
    (hpath : path ≠ "") :
    names (join dir path) =
      (names dir).take ((names dir).length - (climb path).1) ++ (climb path).2 := by
  have hnames : ∀ name ∈ names dir, name ≠ ".." := fun _ h => (isName_of_mem_names h).ne_dotdot
  have h := foldl_push_climbStep hnames (0, []) (fun _ h => absurd h List.not_mem_nil)
    (segments path)
  simp only [Nat.sub_zero, List.take_length, List.append_nil] at h
  rw [names_join hdir hpath, h]
  rfl

/-- The path comes down into the directories that it has left, and further. -/
def StaysInside (dir path : String) : Prop :=
  (names dir).drop ((names dir).length - (climb path).1) <+: (climb path).2 ∧
    (climb path).2 ≠ (names dir).drop ((names dir).length - (climb path).1)

instance (dir path : String) : Decidable (StaysInside dir path) :=
  inferInstanceAs (Decidable (_ ∧ _))

theorem strictlyInside_join_iff {dir : String} (hdir : isAbsolute dir = true) {path : String}
    (hpath : path ≠ "") : StrictlyInside dir (join dir path) ↔ StaysInside dir path := by
  unfold StrictlyInside StaysInside
  rw [names_join_climb hdir hpath]
  generalize (names dir).length - (climb path).1 = n
  generalize (climb path).2 = down
  have hsplit : names dir = (names dir).take n ++ (names dir).drop n :=
    (List.take_append_drop ..).symm
  have hle : names dir <+: (names dir).take n ++ down ↔ (names dir).drop n <+: down := by
    conv_lhs => lhs; rw [hsplit]
    exact List.prefix_append_right_inj _
  have heq : (names dir).take n ++ down = names dir ↔ down = (names dir).drop n := by
    conv_lhs => rhs; rw [hsplit]
    exact List.append_right_inj _
  rw [hle, ne_eq, heq]

end Portfolio.Path
