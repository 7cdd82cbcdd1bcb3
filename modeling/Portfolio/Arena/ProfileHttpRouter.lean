import Portfolio.Arena.ProfileJson
import Portfolio.Arena.TopProfiles

/-!
# `ProfileHttpRouter`

The HTTP side of the profile service: `/leaderboard` with its `limit`, and `/profiles/` with an id. What
they answer is said of the service after any matches: the leaderboard has the best of the players that
have won or lost, as `/profiles/` has them, and a profile has the sums over its matches.

The version, `keep_alive` and `prepare_payload` of a response are left out. The metrics are the text that
`metrics_provider_` gives.
-/

namespace Portfolio.Arena
open Std PlayerProfileService

inductive Verb where
  | get
  | other
  deriving DecidableEq, Repr

inductive HttpStatus where
  | ok
  | notFound
  | methodNotAllowed
  | serviceUnavailable
  deriving DecidableEq, Repr

structure HttpResponse where
  result : HttpStatus
  contentType : String
  body : String
  deriving DecidableEq, Repr

structure ProfileHttpRouter (β : Type) where
  metricsProvider : Option String
  profileService : Option (PlayerProfileService β)

/-- What follows the first place of `pattern` in a text. -/
def afterFirst (pattern : List Char) : List Char → Option (List Char)
  | [] => none
  | c :: cs => if pattern <+: c :: cs then some ((c :: cs).drop pattern.length) else afterFirst pattern cs

namespace ProfileHttpRouter

def limitPrefix : List Char := "limit=".toList

/-- `std::stoul` throws from `2 ^ 64` on. -/
def parseLimit (query : List Char) : Nat :=
  match afterFirst limitPrefix query with
  | none => 10
  | some rest =>
    let digits := rest.takeWhile Char.isDigit
    if digits = [] then 10
    else
      let parsed := Nat.ofDigitChars 10 digits 0
      if 2 ^ 64 ≤ parsed then 10 else if parsed = 0 then 1 else min 50 parsed

/-- What follows the first `?`. -/
def queryOf (target : List Char) : List Char := (target.dropWhile (· ≠ '?')).drop 1

def unavailable : HttpResponse := ⟨.serviceUnavailable, "application/json", "\x7b\"error\":\"profiles unavailable\"\x7d"⟩

def profileNotFound : HttpResponse := ⟨.notFound, "application/json", "\x7b\"error\":\"not found\"\x7d"⟩

variable {β : Type} [LeaderboardReads β] (accuracy : PlayerProfile → String) (router : ProfileHttpRouter β)

def handleMetrics : HttpResponse := ⟨.ok, "text/plain; version=0.0.4", router.metricsProvider.getD ""⟩

def handleProfile (playerId : String) : HttpResponse :=
  match router.profileService with
  | none => unavailable
  | some service => match service.getProfile playerId with
    | none => profileNotFound
    | some profile => ⟨.ok, "application/json", serializeProfile accuracy profile⟩

def handleLeaderboard (limit : Nat) : HttpResponse :=
  match router.profileService with
  | none => unavailable
  | some service => ⟨.ok, "application/json", serializeLeaderboard accuracy (service.topProfiles limit)⟩

def handle (method : Verb) (target : String) : HttpResponse :=
  if method ≠ .get then ⟨.methodNotAllowed, "text/plain", "Method Not Allowed"⟩
  else if target = "/metrics" then router.handleMetrics
  else if "/profiles/".toList <+: target.toList then
    let remainder := (target.toList.drop "/profiles/".length).takeWhile (· ≠ '?')
    if remainder = [] then profileNotFound else router.handleProfile accuracy (String.ofList remainder)
  else if "/leaderboard".toList <+: target.toList then
    router.handleLeaderboard accuracy (parseLimit (queryOf target.toList))
  else ⟨.notFound, "text/plain", "Not Found"⟩

/-! ### The limit -/

theorem parseLimit_mem (query : List Char) : 1 ≤ parseLimit query ∧ parseLimit query ≤ 50 := by
  unfold parseLimit
  cases afterFirst limitPrefix query with
  | none => decide
  | some rest =>
    dsimp only
    split
    · decide
    · split
      · decide
      · split <;> omega

/-- `before` has no earlier place of the pattern. -/
def FirstAfter (pattern before : List Char) : Prop :=
  ∀ pre post, before ++ pattern = pre ++ pattern ++ post → post = []

theorem afterFirst_append {pattern before : List Char} (h : FirstAfter pattern before) (hne : pattern ≠ [])
    (rest : List Char) : afterFirst pattern (before ++ pattern ++ rest) = some rest := by
  induction before with
  | nil =>
    cases pattern with
    | nil => exact absurd rfl hne
    | cons c pattern => simp [afterFirst]
  | cons c before ih =>
    have hnot : ¬ pattern <+: c :: (before ++ pattern ++ rest) := by
      intro hp
      have hlong : pattern <+: c :: before ++ pattern := by
        refine List.prefix_of_prefix_length_le hp ⟨rest, by simp⟩ ?_
        rw [List.length_append]
        exact Nat.le_add_left ..
      obtain ⟨post, hpost⟩ := hlong
      have hnil := h [] post hpost.symm
      have hlength := congrArg List.length hpost
      rw [hnil, List.append_nil, List.length_append, List.length_cons] at hlength
      omega
    rw [List.cons_append, List.cons_append, afterFirst, if_neg hnot]
    refine ih fun pre post heq => h (c :: pre) post ?_
    rw [List.cons_append, heq]
    rfl

/-- The number after the first `limit=` is the limit, but for zero and for more than 50. -/
theorem parseLimit_number {before after : List Char} {n : Nat} (hfirst : FirstAfter limitPrefix before)
    (hafter : ∀ c ∈ after.head?, c.isDigit = false) (hn : n < 2 ^ 64) :
    parseLimit (before ++ limitPrefix ++ ((toString n).toList ++ after)) = max 1 (min 50 n) := by
  have htext : (toString n).toList = Nat.toDigits 10 n := Nat.toList_repr
  have hdigits : ((toString n).toList ++ after).takeWhile Char.isDigit = Nat.toDigits 10 n := by
    rw [htext, takeWhile_isDigit_toDigits n hafter]
  rw [parseLimit, afterFirst_append hfirst (by decide)]
  dsimp only
  rw [hdigits, if_neg Nat.toDigits_ne_nil, Nat.ofDigitChars_ten_toDigits, if_neg (by omega)]
  split <;> omega

end ProfileHttpRouter

/-! ### Profiles are sums -/

/-- What the matches reported of a player. -/
def statsFor (results : List MatchResult) (p : String) : List PlayerMatchStats :=
  (results.flatMap (·.playerStats)).filter (·.playerId = p)

/-- The counters of a player are the sums over the matches. -/
structure SumsUp (results : List MatchResult) (p : String) (a : AggregateStats) : Prop where
  matches_ : a.matches_ = (statsFor results p).length
  wins : a.wins = results.countP (·.winnerId = p)
  losses : a.losses = results.countP (·.loserId = p)
  kills : a.kills = ((statsFor results p).map (·.kills)).sum
  deaths : a.deaths = ((statsFor results p).map (·.deaths)).sum
  shotsFired : a.shotsFired = ((statsFor results p).map (·.shotsFired)).sum
  hitsLanded : a.hitsLanded = ((statsFor results p).map (·.hitsLanded)).sum
  damageDealt : a.damageDealt = ((statsFor results p).map (·.damageDealt)).sum
  damageTaken : a.damageTaken = ((statsFor results p).map (·.damageTaken)).sum

theorem foldl_addStats (l : List PlayerMatchStats) (a : AggregateStats) :
    l.foldl (fun a s => addStats s a) a =
      { a with
        matches_ := a.matches_ + l.length
        shotsFired := a.shotsFired + (l.map (·.shotsFired)).sum
        hitsLanded := a.hitsLanded + (l.map (·.hitsLanded)).sum
        damageDealt := a.damageDealt + (l.map (·.damageDealt)).sum
        damageTaken := a.damageTaken + (l.map (·.damageTaken)).sum
        kills := a.kills + (l.map (·.kills)).sum
        deaths := a.deaths + (l.map (·.deaths)).sum } := by
  induction l generalizing a with
  | nil => rfl
  | cons s l ih =>
    rw [List.foldl_cons, ih]
    simp only [addStats, List.map_cons, List.sum_cons, List.length_cons, Nat.add_assoc, Nat.add_comm 1]

/-- A match adds what it reports of the player, a win and a loss, and may change the rating. -/
theorem lookupD_recordMatch {β : Type} [LeaderboardStore β] (update : Int → Int → EloRatingUpdate)
    (service : PlayerProfileService β) (result : MatchResult) (p : String) :
    ∃ rating, lookupD noStats (service.recordMatch update result).aggregates p =
      let a := (result.playerStats.filter (·.playerId = p)).foldl (fun a s => addStats s a)
        (lookupD noStats service.aggregates p)
      { a with
        wins := a.wins + if result.winnerId = p then 1 else 0
        losses := a.losses + if result.loserId = p then 1 else 0
        rating := rating } := by
  have hadd : lookupD noStats (addMatch service.aggregates result.playerStats) p =
      (result.playerStats.filter (·.playerId = p)).foldl (fun a s => addStats s a)
        (lookupD noStats service.aggregates p) := lookupD_foldl ..
  unfold recordMatch
  simp only [lookupD_alterD, hadd]
  by_cases hw : result.winnerId = p
  · by_cases hl : result.loserId = p
    · simp only [hw, hl, if_true]
      exact ⟨_, rfl⟩
    · simp only [hw, hl, if_true, if_false]
      exact ⟨_, rfl⟩
  · by_cases hl : result.loserId = p
    · simp only [hw, hl, if_true, if_false]
      exact ⟨_, rfl⟩
    · simp only [hw, hl, if_false]
      exact ⟨_, rfl⟩

theorem SumsUp.recordMatch {β : Type} [LeaderboardStore β] {update : Int → Int → EloRatingUpdate}
    {results : List MatchResult} {service : PlayerProfileService β} {p : String}
    (h : SumsUp results p (lookupD noStats service.aggregates p)) (result : MatchResult) :
    SumsUp (results ++ [result]) p (lookupD noStats (service.recordMatch update result).aggregates p) := by
  obtain ⟨rating, heq⟩ := lookupD_recordMatch update service result p
  have hstats : statsFor (results ++ [result]) p =
      statsFor results p ++ result.playerStats.filter (·.playerId = p) := by
    simp [statsFor]
  rw [heq, foldl_addStats]
  constructor
  · rw [hstats, List.length_append, ← h.matches_]
  · simp only [List.countP_append, ← h.wins, List.countP_singleton, decide_eq_true_eq]
  · simp only [List.countP_append, ← h.losses, List.countP_singleton, decide_eq_true_eq]
  · rw [hstats, List.map_append, List.sum_append, ← h.kills]
  · rw [hstats, List.map_append, List.sum_append, ← h.deaths]
  · rw [hstats, List.map_append, List.sum_append, ← h.shotsFired]
  · rw [hstats, List.map_append, List.sum_append, ← h.hitsLanded]
  · rw [hstats, List.map_append, List.sum_append, ← h.damageDealt]
  · rw [hstats, List.map_append, List.sum_append, ← h.damageTaken]

theorem sumsUp_recorded (update : Int → Int → EloRatingUpdate) (results : List MatchResult) (p : String) :
    SumsUp results p (lookupD noStats (recorded update (some {}) results).aggregates p) := by
  induction results using List.reverseRecOn with
  | nil => exact ⟨rfl, rfl, rfl, rfl, rfl, rfl, rfl, rfl, rfl⟩
  | append_singleton results result ih =>
    rw [recorded, List.foldl_concat]
    exact ih.recordMatch result

/-! ### What is served -/

/-- `profiles` is the leaderboard of at most `limit` places after `results`. -/
structure IsBoard (results : List MatchResult) (service : PlayerProfileService InMemoryLeaderboardStore)
    (limit : Nat) (profiles : List PlayerProfile) : Prop where
  limit_mem : 1 ≤ limit ∧ limit ≤ 50
  length_le : profiles.length ≤ limit
  ranked : profiles.Pairwise fun p q => rankedBefore PlayerProfile.playerId PlayerProfile.rating p q = true
  served : ∀ p ∈ profiles, Rated results p.playerId ∧ service.getProfile p.playerId = some p
  best : ∀ id, Rated results id → ∃ p, service.getProfile id = some p ∧ (p ∈ profiles ∨
    (profiles.length = limit ∧ ∀ q ∈ profiles, rankedBefore PlayerProfile.playerId PlayerProfile.rating q p = true))

theorem getProfile_of_mem {service : PlayerProfileService InMemoryLeaderboardStore} {id : String}
    {a : AggregateStats} (h : (id, a) ∈ service.aggregates.toList) :
    service.getProfile id = some (buildProfileUnsafe id a) := by
  rw [getProfile, TreeMap.mem_toList_iff_getElem?_eq_some.1 h]
  rfl

theorem isBoard_topProfiles {results : List MatchResult} {service : PlayerProfileService InMemoryLeaderboardStore}
    {board : InMemoryLeaderboardStore} (h : Follows results service.aggregates board)
    (hboard : service.leaderboard = some board) {limit : Nat} (hlimit : 1 ≤ limit ∧ limit ≤ 50) :
    IsBoard results service limit (service.topProfiles limit) := by
  rw [h.topProfiles_eq hboard]
  have hsorted : ((ranking service.aggregates).filter fun kv => Rated results kv.1).Pairwise
      fun kv kv' => rankedBefore (·.1) (·.2.rating) kv kv' = true :=
    (pairwise_rankSort _ _ (pairwise_toList service.aggregates)).filter _
  have hmem : ∀ kv ∈ (ranking service.aggregates).filter fun kv => Rated results kv.1,
      Rated results kv.1 ∧ kv ∈ service.aggregates.toList := by
    intro kv hkv
    obtain ⟨hranking, hrated⟩ := List.mem_filter.1 hkv
    exact ⟨of_decide_eq_true hrated, (mem_rankSort _ _).1 hranking⟩
  refine ⟨hlimit, ?_, ?_, ?_, ?_⟩
  · rw [List.length_map]
    exact List.length_take_le ..
  · exact List.pairwise_map.2 (hsorted.sublist (List.take_sublist ..))
  · intro p hp
    obtain ⟨kv, hkv, rfl⟩ := List.mem_map.1 hp
    obtain ⟨hrated, hentry⟩ := hmem kv (List.mem_of_mem_take hkv)
    exact ⟨hrated, getProfile_of_mem hentry⟩
  · intro id hid
    obtain ⟨a, ha⟩ := TreeMap.mem_iff_isSome_getElem?.trans Option.isSome_iff_exists |>.1
      ((h.known id).2 (.inl hid))
    have hentry : (id, a) ∈ service.aggregates.toList := TreeMap.mem_toList_iff_getElem?_eq_some.2 ha
    have hlisted : (id, a) ∈ (ranking service.aggregates).filter fun kv => Rated results kv.1 :=
      List.mem_filter.2 ⟨(mem_rankSort _ _).2 hentry, decide_eq_true hid⟩
    refine ⟨buildProfileUnsafe id a, getProfile_of_mem hentry, ?_⟩
    rw [← List.take_append_drop limit ((ranking service.aggregates).filter _)] at hlisted hsorted
    rcases List.mem_append.1 hlisted with htake | hdrop
    · exact .inl (List.mem_map.2 ⟨_, htake, rfl⟩)
    · -- Behind the places: they are all taken, by players that rank before.
      refine .inr ⟨?_, fun q hq => ?_⟩
      · have hlong := List.length_pos_of_mem hdrop
        rw [List.length_drop] at hlong
        rw [List.length_map, List.length_take]
        omega
      · obtain ⟨kv, hkv, rfl⟩ := List.mem_map.1 hq
        exact (List.pairwise_append.1 hsorted).2.2 kv hkv _ hdrop

namespace ProfileHttpRouter

/-- The router of the server after `results`. -/
def after (metricsProvider : Option String) (update : Int → Int → EloRatingUpdate) (results : List MatchResult) :
    ProfileHttpRouter InMemoryLeaderboardStore :=
  ⟨metricsProvider, some (recorded update (some {}) results)⟩

variable (accuracy : PlayerProfile → String) (metricsProvider : Option String)
  (update : Int → Int → EloRatingUpdate) (results : List MatchResult)

theorem firstAfter_nil (pattern : List Char) : FirstAfter pattern [] := by
  intro pre post heq
  have hlength := congrArg List.length heq
  rw [List.nil_append, List.length_append, List.length_append] at hlength
  exact List.length_eq_zero_iff.1 (by omega)

/-- The accuracy of those that hit with every shot, or never shot. -/
def allHit (profile : PlayerProfile) : String := if profile.shotsFired = 0 then "0.0000" else "1.0000"

/-- `/profiles/` with the id of a player of some match is answered with the sums over the matches, and
with any other id as not found. -/
theorem profile_served {id suffix : String} (hid : id ≠ "") (hmark : '?' ∉ id.toList)
    (hsuffix : ∀ c ∈ suffix.toList.head?, c = '?') :
    ((Rated results id ∨ Listed results id) → ∃ a, SumsUp results id a ∧
      (after metricsProvider update results).handle accuracy .get ("/profiles/" ++ id ++ suffix) =
        ⟨.ok, "application/json", serializeProfile accuracy (buildProfileUnsafe id a)⟩) ∧
    (¬ (Rated results id ∨ Listed results id) →
      (after metricsProvider update results).handle accuracy .get ("/profiles/" ++ id ++ suffix) = profileNotFound) := by
  obtain ⟨board, -, hfollows⟩ := follows_recorded update results
  have hsums := sumsUp_recorded update results id
  have htarget : ("/profiles/" ++ id ++ suffix).toList = "/profiles/".toList ++ (id.toList ++ suffix.toList) := by
    simp
  have hremainder : (("/profiles/" ++ id ++ suffix).toList.drop "/profiles/".length).takeWhile (· ≠ '?') =
      id.toList := by
    have hpos : ∀ c ∈ id.toList, decide (c ≠ '?') = true := fun c hc => decide_eq_true fun heq => hmark (heq ▸ hc)
    rw [htarget, List.drop_left' (by decide), List.takeWhile_append_of_pos hpos]
    cases hs : suffix.toList with
    | nil => simp
    | cons c cs =>
      have hc := hsuffix c (by rw [hs]; rfl)
      simp [hc]
  have hmetrics : "/profiles/" ++ id ++ suffix ≠ "/metrics" := by
    intro heq
    have hlist := congrArg String.toList heq
    rw [htarget] at hlist
    simp at hlist
  have hhandle : (after metricsProvider update results).handle accuracy .get ("/profiles/" ++ id ++ suffix) =
      (after metricsProvider update results).handleProfile accuracy id := by
    have hne : id.toList ≠ [] := by
      intro hnil
      have hempty := congrArg String.ofList hnil
      rw [String.ofList_toList] at hempty
      exact hid hempty
    rw [handle, if_neg (not_not.2 rfl), if_neg hmetrics, if_pos ⟨_, htarget.symm⟩]
    dsimp only
    rw [hremainder, if_neg hne, String.ofList_toList]
  have hknown := hfollows.known id
  rw [hhandle]
  constructor
  · intro h
    obtain ⟨a, ha⟩ := TreeMap.mem_iff_isSome_getElem?.trans Option.isSome_iff_exists |>.1 (hknown.2 h)
    have hlookup : lookupD noStats (recorded update (some {}) results).aggregates id = a := by
      rw [lookupD, ha]
      rfl
    refine ⟨a, hlookup ▸ hsums, ?_⟩
    simp only [handleProfile, after, getProfile, ha, Option.map_some]
  · intro h
    have hnone : (recorded update (some {}) results).aggregates[id]? = none := by
      rw [← Option.not_isSome_iff_eq_none, ← TreeMap.mem_iff_isSome_getElem?, hknown]
      exact h
    simp only [handleProfile, after, getProfile, hnone, Option.map_none]

theorem profile_served_bystander : ∃ a, SumsUp [threeInSession] "c" a ∧
    (after none (fun w l => ⟨w + 13, l - 12⟩) [threeInSession]).handle allHit .get ("/profiles/" ++ "c" ++ "?full") =
      ⟨.ok, "application/json", serializeProfile allHit (buildProfileUnsafe "c" a)⟩ :=
  have hsuffix : ∀ c ∈ "?full".toList.head?, c = '?' := fun _ hc => (Option.some.inj hc).symm
  (profile_served allHit none (fun w l => ⟨w + 13, l - 12⟩) [threeInSession] (by decide) (by decide) hsuffix).1
    (.inr (by decide))

end ProfileHttpRouter

end Portfolio.Arena
