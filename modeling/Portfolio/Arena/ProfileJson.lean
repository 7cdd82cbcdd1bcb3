import Portfolio.Arena.PlayerProfileService
import Portfolio.Lib.JsonReads

/-!
# Profiles and leaderboards as JSON

`SerializeProfile` and `SerializeLeaderboard` put player ids between quotes as they are. A leaderboard
is read back exactly when no id has a character that JSON escapes.
-/

namespace Portfolio.Arena
open Json (Plain Members memberText)

namespace PlayerProfileService

/-- `accuracy` is the text of `Accuracy()`, written with `std::fixed` and `std::setprecision(4)`. -/
def serializeProfile (accuracy : PlayerProfile → String) (profile : PlayerProfile) : String :=
  "\x7b" ++
  "\"player_id\":\"" ++ profile.playerId ++ "\"," ++
  "\"rating\":" ++ toString profile.rating ++ "," ++
  "\"matches\":" ++ toString profile.matches_ ++ "," ++
  "\"wins\":" ++ toString profile.wins ++ "," ++
  "\"losses\":" ++ toString profile.losses ++ "," ++
  "\"kills\":" ++ toString profile.kills ++ "," ++
  "\"deaths\":" ++ toString profile.deaths ++ "," ++
  "\"shots_fired\":" ++ toString profile.shotsFired ++ "," ++
  "\"hits_landed\":" ++ toString profile.hitsLanded ++ "," ++
  "\"damage_dealt\":" ++ toString profile.damageDealt ++ "," ++
  "\"damage_taken\":" ++ toString profile.damageTaken ++ "," ++
  "\"accuracy\":" ++ accuracy profile ++
  "\x7d"

def serializeLeaderboard (accuracy : PlayerProfile → String) (profiles : List PlayerProfile) : String :=
  "[" ++ ",".intercalate (profiles.map (serializeProfile accuracy)) ++ "]"

end PlayerProfileService

open PlayerProfileService

/-- A number with four digits after the point. -/
def IsFixed (text : String) : Prop :=
  ∃ (n : Nat) (frac : List Char), text.toList = Nat.toDigits 10 n ++ '.' :: frac ∧ frac.length = 4 ∧
    ∀ c ∈ frac, c.isDigit = true

namespace PlayerProfile

/-- Rating and counters, by their keys. -/
def stats (profile : PlayerProfile) : List (String × ℚ) :=
  [("rating", profile.rating), ("matches", profile.matches_), ("wins", profile.wins),
    ("losses", profile.losses), ("kills", profile.kills), ("deaths", profile.deaths),
    ("shots_fired", profile.shotsFired), ("hits_landed", profile.hitsLanded),
    ("damage_dealt", profile.damageDealt), ("damage_taken", profile.damageTaken)]

/-- The value has the id, rating and counters of the profile. -/
structure DescribedBy (profile : PlayerProfile) (v : Json) : Prop where
  playerId : v.member? "player_id" = some (.string profile.playerId)
  stats : ∀ stat ∈ profile.stats, v.member? stat.1 = some (.number stat.2)

end PlayerProfile

/-- The leaderboard is an array of the profiles in order, and no profile is read as something else. -/
structure Faithful (accuracy : PlayerProfile → String) (profiles : List PlayerProfile) : Prop where
  leaderboard : ∃ vs, Json.parse (serializeLeaderboard accuracy profiles) = some (.array vs) ∧
    List.Forall₂ PlayerProfile.DescribedBy profiles vs
  profile : ∀ profile ∈ profiles, ∀ v, Json.parse (serializeProfile accuracy profile) = some v →
    profile.DescribedBy v

variable {accuracy : PlayerProfile → String} {profile : PlayerProfile}

/-! ### Reading one profile -/

def profileMembers (accuracy : PlayerProfile → String) (profile : PlayerProfile) (q : ℚ) : Members :=
  ("player_id", '"' :: (profile.playerId.toList ++ ['"']), .string profile.playerId) ::
  ("rating", (toString profile.rating).toList, .number profile.rating) ::
  ("matches", (toString profile.matches_).toList, .number profile.matches_) ::
  ("wins", (toString profile.wins).toList, .number profile.wins) ::
  ("losses", (toString profile.losses).toList, .number profile.losses) ::
  ("kills", (toString profile.kills).toList, .number profile.kills) ::
  ("deaths", (toString profile.deaths).toList, .number profile.deaths) ::
  ("shots_fired", (toString profile.shotsFired).toList, .number profile.shotsFired) ::
  ("hits_landed", (toString profile.hitsLanded).toList, .number profile.hitsLanded) ::
  ("damage_dealt", (toString profile.damageDealt).toList, .number profile.damageDealt) ::
  ("damage_taken", (toString profile.damageTaken).toList, .number profile.damageTaken) ::
  ("accuracy", (accuracy profile).toList, .number q) :: []

/-- The texts of the members. -/
def profileFields (accuracy : PlayerProfile → String) (profile : PlayerProfile) : List String :=
  ["\"player_id\":\"" ++ profile.playerId ++ "\"", "\"rating\":" ++ toString profile.rating,
    "\"matches\":" ++ toString profile.matches_, "\"wins\":" ++ toString profile.wins,
    "\"losses\":" ++ toString profile.losses, "\"kills\":" ++ toString profile.kills,
    "\"deaths\":" ++ toString profile.deaths, "\"shots_fired\":" ++ toString profile.shotsFired,
    "\"hits_landed\":" ++ toString profile.hitsLanded, "\"damage_dealt\":" ++ toString profile.damageDealt,
    "\"damage_taken\":" ++ toString profile.damageTaken, "\"accuracy\":" ++ accuracy profile]

theorem serializeProfile_eq (accuracy : PlayerProfile → String) (profile : PlayerProfile) :
    serializeProfile accuracy profile = "\x7b" ++ ",".intercalate (profileFields accuracy profile) ++ "\x7d" := by
  have hsplit : ∀ s : String, "\"," ++ s = "\"" ++ ("," ++ s) := by
    intro s
    rw [← String.append_assoc]
    rfl
  -- the two sides meet only when both are written out
  generalize htext : "\x7b" ++ ",".intercalate (profileFields accuracy profile) ++ "\x7d" = text
  simp only [profileFields, String.intercalate_cons_cons, String.intercalate_singleton, String.append_assoc] at htext
  unfold serializeProfile
  simp only [String.append_assoc, hsplit]
  exact htext

theorem text_profileMembers (accuracy : PlayerProfile → String) (profile : PlayerProfile) (q : ℚ) :
    (profileMembers accuracy profile q).text = (",".intercalate (profileFields accuracy profile)).toList := by
  rw [String.toList_intercalate]
  show [','].intercalate _ = _
  simp [profileMembers, profileFields, memberText, String.toList_append]

theorem reads_nat (n : Nat) : Json.Reads (toString n).toList (.number n) := Json.reads_int n

theorem toList_braces (s : String) : ("\x7b" ++ s ++ "\x7d").toList = '\x7b' :: (s.toList ++ ['\x7d']) := by
  simp [String.toList_append]

theorem reads_profile {q : ℚ} (hq : Json.Reads (accuracy profile).toList (.number q))
    (hplain : Plain profile.playerId.toList) :
    Json.Reads (serializeProfile accuracy profile).toList (.object (profileMembers accuracy profile q).values) := by
  rw [serializeProfile_eq, toList_braces, ← text_profileMembers accuracy profile q]
  refine Json.reads_object (by simp [profileMembers]) ?_
  have hkeys : ∀ m ∈ profileMembers accuracy profile q, Plain m.1.toList := by
    simp [profileMembers, Plain]
  refine fun m hm => ⟨hkeys m hm, ?_⟩
  simp only [profileMembers, List.mem_cons, List.not_mem_nil, or_false] at hm
  rcases hm with rfl | rfl | rfl | rfl | rfl | rfl | rfl | rfl | rfl | rfl | rfl | rfl
  · exact Json.reads_string hplain
  · exact Json.reads_int profile.rating
  · exact reads_nat profile.matches_
  · exact reads_nat profile.wins
  · exact reads_nat profile.losses
  · exact reads_nat profile.kills
  · exact reads_nat profile.deaths
  · exact reads_nat profile.shotsFired
  · exact reads_nat profile.hitsLanded
  · exact reads_nat profile.damageDealt
  · exact reads_nat profile.damageTaken
  · exact hq

theorem describedBy_values (accuracy : PlayerProfile → String) (profile : PlayerProfile) (q : ℚ) :
    profile.DescribedBy (.object (profileMembers accuracy profile q).values) := by
  refine ⟨?_, ?_⟩
  · simp [profileMembers, Members.values, Json.member?]
  · simp [profileMembers, Members.values, Json.member?, PlayerProfile.stats]

theorem IsFixed.reads {text : String} (h : IsFixed text) : ∃ q, Json.Reads text.toList (.number q) := by
  obtain ⟨n, frac, htext, hlen, hfrac⟩ := h
  rw [htext]
  exact ⟨_, Json.reads_fixed n (by rintro rfl; cases hlen) hfrac⟩

theorem serializeProfile_start (accuracy : PlayerProfile → String) (profile : PlayerProfile) :
    ∃ text, serializeProfile accuracy profile =
      "\x7b" ++ ("\"player_id\":\"" ++ (profile.playerId ++ ("\"," ++ ("\"rating\":" ++ text)))) := by
  unfold serializeProfile
  simp only [String.append_assoc]
  exact ⟨_, rfl⟩

/-- A profile that is read with its own id has a plain one. -/
theorem plain_of_describedBy {fuel : Nat} {tail rest : List Char} {v : Json}
    (h : Json.parseValue fuel ((serializeProfile accuracy profile).toList ++ tail) = some (v, rest))
    (hv : profile.DescribedBy v) : Plain profile.playerId.toList := by
  obtain ⟨text, htext⟩ := serializeProfile_start accuracy profile
  have htail : (serializeProfile accuracy profile).toList ++ tail = '\x7b' :: memberText "player_id"
      ('"' :: (profile.playerId.toList ++ '"' :: ',' :: '"' :: ("rating\":".toList ++ text.toList ++ tail))) := by
    rw [htext]
    simp [memberText, String.toList_append]
  rw [htail] at h
  obtain ⟨fuel', s, rest', more, hs, rfl⟩ := Json.parseValue_first_string (by simp [Plain]) h
  have hid := Json.eq_of_member?_first hv.playerId
  rw [Json.string.injEq] at hid
  have hs' : s = profile.playerId.toList := by rw [hid, String.toList_ofList]
  rw [hs'] at hs
  exact Json.plain_of_scanString hs

/-! ### Leaderboards -/

theorem toList_serializeLeaderboard (accuracy : PlayerProfile → String) (profiles : List PlayerProfile) :
    (serializeLeaderboard accuracy profiles).toList =
      Json.arrayText (fun p => (serializeProfile accuracy p).toList) profiles := by
  simp [serializeLeaderboard, Json.arrayText, String.toList_append, Function.comp_def]

theorem exists_reads_profile (hacc : IsFixed (accuracy profile)) (hplain : Plain profile.playerId.toList) :
    ∃ v, Json.Reads (serializeProfile accuracy profile).toList v ∧ profile.DescribedBy v := by
  obtain ⟨q, hq⟩ := hacc.reads
  exact ⟨_, reads_profile hq hplain, describedBy_values accuracy profile q⟩

theorem faithful_of_plain {profiles : List PlayerProfile} (hacc : ∀ p ∈ profiles, IsFixed (accuracy p))
    (hplain : ∀ p ∈ profiles, Plain p.playerId.toList) : Faithful accuracy profiles := by
  refine ⟨?_, fun p hp v hv => ?_⟩
  · obtain ⟨vs, hread, hall⟩ :=
      Json.reads_arrayText fun p hp => exists_reads_profile (hacc p hp) (hplain p hp)
    refine ⟨vs, Json.parse_of_reads ?_, hall⟩
    rw [toList_serializeLeaderboard]
    exact hread
  · obtain ⟨w, hw, hdesc⟩ := exists_reads_profile (hacc p hp) (hplain p hp)
    rw [Json.parse_of_reads hw] at hv
    cases hv
    exact hdesc

theorem plain_of_faithful {profiles : List PlayerProfile} (hacc : ∀ p ∈ profiles, IsFixed (accuracy p))
    (h : Faithful accuracy profiles) : ∀ p ∈ profiles, Plain p.playerId.toList := by
  obtain ⟨vs, hparse, hall⟩ := h.leaderboard
  refine Json.forall_of_parse_arrayText (fun n p tail v rest hread hv => plain_of_describedBy hread hv)
    (fun p hp hplain => ?_) (fun p _ => ?_) (toList_serializeLeaderboard accuracy profiles) hparse hall
  · obtain ⟨v, hv, -⟩ := exists_reads_profile (hacc p hp) hplain
    exact ⟨v, hv⟩
  · refine ⟨'\x7b', ((",".intercalate (profileFields accuracy p)).toList ++ ['\x7d']), ?_, by decide, by decide⟩
    rw [serializeProfile_eq, toList_braces]

/-- Leaderboard and profiles are read back if and only if no id has a character that needs an escape. -/
theorem leaderboard_faithful_iff (accuracy : PlayerProfile → String) (profiles : List PlayerProfile)
    (hacc : ∀ p ∈ profiles, IsFixed (accuracy p)) :
    Faithful accuracy profiles ↔ ∀ p ∈ profiles, Plain p.playerId.toList :=
  ⟨plain_of_faithful hacc, faithful_of_plain hacc⟩

/-- A new player, with no shots fired. -/
def newProfile (playerId : String) : PlayerProfile :=
  { playerId, rating := 1200, matches_ := 0, wins := 0, losses := 0, kills := 0, deaths := 0, shotsFired := 0
    hitsLanded := 0, damageDealt := 0, damageTaken := 0 }

theorem isFixed_zero : IsFixed "0.0000" := by
  have hdigits : ['0', '0', '0', '0'].all Char.isDigit = true := rfl
  exact ⟨0, ['0', '0', '0', '0'], rfl, rfl, List.all_eq_true.1 hdigits⟩

theorem leaderboard_faithful_alice :
    Faithful (fun _ => "0.0000") [newProfile "alice"] ↔ ∀ p ∈ [newProfile "alice"], Plain p.playerId.toList :=
  leaderboard_faithful_iff _ _ fun _ _ => isFixed_zero

/-- The id is read as another one, `ab`. -/
theorem escaped_id_reads_as_other :
    ((Json.parse (serializeProfile (fun _ => "0.0000") (newProfile "a\\u0062"))).bind
      (Json.member? "player_id")).bind Json.text? = some "ab" ∧
    ¬ Faithful (fun _ => "0.0000") [newProfile "a\\u0062"] := by
  have hlist : (serializeProfile (fun _ => "0.0000") (newProfile "a\\u0062")).toList =
      '\x7b' :: ((profileMembers (fun _ => "0.0000") (newProfile "a\\u0062") 0).text ++ ['\x7d']) := by
    rw [serializeProfile_eq, toList_braces, text_profileMembers]
  refine ⟨by rw [Json.parse, hlist]; decide +kernel, fun h => ?_⟩
  have hplain := plain_of_faithful (fun _ _ => isFixed_zero) h _ List.mem_cons_self
  exact (hplain '\\' (by decide)).2.1 rfl

end Portfolio.Arena
