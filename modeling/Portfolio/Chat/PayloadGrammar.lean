import Portfolio.Chat.Payload
import Portfolio.Lib.Reader

/-!
# What `parse_json_object` accepts

The grammar of the payloads that the protocol asks for, `object`, and the three ways in which the parser
accepts more: an object may end before its closing brace, a comma may stand before the brace, and any
text may follow it. `stop` is the place where the loop ends, with which acceptance is decided.
-/

namespace Portfolio.Chat
open Std
open scoped Computability

/-! ### The grammar -/

/-- White space. -/
def space : Language Char := {t | ∀ c ∈ t, isSpace c = true}

def plain : Language Char := {t | ∃ c, c ≠ '"' ∧ c ≠ '\\' ∧ t = [c]}

def escape : Language Char := {t | ∃ c, (unescape c).isSome = true ∧ t = ['\\', c]}

/-- A string in quotes: any characters but quotes and backslashes, and the eight escapes. -/
def text : Language Char := {['"']} * (plain + escape)∗ * {['"']}

def member : Language Char := text * space * {[':']} * space * text

def members : Language Char := member * (space * {[',']} * space * member)∗

/-- The text up to the first member or the closing brace. -/
def opened : Language Char := space * {['\x7b']} * space

/-- The text up to what follows a member. -/
def filled : Language Char := opened * members * space

/-- A payload. -/
def object : Language Char := (opened + filled) * {['\x7d']} * space

/-- An object without its closing brace. -/
def unclosed : Language Char := filled

/-- An object with a comma before its closing brace, and any text behind it. -/
def danglingComma : Language Char := filled * {[',']} * space * {['\x7d']} * ⊤

/-- An object with more than white space behind it. -/
def trailingText : Language Char := (opened + filled) * {['\x7d']} * (⊤ - space)

/-! ### Where the loop stops -/

namespace Parse

/-- The state in which the loop stops and the text from there, without the white space before it. -/
def stop (p : Parse) (input : List Char) : Parse × List Char :=
  match _hskip : skipWs input with
  | [] => (p, [])
  | ch :: rest => match _hpass : p.pass (ch :: rest) with
    | .next p' rest' => stop p' rest'
    | .done _ _ => (p, ch :: rest)
termination_by input.length
decreasing_by
  have hlt := length_pass _hpass
  have hle : (skipWs input).length ≤ input.length := (List.dropWhile_sublist _).length_le
  rw [_hskip] at hle
  omega

theorem stop_eq (p : Parse) (input : List Char) :
    p.stop input = match skipWs input with
      | [] => (p, [])
      | ch :: rest => match p.pass (ch :: rest) with
        | .next p' rest' => p'.stop rest'
        | .done _ _ => (p, ch :: rest) := by
  rw [stop]
  split
  · rename_i hskip
    rw [hskip]
  · rename_i ch rest hskip
    rw [hskip]
    dsimp only
    split
    · rename_i hpass
      rw [hpass]
    · rename_i hpass
      rw [hpass]

/-- What the function answers where its loop stops. -/
def verdict (p : Parse) : List Char → Bool
  | [] => decide (p.state = .expectCommaOrEnd)
  | ch :: rest => match p.pass (ch :: rest) with
    | .next _ _ => false
    | .done ok _ => ok

theorem run_eq_verdict (p : Parse) (input : List Char) :
    (p.run input).1 = verdict (p.stop input).1 (p.stop input).2 := by
  fun_induction stop p input with
  | case1 p input hskip =>
    unfold run
    rw [loop, hskip]
    rfl
  | case2 p input ch rest hskip p' rest' hpass ih =>
    have hlt := length_pass hpass
    have hle : (skipWs input).length ≤ input.length := (List.dropWhile_sublist _).length_le
    rw [hskip] at hle
    rw [← ih, run, loop, hskip]
    dsimp only
    rw [hpass]
    exact congrArg Prod.fst (loop_eq_run (by omega))
  | case3 p input ch rest hskip ok result hpass =>
    unfold run
    rw [loop, hskip]
    unfold verdict
    dsimp only
    rw [hpass]

theorem stop_of_nil {p : Parse} {input : List Char} (hskip : skipWs input = []) : p.stop input = (p, []) := by
  rw [stop_eq, hskip]

theorem skipWs_of_not_space {ch : Char} (h : isSpace ch = false) (input : List Char) :
    skipWs (ch :: input) = ch :: input :=
  List.dropWhile_cons_of_neg (by simp [h])

theorem stop_of_done {p : Parse} {ch : Char} {input : List Char} {ok : Bool} {result : TreeMap String String}
    (hch : isSpace ch = false) (hpass : p.pass (ch :: input) = .done ok result) :
    p.stop (ch :: input) = (p, ch :: input) := by
  rw [stop_eq, skipWs_of_not_space hch]
  dsimp only
  rw [hpass]

theorem stop_of_next {p p' : Parse} {ch : Char} {input rest : List Char} (hch : isSpace ch = false)
    (hpass : p.pass (ch :: input) = .next p' rest) : p.stop (ch :: input) = p'.stop rest := by
  rw [stop_eq, skipWs_of_not_space hch]
  dsimp only
  rw [hpass]

/-! ### Words that the parser takes -/

theorem scanString_plain {t : List Char} (ht : t ∈ plain) :
    ∃ ch, ∀ input, scanString (t ++ input) = (scanString input).map fun r => (ch :: r.1, r.2) := by
  obtain ⟨ch, hquote, hslash, rfl⟩ := ht
  exact ⟨ch, scanString_of_ne hquote hslash⟩

theorem scanString_escape' {t : List Char} (ht : t ∈ escape) :
    ∃ ch, ∀ input, scanString (t ++ input) = (scanString input).map fun r => (ch :: r.1, r.2) := by
  obtain ⟨esc, hesc, rfl⟩ := ht
  obtain ⟨ch, hch⟩ := Option.isSome_iff_exists.1 hesc
  refine ⟨ch, fun input => ?_⟩
  show scanString ('\\' :: esc :: input) = _
  rw [scanString, hch]

theorem scanString_body {t : List Char} (ht : t ∈ (plain + escape)∗) :
    ∃ value, ∀ rest, scanString (t ++ '"' :: rest) = some (value, rest) := by
  obtain ⟨words, rfl, hwords⟩ := Language.mem_kstar.1 ht
  clear ht
  induction words with
  | nil => exact ⟨[], fun rest => rfl⟩
  | cons word words ih =>
    obtain ⟨value, hvalue⟩ := ih fun w hw => hwords w (List.mem_cons_of_mem word hw)
    have hword : ∃ ch, ∀ input, scanString (word ++ input) =
        (scanString input).map fun r => (ch :: r.1, r.2) := by
      rcases (Language.mem_add plain escape word).1 (hwords word List.mem_cons_self) with h | h
      · exact scanString_plain h
      · exact scanString_escape' h
    obtain ⟨ch, hch⟩ := hword
    refine ⟨ch :: value, fun rest => ?_⟩
    rw [List.flatten_cons, List.append_assoc, hch, hvalue]
    rfl

theorem parseString_text {t : List Char} (ht : t ∈ text) :
    ∃ value t', t = '"' :: t' ∧ ∀ rest, parseString ('"' :: (t' ++ rest)) = some (value, rest) := by
  obtain ⟨a, ha, b, hb, rfl⟩ := Language.mem_mul.1 ht
  obtain ⟨q, rfl, body, hbody, rfl⟩ := Language.mem_mul.1 ha
  obtain rfl : b = ['"'] := hb
  obtain ⟨value, hvalue⟩ := scanString_body hbody
  refine ⟨String.ofList value, body ++ ['"'], rfl, fun rest => ?_⟩
  rw [parseString, List.append_assoc, List.singleton_append, hvalue]
  rfl

theorem skipWs_append {w : List Char} (hw : w ∈ space) (rest : List Char) : skipWs (w ++ rest) = skipWs rest :=
  List.dropWhile_append_of_pos hw

theorem takes_space (φ : Parse → Prop) : Takes stop φ space φ := by
  intro p hp w hw rest
  exact ⟨p, hp, by rw [stop_eq, stop_eq p rest, skipWs_append hw]⟩

theorem takes_char {φ ψ : Parse → Prop} {ch : Char} (hch : isSpace ch = false)
    (h : ∀ p, φ p → ∃ p', ψ p' ∧ ∀ rest, p.pass (ch :: rest) = .next p' rest) :
    Takes stop φ {[ch]} ψ := by
  rintro p hp x rfl rest
  obtain ⟨p', hp', hpass⟩ := h p hp
  exact ⟨p', hp', stop_of_next hch (hpass rest)⟩

theorem takes_text {φ ψ : Parse → Prop}
    (h : ∀ p, φ p → ∀ value, ∃ p', ψ p' ∧ ∀ input rest, parseString ('"' :: input) = some (value, rest) →
      p.pass ('"' :: input) = .next p' rest) : Takes stop φ text ψ := by
  intro p hp x hx rest
  obtain ⟨value, t, rfl, hparse⟩ := parseString_text hx
  obtain ⟨p', hp', hpass⟩ := h p hp value
  exact ⟨p', hp', stop_of_next rfl (hpass _ _ (hparse rest))⟩

/-- Nothing has been read. -/
def Fresh (p : Parse) : Prop := p.state = .expectObjectStart ∧ p.result.isEmpty = true

/-- An object has begun, without members so far. -/
def Opened (p : Parse) : Prop := p.state = .expectKeyOrEnd ∧ p.result.isEmpty = true

/-- A member has ended. -/
def Filled (p : Parse) : Prop := p.state = .expectCommaOrEnd ∧ p.result.isEmpty = false

/-- A comma has been read. -/
def Dangling (p : Parse) : Prop := p.state = .expectKeyOrEnd ∧ p.result.isEmpty = false

theorem takes_opened : Takes stop Fresh opened Opened := by
  refine ((takes_space _).mul (takes_char rfl fun p hp => ?_)).mul (takes_space _)
  refine ⟨{ p with state := .expectKeyOrEnd }, ⟨rfl, hp.2⟩, fun rest => ?_⟩
  unfold pass
  rw [hp.1]
  rfl

theorem takes_comma : Takes stop Filled {[',']} Dangling := by
  refine takes_char rfl fun p hp => ?_
  refine ⟨{ p with state := .expectKeyOrEnd }, ⟨rfl, hp.2⟩, fun rest => ?_⟩
  unfold pass
  rw [hp.1]
  rfl

theorem takes_member : Takes stop (·.state = .expectKeyOrEnd) member Filled := by
  have hkey : Takes stop (·.state = .expectKeyOrEnd) text (·.state = .expectColon) := by
    refine takes_text fun p hp key => ⟨{ p with state := .expectColon, key := key }, rfl, ?_⟩
    intro input rest hparse
    unfold pass
    rw [hp]
    dsimp only
    rw [hparse]
    rfl
  have hcolon : Takes stop (·.state = .expectColon) {[':']} (·.state = .expectValue) := by
    refine takes_char rfl fun p hp => ⟨{ p with state := .expectValue }, rfl, fun rest => ?_⟩
    unfold pass
    rw [hp]
    rfl
  have hvalue : Takes stop (·.state = .expectValue) text Filled := by
    refine takes_text fun p hp value => ⟨{ p with
      state := .expectCommaOrEnd, result := p.result.insert p.key value }, ⟨rfl, ?_⟩, ?_⟩
    · exact TreeMap.isEmpty_insert
    · intro input rest hparse
      unfold pass
      rw [hp]
      dsimp only
      rw [hparse]
  exact (((hkey.mul (takes_space _)).mul hcolon).mul (takes_space _)).mul hvalue

theorem takes_members : Takes stop (·.state = .expectKeyOrEnd) members Filled := by
  have hnext : Takes stop Filled (space * {[',']} * space * member) Filled :=
    (((takes_space _).mul takes_comma).mul (takes_space _)).mul (takes_member.mono (fun _ h => h.1) fun _ h => h)
  exact takes_member.mul hnext.kstar

theorem takes_filled : Takes stop Fresh filled Filled :=
  (takes_opened.mul (takes_members.mono (fun _ h => h.1) fun _ h => h)).mul (takes_space _)

/-! ### The words that were taken -/

theorem scanString_sound {input value rest : List Char} (h : scanString input = some (value, rest)) :
    ∃ body, body ∈ (plain + escape)∗ ∧ input = body ++ '"' :: rest := by
  have hcons : ∀ {t : List Char}, t ∈ plain + escape → ∀ {input : List Char},
      (∃ body, body ∈ (plain + escape)∗ ∧ input = body ++ '"' :: rest) →
        ∃ body, body ∈ (plain + escape)∗ ∧ t ++ input = body ++ '"' :: rest := by
    rintro t ht input ⟨body, hbody, rfl⟩
    refine ⟨t ++ body, mem_of_language_le mul_kstar_le_kstar (Language.append_mem_mul ht hbody), ?_⟩
    rw [List.append_assoc]
  fun_induction scanString input generalizing value with
  | case1 => cases h
  | case2 input =>
    cases h
    exact ⟨[], Language.nil_mem_kstar _, rfl⟩
  | case3 => cases h
  | case4 esc input hesc => cases h
  | case5 esc input ch hesc ih =>
    obtain ⟨r, hr, heq⟩ := Option.map_eq_some_iff.1 h
    cases heq
    exact hcons (t := ['\\', esc]) (.inr ⟨esc, by rw [hesc]; rfl, rfl⟩) (ih hr)
  | case6 ch input hquote hend hescape ih =>
    obtain ⟨r, hr, heq⟩ := Option.map_eq_some_iff.1 h
    cases heq
    refine hcons (t := [ch]) (.inl ⟨ch, hquote, ?_, rfl⟩) (ih hr)
    rintro rfl
    cases input with
    | nil => exact hend rfl rfl
    | cons esc input => exact hescape esc input rfl rfl

theorem parseString_sound {input rest : List Char} {value : String}
    (h : parseString input = some (value, rest)) : ∃ t, t ∈ text ∧ input = t ++ rest := by
  unfold parseString at h
  split at h
  · rename_i input
    obtain ⟨r, hr, heq⟩ := Option.map_eq_some_iff.1 h
    cases heq
    obtain ⟨body, hbody, rfl⟩ := scanString_sound hr
    refine ⟨['"'] ++ body ++ ['"'], ?_, by simp⟩
    exact Language.append_mem_mul (Language.append_mem_mul rfl hbody) rfl
  · cases h

theorem append_space {l : Language Char} {x w : List Char} (hx : x ∈ l * space) (hw : w ∈ space) :
    x ++ w ∈ l * space := by
  obtain ⟨a, ha, b, hb, rfl⟩ := Language.mem_mul.1 hx
  rw [List.append_assoc]
  refine Language.append_mem_mul ha fun ch hch => ?_
  rcases List.mem_append.1 hch with hch | hch
  · exact hb ch hch
  · exact hw ch hch

theorem mem_mul_space {l : Language Char} {x : List Char} (hx : x ∈ l) : x ∈ l * space := by
  rw [← List.append_nil x]
  exact Language.append_mem_mul hx fun ch hch => absurd hch List.not_mem_nil

/-- The text up to a key. -/
def keys : Language Char := opened + filled * {[',']} * space

/-- One more member is among the members. -/
theorem keys_mul_member : keys * member ≤ opened * members := by
  have hfirst : member ≤ members := le_mul_of_one_le_right' one_le_kstar
  have hnext : members * (space * {[',']} * space * member) ≤ members := by
    unfold members
    rw [mul_assoc]
    exact mul_le_mul_right kstar_mul_le_kstar _
  unfold keys filled
  rw [add_mul]
  refine add_le (mul_le_mul_right hfirst _) ?_
  calc opened * members * space * {[',']} * space * member
      = opened * (members * (space * {[',']} * space * member)) := by simp only [mul_assoc]
    _ ≤ opened * members := mul_le_mul_right hnext _

/-- The text `x` has been read when the parser is in `p`. -/
inductive Read (p : Parse) (x : List Char) : Prop
  | fresh (at_ : Fresh p) (mem : x ∈ space)
  | opened (at_ : Opened p) (mem : x ∈ Chat.opened)
  | dangling (at_ : Dangling p) (mem : x ∈ Chat.filled * {[',']} * space)
  | colon (at_ : p.state = .expectColon) (mem : x ∈ keys * text * space)
  | value (at_ : p.state = .expectValue) (mem : x ∈ keys * text * space * {[':']} * space)
  | filled (at_ : Filled p) (mem : x ∈ Chat.filled)

theorem Read.space {p : Parse} {x w : List Char} (h : Read p x) (hw : w ∈ Chat.space) : Read p (x ++ w) := by
  cases h with
  | fresh hp hx =>
    refine .fresh hp fun ch hch => ?_
    rcases List.mem_append.1 hch with hch | hch
    · exact hx ch hch
    · exact hw ch hch
  | opened hp hx => exact .opened hp (append_space hx hw)
  | dangling hp hx => exact .dangling hp (append_space hx hw)
  | colon hp hx => exact .colon hp (append_space hx hw)
  | value hp hx => exact .value hp (append_space hx hw)
  | filled hp hx => exact .filled hp (append_space hx hw)

/-- Where a key may stand, a pass goes on only behind one. -/
theorem read_key {p p' : Parse} {x input rest : List Char} (hp : p.state = .expectKeyOrEnd) (hx : x ∈ keys)
    (hpass : p.pass input = .next p' rest) : ∃ t, input = t ++ rest ∧ Read p' (x ++ t) := by
  unfold pass at hpass
  rw [hp] at hpass
  dsimp only at hpass
  split at hpass
  · cases hpass
  · split at hpass
    · cases hpass
    · rename_i hparse
      cases hpass
      obtain ⟨t, ht, rfl⟩ := parseString_sound hparse
      exact ⟨t, rfl, .colon rfl (mem_mul_space (Language.append_mem_mul hx ht))⟩

theorem Read.pass {p p' : Parse} {x input rest : List Char} (h : Read p x)
    (hpass : p.pass input = .next p' rest) : ∃ t, input = t ++ rest ∧ Read p' (x ++ t) := by
  cases h with
  | fresh hp hx =>
    unfold Parse.pass at hpass
    rw [hp.1] at hpass
    dsimp only at hpass
    split at hpass
    · cases hpass
      exact ⟨['\x7b'], rfl, .opened ⟨rfl, hp.2⟩ (mem_mul_space (Language.append_mem_mul hx rfl))⟩
    · cases hpass
  | opened hp hx => exact read_key hp.1 (.inl hx) hpass
  | dangling hp hx => exact read_key hp.1 (.inr hx) hpass
  | colon hp hx =>
    unfold Parse.pass at hpass
    rw [hp] at hpass
    dsimp only at hpass
    split at hpass
    · cases hpass
      exact ⟨[':'], rfl, .value rfl (mem_mul_space (Language.append_mem_mul hx rfl))⟩
    · cases hpass
  | value hp hx =>
    unfold Parse.pass at hpass
    rw [hp] at hpass
    dsimp only at hpass
    split at hpass
    · cases hpass
    · rename_i value hparse
      cases hpass
      obtain ⟨t, ht, rfl⟩ := parseString_sound hparse
      have hmember : x ++ t ∈ keys * member := by
        have hmem := Language.append_mem_mul hx ht
        unfold member
        simpa only [mul_assoc] using hmem
      refine ⟨t, rfl, .filled ⟨rfl, TreeMap.isEmpty_insert⟩ ?_⟩
      exact mem_mul_space (mem_of_language_le keys_mul_member hmember)
  | filled hp hx =>
    unfold Parse.pass at hpass
    rw [hp.1] at hpass
    dsimp only at hpass
    split at hpass
    · cases hpass
      exact ⟨[','], rfl, .dangling ⟨rfl, hp.2⟩ (mem_mul_space (Language.append_mem_mul hx rfl))⟩
    · cases hpass
    · cases hpass

theorem skipWs_sound (input : List Char) : ∃ w, w ∈ Chat.space ∧ input = w ++ skipWs input :=
  ⟨input.takeWhile isSpace, fun _ hch => List.mem_takeWhile_imp hch, List.takeWhile_append_dropWhile.symm⟩

/-- Where the loop stops, it has read the text before that place. -/
theorem Read.stop {p : Parse} {x : List Char} (h : Read p x) (input : List Char) :
    ∃ t, input = t ++ (p.stop input).2 ∧ Read (p.stop input).1 (x ++ t) := by
  obtain ⟨w, hw, hinput⟩ := skipWs_sound input
  fun_induction Parse.stop p input generalizing x w with
  | case1 p input hskip =>
    rw [hskip] at hinput
    exact ⟨w, hinput, h.space hw⟩
  | case2 p input ch rest hskip p' rest' hpass ih =>
    rw [hskip] at hinput
    obtain ⟨t, ht, hread⟩ := (h.space hw).pass hpass
    obtain ⟨w', hw', hrest⟩ := skipWs_sound rest'
    obtain ⟨t', ht', hstop⟩ := ih hread w' hw' hrest
    refine ⟨w ++ (t ++ t'), ?_, ?_⟩
    · rw [hinput, ht, List.append_assoc, List.append_assoc, ← ht']
    · rwa [List.append_assoc, List.append_assoc] at hstop
  | case3 p input ch rest hskip ok result hpass =>
    rw [hskip] at hinput
    exact ⟨w, hinput, h.space hw⟩

/-- A pass that accepts stands before a closing brace. -/
theorem pass_eq_done_true {p : Parse} {input : List Char} {result : TreeMap String String}
    (h : p.pass input = .done true result) :
    (p.state = .expectKeyOrEnd ∨ p.state = .expectCommaOrEnd) ∧ ∃ rest, input = '\x7d' :: rest := by
  unfold pass at h
  split at h
  · split at h <;> cases h
  · rename_i hp
    split at h
    · exact ⟨.inl hp, _, rfl⟩
    · split at h <;> cases h
  · split at h <;> cases h
  · split at h <;> cases h
  · rename_i hp
    split at h
    · cases h
    · exact ⟨.inr hp, _, rfl⟩
    · cases h

theorem pass_brace {p : Parse} (hp : p.state = .expectKeyOrEnd ∨ p.state = .expectCommaOrEnd)
    (rest : List Char) : p.pass ('\x7d' :: rest) = .done true p.result := by
  unfold pass
  rcases hp with hp | hp
  · rw [hp]
    rfl
  · rw [hp]
    rfl

/-! ### Where the words of the grammar stop -/

theorem stop_brace {p : Parse} (hp : Opened p ∨ Filled p ∨ Dangling p) (rest : List Char) :
    p.stop ('\x7d' :: rest) = (p, '\x7d' :: rest) := by
  refine stop_of_done rfl (pass_brace ?_ rest)
  rcases hp with hp | hp | hp
  · exact .inl hp.1
  · exact .inr hp.1
  · exact .inl hp.1

theorem fresh_start : Fresh {} := ⟨rfl, rfl⟩

/-- After the opening brace, or after a member. -/
theorem takes_body : Takes stop Fresh (opened + filled) fun p => Opened p ∨ Filled p :=
  (takes_opened.mono (fun _ h => h) fun _ h => .inl h).add (takes_filled.mono (fun _ h => h) fun _ h => .inr h)

theorem stop_closed {l : Language Char} {x : List Char} (hx : x ∈ (opened + filled) * {['\x7d']} * l) :
    ∃ p t, stop {} x = (p, '\x7d' :: t) ∧ (Opened p ∨ Filled p) ∧ t ∈ l := by
  obtain ⟨a, ha, t, ht, rfl⟩ := Language.mem_mul.1 hx
  obtain ⟨body, hbody, b, rfl, rfl⟩ := Language.mem_mul.1 ha
  obtain ⟨p, hp, hstop⟩ := takes_body {} fresh_start body hbody ('\x7d' :: t)
  refine ⟨p, t, ?_, hp, ht⟩
  rw [List.append_assoc, List.singleton_append, hstop]
  exact stop_brace (hp.imp_right .inl) t

theorem stop_unclosed {x : List Char} (hx : x ∈ unclosed) : ∃ p, stop {} x = (p, []) ∧ Filled p := by
  obtain ⟨p, hp, hstop⟩ := takes_filled {} fresh_start x hx []
  rw [List.append_nil] at hstop
  exact ⟨p, hstop.trans (stop_of_nil rfl), hp⟩

theorem stop_danglingComma {x : List Char} (hx : x ∈ danglingComma) :
    ∃ p t, stop {} x = (p, '\x7d' :: t) ∧ Dangling p := by
  obtain ⟨a, ha, t, -, rfl⟩ := Language.mem_mul.1 hx
  obtain ⟨body, hbody, b, rfl, rfl⟩ := Language.mem_mul.1 ha
  obtain ⟨p, hp, hstop⟩ := ((takes_filled.mul takes_comma).mul (takes_space _)) {} fresh_start body hbody
    ('\x7d' :: t)
  refine ⟨p, t, ?_, hp⟩
  rw [List.append_assoc, List.singleton_append, hstop]
  exact stop_brace (.inr (.inr hp)) t

end Parse

/-! ### Acceptance -/

open Parse

/-- The texts that the parser accepts beyond the grammar. -/
def accident : Language Char := unclosed + danglingComma + trailingText

theorem parseJsonObject_eq_verdict (payload : String) :
    (parseJsonObject payload).1 = verdict (stop {} payload.toList).1 (stop {} payload.toList).2 :=
  run_eq_verdict {} payload.toList

theorem verdict_brace {p : Parse} (hp : p.state = .expectKeyOrEnd ∨ p.state = .expectCommaOrEnd)
    (rest : List Char) : p.verdict ('\x7d' :: rest) = true := by
  unfold verdict
  dsimp only
  rw [pass_brace hp]

theorem accepted_of_mem {payload : String} (h : payload.toList ∈ object ∨ payload.toList ∈ accident) :
    (parseJsonObject payload).1 = true := by
  have hclosed : ∀ l : Language Char, payload.toList ∈ (opened + filled) * {['\x7d']} * l →
      (parseJsonObject payload).1 = true := by
    intro l hl
    obtain ⟨p, t, hstop, hp, -⟩ := stop_closed hl
    rw [parseJsonObject_eq_verdict, hstop]
    exact verdict_brace (hp.imp And.left And.left) t
  rcases h with h | (h | h) | h
  · exact hclosed space h
  · obtain ⟨p, hstop, hp⟩ := stop_unclosed h
    rw [parseJsonObject_eq_verdict, hstop]
    exact decide_eq_true hp.1
  · obtain ⟨p, t, hstop, hp⟩ := stop_danglingComma h
    rw [parseJsonObject_eq_verdict, hstop]
    exact verdict_brace (.inl hp.1) t
  · exact hclosed (⊤ - space) h

theorem verdict_cases {p : Parse} {input : List Char} (h : p.verdict input = true) :
    (p.state = .expectCommaOrEnd ∧ input = []) ∨
      ((p.state = .expectKeyOrEnd ∨ p.state = .expectCommaOrEnd) ∧ ∃ rest, input = '\x7d' :: rest) := by
  cases input with
  | nil => exact .inl ⟨of_decide_eq_true h, rfl⟩
  | cons ch input =>
    unfold verdict at h
    dsimp only at h
    split at h
    · cases h
    · rename_i hpass
      rw [h] at hpass
      exact .inr (pass_eq_done_true hpass)

theorem mem_of_accepted {payload : String} (h : (parseJsonObject payload).1 = true) :
    payload.toList ∈ object ∨ payload.toList ∈ accident := by
  have hstart : Read {} [] := .fresh fresh_start fun _ hch => absurd hch List.not_mem_nil
  obtain ⟨x, hx, hread⟩ := hstart.stop payload.toList
  rw [parseJsonObject_eq_verdict] at h
  rw [List.nil_append] at hread
  generalize (stop {} payload.toList).1 = p at h hread
  generalize (stop {} payload.toList).2 = out at h hx
  rcases verdict_cases h with ⟨hp, rfl⟩ | ⟨hp, rest, rfl⟩
  · -- the text ends behind a member
    rw [List.append_nil] at hx
    rw [hx]
    cases hread with
    | filled _ hmem => exact .inr (.inl (.inl hmem))
    | fresh hq => exact absurd (hq.1.symm.trans hp) nofun
    | opened hq => exact absurd (hq.1.symm.trans hp) nofun
    | dangling hq => exact absurd (hq.1.symm.trans hp) nofun
    | colon hq => exact absurd (hq.symm.trans hp) nofun
    | value hq => exact absurd (hq.symm.trans hp) nofun
  · have hclosed : x ∈ opened + filled → payload.toList ∈ object ∨ payload.toList ∈ accident := by
      intro hmem
      rw [hx, List.append_cons]
      have hbrace : x ++ ['\x7d'] ∈ (opened + filled) * {['\x7d']} := Language.append_mem_mul hmem rfl
      by_cases hrest : rest ∈ space
      · exact .inl (Language.append_mem_mul hbrace hrest)
      · exact .inr (.inr (Language.append_mem_mul hbrace ⟨trivial, hrest⟩))
    cases hread with
    | opened _ hmem => exact hclosed (.inl hmem)
    | filled _ hmem => exact hclosed (.inr hmem)
    | dangling _ hmem =>
      rw [hx, List.append_cons]
      exact .inr (.inl (.inr (Language.append_mem_mul (Language.append_mem_mul hmem rfl) trivial)))
    | fresh hq => rw [hq.1] at hp; exact absurd hp (by simp)
    | colon hq => rw [hq] at hp; exact absurd hp (by simp)
    | value hq => rw [hq] at hp; exact absurd hp (by simp)

/-- The accidents are no payloads: the parser stops elsewhere. -/
theorem not_mem_accident {x : List Char} (h : x ∈ object) : x ∉ accident := by
  obtain ⟨p, t, hstop, hp, ht⟩ := stop_closed h
  rintro ((hun | hcomma) | htail)
  · obtain ⟨q, hstop', -⟩ := stop_unclosed hun
    rw [hstop] at hstop'
    cases hstop'
  · obtain ⟨q, t', hstop', hq⟩ := stop_danglingComma hcomma
    rw [hstop] at hstop'
    cases hstop'
    rcases hp with hp | hp
    · exact Bool.false_ne_true (hq.2.symm.trans hp.2)
    · exact absurd (hq.1.symm.trans hp.1) nofun
  · obtain ⟨q, t', hstop', -, ht'⟩ := stop_closed htail
    rw [hstop] at hstop'
    cases hstop'
    exact ((Language.mem_sub ⊤ space t).1 ht').2 ht

/-- The parser accepts exactly the payloads of the grammar, except that it also accepts an object
without its closing brace, with a comma before it or with text after it. -/
theorem accepts_object_iff (payload : String) :
    ((parseJsonObject payload).1 = true ↔ payload.toList ∈ object) ↔ payload.toList ∉ accident := by
  constructor
  · intro hiff hmem
    exact not_mem_accident (hiff.1 (accepted_of_mem (.inr hmem))) hmem
  · intro hmem
    constructor
    · exact fun h => (mem_of_accepted h).resolve_right hmem
    · exact fun h => accepted_of_mem (.inl h)

/-- A truncated command is accepted. -/
theorem truncated_accepted :
    ¬ ((parseJsonObject "\x7b\"cmd\":\"LEAVE\",\"room\":\"a\"").1 = true ↔
      "\x7b\"cmd\":\"LEAVE\",\"room\":\"a\"".toList ∈ object) := by
  intro hiff
  have hmem := hiff.1 (by decide +kernel)
  obtain ⟨a, ha, t, -, htext⟩ := Language.mem_mul.1 hmem
  obtain ⟨body, -, b, rfl, rfl⟩ := Language.mem_mul.1 ha
  have hbrace : '\x7d' ∈ "\x7b\"cmd\":\"LEAVE\",\"room\":\"a\"".toList := by
    rw [← htext]
    simp
  revert hbrace
  decide

end Portfolio.Chat
