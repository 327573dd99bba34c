import NousCore.Lib.Runs
import NousCore.Scheduler.Cron

/-!
# When a cron field is parsed exactly

* `Token.Accepts`, `parseSegment_accepts` : what the matcher of a token accepts;
* `parseField_exact_iff` : the fields that are parsed exactly.
-/

namespace NousCore.Scheduler

/-! ## What a matcher accepts -/

def Token.Accepts (field : CronField) : Token → ℤ → Prop
  | every, _ => True
  | everyNth n, v => (n : ℤ) ∣ v - field.min
  | literal n, v => v = field.normalize n
  | range a b, v => (a : ℤ) ≤ v ∧ v ≤ b
  | rangeNth a b n, v => (a : ℤ) ≤ v ∧ v ≤ b ∧ (n : ℤ) ∣ v - a

theorem CronField.bounds (field : CronField) : 0 ≤ field.min ∧ field.max ≤ field.top ∧ field.top ≤ 59 := by
  cases field <;> decide

theorem CronField.normalize_eq {field : CronField} {v : ℤ} (h : v ≤ field.max) : field.normalize v = v := by
  cases field with
  | dayOfWeek => exact if_neg (by have hmax : v ≤ 6 := h; omega)
  | _ => rfl

theorem dvd_iff_of_double {n : Nat} {stride x : ℤ} (h : double n = some stride) (hx : 0 ≤ x) (hlt : x < 2 ^ 53) :
    x.tmod stride = 0 ↔ (n : ℤ) ∣ x := by
  rw [← Int.dvd_iff_tmod_eq_zero]
  rcases double_cases n with ⟨hnone, -⟩ | ⟨m, hm, rfl | ⟨hn, hgreat⟩⟩
  · rw [hnone] at h; cases h
  · cases hm.symm.trans h
    rfl
  · cases hm.symm.trans h
    constructor
    · intro hdvd
      rw [Int.eq_zero_of_dvd_of_natAbs_lt_natAbs hdvd (by omega)]
      exact dvd_zero _
    · intro hdvd
      rw [Int.eq_zero_of_dvd_of_natAbs_lt_natAbs hdvd (by omega)]
      exact dvd_zero _

section Accepted

variable {field : CronField} {segment : List Char} {token : Token} {matcher : CronMatcher} {v : ℤ}

theorem parseSegment_accepts (htoken : tokenOf segment = some token) (hgrammar : token.InGrammar field)
    (hparse : parseSegment field.min field.normalize segment = .ok matcher) (hmin : field.min ≤ v) (hmax : v ≤ field.max) :
    matcher (some v) = true ↔ token.Accepts field v := by
  obtain ⟨hnonneg, htop, hsmall⟩ := field.bounds
  have hnormal := CronField.normalize_eq hmax
  cases token with
  | every =>
    rw [parseSegment_every htoken] at hparse
    cases hparse
    exact ⟨fun _ => trivial, fun _ => rfl⟩
  | everyNth n =>
    rw [parseSegment_everyNth htoken] at hparse
    cases hn : double n with
    | none => rw [hn] at hparse; cases hparse
    | some stride =>
      rw [hn] at hparse
      dsimp only at hparse
      split_ifs at hparse
      cases hparse
      rw [stepMatcher, Option.map_some, Option.any_some, hnormal, decide_eq_true_eq]
      exact dvd_iff_of_double hn (by omega) (by omega)
  | literal n =>
    obtain ⟨-, hle⟩ : field.min ≤ n ∧ n ≤ field.top := hgrammar
    rw [parseSegment_literal htoken, double_of_lt (by omega)] at hparse
    cases hparse
    rw [literalMatcher, Option.map_some, Option.any_some, hnormal, decide_eq_true_eq]
    rfl
  | range a b =>
    obtain ⟨-, hle, hb⟩ : field.min ≤ a ∧ a ≤ b ∧ b ≤ field.top := hgrammar
    rw [parseSegment_range htoken, double_of_lt (by omega), double_of_lt (by omega)] at hparse
    dsimp only at hparse
    split_ifs at hparse
    cases hparse
    rw [rangeMatcher, Option.map_some, Option.any_some, hnormal, decide_eq_true_eq]
    rfl
  | rangeNth a b n =>
    obtain ⟨⟨-, hle, hb⟩, -⟩ : (field.min ≤ a ∧ a ≤ b ∧ b ≤ field.top) ∧ 1 ≤ n := hgrammar
    rw [parseSegment_rangeNth htoken, double_of_lt (by omega), double_of_lt (by omega)] at hparse
    cases hn : double n with
    | none => rw [hn] at hparse; cases hparse
    | some stride =>
      rw [hn] at hparse
      dsimp only at hparse
      split_ifs at hparse
      cases hparse
      rw [rangeStepMatcher, Option.map_some, Option.any_some, hnormal, decide_eq_true_eq]
      refine and_congr_right fun hge => and_congr_right fun _ => ?_
      exact dvd_iff_of_double hn (by omega) (by omega)

theorem mem_image_normalize {S : Set ℤ} (hS : ∀ x ∈ S, x ≤ field.top) (hmax : v ≤ field.max) :
    v ∈ field.normalize '' S ↔ v ∈ S ∨ field = .dayOfWeek ∧ v = 0 ∧ 7 ∈ S := by
  constructor
  · rintro ⟨x, hx, rfl⟩
    by_cases hnormal : x ≤ field.max
    · rw [CronField.normalize_eq hnormal]
      exact .inl hx
    · have htop := hS x hx
      cases field with
      | dayOfWeek =>
        obtain rfl : x = 7 := by
          have h7 : x ≤ 7 := htop
          have h6 : ¬x ≤ 6 := hnormal
          omega
        exact .inr ⟨rfl, rfl, hx⟩
      | _ => exact absurd htop hnormal
  · rintro (hv | ⟨rfl, rfl, h7⟩)
    · exact ⟨v, hv, CronField.normalize_eq hmax⟩
    · exact ⟨7, h7, rfl⟩

/-- **What a token denotes**: what its matcher accepts, and Sunday at the end of a range. -/
theorem mem_denotes_iff (hgrammar : token.InGrammar field) (hmin : field.min ≤ v) (hmax : v ≤ field.max) :
    v ∈ token.denotes field ↔ token.Accepts field v ∨ field = .dayOfWeek ∧ v = 0 ∧ token.EndsOnSunday := by
  cases token with
  | every => exact ⟨fun _ => .inl trivial, fun _ => ⟨hmin, hmax⟩⟩
  | everyNth | literal => exact ⟨.inl, fun h => h.resolve_right fun hno => hno.2.2⟩
  | range a b =>
    obtain ⟨-, hle, hb⟩ : field.min ≤ a ∧ a ≤ b ∧ b ≤ field.top := hgrammar
    refine (mem_image_normalize (fun x hx => le_trans hx.2 hb) hmax).trans ?_
    refine or_congr Iff.rfl (and_congr_right fun hday => and_congr_right fun _ => ?_)
    have htop : field.top = 7 := by rw [hday]; rfl
    show (a : ℤ) ≤ 7 ∧ (7 : ℤ) ≤ b ↔ b = 7
    omega
  | rangeNth a b n =>
    obtain ⟨⟨-, hle, hb⟩, -⟩ : (field.min ≤ a ∧ a ≤ b ∧ b ≤ field.top) ∧ 1 ≤ n := hgrammar
    refine (mem_image_normalize (fun x hx => le_trans hx.1.2 hb) hmax).trans ?_
    refine or_congr and_assoc (and_congr_right fun hday => and_congr_right fun _ => ?_)
    have htop : field.top = 7 := by rw [hday]; rfl
    show ((a : ℤ) ≤ 7 ∧ (7 : ℤ) ≤ b) ∧ (n : ℤ) ∣ 7 - a ↔ b = 7 ∧ (n : ℤ) ∣ 7 - a
    refine and_congr_left fun _ => ?_
    omega

theorem accepts_sunday_iff (hgrammar : token.InGrammar .dayOfWeek) :
    token.Accepts .dayOfWeek 0 ↔ token.NamesSunday := by
  cases token with
  | every => exact Iff.rfl
  | everyNth n => exact ⟨fun _ => trivial, fun _ => dvd_zero _⟩
  | literal n =>
    show 0 = normalizeDayOfWeek n ↔ n = 0 ∨ n = 7
    unfold normalizeDayOfWeek
    split_ifs with h7 <;> omega
  | range a b =>
    obtain ⟨-, hle, hb⟩ : (0 : ℤ) ≤ a ∧ a ≤ b ∧ (b : ℤ) ≤ 7 := hgrammar
    show (a : ℤ) ≤ 0 ∧ (0 : ℤ) ≤ b ↔ a = 0
    omega
  | rangeNth a b n =>
    obtain ⟨⟨-, hle, hb⟩, -⟩ : ((0 : ℤ) ≤ a ∧ a ≤ b ∧ (b : ℤ) ≤ 7) ∧ 1 ≤ n := hgrammar
    show (a : ℤ) ≤ 0 ∧ (0 : ℤ) ≤ b ∧ (n : ℤ) ∣ 0 - a ↔ a = 0
    constructor
    · rintro ⟨ha, -⟩
      omega
    · rintro rfl
      exact ⟨by omega, by omega, by simp⟩

end Accepted

/-! ## Exactness -/

def Grammatical (field : CronField) (text : List Char) : Prop :=
  ∀ segment ∈ segments text, ∃ token : Token, token.Spells segment ∧ token.InGrammar field

/-- The field is accepted only within the grammar, and its matcher accepts what its tokens denote. -/
def Exact (field : CronField) (text : List Char) : Prop :=
  ∀ matcher, parseField field text = .ok matcher →
    Grammatical field text ∧
    ∀ v, field.min ≤ v → v ≤ field.max →
      (matcher (some v) = true ↔
        ∃ segment ∈ segments text, ∃ token : Token, token.Spells segment ∧ v ∈ token.denotes field)

/-- If a range ends on Sunday, then a token names Sunday otherwise. -/
def SundayKept (text : List Char) : Prop :=
  (∃ segment ∈ segments text, ∃ token : Token, token.Spells segment ∧ token.EndsOnSunday) →
    ∃ segment ∈ segments text, ∃ token : Token, token.Spells segment ∧ token.NamesSunday

/-- No stride is too great for a double. -/
def StridesFit (text : List Char) : Prop :=
  ∀ segment ∈ segments text, ∀ n,
    (Token.everyNth n).Spells segment ∨ (∃ a b, (Token.rangeNth a b n).Spells segment) → double n ≠ none

section Exactness

variable {field : CronField} {segment text : List Char} {token : Token} {matcher : CronMatcher}

theorem inGrammar_of_not_loose (hrefused : ¬Refused segment) (hloose : ¬Loose field segment) :
    ∃ token : Token, token.Spells segment ∧ token.InGrammar field := by
  unfold Refused at hrefused
  unfold Loose at hloose
  cases htoken : tokenOf segment with
  | none =>
    rw [htoken] at hrefused hloose
    exact absurd hrefused hloose
  | some token =>
    rw [htoken] at hrefused hloose
    refine ⟨token, spells_of_tokenOf htoken, ?_⟩
    cases token with
    | every => trivial
    | everyNth n => exact Nat.one_le_iff_ne_zero.mpr fun hzero => hrefused (.inl hzero)
    | literal n => exact not_not.mp hloose
    | rangeNth a b n => exact ⟨not_not.mp hloose, Nat.one_le_iff_ne_zero.mpr fun hzero => hrefused (.inl hzero)⟩
    | range a b =>
      obtain ⟨hmin, htop⟩ := not_not.mp hloose
      refine ⟨hmin, not_lt.mp fun hlt => hrefused fun x hx y hy => ?_, htop⟩
      obtain ⟨-, -, hsmall⟩ := field.bounds
      cases (double_of_lt (by omega)).symm.trans hy
      rcases double_cases a with ⟨hnone, -⟩ | ⟨m, hm, hcase⟩
      · rw [hnone] at hx; cases hx
      · cases hm.symm.trans hx
        omega

theorem not_loose_of_inGrammar (hspells : token.Spells segment) (hgrammar : token.InGrammar field) :
    ¬Loose field segment := by
  unfold Loose
  rw [tokenOf_eq_some_iff.mpr hspells]
  cases token with
  | every | everyNth => exact not_false
  | literal n => exact not_not.mpr hgrammar
  | range a b => exact not_not.mpr ⟨hgrammar.1, hgrammar.2.2⟩
  | rangeNth a b n => exact not_not.mpr hgrammar.1

theorem refused_iff_of_inGrammar (hspells : token.Spells segment) (hgrammar : token.InGrammar field) :
    Refused segment ↔
      ∃ n, ((Token.everyNth n).Spells segment ∨ ∃ a b, (Token.rangeNth a b n).Spells segment) ∧ double n = none := by
  have hunique : ∀ token' : Token, token'.Spells segment → token' = token := fun token' h =>
    Option.some.inj ((tokenOf_eq_some_iff.mpr h).symm.trans (tokenOf_eq_some_iff.mpr hspells))
  obtain ⟨-, -, hsmall⟩ := field.bounds
  unfold Refused
  rw [tokenOf_eq_some_iff.mpr hspells]
  constructor
  · intro h
    cases token with
    | every => exact h.elim
    | everyNth n => exact ⟨n, .inl hspells, h.resolve_left (Nat.one_le_iff_ne_zero.mp hgrammar)⟩
    | literal n =>
      have hfinite := double_of_lt (n := n) (by have := hgrammar.2; omega)
      exact absurd (hfinite.symm.trans h) nofun
    | range a b =>
      obtain ⟨-, hle, hb⟩ : field.min ≤ a ∧ a ≤ b ∧ b ≤ field.top := hgrammar
      have hlt := h a (double_of_lt (by omega)) b (double_of_lt (by omega))
      omega
    | rangeNth a b n =>
      obtain ⟨⟨-, hle, hb⟩, hn⟩ : (field.min ≤ a ∧ a ≤ b ∧ b ≤ field.top) ∧ 1 ≤ n := hgrammar
      rcases h with hzero | ha' | hb' | hn'
      · omega
      · exact absurd ((double_of_lt (n := a) (by omega)).symm.trans ha') nofun
      · exact absurd ((double_of_lt (n := b) (by omega)).symm.trans hb') nofun
      · exact ⟨n, .inr ⟨a, b, hspells⟩, hn'⟩
  · rintro ⟨n, hn | ⟨a, b, hn⟩, hdouble⟩
    · rw [← hunique _ hn]
      exact .inr hdouble
    · rw [← hunique _ hn]
      exact .inr (.inr (.inr hdouble))

theorem parseField_eq_ok_iff :
    parseField field text = .ok matcher ↔
      ∃ matchers : List CronMatcher,
        (segments text).map (parseSegment field.min field.normalize) = matchers.map .ok ∧
        matcher = fun value =>
          if (value.map field.normalize).any fun v => v < field.min ∨ field.max < v then false
          else matchers.any fun m => m (value.map field.normalize) := by
  unfold parseField parseCronMatcher
  rw [bind_eq_ok]
  constructor
  · rintro ⟨matchers, hmatchers, h⟩
    exact ⟨matchers, mapM_eq_ok_iff.mp hmatchers, (Except.ok.inj h).symm⟩
  · rintro ⟨matchers, hmatchers, rfl⟩
    exact ⟨matchers, mapM_eq_ok_iff.mpr hmatchers, rfl⟩

theorem parseField_isOk_iff :
    (∃ matcher, parseField field text = .ok matcher) ↔ ∀ segment ∈ segments text, ¬Refused segment := by
  constructor
  · rintro ⟨matcher, h⟩ segment hsegment
    obtain ⟨matchers, hmatchers, -⟩ := parseField_eq_ok_iff.mp h
    obtain ⟨m, -, hm⟩ := List.mem_map.mp (hmatchers ▸ List.mem_map_of_mem hsegment)
    exact parseSegment_isOk_iff.mp ⟨m, hm.symm⟩
  · intro h
    obtain ⟨matchers, hmatchers⟩ := exists_mapM_eq_ok fun segment hsegment => parseSegment_isOk_iff.mpr (h segment hsegment)
    exact ⟨_, parseField_eq_ok_iff.mpr ⟨matchers, mapM_eq_ok_iff.mp hmatchers, rfl⟩⟩

theorem parseField_accepts {v : ℤ} (hparse : parseField field text = .ok matcher) (hgrammar : Grammatical field text)
    (hmin : field.min ≤ v) (hmax : v ≤ field.max) :
    matcher (some v) = true ↔
      ∃ segment ∈ segments text, ∃ token : Token, token.Spells segment ∧ token.Accepts field v := by
  obtain ⟨matchers, hmatchers, rfl⟩ := parseField_eq_ok_iff.mp hparse
  have hinside : ¬((some v).map field.normalize).any (fun v => v < field.min ∨ field.max < v) = true := by
    rw [Option.map_some, CronField.normalize_eq hmax, Option.any_some, decide_eq_true_eq]
    omega
  show (if _ then false else _) = true ↔ _
  rw [if_neg hinside, Option.map_some, CronField.normalize_eq hmax, List.any_eq_true]
  constructor
  · rintro ⟨m, hm, haccept⟩
    obtain ⟨segment, hsegment, hparsed⟩ := List.mem_map.mp (hmatchers ▸ List.mem_map_of_mem hm)
    obtain ⟨token, hspells, hin⟩ := hgrammar segment hsegment
    have hiff := parseSegment_accepts (tokenOf_eq_some_iff.mpr hspells) hin hparsed hmin hmax
    exact ⟨segment, hsegment, token, hspells, hiff.mp haccept⟩
  · rintro ⟨segment, hsegment, token, hspells, haccept⟩
    obtain ⟨m, hm, hparsed⟩ := List.mem_map.mp (hmatchers ▸ List.mem_map_of_mem hsegment)
    obtain ⟨token', hspells', hin⟩ := hgrammar segment hsegment
    obtain rfl : token' = token :=
      Option.some.inj ((tokenOf_eq_some_iff.mpr hspells').symm.trans (tokenOf_eq_some_iff.mpr hspells))
    exact ⟨m, hm, (parseSegment_accepts (tokenOf_eq_some_iff.mpr hspells) hin hparsed.symm hmin hmax).mpr haccept⟩

theorem matches_denotation_iff (hparse : parseField field text = .ok matcher) (hgrammar : Grammatical field text) :
    (∀ v, field.min ≤ v → v ≤ field.max →
      (matcher (some v) = true ↔
        ∃ segment ∈ segments text, ∃ token : Token, token.Spells segment ∧ v ∈ token.denotes field)) ↔
      (field = .dayOfWeek → SundayKept text) := by
  have hin : ∀ {segment}, segment ∈ segments text → ∀ {token : Token}, token.Spells segment → token.InGrammar field := by
    intro segment hsegment token hspells
    obtain ⟨token', hspells', hin⟩ := hgrammar segment hsegment
    obtain rfl : token' = token :=
      Option.some.inj ((tokenOf_eq_some_iff.mpr hspells').symm.trans (tokenOf_eq_some_iff.mpr hspells))
    exact hin
  constructor
  · rintro h rfl ⟨segment, hsegment, token, hspells, hends⟩
    have hdenotes : (0 : ℤ) ∈ token.denotes .dayOfWeek :=
      (mem_denotes_iff (hin hsegment hspells) (by decide) (by decide)).mpr (.inr ⟨rfl, rfl, hends⟩)
    have hmatch := (h 0 (by decide) (by decide)).mpr ⟨segment, hsegment, token, hspells, hdenotes⟩
    obtain ⟨segment', hsegment', token', hspells', haccept⟩ :=
      (parseField_accepts hparse hgrammar (by decide) (by decide)).mp hmatch
    exact ⟨segment', hsegment', token', hspells', (accepts_sunday_iff (hin hsegment' hspells')).mp haccept⟩
  · intro h v hmin hmax
    rw [parseField_accepts hparse hgrammar hmin hmax]
    constructor
    · rintro ⟨segment, hsegment, token, hspells, haccept⟩
      exact ⟨segment, hsegment, token, hspells,
        (mem_denotes_iff (hin hsegment hspells) hmin hmax).mpr (.inl haccept)⟩
    · rintro ⟨segment, hsegment, token, hspells, hdenotes⟩
      rcases (mem_denotes_iff (hin hsegment hspells) hmin hmax).mp hdenotes with haccept | ⟨rfl, rfl, hends⟩
      · exact ⟨segment, hsegment, token, hspells, haccept⟩
      · obtain ⟨segment', hsegment', token', hspells', hnames⟩ := h rfl ⟨segment, hsegment, token, hspells, hends⟩
        exact ⟨segment', hsegment', token', hspells', (accepts_sunday_iff (hin hsegment' hspells')).mpr hnames⟩

/-- **When a field is parsed exactly.** -/
theorem parseField_exact_iff (field : CronField) (text : List Char) :
    (Exact field text ↔
      (∃ segment ∈ segments text, Refused segment) ∨
      (∀ segment ∈ segments text, ¬Loose field segment) ∧ (field = .dayOfWeek → SundayKept text)) ∧
    ((Grammatical field text → ∃ matcher, parseField field text = .ok matcher) ↔
      (Grammatical field text → StridesFit text)) := by
  constructor
  · by_cases hrefused : ∃ segment ∈ segments text, Refused segment
    · obtain ⟨segment, hsegment, href⟩ := hrefused
      refine ⟨fun _ => .inl ⟨segment, hsegment, href⟩, fun _ matcher hparse => ?_⟩
      exact absurd href (parseField_isOk_iff.mp ⟨matcher, hparse⟩ segment hsegment)
    have haccepted : ∀ segment ∈ segments text, ¬Refused segment := fun segment hsegment href =>
      hrefused ⟨segment, hsegment, href⟩
    constructor
    · intro hexact
      obtain ⟨matcher, hparse⟩ := parseField_isOk_iff.mpr haccepted
      obtain ⟨hgrammar, hdenotes⟩ := hexact matcher hparse
      refine .inr ⟨fun segment hsegment => ?_, (matches_denotation_iff hparse hgrammar).mp hdenotes⟩
      obtain ⟨token, hspells, hin⟩ := hgrammar segment hsegment
      exact not_loose_of_inGrammar hspells hin
    · intro h matcher hparse
      obtain ⟨hloose, hsunday⟩ := h.resolve_left hrefused
      have hgrammar : Grammatical field text := fun segment hsegment =>
        inGrammar_of_not_loose (haccepted segment hsegment) (hloose segment hsegment)
      exact ⟨hgrammar, (matches_denotation_iff hparse hgrammar).mpr hsunday⟩
  · refine forall_congr' fun hgrammar => parseField_isOk_iff.trans (forall₂_congr fun segment hsegment => ?_)
    obtain ⟨token, hspells, hin⟩ := hgrammar segment hsegment
    rw [refused_iff_of_inGrammar hspells hin]
    push Not
    rfl

/-- From Friday to Sunday: the matcher of `5-7` refuses the Sunday, whose value is 0. -/
theorem weekend_misses_sunday : ¬Exact .dayOfWeek ['5', '-', '7'] := by
  intro hexact
  have hmatch : (parseField .dayOfWeek ['5', '-', '7']).toOption.map (fun matcher => matcher (some 0)) = some false := by
    decide +kernel
  obtain ⟨matcher, hparse, hfalse⟩ := Option.map_eq_some_iff.mp hmatch
  have hspells : (Token.range 5 7).Spells ['5', '-', '7'] :=
    ⟨['5'], ['7'], ⟨by decide, by decide⟩, ⟨by decide, by decide⟩, rfl⟩
  have hdenotes : (0 : ℤ) ∈ (Token.range 5 7).denotes .dayOfWeek := ⟨7, ⟨by decide, by decide⟩, rfl⟩
  have htrue := ((hexact matcher (eq_ok_of_toOption hparse)).2 0 (by decide) (by decide)).mpr
    ⟨_, by decide, _, hspells, hdenotes⟩
  exact Bool.false_ne_true (hfalse.symm.trans htrue)

end Exactness

end NousCore.Scheduler
