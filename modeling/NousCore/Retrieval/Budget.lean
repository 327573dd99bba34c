import NousCore.Lib.JsNumber
import NousCore.Lib.Sorting

/-!
# Retrieval within a token budget

* `ranking` : the results by score, and by id where the scores are the same;
* `truncateByTokenBudget` : the first of them, as long as they fit.
-/

namespace NousCore.Retrieval

/-! ## Results -/

/-- A scored entry; the content is a list of UTF-16 code units. -/
structure RetrievalResult where
  entryId : String
  content : List UInt16
  score : JsNumber
  score_ne_nan : score ≠ .nan

/-- `Math.ceil(content.length / 4)`; no caller asks for another ratio. -/
def estimateTokens (content : List UInt16) : Nat := (content.length + 3) / 4

inductive RetrievalTruncationReason where
  | tokenBudget | none

structure RetrievalBudgetTelemetry where
  consumedTokens : Nat
  candidateCount : Nat
  truncatedCount : Nat

structure TruncatedResults where
  results : List RetrievalResult
  telemetry : RetrievalBudgetTelemetry
  truncationReason : RetrievalTruncationReason

section

variable (localeCompare : Collation)

/-- By score, from the highest, and then by id. -/
def ranksBefore (a b : RetrievalResult) : Bool :=
  if b.score ≠ a.score then b.score.lt a.score else localeCompare.le a.entryId b.entryId

def ranking (results : List RetrievalResult) : List RetrievalResult := sortBy (ranksBefore localeCompare) results

def tokensOf (results : List RetrievalResult) : Nat := (results.map fun r => estimateTokens r.content).sum

def fitsInto (tokenBudget : JsNumber) (tokens : Nat) : Bool := !tokenBudget.lt (.ofNat tokens)

def truncateByTokenBudget (results : List RetrievalResult) (tokenBudget : JsNumber) : TruncatedResults :=
  if tokenBudget.le (.ofNat 0) then
    { results := []
      telemetry := ⟨0, results.length, results.length⟩
      truncationReason := if 0 < results.length then .tokenBudget else .none }
  else
    let kept := takeFitting (fitsInto tokenBudget) (fun r : RetrievalResult => estimateTokens r.content) 0
      (ranking localeCompare results)
    let truncatedCount := results.length - kept.length
    { results := kept
      telemetry := ⟨tokensOf kept, results.length, truncatedCount⟩
      truncationReason := if 0 < truncatedCount then .tokenBudget else .none }

end

/-! ## The ranking -/

section

variable {localeCompare : Collation} {results results' : List RetrievalResult} {a b d : RetrievalResult}
  {tokenBudget tokenBudget' : JsNumber}

theorem ranksBefore_trans (hab : ranksBefore localeCompare a b = true) (hbd : ranksBefore localeCompare b d = true) :
    ranksBefore localeCompare a d = true := by
  unfold ranksBefore at *
  by_cases hba : b.score = a.score
  · rw [if_neg (not_not.mpr hba)] at hab
    rw [hba] at hbd
    by_cases hda : d.score = a.score
    · rw [if_neg (not_not.mpr hda)] at hbd ⊢
      exact localeCompare.trans _ _ _ hab hbd
    · rwa [if_pos hda] at hbd ⊢
  · rw [if_pos hba] at hab
    by_cases hdb : d.score = b.score
    · rw [hdb, if_pos hba]
      exact hab
    · rw [if_pos hdb] at hbd
      have hlt := JsNumber.lt_trans hbd hab
      rwa [if_pos (JsNumber.ne_of_lt hlt)]

theorem ranksBefore_total (a b : RetrievalResult) :
    (ranksBefore localeCompare a b || ranksBefore localeCompare b a) = true := by
  unfold ranksBefore
  by_cases hba : b.score = a.score
  · rw [if_neg (not_not.mpr hba), if_neg (not_not.mpr hba.symm)]
    exact localeCompare.total _ _
  · rw [if_pos hba, if_pos (Ne.symm hba)]
    rcases JsNumber.lt_or_lt hba b.score_ne_nan a.score_ne_nan with h | h <;> simp [h]

theorem tied_of_ranksBefore (hab : ranksBefore localeCompare a b = true) (hba : ranksBefore localeCompare b a = true) :
    localeCompare.le a.entryId b.entryId = true ∧ localeCompare.le b.entryId a.entryId = true := by
  unfold ranksBefore at *
  by_cases h : b.score = a.score
  · rw [if_neg (not_not.mpr h)] at hab
    rw [if_neg (not_not.mpr h.symm)] at hba
    exact ⟨hab, hba⟩
  · rw [if_pos h] at hab
    rw [if_pos (Ne.symm h)] at hba
    have hlt := JsNumber.lt_trans hab hba
    rw [JsNumber.lt_irrefl] at hlt
    cases hlt

theorem pairwise_ranking (localeCompare : Collation) (results : List RetrievalResult) :
    (ranking localeCompare results).Pairwise fun a b => ranksBefore localeCompare a b = true :=
  @pairwise_sortBy _ (ranksBefore localeCompare) (fun _ _ _ => ranksBefore_trans) ranksBefore_total results

/-- Ids that differ do not compare as equal. -/
def TellsApart (localeCompare : Collation) (results : List RetrievalResult) : Prop :=
  ∀ a ∈ results, ∀ b ∈ results, localeCompare.le a.entryId b.entryId = true →
    localeCompare.le b.entryId a.entryId = true → a.entryId = b.entryId

theorem ranking_eq_of_perm (hids : (results.map (·.entryId)).Nodup) (hlocale : TellsApart localeCompare results)
    (h : results.Perm results') : ranking localeCompare results = ranking localeCompare results' := by
  refine List.Perm.eq_of_pairwise (fun a b ha hb hab hba => ?_)
    (pairwise_ranking _ _) (pairwise_ranking _ _)
    ((perm_sortBy _ results).trans (h.trans (perm_sortBy _ results').symm))
  have ha := (mem_sortBy _).mp ha
  have hb := h.mem_iff.mpr ((mem_sortBy _).mp hb)
  obtain ⟨hle, hge⟩ := tied_of_ranksBefore hab hba
  exact List.inj_on_of_nodup_map hids ha hb (hlocale a ha b hb hle hge)

/-! ## The budget -/

theorem fitsInto_mono {m n : Nat} (hmn : m ≤ n) (h : fitsInto tokenBudget n = true) : fitsInto tokenBudget m = true := by
  simp only [fitsInto, Bool.not_eq_true'] at *
  by_contra hm
  rw [Bool.not_eq_false] at hm
  have := JsNumber.lt_of_lt_of_le hm (JsNumber.le_ofNat.mpr hmn)
  rw [h] at this
  cases this

theorem fitsInto_of_le {n : Nat} (hle : tokenBudget.le tokenBudget' = true) (h : fitsInto tokenBudget n = true) :
    fitsInto tokenBudget' n = true := by
  simp only [fitsInto, Bool.not_eq_true'] at *
  by_contra hn
  rw [Bool.not_eq_false] at hn
  have := JsNumber.lt_of_le_of_lt hle hn
  rw [h] at this
  cases this

theorem truncateByTokenBudget_results (hpos : tokenBudget.le (.ofNat 0) = false) :
    (truncateByTokenBudget localeCompare results tokenBudget).results = takeFitting (fitsInto tokenBudget)
      (fun r : RetrievalResult => estimateTokens r.content) 0 (ranking localeCompare results) := by
  unfold truncateByTokenBudget
  rw [hpos, if_neg Bool.false_ne_true]

theorem truncateByTokenBudget_results_isPrefix (localeCompare : Collation) (results : List RetrievalResult)
    (tokenBudget : JsNumber) :
    (truncateByTokenBudget localeCompare results tokenBudget).results <+: ranking localeCompare results := by
  cases hpos : tokenBudget.le (.ofNat 0) with
  | true =>
    unfold truncateByTokenBudget
    rw [hpos, if_pos rfl]
    exact List.nil_prefix
  | false =>
    rw [truncateByTokenBudget_results hpos]
    exact takeFitting_isPrefix _ _ _ _

/-- What is kept is a prefix of the ranking that fits, and no prefix that fits is longer. -/
structure KeepsLongest (localeCompare : Collation) (results : List RetrievalResult) (tokenBudget : JsNumber) : Prop where
  isPrefix : (truncateByTokenBudget localeCompare results tokenBudget).results <+: ranking localeCompare results
  fits : fitsInto tokenBudget (tokensOf (truncateByTokenBudget localeCompare results tokenBudget).results) = true
  longest : ∀ l, l <+: ranking localeCompare results → fitsInto tokenBudget (tokensOf l) = true →
    l <+: (truncateByTokenBudget localeCompare results tokenBudget).results

theorem keepsLongest_of_pos (hpos : JsNumber.lt (.ofNat 0) tokenBudget = true) :
    KeepsLongest localeCompare results tokenBudget := by
  have hnot : tokenBudget.le (.ofNat 0) = false := by
    by_contra h
    have := JsNumber.lt_of_le_of_lt ((Bool.not_eq_false _).mp h) hpos
    rw [JsNumber.lt_irrefl] at this
    cases this
  have hzero : fitsInto tokenBudget 0 = true := by
    rw [fitsInto, Bool.not_eq_true']
    by_contra h
    have := JsNumber.lt_trans hpos ((Bool.not_eq_false _).mp h)
    rw [JsNumber.lt_irrefl] at this
    cases this
  refine ⟨truncateByTokenBudget_results_isPrefix _ _ _, ?_, fun l hl hfits => ?_⟩
  · rw [truncateByTokenBudget_results hnot]
    have hkept := @takeFitting_fits _ (ranking localeCompare results) _ (fun r => estimateTokens r.content) _ hzero
    rwa [Nat.zero_add] at hkept
  · rw [truncateByTokenBudget_results hnot]
    refine isPrefix_takeFitting (fun _ _ => fitsInto_mono) hl ?_
    rwa [Nat.zero_add]

theorem truncateByTokenBudget_telemetry (localeCompare : Collation) (results : List RetrievalResult)
    (tokenBudget : JsNumber) :
    (truncateByTokenBudget localeCompare results tokenBudget).telemetry.candidateCount = results.length ∧
      (truncateByTokenBudget localeCompare results tokenBudget).results.length +
        (truncateByTokenBudget localeCompare results tokenBudget).telemetry.truncatedCount = results.length := by
  have hlength : (truncateByTokenBudget localeCompare results tokenBudget).results.length ≤ results.length :=
    (truncateByTokenBudget_results_isPrefix localeCompare results tokenBudget).length_le.trans
      (perm_sortBy _ results).length_eq.le
  unfold truncateByTokenBudget at *
  by_cases hnone : tokenBudget.le (.ofNat 0) = true
  · rw [if_pos hnone]
    exact ⟨rfl, Nat.zero_add _⟩
  · rw [if_neg hnone] at hlength ⊢
    exact ⟨rfl, Nat.add_sub_of_le hlength⟩

theorem truncateByTokenBudget_mono (hle : tokenBudget.le tokenBudget' = true) :
    (truncateByTokenBudget localeCompare results tokenBudget).results <+:
      (truncateByTokenBudget localeCompare results tokenBudget').results := by
  cases hnone : tokenBudget.le (.ofNat 0) with
  | true =>
    rw [truncateByTokenBudget, if_pos hnone]
    exact List.nil_prefix
  | false =>
    have hnone' : tokenBudget'.le (.ofNat 0) = false := by
      by_contra h
      have := JsNumber.le_trans hle ((Bool.not_eq_false _).mp h)
      rw [hnone] at this
      cases this
    rw [truncateByTokenBudget_results hnone, truncateByTokenBudget_results hnone']
    exact takeFitting_mono fun _ => fitsInto_of_le hle

/-- **Ranked and cut.** The ids differ, and the comparison of strings tells them apart. Then the order of the results does
not matter. Of a positive budget the longest prefix of the ranking that fits is kept, and of a budget that is not positive
nothing. What is kept and what is not add up to the candidates, and a larger budget keeps an extension. -/
theorem truncateByTokenBudget_ranked (localeCompare : Collation) (results : List RetrievalResult)
    (hids : (results.map (·.entryId)).Nodup) (hlocale : TellsApart localeCompare results) :
    (∀ results', results.Perm results' → ∀ tokenBudget, truncateByTokenBudget localeCompare results tokenBudget =
      truncateByTokenBudget localeCompare results' tokenBudget) ∧
    ((ranking localeCompare results).Perm results ∧
      (ranking localeCompare results).Pairwise fun a b => ranksBefore localeCompare a b = true) ∧
    (∀ tokenBudget, JsNumber.lt (.ofNat 0) tokenBudget = true → KeepsLongest localeCompare results tokenBudget) ∧
    (∀ tokenBudget, tokenBudget.le (.ofNat 0) = true →
      (truncateByTokenBudget localeCompare results tokenBudget).results = []) ∧
    (∀ tokenBudget, (truncateByTokenBudget localeCompare results tokenBudget).telemetry.candidateCount = results.length ∧
      (truncateByTokenBudget localeCompare results tokenBudget).results.length +
        (truncateByTokenBudget localeCompare results tokenBudget).telemetry.truncatedCount = results.length) ∧
    ∀ tokenBudget tokenBudget', tokenBudget.le tokenBudget' = true →
      (truncateByTokenBudget localeCompare results tokenBudget).results <+:
        (truncateByTokenBudget localeCompare results tokenBudget').results := by
  refine ⟨fun results' hperm tokenBudget => ?_, ⟨perm_sortBy _ _, pairwise_ranking _ _⟩, fun _ => keepsLongest_of_pos, fun tokenBudget hnone => ?_,
    truncateByTokenBudget_telemetry localeCompare results, fun _ _ => truncateByTokenBudget_mono⟩
  · unfold truncateByTokenBudget
    rw [ranking_eq_of_perm hids hlocale hperm, hperm.length_eq]
  · rw [truncateByTokenBudget, if_pos hnone]

/-! ## Two results -/

theorem tellsApart_codePoints (results : List RetrievalResult) : TellsApart codePoints results :=
  fun _ _ _ _ hle hge => String.le_antisymm (of_decide_eq_true hle) (of_decide_eq_true hge)

/-- An entry with a content, and one without that is ranked first. -/
def remark : RetrievalResult := ⟨"a", [104, 105], .ofNat 1, JsNumber.ofNat_ne_nan 1⟩

def emptyRemark : RetrievalResult := ⟨"b", [], .ofNat 2, JsNumber.ofNat_ne_nan 2⟩

theorem remarks_ranked : (truncateByTokenBudget codePoints [remark, emptyRemark] (.ofNat 1)).results =
    (truncateByTokenBudget codePoints [emptyRemark, remark] (.ofNat 1)).results ∧
      KeepsLongest codePoints [remark, emptyRemark] (.ofNat 1) := by
  obtain ⟨hperm, -, hlongest, -⟩ := truncateByTokenBudget_ranked codePoints [remark, emptyRemark] (by decide)
    (tellsApart_codePoints _)
  exact ⟨congrArg _ (hperm _ (List.Perm.swap _ _ _) _), hlongest _ (JsNumber.lt_ofNat.mpr Nat.one_pos)⟩

/-- Of a budget of zero nothing is kept, though an entry without content would fit. -/
theorem emptyRemark_not_kept : ¬KeepsLongest codePoints [emptyRemark] (.ofNat 0) := by
  intro h
  have hkept := h.longest [emptyRemark] (List.prefix_refl _) (by decide +kernel)
  exact absurd (List.prefix_nil.mp hkept) (List.cons_ne_nil _ _)

end

end NousCore.Retrieval
