import MigrationPlan.Proofs.Text.Numeral

/- Texts in lowercase. Whatever looks only at blanks, at characters of words and at marks cuts a
   text in the same places after its letters have been made small. -/
namespace MigrationPlan.Text

def lower (s : List Char) : List Char := s.map Char.toLower

def CaseBlind (p : Char → Bool) : Prop := ∀ c : Char, p c.toLower = p c

theorem isUpper_iff (c : Char) : c.isUpper = true ↔ 65 ≤ c.toNat ∧ c.toNat ≤ 90 := by
  have test : c.isUpper = decide (c.val ≥ 'A'.val ∧ c.val ≤ 'Z'.val) := rfl
  rw [test, decide_eq_true_eq, ge_iff_le, UInt32.le_iff_toNat_le, UInt32.le_iff_toNat_le]
  rfl

theorem isLower_iff (c : Char) : c.isLower = true ↔ 97 ≤ c.toNat ∧ c.toNat ≤ 122 := by
  have test : c.isLower = (decide (c.val ≥ 'a'.val) && decide (c.val ≤ 'z'.val)) := rfl
  rw [test, Bool.and_eq_true, decide_eq_true_eq, decide_eq_true_eq, ge_iff_le,
    UInt32.le_iff_toNat_le, UInt32.le_iff_toNat_le]
  rfl

theorem isAlpha_iff (c : Char) :
    c.isAlpha = true ↔ (65 ≤ c.toNat ∧ c.toNat ≤ 90) ∨ (97 ≤ c.toNat ∧ c.toNat ≤ 122) := by
  have test : c.isAlpha = (c.isUpper || c.isLower) := rfl
  rw [test, Bool.or_eq_true, isUpper_iff, isLower_iff]

theorem toNat_toLower (c : Char) :
    c.toLower.toNat = if 65 ≤ c.toNat ∧ c.toNat ≤ 90 then c.toNat + 32 else c.toNat := by
  have capital : c.val ≥ 'A'.val ∧ c.val ≤ 'Z'.val ↔ 65 ≤ c.toNat ∧ c.toNat ≤ 90 :=
    decide_eq_true_iff.symm.trans (isUpper_iff c)
  unfold Char.toLower
  by_cases upper : c.val ≥ 'A'.val ∧ c.val ≤ 'Z'.val
  · rw [dif_pos upper, if_pos (capital.mp upper)]
    have value : (c.val + ('a'.val - 'A'.val)).toNat = (c.toNat + 32) % 2 ^ 32 :=
      UInt32.toNat_add _ _
    have fits : (c.toNat + 32) % 2 ^ 32 = c.toNat + 32 := by
      have small := (capital.mp upper).2
      omega
    exact value.trans fits
  · rw [dif_neg upper, if_neg (fun h => upper (capital.mpr h))]

theorem toLower_toLower (c : Char) : c.toLower.toLower = c.toLower := by
  have again : ¬(65 ≤ c.toLower.toNat ∧ c.toLower.toNat ≤ 90) := by
    rw [toNat_toLower]
    split <;> omega
  exact Char.toNat_inj.mp ((toNat_toLower _).trans (if_neg again))

/-- A character that is no letter stands where it stood before, and nowhere else. -/
theorem toLower_eq_iff {c k : Char} (mark : k.isAlpha = false) : c.toLower = k ↔ c = k := by
  rw [← Bool.not_eq_true, isAlpha_iff] at mark
  rw [← Char.toNat_inj, ← Char.toNat_inj, toNat_toLower]
  split <;> omega

theorem toLower_beq {k : Char} (mark : k.isAlpha = false) (c : Char) :
    (c.toLower == k) = (c == k) := by
  rw [Bool.eq_iff_iff, beq_iff_eq, beq_iff_eq, toLower_eq_iff mark]

theorem caseBlind_blank : CaseBlind isBlank := by
  intro c
  unfold isBlank
  rw [toNat_toLower]
  split
  · rw [Bool.eq_iff_iff]
    simp [blankRanges]
    omega
  · rfl

theorem caseBlind_letter : CaseBlind Char.isAlpha := by
  intro c
  rw [Bool.eq_iff_iff, isAlpha_iff, isAlpha_iff, toNat_toLower]
  split <;> omega

theorem caseBlind_digit : CaseBlind Char.isDigit := by
  intro c
  have zero : '0'.toNat = 48 := rfl
  have nine : '9'.toNat = 57 := rfl
  rw [Bool.eq_iff_iff, Char.isDigit_iff_toNat, Char.isDigit_iff_toNat, toNat_toLower, zero, nine]
  split <;> omega

theorem caseBlind_word : CaseBlind isWordChar := by
  intro c
  rw [isWordChar, isWordChar, Char.isAlphanum, Char.isAlphanum, caseBlind_letter c,
    caseBlind_digit c, toLower_beq (by decide) c]

theorem CaseBlind.comp {p : Char → Bool} (blind : CaseBlind p) : p ∘ Char.toLower = p :=
  funext blind

theorem CaseBlind.takeWhile {p : Char → Bool} (blind : CaseBlind p) (s : List Char) :
    (lower s).takeWhile p = lower (s.takeWhile p) := by
  rw [lower, List.takeWhile_map, blind.comp, lower]

theorem CaseBlind.dropWhile {p : Char → Bool} (blind : CaseBlind p) (s : List Char) :
    (lower s).dropWhile p = lower (s.dropWhile p) := by
  rw [lower, List.dropWhile_map, blind.comp, lower]

@[simp] theorem lower_nil : lower [] = [] := rfl

@[simp] theorem lower_cons (c : Char) (s : List Char) : lower (c :: s) = c.toLower :: lower s := rfl

@[simp] theorem length_lower (s : List Char) : (lower s).length = s.length := List.length_map _

@[simp] theorem isEmpty_lower (s : List Char) : (lower s).isEmpty = s.isEmpty := by cases s <;> rfl

@[simp] theorem lower_lower (s : List Char) : lower (lower s) = lower s := by
  rw [lower, lower, List.map_map]
  exact List.map_congr_left fun c _ => toLower_toLower c

theorem lower_drop (n : Nat) (s : List Char) : (lower s).drop n = lower (s.drop n) :=
  (List.map_drop).symm

theorem contains_lower {k : Char} (mark : k.isAlpha = false) (s : List Char) :
    (lower s).contains k = s.contains k := by
  induction s with
  | nil => rfl
  | cons c s ih =>
    rw [lower_cons, List.contains_cons, List.contains_cons, ih, BEq.comm,
      toLower_beq mark, BEq.comm]

theorem splitOn_lower {k : Char} (mark : k.isAlpha = false) (s : List Char) :
    (lower s).splitOn k = (s.splitOn k).map lower := by
  induction s with
  | nil => rfl
  | cons c s ih =>
    rw [lower_cons, List.splitOn_cons_eq_if_modifyHead, List.splitOn_cons_eq_if_modifyHead, ih,
      toLower_beq mark c]
    by_cases same : (c == k) = true
    · rw [if_pos same, if_pos same]
      rfl
    · rw [if_neg same, if_neg same]
      cases s.splitOn k <;> rfl

theorem lower_intercalate (a : List Char) (l : List (List Char)) :
    lower (a.intercalate l) = (lower a).intercalate (l.map lower) := by
  induction l with
  | nil => rfl
  | cons b l ih =>
    cases l with
    | nil => simp
    | cons c l =>
      rw [List.intercalate_cons_cons, List.map_cons, List.map_cons, List.intercalate_cons_cons,
        ← List.map_cons, ← ih]
      simp only [lower, List.map_append]

theorem trim_lower (s : List Char) : trim (lower s) = lower (trim s) := by
  have start : trimStart (lower s) = lower (trimStart s) := caseBlind_blank.dropWhile s
  have back : ∀ t : List Char, (lower t).reverse = lower t.reverse :=
    fun t => (List.map_reverse).symm
  rw [trim, start, trimEnd, back, caseBlind_blank.dropWhile, back]
  rfl

theorem kept_lower (pieces : List (List Char)) :
    ((pieces.map lower).map trim).filter (! ·.isEmpty) =
      ((pieces.map trim).filter (! ·.isEmpty)).map lower := by
  have swap : trim ∘ lower = lower ∘ trim := funext trim_lower
  rw [List.map_map, swap, ← List.map_map, List.filter_map]
  congr 1
  exact List.filter_congr fun piece _ => by rw [Function.comp_apply, isEmpty_lower]

theorem lower_eq_cons {k : Char} (mark : k.isAlpha = false) {s t : List Char} :
    lower s = k :: t ↔ ∃ rest, s = k :: rest ∧ lower rest = t := by
  cases s with
  | nil => simp
  | cons c s =>
    rw [lower_cons, List.cons.injEq, toLower_eq_iff mark]
    constructor
    · rintro ⟨rfl, rfl⟩
      exact ⟨s, rfl, rfl⟩
    · rintro ⟨rest, same, rfl⟩
      obtain ⟨rfl, rfl⟩ := List.cons.inj same
      exact ⟨rfl, rfl⟩

theorem unmarked_lower {k : Char} (mark : k.isAlpha = false) {s : List Char}
    (unmarked : ∀ rest, s ≠ k :: k :: rest) :
    ∀ rest, lower s ≠ k :: k :: rest := by
  intro rest marked
  obtain ⟨inner, first, second⟩ := (lower_eq_cons mark).mp marked
  obtain ⟨rest', rfl, _⟩ := (lower_eq_cons mark).mp second
  exact unmarked rest' first

theorem lower_of_marks {s : List Char} (marks : ∀ c ∈ s, c.isAlpha = false) : lower s = s := by
  refine (List.map_congr_left fun c member => ?_).trans (List.map_id s)
  exact (toLower_eq_iff (marks c member)).mpr rfl

theorem digit_not_letter {c : Char} (digit : c.isDigit = true) : c.isAlpha = false := by
  have nine : '9'.toNat = 57 := rfl
  have small := (Char.isDigit_iff_toNat.mp digit).2
  rw [← Bool.not_eq_true, isAlpha_iff]
  omega

theorem numeral_not_letter {s : List Char} {n : Nat} (numeral : Numeral s n) :
    ∀ c ∈ s, c.isAlpha = false := by
  obtain ⟨sign, digits, rfl, signed, _, all, _⟩ := numeral
  intro c member
  rcases List.mem_append.mp member with inSign | inDigits
  · rcases signed with rfl | rfl
    · cases inSign
    · rw [List.mem_singleton.mp inSign]
      decide
  · exact digit_not_letter (all c inDigits)

theorem readWord64_lower (s : List Char) : readWord64? (lower s) = readWord64? s := by
  by_cases marks : ∀ c ∈ s, c.isAlpha = false
  · rw [lower_of_marks marks]
  · have none : ∀ {t : List Char}, ¬(∀ c ∈ t, c.isAlpha = false) → readWord64? t = none := by
      intro t letters
      rw [← Option.not_isSome_iff_eq_none, Option.isSome_iff_exists]
      rintro ⟨n, read⟩
      exact letters (numeral_not_letter (readWord64_eq_some.mp read).1)
    rw [none marks, none]
    intro marks'
    refine marks fun c member => ?_
    rw [← caseBlind_letter c]
    exact marks' _ (List.mem_map_of_mem member)

/-! Names: folding makes a name lowercase, and two names are the same when it makes them equal. -/

theorem fold_eq (s : String) : fold s = String.ofList (lower s.toList) := by
  unfold fold
  rfl

@[simp] theorem toList_fold (s : String) : (fold s).toList = lower s.toList := by
  rw [fold_eq, String.toList_ofList]

@[simp] theorem fold_ofList (s : List Char) : fold (String.ofList s) = String.ofList (lower s) := by
  rw [fold_eq, String.toList_ofList]

@[simp] theorem fold_fold (s : String) : fold (fold s) = fold s := by
  rw [fold_eq, toList_fold, lower_lower, ← fold_eq]

@[simp] theorem sameName_fold_left (a b : String) : sameName (fold a) b = sameName a b := by
  rw [sameName, fold_fold, sameName]

@[simp] theorem sameName_fold_right (a b : String) : sameName a (fold b) = sameName a b := by
  rw [sameName, fold_fold, sameName]

@[simp] theorem fold_append (a b : String) : fold (a ++ b) = fold a ++ fold b := by
  apply String.toList_injective
  rw [toList_fold, String.toList_append, String.toList_append, toList_fold, toList_fold]
  exact List.map_append

theorem fold_intercalate (a : String) (l : List String) :
    fold (a.intercalate l) = (fold a).intercalate (l.map fold) := by
  have texts : (l.map fold).map String.toList = (l.map String.toList).map lower := by
    rw [List.map_map, List.map_map]
    exact List.map_congr_left fun b _ => toList_fold b
  apply String.toList_injective
  rw [toList_fold, String.toList_intercalate, String.toList_intercalate, toList_fold, texts,
    lower_intercalate]

@[simp] theorem isEmpty_fold (s : String) : (fold s).isEmpty = s.isEmpty := by
  rw [Bool.eq_iff_iff, String.isEmpty_iff, String.isEmpty_iff, ← String.toList_eq_nil_iff,
    ← String.toList_eq_nil_iff, toList_fold, ← List.isEmpty_iff, isEmpty_lower, List.isEmpty_iff]

theorem trimmed_fold (s : String) : trimmed (fold s) = fold (trimmed s) := by
  rw [trimmed, toList_fold, trim_lower, trimmed, fold_ofList]

theorem trimmed?_fold (s : String) : trimmed? (fold s) = (trimmed? s).map fold := by
  rw [trimmed?, toList_fold, trim_lower, isEmpty_lower, trimmed_fold, trimmed?]
  split <;> rfl

end MigrationPlan.Text
