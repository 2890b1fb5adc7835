import MigrationPlan.Proofs.Text.Trim
import MigrationPlan.Text.Fold
import MigrationPlan.Text.Numeral

/- A decimal is read back as the number that it was written from, and numbers are read from numerals
   only. -/
namespace MigrationPlan.Text

theorem digitsFrom_append (base n : Nat) (s t : List Char) :
    digitsFrom? base n (s ++ t) = (digitsFrom? base n s).bind fun m => digitsFrom? base m t := by
  induction s generalizing n with
  | nil => rfl
  | cons c s ih =>
    simp only [List.cons_append, digitsFrom?]
    cases digit? base c with
    | none => rfl
    | some d => exact ih (n * base + d)

theorem digit_digitChar {d : Nat} (small : d < 10) : digit? 10 d.digitChar = some d := by
  have all : ∀ d < 10, digit? 10 (Nat.digitChar d) = some d := by decide
  exact all d small

theorem digitsFrom_decimal (n : Nat) : digitsFrom? 10 0 (decimal n) = some n := by
  induction n using Nat.strongRecOn with
  | ind n ih =>
    rw [decimal, Nat.toDigits_eq_if (by decide)]
    by_cases small : n < 10
    · simp [small, digitsFrom?, digit_digitChar small]
    · have smaller : n / 10 < n := by omega
      have last : n % 10 < 10 := by omega
      rw [if_neg small, digitsFrom_append, ← decimal, ih _ smaller]
      have value : n / 10 * 10 + n % 10 = n := by omega
      simp [digitsFrom?, digit_digitChar last, value]

theorem decimal_ne_nil (n : Nat) : decimal n ≠ [] := Nat.toDigits_ne_nil

theorem decimal_digit {n : Nat} {c : Char} (member : c ∈ decimal n) : c.isDigit = true :=
  Nat.isDigit_of_mem_toDigits (by decide) (by decide) member

theorem readWord64_decimal {n : Nat} (fits : n < UInt64.size) :
    readWord64? (decimal n) = some n := by
  have value := digitsFrom_decimal n
  have digits : ∀ c ∈ decimal n, c.isDigit = true := fun c member => decimal_digit member
  cases text : decimal n with
  | nil => exact absurd text (decimal_ne_nil n)
  | cons c s =>
    rw [text] at value digits
    have unsigned : c ≠ '+' := by
      intro plus
      have digit := digits c (List.mem_cons_self)
      rw [plus] at digit
      exact absurd digit (by decide)
    unfold readWord64?
    split
    · next rest eq => exact absurd (List.cons.inj eq).1 unsigned
    · simp only [digits?, value]
      simp [fits]

def Numeral (s : List Char) (n : Nat) : Prop :=
  ∃ sign digits, s = sign ++ digits ∧ (sign = [] ∨ sign = ['+']) ∧ digits ≠ [] ∧
    (∀ c ∈ digits, c.isDigit = true) ∧ n = Nat.ofDigitChars 10 digits 0

theorem digit_eq_some {c : Char} {d : Nat} :
    digit? 10 c = some d ↔ c.isDigit = true ∧ d = c.toNat - '0'.toNat := by
  have range : ('0' ≤ c ∧ c ≤ '9') ↔ '0'.toNat ≤ c.toNat ∧ c.toNat ≤ '9'.toNat := Iff.rfl
  rw [Char.isDigit_iff_toNat, ← range, digit?, Option.filter_eq_some_iff,
    decide_eq_true_eq, digitValue?]
  split_ifs with digit lower upper
  · have bounds := range.mp digit
    have nine : '9'.toNat - '0'.toNat < 10 := by decide
    simp only [Option.some.injEq, digit, true_and]
    constructor
    · rintro ⟨rfl, _⟩
      rfl
    · rintro rfl
      exact ⟨rfl, by omega⟩
  · simp only [Option.some.injEq, digit, false_and, iff_false]
    rintro ⟨rfl, small⟩
    omega
  · simp only [Option.some.injEq, digit, false_and, iff_false]
    rintro ⟨rfl, small⟩
    omega
  · simp [digit]

theorem digitsFrom_eq_some {n m : Nat} {s : List Char} :
    digitsFrom? 10 n s = some m ↔ (∀ c ∈ s, c.isDigit = true) ∧ m = Nat.ofDigitChars 10 s n := by
  induction s generalizing n with
  | nil =>
    simp only [digitsFrom?, Option.some.injEq, List.not_mem_nil, false_imp_iff,
      implies_true, true_and, Nat.ofDigitChars_nil]
    exact eq_comm
  | cons c s ih =>
    simp only [digitsFrom?, Option.bind_eq_some_iff, digit_eq_some, ih, List.forall_mem_cons,
      Nat.ofDigitChars_cons, Nat.mul_comm 10]
    constructor
    · rintro ⟨d, ⟨digit, rfl⟩, digits, value⟩
      exact ⟨⟨digit, digits⟩, value⟩
    · rintro ⟨⟨digit, digits⟩, value⟩
      exact ⟨_, ⟨digit, rfl⟩, digits, value⟩

theorem digits_eq_some {s : List Char} {n : Nat} :
    digits? 10 s = some n ↔ s ≠ [] ∧ (∀ c ∈ s, c.isDigit = true) ∧ n = Nat.ofDigitChars 10 s 0 := by
  cases s with
  | nil => simp [digits?]
  | cons c s =>
    rw [digits?, digitsFrom_eq_some]
    · simp
    · simp

/-- Reading a number accepts exactly the numerals whose value fits. -/
theorem readWord64_eq_some {s : List Char} {n : Nat} :
    readWord64? s = some n ↔ Numeral s n ∧ n < UInt64.size := by
  unfold readWord64?
  simp only [Option.filter_eq_some_iff, decide_eq_true_eq, digits_eq_some]
  refine and_congr_left fun _ => ?_
  split
  · next rest =>
    constructor
    · rintro ⟨some, digits, value⟩
      exact ⟨['+'], rest, rfl, Or.inr rfl, some, digits, value⟩
    · rintro ⟨sign, digits, whole, rfl | rfl, some, all, value⟩
      · rw [List.nil_append] at whole
        exact absurd (all '+' (whole ▸ List.mem_cons_self)) (by decide)
      · obtain rfl : rest = digits := (List.cons.inj whole).2
        exact ⟨some, all, value⟩
  · next unsigned =>
    constructor
    · rintro ⟨some, digits, value⟩
      exact ⟨[], s, rfl, Or.inl rfl, some, digits, value⟩
    · rintro ⟨sign, digits, rfl, rfl | rfl, some, all, value⟩
      · exact ⟨some, all, value⟩
      · exact absurd rfl (unsigned digits)

end MigrationPlan.Text
