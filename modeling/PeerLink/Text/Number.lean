/-!
# Numbers in text

Settings and arguments give whole numbers in decimal digits, with an optional sign in front.
Numbers have a range, and a text that is no number of the range is refused with a cause: the
first character that makes it impossible decides which.

## Main results

* `Text.natural?_eq_ok_iff` — which texts are numbers of a range, and which numbers they are.
-/

namespace PeerLink.Text

/-- Why a text is no number of the range asked for. -/
inductive NumberError
  | empty
  | invalidDigit
  | tooLarge
  | tooSmall
  deriving DecidableEq, Repr

/-- The text of the cause. -/
def NumberError.message : NumberError → String
  | .empty => "cannot parse integer from empty string"
  | .invalidDigit => "invalid digit found in string"
  | .tooLarge => "number too large to fit in target type"
  | .tooSmall => "number too small to fit in target type"

/-- The value of a digit in a base of at most sixteen. -/
def digit? (base : Nat) (c : Char) : Option Nat :=
  let value :=
    if '0' ≤ c ∧ c ≤ '9' then c.toNat - '0'.toNat
    else if 'a' ≤ c ∧ c ≤ 'f' then c.toNat - 'a'.toNat + 10
    else if 'A' ≤ c ∧ c ≤ 'F' then c.toNat - 'A'.toNat + 10
    else base
  if value < base then some value else none

/-- Reads digits behind those that made `acc`, none of the sums beyond `max`. -/
def readDigits (base max : Nat) (tooFar : NumberError) (acc : Nat) :
    List Char → Except NumberError Nat
  | [] => .ok acc
  | c :: cs =>
    match digit? base c with
    | none => .error .invalidDigit
    | some d =>
      let next := acc * base + d
      if max < next then .error tooFar else readDigits base max tooFar next cs

/-- A text of digits with an optional plus sign, as a number up to `max`. -/
def natural? (base max : Nat) (s : List Char) : Except NumberError Nat :=
  match s with
  | [] => .error .empty
  | ['+'] => .error .invalidDigit
  | '+' :: cs => readDigits base max .tooLarge 0 cs
  | cs => readDigits base max .tooLarge 0 cs

/-- A text of digits with an optional sign, as a number of a two's complement word. -/
def integer? (bits : Nat) (s : List Char) : Except NumberError Int :=
  match s with
  | ['-'] => .error .invalidDigit
  | '-' :: cs => (readDigits 10 (1 <<< (bits - 1)) .tooSmall 0 cs).map fun n => -(n : Int)
  | cs => (natural? 10 (1 <<< (bits - 1) - 1) cs).map Int.ofNat

/-! ## Decimal numbers -/

/-- The digits of a number; zeros may stand in front of it. -/
structure IsDecimal (digits : List Char) (n : Nat) : Prop where
  ne_nil : digits ≠ []
  all_digits : ∀ c ∈ digits, c.isDigit = true
  value : Nat.ofDigitChars 10 digits 0 = n

theorem digit?_ten (c : Char) :
    digit? 10 c = if c.isDigit = true then some (c.toNat - '0'.toNat) else none := by
  have hdigit : c.isDigit = true ↔ 48 ≤ c.toNat ∧ c.toNat ≤ 57 := by
    simp only [Char.isDigit, Bool.and_eq_true, decide_eq_true_eq]
    exact Iff.rfl
  have hle (a b : Char) : a ≤ b ↔ a.toNat ≤ b.toNat := Iff.rfl
  have hzero : '0'.toNat = 48 := rfl
  have hnine : '9'.toNat = 57 := rfl
  have hlower : 'a'.toNat = 97 := rfl
  have hupper : 'A'.toNat = 65 := rfl
  simp only [digit?, hdigit, hle, hzero, hnine, hlower, hupper]
  repeat' split
  all_goals first | omega | rfl

private theorem le_ofDigitChars (cs : List Char) (acc : Nat) :
    acc ≤ Nat.ofDigitChars 10 cs acc := by
  induction cs generalizing acc with
  | nil => exact Nat.le_refl acc
  | cons c cs ih =>
      rw [Nat.ofDigitChars_cons]
      refine Nat.le_trans ?_ (ih _)
      omega

private theorem readDigits_eq_ok_iff {max acc n : Nat} {tooFar : NumberError} {cs : List Char}
    (hacc : acc ≤ max) : readDigits 10 max tooFar acc cs = .ok n ↔
      (∀ c ∈ cs, c.isDigit = true) ∧ Nat.ofDigitChars 10 cs acc = n ∧ n ≤ max := by
  induction cs generalizing acc with
  | nil =>
      simp only [readDigits, Except.ok.injEq, List.not_mem_nil, false_imp_iff, implies_true,
        Nat.ofDigitChars_nil, true_and]
      constructor
      · rintro rfl
        exact ⟨rfl, hacc⟩
      · exact And.left
  | cons c cs ih =>
      simp only [readDigits, digit?_ten, List.forall_mem_cons, Nat.ofDigitChars_cons]
      by_cases hdigit : c.isDigit = true
      · simp only [hdigit, if_true, true_and]
        rw [Nat.mul_comm acc 10]
        by_cases hfar : max < 10 * acc + (c.toNat - '0'.toNat)
        · simp only [hfar, if_true, reduceCtorEq, false_iff]
          rintro ⟨-, rfl, hle⟩
          exact Nat.not_le_of_lt hfar (Nat.le_trans (le_ofDigitChars cs _) hle)
        · simp only [hfar, if_false]
          exact ih (Nat.le_of_not_lt hfar)
      · simp only [hdigit, Bool.false_eq_true, if_false, reduceCtorEq, false_and]

/-- A number is digits, with a plus sign in front of them or not, whose value is within the
range. -/
theorem natural?_eq_ok_iff {max n : Nat} {s : List Char} : natural? 10 max s = .ok n ↔
    (∃ digits, (s = digits ∨ s = '+' :: digits) ∧ IsDecimal digits n) ∧ n ≤ max := by
  have hread {cs : List Char} (hne : cs ≠ []) :
      readDigits 10 max .tooLarge 0 cs = .ok n ↔ IsDecimal cs n ∧ n ≤ max := by
    rw [readDigits_eq_ok_iff (Nat.zero_le max), ← and_assoc]
    exact and_congr_left fun _ =>
      ⟨fun h => ⟨hne, h.1, h.2⟩, fun h => ⟨h.all_digits, h.value⟩⟩
  have hplus {cs : List Char} : ¬ IsDecimal ('+' :: cs) n := fun h =>
    absurd (h.all_digits '+' List.mem_cons_self) (by decide)
  have hsplit : (∃ digits, (s = digits ∨ s = '+' :: digits) ∧ IsDecimal digits n) ↔
      IsDecimal s n ∨ ∃ digits, s = '+' :: digits ∧ IsDecimal digits n := by
    constructor
    · rintro ⟨digits, rfl | rfl, h⟩
      · exact .inl h
      · exact .inr ⟨digits, rfl, h⟩
    · rintro (h | ⟨digits, rfl, h⟩)
      · exact ⟨s, .inl rfl, h⟩
      · exact ⟨digits, .inr rfl, h⟩
  rw [hsplit]
  unfold natural?
  split
  · simp only [reduceCtorEq, false_iff]
    rintro ⟨h | ⟨digits, hs, -⟩, -⟩
    · exact h.ne_nil rfl
    · cases hs
  · simp only [reduceCtorEq, false_iff]
    rintro ⟨h | ⟨digits, hs, h⟩, -⟩
    · exact hplus h
    · cases hs
      exact h.ne_nil rfl
  · rename_i cs hne
    rw [hread fun hcs => hne (hcs ▸ rfl)]
    refine and_congr_left fun _ => ⟨fun h => .inr ⟨cs, rfl, h⟩, ?_⟩
    rintro (h | ⟨digits, hs, h⟩)
    · exact absurd h hplus
    · cases hs
      exact h
  · rename_i hne _ hplain
    rw [hread hne]
    refine and_congr_left fun _ => ⟨.inl, ?_⟩
    rintro (h | ⟨digits, hs, -⟩)
    · exact h
    · exact absurd hs (hplain digits)

end PeerLink.Text
