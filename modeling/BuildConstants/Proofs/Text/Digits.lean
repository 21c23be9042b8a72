import BuildConstants.Proofs.Outcome
import BuildConstants.Text.Digits
import Mathlib.Data.List.Induction
import Mathlib.Data.Nat.Digits.Defs
import Mathlib.Tactic.IntervalCases

/-!
# What digits stand for

A digit of a base is a place in one of two rows of characters, which differ in the letters that go
on behind nine. Digits stand for a number by their values, the highest one first.
-/

namespace BuildConstants.Text

/-- The character is a digit of a base with this value. -/
def IsDigit (base : Nat) (c : Char) (value : Nat) : Prop :=
  value < base ∧
    ("0123456789abcdef".toList[value]? = some c ∨ "0123456789ABCDEF".toList[value]? = some c)

/-- Digits of a base stand for a number. -/
def StandsFor (base : Nat) (digits : List Char) (n : Nat) : Prop :=
  ∃ values, List.Forall₂ (IsDigit base) digits.reverse values ∧ Nat.ofDigits base values = n

variable {base n value : Nat} {first c : Char} {digits : List Char}

theorem standsFor_snoc_iff :
    StandsFor base (digits ++ [c]) n ↔
      ∃ number value, StandsFor base digits number ∧ IsDigit base c value ∧
        number * base + value = n := by
  rw [StandsFor, List.reverse_append, List.reverse_singleton, List.singleton_append]
  constructor
  · rintro ⟨_, _ | ⟨isDigit, others⟩, rfl⟩
    refine ⟨_, _, ⟨_, others, rfl⟩, isDigit, ?_⟩
    rw [Nat.ofDigits_cons, Nat.mul_comm, Nat.add_comm]
  · rintro ⟨_, value, ⟨values, others, rfl⟩, isDigit, rfl⟩
    refine ⟨value :: values, .cons isDigit others, ?_⟩
    rw [Nat.ofDigits_cons, Nat.mul_comm, Nat.add_comm]

/-- Every character among digits that stand for a number is a digit. -/
theorem StandsFor.exists_isDigit (stands : StandsFor base digits n) (member : c ∈ digits) :
    ∃ value, IsDigit base c value := by
  obtain ⟨values, each, -⟩ := stands
  obtain ⟨value, -, isDigit⟩ := exists_of_forall₂ each.flip (List.mem_reverse.2 member)
  exact ⟨value, isDigit⟩

theorem IsDigit.isDigit (isDigit : IsDigit 10 c value) : c.isDigit := by
  obtain ⟨small, isPlace | isPlace⟩ := isDigit
  all_goals interval_cases value <;> (cases isPlace; rfl)

/-- A row that lists some characters from `first` on, lists them at their distance. -/
theorem getElem?_of_le {row : List Char} (start count : Nat) (behind : first ≤ c)
    (within : c.toNat - first.toNat < count)
    (listed : ∀ distance < count,
      row[distance + start]? = some (Char.ofNat (first.toNat + distance))) :
    row[c.toNat - first.toNat + start]? = some c := by
  have least : first.toNat ≤ c.toNat := behind
  rw [listed _ within, Nat.add_sub_cancel' least, Char.ofNat_toNat]

theorem digit?_eq_some_iff (small : value < 16) :
    digit? c = some value ↔ "0123456789abcdef".toList[value]? = some c ∨
      "0123456789ABCDEF".toList[value]? = some c := by
  constructor
  · intro isValue
    unfold digit? at isValue
    simp only [Bool.and_eq_true, decide_eq_true_eq] at isValue
    split_ifs at isValue with number lower upper
    · cases isValue
      have most : c.toNat ≤ '9'.toNat := number.2
      have within : c.toNat - '0'.toNat < 10 := Nat.lt_succ_of_le (Nat.sub_le_sub_right most 48)
      exact .inl (getElem?_of_le 0 10 number.1 within (by decide))
    · cases isValue
      have within : c.toNat - 'a'.toNat < 6 := Nat.lt_of_add_lt_add_right small
      exact .inl (getElem?_of_le 10 6 lower.1 within (by decide))
    · cases isValue
      have within : c.toNat - 'A'.toNat < 6 := Nat.lt_of_add_lt_add_right small
      exact .inr (getElem?_of_le 10 6 upper.1 within (by decide))
  · rintro (isPlace | isPlace)
    all_goals interval_cases value <;> (cases isPlace; rfl)

theorem digitOf?_eq_some_iff (small : base ≤ 16) :
    digitOf? base c = some value ↔ IsDigit base c value := by
  rw [digitOf?, Option.filter_eq_some_iff, decide_eq_true_iff, IsDigit, and_comm]
  exact and_congr_right fun isBelow => digit?_eq_some_iff (isBelow.trans_le small)

/-- Digits are read as the number that they stand for. -/
theorem ofDigits?_eq_some_iff (small : base ≤ 16) :
    ofDigits? base digits = some n ↔ StandsFor base digits n := by
  induction digits using List.reverseRecOn generalizing n with
  | nil => simp [ofDigits?, StandsFor, eq_comm]
  | append_singleton digits c ih =>
      have read : ofDigits? base (digits ++ [c]) = (ofDigits? base digits).bind fun number =>
          (digitOf? base c).map (number * base + ·) := by
        simp [ofDigits?, List.foldlM_append]
      simp only [read, Option.bind_eq_some_iff, Option.map_eq_some_iff, ih,
        digitOf?_eq_some_iff small, standsFor_snoc_iff]
      exact exists_congr fun _ => exists_and_left.symm

end BuildConstants.Text
