import Reckoner.Text.Alphabetic
import Reckoner.Text.Words

/-!
# Kinds of characters

White space, letters and digits are told apart by ranges of code points. No two of the
three kinds have a character in common, and the signs of the operators are of no kind;
this is all that the rest of the theory knows of the tables.
-/

namespace Reckoner

namespace Text

/-- No range of white space meets the letters of ASCII or a range of others. -/
theorem spaceRanges_disjoint : ∀ q ∈ spaceRanges, (q.2 < 65 ∨ 122 < q.1) ∧
    ∀ r ∈ alphabeticRanges, r.2 < q.1 ∨ q.2 < r.1 := by
  decide +kernel

/-- Where the letters are. -/
theorem toNat_of_isLetter {c : Char} (h : isLetter c) :
    65 ≤ c.toNat ∧ c.toNat ≤ 90 ∨ 97 ≤ c.toNat ∧ c.toNat ≤ 122 ∨
      128 ≤ c.toNat ∧ ∃ r ∈ alphabeticRanges, r.1 ≤ c.toNat ∧ c.toNat ≤ r.2 := by
  rw [isLetter] at h
  split at h
  · rcases (Bool.or_eq_true _ _).mp h with hupper | hlower
    · obtain ⟨hlo, hhi⟩ : c.val ≥ 'A'.val ∧ c.val ≤ 'Z'.val := of_decide_eq_true hupper
      exact .inl ⟨UInt32.le_iff_toNat_le.mp hlo, UInt32.le_iff_toNat_le.mp hhi⟩
    · obtain ⟨hlo, hhi⟩ := (Bool.and_eq_true _ _).mp hlower
      exact .inr (.inl ⟨UInt32.le_iff_toNat_le.mp (of_decide_eq_true hlo),
        UInt32.le_iff_toNat_le.mp (of_decide_eq_true hhi)⟩)
  · next hascii =>
    obtain ⟨r, hr, hc⟩ := List.any_eq_true.mp h
    exact .inr (.inr ⟨Nat.le_of_not_lt hascii, r, hr, by simpa using hc⟩)

/-- **No letter is white space.** -/
theorem isSpace_eq_false_of_isLetter {c : Char} (h : isLetter c) : isSpace c = false := by
  refine Bool.eq_false_iff.mpr fun hspace => ?_
  obtain ⟨q, hq, hc⟩ := List.any_eq_true.mp hspace
  obtain ⟨hlo, hhi⟩ : q.1 ≤ c.toNat ∧ c.toNat ≤ q.2 := by simpa using hc
  obtain ⟨hascii, hranges⟩ := spaceRanges_disjoint q hq
  rcases toNat_of_isLetter h with hl | hl | ⟨-, r, hr, hl⟩
  · omega
  · omega
  · have := hranges r hr
    omega

/-- A digit is no white space. -/
theorem isSpace_eq_false_of_isDigit {c : Char} (h : c.isDigit) : isSpace c = false := by
  obtain ⟨hlo, hhi⟩ : 48 ≤ c.toNat ∧ c.toNat ≤ 57 := Char.isDigit_iff_toNat.mp h
  simp only [isSpace, spaceRanges, List.any_cons, List.any_nil, Bool.or_eq_false_iff,
    Bool.and_eq_false_iff, decide_eq_false_iff_not, and_true]
  omega

/-- A letter is no digit. -/
theorem isDigit_eq_false_of_isLetter {c : Char} (h : isLetter c) : c.isDigit = false := by
  refine Bool.eq_false_iff.mpr fun hdigit => ?_
  obtain ⟨hlo, hhi⟩ : 48 ≤ c.toNat ∧ c.toNat ≤ 57 := Char.isDigit_iff_toNat.mp hdigit
  rcases toNat_of_isLetter h with hl | hl | ⟨hl, -⟩ <;> omega

end Text

end Reckoner
