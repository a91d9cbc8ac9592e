import Reckoner.Parse.Basic
import Reckoner.Proofs.Scanning.Decomposition

/-!
# The places of tokens

A token begins where the one in front of it has ended or further behind, and it takes at least
one character. So the places of the tokens of a line increase strictly and lie within the line
(`Reckoner.Decomposes.places`), and a place tells which tokens are in front of it
(`Reckoner.Scanner.filter_tokens_eq`).
-/

namespace Reckoner

/-- **The places of a text** that has `n` characters in front of it increase strictly and lie
within it. -/
theorem Decomposes.places {n : Nat} {cs : List Char} {ts : List Located}
    (h : Decomposes n cs ts) :
    ts.Pairwise (·.position < ·.position) ∧
      ∀ t ∈ ts, n ≤ t.position ∧ t.position < n + cs.length := by
  induction h with
  | blank => exact ⟨.nil, List.forall_mem_nil _⟩
  | @lexeme n ws w cs t ts hws hw ht h ih =>
    obtain ⟨hsorted, hbounds⟩ := ih
    have hpos : 0 < w.length := List.length_pos_of_ne_nil hw.lexeme.ne_nil
    simp only [List.pairwise_cons, List.forall_mem_cons, List.length_append]
    refine ⟨⟨fun u hu => ?_, hsorted⟩, by omega, fun u hu => ?_⟩
    · have hle := (hbounds u hu).1
      omega
    · have hu := hbounds u hu
      omega
  | unrecognized =>
    simp only [List.forall_mem_singleton, List.length_append, List.length_cons]
    exact ⟨List.pairwise_singleton _ _, by omega⟩

namespace Scanner

variable {line : String}

/-- A token begins in front of the end of the line. -/
theorem position_lt_of_mem_tokens {t : Located} (h : t ∈ (ofLine line).tokens) :
    t.position < line.length := by
  have hlt := ((decomposes_tokens (ofLine line)).places.2 t h).2
  rwa [ofLine, Nat.zero_add, String.length_toList] at hlt

/-- The end of the line is none of its tokens. -/
theorem ne_finish_of_mem_tokens {t : Located} (h : t ∈ (ofLine line).tokens) :
    t.token ≠ .finish := by
  rcases (decomposes_tokens (ofLine line)).exists_denotes_or t h with ⟨w, hw⟩ | ⟨rest, hrest⟩
  · intro ht
    rw [ht] at hw
    cases hw
  · rw [hrest]
    nofun

/-- **The tokens in front of a token**, or in front of the end of the line, are those at lesser
places. -/
theorem filter_tokens_eq {ts us : List Located} (h : (ofLine line).tokens = ts ++ us) :
    (ofLine line).tokens.filter (·.position < Parse.place line.length us) = ts := by
  have hsorted := (decomposes_tokens (ofLine line)).places.1
  rw [h] at hsorted ⊢
  obtain ⟨-, hus, hlt⟩ := List.pairwise_append.mp hsorted
  rw [List.filter_append, List.filter_eq_self.mpr, List.filter_eq_nil_iff.mpr, List.append_nil]
  · intro u hu
    cases us with
    | nil => cases hu
    | cons t us =>
      rw [decide_eq_true_iff, Nat.not_lt, Parse.place]
      rcases List.mem_cons.mp hu with rfl | hu
      · exact Nat.le_refl _
      · exact Nat.le_of_lt ((List.pairwise_cons.mp hus).1 u hu)
  · intro t ht
    rw [decide_eq_true_iff]
    cases us with
    | nil => exact position_lt_of_mem_tokens (h ▸ List.mem_append_left _ ht)
    | cons u us => exact hlt t ht u List.mem_cons_self

end Scanner

end Reckoner
