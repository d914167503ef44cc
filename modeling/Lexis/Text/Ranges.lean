/-!
# Ordered code point ranges

A character class is given by the closed ranges of its code points, in increasing order. Looking a
code point up stops at the first range that begins beyond it. On an ordered table the answer is
membership in one of the ranges (`holds_iff`).
-/

namespace Lexis.Text

/-- Closed ranges of code points, each pair the first and the last member. -/
abbrev Ranges := List (Nat × Nat)

namespace Ranges

/-- Whether a code point lies in one of the ranges, for ranges in increasing order. -/
def holds : Ranges → Nat → Bool
  | [], _ => false
  | (first, last) :: rest, n =>
    if n < first then false else if n ≤ last then true else holds rest n

/-- Each range begins beyond the end of every range before it. -/
def Ordered (r : Ranges) : Prop := r.Pairwise fun a b ↦ a.2 < b.1

/-- No code point lies in an empty table. -/
@[simp] theorem holds_nil (n : Nat) : holds [] n = false := rfl

/-- A code point found lies in one of the ranges. -/
theorem exists_of_holds {r : Ranges} {n : Nat} (h : holds r n = true) :
    ∃ p ∈ r, p.1 ≤ n ∧ n ≤ p.2 := by
  induction r with
  | nil => simp at h
  | cons p rest ih =>
    obtain ⟨first, last⟩ := p
    unfold holds at h
    split at h
    · exact absurd h (by decide)
    · next hf =>
      split at h
      · next hl => exact ⟨(first, last), by simp, by simpa using hf, hl⟩
      · obtain ⟨q, hq, hn⟩ := ih h
        exact ⟨q, List.mem_cons_of_mem _ hq, hn⟩

/-- On an ordered table, look-up is membership in one of the ranges. -/
theorem holds_iff {r : Ranges} (hr : Ordered r) (hv : ∀ p ∈ r, p.1 ≤ p.2) (n : Nat) :
    holds r n = true ↔ ∃ p ∈ r, p.1 ≤ n ∧ n ≤ p.2 := by
  refine ⟨exists_of_holds, ?_⟩
  rintro ⟨p, hp, hn⟩
  induction r with
  | nil => simp at hp
  | cons q rest ih =>
    obtain ⟨first, last⟩ := q
    have ho := List.pairwise_cons.mp hr
    unfold holds
    rcases List.mem_cons.mp hp with rfl | hp
    · have h1 : ¬ n < first := Nat.not_lt.mpr hn.1
      have h2 : n ≤ last := hn.2
      simp [h1, h2]
    · have h0 : first ≤ last := hv (first, last) (by simp)
      have h1 : last < p.1 := ho.1 p hp
      have h2 := hn.1
      simp only [show ¬ n < first by omega, show ¬ n ≤ last by omega, if_false]
      exact ih ho.2 (fun x hx ↦ hv x (List.mem_cons_of_mem _ hx)) hp

/-- Whether no range meets the one from `a` to `b`, for ranges in increasing order. -/
def misses (a b : Nat) : Ranges → Bool
  | [] => true
  | (first, last) :: rest => b.blt first || (last.blt a && misses a b rest)

/-- Whether no range of one table meets a range of the other. -/
def apart (r r' : Ranges) : Bool := r.all fun p ↦ misses p.1 p.2 r'

/-- A code point between two that no range meets lies in none of the ranges. -/
theorem holds_of_misses {r : Ranges} {a b n : Nat} (h : misses a b r = true) (ha : a ≤ n)
    (hb : n ≤ b) : r.holds n = false := by
  induction r with
  | nil => rfl
  | cons p rest ih =>
    obtain ⟨first, last⟩ := p
    simp only [misses, Bool.or_eq_true, Bool.and_eq_true, Nat.blt_eq] at h
    rw [holds]
    rcases h with hlt | ⟨hlt, hrest⟩
    · rw [if_pos (Nat.lt_of_le_of_lt hb hlt)]
    · rw [ih hrest, if_neg (Nat.not_le.mpr (Nat.lt_of_lt_of_le hlt ha)), ite_self]

/-- A code point that lies in one of two tables whose ranges do not meet does not lie in the
other. -/
theorem holds_of_apart {r r' : Ranges} {n : Nat} (h : apart r r' = true) (hn : r.holds n = true) :
    r'.holds n = false := by
  obtain ⟨p, hp, ha, hb⟩ := exists_of_holds hn
  exact holds_of_misses (List.all_eq_true.mp h p hp) ha hb

end Ranges

end Lexis.Text
