/-!
# Tables of code points

A property of characters is kept as a table of ascending runs of code points. Main statement:
`Ranges.holds_iff`, a character has the property exactly when some run of the table covers it.
-/

namespace HindiScript.Text

/-- Each run is ordered, and ends before the next one starts. -/
def ascending : List (Nat × Nat) → Bool
  | [] => true
  | [(lo, hi)] => lo ≤ hi
  | (lo, hi) :: (lo', hi') :: rest => lo ≤ hi && hi < lo' && ascending ((lo', hi') :: rest)

/-- A table of runs of code points, both ends of a run included. `ascending` lets the search stop early. -/
structure Ranges where
  pairs : List (Nat × Nat)
  ordered : ascending pairs = true := by decide +kernel

/-- Some run covers the code point. The search stops at the first run that starts beyond it. -/
def covered : List (Nat × Nat) → Nat → Bool
  | [], _ => false
  | (lo, hi) :: rest, n => lo ≤ n && (n ≤ hi || covered rest n)

def Ranges.holds (r : Ranges) (c : Char) : Bool := covered r.pairs c.toNat

theorem ascending_tail {p : Nat × Nat} {rest : List (Nat × Nat)} (h : ascending (p :: rest) = true) :
    ascending rest = true := by
  cases rest with
  | nil => rfl
  | cons q rest => simp [ascending] at h; exact h.2

/-- Every later run starts beyond the end of the first. -/
theorem lt_of_ascending {lo hi : Nat} {rest : List (Nat × Nat)}
    (h : ascending ((lo, hi) :: rest) = true) : ∀ q ∈ rest, hi < q.1 := by
  induction rest generalizing lo hi with
  | nil => simp
  | cons q rest ih =>
    obtain ⟨lo', hi'⟩ := q
    simp [ascending] at h
    intro r hr
    have hq : lo' ≤ hi' := by
      cases rest with
      | nil => simpa [ascending] using h.2
      | cons s rest => simp [ascending] at h; omega
    rcases List.mem_cons.mp hr with rfl | hr
    · exact h.1.2
    · have := ih h.2 r hr
      omega

theorem covered_iff {pairs : List (Nat × Nat)} (h : ascending pairs = true) (n : Nat) :
    covered pairs n = true ↔ ∃ p ∈ pairs, p.1 ≤ n ∧ n ≤ p.2 := by
  induction pairs with
  | nil => simp [covered]
  | cons p rest ih =>
    obtain ⟨lo, hi⟩ := p
    have hlt := lt_of_ascending h
    have hle : lo ≤ hi := by
      cases rest with
      | nil => simpa [ascending] using h
      | cons s rest => simp [ascending] at h; omega
    simp only [covered, Bool.and_eq_true, Bool.or_eq_true, decide_eq_true_eq, ih (ascending_tail h),
      List.mem_cons, exists_eq_or_imp]
    constructor
    · rintro ⟨h1, h2 | h2⟩
      · exact Or.inl ⟨h1, h2⟩
      · exact Or.inr h2
    · rintro (h1 | ⟨q, hq, h1, h2⟩)
      · exact ⟨h1.1, Or.inl h1.2⟩
      · exact ⟨by have := hlt q hq; omega, Or.inr ⟨q, hq, h1, h2⟩⟩

theorem Ranges.holds_iff (r : Ranges) (c : Char) :
    r.holds c = true ↔ ∃ p ∈ r.pairs, p.1 ≤ c.toNat ∧ c.toNat ≤ p.2 :=
  covered_iff r.ordered c.toNat

end HindiScript.Text
