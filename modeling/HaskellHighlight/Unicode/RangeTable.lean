/-! Sets of characters given by ascending closed ranges of code points, and their membership
test. The test stops at the first range above the code point, so it is right only because the
ranges ascend; the type carries that fact. -/
namespace HaskellHighlight.Unicode

/-- The ranges start at `low` or later, none is empty, and each ends before the next begins. -/
def ascendsFrom (low : Nat) : List (Nat × Nat) → Bool
  | [] => true
  | (first, last) :: more => low ≤ first && first ≤ last && ascendsFrom (last + 1) more

def inRanges (code : Nat) : List (Nat × Nat) → Bool
  | [] => false
  | (first, last) :: more => if code < first then false else code ≤ last || inRanges code more

/-- A set of code points as ascending closed ranges. -/
structure RangeTable where
  ranges : List (Nat × Nat)
  ascending : ascendsFrom 0 ranges = true

def RangeTable.contains (table : RangeTable) (c : Char) : Bool :=
  inRanges c.toNat table.ranges

private theorem le_of_mem_ascending {ranges : List (Nat × Nat)} {low : Nat}
    (h : ascendsFrom low ranges = true) {range : Nat × Nat} (mem : range ∈ ranges) :
    low ≤ range.1 := by
  induction ranges generalizing low with
  | nil => simp at mem
  | cons head more ih =>
    obtain ⟨first, last⟩ := head
    simp only [ascendsFrom, Bool.and_eq_true, decide_eq_true_eq] at h
    rcases List.mem_cons.1 mem with rfl | mem
    · exact h.1.1
    · have := ih h.2 mem
      omega

private theorem inRanges_iff {ranges : List (Nat × Nat)} {low : Nat}
    (h : ascendsFrom low ranges = true) (code : Nat) :
    inRanges code ranges = true ↔ ∃ range ∈ ranges, range.1 ≤ code ∧ code ≤ range.2 := by
  induction ranges generalizing low with
  | nil => simp [inRanges]
  | cons head more ih =>
    obtain ⟨first, last⟩ := head
    have rest : ascendsFrom (last + 1) more = true := by
      simp only [ascendsFrom, Bool.and_eq_true] at h
      exact h.2
    have ends : first ≤ last := by
      simp only [ascendsFrom, Bool.and_eq_true, decide_eq_true_eq] at h
      exact h.1.2
    rw [inRanges]
    by_cases below : code < first
    · simp only [below, if_true, Bool.false_eq_true, false_iff]
      rintro ⟨range, mem, lo, -⟩
      rcases List.mem_cons.1 mem with rfl | mem
      · simp only at lo
        omega
      · have := le_of_mem_ascending rest mem
        omega
    · simp only [below, if_false, Bool.or_eq_true, decide_eq_true_eq, ih rest, List.mem_cons,
        exists_eq_or_imp]
      constructor
      · rintro (h | h)
        · exact Or.inl ⟨by omega, h⟩
        · exact Or.inr h
      · rintro (⟨-, h⟩ | h)
        · exact Or.inl h
        · exact Or.inr h

theorem RangeTable.contains_iff (table : RangeTable) (c : Char) :
    table.contains c = true ↔
      ∃ range ∈ table.ranges, range.1 ≤ c.toNat ∧ c.toNat ≤ range.2 :=
  inRanges_iff table.ascending c.toNat

end HaskellHighlight.Unicode
