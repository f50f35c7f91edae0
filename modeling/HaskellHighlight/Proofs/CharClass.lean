import HaskellHighlight.Lexer.Literal

/-! Inclusions between the character classes that the lexer dispatches on. -/
namespace HaskellHighlight

namespace Unicode

/-- Whether every one of the `inner` ranges lies inside one of the `outer` ranges. Both are taken
in ascending order, so that one pass over them is enough. -/
def rangesWithin : List (Nat × Nat) → List (Nat × Nat) → Bool
  | inner, [] => inner.isEmpty
  | inner, range :: outer =>
    rangesWithin (inner.dropWhile fun r => range.1 ≤ r.1 && r.2 ≤ range.2) outer

private theorem mem_dropWhile_or {α : Type} {p : α → Bool} {a : α} {items : List α}
    (h : a ∈ items) : p a = true ∨ a ∈ items.dropWhile p := by
  rw [← List.takeWhile_append_dropWhile (p := p) (l := items), List.mem_append] at h
  rcases h with h | h
  · exact Or.inl (List.all_eq_true.mp List.all_takeWhile a h)
  · exact Or.inr h

private theorem exists_of_rangesWithin {inner outer : List (Nat × Nat)}
    (h : rangesWithin inner outer = true) {r : Nat × Nat} (hr : r ∈ inner) :
    ∃ range ∈ outer, range.1 ≤ r.1 ∧ r.2 ≤ range.2 := by
  induction outer generalizing inner with
  | nil =>
    rw [rangesWithin, List.isEmpty_iff] at h
    simp [h] at hr
  | cons range outer ih =>
    rw [rangesWithin] at h
    rcases mem_dropWhile_or (p := fun r => range.1 ≤ r.1 && r.2 ≤ range.2) hr with inside | later
    · have inside : range.1 ≤ r.1 ∧ r.2 ≤ range.2 := by simpa using inside
      exact ⟨range, List.mem_cons_self, inside⟩
    · obtain ⟨found, mem, bounds⟩ := ih h later
      exact ⟨found, List.mem_cons_of_mem _ mem, bounds⟩

/-- A table whose ranges lie inside those of another one has no further members. -/
theorem RangeTable.contains_of_within {inner outer : RangeTable}
    (h : rangesWithin inner.ranges outer.ranges = true) {c : Char}
    (hc : inner.contains c = true) : outer.contains c = true := by
  obtain ⟨r, hr, low, high⟩ := (inner.contains_iff c).mp hc
  obtain ⟨range, mem, below, above⟩ := exists_of_rangesWithin h hr
  exact (outer.contains_iff c).mpr ⟨range, mem, by omega, by omega⟩

private theorem uppercase_within_alphabetic :
    rangesWithin uppercaseTable.ranges alphabeticTable.ranges = true := by decide +kernel

theorem isAlphabetic_of_isUppercase {c : Char} (h : isUppercase c = true) :
    isAlphabetic c = true :=
  RangeTable.contains_of_within uppercase_within_alphabetic h

def rangesApart (ranges others : List (Nat × Nat)) : Bool :=
  ranges.all fun r => others.all fun s => r.2 < s.1 || s.2 < r.1

/-- No character lies in two tables whose ranges do not meet. -/
theorem RangeTable.contains_eq_false_of_apart {table other : RangeTable}
    (h : rangesApart table.ranges other.ranges = true) {c : Char}
    (hc : table.contains c = true) : other.contains c = false := by
  rw [Bool.eq_false_iff]
  intro hd
  obtain ⟨r, hr, low, high⟩ := (table.contains_iff c).mp hc
  obtain ⟨s, hs, below, above⟩ := (other.contains_iff c).mp hd
  have := List.all_eq_true.mp (List.all_eq_true.mp h r hr) s hs
  simp only [Bool.or_eq_true, decide_eq_true_eq] at this
  omega

private theorem blank_apart_alphabetic :
    rangesApart blankTable.ranges alphabeticTable.ranges = true := by decide +kernel

theorem isAlphabetic_eq_false_of_isBlank {c : Char} (h : isBlank c = true) :
    isAlphabetic c = false :=
  RangeTable.contains_eq_false_of_apart blank_apart_alphabetic h

private def digitTable : RangeTable := ⟨[(0x30, 0x39)], rfl⟩

private theorem digits_apart_alphabetic :
    rangesApart digitTable.ranges alphabeticTable.ranges = true := by decide +kernel

private theorem digits_apart_blank :
    rangesApart digitTable.ranges blankTable.ranges = true := by decide +kernel

theorem isAsciiDigit_iff {c : Char} :
    isAsciiDigit c = true ↔ 0x30 ≤ c.toNat ∧ c.toNat ≤ 0x39 := by
  simp only [isAsciiDigit, Bool.and_eq_true, decide_eq_true_eq]
  rfl

private theorem digitTable_contains {c : Char} (h : isAsciiDigit c = true) :
    digitTable.contains c = true :=
  (digitTable.contains_iff c).mpr ⟨_, List.mem_singleton.mpr rfl, isAsciiDigit_iff.mp h⟩

theorem isAlphabetic_eq_false_of_isAsciiDigit {c : Char} (h : isAsciiDigit c = true) :
    isAlphabetic c = false :=
  RangeTable.contains_eq_false_of_apart digits_apart_alphabetic (digitTable_contains h)

theorem isBlank_eq_false_of_isAsciiDigit {c : Char} (h : isAsciiDigit c = true) :
    isBlank c = false :=
  RangeTable.contains_eq_false_of_apart digits_apart_blank (digitTable_contains h)

end Unicode

namespace Lexer
open Unicode

theorem isIdentChar_of_isLarge {c : Char} (h : isLarge c = true) : isIdentChar c = true := by
  have : isAlphabetic c = true := isAlphabetic_of_isUppercase h
  simp [isIdentChar, isAlphanumeric, this]

theorem isIdentChar_of_isSmall {c : Char} (h : isSmall c = true) : isIdentChar c = true := by
  simp only [isSmall, Bool.or_eq_true, Bool.and_eq_true, decide_eq_true_eq] at h
  rcases h with rfl | ⟨h, -⟩
  · decide
  · simp [isIdentChar, isAlphanumeric, h]

private theorem asciiSymbols_apart :
    (asciiSymbols.all fun c => !isIdentChar c && !isBlank c && !isAsciiDigit c) = true := by decide

/-- Operator characters are apart from those of identifiers, from white space and from digits. -/
theorem isSymbol_apart {c : Char} (h : isSymbol c = true) :
    isIdentChar c = false ∧ isBlank c = false ∧ isAsciiDigit c = false := by
  rw [isSymbol] at h
  split at h
  · have apart := List.all_eq_true.mp asciiSymbols_apart c (List.contains_iff_mem.mp h)
    simpa [and_assoc] using apart
  · rename_i high
    have mark : c ≠ '_' ∧ c ≠ '\'' :=
      ⟨by rintro rfl; exact high rfl, by rintro rfl; exact high rfl⟩
    simp only [Bool.and_eq_true, Bool.not_eq_true'] at h
    refine ⟨by simp [isIdentChar, h.1, mark], h.2, Bool.eq_false_iff.mpr fun digit => ?_⟩
    have low := (isAsciiDigit_iff.mp digit).2
    exact high (decide_eq_true (Nat.lt_of_le_of_lt low (by decide)))

theorem not_name_of_isSymbol {c : Char} (h : isSymbol c = true) :
    isSmall c = false ∧ isLarge c = false := by
  have other := (isSymbol_apart h).1
  constructor
  · exact Bool.eq_false_iff.mpr fun small =>
      Bool.false_ne_true (other.symm.trans (isIdentChar_of_isSmall small))
  · exact Bool.eq_false_iff.mpr fun large =>
      Bool.false_ne_true (other.symm.trans (isIdentChar_of_isLarge large))

theorem isSmall_eq_false_of_isLarge {c : Char} (h : isLarge c = true) : isSmall c = false := by
  have plain : c ≠ '_' := by rintro rfl; exact absurd h (by decide)
  have upper : isUppercase c = true := h
  simp [isSmall, plain, upper]

theorem isName_apart {c : Char} (h : isSmall c = true ∨ isLarge c = true) :
    isBlank c = false ∧ isAsciiDigit c = false := by
  have letter : c = '_' ∨ isAlphabetic c = true := by
    rcases h with small | large
    · simp only [isSmall, Bool.or_eq_true, Bool.and_eq_true, decide_eq_true_eq] at small
      exact small.imp_right And.left
    · exact Or.inr (isAlphabetic_of_isUppercase large)
  rcases letter with rfl | letter
  · decide
  · exact ⟨Bool.eq_false_iff.mpr fun blank => Bool.false_ne_true
        ((isAlphabetic_eq_false_of_isBlank blank).symm.trans letter),
      Bool.eq_false_iff.mpr fun digit => Bool.false_ne_true
        ((isAlphabetic_eq_false_of_isAsciiDigit digit).symm.trans letter)⟩

end Lexer

end HaskellHighlight
