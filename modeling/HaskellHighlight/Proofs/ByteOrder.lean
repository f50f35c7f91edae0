import HaskellHighlight.NameMap
import Mathlib.Tactic.SplitIfs

/-! The order of texts by their UTF-8 bytes, which is the order by their characters. -/
namespace HaskellHighlight

def utf8Bytes (text : String) : List UInt8 := text.toUTF8.data.toList

theorem utf8Bytes_eq (text : String) : utf8Bytes text = text.toList.flatMap String.utf8EncodeChar := by
  have encoded : text.toUTF8 = text.toList.utf8Encode := by
    rw [String.toUTF8_eq_toByteArray, ← String.toByteArray_ofList, String.ofList_toList]
  rw [utf8Bytes, encoded, List.utf8Encode, List.toList_data_toByteArray]

theorem ofNat_cons_lt {m n : Nat} {s t : List UInt8} (bound : n < 256) (le : m ≤ n)
    (rest : m = n → s < t) : UInt8.ofNat m :: s < UInt8.ofNat n :: t := by
  rw [List.cons_lt_cons_iff]
  rcases Nat.lt_or_eq_of_le le with lt | eq
  · left
    rwa [UInt8.lt_iff_toNat_lt, UInt8.toNat_ofNat_of_lt' (Nat.lt_trans lt bound),
      UInt8.toNat_ofNat_of_lt' bound]
  · exact Or.inr ⟨congrArg UInt8.ofNat eq, rest eq⟩

/-- Characters in order have bytes in order, whatever follows them. The first byte is greater where
there are more bytes, and bytes of one number hold the digits of the code point from the highest
one on. -/
theorem utf8EncodeChar_append_lt {c d : Char} (before : c < d) (s t : List UInt8) :
    String.utf8EncodeChar c ++ s < String.utf8EncodeChar d ++ t := by
  have before : c.val.toNat < d.val.toNat := before
  have bound : d.val.toNat < 0x110000 := by
    rcases d.valid with low | ⟨-, high⟩
    · exact Nat.lt_trans low (by decide)
    · exact high
  simp only [String.utf8EncodeChar]
  generalize c.val.toNat = m at *
  generalize d.val.toNat = n at *
  have one (same : m / 64 = n / 64) :
      UInt8.ofNat (m % 64 + 128) :: s < UInt8.ofNat (n % 64 + 128) :: t :=
    ofNat_cons_lt (by omega) (by omega) fun eq => absurd eq (by omega)
  have two (same : m / 4096 = n / 4096) :
      UInt8.ofNat (m / 64 % 64 + 128) :: UInt8.ofNat (m % 64 + 128) :: s <
        UInt8.ofNat (n / 64 % 64 + 128) :: UInt8.ofNat (n % 64 + 128) :: t :=
    ofNat_cons_lt (by omega) (by omega) fun eq => one (by omega)
  have three (same : m / 262144 = n / 262144) :
      UInt8.ofNat (m / 4096 % 64 + 128) :: UInt8.ofNat (m / 64 % 64 + 128) ::
          UInt8.ofNat (m % 64 + 128) :: s <
        UInt8.ofNat (n / 4096 % 64 + 128) :: UInt8.ofNat (n / 64 % 64 + 128) ::
          UInt8.ofNat (n % 64 + 128) :: t :=
    ofNat_cons_lt (by omega) (by omega) fun eq => two (by omega)
  -- the later character never has fewer bytes; where it has more, the first byte decides
  split_ifs
  all_goals first
    | omega
    | exact ofNat_cons_lt (by omega) (by omega) fun eq => absurd eq (by omega)
    | refine ofNat_cons_lt (by omega) (by omega) fun eq => ?_
  · exact one (by omega)
  · exact two (by omega)
  · exact three (by omega)

/-- Texts in order have bytes in order, by the first character in which they differ. -/
theorem flatMap_utf8EncodeChar_lt {s t : List Char} (before : s < t) :
    s.flatMap String.utf8EncodeChar < t.flatMap String.utf8EncodeChar := by
  induction s generalizing t with
  | nil =>
    cases t with
    | nil => exact absurd before (List.lt_irrefl [])
    | cons d t =>
      rw [List.flatMap_cons, List.flatMap_nil]
      cases bytes : String.utf8EncodeChar d with
      | nil => exact absurd bytes String.utf8EncodeChar_ne_nil
      | cons byte rest => exact List.nil_lt_cons _ _
  | cons c s ih =>
    cases t with
    | nil => exact absurd before (List.not_lt_nil _)
    | cons d t =>
      rw [List.flatMap_cons, List.flatMap_cons]
      rcases List.cons_lt_cons_iff.mp before with lower | ⟨rfl, rest⟩
      · exact utf8EncodeChar_append_lt lower _ _
      · exact List.append_left_lt (ih rest)

/-- The order by bytes is the order by characters. -/
theorem utf8Bytes_lt_iff {a b : String} : utf8Bytes a < utf8Bytes b ↔ a < b := by
  have monotone {a b : String} (before : a < b) : utf8Bytes a < utf8Bytes b := by
    rw [utf8Bytes_eq, utf8Bytes_eq]
    exact flatMap_utf8EncodeChar_lt before
  refine ⟨fun bytes => Decidable.byContradiction fun not_before => ?_, monotone⟩
  by_cases after : b < a
  · exact List.lt_asymm bytes (monotone after)
  · obtain rfl := String.le_antisymm (String.not_lt.mp after) (String.not_lt.mp not_before)
    exact List.lt_irrefl _ bytes

end HaskellHighlight
