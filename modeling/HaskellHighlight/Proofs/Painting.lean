import HaskellHighlight.Proofs.Terminal

/-! Painted text as a terminal shows it. Every character has the colour of the highlight that covers
it, and joining highlights changes nothing of that. -/
namespace HaskellHighlight
open Terminal

def Span.Contains (span : Span) (offset : Nat) : Prop :=
  span.start ≤ offset ∧ offset < span.stop

instance (span : Span) (offset : Nat) : Decidable (span.Contains offset) :=
  inferInstanceAs (Decidable (_ ∧ _))

theorem Span.contains_mk {start stop offset : Nat} :
    (Span.mk start stop).Contains offset ↔ start ≤ offset ∧ offset < stop := Iff.rfl

/-- What a terminal has to show of a text that stands at byte `offset`, where the colour of a
character depends on the offset of its first byte. -/
def shown (colorAt : Nat → Option Rgb) : Nat → List Char → List Cell
  | _, [] => []
  | offset, c :: rest => ⟨c, colorAt offset⟩ :: shown colorAt (offset + c.utf8Size) rest

section shown
variable {colorAt other : Nat → Option Rgb}

theorem shown_append (colorAt : Nat → Option Rgb) (offset : Nat) (front back : List Char) :
    shown colorAt offset (front ++ back) =
      shown colorAt offset front ++ shown colorAt (offset + Text.byteLength front) back := by
  induction front generalizing offset with
  | nil => rfl
  | cons c front ih =>
    rw [List.cons_append, shown, shown, ih, Text.byteLength, List.cons_append, Nat.add_assoc]

theorem shown_congr {offset : Nat} {text : List Char}
    (h : ∀ x, offset ≤ x → x < offset + Text.byteLength text → colorAt x = other x) :
    shown colorAt offset text = shown other offset text := by
  induction text generalizing offset with
  | nil => rfl
  | cons c text ih =>
    have size := c.utf8Size_pos
    rw [Text.byteLength] at h
    have first : colorAt offset = other offset := h offset (Nat.le_refl _) (by omega)
    rw [shown, shown, first, ih fun x low high => h x (by omega) (by omega)]

theorem shown_eq_map {offset : Nat} {text : List Char} {color : Option Rgb}
    (h : ∀ x, offset ≤ x → x < offset + Text.byteLength text → colorAt x = color) :
    shown colorAt offset text = text.map (⟨·, color⟩) := by
  have plain (offset : Nat) : shown (fun _ => color) offset text = text.map (⟨·, color⟩) := by
    clear h
    induction text generalizing offset with
    | nil => rfl
    | cons c text ih => rw [shown, ih, List.map_cons]
  exact (shown_congr h).trans (plain offset)

theorem map_char_shown (colorAt : Nat → Option Rgb) (offset : Nat) (text : List Char) :
    (shown colorAt offset text).map Cell.char = text := by
  induction text generalizing offset with
  | nil => rfl
  | cons c text ih => rw [shown, List.map_cons, ih]

theorem getElem_shown (colorAt : Nat → Option Rgb) (offset : Nat) (text : List Char) (i : Nat)
    (h : i < (shown colorAt offset text).length) :
    (shown colorAt offset text)[i].color =
      colorAt (offset + Text.byteLength (text.take i)) := by
  induction text generalizing offset i with
  | nil => contradiction
  | cons c text ih =>
    cases i with
    | zero => rfl
    | succ i =>
      rw [shown] at h
      simp only [shown, List.getElem_cons_succ, List.take_succ_cons, Text.byteLength]
      rw [ih, Nat.add_assoc]

end shown

namespace Highlight

def keyAt (offset : Nat) : List Highlight → Option Key
  | [] => none
  | highlight :: more =>
    if highlight.span.Contains offset then some highlight.key else keyAt offset more

/-- Highlights that lie in a text from byte `pos` on, in order and apart, with their ends between
characters. -/
def Fits : Nat → List Char → List Highlight → Prop
  | _, _, [] => True
  | pos, text, highlight :: more => ∃ gap part after, text = gap ++ (part ++ after) ∧
    highlight.span =
      ⟨pos + Text.byteLength gap, pos + Text.byteLength gap + Text.byteLength part⟩ ∧
    Fits highlight.span.stop after more

variable {pos offset : Nat} {text : List Char} {highlight : Highlight} {highlights : List Highlight}

theorem keyAt_eq_none (h : ∀ highlight ∈ highlights, offset < highlight.span.start) :
    keyAt offset highlights = none := by
  induction highlights with
  | nil => rfl
  | cons first more ih =>
    have outside : ¬ first.span.Contains offset := fun inside =>
      Nat.not_le.mpr (h first List.mem_cons_self) inside.1
    rw [keyAt, if_neg outside]
    exact ih fun highlight mem => h highlight (List.mem_cons_of_mem _ mem)

theorem Fits.start_le (h : Fits pos text highlights) (mem : highlight ∈ highlights) :
    pos ≤ highlight.span.start := by
  induction highlights generalizing pos text with
  | nil => contradiction
  | cons first more ih =>
    obtain ⟨gap, part, after, -, span, fits⟩ := h
    have low : pos ≤ first.span.start ∧ pos ≤ first.span.stop := by
      rw [span]
      simp only
      omega
    rcases List.mem_cons.mp mem with rfl | later
    · exact low.1
    · exact Nat.le_trans low.2 (ih fits later)

theorem keyAt_of_lt (h : Fits pos text highlights) (before : offset < pos) :
    keyAt offset highlights = none :=
  keyAt_eq_none fun _ mem => Nat.lt_of_lt_of_le before (h.start_le mem)

/-- Joining a highlight to those behind it covers the same bytes with the same keys. -/
theorem join_spec (h : Fits pos text (highlight :: highlights)) :
    Fits pos text (join highlight highlights) ∧
      ∀ x, keyAt x (join highlight highlights) = keyAt x (highlight :: highlights) := by
  cases highlights with
  | nil => exact ⟨h, fun _ => rfl⟩
  | cons next rest =>
    rw [join]
    split
    · rename_i touching
      simp only [Bool.and_eq_true, decide_eq_true_eq] at touching
      obtain ⟨same, touching⟩ := touching
      obtain ⟨gap, part, after, rfl, span, between, other, later, rfl, next_span, fits⟩ := h
      rw [next_span] at touching
      have together : between = [] := by
        cases between with
        | nil => rfl
        | cons c more =>
          have size := c.utf8Size_pos
          simp only [Text.byteLength] at touching
          omega
      subst together
      have joined : Span.mk highlight.span.start next.span.stop =
          ⟨pos + Text.byteLength gap,
            pos + Text.byteLength gap + Text.byteLength (part ++ other)⟩ := by
        rw [next_span, span, Text.byteLength_append]
        simp only [Text.byteLength, Nat.add_zero, Nat.add_assoc]
      refine ⟨⟨gap, part ++ other, later, ?_, joined, fits⟩, fun x => ?_⟩
      · rw [List.nil_append, List.append_assoc]
      · have covers : (Span.mk highlight.span.start next.span.stop).Contains x ↔
            highlight.span.Contains x ∨ next.span.Contains x := by
          rw [next_span, span]
          simp only [Span.contains_mk, Text.byteLength]
          omega
        simp only [keyAt, covers, same]
        by_cases first : highlight.span.Contains x <;> simp [first]
    · exact ⟨h, fun _ => rfl⟩

theorem merge_spec (h : Fits pos text highlights) :
    Fits pos text (merge highlights) ∧ ∀ x, keyAt x (merge highlights) = keyAt x highlights := by
  induction highlights generalizing pos text with
  | nil => exact ⟨h, fun _ => rfl⟩
  | cons highlight more ih =>
    obtain ⟨gap, part, after, cut, span, fits⟩ := h
    obtain ⟨merged, same⟩ := ih fits
    have fits : Fits pos text (highlight :: merge more) := ⟨gap, part, after, cut, span, merged⟩
    obtain ⟨joined, covered⟩ := join_spec fits
    refine ⟨joined, fun x => (covered x).trans ?_⟩
    rw [keyAt, keyAt, same]

end Highlight

namespace Render
open Highlight
variable {pos : Nat} {text : List Char} {highlights : List Highlight}

private theorem ansiFrom_cons (scheme : Scheme) {highlight : Highlight} {more : List Highlight}
    {gap part after painted : List Char}
    (span : highlight.span =
      ⟨pos + Text.byteLength gap, pos + Text.byteLength gap + Text.byteLength part⟩)
    (rest : ansiFrom scheme highlight.span.stop after more = some painted) :
    ansiFrom scheme pos (gap ++ (part ++ after)) (highlight :: more) =
      some (gap ++ setColor (scheme.colorFor highlight.key) ++ part ++ clearColor ++ painted) := by
  have before : Text.splitBytes? (Text.byteLength gap) (gap ++ (part ++ after)) =
      some (gap, part ++ after) := Text.splitBytes?_eq_some_iff.mpr ⟨rfl, rfl⟩
  have behind : Text.splitBytes? (Text.byteLength part) (part ++ after) = some (part, after) :=
    Text.splitBytes?_eq_some_iff.mpr ⟨rfl, rfl⟩
  rw [span] at rest
  simp only at rest
  have ordered : (pos + Text.byteLength gap < pos ||
      pos + Text.byteLength gap + Text.byteLength part < pos + Text.byteLength gap) = false := by
    simp
  simp only [ansiFrom, span, ordered, Bool.false_eq_true, if_false, Nat.add_sub_cancel_left, before,
    behind, rest, Option.bind_eq_bind, Option.bind_some, Option.pure_def]

private theorem shown_cons (colorFor : Key → Rgb) {highlight : Highlight} {more : List Highlight}
    {gap part after : List Char}
    (span : highlight.span =
      ⟨pos + Text.byteLength gap, pos + Text.byteLength gap + Text.byteLength part⟩)
    (fits : Fits highlight.span.stop after more) :
    shown (fun x => (keyAt x (highlight :: more)).map colorFor) pos (gap ++ (part ++ after)) =
      gap.map (⟨·, none⟩) ++ (part.map (⟨·, some (colorFor highlight.key)⟩) ++
        shown (fun x => (keyAt x more).map colorFor) highlight.span.stop after) := by
  have contains (x : Nat) : highlight.span.Contains x ↔ pos + Text.byteLength gap ≤ x ∧
      x < pos + Text.byteLength gap + Text.byteLength part := by
    rw [span, Span.contains_mk]
  have stop : highlight.span.stop = pos + Text.byteLength gap + Text.byteLength part := by
    rw [span]
  rw [shown_append, shown_append]
  congr 1
  · apply shown_eq_map
    intro x low high
    rw [keyAt, if_neg (by rw [contains]; omega), keyAt_of_lt fits (by omega), Option.map_none]
  congr 1
  · apply shown_eq_map
    intro x low high
    rw [keyAt, if_pos ((contains x).mpr ⟨low, high⟩), Option.map_some]
  · rw [stop]
    apply shown_congr
    intro x low high
    rw [keyAt, if_neg (by rw [contains]; omega)]

/-- Highlights that fit a text are painted, and a terminal then shows the text, every character in
the colour of the key that covers it. -/
theorem ansiFrom_shown (scheme : Scheme) (h : Fits pos text highlights) :
    ∃ painted, ansiFrom scheme pos text highlights = some painted ∧
      ('\x1b' ∉ text → display none 0 painted =
        shown (fun x => (keyAt x highlights).map scheme.colorFor) pos text) := by
  induction highlights generalizing pos text with
  | nil =>
    refine ⟨text, rfl, fun plain => ?_⟩
    have uncolored := display_plain none plain []
    rw [List.append_nil, display, List.append_nil] at uncolored
    exact uncolored.trans (shown_eq_map fun _ _ _ => rfl).symm
  | cons highlight more ih =>
    obtain ⟨gap, part, after, rfl, span, fits⟩ := h
    obtain ⟨painted, rest, rest_shown⟩ := ih fits
    refine ⟨_, ansiFrom_cons scheme span rest, fun plain => ?_⟩
    simp only [List.mem_append, not_or] at plain
    obtain ⟨gap_plain, part_plain, after_plain⟩ := plain
    rw [shown_cons scheme.colorFor span fits, ← rest_shown after_plain]
    simp only [List.append_assoc]
    rw [display_plain none gap_plain, display_setColor, display_plain _ part_plain,
      display_clearColor]

end Render

end HaskellHighlight
