import HaskellHighlight.Proofs.Painting
import Mathlib.Data.List.Chain

/-! Joining of neighbours in any list of highlights, which need not be in order or apart. Only
highlights that stand next to each other and touch are joined, and what is left has no such
neighbours. -/
namespace HaskellHighlight.Highlight

/-- Two highlights of one key, the first of which stops where the second one starts. -/
def Touch (before after : Highlight) : Prop :=
  before.key = after.key ∧ before.span.stop = after.span.start

instance (before after : Highlight) : Decidable (Touch before after) :=
  inferInstanceAs (Decidable (_ ∧ _))

/-- A row of highlights, each touching the next one, as one highlight from the start of the first to
the stop of the last. -/
structure IsJoined (row : List Highlight) (joined : Highlight) : Prop where
  nonempty : row ≠ []
  key : ∀ highlight ∈ row, highlight.key = joined.key
  touching : row.IsChain fun before after => before.span.stop = after.span.start
  start : row.head?.map (·.span.start) = some joined.span.start
  stop : row.getLast?.map (·.span.stop) = some joined.span.stop

def fuse (before after : Highlight) : Highlight :=
  ⟨⟨before.span.start, after.span.stop⟩, before.key⟩

/-- Adds a highlight behind others: where it touches the last one, that one is extended. -/
def extend (highlight : Highlight) : List Highlight → List Highlight
  | [] => [highlight]
  | [last] => if Touch last highlight then [fuse last highlight] else [last, highlight]
  | first :: next :: rest => first :: extend highlight (next :: rest)

variable {first before after last highlight : Highlight} {row highlights : List Highlight}

theorem Touch.fuse_left (front : Touch first before) (back : Touch before last) :
    Touch (fuse first before) last := ⟨front.1.trans back.1, back.2⟩

theorem Touch.fuse_right (front : Touch first before) (last : Highlight) :
    Touch first (fuse before last) := front

@[simp] theorem join_nil (highlight : Highlight) : highlight.join [] = [highlight] := rfl

theorem merge_cons (highlight : Highlight) (highlights : List Highlight) :
    merge (highlight :: highlights) = highlight.join (merge highlights) := rfl

theorem join_touch (touch : Touch before after) (rest : List Highlight) :
    before.join (after :: rest) = fuse before after :: rest := by
  obtain ⟨key, stop⟩ := touch
  simp [join, key, stop, fuse]

theorem join_apart (apart : ¬ Touch before after) (rest : List Highlight) :
    before.join (after :: rest) = before :: after :: rest := by
  rw [join, if_neg (by simpa [Touch] using apart)]

theorem isJoined_singleton (highlight : Highlight) : IsJoined [highlight] highlight where
  nonempty := List.cons_ne_nil _ _
  key := by simp
  touching := List.isChain_singleton _
  start := rfl
  stop := rfl

theorem IsJoined.cons (h : IsJoined row after) (touch : Touch before after) :
    IsJoined (before :: row) (fuse before after) where
  nonempty := List.cons_ne_nil _ _
  key := by
    intro highlight mem
    rcases List.mem_cons.mp mem with rfl | later
    · rfl
    · exact (h.key highlight later).trans touch.1.symm
  touching := by
    refine List.isChain_cons.mpr ⟨fun first head => ?_, h.touching⟩
    have start := h.start
    rw [Option.mem_def.mp head, Option.map_some, Option.some.injEq] at start
    exact touch.2.trans start.symm
  start := rfl
  stop := by
    rw [List.getLast?_cons_of_ne_nil h.nonempty]
    exact h.stop

/-- Joining divides highlights into rows and makes one highlight of each. -/
theorem exists_rows (highlights : List Highlight) :
    ∃ rows : List (List Highlight), rows.flatten = highlights ∧
      List.Forall₂ IsJoined rows (merge highlights) := by
  induction highlights with
  | nil => exact ⟨[], rfl, .nil⟩
  | cons highlight rest ih =>
    obtain ⟨rows, whole, all⟩ := ih
    rw [merge_cons]
    generalize merge rest = joined at all
    cases all with
    | nil => exact ⟨[[highlight]], by simp [← whole], .cons (isJoined_singleton _) .nil⟩
    | @cons row next rows more first later =>
      by_cases touch : Touch highlight next
      · rw [join_touch touch]
        exact ⟨(highlight :: row) :: rows, by simp [← whole], .cons (first.cons touch) later⟩
      · rw [join_apart touch]
        exact ⟨[highlight] :: row :: rows, by simp [← whole],
          .cons (isJoined_singleton _) (.cons first later)⟩

/-- One more highlight in front leaves no neighbours that touch. -/
theorem isChain_join (h : highlights.IsChain fun before after => ¬ Touch before after) :
    (highlight.join highlights).IsChain fun before after => ¬ Touch before after := by
  cases highlights with
  | nil => exact List.isChain_singleton _
  | cons next rest =>
    by_cases touch : Touch highlight next
    · rw [join_touch touch]
      rw [List.isChain_cons] at h ⊢
      refine ⟨fun other head meets => h.1 other head ?_, h.2⟩
      exact ⟨touch.1.symm.trans meets.1, meets.2⟩
    · rw [join_apart touch]
      exact .cons_cons touch h

theorem isChain_merge (highlights : List Highlight) :
    (merge highlights).IsChain fun before after => ¬ Touch before after := by
  induction highlights with
  | nil => exact List.isChain_nil
  | cons highlight rest ih => exact isChain_join ih

def coverage (offset : Nat) (key : Key) (highlights : List Highlight) : Nat :=
  highlights.countP fun highlight => highlight.span.Contains offset ∧ highlight.key = key

section coverage
variable {offset : Nat} {key : Key}

theorem coverage_cons (highlight : Highlight) (highlights : List Highlight) :
    coverage offset key (highlight :: highlights) = coverage offset key highlights +
      if highlight.span.Contains offset ∧ highlight.key = key then 1 else 0 := by
  simp [coverage, List.countP_cons]

theorem coverage_fuse (touch : Touch before after) (front : before.span.start ≤ before.span.stop)
    (back : after.span.start ≤ after.span.stop) (rest : List Highlight) :
    coverage offset key (fuse before after :: rest) =
      coverage offset key (before :: after :: rest) := by
  obtain ⟨same, stop⟩ := touch
  simp only [coverage_cons, fuse, Span.Contains, same]
  by_cases own : after.key = key
  · simp only [own, and_true]
    split_ifs <;> omega
  · simp only [own, and_false, if_false]

/-- Joining keeps the ends in order and covers every byte as often as before. -/
theorem coverage_merge (ordered : ∀ highlight ∈ highlights,
      highlight.span.start ≤ highlight.span.stop) :
    (∀ joined ∈ merge highlights, joined.span.start ≤ joined.span.stop) ∧
      coverage offset key (merge highlights) = coverage offset key highlights := by
  induction highlights with
  | nil => exact ⟨ordered, rfl⟩
  | cons highlight rest ih =>
    obtain ⟨front, later⟩ := List.forall_mem_cons.mp ordered
    obtain ⟨merged, same⟩ := ih later
    rw [merge_cons, coverage_cons, ← same, ← coverage_cons]
    generalize merge rest = joined at merged
    cases joined with
    | nil => exact ⟨by simpa using front, rfl⟩
    | cons next more =>
      obtain ⟨back, others⟩ := List.forall_mem_cons.mp merged
      by_cases touch : Touch highlight next
      · rw [join_touch touch]
        refine ⟨List.forall_mem_cons.mpr ⟨?_, others⟩, coverage_fuse touch front back more⟩
        have stop := touch.2
        simp only [fuse]
        omega
      · rw [join_apart touch]
        exact ⟨List.forall_mem_cons.mpr ⟨front, merged⟩, rfl⟩

end coverage

/-- Joining in front and joining behind do not get in each other's way. -/
theorem extend_join (first last : Highlight) (highlights : List Highlight) :
    extend last (first.join highlights) = first.join (extend last highlights) := by
  match highlights with
  | [] =>
    rw [extend, join_nil, extend]
    split
    · rw [join_touch ‹_›]
    · rw [join_apart ‹_›]
  | [only] =>
    by_cases front : Touch first only <;> by_cases back : Touch only last
    · rw [join_touch front, extend, extend, if_pos back, if_pos (front.fuse_left back),
        join_touch (front.fuse_right last)]
      rfl
    · rw [join_touch front, extend, extend, if_neg back, if_neg fun touch => back ?_,
        join_touch front]
      exact ⟨front.1.symm.trans touch.1, touch.2⟩
    · rw [join_apart front, extend, extend, extend, if_pos back, join_apart fun touch => front ?_]
      exact ⟨touch.1, touch.2⟩
    · rw [join_apart front, extend, extend, extend, if_neg back, join_apart front]
  | next :: other :: rest =>
    rw [extend]
    by_cases touch : Touch first next
    · rw [join_touch touch, join_touch touch, extend]
    · rw [join_apart touch, join_apart touch, extend, extend]

/-- Highlights may as well be joined from left to right, each to the last one before it. -/
theorem merge_eq_foldl (highlights : List Highlight) :
    merge highlights = highlights.foldl (fun joined highlight => extend highlight joined) [] := by
  have behind (last : Highlight) (front : List Highlight) :
      merge (front ++ [last]) = extend last (merge front) := by
    induction front with
    | nil => rfl
    | cons first rest ih => rw [List.cons_append, merge_cons, ih, ← extend_join, merge_cons]
  induction highlights using List.reverseRecOn with
  | nil => rfl
  | append_singleton front last ih =>
    rw [behind, ih, List.foldl_append, List.foldl_cons, List.foldl_nil]

/-- Every token whose kind has a key has its highlight, in the order of the tokens. -/
theorem forall₂_filterMap (tokens : List Token) :
    List.Forall₂ (fun token highlight =>
        token.kind.key? = some highlight.key ∧ token.span = highlight.span)
      (tokens.filter (·.kind.key?.isSome)) (tokens.filterMap ofToken?) := by
  induction tokens with
  | nil => exact .nil
  | cons token rest ih =>
    rw [List.filter_cons, List.filterMap_cons, ofToken?]
    cases key : token.kind.key? with
    | none => exact ih
    | some own => exact .cons ⟨key, rfl⟩ ih

/-- Highlights of any tokens whose ends are in order, whether they lie in order and apart or not.
Without joining there is one for each token whose kind has a key. Joined ones are the rows of those
in which each touches the next, so that no two that stand next to each other touch, and every byte
is covered by as many of a key as before. They are the same if each is joined to the last one before
it. -/
theorem joined_neighbours (tokens : List Token)
    (ordered : ∀ token ∈ tokens, token.span.start ≤ token.span.stop) :
    List.Forall₂ (fun token highlight =>
        token.kind.key? = some highlight.key ∧ token.span = highlight.span)
      (tokens.filter (·.kind.key?.isSome)) (ofTokens false tokens) ∧
    (∃ rows : List (List Highlight), rows.flatten = ofTokens false tokens ∧
      List.Forall₂ IsJoined rows (ofTokens true tokens)) ∧
    (ofTokens true tokens).IsChain (fun before after =>
      ¬ (before.key = after.key ∧ before.span.stop = after.span.start)) ∧
    (∀ offset key, coverage offset key (ofTokens true tokens) =
      coverage offset key (ofTokens false tokens)) ∧
    ofTokens true tokens =
      (ofTokens false tokens).foldl (fun joined highlight => extend highlight joined) [] := by
  have ends : ∀ highlight ∈ ofTokens false tokens,
      highlight.span.start ≤ highlight.span.stop := by
    intro highlight mem
    obtain ⟨token, token_mem, made⟩ := List.mem_filterMap.mp mem
    obtain ⟨key, -, rfl⟩ := Option.map_eq_some_iff.mp made
    exact ordered token token_mem
  refine ⟨forall₂_filterMap tokens, exists_rows _, isChain_merge _, fun offset key => ?_,
    merge_eq_foldl _⟩
  exact (coverage_merge ends).2

def scattered : List Token :=
  [⟨.name .varId, ⟨4, 6⟩⟩, ⟨.name .varId, ⟨6, 6⟩⟩, ⟨.whitespace, ⟨6, 7⟩⟩, ⟨.name .varId, ⟨6, 9⟩⟩,
   ⟨.name .varId, ⟨2, 4⟩⟩, ⟨.name .varId, ⟨2, 4⟩⟩, ⟨.name .conId, ⟨4, 5⟩⟩]

/-- Such tokens are joined over the blank and over the empty one, and nowhere else. -/
theorem joined_neighbours_of_scattered :
    (∀ token ∈ scattered, token.span.start ≤ token.span.stop) ∧
    ofTokens true scattered = [⟨⟨4, 9⟩, .symbol⟩, ⟨⟨2, 4⟩, .symbol⟩, ⟨⟨2, 4⟩, .symbol⟩,
      ⟨⟨4, 5⟩, .constructor⟩] ∧
    coverage 3 .symbol (ofTokens true scattered) = 2 := by
  have ordered : ∀ token ∈ scattered, token.span.start ≤ token.span.stop := by decide
  obtain ⟨-, -, -, covered, -⟩ := joined_neighbours scattered ordered
  exact ⟨ordered, by decide, (covered 3 .symbol).trans (by decide)⟩

end HaskellHighlight.Highlight
