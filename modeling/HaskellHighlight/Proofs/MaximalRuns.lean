import HaskellHighlight.Proofs.Chunks
import HaskellHighlight.Proofs.TokenHighlights

/-! Joined highlights are canonical: they are the longest runs of bytes with the same key, so that
they depend on the key of each byte only and not on how tokens lie there. A comment that is lexed in
pieces is highlighted as if it were in one piece. -/
namespace HaskellHighlight
open Highlight

/-- `IsRun keyOf highlight` says that the bytes of a highlight are a longest run of bytes that all
have its key. -/
structure IsRun (keyOf : Nat → Option Key) (highlight : Highlight) : Prop where
  nonempty : highlight.span.start < highlight.span.stop
  inside : ∀ x, highlight.span.Contains x → keyOf x = some highlight.key
  before : ∀ x, x + 1 = highlight.span.start → keyOf x ≠ some highlight.key
  behind : keyOf highlight.span.stop ≠ some highlight.key

theorem IsRun.congr {keyOf other : Nat → Option Key} {highlight : Highlight}
    (h : IsRun keyOf highlight) (low : ∀ x, highlight.span.start ≤ x → keyOf x = other x)
    (before : ∀ x, x + 1 = highlight.span.start → other x ≠ some highlight.key) :
    IsRun other highlight where
  nonempty := h.nonempty
  inside x contains := (low x contains.1).symm.trans (h.inside x contains)
  before := before
  behind := low _ (Nat.le_of_lt h.nonempty) ▸ h.behind

namespace Highlight

/-- Highlights from byte `pos` on, in order and apart, none of them empty. Where two touch they have
different keys. -/
def Canonical : Nat → List Highlight → Prop
  | _, [] => True
  | pos, highlight :: more =>
    pos ≤ highlight.span.start ∧ highlight.span.start < highlight.span.stop ∧
      (∀ next, more.head? = some next → next.span.start = highlight.span.stop →
        next.key ≠ highlight.key) ∧
      Canonical highlight.span.stop more

section canonical
variable {pos offset : Nat} {highlight : Highlight} {highlights : List Highlight} {key : Key}

theorem Canonical.start_le (h : Canonical pos highlights) (mem : highlight ∈ highlights) :
    pos ≤ highlight.span.start := by
  induction highlights generalizing pos with
  | nil => contradiction
  | cons first more ih =>
    obtain ⟨low, nonempty, -, later⟩ := h
    rcases List.mem_cons.mp mem with rfl | mem
    · exact low
    · exact Nat.le_trans low (Nat.le_trans (Nat.le_of_lt nonempty) (ih later mem))

theorem Canonical.keyAt_of_lt (h : Canonical pos highlights) (before : offset < pos) :
    keyAt offset highlights = none :=
  keyAt_eq_none fun _ mem => Nat.lt_of_lt_of_le before (h.start_le mem)

/-- Right behind a highlight its key is not met again. -/
theorem Canonical.keyAt_stop (h : Canonical pos (highlight :: highlights)) :
    keyAt highlight.span.stop highlights ≠ some highlight.key := by
  obtain ⟨-, -, apart, later⟩ := h
  cases highlights with
  | nil => exact (Option.some_ne_none _).symm
  | cons next more =>
    obtain ⟨low, nonempty, -, rest⟩ := later
    rw [keyAt]
    split
    · rename_i contains
      have touching := Nat.le_antisymm contains.1 low
      exact fun same => apart next rfl touching (Option.some.inj same)
    · rename_i outside
      rw [rest.keyAt_of_lt (by rw [Span.Contains] at outside; omega)]
      exact (Option.some_ne_none _).symm

private theorem keyAt_cons_of_le (first : Highlight) (more : List Highlight)
    (behind : first.span.stop ≤ offset) : keyAt offset (first :: more) = keyAt offset more := by
  rw [keyAt, if_neg fun inside => Nat.not_lt.mpr behind inside.2]

private theorem Canonical.isRun_head (h : Canonical pos (highlight :: highlights)) :
    IsRun (keyAt · (highlight :: highlights)) highlight where
  nonempty := h.2.1
  inside x contains := by rw [keyAt, if_pos contains]
  before x next := by
    have outside : ¬ highlight.span.Contains x := fun inside => by
      have := inside.1
      omega
    have nonempty := h.2.1
    rw [keyAt, if_neg outside, h.2.2.2.keyAt_of_lt (by omega)]
    exact (Option.some_ne_none _).symm
  behind := by
    rw [keyAt_cons_of_le _ _ (Nat.le_refl _)]
    exact h.keyAt_stop

private theorem Canonical.eq_head {first : Highlight} {more : List Highlight}
    (h : Canonical pos (first :: more)) (run : IsRun (keyAt · (first :: more)) highlight)
    (starts : first.span.Contains highlight.span.start) : highlight = first := by
  have keyed {x : Nat} (contains : first.span.Contains x) :
      keyAt x (first :: more) = some first.key := by rw [keyAt, if_pos contains]
  have key : first.key = highlight.key := by
    have := run.inside _ ⟨Nat.le_refl _, run.nonempty⟩
    rw [keyed starts] at this
    exact Option.some.inj this
  have start : highlight.span.start = first.span.start := by
    refine Nat.le_antisymm (Nat.le_of_not_lt fun later => ?_) starts.1
    have inside : first.span.Contains (highlight.span.start - 1) := by
      have := starts.2
      exact ⟨by omega, by omega⟩
    exact run.before _ (by omega) (key ▸ keyed inside)
  have stop : highlight.span.stop = first.span.stop := by
    have nonempty := run.nonempty
    rcases Nat.lt_trichotomy highlight.span.stop first.span.stop with short | same | long
    · exact absurd (key ▸ keyed ⟨by omega, short⟩) run.behind
    · exact same
    · have inside := run.inside first.span.stop ⟨by have := starts.2; omega, long⟩
      rw [keyAt_cons_of_le _ _ (Nat.le_refl _), ← key] at inside
      exact absurd inside h.keyAt_stop
  calc highlight
    _ = ⟨⟨highlight.span.start, highlight.span.stop⟩, highlight.key⟩ := rfl
    _ = first := by rw [start, stop, ← key]

private theorem Canonical.isRun_cons_iff {first : Highlight} {more : List Highlight}
    (h : Canonical pos (first :: more)) (behind : first.span.stop ≤ highlight.span.start) :
    IsRun (keyAt · (first :: more)) highlight ↔ IsRun (keyAt · more) highlight := by
  have same (x : Nat) (low : highlight.span.start ≤ x) :
      keyAt x (first :: more) = keyAt x more :=
    keyAt_cons_of_le first more (Nat.le_trans behind low)
  constructor
  · intro run
    refine run.congr same fun x next => ?_
    rcases Nat.lt_or_ge x first.span.stop with inside | later
    · rw [h.2.2.2.keyAt_of_lt inside]
      exact (Option.some_ne_none _).symm
    · exact keyAt_cons_of_le first more later ▸ run.before x next
  · intro run
    refine run.congr (fun x low => (same x low).symm) fun x next => ?_
    rcases Nat.lt_or_ge x first.span.stop with inside | later
    · have touching : highlight.span.start = first.span.stop := by omega
      have start := run.inside _ ⟨Nat.le_refl _, run.nonempty⟩
      rw [touching] at start
      rw [keyAt]
      split
      · exact fun key => h.keyAt_stop (start.trans key.symm)
      · rw [h.2.2.2.keyAt_of_lt inside]
        exact (Option.some_ne_none _).symm
    · exact (keyAt_cons_of_le first more later).symm ▸ run.before x next

/-- Canonical highlights are the longest runs of bytes with the same key. -/
theorem Canonical.mem_iff (h : Canonical pos highlights) :
    highlight ∈ highlights ↔ IsRun (keyAt · highlights) highlight := by
  induction highlights generalizing pos with
  | nil =>
    refine iff_of_false List.not_mem_nil fun run => ?_
    have := run.inside _ ⟨Nat.le_refl _, run.nonempty⟩
    contradiction
  | cons first more ih =>
    have later := h.2.2.2
    rw [List.mem_cons]
    constructor
    · rintro (rfl | mem)
      · exact h.isRun_head
      · exact (h.isRun_cons_iff (later.start_le mem)).mpr ((ih later).mp mem)
    · intro run
      have start := run.inside _ ⟨Nat.le_refl _, run.nonempty⟩
      rcases Nat.lt_or_ge highlight.span.start first.span.stop with low | behind
      · refine Or.inl (h.eq_head run (Decidable.byContradiction fun outside => ?_))
        rw [keyAt, if_neg outside, later.keyAt_of_lt low] at start
        contradiction
      · exact Or.inr ((ih later).mpr ((h.isRun_cons_iff behind).mp run))

/-- Canonical highlights are in order and apart, and two of them that touch have different keys. -/
theorem Canonical.pairwise (h : Canonical pos highlights) :
    highlights.Pairwise fun before after => before.span.stop ≤ after.span.start ∧
      (before.span.stop = after.span.start → before.key ≠ after.key) := by
  induction highlights generalizing pos with
  | nil => exact .nil
  | cons first more ih =>
    have later := h.2.2.2
    refine .cons (fun after mem => ⟨later.start_le mem, fun touching same => ?_⟩) (ih later)
    have start := (later.mem_iff.mp mem).inside _
      ⟨Nat.le_refl _, (later.mem_iff.mp mem).nonempty⟩
    rw [← touching, ← same] at start
    exact h.keyAt_stop start

end canonical

section merge
variable {pos start stop : Nat} {highlight : Highlight} {highlights : List Highlight}

theorem Canonical.join (low : pos ≤ highlight.span.start)
    (nonempty : highlight.span.start < highlight.span.stop)
    (h : Canonical highlight.span.stop highlights) :
    Canonical pos (highlight.join highlights) := by
  cases highlights with
  | nil => exact ⟨low, nonempty, fun _ none => by contradiction, trivial⟩
  | cons next rest =>
    obtain ⟨behind, next_nonempty, apart, later⟩ := h
    rw [Highlight.join]
    split
    · rename_i touching
      simp only [Bool.and_eq_true, decide_eq_true_eq] at touching
      obtain ⟨same, touching⟩ := touching
      have wide : highlight.span.start < next.span.stop := by omega
      exact ⟨low, wide, fun other head meets => same ▸ apart other head meets, later⟩
    · rename_i separate
      simp only [Bool.and_eq_true, decide_eq_true_eq, not_and] at separate
      refine ⟨low, nonempty, fun other head meets same => ?_, behind, next_nonempty, apart, later⟩
      obtain rfl := Option.some.inj head
      exact separate same.symm meets.symm

/-- The joined highlights of tokens in a row are canonical. -/
theorem canonical_merge {tokens : List Token} (h : Contiguous start stop tokens)
    (low : pos ≤ start) : Canonical pos (merge (tokens.filterMap ofToken?)) := by
  induction tokens generalizing start pos with
  | nil => trivial
  | cons token rest ih =>
    obtain ⟨rfl, nonempty, row⟩ := h
    rw [List.filterMap_cons, ofToken?]
    cases token.kind.key? with
    | none => exact ih row (Nat.le_trans low (Nat.le_of_lt nonempty))
    | some key => exact Canonical.join low nonempty (ih row (Nat.le_refl _))

/-- Two highlights that look alike and touch are joined to others as one. -/
theorem join_join {first second : Highlight} (key : first.key = second.key)
    (touching : first.span.stop = second.span.start) (highlights : List Highlight) :
    first.join (second.join highlights) =
      join ⟨⟨first.span.start, second.span.stop⟩, first.key⟩ highlights := by
  cases highlights with
  | nil => simp [Highlight.join, key, touching]
  | cons next rest =>
    by_cases meets : second.key = next.key ∧ second.span.stop = next.span.start
    · simp [Highlight.join, key, touching, meets.1, meets.2]
    · have apart : (decide (second.key = next.key) &&
          decide (second.span.stop = next.span.start)) = false := by
        simpa using meets
      simp only [Highlight.join, key, touching, apart, Bool.false_eq_true, if_false, if_true,
        decide_true, Bool.and_self]

/-- Tokens cut in two where they lie are highlighted as if they were in one. -/
theorem ofTokens_pieces (kind : Kind) (front back : List Token) {first second : Span}
    (touching : first.stop = second.start) :
    ofTokens true (front ++ ⟨kind, first⟩ :: ⟨kind, second⟩ :: back) =
      ofTokens true (front ++ ⟨kind, first.start, second.stop⟩ :: back) := by
  simp only [ofTokens, if_true, merge, List.filterMap_append, List.foldr_append]
  congr 1
  simp only [List.filterMap_cons, ofToken?]
  cases kind.key? with
  | none => rfl
  | some key => exact @join_join ⟨first, key⟩ ⟨second, key⟩ rfl touching _

/-- A row of tokens of one kind is highlighted as if it were one token. -/
theorem ofTokens_row {kind : Kind} {first : Token} {pieces : List Token}
    (row : Contiguous start stop (first :: pieces))
    (all : ∀ piece ∈ first :: pieces, piece.kind = kind) (front back : List Token) :
    ofTokens true (front ++ (first :: pieces) ++ back) =
      ofTokens true (front ++ ⟨kind, start, stop⟩ :: back) := by
  obtain ⟨of_kind, span⟩ := first
  obtain rfl : of_kind = kind := all _ List.mem_cons_self
  obtain ⟨begins, -, row⟩ := row
  simp only at begins row
  induction pieces generalizing span with
  | nil =>
    obtain rfl : span.stop = stop := row
    rw [← begins, List.append_assoc]
    rfl
  | cons next pieces ih =>
    obtain ⟨next_kind, next_span⟩ := next
    obtain ⟨touching, -, row⟩ := row
    simp only at touching row
    obtain rfl : next_kind = of_kind :=
      all ⟨next_kind, next_span⟩ (List.mem_cons_of_mem _ List.mem_cons_self)
    have joined := ih ⟨span.start, next_span.stop⟩ ?_ begins row
    · rw [← joined, List.append_assoc, List.append_assoc]
      exact ofTokens_pieces _ _ _ touching.symm
    · intro piece mem
      rcases List.mem_cons.mp mem with rfl | mem
      · rfl
      · exact all piece (by simp [mem])

end merge

end Highlight

namespace Lexer
open Highlight

/-- Two rows of tokens glued together are a row, and highlighted they look as they do in pieces. -/
theorem glue_spec {mid stop : Nat} {front back : List Token} (carried : State)
    (row : Contiguous 0 mid front) (next : Contiguous mid stop back) :
    Contiguous 0 stop (glue carried front back) ∧ ∀ more,
      ofTokens true (glue carried front back ++ more) = ofTokens true (front ++ back ++ more) := by
  unfold glue
  split
  · rename_i piece next_piece later last
    obtain ⟨before, rfl⟩ := List.getLast?_eq_some_iff.mp last
    obtain ⟨front_row, last_nonempty, touching⟩ := row.split_last
    obtain ⟨begins, nonempty, later_row⟩ := next
    rw [List.dropLast_concat]
    have wide : piece.start < next_piece.stop :=
      Nat.lt_trans last_nonempty (touching ▸ nonempty)
    refine ⟨front_row.append ⟨rfl, wide, later_row⟩, fun more => ?_⟩
    simp only [List.append_assoc, List.cons_append, List.nil_append]
    exact (ofTokens_pieces _ _ _ (touching.trans begins.symm)).symm
  · exact ⟨row.append next, fun _ => rfl⟩

/-- The tokens of the pieces of a text at their places in it, where `bytes` are in front of the
first of them. A comment that goes on from one piece to the next stays in two tokens. -/
def pieceTokens (state : State) (bytes : Nat) : List (List Char) → List Token
  | [] => []
  | chunk :: later => (tokensFrom chunk state).map (·.shift bytes) ++
      pieceTokens (stateAfter chunk state) (bytes + Text.byteLength chunk) later

/-- Pieces that are highlighted after they were glued together look as they do without that. -/
theorem ofTokens_lexChunks (chunks : List (List Char)) (progress : Progress)
    (row : Contiguous 0 progress.bytes progress.tokens) :
    ofTokens true (chunks.foldl Progress.add progress).tokens =
      ofTokens true (progress.tokens ++ pieceTokens progress.state progress.bytes chunks) := by
  induction chunks generalizing progress with
  | nil => rw [List.foldl_nil, pieceTokens, List.append_nil]
  | cons chunk later ih =>
    have next := (tokensFrom_contiguous chunk progress.state).1.shift progress.bytes
    rw [Nat.zero_add, Nat.add_comm] at next
    obtain ⟨glued, same⟩ := glue_spec progress.state row next
    rw [List.foldl_cons, ih (progress.add chunk) glued, pieceTokens, ← List.append_assoc]
    exact same _

def keyOfByte (text : List Char) (state : State) (offset : Nat) : Option Key :=
  ((tokensFrom text state).find? (·.span.Contains offset)).bind (·.kind.key?)

/-- Joined highlights are canonical. They are the longest runs of bytes with the same key, in
increasing order, where a byte has the key of the one token that contains it. So none of them is
empty, all lie in the text with their ends between characters, no two overlap, and two that touch
have different keys. They are the same where a comment is cut into several tokens, and where the
text is lexed in pieces that it may be cut into. -/
theorem merged_runs (text : List Char) (state : State) :
    (∀ x, x < Text.byteLength text → ∃ token ∈ tokensFrom text state, token.span.Contains x ∧
      (∀ other ∈ tokensFrom text state, other.span.Contains x → other = token) ∧
      keyOfByte text state x = token.kind.key?) ∧
    (∀ x, Text.byteLength text ≤ x → keyOfByte text state x = none) ∧
    (∀ highlight, highlight ∈ ofTokens true (tokensFrom text state) ↔
      IsRun (keyOfByte text state) highlight) ∧
    (ofTokens true (tokensFrom text state)).Pairwise (fun before after =>
      before.span.stop ≤ after.span.start ∧
        (before.span.stop = after.span.start → before.key ≠ after.key)) ∧
    (∀ highlight ∈ ofTokens true (tokensFrom text state),
      highlight.span.start < highlight.span.stop ∧
      highlight.span.stop ≤ Text.byteLength text ∧
      ∃ part, highlight.span.slice? text = some part) ∧
    (∀ front comment pieces back, tokensFrom text state = front ++ comment :: back →
      comment.kind = .blockComment →
      Contiguous comment.span.start comment.span.stop pieces →
      (∀ piece ∈ pieces, piece.kind = .blockComment) →
      ofTokens true (front ++ pieces ++ back) = ofTokens true (tokensFrom text state)) ∧
    ∀ chunks : List (List Char), chunks.flatten = text →
      (∀ k (h : k < chunks.length), chunks[k] ≠ [] → (chunks.drop (k + 1)).flatten ≠ [] →
        MayCut state (chunks.take k) chunks[k] (chunks.drop (k + 1)).flatten) →
      ofTokens true (pieceTokens state 0 chunks) = ofTokens true (tokensFrom text state) := by
  have row := (tokensFrom_contiguous text state).1
  obtain ⟨fits, same⟩ := ofTokens_spec true text state
  have keys (x : Nat) : keyAt x (ofTokens true (tokensFrom text state)) =
      keyOfByte text state x := (same x).trans (row.keyAt_eq x)
  have canonical : Canonical 0 (ofTokens true (tokensFrom text state)) :=
    canonical_merge row (Nat.le_refl 0)
  have runs (highlight : Highlight) : highlight ∈ ofTokens true (tokensFrom text state) ↔
      IsRun (keyOfByte text state) highlight := by
    rw [canonical.mem_iff, funext keys]
  refine ⟨fun x inside => ?_, fun x past => ?_, runs, canonical.pairwise, fun highlight mem => ?_,
    fun front comment pieces back split kind comment_row all => ?_, fun chunks cut cuts => ?_⟩
  · obtain ⟨token, mem, contains, unique, key⟩ := row.token_at (Nat.zero_le x) inside
    exact ⟨token, mem, contains, unique, (row.keyAt_eq x).symm.trans key⟩
  · rw [keyOfByte, row.find?_of_le past, Option.bind_none]
  · obtain ⟨slice, le⟩ := fits.slice? mem
    exact ⟨((runs highlight).mp mem).nonempty, le, slice⟩
  · rw [split] at row ⊢
    cases pieces with
    | nil => exact absurd comment_row (Nat.ne_of_lt (row.nonempty (by simp)))
    | cons piece pieces =>
      rw [ofTokens_row comment_row all, ← kind]
  · have entered : pieceTokens state.normal 0 chunks = pieceTokens state 0 chunks := by
      cases chunks with
      | nil => rfl
      | cons chunk later =>
        simp only [pieceTokens, tokensFrom, stateAfter, Cursor.start, State.normal_normal]
    have glued := ofTokens_lexChunks chunks ⟨[], 0, state.normal⟩ rfl
    rw [List.nil_append, entered] at glued
    have whole : (lexChunks state chunks).tokens = tokensFrom chunks.flatten state :=
      congrArg Progress.tokens (lexChunks_whole state chunks cuts)
    rw [← glued, ← cut, ← whole]
    rfl

end Lexer

end HaskellHighlight
