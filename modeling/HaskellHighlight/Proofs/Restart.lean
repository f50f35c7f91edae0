import HaskellHighlight.Proofs.Reachable

/-! Lexing again from a boundary between two tokens. The state that is kept there does not say
whether a dot is due, so that a dot between a qualifier and an operator is read as a part of the
operator. -/
namespace HaskellHighlight.Lexer
open Cursor

namespace Lexeme

/-- A dot where none is due starts an operator. -/
theorem first_dot (rest : List Char) : first '.' rest = symbol ('.' :: rest) := by
  rw [first]
  rfl

/-- Where no operator character follows it, a dot is an operator by itself. -/
theorem symbol_dot {c : Char} (h : isSymbol c = false) (more : List Char) :
    symbol ('.' :: c :: more) = plain .dot 1 := by
  have run : ('.' :: c :: more).takeWhile isSymbol = ['.'] := by
    rw [List.takeWhile_cons_of_pos (by decide), List.takeWhile_cons_of_neg (by simp [h])]
  simp only [symbol, run]
  rfl

theorem symbol_dot_length {c : Char} (h : isSymbol c = true) (more : List Char) :
    2 ≤ (symbol ('.' :: c :: more)).length := by
  have run : ('.' :: c :: more).takeWhile isSymbol = '.' :: c :: more.takeWhile isSymbol := by
    rw [List.takeWhile_cons_of_pos (by decide), List.takeWhile_cons_of_pos h]
  simp only [symbol, run, List.length_cons]
  split <;> simp only [plain] <;> omega

/-- What stands in front of the cursor where a dot is due. -/
theorem startsQualified_iff {text : List Char} :
    startsQualified text = true ↔ ∃ c more, text = '.' :: c :: more ∧ c ≠ '.' ∧
      (isSmall c = true ∨ isLarge c = true ∨ isSymbol c = true) := by
  constructor
  · intro h
    unfold startsQualified at h
    split at h
    · rename_i c more
      simp only [Bool.and_eq_true, Bool.or_eq_true, decide_eq_true_eq, or_assoc] at h
      exact ⟨c, more, rfl, h⟩
    · contradiction
  · rintro ⟨c, more, rfl, other, names⟩
    simp [startsQualified, other, names, or_assoc]

end Lexeme

namespace Cursor
variable {cursor : Cursor} {c : Char} {more : List Char}

def forget (cursor : Cursor) : Cursor := { cursor with qualifierDot := false }

/-- A fresh lexer on the text that is left, entered in the state that was kept, is the same
cursor with a due dot forgotten. -/
theorem tokens_fresh (normal : cursor.state.normal = cursor.state) :
    (tokensFrom cursor.rest cursor.state).map (·.shift cursor.offset) = cursor.forget.tokens := by
  have : (start cursor.rest cursor.state).shift cursor.offset = cursor.forget := by
    simp only [start, shift, forget, normal, Nat.zero_add]
  rw [tokensFrom, ← tokens_shift, this]

theorem forget_of_not_due (h : cursor.qualifierDot = false) : cursor.forget = cursor := by
  simp only [forget, ← h]

/-- Before an identifier a due dot is read the same when it was forgotten. -/
theorem forget_before_name (state : cursor.state = .initial) (due : cursor.qualifierDot = true)
    (text : cursor.rest = '.' :: c :: more) (h : isSymbol c = false) :
    cursor.forget.tokens = cursor.tokens := by
  have same : cursor.forget.lexeme '.' (c :: more) = cursor.lexeme '.' (c :: more) := by
    simp only [forget, lexeme, state, due, Lexeme.first_dot, Lexeme.symbol_dot h]
    rfl
  have forgotten : cursor.forget.rest = '.' :: c :: more := text
  have call : cursor.forget.next? = cursor.next? := by
    rw [next?_of_cons text, next?_of_cons forgotten, same]
    rfl
  rw [tokens_of_some (next?_of_cons text), tokens_of_some (call.trans (next?_of_cons text))]

/-- Before an operator a due dot is read otherwise when it was forgotten: the first token then
reaches further. -/
theorem forget_before_operator (state : cursor.state = .initial)
    (due : cursor.qualifierDot = true) (text : cursor.rest = '.' :: c :: more)
    (h : isSymbol c = true) : cursor.forget.tokens.head? ≠ cursor.tokens.head? := by
  have due_dot : cursor.lexeme '.' (c :: more) = .plain .dot 1 := by
    simp only [lexeme, state, due, if_true]
  have fresh : cursor.forget.lexeme '.' (c :: more) = .symbol ('.' :: c :: more) := by
    simp only [lexeme, forget, state, Lexeme.first_dot, Bool.false_eq_true, if_false]
  have long := Lexeme.symbol_dot_length h more
  have forgotten : cursor.forget.rest = '.' :: c :: more := text
  rw [tokens_of_some (next?_of_cons text), tokens_of_some (next?_of_cons forgotten), due_dot,
    fresh]
  obtain ⟨k, length⟩ : ∃ k, (Lexeme.symbol ('.' :: c :: more)).length = k + 2 :=
    ⟨_, (Nat.sub_add_cancel long).symm⟩
  have size := c.utf8Size_pos
  intro same
  have stops := congrArg (fun token => token.map fun t : Token => t.span.stop) same
  simp only [List.head?_cons, Option.map_some, Option.some.injEq, length, Lexeme.plain, forget,
    List.take_succ_cons, List.take_zero, Text.byteLength] at stops
  omega

end Cursor

/-- When a dot is due after so many calls. -/
theorem due_after_calls (text : List Char) (state : State) (count : Nat) :
    ((Cursor.start text state).skip count).qualifierDot = true ↔
      (∃ token, 0 < count ∧ (tokensFrom text state)[count - 1]? = some token ∧
        token.kind = .name .conId) ∧
      Lexeme.startsQualified ((Cursor.start text state).skip count).rest = true := by
  have calls : Produces (Cursor.start text state) ((tokensFrom text state).take count)
      ((Cursor.start text state).skip count) := produces_skip _ count
  rw [(calls.qualifierDot (start_normal ..) rfl).1, List.getLast?_take]
  rcases Nat.eq_zero_or_pos count with zero | positive
  · simp [zero]
  cases nth : (tokensFrom text state)[count - 1]? with
  | some token => simp [positive, Nat.ne_of_gt positive]
  | none =>
    have all : (tokensFrom text state).take count = tokensFrom text state :=
      List.take_of_length_le (by rw [List.getElem?_eq_none_iff] at nth; omega)
    have none_left : ((Cursor.start text state).skip count).rest = [] := by
      have : tokensFrom text state = _ := calls.tokens_eq
      rw [all] at this
      exact tokens_eq_nil_iff.mp (List.self_eq_append_right.mp this)
    simp [none_left, Lexeme.startsQualified]

/-- Exactly when it is faithful to lex again from a boundary. After any number of calls, the
tokens still to come are those of a fresh lexer on the rest of the text, entered in the state kept
and moved to its place, unless the last token is the name of a constructor and the rest starts
with a dot and an operator character other than a dot. A due dot that is forgotten does no harm
before an identifier; before an operator it always changes the very next token. -/
theorem restart_faithful_iff (text : List Char) (state : State) (count : Nat) :
    let cursor := (Cursor.start text state).skip count
    let fresh := (tokensFrom cursor.rest cursor.state).map (·.shift cursor.offset)
    (cursor.tokens = fresh ↔
      ¬ ((∃ token, 0 < count ∧ (tokensFrom text state)[count - 1]? = some token ∧
          token.kind = .name .conId) ∧
        ∃ c more, cursor.rest = '.' :: c :: more ∧ c ≠ '.' ∧ isSymbol c = true)) ∧
    (cursor.qualifierDot = true → ∃ c more, cursor.rest = '.' :: c :: more ∧
      (isSmall c = true ∨ isLarge c = true ∨ isSymbol c = true) ∧
      (isSmall c = true ∨ isLarge c = true → cursor.tokens = fresh) ∧
      (isSymbol c = true → cursor.tokens.head? ≠ fresh.head?)) := by
  intro cursor fresh
  have calls : Produces (Cursor.start text state) ((tokensFrom text state).take count) cursor :=
    produces_skip _ count
  have fresh_eq : fresh = cursor.forget.tokens := tokens_fresh (calls.normal (start_normal ..))
  have due_iff : cursor.qualifierDot = true ↔
      (∃ token, 0 < count ∧ (tokensFrom text state)[count - 1]? = some token ∧
        token.kind = .name .conId) ∧ Lexeme.startsQualified cursor.rest = true :=
    due_after_calls text state count
  have due_state := (calls.qualifierDot (start_normal ..) rfl).2
  rw [fresh_eq]
  cases due : cursor.qualifierDot with
  | false =>
    rw [forget_of_not_due due]
    refine ⟨iff_of_true rfl ?_, fun impossible => absurd impossible Bool.false_ne_true⟩
    rintro ⟨last, c, more, rest, other, symbol⟩
    have joins := Lexeme.startsQualified_iff.mpr ⟨c, more, rest, other, Or.inr (Or.inr symbol)⟩
    exact Bool.false_ne_true (due.symm.trans (due_iff.mpr ⟨last, joins⟩))
  | true =>
    obtain ⟨last, joins⟩ := due_iff.mp due
    obtain ⟨c, more, rest, other, names⟩ := Lexeme.startsQualified_iff.mp joins
    cases symbol : isSymbol c with
    | true =>
      have differ := forget_before_operator (due_state due) due rest symbol
      have no_name : ¬ (isSmall c = true ∨ isLarge c = true) := by
        simp [not_name_of_isSymbol symbol]
      exact ⟨iff_of_false (fun same => differ (by rw [same]))
          (not_not_intro ⟨last, c, more, rest, other, symbol⟩),
        fun _ => ⟨c, more, rest, names, fun name => absurd name no_name, fun _ => differ.symm⟩⟩
    | false =>
      have same := forget_before_name (due_state due) due rest symbol
      refine ⟨iff_of_true same.symm ?_, fun _ => ⟨c, more, rest, names, fun _ => same.symm,
        fun operator => absurd (symbol.symm.trans operator) Bool.false_ne_true⟩⟩
      rintro ⟨-, d, others, rest', -, symbol'⟩
      obtain ⟨-, rfl, -⟩ : '.' = '.' ∧ c = d ∧ more = others := by simpa [rest] using rest'
      exact Bool.false_ne_true (symbol.symm.trans symbol')

end HaskellHighlight.Lexer
