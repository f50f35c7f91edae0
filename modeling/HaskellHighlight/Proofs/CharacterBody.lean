import HaskellHighlight.Proofs.Extent

/-! Character literals by their grammar: what may stand between the two quotes, whatever follows
the second one. -/
namespace HaskellHighlight.Lexer
open Unicode

/-- What stands between the quotes of a character literal: a character of the line other than a
quote and a backslash, a control escape, or a backslash with any character of the line and letters
and digits after it. A caret in front of the name of a control character is a control escape. -/
inductive CharacterBody : List Char → Prop where
  | plain {c : Char} (quote : c ≠ '\'') (slash : c ≠ '\\') (line : isLineBreak c = false) :
      CharacterBody [c]
  | control {c : Char} (name : isControlName c = true) : CharacterBody ['\\', '^', c]
  | escape {c : Char} {run : List Char} (line : isLineBreak c = false)
      (alphanumeric : ∀ d ∈ run, isAsciiAlphanumeric d = true)
      (other : c = '^' → run.head?.any isControlName = false) :
      CharacterBody ('\\' :: c :: run)

namespace CharacterBody

private theorem of_escape {rest : List Char}
    (quote : (rest.drop (escapeLength rest)).head? = some '\'') :
    ∃ body more, CharacterBody ('\\' :: body) ∧ rest = body ++ '\'' :: more ∧
      escapeLength rest = body.length := by
  cases rest with
  | nil => simp at quote
  | cons c tail =>
    rw [escapeLength] at quote ⊢
    by_cases control : (c = '^' && tail.head?.any isControlName) = true
    · rw [if_pos control] at quote ⊢
      simp only [Bool.and_eq_true, decide_eq_true_eq, Option.any_eq_true] at control
      obtain ⟨rfl, name, head, named⟩ := control
      obtain ⟨after, rfl⟩ := List.head?_eq_some_iff.mp head
      obtain ⟨more, rfl⟩ := List.head?_eq_some_iff.mp quote
      exact ⟨['^', name], more, .control named, rfl, rfl⟩
    rw [if_neg control] at quote ⊢
    cases line : isLineBreak c with
    | true =>
      rw [line, if_pos rfl, List.drop_zero, List.head?_cons, Option.some.injEq] at quote
      subst quote
      exact absurd line (by decide)
    | false =>
      rw [line, if_neg Bool.false_ne_true, Nat.one_add, List.drop_succ_cons, drop_runLength]
        at quote
      rw [if_neg Bool.false_ne_true]
      obtain ⟨more, after⟩ := List.head?_eq_some_iff.mp quote
      refine ⟨c :: tail.takeWhile isAsciiAlphanumeric, more, .escape line ?_ ?_, ?_, ?_⟩
      · exact List.all_eq_true.mp List.all_takeWhile
      · rintro rfl
        cases tail with
        | nil => rfl
        | cons d tail =>
          have unnamed : isControlName d = false := by simpa using control
          rw [List.takeWhile_cons]
          split <;> simp [unnamed]
      · rw [List.cons_append, ← after, List.takeWhile_append_dropWhile]
      · rw [List.length_cons, Nat.add_comm, runLength]

private theorem escapeLength_eq {body : List Char} (h : CharacterBody ('\\' :: body))
    (more : List Char) : escapeLength (body ++ '\'' :: more) = body.length := by
  cases h with
  | plain _ slash => exact absurd rfl slash
  | control name =>
    have control : ('^' = '^' && isControlName _) = true := Bool.and_eq_true_iff.mpr ⟨rfl, name⟩
    exact if_pos control
  | @escape c run line alphanumeric other =>
    have unnamed : (c = '^' && (run ++ '\'' :: more).head?.any isControlName) = false := by
      rw [Bool.and_eq_false_imp]
      intro caret
      cases run with
      | nil => rfl
      | cons d run => exact other (of_decide_eq_true caret)
    have closed (d : Char) (quote : ('\'' :: more).head? = some d) :
        isAsciiAlphanumeric d = false := by
      obtain rfl : '\'' = d := Option.some.inj quote
      decide
    rw [List.cons_append, escapeLength, unnamed, line,
      runLength_append_of_stop alphanumeric closed]
    simp only [Bool.false_eq_true, if_false, List.length_cons]
    omega

private theorem characterTail?_escape {body : List Char} (h : CharacterBody ('\\' :: body))
    (more : List Char) :
    characterTail? ('\\' :: body ++ '\'' :: more) = some (('\\' :: body).length + 1) := by
  have reach := escapeLength_eq h more
  have closed : (('\\' :: (body ++ '\'' :: more)).drop (body.length + 1)).head? = some '\'' := by
    rw [List.drop_succ_cons, List.drop_left, List.head?_cons]
  have opened : ('\\' = '\'' || isLineBreak '\\') = false := by decide
  rw [List.cons_append, characterTail?, opened, if_neg Bool.false_ne_true]
  simp only [if_true, reach, Nat.one_add, closed, List.length_cons, Nat.succ_eq_add_one]

end CharacterBody

/-- Exactly which texts start with the rest of a character literal, and how far that reaches. -/
theorem characterTail?_eq_some_iff {text : List Char} {length : Nat} :
    characterTail? text = some length ↔
      ∃ body more, CharacterBody body ∧ text = body ++ '\'' :: more ∧
        length = body.length + 1 := by
  constructor
  · intro h
    cases text with
    | nil => simp [characterTail?] at h
    | cons c rest =>
      simp only [characterTail?, Option.ite_none_left_eq_some, Bool.or_eq_true, decide_eq_true_eq,
        not_or, Bool.not_eq_true, Option.ite_none_right_eq_some, Option.some.injEq] at h
      obtain ⟨⟨plain, line⟩, quote, rfl⟩ := h
      by_cases slash : c = '\\'
      · subst slash
        rw [if_pos rfl, Nat.one_add, List.drop_succ_cons] at quote
        obtain ⟨body, more, form, rfl, reach⟩ := CharacterBody.of_escape quote
        refine ⟨'\\' :: body, more, form, rfl, ?_⟩
        rw [if_pos rfl, reach, List.length_cons, Nat.add_comm 1]
      · rw [if_neg slash, List.drop_succ_cons, List.drop_zero] at quote
        obtain ⟨more, rfl⟩ := List.head?_eq_some_iff.mp quote
        exact ⟨[c], more, .plain plain slash line, rfl, by rw [if_neg slash]; rfl⟩
  · rintro ⟨body, more, form, rfl, rfl⟩
    cases form with
    | plain quote slash line => simp [characterTail?, quote, slash, line]
    | control name => exact CharacterBody.characterTail?_escape (.control name) more
    | escape line alphanumeric other =>
      exact CharacterBody.characterTail?_escape (.escape line alphanumeric other) more

end HaskellHighlight.Lexer
