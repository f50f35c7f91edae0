import HaskellHighlight.Proofs.CommentScan
import HaskellHighlight.Proofs.TokenText

/-! Nested comments by counting. A text is cut from left to right into marks that open a comment,
marks that close one, and single characters. A comment ends right after the first closing mark with
which as many were closed as were open, or it is still open at the end of the text. -/
namespace HaskellHighlight.Lexer

/-- What the scan of a comment passes at once. -/
inductive Mark where
  | opening | closing
  | other (c : Char)
  deriving DecidableEq, Repr

namespace Mark

def text : Mark → List Char
  | opening => ['\x7b', '-']
  | closing => ['-', '\x7d']
  | other c => [c]

def ofText : List Char → List Mark
  | [] => []
  | '\x7b' :: '-' :: rest => opening :: ofText rest
  | '-' :: '\x7d' :: rest => closing :: ofText rest
  | c :: rest => other c :: ofText rest

/-- How many comments are open behind some marks where `depth` are open in front of them, by
counting. -/
def balance (depth : Nat) (marks : List Mark) : Int :=
  depth + marks.count opening - marks.count closing

/-- How many comments are open behind a mark, as the scan keeps it: nothing takes the number below
zero. -/
def pass (depth : Nat) : Mark → Nat
  | opening => depth + 1
  | closing => depth - 1
  | other _ => depth

def depthAfter (depth : Nat) (marks : List Mark) : Nat := marks.foldl pass depth

theorem ofText_plain {c : Char} {rest : List Char} (h : isMark c rest = false) :
    ofText (c :: rest) = other c :: ofText rest := by
  rw [Bool.eq_false_iff, ne_eq, isMark_iff] at h
  rw [ofText]
  · exact fun more opening dash => h ⟨more, Or.inl ⟨opening, dash⟩⟩
  · exact fun more dash closing => h ⟨more, Or.inr ⟨dash, closing⟩⟩

theorem flatMap_ofText (text : List Char) : (ofText text).flatMap Mark.text = text := by
  fun_induction ofText text with
  | case1 => rfl
  | case2 rest ih => rw [List.flatMap_cons, ih]; rfl
  | case3 rest ih => rw [List.flatMap_cons, ih]; rfl
  | case4 c rest _ _ ih => rw [List.flatMap_cons, ih]; rfl

example : ofText "\x7b-\x7d-\x7d".toList = [opening, other '\x7d', closing] := by decide

theorem balance_nil (depth : Nat) : balance depth [] = depth := by simp [balance]

/-- The scan counts right wherever it meets closing marks inside a comment only. -/
theorem balance_cons {depth : Nat} {mark : Mark} (inside : mark = closing → 1 ≤ depth)
    (marks : List Mark) : balance depth (mark :: marks) = balance (mark.pass depth) marks := by
  simp only [balance, pass, List.count_cons]
  cases mark with
  | opening =>
    simp only [beq_self_eq_true, if_true, reduceCtorEq, beq_iff_eq, if_false]
    omega
  | closing =>
    have := inside rfl
    simp only [beq_self_eq_true, if_true, reduceCtorEq, beq_iff_eq, if_false]
    omega
  | other c => simp

end Mark

open Mark

/-- `CommentEnd depth passed later state` says that a comment that is entered `depth` levels deep
ends between the marks `passed` and `later`, and leaves `state`. The last of the marks passed is the
first closing mark at which the balance is zero; or there is no such mark, and all are passed. -/
inductive CommentEnd (depth : Nat) : List Mark → List Mark → State → Prop where
  | closed {inner : List Mark} (zero : balance depth (inner ++ [closing]) = 0)
      (first : ∀ before after, inner = before ++ closing :: after →
        balance depth (before ++ [closing]) ≠ 0) (later : List Mark) :
      CommentEnd depth (inner ++ [closing]) later .initial
  | opened {marks : List Mark} {left : Nat} (count : (left : Int) = balance depth marks)
      (positive : 1 ≤ left) (never : ∀ before after, marks = before ++ closing :: after →
        balance depth (before ++ [closing]) ≠ 0) :
      CommentEnd depth marks [] (.blockComment left)

/-- A mark in front of a comment's marks, where it is not the one that ends the comment. -/
theorem CommentEnd.cons {depth : Nat} {mark : Mark} {passed later : List Mark} {state : State}
    (inside : mark = closing → 1 < depth)
    (h : CommentEnd (mark.pass depth) passed later state) :
    CommentEnd depth (mark :: passed) later state := by
  have shift := balance_cons (fun closes => Nat.le_of_lt (inside closes))
  -- an earlier mark at which the balance is zero is the mark itself, or one of those behind it
  have earlier {marks : List Mark} (first : ∀ before after, marks = before ++ closing :: after →
      balance (mark.pass depth) (before ++ [closing]) ≠ 0) (before after : List Mark)
      (cut : mark :: marks = before ++ closing :: after) :
      balance depth (before ++ [closing]) ≠ 0 := by
    cases before with
    | nil =>
      obtain ⟨rfl, -⟩ := List.cons.inj cut
      have := inside rfl
      rw [List.nil_append, shift, balance_nil, Mark.pass]
      omega
    | cons next before =>
      obtain ⟨rfl, behind⟩ := List.cons.inj cut
      rw [List.cons_append, shift]
      exact first before after behind
  cases h with
  | @closed inner zero first =>
    rw [← List.cons_append]
    refine .closed ?_ (earlier first) later
    rw [List.cons_append, shift, zero]
  | opened count positive never =>
    exact .opened (count.trans (shift _).symm) positive (earlier never)

/-- How a comment that is entered `depth` levels deep in the text `body` lies there: `part` is what
belongs to it, which counting the marks decides, and `state` is left behind it. The scan meets no
closing mark where nothing is open. -/
def Encloses (depth : Nat) (body part : List Char) (state : State) : Prop :=
  ∃ passed later, ofText body = passed ++ later ∧ part = passed.flatMap Mark.text ∧
    CommentEnd depth passed later state ∧
    ∀ before after, passed = before ++ closing :: after → 1 ≤ depthAfter depth before

private theorem Encloses.cons (mark : Mark) {depth : Nat} {rest whole part : List Char}
    {state : State} (h : Encloses (mark.pass depth) rest part state)
    (inside : mark = closing → 1 < depth) (cut : ofText whole = mark :: ofText rest) :
    Encloses depth whole (mark.text ++ part) state := by
  obtain ⟨passed, later, marks, rfl, ends, open_there⟩ := h
  refine ⟨mark :: passed, later, by rw [cut, marks, List.cons_append], List.flatMap_cons.symm,
    ends.cons inside, ?_⟩
  intro before after split
  cases before with
  | nil =>
    obtain ⟨rfl, -⟩ := List.cons.inj split
    exact Nat.le_of_lt (inside rfl)
  | cons next before =>
    obtain ⟨rfl, behind⟩ := List.cons.inj split
    exact open_there before after behind

/-- The scan of a comment ends where counting its marks says. -/
theorem encloses_commentTail {depth : Nat} (positive : 1 ≤ depth) (text : List Char) :
    Encloses depth text (text.take (commentTail depth text).1) (commentTail depth text).2 := by
  induction depth, text using scan_induction with
  | finish depth =>
    have none_closes {before after : List Mark} : [] ≠ before ++ closing :: after := by simp
    exact ⟨[], [], rfl, rfl, .opened (balance_nil depth).symm positive
      (fun _ _ cut => absurd cut none_closes), fun _ _ cut => absurd cut none_closes⟩
  | opening depth rest ih =>
    rw [commentTail_opening]
    exact .cons .opening (ih (Nat.le_succ_of_le positive)) Mark.noConfusion rfl
  | closing depth rest ih =>
    rw [commentTail_closing]
    split
    · obtain rfl : depth = 1 := by omega
      have first (before after : List Mark) (cut : [] = before ++ closing :: after) :
          balance 1 (before ++ [closing]) ≠ 0 := by
        simp at cut
      refine ⟨[closing], ofText rest, rfl, rfl, .closed rfl first _, ?_⟩
      · intro before after cut
        cases before with
        | nil => exact Nat.le_refl 1
        | cons next before => simp at cut
    · have deeper : 1 < depth := by omega
      exact .cons .closing (ih deeper (by omega)) (fun _ => deeper) rfl
  | plain depth c rest plain ih =>
    rw [commentTail_plain plain]
    exact .cons (.other c) (ih positive) Mark.noConfusion (ofText_plain plain)

/-- A comment that stays open is all of the text. -/
theorem Encloses.eq_of_open {depth left : Nat} {body part : List Char} {state : State}
    (h : Encloses depth body part state) (left_open : state = .blockComment left) :
    part = body := by
  obtain ⟨passed, later, marks, rfl, ends, -⟩ := h
  cases ends with
  | closed => contradiction
  | opened => rw [← flatMap_ofText body, marks, List.append_nil]

namespace Cursor
variable {cursor : Cursor} {depth : Nat} {body : List Char}

theorem next?_inside (state : cursor.state = .blockComment depth) (positive : 1 ≤ depth)
    (left : cursor.rest ≠ []) :
    ∃ part after, cursor.next? =
        some (⟨.blockComment, cursor.offset, cursor.offset + Text.byteLength part⟩, after) ∧
      Encloses depth cursor.rest part after.state := by
  obtain ⟨c, rest, text⟩ := List.exists_cons_of_ne_nil left
  have scan := encloses_commentTail positive cursor.rest
  rw [next?_of_cons text, lexeme_blockComment state, ← text]
  simp only [Lexeme.comment, Nat.zero_add]
  exact ⟨_, _, rfl, scan⟩

theorem next?_opening (state : cursor.state = .initial) (none_due : cursor.qualifierDot = false)
    (text : cursor.rest = '\x7b' :: '-' :: body) :
    ∃ part after, cursor.next? =
        some (⟨.blockComment, cursor.offset, cursor.offset + 2 + Text.byteLength part⟩, after) ∧
      Encloses 1 body part after.state := by
  have unit : cursor.lexeme '\x7b' ('-' :: body) = .comment 2 (commentTail 1 body) :=
    (lexeme_free state none_due ..).trans (Dispatch.comment body).first_eq
  have scan := encloses_commentTail (Nat.le_refl 1) body
  have bytes : cursor.offset +
      Text.byteLength (('\x7b' :: '-' :: body).take (2 + (commentTail 1 body).1)) =
        cursor.offset + 2 + Text.byteLength (body.take (commentTail 1 body).1) := by
    rw [Nat.add_comm 2, List.take_succ_cons, List.take_succ_cons, Nat.add_assoc]
    exact congrArg (cursor.offset + ·) (Nat.add_assoc 1 1 _).symm
  rw [next?_of_cons text, unit]
  simp only [Lexeme.comment, bytes]
  exact ⟨_, _, rfl, scan⟩

/-- A comment token is one that goes on where comments are open, or one that is opened. -/
theorem comment_cases {token : Token} {after : Cursor} (call : cursor.next? = some (token, after))
    (kind : token.kind = .blockComment) (normal : cursor.state.normal = cursor.state)
    (due : cursor.DueAhead) :
    (∃ depth, 1 ≤ depth ∧ cursor.state = .blockComment depth) ∨
      (cursor.state = .initial ∧ cursor.qualifierDot = false ∧
        ∃ body, cursor.rest = '\x7b' :: '-' :: body) := by
  cases state : cursor.state with
  | blockComment depth =>
    rw [state] at normal
    exact Or.inl ⟨depth, State.depth_pos_of_normal normal, rfl⟩
  | initial =>
    obtain ⟨taken, text, describes, -⟩ := next?_describes call state due
    rw [kind] at describes
    obtain ⟨body, rfl, -⟩ := describes
    refine Or.inr ⟨rfl, ?_, _, text⟩
    rw [Bool.eq_false_iff]
    intro dot
    obtain ⟨c, more, start, -⟩ := Lexeme.startsQualified_iff.mp (due dot).2
    obtain ⟨impossible, -⟩ := List.cons.inj (text.symm.trans start)
    exact absurd impossible (by decide)

end Cursor

private theorem last_of_open {text : List Char} {state : State} {place depth : Nat} {token : Token}
    (nth : (tokensFrom text state)[place]? = some token)
    (left_open : ((Cursor.start text state).skip (place + 1)).state = .blockComment depth) :
    place + 1 = (tokensFrom text state).length ∧ token.kind = .blockComment ∧
      token.span.stop = Text.byteLength text := by
  have calls := Cursor.produces_skip (Cursor.start text state) (place + 1)
  have call := Cursor.next?_of_getElem? nth
  have normal := (Cursor.produces_skip (Cursor.start text state) place).normal
    (Cursor.start_normal text state)
  rcases Cursor.next?_state call normal with closed | ⟨-, kind, none_left, -⟩
  · rw [closed] at left_open
    contradiction
  obtain ⟨taken, whole, reached⟩ := calls.passed
  rw [none_left, List.append_nil] at whole
  obtain rfl : text = taken := whole
  have all : tokensFrom text state = (tokensFrom text state).take (place + 1) := by
    have split := calls.tokens_eq
    rwa [Cursor.tokens_eq_nil_iff.mpr none_left, List.append_nil] at split
  obtain ⟨-, -, -, -, -, -, -, -, -, -, span, -⟩ := Cursor.next?_eq_some call
  refine ⟨?_, kind, ?_⟩
  · have inside := (List.getElem?_eq_some_iff.mp nth).1
    have short := congrArg List.length all
    rw [List.length_take] at short
    omega
  · rw [span]
    exact reached.trans (Nat.zero_add _)

/-- Nested comments balance. Where a text is entered inside comments, the first token goes on with
them up to the first closing mark with which all are closed, and leaves nothing open; if there is no
such mark it is the whole text, and as many are left open as counting the marks gives, at least one.
Where nothing is open, the mark that opens a comment starts one of depth one on the text behind it.
In every run a token that leaves comments open is the last one and reaches the end of the text,
never are no comments said to be open, and no comment token meets a closing mark where nothing is
open, so that the number of open comments is never taken below zero. -/
theorem comment_balances (text : List Char) (state : State) :
    (∀ depth, 1 ≤ depth → text ≠ [] → ∃ part after,
      (Cursor.start text (.blockComment depth)).next? =
        some (⟨.blockComment, 0, Text.byteLength part⟩, after) ∧
      Encloses depth text part after.state ∧
      ∀ left, after.state = .blockComment left → part = text) ∧
    (∀ (cursor : Cursor) (body : List Char), cursor.state = .initial →
      cursor.qualifierDot = false → cursor.rest = '\x7b' :: '-' :: body → ∃ part after,
      cursor.next? =
        some (⟨.blockComment, cursor.offset, cursor.offset + 2 + Text.byteLength part⟩, after) ∧
      Encloses 1 body part after.state) ∧
    (∀ count, ((Cursor.start text state).skip count).state ≠ .blockComment 0) ∧
    ∀ place token, (tokensFrom text state)[place]? = some token →
      (∀ depth, ((Cursor.start text state).skip (place + 1)).state = .blockComment depth →
        place + 1 = (tokensFrom text state).length ∧ token.kind = .blockComment ∧
          token.span.stop = Text.byteLength text) ∧
      (token.kind = .blockComment → ∃ depth body part, 1 ≤ depth ∧
        (((Cursor.start text state).skip place).state = .blockComment depth ∧
            ((Cursor.start text state).skip place).rest = body ∨
          ((Cursor.start text state).skip place).state = .initial ∧ depth = 1 ∧
            ((Cursor.start text state).skip place).rest = '\x7b' :: '-' :: body) ∧
        Encloses depth body part ((Cursor.start text state).skip (place + 1)).state) := by
  have calls (count : Nat) := Cursor.produces_skip (Cursor.start text state) count
  have normal (count : Nat) := (calls count).normal (Cursor.start_normal text state)
  refine ⟨fun depth positive left => ?_, fun cursor body entered none_due ahead =>
    Cursor.next?_opening entered none_due ahead, fun count none_open => ?_, fun place token nth =>
    ⟨fun depth left_open => last_of_open nth left_open, fun kind => ?_⟩⟩
  · have entered : (Cursor.start text (.blockComment depth)).state = .blockComment depth := by
      obtain ⟨k, rfl⟩ := Nat.exists_eq_add_of_le' positive
      rfl
    obtain ⟨part, after, call, encloses⟩ := Cursor.next?_inside entered positive left
    rw [Cursor.start, Nat.zero_add] at call
    exact ⟨part, after, call, encloses, fun _ => encloses.eq_of_open⟩
  · have := none_open ▸ normal count
    contradiction
  · have call := Cursor.next?_of_getElem? nth
    have due := (calls place).dueAhead (Cursor.start_normal text state)
      fun none_yet => absurd none_yet Bool.false_ne_true
    rcases Cursor.comment_cases call kind (normal place) due with
      ⟨depth, positive, entered⟩ | ⟨entered, none_due, body, ahead⟩
    · obtain ⟨part, after, same, encloses⟩ :=
        Cursor.next?_inside entered positive (Cursor.rest_ne_nil call)
      obtain ⟨-, rfl⟩ := Prod.mk.inj (Option.some.inj (call.symm.trans same))
      exact ⟨depth, _, part, positive, Or.inl ⟨entered, rfl⟩, encloses⟩
    · obtain ⟨part, after, same, encloses⟩ := Cursor.next?_opening entered none_due ahead
      obtain ⟨-, rfl⟩ := Prod.mk.inj (Option.some.inj (call.symm.trans same))
      exact ⟨1, body, part, Nat.le_refl 1, Or.inr ⟨entered, rfl, ahead⟩, encloses⟩

end HaskellHighlight.Lexer
