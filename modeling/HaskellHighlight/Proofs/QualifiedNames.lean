import HaskellHighlight.Proofs.Restart

/-! Qualified names in front of any text. The names of the qualifier and the dots behind them are
tokens each, and the name that they qualify is the token that it is by itself: no operator takes in
the dot in front of it. -/
namespace HaskellHighlight.Lexer

def IsName (start : Char → Bool) (name : List Char) : Prop :=
  ∃ c rest, name = c :: rest ∧ start c = true ∧ ∀ d ∈ rest, isIdentChar d = true

/-- `EndsName name after` says that `name` can be qualified, as an identifier or as an operator, and
that `after` does not continue it. An operator that starts with a dot cannot be, for two dots never
join, and dashes alone start a comment. -/
inductive EndsName (name after : List Char) : Prop where
  | small (shape : IsName isSmall name)
      (stop : ∀ d, after.head? = some d → isIdentChar d = false)
  | large (shape : IsName isLarge name)
      (stop : ∀ d, after.head? = some d → isIdentChar d = false ∧ d ≠ '.')
  | operator (nonempty : name ≠ []) (symbols : ∀ d ∈ name, isSymbol d = true)
      (no_dot : name.head? ≠ some '.') (no_comment : ¬ (2 ≤ name.length ∧ ∀ d ∈ name, d = '-'))
      (stop : ∀ d, after.head? = some d → isSymbol d = false)

/-- The names in front of a qualified name, a dot behind each. -/
def qualifier (parts : List (List Char)) : List Char := parts.flatMap (· ++ ['.'])

def qualifierTokens : Nat → List (List Char) → List Token
  | _, [] => []
  | start, part :: parts =>
    let stop := start + Text.byteLength part
    ⟨.name .conId, ⟨start, stop⟩⟩ :: ⟨.dot, ⟨stop, stop + 1⟩⟩ :: qualifierTokens (stop + 1) parts

theorem qualifier_cons (part : List Char) (parts : List (List Char)) (rest : List Char) :
    qualifier (part :: parts) ++ rest = part ++ '.' :: (qualifier parts ++ rest) := by
  simp [qualifier]

theorem byteLength_qualifier_cons (part : List Char) (parts : List (List Char)) :
    Text.byteLength (qualifier (part :: parts)) =
      Text.byteLength part + 1 + Text.byteLength (qualifier parts) := by
  have dot : Text.byteLength ['.'] = 1 := rfl
  rw [qualifier, List.flatMap_cons, Text.byteLength_append, Text.byteLength_append, dot, qualifier]

theorem IsName.identChars {start : Char → Bool} {name : List Char} (shape : IsName start name)
    (starts : ∀ {c}, start c = true → isIdentChar c = true) :
    ∀ d ∈ name, isIdentChar d = true := by
  obtain ⟨c, rest, rfl, first, more⟩ := shape
  intro d mem
  rcases List.mem_cons.mp mem with rfl | mem
  · exact starts first
  · exact more d mem

namespace Lexeme
variable {name after : List Char}

/-- A run of identifier characters with nothing behind it that continues it. -/
theorem word_of_stop (run : ∀ d ∈ name, isIdentChar d = true)
    (stop : ∀ d, after.head? = some d → isIdentChar d = false) :
    word (name ++ after) = plain (word name).kind name.length := by
  have front : (name ++ after).takeWhile isIdentChar = name := takeWhile_append_of_stop run stop
  have whole : name.takeWhile isIdentChar = name := takeWhile_of_all run
  simp only [word, front, whole, plain]

/-- The name of a constructor with nothing behind it that continues it or that it qualifies. -/
theorem constructor_of_stop (run : ∀ d ∈ name, isIdentChar d = true)
    (stop : ∀ d, after.head? = some d → isIdentChar d = false) :
    constructor (name ++ after) =
      ⟨.name .conId, name.length, .initial, startsQualified after⟩ := by
  have length : runLength isIdentChar (name ++ after) = name.length :=
    runLength_append_of_stop run stop
  simp only [constructor, length, List.drop_left]

/-- Only a dot can join a name to what follows it. -/
theorem startsQualified_of_head (no_dot : after.head? ≠ some '.') : startsQualified after = false := by
  apply Bool.eq_false_iff.mpr
  intro joins
  obtain ⟨c, more, rfl, -⟩ := startsQualified_iff.mp joins
  exact no_dot rfl

/-- A run of operator characters, other than the start of a comment, with nothing behind it that
continues it. -/
theorem symbol_of_stop (run : ∀ d ∈ name, isSymbol d = true)
    (no_comment : ¬ (2 ≤ name.length ∧ ∀ d ∈ name, d = '-'))
    (stop : ∀ d, after.head? = some d → isSymbol d = false) :
    symbol (name ++ after) = plain (symbol name).kind name.length := by
  have front : (name ++ after).takeWhile isSymbol = name := takeWhile_append_of_stop run stop
  have whole : name.takeWhile isSymbol = name := takeWhile_of_all run
  have operator : ¬ (2 ≤ name.length && name.all (· = '-')) = true := by simpa using no_comment
  simp only [symbol, front, whole, if_neg operator, plain]

end Lexeme

/-- A dot in front of the name of a constructor joins it to a qualifier. -/
theorem IsName.joins {name : List Char} (shape : IsName isLarge name) (after : List Char) :
    Lexeme.startsQualified ('.' :: (name ++ after)) = true := by
  obtain ⟨c, rest, rfl, large, -⟩ := shape
  have other : c ≠ '.' := by
    rintro rfl
    exact absurd large (by decide)
  exact Lexeme.startsQualified_iff.mpr ⟨c, rest ++ after, rfl, other, Or.inr (Or.inl large)⟩

namespace EndsName
variable {name after : List Char}

theorem joins (h : EndsName name after) :
    Lexeme.startsQualified ('.' :: (name ++ after)) = true := by
  cases h with
  | small shape =>
    obtain ⟨c, rest, rfl, small, -⟩ := shape
    have other : c ≠ '.' := by
      rintro rfl
      exact absurd small (by decide)
    exact Lexeme.startsQualified_iff.mpr ⟨c, rest ++ after, rfl, other, Or.inl small⟩
  | large shape => exact shape.joins after
  | operator nonempty symbols no_dot =>
    obtain ⟨c, rest, rfl⟩ := List.exists_cons_of_ne_nil nonempty
    have other : c ≠ '.' := fun dot => no_dot (dot ▸ rfl)
    exact Lexeme.startsQualified_iff.mpr
      ⟨c, rest ++ after, rfl, other, Or.inr (Or.inr (symbols c List.mem_cons_self))⟩

/-- A name is the first token of a document that starts with it, of the kind that it has by
itself. -/
theorem firstToken (h : EndsName name after) :
    ∃ kind, FirstToken kind name [] ∧ FirstToken kind name after := by
  cases h with
  | small shape stop =>
    have run := shape.identChars isIdentChar_of_isSmall
    obtain ⟨c, rest, rfl, small, -⟩ := shape
    have unit (behind : List Char) (stop : ∀ d, behind.head? = some d → isIdentChar d = false) :
        FirstToken (Lexeme.word (c :: rest)).kind (c :: rest) behind := by
      have first := Dispatch.smallName small (rest ++ behind)
      rw [← List.cons_append, Lexeme.word_of_stop run stop] at first
      exact firstToken_of_dispatch first rfl
    exact ⟨_, unit [] nofun, unit after stop⟩
  | large shape stop =>
    have run := shape.identChars isIdentChar_of_isLarge
    obtain ⟨c, rest, rfl, large, -⟩ := shape
    have unit (behind : List Char)
        (stop : ∀ d, behind.head? = some d → isIdentChar d = false ∧ d ≠ '.') :
        FirstToken (.name .conId) (c :: rest) behind := by
      have first := Dispatch.largeName large (rest ++ behind)
      rw [← List.cons_append, Lexeme.constructor_of_stop run fun d head => (stop d head).1,
        Lexeme.startsQualified_of_head fun dot => (stop _ dot).2 rfl] at first
      exact firstToken_of_dispatch first rfl
    exact ⟨_, unit [] nofun, unit after stop⟩
  | operator nonempty symbols no_dot no_comment stop =>
    obtain ⟨c, rest, rfl⟩ := List.exists_cons_of_ne_nil nonempty
    have unit (behind : List Char) (stop : ∀ d, behind.head? = some d → isSymbol d = false) :
        FirstToken (Lexeme.symbol (c :: rest)).kind (c :: rest) behind := by
      have first := Dispatch.operator (symbols c List.mem_cons_self) (rest ++ behind)
      rw [← List.cons_append, Lexeme.symbol_of_stop symbols no_comment stop] at first
      exact firstToken_of_dispatch first rfl
    exact ⟨_, unit [] nofun, unit after stop⟩

end EndsName

namespace Cursor

/-- A name of a qualifier and the dot behind it are the next two tokens. -/
theorem produces_part {part rest : List Char} (shape : IsName isLarge part)
    (joins : Lexeme.startsQualified ('.' :: rest) = true) (start : Nat) :
    Produces ⟨start, part ++ '.' :: rest, .initial, false⟩
      [⟨.name .conId, ⟨start, start + Text.byteLength part⟩⟩,
        ⟨.dot, ⟨start + Text.byteLength part, start + Text.byteLength part + 1⟩⟩]
      ⟨start + Text.byteLength part + 1, rest, .initial, false⟩ := by
  have run := shape.identChars isIdentChar_of_isLarge
  have stop : ∀ d, ('.' :: rest).head? = some d → isIdentChar d = false := by
    rintro d ⟨⟩
    decide
  have name : (⟨start, part ++ '.' :: rest, .initial, false⟩ : Cursor).next? =
      some (⟨.name .conId, ⟨start, start + Text.byteLength part⟩⟩,
        ⟨start + Text.byteLength part, '.' :: rest, .initial, true⟩) := by
    have constructor := Lexeme.constructor_of_stop run stop
    obtain ⟨c, more, rfl, large, -⟩ := shape
    have first := (Dispatch.largeName large (more ++ '.' :: rest)).first_eq
    rw [← List.cons_append, constructor, joins] at first
    rw [next?_of_cons (List.cons_append ..), lexeme_free rfl rfl, first, ← List.cons_append]
    simp only [List.take_left, List.drop_left]
  have dot : (⟨start + Text.byteLength part, '.' :: rest, .initial, true⟩ : Cursor).next? =
      some (⟨.dot, ⟨start + Text.byteLength part, start + Text.byteLength part + 1⟩⟩,
        ⟨start + Text.byteLength part + 1, rest, .initial, false⟩) := rfl
  exact .step name (.step dot (.done _))

/-- The names of a qualifier and the dots behind them are the next tokens. -/
theorem produces_qualifier {parts : List (List Char)} {name after : List Char}
    (large : ∀ part ∈ parts, IsName isLarge part) (ends : EndsName name after) (start : Nat) :
    Produces ⟨start, qualifier parts ++ (name ++ after), .initial, false⟩
      (qualifierTokens start parts)
      ⟨start + Text.byteLength (qualifier parts), name ++ after, .initial, false⟩ := by
  induction parts generalizing start with
  | nil => exact .done _
  | cons part parts ih =>
    have later : ∀ part ∈ parts, IsName isLarge part :=
      fun other mem => large other (List.mem_cons_of_mem part mem)
    have joins : Lexeme.startsQualified ('.' :: (qualifier parts ++ (name ++ after))) = true := by
      cases parts with
      | nil => exact ends.joins
      | cons next parts =>
        rw [qualifier_cons]
        exact (later next List.mem_cons_self).joins _
    have first := produces_part (large part List.mem_cons_self) joins start
    have rest := ih later (start + Text.byteLength part + 1)
    have reached : start + Text.byteLength (qualifier (part :: parts)) =
        start + Text.byteLength part + 1 + Text.byteLength (qualifier parts) := by
      rw [byteLength_qualifier_cons]
      omega
    rw [qualifier_cons, reached]
    exact first.trans rest

end Cursor

/-- A qualified name splits at every dot. Its tokens are the names of the qualifier, a dot behind
each, and last the name that is qualified, of the kind that it has by itself; behind it stand the
tokens of what follows. -/
theorem qualified_tokens (parts : List (List Char)) (name after : List Char)
    (large : ∀ part ∈ parts, IsName isLarge part) (ends : EndsName name after) :
    let reached := Text.byteLength (qualifier parts)
    let stop := reached + Text.byteLength name
    ∃ kind, tokens name = [⟨kind, ⟨0, Text.byteLength name⟩⟩] ∧
      tokens (qualifier parts ++ (name ++ after)) =
        qualifierTokens 0 parts ++ ⟨kind, ⟨reached, stop⟩⟩ :: (tokens after).map (·.shift stop) := by
  intro reached stop
  obtain ⟨kind, alone, front⟩ := ends.firstToken
  refine ⟨kind, ?_, ?_⟩
  · rw [FirstToken, List.append_nil] at alone
    exact alone
  · have calls := Cursor.produces_qualifier large ends 0
    have behind : (⟨0 + reached, name ++ after, .initial, false⟩ : Cursor) =
        (Cursor.start (name ++ after) .initial).shift reached := rfl
    have moved : (⟨kind, ⟨0, Text.byteLength name⟩⟩ : Token).shift reached =
        ⟨kind, ⟨reached, stop⟩⟩ := by
      rw [Token.shift, Span.shift, Nat.zero_add, Nat.add_comm]
    calc
      tokens (qualifier parts ++ (name ++ after)) = qualifierTokens 0 parts ++
          (⟨0 + reached, name ++ after, .initial, false⟩ : Cursor).tokens := calls.tokens_eq
      _ = qualifierTokens 0 parts ++ (tokens (name ++ after)).map (·.shift reached) := by
        rw [behind, Cursor.tokens_shift]
        rfl
      _ = _ := by
        rw [front, List.map_cons, moved, List.map_map]
        simp only [Function.comp_def, Token.shift_shift, stop]

/-- An operator behind a qualifier of two names, the second one with a letter of two bytes: the dot
in front of the operator is a token by itself, and so is the operator. -/
theorem qualified_tokens_of_operator :
    let parts := ["M'".toList, "Été".toList]
    (∀ part ∈ parts, IsName isLarge part) ∧ EndsName "-.".toList " x".toList ∧
      ∃ kind, tokens "-.".toList = [⟨kind, ⟨0, 2⟩⟩] ∧
        tokens "M'.Été.-. x".toList =
          [⟨.name .conId, ⟨0, 2⟩⟩, ⟨.dot, ⟨2, 3⟩⟩, ⟨.name .conId, ⟨3, 8⟩⟩, ⟨.dot, ⟨8, 9⟩⟩] ++
            ⟨kind, ⟨9, 11⟩⟩ :: (tokens " x".toList).map (·.shift 11) := by
  intro parts
  have large : ∀ part ∈ parts, IsName isLarge part := by
    intro part mem
    simp only [parts, List.mem_cons, List.not_mem_nil, or_false] at mem
    rcases mem with rfl | rfl
    · exact ⟨'M', ['\''], rfl, by decide, List.all_eq_true.mp (by decide)⟩
    · exact ⟨'É', ['t', 'é'], rfl, by decide, List.all_eq_true.mp (by decide)⟩
  have ends : EndsName "-.".toList " x".toList := by
    refine .operator (List.cons_ne_nil '-' ['.']) (List.all_eq_true.mp (by decide)) (by decide) ?_ ?_
    · intro dashes
      exact absurd (dashes.2 '.' (List.mem_cons_of_mem '-' List.mem_cons_self)) (by decide)
    · rintro d ⟨⟩
      decide
  exact ⟨large, ends, qualified_tokens parts "-.".toList " x".toList large ends⟩

end HaskellHighlight.Lexer
