import HaskellHighlight.Proofs.Rendering

/-! What a terminal shows of a source text that was highlighted for it. -/
namespace HaskellHighlight
open Highlight

private theorem byteLength_take_lt {text : List Char} {i : Nat} (h : i < text.length) :
    Text.byteLength (text.take i) < Text.byteLength text := by
  have ahead : text.drop i ≠ [] := by
    intro none
    have := congrArg List.length none
    rw [List.length_drop, List.length_nil] at this
    omega
  have split := congrArg Text.byteLength (List.take_append_drop i text)
  have positive := Text.byteLength_pos ahead
  rw [Text.byteLength_append] at split
  omega

def Session.withMerging (session : Session) (mergeAdjacent : Bool) : Session :=
  { session with config := { session.config with
      highlight := { session.config.highlight with mergeAdjacent } } }

namespace CommandLine
open Terminal
variable {arguments : Arguments} {session : Session} {text : List Char}

def colorAt (session : Session) (text : List Char) (offset : Nat) : Option Rgb :=
  if session.config.highlight.enabled then
    (keyAt offset ((Lexer.tokens text).filterMap ofToken?)).map session.scheme.colorFor
  else none

private theorem keyAt_highlightsOf (session : Session) (text : List Char) (offset : Nat) :
    (keyAt offset (highlightsOf session text)).map session.scheme.colorFor =
      colorAt session text offset := by
  rw [highlightsOf, colorAt]
  split
  · have same := (ofTokens_spec session.config.highlight.mergeAdjacent text .initial).2
    exact congrArg (Option.map session.scheme.colorFor) (same offset)
  · rfl

private theorem output?_shown (format : arguments.format = .ansi)
    (highlighting : arguments.listTokens = false) (plain : '\x1b' ∉ text) (session : Session) :
    ∃ written, output? arguments session text = some written ∧
      Terminal.read (String.ofList written).toUTF8 = .ok (shown (colorAt session text) 0 text) := by
  obtain ⟨written, succeeds, display_eq⟩ :=
    Render.ansiFrom_shown session.scheme (highlightsOf_fits session text)
  refine ⟨written, ?_, ?_⟩
  · rw [output?, highlighting, format]
    exact succeeds
  · rw [read_ofList, display_eq plain]
    exact congrArg _ (shown_congr fun offset _ _ => keyAt_highlightsOf session text offset)

/-- Highlighted text shows every character of the source once and in order, whether neighbours are
joined or not, and no highlight is misplaced. With colours on, a character has the colour of the key
of the one token that contains it, or none if the token has no key; with colours off none has a
colour. -/
theorem ansi_output_shown (arguments : Arguments) (session : Session) (text : List Char)
    (format : arguments.format = .ansi) (highlighting : arguments.listTokens = false)
    (plain : '\x1b' ∉ text) :
    ∃ cells : List Cell,
      (∀ mergeAdjacent, ∃ written,
        output? arguments (session.withMerging mergeAdjacent) text = some written ∧
        Terminal.read (String.ofList written).toUTF8 = .ok cells) ∧
      cells.map Cell.char = text ∧
      ∀ i (h : i < cells.length),
        (session.config.highlight.enabled = false → cells[i].color = none) ∧
        (session.config.highlight.enabled = true → ∃ token ∈ Lexer.tokens text,
          token.span.Contains (Text.byteLength (text.take i)) ∧
          (∀ other ∈ Lexer.tokens text,
            other.span.Contains (Text.byteLength (text.take i)) → other = token) ∧
          cells[i].color = token.kind.key?.map session.scheme.colorFor) := by
  refine ⟨shown (colorAt session text) 0 text, fun mergeAdjacent => ?_, map_char_shown _ 0 text, ?_⟩
  · exact output?_shown format highlighting plain (session.withMerging mergeAdjacent)
  intro i h
  have inside : Text.byteLength (text.take i) < Text.byteLength text := by
    have length := congrArg List.length (map_char_shown (colorAt session text) 0 text)
    rw [List.length_map] at length
    exact byteLength_take_lt (length ▸ h)
  have row := (Lexer.tokensFrom_contiguous text .initial).1
  rw [getElem_shown, Nat.zero_add]
  refine ⟨fun off => if_neg (by simp [off]), fun on => ?_⟩
  obtain ⟨token, mem, covers, unique, key⟩ := row.token_at (Nat.zero_le _) inside
  refine ⟨token, mem, covers, unique, ?_⟩
  rw [← key]
  exact if_pos on

/-- A text with a token that has no key, and no colour then, between two that have one each. -/
theorem ansi_output_shown_of_names :
    let session : Session := ⟨.standard, .builtin, .ofTheme .dark⟩
    ∃ cells : List Cell,
      (∀ mergeAdjacent, ∃ written,
        output? ⟨none, .ansi, none, false, 0⟩ (session.withMerging mergeAdjacent) "x y".toList =
          some written ∧
        Terminal.read (String.ofList written).toUTF8 = .ok cells) ∧
      cells.map Cell.char = "x y".toList ∧
      cells.map Cell.color = [some ⟨0xd9, 0xd9, 0xd9⟩, none, some ⟨0xd9, 0xd9, 0xd9⟩] := by
  intro session
  have plain : '\x1b' ∉ "x y".toList := by decide
  obtain ⟨cells, same, chars, colors⟩ :=
    ansi_output_shown ⟨none, .ansi, none, false, 0⟩ session "x y".toList rfl rfl plain
  refine ⟨cells, same, chars, ?_⟩
  have row : Lexer.tokens "x y".toList =
      [⟨.name .varId, ⟨0, 1⟩⟩, ⟨.whitespace, ⟨1, 2⟩⟩, ⟨.name .varId, ⟨2, 3⟩⟩] := by decide +kernel
  have color_of (i : Nat) (h : i < cells.length) (token : Token)
      (mem : token ∈ Lexer.tokens "x y".toList)
      (covers : token.span.Contains (Text.byteLength ("x y".toList.take i))) :
      cells[i].color = token.kind.key?.map session.scheme.colorFor := by
    obtain ⟨_, -, -, unique, color⟩ := (colors i h).2 rfl
    rw [color, unique token mem covers]
  have length : cells.length = 3 := by simpa using congrArg List.length chars
  have name := color_of 0 (by omega) ⟨.name .varId, ⟨0, 1⟩⟩ (by rw [row]; simp) (by decide)
  have blank := color_of 1 (by omega) ⟨.whitespace, ⟨1, 2⟩⟩ (by rw [row]; simp) (by decide)
  have other := color_of 2 (by omega) ⟨.name .varId, ⟨2, 3⟩⟩ (by rw [row]; simp) (by decide)
  refine List.ext_getElem (by rw [List.length_map, length]; rfl) fun i h _ => ?_
  rw [List.length_map, length] at h
  rw [List.getElem_map]
  match i, h with
  | 0, _ => exact name
  | 1, _ => exact blank
  | 2, _ => exact other

end CommandLine

end HaskellHighlight
