import HaskellHighlight.CommandLine.Run
import HaskellHighlight.Proofs.TokenHighlights

/-! Writing a source text out never fails. Every format takes only parts of the text that start and
end between characters. -/
namespace HaskellHighlight
open Highlight

theorem mapM_exists {α β : Type} {f : α → Option β} {items : List α}
    (each : ∀ item ∈ items, ∃ result, f item = some result) :
    ∃ results, items.mapM f = some results := by
  induction items with
  | nil => exact ⟨[], rfl⟩
  | cons item items ih =>
    obtain ⟨first, found⟩ := each item List.mem_cons_self
    obtain ⟨results, rest⟩ := ih fun other mem => each other (List.mem_cons_of_mem item mem)
    exact ⟨first :: results, by simp [List.mapM_cons, found, rest]⟩

namespace Render
variable {text : List Char} {highlights : List Highlight}

theorem plain_exists (fits : Fits 0 text highlights) :
    ∃ written, plain text highlights = some written := by
  have lines : ∃ lines, highlights.mapM (plainLine text) = some lines := by
    refine mapM_exists fun highlight mem => ?_
    obtain ⟨⟨part, slice⟩, -⟩ := fits.slice? mem
    exact ⟨_, by rw [plainLine, slice]; rfl⟩
  obtain ⟨lines, written⟩ := lines
  exact ⟨lines.flatten, by rw [plain, written, Option.map_some]⟩

theorem json_exists (scheme : Scheme) (fits : Fits 0 text highlights) :
    ∃ written, json scheme text highlights = some written := by
  have objects : ∃ objects, highlights.mapM (jsonObject scheme text) = some objects := by
    refine mapM_exists fun highlight mem => ?_
    obtain ⟨⟨part, slice⟩, -⟩ := fits.slice? mem
    exact ⟨_, by rw [jsonObject, slice]; rfl⟩
  obtain ⟨objects, written⟩ := objects
  exact ⟨_, by rw [json, written, Option.map_some]⟩

theorem tokenListing_exists {tokens : List Token}
    (slices : ∀ token ∈ tokens, ∃ part, token.span.slice? text = some part) :
    ∃ written, tokenListing text tokens = some written := by
  have lines : ∃ lines, tokens.mapM (tokenLine text) = some lines := by
    refine mapM_exists fun token mem => ?_
    obtain ⟨part, slice⟩ := slices token mem
    exact ⟨_, by rw [tokenLine, slice]; rfl⟩
  obtain ⟨lines, written⟩ := lines
  exact ⟨lines.flatten, by rw [tokenListing, written, Option.map_some]⟩

end Render

theorem Lexer.tokensFrom_slice? {text : List Char} {state : State} {token : Token}
    (mem : token ∈ tokensFrom text state) : ∃ part, token.span.slice? text = some part := by
  obtain ⟨-, pieces, slices, -⟩ := tokensFrom_contiguous text state
  have slice : token.span.slice? text ∈ pieces.map some :=
    slices ▸ List.mem_map_of_mem mem
  obtain ⟨part, -, same⟩ := List.mem_map.mp slice
  exact ⟨part, same.symm⟩

namespace CommandLine

theorem Format.render_exists (format : Format) (scheme : Scheme) {text : List Char}
    {highlights : List Highlight} (fits : Fits 0 text highlights) :
    ∃ written, format.render scheme text highlights = some written := by
  cases format with
  | ansi =>
    obtain ⟨written, painted, -⟩ := Render.ansiFrom_shown scheme fits
    exact ⟨written, painted⟩
  | plain => exact Render.plain_exists fits
  | json => exact Render.json_exists scheme fits

def highlightsOf (session : Session) (text : List Char) : List Highlight :=
  if session.config.highlight.enabled then
    ofTokens session.config.highlight.mergeAdjacent (Lexer.tokens text)
  else []

theorem highlightsOf_fits (session : Session) (text : List Char) :
    Fits 0 text (highlightsOf session text) := by
  rw [highlightsOf]
  split
  · exact (ofTokens_spec _ text .initial).1
  · trivial

/-- What is written for a source text, by the mode that the arguments ask for: a line for every
token, or the text with its highlights in one of the three formats. -/
inductive Prints (arguments : Arguments) (session : Session) (text : List Char) :
    List Char → Prop where
  | listing {written : List Char} (listed : arguments.listTokens = true)
      (lines : Render.tokenListing text (Lexer.tokens text) = some written) :
      Prints arguments session text written
  | ansi {written : List Char} (highlighted : arguments.listTokens = false)
      (format : arguments.format = .ansi)
      (painted : Render.ansi session.scheme text (highlightsOf session text) = some written) :
      Prints arguments session text written
  | plain {written : List Char} (highlighted : arguments.listTokens = false)
      (format : arguments.format = .plain)
      (lines : Render.plain text (highlightsOf session text) = some written) :
      Prints arguments session text written
  | json {written : List Char} (highlighted : arguments.listTokens = false)
      (format : arguments.format = .json)
      (objects : Render.json session.scheme text (highlightsOf session text) = some written) :
      Prints arguments session text written

theorem prints_iff {arguments : Arguments} {session : Session} {text written : List Char} :
    Prints arguments session text written ↔ output? arguments session text = some written := by
  constructor
  · intro prints
    cases prints with
    | listing listed lines => rwa [output?, if_pos listed]
    | ansi highlighted format output | plain highlighted format output
    | json highlighted format output =>
      simp only [output?, highlighted, Bool.false_eq_true, if_false, format]
      exact output
  · intro output
    cases listed : arguments.listTokens with
    | true =>
      rw [output?, if_pos listed] at output
      exact .listing listed output
    | false =>
      simp only [output?, listed, Bool.false_eq_true, if_false] at output
      cases format : arguments.format <;> rw [format] at output
      · exact .ansi listed format output
      · exact .plain listed format output
      · exact .json listed format output

/-- Every source text is written out, whatever the arguments and the settings are. -/
theorem output?_exists (arguments : Arguments) (session : Session) (text : List Char) :
    ∃ written, output? arguments session text = some written := by
  rw [output?]
  split
  · exact Render.tokenListing_exists fun token mem => Lexer.tokensFrom_slice? mem
  · exact arguments.format.render_exists session.scheme (highlightsOf_fits session text)

end CommandLine

end HaskellHighlight
