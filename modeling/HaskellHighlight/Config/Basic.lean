import HaskellHighlight.Color.Scheme
import HaskellHighlight.NameMap
import HaskellHighlight.Toml.Writer

/-! The settings of the highlighter and their TOML text. -/
namespace HaskellHighlight

/-- How to highlight: whether to colour at all, whether to join neighbours that look alike, and
the theme. -/
structure HighlightSettings where
  enabled : Bool
  mergeAdjacent : Bool
  theme : Theme
  deriving DecidableEq, Repr

/-- All settings. `colors` gives single keys a colour by name, and `extraExtensions` lists further
extensions of Haskell files; neither is checked here. -/
structure Config where
  highlight : HighlightSettings
  colors : NameMap String
  extraExtensions : List String
  deriving DecidableEq

def HighlightSettings.standard : HighlightSettings := ⟨true, true, .dark⟩

def Config.standard : Config := ⟨.standard, .empty, []⟩

namespace Config
open Toml

def writeBoolean (value : Bool) : List Char := (if value then "true" else "false").toList

/-- Three tables with a blank line between them, every setting on a line, and colours in the order
of their names. -/
def write (config : Config) : List Char :=
  writeHeader "highlight".toList ++
    writeEntry "enabled".toList (writeBoolean config.highlight.enabled) ++
    writeEntry "merge_adjacent".toList (writeBoolean config.highlight.mergeAdjacent) ++
    writeEntry "theme".toList (writeString config.highlight.theme.name.toList) ++ ['\n'] ++
    writeHeader "colors".toList ++
    config.colors.entries.flatMap
      (fun (name, color) => writeEntry name.toList (writeString color.toList)) ++ ['\n'] ++
    writeHeader "files".toList ++
    writeEntry "extra_extensions".toList
      (writeStrings (config.extraExtensions.map String.toList))

end Config

end HaskellHighlight
