import HaskellHighlight.Main
import HaskellHighlight.Proofs.CharClass
import HaskellHighlight.Proofs.Dispatch
import HaskellHighlight.Proofs.Iteration
import HaskellHighlight.Proofs.ExactCover
import HaskellHighlight.Proofs.Reachable
import HaskellHighlight.Proofs.Restart
import HaskellHighlight.Proofs.KeptFields
import HaskellHighlight.Proofs.CommentScan
import HaskellHighlight.Proofs.Extension
import HaskellHighlight.Proofs.Chunks
import HaskellHighlight.Proofs.Truncation
import HaskellHighlight.Proofs.TokenText
import HaskellHighlight.Proofs.CommentBalance
import HaskellHighlight.Proofs.StringItems
import HaskellHighlight.Proofs.StringGaps
import HaskellHighlight.Proofs.StringTokens
import HaskellHighlight.Proofs.CharacterTokens
import HaskellHighlight.Proofs.Numerals
import HaskellHighlight.Proofs.TokenEnds
import HaskellHighlight.Proofs.Painting
import HaskellHighlight.Proofs.TokenHighlights
import HaskellHighlight.Proofs.AnsiOutput
import HaskellHighlight.Proofs.MaximalRuns
import HaskellHighlight.Proofs.Rendering
import HaskellHighlight.Proofs.RunStages
import HaskellHighlight.Proofs.SavedConfig
import HaskellHighlight.Proofs.Registrations
import HaskellHighlight.Proofs.QualifiedNames
import HaskellHighlight.Proofs.Routing
import HaskellHighlight.Proofs.ByteOrder
import HaskellHighlight.Proofs.ColorText
import HaskellHighlight.Proofs.SessionSetup
import HaskellHighlight.Proofs.JoinedNeighbours
import HaskellHighlight.Proofs.WrittenDigits
import HaskellHighlight.Proofs.QuotedText
import HaskellHighlight.Proofs.LineFormats
import HaskellHighlight.Proofs.JsonReader
import HaskellHighlight.Proofs.JsonOutput
import HaskellHighlight.Proofs.TableSteps
import HaskellHighlight.Proofs.DocumentTables
import HaskellHighlight.Proofs.Assignments
import HaskellHighlight.Proofs.SettingGroups
import HaskellHighlight.Proofs.PartialSettings
