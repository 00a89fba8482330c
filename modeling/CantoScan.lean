import CantoScan.Inspect
import CantoScan.Main
import CantoScan.Proofs.PullCalls
import CantoScan.Proofs.Segmentation
import CantoScan.Proofs.TableEntries
import CantoScan.Proofs.TableLoading
import CantoScan.Proofs.LexemeReach
import CantoScan.Proofs.TokenStream
import CantoScan.Proofs.Relayout
import CantoScan.Proofs.Restart
import CantoScan.Proofs.LineBreaks
import CantoScan.Proofs.Utf8Encoding
import CantoScan.Proofs.LineCutting
import CantoScan.Proofs.SessionLines
import CantoScan.Proofs.SessionTranscript
import CantoScan.Proofs.CommentBlanking
import CantoScan.Proofs.EntryOrder
import CantoScan.Proofs.NewLiterals
import CantoScan.Proofs.JsonGrammar
import CantoScan.Proofs.JsonReading
import CantoScan.Proofs.JsonSkipping
import CantoScan.Proofs.FileLayout
import CantoScan.Proofs.PrefixStability
import CantoScan.Proofs.LogLevels
import CantoScan.Proofs.CheckReport
import CantoScan.Proofs.Spellings
import CantoScan.Proofs.TokenPlaces
import CantoScan.Proofs.Insertion
import CantoScan.Proofs.Validation
import CantoScan.Proofs.FileTables
import CantoScan.Proofs.Punctuation
import CantoScan.Proofs.Corrections
import CantoScan.Proofs.Progress
import CantoScan.Proofs.CarriageReturns
import CantoScan.Proofs.DigitLists
import CantoScan.Proofs.JsonValues
import CantoScan.Proofs.JsonListing
import CantoScan.Proofs.TextListing
import CantoScan.Proofs.JsonStrictness
import CantoScan.Proofs.SkipStrictness
import CantoScan.Proofs.FileStrictness
import CantoScan.Proofs.DamagedFiles
