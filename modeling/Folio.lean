import Folio.Document.Json
import Folio.Embedding
import Folio.Effect.Host
import Folio.Main
import Folio.Proofs.BuiltPages
import Folio.Proofs.DeepHeadings
import Folio.Proofs.DocumentJson
import Folio.Proofs.DrawnDiagrams
import Folio.Proofs.FailedWrites
import Folio.Proofs.HeadingLevels
import Folio.Proofs.HiddenContent
import Folio.Proofs.MadeDirectories
import Folio.Proofs.MigrationOutcomes
import Folio.Proofs.PageParts
import Folio.Proofs.PathAncestors
import Folio.Proofs.RecutTexts
import Folio.Proofs.RenderedPlaces
import Folio.Proofs.SavedTrees
import Folio.Proofs.ScannedTrees
import Folio.Proofs.SharedStore
import Folio.Proofs.TagNesting
import Folio.Proofs.UniqueRendering
import Folio.Proofs.WrappedLiterals
