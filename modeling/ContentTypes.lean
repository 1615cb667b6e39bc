import ContentTypes.Main
import ContentTypes.Proofs.Accounting
import ContentTypes.Proofs.BadLinks
import ContentTypes.Proofs.Casing.Scan
import ContentTypes.Proofs.Casing.Words
import ContentTypes.Proofs.Collection
import ContentTypes.Proofs.FileSystem.Stops
import ContentTypes.Proofs.Identifiers
import ContentTypes.Proofs.Incremental
import ContentTypes.Proofs.IndependentWrites
import ContentTypes.Proofs.Layers
import ContentTypes.Proofs.Literals
import ContentTypes.Proofs.Readability
import ContentTypes.Proofs.Refusal
import ContentTypes.Proofs.Relations
import ContentTypes.Proofs.Rerun
import ContentTypes.Proofs.SchemaReaders
import ContentTypes.Proofs.Session
import ContentTypes.Proofs.SkippedEntities
import ContentTypes.Proofs.UnlistableDirectories
