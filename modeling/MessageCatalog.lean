import MessageCatalog.Document.Json.Reader
import MessageCatalog.Document.Records
import MessageCatalog.Main
import MessageCatalog.Sample
import MessageCatalog.Template.Printer
import MessageCatalog.Proofs.StableSort
import MessageCatalog.Proofs.Tables
import MessageCatalog.Proofs.TypesInForce
import MessageCatalog.Proofs.ValidationOutcome
import MessageCatalog.Proofs.TemplateRoundTrip
import MessageCatalog.Proofs.Segmentation
import MessageCatalog.Proofs.MessagePieces
import MessageCatalog.Proofs.StoredArguments
import MessageCatalog.Proofs.ReverseFormatting
import MessageCatalog.Proofs.DeclaredTypes
import MessageCatalog.Proofs.NamedStyles
import MessageCatalog.Proofs.WellTypedMessages
import MessageCatalog.Proofs.PropertyEscapes
import MessageCatalog.Proofs.PropertyDocuments
import MessageCatalog.Proofs.NameClaims
import MessageCatalog.Proofs.AccessorNames
import MessageCatalog.Proofs.AccessorSelection
import MessageCatalog.Proofs.LocaleAgreement
import MessageCatalog.Proofs.QuotedTexts
import MessageCatalog.Proofs.GeneratedTexts
import MessageCatalog.Proofs.DateFields
import MessageCatalog.Proofs.DateRoundTrip
import MessageCatalog.Proofs.ContradictingValues
import MessageCatalog.Proofs.RepeatedIndices
import MessageCatalog.Proofs.DoubleOrder
import MessageCatalog.Proofs.ChoiceOrder
import MessageCatalog.Proofs.ChoiceReading
import MessageCatalog.Proofs.WrittenIntegers
import MessageCatalog.Proofs.DateReadings
import MessageCatalog.Proofs.BundleDefinitions
import MessageCatalog.Proofs.ServedTemplates
import MessageCatalog.Proofs.LoadingOutcome
import MessageCatalog.Proofs.PathPlaces
import MessageCatalog.Proofs.WrittenFiles
import MessageCatalog.Proofs.CommandEffects
import MessageCatalog.Proofs.SignatureMeaning
import MessageCatalog.Proofs.SubtagForms
import MessageCatalog.Proofs.CanonicalTags
import MessageCatalog.Proofs.ResourceFiles
import MessageCatalog.Proofs.ExplicitPatterns
import MessageCatalog.Proofs.KeyPrecedence
import MessageCatalog.Proofs.IntegerTexts
import MessageCatalog.Proofs.QuotedAffixes
import MessageCatalog.Proofs.RemovedOccurrences
import MessageCatalog.Proofs.AffixReadings
import MessageCatalog.Proofs.NestedChoices
import MessageCatalog.Proofs.PatternFaults
import MessageCatalog.Proofs.LineContinuation
import MessageCatalog.Proofs.ErrorPositions
import MessageCatalog.Proofs.NestingDepth
