import BindingSynthesis.Bridge.Documents
import BindingSynthesis.Machine.InMemory
import BindingSynthesis.Main
import BindingSynthesis.Proofs.FirstOccurrence
import BindingSynthesis.Proofs.Wrappers
import BindingSynthesis.Proofs.ClassChoice
import BindingSynthesis.Proofs.BatchProtocol
import BindingSynthesis.Proofs.HostNames
import BindingSynthesis.Proofs.ImportEnvironment
import BindingSynthesis.Proofs.JavaOverloads
import BindingSynthesis.Proofs.WrapperNames
import BindingSynthesis.Proofs.PlanCoherence
import BindingSynthesis.Proofs.PlanGrowth
import BindingSynthesis.Proofs.DeclaredNames
import BindingSynthesis.Proofs.UsableNames
import BindingSynthesis.Proofs.JsonText
import BindingSynthesis.Proofs.JsonRecords
import BindingSynthesis.Proofs.JsonGrammar
import BindingSynthesis.Proofs.MemberOrder
import BindingSynthesis.Proofs.AcceptedTexts
import BindingSynthesis.Proofs.GrownDocuments
import BindingSynthesis.Proofs.PlanFormat
import BindingSynthesis.Proofs.JsonNumbers
import BindingSynthesis.Proofs.NormalForm
import BindingSynthesis.Proofs.LibraryFormat
import BindingSynthesis.Proofs.CommentText
import BindingSynthesis.Proofs.JavaComments
import BindingSynthesis.Proofs.DocTexts
import BindingSynthesis.Proofs.JavaLexing
import BindingSynthesis.Proofs.Places
import BindingSynthesis.Proofs.PlanWriting
import BindingSynthesis.Proofs.BatchOutput
import BindingSynthesis.Proofs.BatchBridges
import BindingSynthesis.Proofs.BatchIsolation
import BindingSynthesis.Proofs.OutcomeFiles
import BindingSynthesis.Proofs.OutputRoot
import BindingSynthesis.Proofs.PackageNames
import BindingSynthesis.Proofs.WrittenFiles
import BindingSynthesis.Proofs.JavaReading
import BindingSynthesis.Proofs.ForeignNames
import BindingSynthesis.Proofs.ForeignCalls
import BindingSynthesis.Proofs.JavaRuns
import BindingSynthesis.Proofs.JavaCalls
import BindingSynthesis.Proofs.AllowLists
import BindingSynthesis.Proofs.ImportUse
import BindingSynthesis.Proofs.LossyDecoding
import BindingSynthesis.Proofs.ExtractorOutput
