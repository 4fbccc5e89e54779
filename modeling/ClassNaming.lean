import ClassNaming.Main
import ClassNaming.Proofs.Detail.Endless
import ClassNaming.Proofs.Detail.Agreement
import ClassNaming.Proofs.Detail.Repeated
import ClassNaming.Proofs.ClassFile.Repeated
import ClassNaming.Proofs.ClassFile.RoundTrip
import ClassNaming.Proofs.Archive.Rebuilt
import ClassNaming.Proofs.Run.Ending
import ClassNaming.Proofs.Run.KeptOrRestored
import ClassNaming.Proofs.Run.StoppedAt
import ClassNaming.Proofs.ClassFile.Payload
import ClassNaming.Proofs.Mapping.RoundTrip
import ClassNaming.Proofs.ClassFile.PoolGrowth
import ClassNaming.Proofs.Detail.Spans
import ClassNaming.Proofs.ClassFile.Spelling
import ClassNaming.Proofs.ClassFile.PoolRun
import ClassNaming.Proofs.ClassFile.Whole
import ClassNaming.Proofs.Mapping.Grammar
import ClassNaming.Proofs.Mapping.Scan
import ClassNaming.Proofs.Run.Census
import ClassNaming.Proofs.ClassFile.PoolText
import ClassNaming.Proofs.Detail.Positions
import ClassNaming.Proofs.Run.DetectedMode
import ClassNaming.Proofs.Files.WholeCopy
