import CardOs.AnswerProofs
import CardOs.FsInitProofs
import CardOs.Crc16
import CardOs.FsTypes
import CardOs.Library.BigEndian
import CardOs.Library.Extents
import CardOs.CardSafety
import CardOs.ContentProofs
import CardOs.LifecycleProofs
import CardOs.DamageProofs
import CardOs.BootLoader
import CardOs.BootProofs
import CardOs.BootRom
import CardOs.BootRomProofs
import CardOs.StorageProofs
import CardOs.RefusalProofs
import CardOs.Library.BlockImage
import CardOs.ImageProofs
import CardOs.Library.StoreLog
import CardOs.LoaderStores
import CardOs.PowerLossProofs
import CardOs.LoaderScript
import CardOs.ProgrammingProofs
import CardOs.StoreChanges
import CardOs.Transactions
import CardOs.RemountProofs
import CardOs.UnboundedProofs
import CardOs.OverrunProofs
import CardOs.FactoryChanges
import CardOs.RetryProofs
import CardOs.CrashProofs
import CardOs.IsolationProofs
import CardOs.ResidueProofs
import CardOs.SelectionProofs
import CardOs.DepthProofs
import CardOs.CorruptionProofs
import CardOs.FailureProofs
import CardOs.Library.BerTlv
import CardOs.TlvProofs
import CardOs.TlvReadingProofs
import CardOs.TlvWritingProofs
import CardOs.FcpProofs
import CardOs.CreationProofs
import CardOs.ReadFaultProofs
import CardOs.ApduProofs
import CardOs.Library.ShortApdu
import CardOs.DescriptorProofs
import CardOs.SpaceProofs
import CardOs.BinaryProofs
import CardOs.Library.NibbleText
import CardOs.Transport
import CardOs.TransportProofs
import CardOs.Library.BitPolynomial
import CardOs.CrcProofs
import CardOs.ResponseBuffer
import CardOs.ResponseProofs
import CardOs.Library.Reflection
import CardOs.FileService
import CardOs.VolumeProofs
import CardOs.ServiceProofs
import CardOs.CardLoop
import CardOs.LoopProofs
import CardOs.PowerSession
import CardOs.SessionProofs
import CardOs.BootSession
import CardOs.BoardProofs
import CardOs.CardImage
import CardOs.CardImageProofs
