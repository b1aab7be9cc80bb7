import NavigationServer.Lib.Bytes
import NavigationServer.Lib.Machine
import NavigationServer.Lib.Keyed
import NavigationServer.Nmea2000.FastPacket
import NavigationServer.Nmea2000.Splitting
import NavigationServer.Nmea2000.FastPacketTheorems
import NavigationServer.CanInterface.Interface
import NavigationServer.CanInterface.InterfaceTheorems
import NavigationServer.CanInterface.SendTheorems
import NavigationServer.Couplers.FrontEndTheorems
import NavigationServer.Nmea2000.IsoTransportTheorems
import NavigationServer.RouterCore.IPReader
import NavigationServer.RouterCore.IPReaderTheorems
import NavigationServer.CanInterface.ActiveController
import NavigationServer.CanInterface.AddressTables
import NavigationServer.CanInterface.AddressTheorems
import NavigationServer.CanInterface.ApplicationPool
import NavigationServer.CanInterface.ApplicationPoolTheorems
import NavigationServer.CanInterface.Arbitration
import NavigationServer.CanInterface.ArbitrationTheorems
import NavigationServer.CanInterface.Clock
import NavigationServer.CanInterface.ClockTheorems
import NavigationServer.CanInterface.Writer
import NavigationServer.CodeGeneration.EncodeTheorems
import NavigationServer.Couplers.IKonvert
import NavigationServer.Couplers.IKonvertMsg
import NavigationServer.Couplers.IKonvertTheorems
import NavigationServer.Couplers.PdgyTheorems
import NavigationServer.Couplers.ShipModulTheorems
import NavigationServer.Couplers.VedirectCoupler
import NavigationServer.Couplers.VedirectTheorems
import NavigationServer.Gnss.FixTheorems
import NavigationServer.Gnss.GsvTheorems
import NavigationServer.Lib.DateTime
import NavigationServer.Lib.Lines
import NavigationServer.Lib.Text
import NavigationServer.LogReplay.RawLogReader
import NavigationServer.LogReplay.ReplayTheorems
import NavigationServer.NavigationData.EngineService
import NavigationServer.NavigationData.EngineServiceTheorems
import NavigationServer.Nmea2000.ControllerTheorems
import NavigationServer.Nmea2000.DecodeDispatch
import NavigationServer.Nmea2000.DecodeDispatchTheorems
import NavigationServer.Nmea2000.Nmea0183ToNmea2k
import NavigationServer.Nmea2000.Nmea0183ToNmea2kTheorems
import NavigationServer.RouterCore.Publishing
import NavigationServer.RouterCore.PublishingTheorems
import NavigationServer.CanInterface.CanCoupler
import NavigationServer.CanInterface.CanCouplerTheorems
import NavigationServer.CanInterface.CommandedAddress
import NavigationServer.CanInterface.GroupFunction
import NavigationServer.CanInterface.GroupFunctionTheorems
import NavigationServer.Couplers.Senders
import NavigationServer.Couplers.SendersTheorems
import NavigationServer.Nmea2000.GrpcPublisher
import NavigationServer.Nmea2000.GrpcPublisherTheorems
import NavigationServer.RouterCommon.ServiceClient
import NavigationServer.RouterCommon.ServiceClientTheorems
import NavigationServer.RouterCore.AsynchReader
import NavigationServer.RouterCore.AsynchReaderTheorems
import NavigationServer.RouterCore.MessageServer
import NavigationServer.RouterCore.MessageServerTheorems
import NavigationServer.NmeaData.StatisticsTheorems
import NavigationServer.RouterCore.Nmea0183Parts
import NavigationServer.RouterCore.Nmea0183ProtobufTheorems
import NavigationServer.RouterCore.Nmea0183SentencesTheorems
import NavigationServer.Nmea2000.FilterTheorems
import NavigationServer.Nmea2000Datamodel.ValueCoderTheorems
import NavigationServer.CodeGeneration.StringTheorems
import NavigationServer.Gnss.Conversions
import NavigationServer.LogReplay.TickIndexTheorems
import NavigationServer.Lib.Json
import NavigationServer.Nmea2000Datamodel.JsonFormat
import NavigationServer.Nmea2000Datamodel.JsonFormatTheorems
import NavigationServer.Nmea2000.OpenTransfers
import NavigationServer.Couplers.VedirectHex
import NavigationServer.Network.UsbModemAtLib
import NavigationServer.Network.SplitResponseTheorems
import NavigationServer.RouterCore.PublishLoop
import NavigationServer.RouterCore.PublishLoopTheorems
import NavigationServer.RouterCore.RouterCalls
import NavigationServer.RouterCore.RouterCallsTheorems
import NavigationServer.CodeGeneration.SegmentTheorems
import NavigationServer.Nmea2000Datamodel.BitFieldGenerator
import NavigationServer.Nmea2000Datamodel.BitFieldGeneratorTheorems
import NavigationServer.Nmea2000Datamodel.DecodePgn
import NavigationServer.Nmea2000Datamodel.DecodePgnTheorems
import NavigationServer.CodeGeneration.DecodeTheorems
import NavigationServer.CodeGeneration.AgreementTheorems
import NavigationServer.Lib.Isolation
import NavigationServer.CanInterface.SourceIsolation
import NavigationServer.CanInterface.Bus
import NavigationServer.CanInterface.MessageFrames
import NavigationServer.CanInterface.BusTheorems
import NavigationServer.CodeGeneration.PayloadTheorems
import NavigationServer.CodeGeneration.RoundTripTheorems
import NavigationServer.CanInterface.ClaimNetworkTheorems
import NavigationServer.RouterCore.CouplerRunTheorems
import NavigationServer.RouterCore.ClientPublisherTheorems
import NavigationServer.CanInterface.ReadStreamsTheorems
import NavigationServer.RouterCore.SenderServerTheorems
import NavigationServer.Couplers.Nmea2kGrpcCouplerTheorems
