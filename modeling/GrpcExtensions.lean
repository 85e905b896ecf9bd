import GrpcExtensions.TransitionSystem
import GrpcExtensions.RankedRuns
import GrpcExtensions.BoundedChannel
import GrpcExtensions.StreamedRequest
import GrpcExtensions.StreamedRequestInvariant
import GrpcExtensions.StreamedRequestConservation
import GrpcExtensions.StreamedRequestEndOfStream
import GrpcExtensions.StreamedRequestProgress
import GrpcExtensions.StreamedRequestSession
import GrpcExtensions.StreamedRequestSoleConsumer
import GrpcExtensions.StreamedRequestTracking
import GrpcExtensions.StreamedRequestDelivery
import GrpcExtensions.StreamedRequestRebinding
import GrpcExtensions.StreamedRequestRetries
import GrpcExtensions.StreamedRequestProducers
import GrpcExtensions.StreamedRequestBindings
import GrpcExtensions.StreamedRequestVector
import GrpcExtensions.ChannelTask
import GrpcExtensions.ChannelTaskProgress
import GrpcExtensions.ServerStream
import GrpcExtensions.ServerStreamChunks
import GrpcExtensions.ServerStreamProgress
import GrpcExtensions.BoundedRetry
import GrpcExtensions.GrpcChannel
import GrpcExtensions.RequestRetries
import GrpcExtensions.RequestRuns
import GrpcExtensions.LastInsertion
import GrpcExtensions.ReadGrpcStream
import GrpcExtensions.CollectedStreams
import GrpcExtensions.StreamedResponseReaders
import GrpcExtensions.StreamedRequestReader
import GrpcExtensions.StreamedResponseWriter
import GrpcExtensions.SharedSenders
import GrpcExtensions.StreamedResponseProducers
import GrpcExtensions.ServerStreamResult
import GrpcExtensions.ChannelHolder
import GrpcExtensions.ChannelHolderDrops
import GrpcExtensions.ChannelHolderInstalls
import GrpcExtensions.ChannelHolderRetries
import GrpcExtensions.ChannelHolderRefinement
import GrpcExtensions.ChannelHolderAccounting
import GrpcExtensions.PortForwardsPool
import GrpcExtensions.SocketFileNames
import GrpcExtensions.PingLoop
import GrpcExtensions.UnixSocketPath
import GrpcExtensions.Lexer
import GrpcExtensions.PhraseCuts
import GrpcExtensions.Utf8Text
import GrpcExtensions.ProtoTokensReader
import GrpcExtensions.ProtoFileReader
import GrpcExtensions.ProtoDeclarations
import GrpcExtensions.ProtoFileText
import GrpcExtensions.ProtoTokensLossless
import GrpcExtensions.ProtoPhrases
import GrpcExtensions.ProtoFileRoundTrip
import GrpcExtensions.ProtoFileBraces
import GrpcExtensions.ProtoStrayWords
import GrpcExtensions.ProtoFileBlocks
import GrpcExtensions.ProtoFileBodies
import GrpcExtensions.ProtoTrailingComments
import GrpcExtensions.ProtoForgedComments
import GrpcExtensions.ProtoFileGrammar
import GrpcExtensions.FindStreamName
import GrpcExtensions.ClientMacros
import GrpcExtensions.ServerMacros
import GrpcExtensions.WithTelemetry
import GrpcExtensions.SnakeCase
import GrpcExtensions.GeneratedNames
import GrpcExtensions.GeneratedRetries
import GrpcExtensions.DeclaredStreams
import GrpcExtensions.ExecutorImplementations
import GrpcExtensions.GeneratedEnds
import GrpcExtensions.MacroOutcomes
import GrpcExtensions.DecimalNumbers
import GrpcExtensions.Telemetry
