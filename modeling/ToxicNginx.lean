import ToxicNginx.StepSystem
import ToxicNginx.LinkedCells
import ToxicNginx.ChunkQueue
import ToxicNginx.OutputChain
import ToxicNginx.ZendBailout
import ToxicNginx.ResponseFilters
import ToxicNginx.ResponseFraming
import ToxicNginx.FinalizeRequest
import ToxicNginx.ReferenceBalance
import ToxicNginx.DrainWatch
import ToxicNginx.SlotTable
import ToxicNginx.DescriptorTable
import ToxicNginx.ChildExit
import ToxicNginx.OwedResponse
import ToxicNginx.KeptConnection
import ToxicNginx.PipelinedRequests
import ToxicNginx.AcceptMutex
import ToxicNginx.AdjacentCount
import ToxicNginx.EngineInit
import ToxicNginx.HeaderFunction
import ToxicNginx.OutputHandlers
import ToxicNginx.SapiHeaders
import ToxicNginx.SapiModule
import ToxicNginx.HeaderStores
import ToxicNginx.PostBody
import ToxicNginx.ChunkedBody
import ToxicNginx.RequestBody
import ToxicNginx.ChannelCommands
import ToxicNginx.SharedTransfer
import ToxicNginx.RequestHistory
import ToxicNginx.InterestList
import ToxicNginx.SharedEpoll
import ToxicNginx.ChainAllocations
import ToxicNginx.ContentLength
import ToxicNginx.RandomKey
import ToxicNginx.CallbackLife
import ToxicNginx.HeaderList
import ToxicNginx.IndexEvaluation
import ToxicNginx.PendingBody
import ToxicNginx.OutputContext
import ToxicNginx.FramingFields
import ToxicNginx.MessageStream
import ToxicNginx.ComplexUri
import ToxicNginx.RequestLine
import ToxicNginx.RequestUri
import ToxicNginx.HeaderRelocation
import ToxicNginx.RenderedHeader
import ToxicNginx.AcceptedHeader
