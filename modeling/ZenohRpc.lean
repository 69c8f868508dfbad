import ZenohRpc.Client.Addressing
import ZenohRpc.Client.Builder
import ZenohRpc.Client.Calls
import ZenohRpc.Client.FindServer
import ZenohRpc.Client.Methods
import ZenohRpc.Client.Statuses
import ZenohRpc.Deployment.Calls
import ZenohRpc.Deployment.Discovery
import ZenohRpc.Deployment.KeyExprs
import ZenohRpc.Deployment.Counters
import ZenohRpc.Deployment.Linearizability
import ZenohRpc.Deployment.Provenance
import ZenohRpc.Derive.Camel
import ZenohRpc.Derive.Generate
import ZenohRpc.Derive.Names
import ZenohRpc.Derive.Parser
import ZenohRpc.Network.Calls
import ZenohRpc.Network.Linearizability
import ZenohRpc.Network.Progress
import ZenohRpc.Network.Termination
import ZenohRpc.Network.Traits
import ZenohRpc.Reference
import ZenohRpc.Server.Life
import ZenohRpc.Server.Progress
import ZenohRpc.Server.Registry
import ZenohRpc.Server.Replies
import ZenohRpc.Server.Tokens
import ZenohRpc.Transition.Atomic
import ZenohRpc.Transition.System
import ZenohRpc.Wire.RoundTrip
