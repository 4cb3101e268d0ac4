import Mutiny.Machine
import Mutiny.Prog
import Mutiny.Error
import Mutiny.Chain
import Mutiny.ChainSteps
import Mutiny.ChainSound
import Mutiny.ChainReorg
import Mutiny.ChainDelivery
import Mutiny.ChainSettle
import Mutiny.Hex
import Mutiny.Storage
import Mutiny.Persister
import Mutiny.Codec
import Mutiny.Payment
import Mutiny.PaymentSound
import Mutiny.NodeManager
import Mutiny.NodeManagerSound
import Mutiny.NodeManagerAtomic
import Mutiny.Proxy
import Mutiny.ProxySteps
import Mutiny.WaitFor
import Mutiny.ProxyDeadlock
import Mutiny.ProxyRegistry
import Mutiny.FlatTable
import Mutiny.BdkReference
import Mutiny.BdkRefines
import Mutiny.Invoices
import Mutiny.InvoicesListed
import Mutiny.InvoicesPaid
import Mutiny.ProxyRelay
import Mutiny.Socket
import Mutiny.SocketSteps
import Mutiny.SocketMap
import Mutiny.SocketReaders
import Mutiny.SocketSenders
import Mutiny.ProxyDisconnects
import Mutiny.ProxyFrames
import Mutiny.Session
import Mutiny.SocketPair
import Mutiny.SocketOutput
import Mutiny.SocketMoves
import Mutiny.SocketSessions
import Mutiny.StorageKeys
import Mutiny.NodeReads
import Mutiny.BdkBatch
import Mutiny.PeerAddress
import Mutiny.ProxyTakeover
import Mutiny.NewNode
import Mutiny.NewNodeAtomic
import Mutiny.PaymentDispatch
import Mutiny.FreshManager
import Mutiny.InvoiceViews
import Mutiny.InvoiceHashes
import Mutiny.Amounts
import Mutiny.Greatest
import Mutiny.RouteHints
import Mutiny.PeerList
import Mutiny.StoragePanics
import Mutiny.SendOrder
import Mutiny.ProxyListeners
import Mutiny.Potential
import Mutiny.Mesh
import Mutiny.Echoes
import Mutiny.ConnectionStrings
import Mutiny.SendScreens
import Mutiny.BackgroundTimers
import Mutiny.TcpRelaySettles
import Mutiny.ReceiveScreens
import Mutiny.AutoConnect
import Mutiny.Settings
import Mutiny.CommandTexts
import Mutiny.AmountInput
import Mutiny.Descriptors
import Mutiny.OnChain
