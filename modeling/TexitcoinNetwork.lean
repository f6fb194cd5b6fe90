import TexitcoinNetwork.Encode.Decoder
import TexitcoinNetwork.Encode.Primitive
import TexitcoinNetwork.Encode.CheckedData
import TexitcoinNetwork.Network.CommandString
import TexitcoinNetwork.Network.MessageNetwork
import TexitcoinNetwork.Network.Headers
import TexitcoinNetwork.Network.Message
import TexitcoinNetwork.Network.RawNetworkMessage
import TexitcoinNetwork.Network.WireFormat
