import Rustdcr.Dcrjson.Value
import Rustdcr.Dcrjson.Hex
import Rustdcr.Dcrutil.AppData
import Rustdcr.Rpcclient.Httparse
import Rustdcr.Rpcclient.HttparseSound
import Rustdcr.Rpcclient.Connection
import Rustdcr.Rpcclient.Proxy
import Rustdcr.Rpcclient.Client
import Rustdcr.Rpcclient.ClientInvariants
import Rustdcr.Rpcclient.ClientDial
import Rustdcr.Rpcclient.Commands
