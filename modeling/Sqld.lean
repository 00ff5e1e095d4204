import Sqld.Engine
import Sqld.Req
import Sqld.Refinement
import Sqld.Exec
import Sqld.Stream
import Sqld.Row
import Sqld.Trans
import Sqld.TxnEngine
import Sqld.Txn
import Sqld.Conn
import Sqld.Ownership
import Sqld.Resume
import Sqld.Isolation
import Sqld.Offset
