import RedisPipe.Basic
import RedisPipe.Digits
import RedisPipe.AppendRequest
import RedisPipe.Conn.Manager
import RedisPipe.Conn.Future
import RedisPipe.Conn.Skeleton
import RedisPipe.Conn.ManagerInv
import RedisPipe.Conn.Dial
import RedisPipe.Resp
import RedisPipe.Raw.Data
import RedisPipe.Raw.Producer
import RedisPipe.Raw.Pipeline
import RedisPipe.Raw.System
import RedisPipe.Raw.Steps
import RedisPipe.Raw.Serialize
import RedisPipe.Raw.Invariants
import RedisPipe.Raw.Delivery
import RedisPipe.Buffered.Shards
import RedisPipe.Buffered.Pipeline
import RedisPipe.Buffered.System
import RedisPipe.Buffered.Steps
import RedisPipe.Buffered.Invariants
import RedisPipe.Buffered.Batches
import RedisPipe.Buffered.Delivery
import RedisPipe.Buffered.Wire
import RedisPipe.Buffered.Wakeup
import RedisPipe.Buffered.Session
import RedisPipe.Buffered.Blocks
import RedisPipe.Buffered.Replies
import RedisPipe.Buffered.Handed
import RedisPipe.Buffered.Order
import RedisPipe.Sockets
