import RespCache.Cache.Display
import RespCache.Cache.Validation
import RespCache.Chain.Cursor
import RespCache.Chain.Display
import RespCache.Log.Filter
import RespCache.Main
import RespCache.Proofs.Connection.Session
import RespCache.Proofs.Resp.RoundTrip
import RespCache.Proofs.Chain.Plain
import RespCache.Proofs.Chain.Reading
import RespCache.Proofs.Chain.Run
import RespCache.Proofs.Chain.Validation
import RespCache.Proofs.Cache.Consistency
import RespCache.Proofs.Cache.Use
import RespCache.Proofs.Command.Replies
import RespCache.Proofs.Connection.Framing
import RespCache.Proofs.Cache.Distinct
import RespCache.Proofs.Cache.Inclusion
import RespCache.Proofs.Cache.Survival
import RespCache.Proofs.Command.Interpreter
import RespCache.Proofs.Chain.Handles
import RespCache.Proofs.Server.Schedule
import RespCache.Proofs.Chain.Slots
import RespCache.Proofs.Cache.Slots
import RespCache.Proofs.Resp.Shortest
import RespCache.Proofs.Cache.Balance
import RespCache.Proofs.Connection.Exchange
import RespCache.Proofs.Chain.Cursor
import RespCache.Proofs.Chain.Threaded
import RespCache.Proofs.Resp.Disturbed
import RespCache.Proofs.Command.Names
import RespCache.Proofs.Cache.Validation
import RespCache.Proofs.Resp.Awaited
