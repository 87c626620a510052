import ServerStudy.MServer.ClientSessionHandler

/-!
# The main loop of the server (MServer/main.cpp)

One `ClientSession` serves one connection after another. `InitSession` gives
it the accepted socket and nothing else; `CloseSession` closes the socket. The
loops have no end of their own: a connection is given by what its `recv` and
`send` calls return, and lasts until `recv` fails or no result is left. Calls
of `accept` that fail are tried again and leave no trace.
-/

namespace ServerStudy

open ServerStudy.Core

/-- What one call of `recv` returns. No bytes is the peer's shutdown. -/
inductive RecvResult
  | socketError
  | received (bytes : List Byte)
  deriving DecidableEq, Repr

structure Connection where
  /-- What `send` returns, as in `Socket`. -/
  outcome : Nat → Nat → SendResult
  recvs : List RecvResult

namespace ClientSession

/-- `InitSession`, once `accept` has succeeded. -/
def initSession (s : ClientSession) (conn : Connection) : ClientSession :=
  { s with rest := { s.rest with clientSock := ⟨conn.outcome, []⟩ } }

/-- `CloseSession`. -/
def closeSession (s : ClientSession) : ClientSession := s

/-- The inner loop. The bytes `recv` returns are at the front of `buf`, which
is zeroed before each call. -/
def recvLoop (mgr : PacketHandlerManager ClientState Text) (s : ClientSession) :
    List RecvResult → ClientSession
  | [] => s
  | .socketError :: _ => s
  | .received bytes :: rest =>
      recvLoop mgr (s.onRecv mgr (some (Mem.ofList 0 bytes)) bytes.length) rest

/-- One pass of the outer loop. -/
def serve (mgr : PacketHandlerManager ClientState Text) (s : ClientSession)
    (conn : Connection) : ClientSession :=
  (recvLoop mgr (s.initSession conn) conn.recvs).closeSession

/-- The outer loop. -/
def serveAll (mgr : PacketHandlerManager ClientState Text) (s : ClientSession)
    (conns : List Connection) : ClientSession :=
  conns.foldl (serve mgr) s

end ClientSession

end ServerStudy
