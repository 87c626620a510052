import ServerStudy.Core.Sockets
import ServerStudy.MServer.MainLoop

/-!
# The server process (MServer/main.cpp, NetworkEngine.cpp, ServerSession.cpp)

`_tmain` from its first call on: `InitWSA`, `InitSession` of the listening
socket, and the loops of `MainLoop`, with every call of the socket library. A
failure before the loops makes it return -1. The calls that close the listening
socket and release the library stand after the loops and are never reached.
-/

namespace ServerStudy

open ServerStudy.Core

/-- The socket library: what it answers to its calls in turn, and the calls. -/
structure Winsock where
  answer : Nat → Bool
  /-- Ghost: the calls so far, oldest first. -/
  calls : List SockCall
  /-- Ghost: the sockets made so far. -/
  made : Nat

namespace Winsock

def new (answer : Nat → Bool) : Winsock := ⟨answer, [], 0⟩

/-- A call, and whether it succeeds. -/
def ask (w : Winsock) (call : Bool → SockCall) : Bool × Winsock :=
  let ok := w.answer w.calls.length
  (ok, { w with calls := w.calls ++ [call ok] })

/-- Calls whose results the main loop's model has. -/
def note (w : Winsock) (calls : List SockCall) : Winsock := { w with calls := w.calls ++ calls }

/-- The socket a successful call returns. -/
def fresh (w : Winsock) : Option Nat × Winsock := (some w.made, { w with made := w.made + 1 })

end Winsock

/-- `InitWSA`. -/
def NetworkEngine.initWSA (w : Winsock) : Bool × Winsock := w.ask .startup

structure ServerSession where
  /-- `none` is `INVALID_SOCKET`. -/
  listenSock : Option Nat

namespace ServerSession

def initSocket (w : Winsock) : Bool × ServerSession × Winsock :=
  match w.ask .socket with
  | (false, w) => (false, ⟨none⟩, w)
  | (true, w) =>
      let (sock, w) := w.fresh
      (true, ⟨sock⟩, w)

def bind (s : ServerSession) (w : Winsock) : Bool × Winsock := w.ask (.bind s.listenSock)

def listen (s : ServerSession) (w : Winsock) : Bool × Winsock := w.ask (.listen s.listenSock)

def initSession (w : Winsock) : Bool × ServerSession × Winsock :=
  match initSocket w with
  | (false, s, w) => (false, s, w)
  | (true, s, w) =>
      match s.bind w with
      | (false, w) => (false, s, w)
      | (true, w) =>
          match s.listen w with
          | (false, w) => (false, s, w)
          | (true, w) => (true, s, w)

end ServerSession

/-- The process in its main loop. -/
structure Server where
  serverSession : ServerSession
  clientSock : Option Nat
  main : MainLoop
  winsock : Winsock

/-- The process, or what it has returned. -/
inductive Process
  | running (server : Server)
  | returned (code : Int) (winsock : Winsock)

namespace Process

def winsock : Process → Winsock
  | running server => server.winsock
  | returned _ w => w

/-- `_tmain` up to the loops. -/
def start (answer : Nat → Bool) (upClientSession : ClientSession) : Process :=
  match NetworkEngine.initWSA (.new answer) with
  | (false, w) => .returned (-1) w
  | (true, w) =>
      match ServerSession.initSession w with
      | (false, _, w) => .returned (-1) w
      | (true, s, w) =>
          .running
            { serverSession := s
              clientSock := none
              main := ⟨.accept, upClientSession, 0, []⟩
              winsock := w }

end Process

namespace Server

/-- How many calls of `send` the session has made on its socket. -/
def sends (main : MainLoop) : Nat := main.upClientSession.rest.clientSock.calls.length

/-- The next call of the main loop, and what `OnRecv` sends after it. -/
def pass (mgr : PacketHandlerManager ClientState Text) (series : Nat → Option Peer)
    (s : Server) : Server :=
  let main := s.main.step mgr series
  match s.main.point with
  | .accept =>
      match series s.main.accepts with
      | none =>
          { s with
            clientSock := none
            main := main
            winsock := s.winsock.note [.accept s.serverSession.listenSock false] }
      | some _ =>
          let (sock, w) := s.winsock.fresh
          { s with
            clientSock := sock
            main := main
            winsock := w.note [.accept s.serverSession.listenSock true] }
  | .recv _ _ =>
      { s with
        main := main
        winsock := s.winsock.note
          (.recv s.clientSock :: List.replicate (sends main - sends s.main) (.send s.clientSock)) }
  | .close => { s with main := main, winsock := s.winsock.note [.close s.clientSock] }

end Server

namespace Process

/-- The process for the library's answers and what `accept` returns. -/
def system (mgr : PacketHandlerManager ClientState Text) (series : Nat → Option Peer)
    (answer : Nat → Bool) (upClientSession : ClientSession) : TSys Process where
  init p := p = start answer upClientSession
  step p p' := ∃ server, p = .running server ∧ p' = .running (server.pass mgr series)

end Process

end ServerStudy
