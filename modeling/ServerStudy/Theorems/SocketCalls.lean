import ServerStudy.Logic.MainSteps
import ServerStudy.MServer.Server
import ServerStudy.Theorems.Service

/-!
# The server's socket calls

In every state of the process, whatever the library answers, every call it has
made was one it could make: the listening socket is made, bound and listens
before anything is accepted, `recv` and `send` are on the one connection that is
open, and every other connection is closed, once (`calls_proper`). The library
is never released.
-/

namespace ServerStudy.Theorems.SocketCalls

open ServerStudy.Core Net
open Service (hiPeer)

variable {mgr : PacketHandlerManager ClientState Text} {series : Nat → Option Peer}
  {answer : Nat → Bool} {session : ClientSession} {p : Process} {s : Server}

/-- The calls before the loops. -/
def opening : List SockCall :=
  [.startup true, .socket true, .bind (some 0) true, .listen (some 0) true]

/-! ## Before the loops -/

section Start

/-- The first call that fails is the last. -/
structure Failed (answer : Nat → Bool) (w : Winsock) (i : Nat) : Prop where
  lt : i < 4
  failed : answer i = false
  before : ∀ j < i, answer j = true
  last : w.calls.length = i + 1
  proper : Proper w.calls
  notReleased : .cleanup ∉ w.calls
  notClosed : ∀ sock, .close sock ∉ w.calls

/-- What the calls before the loops come to. -/
theorem start_eq (answer : Nat → Bool) (session : ClientSession) :
    Process.start answer session =
      if answer 0 = false then .returned (-1) ⟨answer, [.startup false], 0⟩
      else if answer 1 = false then .returned (-1) ⟨answer, [.startup true, .socket false], 0⟩
      else if answer 2 = false then
        .returned (-1) ⟨answer, [.startup true, .socket true, .bind (some 0) false], 1⟩
      else if answer 3 = false then
        .returned (-1)
          ⟨answer, [.startup true, .socket true, .bind (some 0) true, .listen (some 0) false], 1⟩
      else .running ⟨⟨some 0⟩, none, ⟨.accept, session, 0, []⟩, ⟨answer, opening, 1⟩⟩ := by
  cases h0 : answer 0 <;> cases h1 : answer 1 <;> cases h2 : answer 2 <;> cases h3 : answer 3 <;>
    simp [Process.start, NetworkEngine.initWSA, Winsock.ask, Winsock.new, Winsock.fresh,
      ServerSession.initSession, ServerSession.initSocket, ServerSession.bind,
      ServerSession.listen, opening, h0, h1, h2, h3]

theorem start_cases (answer : Nat → Bool) (session : ClientSession) :
    (∃ w i, Process.start answer session = .returned (-1) w ∧ Failed answer w i) ∨
      (∀ j < 4, answer j = true) ∧
        Process.start answer session =
          .running ⟨⟨some 0⟩, none, ⟨.accept, session, 0, []⟩, ⟨answer, opening, 1⟩⟩ := by
  have hbefore : ∀ n, (∀ j < n, answer j = true) → answer n ≠ false →
      ∀ j < n + 1, answer j = true := by
    intro n hn hlast j hj
    rcases Nat.lt_succ_iff_lt_or_eq.mp hj with hlt | rfl
    · exact hn j hlt
    · exact Bool.eq_true_of_not_eq_false hlast
  have hnone : ∀ j < 0, answer j = true := fun j hj => absurd hj (Nat.not_lt_zero j)
  rw [start_eq]
  by_cases h0 : answer 0 = false
  · rw [if_pos h0]
    exact .inl ⟨_, 0, rfl, by decide, h0, hnone, rfl, ⟨rfl, trivial⟩, by simp, by simp⟩
  have hone := hbefore 0 hnone h0
  rw [if_neg h0]
  by_cases h1 : answer 1 = false
  · rw [if_pos h1]
    exact .inl ⟨_, 1, rfl, by decide, h1, hone, rfl, ⟨rfl, rfl, trivial⟩, by simp, by simp⟩
  have htwo := hbefore 1 hone h1
  rw [if_neg h1]
  by_cases h2 : answer 2 = false
  · rw [if_pos h2]
    exact .inl ⟨_, 2, rfl, by decide, h2, htwo, rfl,
      ⟨rfl, rfl, ⟨rfl, 0, rfl, rfl⟩, trivial⟩, by simp, by simp⟩
  have hthree := hbefore 2 htwo h2
  rw [if_neg h2]
  by_cases h3 : answer 3 = false
  · rw [if_pos h3]
    exact .inl ⟨_, 3, rfl, by decide, h3, hthree, rfl,
      ⟨rfl, rfl, ⟨rfl, 0, rfl, rfl⟩, ⟨rfl, 0, rfl, rfl⟩, trivial⟩, by simp, by simp⟩
  · rw [if_neg h3]
    exact .inr ⟨hbefore 3 hthree h3, rfl⟩

end Start

/-! ## In the loops -/

/-- The process in its loops, with `n` connections behind it. -/
structure Serving (s : Server) (n : Nat) : Prop where
  listenSock : s.serverSession.listenSock = some 0
  proper : Proper s.winsock.calls
  notReleased : .cleanup ∉ s.winsock.calls
  idle : s.main.point = .accept →
    afterAll s.winsock.calls = ⟨true, .listening :: List.replicate n .closed⟩ ∧
      s.winsock.made = n + 1
  busy : s.main.point ≠ .accept →
    afterAll s.winsock.calls = ⟨true, .listening :: (List.replicate n .closed ++ [.connected])⟩ ∧
      s.winsock.made = n + 2 ∧ s.clientSock = some (n + 1)

theorem serving_start (answer : Nat → Bool) (session : ClientSession) :
    Serving ⟨⟨some 0⟩, none, ⟨.accept, session, 0, []⟩, ⟨answer, opening, 1⟩⟩ 0 :=
  ⟨rfl, ⟨rfl, rfl, ⟨rfl, 0, rfl, rfl⟩, ⟨rfl, 0, rfl, rfl⟩, trivial⟩, by simp [opening],
    fun _ => ⟨rfl, rfl⟩, fun h => absurd rfl h⟩

section Loops

variable {n : Nat}

/-- With a connection open it is the last socket made. -/
theorem is_connected (n : Nat) :
    Net.Is ⟨true, .listening :: (List.replicate n .closed ++ [.connected])⟩ (some (n + 1))
      .connected := by
  refine ⟨rfl, n + 1, rfl, ?_⟩
  rw [List.getElem?_cons_succ, List.getElem?_append_right (by simp), List.length_replicate,
    Nat.sub_self]
  rfl

theorem serving_accept_fails (h : Serving s n) (hpoint : s.main.point = .accept)
    (hseries : series s.main.accepts = none) : Serving (s.pass mgr series) n := by
  obtain ⟨hnet, hmade⟩ := h.idle hpoint
  have hmain := MainLoop.step_refused mgr series hpoint hseries
  have hcall : (afterAll s.winsock.calls).Allows (.accept s.serverSession.listenSock false) := by
    rw [hnet, h.listenSock]
    exact ⟨rfl, 0, rfl, rfl⟩
  rw [Server.pass, hmain]
  simp only [hpoint, hseries]
  refine ⟨h.listenSock, proper_concat h.proper hcall, ?_, fun _ => ⟨?_, hmade⟩,
    fun hbusy => absurd rfl hbusy⟩
  · exact List.not_mem_append h.notReleased (by simp)
  · rw [Winsock.note, afterAll_append, hnet]
    rfl

theorem serving_accept (h : Serving s n) (hpoint : s.main.point = .accept) {peer : Peer}
    (hseries : series s.main.accepts = some peer) : Serving (s.pass mgr series) n := by
  obtain ⟨hnet, hmade⟩ := h.idle hpoint
  have hmain := MainLoop.step_accepted mgr series hpoint hseries
  have hcall : (afterAll s.winsock.calls).Allows (.accept s.serverSession.listenSock true) := by
    rw [hnet, h.listenSock]
    exact ⟨rfl, 0, rfl, rfl⟩
  rw [Server.pass, hmain]
  simp only [hpoint, hseries]
  refine ⟨h.listenSock, proper_concat h.proper hcall, ?_, fun hidle => MainPoint.noConfusion hidle,
    fun _ => ⟨?_, ?_, ?_⟩⟩
  · exact List.not_mem_append h.notReleased (by simp)
  · rw [Winsock.note]
    show afterAll (s.winsock.calls ++ _) = _
    rw [afterAll_append, hnet]
    rfl
  · exact congrArg (· + 1) hmade
  · exact congrArg some hmade

/-- A pass of the inner loop is on the open connection. -/
theorem serving_recv (h : Serving s n) {peer : Peer} {i : Nat}
    (hpoint : s.main.point = .recv peer i)
    (hnext : (s.main.step mgr series).point ≠ .accept) : Serving (s.pass mgr series) n := by
  obtain ⟨hnet, hmade, hsock⟩ := h.busy (by rw [hpoint]; exact MainPoint.noConfusion)
  have hopen := is_connected n
  have hsends := proper_sends hopen
    (Server.sends (s.main.step mgr series) - Server.sends s.main)
  rw [Server.pass]
  simp only [hpoint]
  refine ⟨h.listenSock, ?_, ?_, fun hidle => absurd hidle hnext, fun _ => ⟨?_, hmade, hsock⟩⟩
  · refine proper_append.mpr ⟨h.proper, ?_⟩
    rw [hnet, hsock]
    exact ⟨hopen, hsends.1⟩
  · refine List.not_mem_append h.notReleased fun hnew => ?_
    rcases List.mem_cons.mp hnew with hrecv | hsend
    · cases hrecv
    · cases (List.mem_replicate.mp hsend).2
  · rw [Winsock.note, afterAll_append, hnet, hsock]
    exact hsends.2

theorem serving_close (h : Serving s n) (hpoint : s.main.point = .close) :
    Serving (s.pass mgr series) (n + 1) := by
  obtain ⟨hnet, hmade, hsock⟩ := h.busy (by rw [hpoint]; exact MainPoint.noConfusion)
  have hcall : (afterAll s.winsock.calls).Allows (.close s.clientSock) := by
    rw [hnet, hsock]
    exact ⟨Stage.connected, Stage.noConfusion, is_connected n⟩
  rw [Server.pass, MainLoop.step_close mgr series hpoint]
  simp only [hpoint]
  refine ⟨h.listenSock, proper_concat h.proper hcall, ?_, fun _ => ⟨?_, hmade⟩,
    fun hbusy => absurd rfl hbusy⟩
  · exact List.not_mem_append h.notReleased (by simp)
  · have hset : (List.replicate n Stage.closed ++ [Stage.connected]).set n .closed =
        List.replicate (n + 1) .closed := by
      rw [List.set_append_right _ _ (by simp), List.length_replicate, Nat.sub_self,
        List.replicate_succ']
      rfl
    rw [Winsock.note, afterAll_append, hnet, hsock]
    exact congrArg (fun stages => Net.mk true (.listening :: stages)) hset

theorem serving_pass (h : Serving s n) : ∃ n, Serving (s.pass mgr series) n := by
  rcases MainLoop.step_cases mgr series s.main with ⟨hpoint, hseries, _⟩ |
    ⟨peer, hpoint, hseries, _⟩ | ⟨peer, i, hpoint, _, hmain⟩ | ⟨peer, i, _, hpoint, _, hmain⟩ |
    ⟨hpoint, _⟩
  · exact ⟨n, serving_accept_fails h hpoint hseries⟩
  · exact ⟨n, serving_accept h hpoint hseries⟩
  · exact ⟨n, serving_recv h hpoint (by rw [hmain]; exact MainPoint.noConfusion)⟩
  · exact ⟨n, serving_recv h hpoint (by rw [hmain]; exact MainPoint.noConfusion)⟩
  · exact ⟨n + 1, serving_close h hpoint⟩

end Loops

/-- In every state of the process, whatever the library answers and whatever
peers there are: every call so far was allowed after those before it, and the
library has not been released. A process that has returned has done so with -1
after the first call that failed, and has closed nothing. A process in its loops
has one socket listening, at most one connection open, which is that of its
session, and all others closed. -/
theorem calls_proper (h : (Process.system mgr series answer session).Reachable p) :
    Proper p.winsock.calls ∧ .cleanup ∉ p.winsock.calls ∧
      (∀ code w, p = .returned code w → code = -1 ∧ (∀ sock, .close sock ∉ w.calls) ∧
        ∃ i < 4, answer i = false ∧ (∀ j < i, answer j = true) ∧ w.calls.length = i + 1) ∧
      ∀ s, p = .running s → (∀ j < 4, answer j = true) ∧ ∃ n,
        (s.main.point = .accept ∧
          afterAll s.winsock.calls = ⟨true, .listening :: List.replicate n .closed⟩) ∨
        (s.main.point ≠ .accept ∧ s.clientSock = some (n + 1) ∧ afterAll s.winsock.calls =
          ⟨true, .listening :: (List.replicate n .closed ++ [.connected])⟩) := by
  have hstate : (∃ w i, p = .returned (-1) w ∧ Failed answer w i) ∨
      (∀ j < 4, answer j = true) ∧ ∃ s n, p = .running s ∧ Serving s n := by
    refine h.invariant (fun p => (∃ w i, p = .returned (-1) w ∧ Failed answer w i) ∨
      (∀ j < 4, answer j = true) ∧ ∃ s n, p = .running s ∧ Serving s n) ?_ ?_
    · rintro p rfl
      rcases start_cases answer session with hfailed | ⟨hall, hstart⟩
      · exact .inl hfailed
      · exact .inr ⟨hall, _, 0, hstart, serving_start answer session⟩
    · rintro p p' hp ⟨s, rfl, rfl⟩
      rcases hp with ⟨_, _, heq, _⟩ | ⟨hall, _, n, heq, hserving⟩
      · cases heq
      · cases heq
        obtain ⟨n, hnext⟩ := serving_pass hserving
        exact .inr ⟨hall, _, n, rfl, hnext⟩
  rcases hstate with ⟨w, i, rfl, hf⟩ | ⟨hall, s, n, rfl, hs⟩
  · refine ⟨hf.proper, hf.notReleased, ?_, fun _ heq => by cases heq⟩
    intro code w' heq
    cases heq
    exact ⟨rfl, hf.notClosed, i, hf.lt, hf.failed, hf.before, hf.last⟩
  · refine ⟨hs.proper, hs.notReleased, fun _ _ heq => Process.noConfusion heq, ?_⟩
    intro s' heq
    cases heq
    refine ⟨hall, n, ?_⟩
    by_cases hpoint : s.main.point = .accept
    · exact .inl ⟨hpoint, (hs.idle hpoint).1⟩
    · obtain ⟨hnet, _, hsock⟩ := hs.busy hpoint
      exact .inr ⟨hpoint, hsock, hnet⟩

/-- The server before `accept`. -/
def hiListening : Server :=
  ⟨⟨some 0⟩, none, ⟨.accept, .new (fun _ => 0) (fun _ => 0) openClient.clientSock 0, 0, []⟩,
    ⟨fun _ => true, opening, 1⟩⟩

/-- Its next call, with this peer alone. -/
def hiPass (s : Server) : Server := s.pass (clientManager chatWire none) fun _ => some hiPeer

/-- It has accepted the connection, and has sent its reply to hi. -/
def hiReplied : Server := hiPass (hiPass (hiPass hiListening))

theorem hi_calls_proper : Proper hiReplied.winsock.calls ∧ ∃ n,
    (hiReplied.main.point = .accept ∧
      afterAll hiReplied.winsock.calls = ⟨true, .listening :: List.replicate n .closed⟩) ∨
    (hiReplied.main.point ≠ .accept ∧ hiReplied.clientSock = some (n + 1) ∧
      afterAll hiReplied.winsock.calls =
        ⟨true, .listening :: (List.replicate n .closed ++ [.connected])⟩) := by
  have hstart : (Process.system (clientManager chatWire none) (fun _ => some hiPeer)
      (fun _ => true) (.new (fun _ => 0) (fun _ => 0) openClient.clientSock 0)).Reachable
        (.running hiListening) := .init rfl
  have hpart := (hstart.step ⟨hiListening, rfl, rfl⟩).step ⟨hiPass hiListening, rfl, rfl⟩
  have h := calls_proper (hpart.step ⟨hiPass (hiPass hiListening), rfl, rfl⟩)
  exact ⟨h.1, (h.2.2.2 hiReplied rfl).2⟩

end ServerStudy.Theorems.SocketCalls
