import ServerStudy.Logic.Receive
import ServerStudy.MServer.MainLoop

/-!
# What the main loop can do

One equation for each call, and `step_cases` for all of them. From it: the
inner loop takes all chunks of a peer (`receives_all`); after `SOCKET_ERROR`
the connection has been served as in `Main` and the loop is back at `accept`
(`serves`); after a shutdown it stays at `recv`, the session untouched
(`step_shutdown`).
-/

namespace ServerStudy

open ServerStudy.Core ClientSession

namespace Peer

variable {peer : Peer} {i : Nat}

theorem recv_of_lt (h : i < peer.chunks.length) : peer.recv i = .received peer.chunks[i] := by
  rw [recv, List.getElem?_eq_getElem h]

theorem recv_of_le (h : peer.chunks.length ≤ i) : peer.recv i = peer.ending.recv := by
  rw [recv, List.getElem?_eq_none h]

/-- Until `SOCKET_ERROR` there is something in every `recv`. -/
theorem received_ne_nil (hending : peer.ending = .socketError) {bytes : List Byte}
    (hrecv : peer.recv i = .received bytes) : bytes ≠ [] := by
  by_cases hi : i < peer.chunks.length
  · rw [recv_of_lt hi] at hrecv
    cases hrecv
    exact peer.nonempty _ (List.getElem_mem hi)
  · rw [recv_of_le (Nat.not_lt.mp hi), hending] at hrecv
    cases hrecv

end Peer

/-- `OnRecv` with nothing received: `AppendBuffer` refuses 0 bytes. -/
theorem SessionBase.onRecv_nothing {σ Msg : Type} (mgr : PacketHandlerManager σ Msg)
    (s : SessionBase σ Msg) (src : Mem Byte) : s.onRecv mgr (some src) 0 = s := by
  have hnone : s.recvBuffer.appendBuffer (some src) (UInt16.ofNat 0) = (false, s.recvBuffer) := rfl
  simp only [onRecv, if_neg (Nat.not_lt_zero maxBufSize), hnone]

namespace MainLoop

variable (mgr : PacketHandlerManager ClientState Text) (series : Nat → Option Peer)

/-! ## One call -/

section Step

variable {v : MainLoop} {peer : Peer} {i : Nat}

theorem step_refused (hpoint : v.point = .accept) (hseries : series v.accepts = none) :
    v.step mgr series = ⟨.accept, v.upClientSession, v.accepts + 1,
      v.events ++ [.accept (v.accepts + 1) false]⟩ := by
  simp only [step, hpoint, hseries]

theorem step_accepted (hpoint : v.point = .accept) (hseries : series v.accepts = some peer) :
    v.step mgr series = ⟨.recv peer 0, v.upClientSession.initSession peer.connection,
      v.accepts + 1, v.events ++ [.accept (v.accepts + 1) true]⟩ := by
  simp only [step, hpoint, hseries]

theorem step_error (hpoint : v.point = .recv peer i) (hrecv : peer.recv i = .socketError) :
    v.step mgr series = ⟨.close, v.upClientSession, v.accepts,
      v.events ++ [.recv v.accepts .socketError]⟩ := by
  simp only [step, hpoint, hrecv]

theorem step_received {bytes : List Byte} (hpoint : v.point = .recv peer i)
    (hrecv : peer.recv i = .received bytes) :
    v.step mgr series = ⟨.recv peer (i + 1),
      v.upClientSession.onRecv mgr (some (Mem.ofList 0 bytes)) bytes.length,
      v.accepts, v.events ++ [.recv v.accepts (.received bytes)]⟩ := by
  simp only [step, hpoint, hrecv]

theorem step_close (hpoint : v.point = .close) :
    v.step mgr series = ⟨.accept, v.upClientSession, v.accepts,
      v.events ++ [.close v.accepts]⟩ := by
  simp only [step, hpoint, closeSession]

/-- A peer that has shut down keeps the loop at `recv`. -/
theorem step_shutdown (hpoint : v.point = .recv peer i) (hi : peer.chunks.length ≤ i)
    (hending : peer.ending = .shutdown) :
    v.step mgr series = ⟨.recv peer (i + 1), v.upClientSession, v.accepts,
      v.events ++ [.recv v.accepts (.received [])]⟩ := by
  have hrecv : peer.recv i = .received [] := by
    rw [Peer.recv_of_le hi, hending]
    rfl
  rw [step_received mgr series hpoint hrecv, List.length_nil, SessionBase.onRecv_nothing]

end Step

/-- The next call is `accept`, which fails or returns a connection; `recv`,
which ends the inner loop or goes on with `OnRecv`; or `CloseSession`. -/
theorem step_cases (v : MainLoop) :
    (v.point = .accept ∧ series v.accepts = none ∧
        v.step mgr series = ⟨.accept, v.upClientSession, v.accepts + 1,
          v.events ++ [.accept (v.accepts + 1) false]⟩) ∨
      (∃ peer, v.point = .accept ∧ series v.accepts = some peer ∧
        v.step mgr series = ⟨.recv peer 0, v.upClientSession.initSession peer.connection,
          v.accepts + 1, v.events ++ [.accept (v.accepts + 1) true]⟩) ∨
      (∃ peer i, v.point = .recv peer i ∧ peer.recv i = .socketError ∧
        v.step mgr series = ⟨.close, v.upClientSession, v.accepts,
          v.events ++ [.recv v.accepts .socketError]⟩) ∨
      (∃ peer i bytes, v.point = .recv peer i ∧ peer.recv i = .received bytes ∧
        v.step mgr series = ⟨.recv peer (i + 1),
          v.upClientSession.onRecv mgr (some (Mem.ofList 0 bytes)) bytes.length,
          v.accepts, v.events ++ [.recv v.accepts (.received bytes)]⟩) ∨
      (v.point = .close ∧
        v.step mgr series = ⟨.accept, v.upClientSession, v.accepts,
          v.events ++ [.close v.accepts]⟩) := by
  cases hpoint : v.point with
  | accept =>
      cases hseries : series v.accepts with
      | none => exact .inl ⟨rfl, rfl, step_refused mgr series hpoint hseries⟩
      | some peer => exact .inr (.inl ⟨peer, rfl, rfl, step_accepted mgr series hpoint hseries⟩)
  | recv peer i =>
      cases hrecv : peer.recv i with
      | socketError =>
          exact .inr (.inr (.inl ⟨peer, i, rfl, hrecv, step_error mgr series hpoint hrecv⟩))
      | received bytes =>
          exact .inr (.inr (.inr (.inl
            ⟨peer, i, bytes, rfl, hrecv, step_received mgr series hpoint hrecv⟩)))
  | close => exact .inr (.inr (.inr (.inr ⟨rfl, step_close mgr series hpoint⟩)))

/-! ## One connection -/

theorem recvLoop_append (mgr : PacketHandlerManager ClientState Text) (s : ClientSession)
    (chunks : List (List Byte)) (rest : List RecvResult) :
    recvLoop mgr s (chunks.map .received ++ rest) =
      recvLoop mgr (recvLoop mgr s (chunks.map .received)) rest := by
  induction chunks generalizing s with
  | nil => rfl
  | cons chunk chunks ih => exact ih _

section Connection

variable {mgr series} {start : ClientSession} {v : MainLoop} {peer : Peer} {i : Nat}

theorem reachable_step (hv : (system mgr series start).Reachable v) {v' : MainLoop}
    (hstep : v.step mgr series = v') : (system mgr series start).Reachable v' :=
  .step hv hstep.symm

/-- All chunks are received, in order. -/
theorem receives_all (hv : (system mgr series start).Reachable v)
    (hpoint : v.point = .recv peer i) (hi : i ≤ peer.chunks.length) :
    ∃ v', (system mgr series start).Reachable v' ∧
      v'.point = .recv peer peer.chunks.length ∧ v'.accepts = v.accepts ∧
      v'.upClientSession =
        recvLoop mgr v.upClientSession ((peer.chunks.drop i).map .received) := by
  obtain ⟨n, hn⟩ : ∃ n, peer.chunks.length - i = n := ⟨_, rfl⟩
  -- on the number of chunks left
  induction n generalizing v i with
  | zero =>
      have hlast : i = peer.chunks.length := by omega
      subst hlast
      refine ⟨v, hv, hpoint, rfl, ?_⟩
      rw [List.drop_length]
      rfl
  | succ n ih =>
      have hlt : i < peer.chunks.length := by omega
      have hnext := reachable_step hv (step_received mgr series hpoint (Peer.recv_of_lt hlt))
      obtain ⟨v', hv', hpoint', haccepts, hsession⟩ := ih hnext rfl hlt (by omega)
      refine ⟨v', hv', hpoint', haccepts, ?_⟩
      rw [hsession, List.drop_eq_getElem_cons hlt]
      rfl

/-- A connection that ends in `SOCKET_ERROR` is served as in `Main`, and the
loop is at the next `accept`. -/
theorem serves (hv : (system mgr series start).Reachable v) (hpoint : v.point = .accept)
    (hseries : series v.accepts = some peer) (hending : peer.ending = .socketError) :
    ∃ v', (system mgr series start).Reachable v' ∧ v'.point = .accept ∧
      v'.accepts = v.accepts + 1 ∧
      v'.upClientSession = v.upClientSession.serve mgr peer.connection := by
  have hnext := reachable_step hv (step_accepted mgr series hpoint hseries)
  obtain ⟨w, hw, hwpoint, hwaccepts, hwsession⟩ := receives_all hnext rfl (Nat.zero_le _)
  have herror : peer.recv peer.chunks.length = .socketError := by
    rw [Peer.recv_of_le (Nat.le_refl _), hending]
    rfl
  have hend := reachable_step hw (step_error mgr series hwpoint herror)
  refine ⟨_, reachable_step hend (step_close mgr series rfl), rfl, hwaccepts, ?_⟩
  show w.upClientSession = _
  rw [hwsession, serve, Peer.connection, recvLoop_append, hending]
  rfl

end Connection

end MainLoop

end ServerStudy
