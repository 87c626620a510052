import ServerStudy.Logic.MainSteps

/-!
# Which connections the main loop leaves

The inner loop of the server ends at `SOCKET_ERROR` only, where the client's
ends at 0 as well. A peer that shuts its connection down in an orderly way
makes `recv` return 0, which `OnRecv` and `AppendBuffer` refuse without a word
to the main loop; it calls `recv` again, for ever. So finished connections are
left exactly when they all end in `SOCKET_ERROR`.
-/

namespace ServerStudy.Theorems.FinishedLeft

open ServerStudy.Core MainLoop

/-- `recv` has nothing more to return but the same result. -/
def Finished (result : RecvResult) : Prop := result = .socketError ∨ result = .received []

/-- Once `recv` has returned a finished result on a connection, there is no
`recv` on it. -/
def NoRecvAfter (events : List MainEvent) : Prop :=
  ∀ before connection result after, events = before ++ .recv connection result :: after →
    Finished result → ∀ result', .recv connection result' ∉ after

/-- In every state of every run: no `recv` after a finished one, and after a
finished one the next two calls are `CloseSession` and the next `accept`. -/
structure LeavesFinished (mgr : PacketHandlerManager ClientState Text)
    (series : Nat → Option Peer) (start : ClientSession) : Prop where
  noMore : ∀ v, (system mgr series start).Reachable v → NoRecvAfter v.events
  goesOn : ∀ v connection result, (system mgr series start).Reachable v →
    v.events.getLast? = some (.recv connection result) → Finished result →
    ∃ ok, ((v.step mgr series).step mgr series).events =
      v.events ++ [.close connection, .accept (connection + 1) ok]

/-! ## Connections that end in `SOCKET_ERROR` -/

/-- One more event. -/
theorem NoRecvAfter.concat {events : List MainEvent} (h : NoRecvAfter events) {event : MainEvent}
    (hnew : ∀ connection result result', event = .recv connection result' →
      .recv connection result ∈ events → ¬ Finished result) :
    NoRecvAfter (events ++ [event]) := by
  intro before connection result after hsplit hfinished result' hmem
  rcases List.eq_nil_or_concat after with rfl | ⟨after, last, rfl⟩
  · cases hmem
  · rw [List.concat_eq_append, ← List.cons_append, ← List.append_assoc] at hsplit
    obtain ⟨hevents, hlast⟩ := List.append_inj' hsplit rfl
    cases hlast
    rw [List.concat_eq_append] at hmem
    rcases List.mem_append.mp hmem with hold | hlast
    · exact h before connection result after hevents hfinished result' hold
    · refine hnew connection result result' (List.mem_singleton.mp hlast).symm ?_ hfinished
      rw [hevents]
      exact List.mem_append_right _ List.mem_cons_self

/-- The inner loop runs on a connection that will end in `SOCKET_ERROR` and has
not ended yet; everything before it is left. -/
structure Clear (v : MainLoop) : Prop where
  noMore : NoRecvAfter v.events
  /-- Connections have the numbers of past calls of `accept`. -/
  past : ∀ connection result, .recv connection result ∈ v.events → connection ≤ v.accepts
  inHand : ∀ peer i, v.point = .recv peer i →
    peer.ending = .socketError ∧
      ∀ result, .recv v.accepts result ∈ v.events → ¬ Finished result
  last : ∀ connection result, v.events.getLast? = some (.recv connection result) →
    Finished result → v.point = .close ∧ connection = v.accepts

/-- A call other than `recv`; the inner loop is entered with a new number. -/
theorem Clear.quiet {v v' : MainLoop} (h : Clear v) {event : MainEvent}
    (hevents : v'.events = v.events ++ [event])
    (hquiet : ∀ connection result, event ≠ .recv connection result)
    (haccepts : v.accepts ≤ v'.accepts)
    (hinHand : ∀ peer i, v'.point = .recv peer i →
      peer.ending = .socketError ∧ v.accepts < v'.accepts) : Clear v' := by
  have hold : ∀ connection result, .recv connection result ∈ v'.events →
      .recv connection result ∈ v.events := by
    intro connection result hmem
    rw [hevents] at hmem
    rcases List.mem_append.mp hmem with hmem | hmem
    · exact hmem
    · exact absurd (List.mem_singleton.mp hmem).symm (hquiet connection result)
  refine ⟨?_, ?_, ?_, ?_⟩
  · rw [hevents]
    exact h.noMore.concat fun connection _ result' heq _ => absurd heq (hquiet connection result')
  · intro connection result hmem
    exact Nat.le_trans (h.past connection result (hold connection result hmem)) haccepts
  · intro peer i hpoint
    obtain ⟨hending, hnew⟩ := hinHand peer i hpoint
    refine ⟨hending, fun result hmem => ?_⟩
    have := h.past _ _ (hold _ _ hmem)
    omega
  · intro connection result hlast
    rw [hevents, List.getLast?_concat] at hlast
    exact absurd (Option.some.inj hlast) (hquiet connection result)

section Run

variable {mgr : PacketHandlerManager ClientState Text} {series : Nat → Option Peer}
  {start : ClientSession}

/-- One call, if all connections end in `SOCKET_ERROR`. -/
theorem clear_step (herrors : ∀ i peer, series i = some peer → peer.ending = .socketError)
    {v : MainLoop} (h : Clear v) : Clear (v.step mgr series) := by
  rcases step_cases mgr series v with ⟨_, _, heq⟩ | ⟨peer, _, hseries, heq⟩ |
    ⟨peer, i, hpoint, _, heq⟩ | ⟨peer, i, bytes, hpoint, hrecv, heq⟩ | ⟨_, heq⟩
  · rw [heq]
    exact h.quiet rfl (fun _ _ hne => by cases hne) (Nat.le_succ _) fun _ _ hpoint => by
      cases hpoint
  · rw [heq]
    refine h.quiet rfl (fun _ _ hne => by cases hne) (Nat.le_succ _) fun _ _ hpoint => ?_
    cases hpoint
    exact ⟨herrors _ peer hseries, Nat.lt_succ_self _⟩
  · -- `SOCKET_ERROR`: the inner loop is left
    have hinHand := h.inHand peer i hpoint
    rw [heq]
    refine ⟨h.noMore.concat ?_, ?_, ?_, ?_⟩
    · rintro connection result result' hevent hmem
      cases hevent
      exact hinHand.2 result hmem
    · intro connection result hmem
      rcases List.mem_append.mp hmem with hold | hnew
      · exact h.past connection result hold
      · cases List.mem_singleton.mp hnew
        exact Nat.le_refl _
    · intro _ _ hrecv
      cases hrecv
    · intro connection result hlast _
      rw [List.getLast?_concat] at hlast
      cases hlast
      exact ⟨rfl, rfl⟩
  · -- a chunk, with bytes in it
    have hinHand := h.inHand peer i hpoint
    have hbytes : ¬ Finished (.received bytes) := by
      have hne := Peer.received_ne_nil hinHand.1 hrecv
      rintro (herror | hnone)
      · cases herror
      · cases hnone
        exact hne rfl
    rw [heq]
    refine ⟨h.noMore.concat ?_, ?_, ?_, ?_⟩
    · rintro connection result result' hevent hmem
      cases hevent
      exact hinHand.2 result hmem
    · intro connection result hmem
      rcases List.mem_append.mp hmem with hold | hnew
      · exact h.past connection result hold
      · cases List.mem_singleton.mp hnew
        exact Nat.le_refl _
    · intro peer' i' hpoint'
      cases hpoint'
      refine ⟨hinHand.1, fun result hmem => ?_⟩
      rcases List.mem_append.mp hmem with hold | hnew
      · exact hinHand.2 result hold
      · cases List.mem_singleton.mp hnew
        exact hbytes
    · intro connection result hlast hfinished
      rw [List.getLast?_concat] at hlast
      cases hlast
      exact absurd hfinished hbytes
  · rw [heq]
    exact h.quiet rfl (fun _ _ hne => by cases hne) (Nat.le_refl _) fun _ _ hpoint => by
      cases hpoint

theorem leavesFinished_of_errors
    (herrors : ∀ i peer, series i = some peer → peer.ending = .socketError) :
    LeavesFinished mgr series start := by
  have hclear : ∀ v, (system mgr series start).Reachable v → Clear v := by
    intro v hv
    refine hv.invariant Clear ?_ ?_
    · rintro v rfl
      refine ⟨?_, ?_, ?_, ?_⟩
      · intro before connection result after hsplit
        exact absurd hsplit (by simp)
      · intro _ _ hmem
        cases hmem
      · intro _ _ hpoint
        cases hpoint
      · intro _ _ hlast
        cases hlast
    · rintro v v' hv rfl
      exact clear_step herrors hv
  refine ⟨fun v hv => (hclear v hv).noMore, ?_⟩
  intro v connection result hv hlast hfinished
  obtain ⟨hpoint, rfl⟩ := (hclear v hv).last connection result hlast hfinished
  obtain ⟨w, hw⟩ : ∃ w : MainLoop,
      w = ⟨.accept, v.upClientSession, v.accepts, v.events ++ [.close v.accepts]⟩ := ⟨_, rfl⟩
  have hevents : w.events = v.events ++ [.close v.accepts] := by rw [hw]
  have haccepts : w.accepts = v.accepts := by rw [hw]
  have hwpoint : w.point = .accept := by rw [hw]
  rw [step_close mgr series hpoint, ← hw]
  cases hseries : series w.accepts with
  | none =>
      refine ⟨false, ?_⟩
      rw [step_refused mgr series hwpoint hseries, hevents, haccepts]
      exact List.append_assoc ..
  | some peer =>
      refine ⟨true, ?_⟩
      rw [step_accepted mgr series hwpoint hseries, hevents, haccepts]
      exact List.append_assoc ..

/-! ## A connection that is shut down -/

/-- While all connections end in `SOCKET_ERROR` the loop gets to the next
`accept`. -/
theorem reaches_accept {n : Nat}
    (herrors : ∀ i, i < n → ∀ peer, series i = some peer → peer.ending = .socketError) :
    ∃ v, (system mgr series start).Reachable v ∧ v.point = .accept ∧ v.accepts = n := by
  induction n with
  | zero => exact ⟨_, .init rfl, rfl, rfl⟩
  | succ n ih =>
      obtain ⟨v, hv, hpoint, haccepts⟩ := ih fun i hi => herrors i (Nat.lt_succ_of_lt hi)
      cases hseries : series v.accepts with
      | none =>
          exact ⟨_, reachable_step hv (step_refused mgr series hpoint hseries), rfl,
            by rw [haccepts]⟩
      | some peer =>
          have hending := herrors v.accepts (by omega) peer hseries
          obtain ⟨v', hv', hpoint', haccepts', _⟩ := serves hv hpoint hseries hending
          exact ⟨v', hv', hpoint', by rw [haccepts', haccepts]⟩

/-- A peer that shuts down gets a `recv` after the one that returned 0. -/
theorem shutdown_received_again {v : MainLoop} (hv : (system mgr series start).Reachable v)
    (hpoint : v.point = .accept) {peer : Peer} (hseries : series v.accepts = some peer)
    (hending : peer.ending = .shutdown) :
    ∃ v', (system mgr series start).Reachable v' ∧ ¬ NoRecvAfter v'.events := by
  have hnext := reachable_step hv (step_accepted mgr series hpoint hseries)
  obtain ⟨w, hw, hwpoint, _, _⟩ := receives_all hnext rfl (Nat.zero_le _)
  have hzero := reachable_step hw
    (step_shutdown mgr series hwpoint (Nat.le_refl _) hending)
  have hagain := reachable_step hzero
    (step_shutdown mgr series rfl (Nat.le_succ _) hending)
  refine ⟨_, hagain, fun hno => ?_⟩
  refine hno w.events w.accepts (.received []) [.recv w.accepts (.received [])] ?_ (.inr rfl)
    (.received []) (List.mem_singleton_self _)
  simp

end Run

/-- For any series of connections, any chunks and handlers: the main loop
leaves every finished connection, and goes on to accept the next, exactly when
every connection of the series ends in `SOCKET_ERROR`. -/
theorem finished_left_iff (mgr : PacketHandlerManager ClientState Text)
    (series : Nat → Option Peer) (start : ClientSession) :
    LeavesFinished mgr series start ↔
      ∀ i peer, series i = some peer → peer.ending = .socketError := by
  constructor
  · intro h i
    -- the first connection that is shut down is reached
    induction i using Nat.strongRecOn with
    | ind i ih =>
        intro peer hseries
        cases hending : peer.ending with
        | socketError => rfl
        | shutdown =>
            obtain ⟨v, hv, hpoint, haccepts⟩ := reaches_accept ih
            rw [← haccepts] at hseries
            obtain ⟨v', hv', hagain⟩ := shutdown_received_again hv hpoint hseries hending
            exact absurd (h.noMore v' hv') hagain
  · exact leavesFinished_of_errors

/-- One client that connects and shuts down, then failing calls of `accept`. -/
def oneShutdown (call : Nat) : Option Peer :=
  if call = 0 then
    some ⟨fun _ size => .sent size, [], .shutdown, List.forall_mem_nil _, List.forall_mem_nil _⟩
  else none

/-- The server calls `recv` again after it has returned 0. -/
theorem shutdown_not_left :
    ¬ LeavesFinished (clientManager chatWire none) oneShutdown
      (ClientSession.new (fun _ => 0) (fun _ => 0) ⟨fun _ size => .sent size, []⟩ 0) := by
  intro h
  have hstart : (system (clientManager chatWire none) oneShutdown
      (ClientSession.new (fun _ => 0) (fun _ => 0) ⟨fun _ size => .sent size, []⟩ 0)).Reachable
      ⟨.accept, ClientSession.new (fun _ => 0) (fun _ => 0) ⟨fun _ size => .sent size, []⟩ 0, 0,
        []⟩ := .init rfl
  obtain ⟨v, hv, hagain⟩ := shutdown_received_again hstart rfl rfl rfl
  exact hagain (h.noMore v hv)

end ServerStudy.Theorems.FinishedLeft
