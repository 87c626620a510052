import ServerStudy.Core.Run
import ServerStudy.Logic.BufferOps
import ServerStudy.MServer.ClientSession

/-!
# What the receive loop can do

`handle_cases` says everything one call of `Handle` can do; every invariant of
the loop is derived from it. Two of them hold whatever the bytes are:

* the positions stay ordered;
* the loop consumes from the front: what it dispatched, followed by what it
  left unread, is what was unread before (`loop_conserves`).

`loop_eq` is the loop of the source; the fuel of `drain` does not show.
-/

namespace ServerStudy

open ServerStudy.Core PacketBuffer

variable {σ Msg : Type}

/-! ## One call of `Handle` -/

/-- The functor `Handle` finds for the head packet and the message it parses;
`none` if there is no functor or the payload does not parse. -/
def PacketHandlerManager.decode (mgr : PacketHandlerManager σ Msg) (pb : PacketBuffer) :
    Option (PacketFunctor σ Msg × Msg) :=
  (mgr.packetFunctors pb.getPacketNo).bind fun functor =>
    (functor.parseFromArray pb.payload).map fun message => (functor, message)

/-- Nothing is forgotten: the later trace extends the earlier one. -/
structure RecvTrace.Grows (t t' : RecvTrace σ Msg) : Prop where
  accepted : t.accepted <+: t'.accepted
  entered : t.entered <+: t'.entered
  dispatches : t.dispatches <+: t'.dispatches

theorem RecvTrace.Grows.refl (t : RecvTrace σ Msg) : t.Grows t :=
  ⟨List.prefix_refl _, List.prefix_refl _, List.prefix_refl _⟩

theorem RecvTrace.Grows.trans {t t' t'' : RecvTrace σ Msg} (h : t.Grows t') (h' : t'.Grows t'') :
    t.Grows t'' :=
  ⟨h.accepted.trans h'.accepted, h.entered.trans h'.entered, h.dispatches.trans h'.dispatches⟩

namespace SessionBase

/-- The session after `Handle` has run the handler of `functor`. -/
def dispatch (s : SessionBase σ Msg) (functor : PacketFunctor σ Msg) (message : Msg) :
    SessionBase σ Msg :=
  { s.enter.consumePacket message with rest := (functor.handler s.rest message).2 }

@[simp] theorem enter_recvBuffer (s : SessionBase σ Msg) : s.enter.recvBuffer = s.recvBuffer := rfl

/-- What the functor found for the head does. -/
theorem functor_handle (functor : PacketFunctor σ Msg) (s : SessionBase σ Msg) :
    functor.handle s.enter =
      match functor.parseFromArray s.recvBuffer.payload with
      | none => (false, s.enter)
      | some message => ((functor.handler s.rest message).1, s.dispatch functor message) := by
  rw [PacketFunctor.handle, enter_recvBuffer]
  cases functor.parseFromArray s.recvBuffer.payload with
  | none => rfl
  | some message => rfl

/-- `Handle` rejects the head and touches nothing, or consumes it and runs its
handler. -/
theorem handle_cases (mgr : PacketHandlerManager σ Msg) (s : SessionBase σ Msg) :
    (mgr.decode s.recvBuffer = none ∧ mgr.handle s = (false, s.enter)) ∨
      ∃ functor message, mgr.decode s.recvBuffer = some (functor, message) ∧
        mgr.handle s = ((functor.handler s.rest message).1, s.dispatch functor message) := by
  simp only [PacketHandlerManager.handle, PacketHandlerManager.decode, enter_recvBuffer]
  cases mgr.packetFunctors s.recvBuffer.getPacketNo with
  | none => exact .inl ⟨rfl, rfl⟩
  | some functor =>
      simp only [functor_handle, Option.bind_some]
      cases functor.parseFromArray s.recvBuffer.payload with
      | none => exact .inl ⟨rfl, rfl⟩
      | some message => exact .inr ⟨functor, message, rfl, rfl⟩

@[simp] theorem dispatch_recvBuffer (s : SessionBase σ Msg) (functor : PacketFunctor σ Msg)
    (message : Msg) : (s.dispatch functor message).recvBuffer = s.recvBuffer.consumePacket := rfl

@[simp] theorem dispatch_rest (s : SessionBase σ Msg) (functor : PacketFunctor σ Msg)
    (message : Msg) :
    (s.dispatch functor message).rest = (functor.handler s.rest message).2 := rfl

@[simp] theorem dispatch_accepted (s : SessionBase σ Msg) (functor : PacketFunctor σ Msg)
    (message : Msg) : (s.dispatch functor message).trace.accepted = s.trace.accepted := rfl

@[simp] theorem dispatch_entered (s : SessionBase σ Msg) (functor : PacketFunctor σ Msg)
    (message : Msg) :
    (s.dispatch functor message).trace.entered =
      s.trace.entered ++ [⟨s.recvBuffer, s.rest⟩] := rfl

/-- The ghost record of the dispatch of the head. -/
def record (s : SessionBase σ Msg) (message : Msg) : Dispatch Msg where
  packetNo := s.recvBuffer.getPacketNo
  payload := s.recvBuffer.payload
  message := message
  packet := s.recvBuffer.unread.take
    (s.recvBuffer.unread.length - s.recvBuffer.consumePacket.unread.length)
  unread := s.recvBuffer.consumePacket.unread

@[simp] theorem dispatch_dispatches (s : SessionBase σ Msg) (functor : PacketFunctor σ Msg)
    (message : Msg) :
    (s.dispatch functor message).trace.dispatches = s.trace.dispatches ++ [s.record message] :=
  rfl

/-! ## Consuming a complete head -/

section Head

variable {s : SessionBase σ Msg} (hord : s.recvBuffer.Ordered)
  (hable : packetHeader.Complete s.recvBuffer.unread)

include hord hable in
theorem unread_consume :
    s.recvBuffer.consumePacket.unread =
      s.recvBuffer.unread.drop (packetHeader.size s.recvBuffer.unread) := by
  rw [unread_consumePacket hord, if_pos hable.2]

include hord hable in
/-- The bytes removed are the head packet, as long as its size field says. -/
theorem record_packet (message : Msg) :
    (s.record message).packet =
      s.recvBuffer.unread.take (packetHeader.size s.recvBuffer.unread) := by
  have hle := hable.2
  simp only [record]
  rw [unread_consume hord hable, List.length_drop, Nat.sub_sub_self hle]

include hord hable in
theorem record_conserves (message : Msg) :
    (s.record message).packet ++ s.recvBuffer.consumePacket.unread = s.recvBuffer.unread := by
  rw [record_packet hord hable, unread_consume hord hable, List.take_append_drop]

include hord hable in
theorem consume_shorter :
    s.recvBuffer.consumePacket.unread.length < s.recvBuffer.unread.length := by
  have hpos := hable.1
  have hle := hable.2
  rw [unread_consume hord hable, List.length_drop]
  omega

end Head

/-! ## The loop -/

theorem drain_of_not_able (mgr : PacketHandlerManager σ Msg) {s : SessionBase σ Msg}
    (h : ¬ packetHeader.Complete s.recvBuffer.unread) (fuel : Nat) : drain mgr fuel s = s := by
  have hno : s.recvBuffer.isAbleToGetPacket = false :=
    (isAbleToGetPacket_eq_false_iff _).mpr h
  cases fuel with
  | zero => rfl
  | succ fuel => rw [drain, if_pos hno]

theorem drain_of_able (mgr : PacketHandlerManager σ Msg) {s : SessionBase σ Msg}
    (h : packetHeader.Complete s.recvBuffer.unread) (fuel : Nat) :
    drain mgr (fuel + 1) s =
      match mgr.handle s with
      | (false, s') => s'
      | (true, s') => drain mgr fuel s' := by
  have hable : ¬ s.recvBuffer.isAbleToGetPacket = false := by
    rw [isAbleToGetPacket_eq_false_iff]
    exact not_not.mpr h
  refine Eq.trans (if_neg hable) ?_
  rcases mgr.handle s with ⟨_ | _, _⟩ <;> rfl

/-- One pass of the loop that finds a whole packet: it stops at a rejected
head or a handler that fails, and goes on after a handler that succeeds. -/
theorem drain_cases (mgr : PacketHandlerManager σ Msg) {s : SessionBase σ Msg}
    (h : packetHeader.Complete s.recvBuffer.unread) (fuel : Nat) :
    (mgr.decode s.recvBuffer = none ∧ drain mgr (fuel + 1) s = s.enter) ∨
      ∃ functor message, mgr.decode s.recvBuffer = some (functor, message) ∧
        drain mgr (fuel + 1) s =
          if (functor.handler s.rest message).1 = true
          then drain mgr fuel (s.dispatch functor message)
          else s.dispatch functor message := by
  rw [drain_of_able mgr h]
  rcases handle_cases mgr s with ⟨hnone, heq⟩ | ⟨functor, message, hsome, heq⟩
  · exact .inl ⟨hnone, by rw [heq]⟩
  · refine .inr ⟨functor, message, hsome, ?_⟩
    rw [heq]
    cases (functor.handler s.rest message).1 <;> rfl

theorem drain_of_rejected (mgr : PacketHandlerManager σ Msg) {s : SessionBase σ Msg}
    (h : packetHeader.Complete s.recvBuffer.unread) (hnone : mgr.decode s.recvBuffer = none)
    (fuel : Nat) : drain mgr (fuel + 1) s = s.enter := by
  rcases drain_cases mgr h fuel with ⟨_, heq⟩ | ⟨functor, message, hsome, _⟩
  · exact heq
  · rw [hnone] at hsome
    cases hsome

theorem drain_of_decoded (mgr : PacketHandlerManager σ Msg) {s : SessionBase σ Msg}
    (h : packetHeader.Complete s.recvBuffer.unread) {functor : PacketFunctor σ Msg}
    {message : Msg} (hsome : mgr.decode s.recvBuffer = some (functor, message)) (fuel : Nat) :
    drain mgr (fuel + 1) s =
      if (functor.handler s.rest message).1 = true
      then drain mgr fuel (s.dispatch functor message)
      else s.dispatch functor message := by
  rcases drain_cases mgr h fuel with ⟨hnone, _⟩ | ⟨functor', message', hsome', heq⟩
  · rw [hsome] at hnone
    cases hnone
  · rw [hsome] at hsome'
    cases hsome'
    exact heq

/-- Fuel beyond one more than the unread bytes does not show. -/
theorem drain_fuel (mgr : PacketHandlerManager σ Msg) {fuel : Nat} {s : SessionBase σ Msg}
    (hord : s.recvBuffer.Ordered) (hfuel : s.recvBuffer.unread.length < fuel) :
    drain mgr fuel s = loop mgr s := by
  have henough : ∀ n (s : SessionBase σ Msg), s.recvBuffer.Ordered →
      s.recvBuffer.unread.length = n → ∀ fuel fuel', n < fuel → n < fuel' →
      drain mgr fuel s = drain mgr fuel' s := by
    -- on the number of unread bytes: a pass that goes on has consumed some
    intro n
    induction n using Nat.strongRecOn with
    | ind n ih =>
        intro s hord hn fuel fuel' hfuel hfuel'
        by_cases hable : packetHeader.Complete s.recvBuffer.unread
        · obtain ⟨fuel, rfl⟩ : ∃ k, fuel = k + 1 := ⟨fuel - 1, by omega⟩
          obtain ⟨fuel', rfl⟩ : ∃ k, fuel' = k + 1 := ⟨fuel' - 1, by omega⟩
          have hshorter := consume_shorter hord hable
          rw [drain_of_able mgr hable, drain_of_able mgr hable]
          rcases handle_cases mgr s with ⟨_, heq⟩ | ⟨functor, message, _, heq⟩
          · rw [heq]
          · rw [heq]
            cases (functor.handler s.rest message).1 with
            | false => rfl
            | true =>
                have hnext : (s.dispatch functor message).recvBuffer.unread.length < n := by
                  rw [dispatch_recvBuffer, ← hn]
                  exact hshorter
                exact ih _ hnext (s.dispatch functor message) (consumePacket_ordered hord)
                  rfl fuel fuel' (by omega) (by omega)
        · rw [drain_of_not_able mgr hable, drain_of_not_able mgr hable]
  exact henough _ s hord rfl _ _ hfuel (Nat.lt_succ_self _)

/-- The loop as it stands in the source: test, `Handle`, again. -/
theorem loop_eq (mgr : PacketHandlerManager σ Msg) {s : SessionBase σ Msg}
    (hord : s.recvBuffer.Ordered) :
    loop mgr s =
      if s.recvBuffer.isAbleToGetPacket = false then s
      else
        match mgr.handle s with
        | (false, s') => s'
        | (true, s') => loop mgr s' := by
  by_cases hable : packetHeader.Complete s.recvBuffer.unread
  · have hyes : ¬ s.recvBuffer.isAbleToGetPacket = false := by
      rw [isAbleToGetPacket_eq_false_iff]
      exact not_not.mpr hable
    rw [if_neg hyes, loop, drain_of_able mgr hable]
    rcases handle_cases mgr s with ⟨_, heq⟩ | ⟨functor, message, _, heq⟩
    · rw [heq]
    · rw [heq]
      cases (functor.handler s.rest message).1 with
      | false => rfl
      | true =>
          exact drain_fuel mgr (consumePacket_ordered hord) (consume_shorter hord hable)
  · have hno : s.recvBuffer.isAbleToGetPacket = false :=
      (isAbleToGetPacket_eq_false_iff _).mpr hable
    rw [if_pos hno, loop, drain_of_not_able mgr hable]

/-- What every pass preserves, the loop preserves. -/
theorem drain_induction {mgr : PacketHandlerManager σ Msg} (Inv : SessionBase σ Msg → Prop)
    (henter : ∀ s, s.recvBuffer.Ordered → Inv s → packetHeader.Complete s.recvBuffer.unread →
      mgr.decode s.recvBuffer = none → Inv s.enter)
    (hdispatch : ∀ s functor message, s.recvBuffer.Ordered → Inv s →
      packetHeader.Complete s.recvBuffer.unread →
      mgr.decode s.recvBuffer = some (functor, message) → Inv (s.dispatch functor message))
    (fuel : Nat) {s : SessionBase σ Msg} (hord : s.recvBuffer.Ordered) (hs : Inv s) :
    (drain mgr fuel s).recvBuffer.Ordered ∧ Inv (drain mgr fuel s) := by
  induction fuel generalizing s with
  | zero => exact ⟨hord, hs⟩
  | succ fuel ih =>
      by_cases hable : packetHeader.Complete s.recvBuffer.unread
      · rcases drain_cases mgr hable fuel with ⟨hnone, heq⟩ | ⟨functor, message, hsome, heq⟩
        · rw [heq]
          exact ⟨hord, henter s hord hs hable hnone⟩
        · have hnext := hdispatch s functor message hord hs hable hsome
          have hnextord : (s.dispatch functor message).recvBuffer.Ordered :=
            consumePacket_ordered hord
          rw [heq]
          split
          · exact ih hnextord hnext
          · exact ⟨hnextord, hnext⟩
      · rw [drain_of_not_able mgr hable]
        exact ⟨hord, hs⟩

section Loop

variable (mgr : PacketHandlerManager σ Msg) {s : SessionBase σ Msg}
  (hord : s.recvBuffer.Ordered)

include hord

/-- The loop keeps the positions ordered. -/
theorem loop_ordered : (loop mgr s).recvBuffer.Ordered :=
  (drain_induction (fun _ => True) (fun _ _ _ _ _ => trivial) (fun _ _ _ _ _ _ _ => trivial) _
    hord trivial).1

/-- The loop takes no bytes. -/
theorem loop_accepted : (loop mgr s).trace.accepted = s.trace.accepted :=
  (drain_induction (fun t => t.trace.accepted = s.trace.accepted) (fun _ _ h _ _ => h)
    (fun _ _ _ _ h _ _ => h) _ hord rfl).2

/-- Passes add to what was entered and dispatched. -/
theorem drain_grows (fuel : Nat) : s.trace.Grows (drain mgr fuel s).trace := by
  refine (drain_induction (fun t => s.trace.Grows t.trace) ?_ ?_ fuel hord (.refl _)).2
  · intro t _ h _ _
    exact h.trans ⟨List.prefix_refl _, List.prefix_append .., List.prefix_refl _⟩
  · intro t functor message _ h _ _
    exact h.trans ⟨List.prefix_refl _, List.prefix_append .., List.prefix_append ..⟩

theorem loop_grows : s.trace.Grows (loop mgr s).trace := drain_grows mgr hord _

/-- A whole packet at the head makes for a call of `Handle`. -/
theorem entered_of_able (hable : packetHeader.Complete s.recvBuffer.unread) (fuel : Nat) :
    s.trace.entered ++ [⟨s.recvBuffer, s.rest⟩] <+: (drain mgr (fuel + 1) s).trace.entered := by
  rcases drain_cases mgr hable fuel with ⟨_, heq⟩ | ⟨functor, message, _, heq⟩
  · rw [heq]
    exact List.prefix_refl _
  · have hnext : (s.dispatch functor message).recvBuffer.Ordered := consumePacket_ordered hord
    rw [heq]
    split
    · exact (drain_grows mgr hnext fuel).entered
    · exact List.prefix_refl _

end Loop

/-- The bytes dispatched, followed by the unread ones. -/
def stream (s : SessionBase σ Msg) : List Byte :=
  (s.trace.dispatches.map Dispatch.packet).flatten ++ s.recvBuffer.unread

theorem dispatch_stream {s : SessionBase σ Msg} (hord : s.recvBuffer.Ordered)
    (hable : packetHeader.Complete s.recvBuffer.unread) (functor : PacketFunctor σ Msg)
    (message : Msg) : (s.dispatch functor message).stream = s.stream := by
  have hconserves := record_conserves hord hable message
  simp [stream, List.append_assoc, hconserves]

/-- The loop neither adds, drops nor reorders a byte. -/
theorem loop_conserves (mgr : PacketHandlerManager σ Msg) {s : SessionBase σ Msg}
    (hord : s.recvBuffer.Ordered) : (loop mgr s).stream = s.stream := by
  refine (drain_induction (fun t => t.stream = s.stream) (fun _ _ h _ _ => h) ?_ _ hord rfl).2
  intro t functor message hord h hable _
  rw [dispatch_stream hord hable, h]

/-! ## One call of `OnRecv` -/

/-- The session once `AppendBuffer` has taken the bytes. -/
def received (s : SessionBase σ Msg) (rb : PacketBuffer) (bytes : List Byte) :
    SessionBase σ Msg :=
  { s with
    recvBuffer := rb
    trace := { s.trace with accepted := s.trace.accepted ++ bytes } }

/-- `OnRecv` refuses the call and leaves what is unread, or takes all its bytes
and runs the loop. -/
theorem onRecv_cases (mgr : PacketHandlerManager σ Msg) {s : SessionBase σ Msg}
    (hord : s.recvBuffer.Ordered) (pBuffer : Option (Mem Byte)) (recvSize : Nat) :
    ((∀ src, pBuffer = some src →
          ¬ (0 < recvSize ∧ s.recvBuffer.unread.length + recvSize ≤ maxBufSize)) ∧
        ∃ rb : PacketBuffer, rb.Ordered ∧ rb.unread = s.recvBuffer.unread ∧
          s.onRecv mgr pBuffer recvSize = { s with recvBuffer := rb }) ∨
      ∃ src, pBuffer = some src ∧ 0 < recvSize ∧
        s.recvBuffer.unread.length + recvSize ≤ maxBufSize ∧
        ∃ rb : PacketBuffer, rb.Ordered ∧
          rb.unread = s.recvBuffer.unread ++ src.slice 0 recvSize ∧
          s.onRecv mgr pBuffer recvSize = loop mgr (s.received rb (src.slice 0 recvSize)) := by
  cases pBuffer with
  | none => exact .inl ⟨fun src h => (by cases h), s.recvBuffer, hord, rfl, rfl⟩
  | some src =>
      by_cases hbig : recvSize > maxBufSize
      · refine .inl ⟨fun _ _ hfits => by omega, s.recvBuffer, hord, rfl, ?_⟩
        simp only [onRecv, if_pos hbig]
      · have hsize : (UInt16.ofNat recvSize).toNat = recvSize :=
          toNat_ofNat_of_le (Nat.not_lt.mp hbig)
        have hfst : (s.recvBuffer.appendBuffer (some src) (UInt16.ofNat recvSize)).1 = true ↔ _ :=
          appendBuffer_fst hord
        rw [hsize] at hfst
        have hnext : (s.recvBuffer.appendBuffer (some src) (UInt16.ofNat recvSize)).2.Ordered :=
          appendBuffer_ordered hord
        cases hok : (s.recvBuffer.appendBuffer (some src) (UInt16.ofNat recvSize)).1 with
        | false =>
            have hunread := unread_appendBuffer_of_false hord hok
            refine .inl ⟨fun _ _ hfits => ?_, _, hnext, hunread, ?_⟩
            · rw [hfst.mpr hfits] at hok
              cases hok
            · rcases happend : s.recvBuffer.appendBuffer (some src) (UInt16.ofNat recvSize)
                with ⟨b, rb⟩
              rw [happend] at hok
              cases hok
              simp only [onRecv, if_neg hbig, happend]
        | true =>
            have hunread := unread_appendBuffer_of_true hord hok
            rw [hsize] at hunread
            refine .inr ⟨src, rfl, (hfst.mp hok).1, (hfst.mp hok).2, _, hnext, hunread, ?_⟩
            rcases happend : s.recvBuffer.appendBuffer (some src) (UInt16.ofNat recvSize)
              with ⟨b, rb⟩
            rw [happend] at hok
            cases hok
            simp only [onRecv, if_neg hbig, happend]
            rfl

/-- What a refused chunk, an accepted one and every pass preserve, a call
preserves. -/
theorem onRecv_induction {mgr : PacketHandlerManager σ Msg} (Inv : SessionBase σ Msg → Prop)
    (hrefused : ∀ (s : SessionBase σ Msg) (rb : PacketBuffer), s.recvBuffer.Ordered → Inv s →
      rb.Ordered → rb.unread = s.recvBuffer.unread → Inv { s with recvBuffer := rb })
    (hreceived : ∀ (s : SessionBase σ Msg) (rb : PacketBuffer) (bytes : List Byte),
      s.recvBuffer.Ordered → Inv s → rb.Ordered → rb.unread = s.recvBuffer.unread ++ bytes →
      Inv (s.received rb bytes))
    (henter : ∀ s, s.recvBuffer.Ordered → Inv s → packetHeader.Complete s.recvBuffer.unread →
      mgr.decode s.recvBuffer = none → Inv s.enter)
    (hdispatch : ∀ s functor message, s.recvBuffer.Ordered → Inv s →
      packetHeader.Complete s.recvBuffer.unread →
      mgr.decode s.recvBuffer = some (functor, message) → Inv (s.dispatch functor message))
    {s : SessionBase σ Msg} (hord : s.recvBuffer.Ordered) (hs : Inv s)
    (pBuffer : Option (Mem Byte)) (recvSize : Nat) :
    (s.onRecv mgr pBuffer recvSize).recvBuffer.Ordered ∧ Inv (s.onRecv mgr pBuffer recvSize) := by
  rcases onRecv_cases mgr hord pBuffer recvSize with
    ⟨_, rb, hrb, hunread, heq⟩ | ⟨src, _, _, _, rb, hrb, hunread, heq⟩
  · rw [heq]
    exact ⟨hrb, hrefused s rb hord hs hrb hunread⟩
  · rw [heq]
    exact drain_induction Inv henter hdispatch _ hrb (hreceived s rb _ hord hs hrb hunread)

theorem onRecv_ordered (mgr : PacketHandlerManager σ Msg) {s : SessionBase σ Msg}
    (hord : s.recvBuffer.Ordered) (pBuffer : Option (Mem Byte)) (recvSize : Nat) :
    (s.onRecv mgr pBuffer recvSize).recvBuffer.Ordered := by
  rcases onRecv_cases mgr hord pBuffer recvSize with
    ⟨_, rb, hrb, _, heq⟩ | ⟨src, _, _, _, rb, hrb, _, heq⟩
  · rw [heq]
    exact hrb
  · rw [heq]
    exact loop_ordered mgr hrb

/-- A call adds to what was accepted, entered and dispatched. -/
theorem onRecv_grows (mgr : PacketHandlerManager σ Msg) {s : SessionBase σ Msg}
    (hord : s.recvBuffer.Ordered) (pBuffer : Option (Mem Byte)) (recvSize : Nat) :
    s.trace.Grows (s.onRecv mgr pBuffer recvSize).trace := by
  rcases onRecv_cases mgr hord pBuffer recvSize with
    ⟨_, rb, _, _, heq⟩ | ⟨src, _, _, _, rb, hrb, _, heq⟩
  · rw [heq]
    exact .refl _
  · rw [heq]
    have hreceived : s.trace.Grows (s.received rb (src.slice 0 recvSize)).trace :=
      ⟨List.prefix_append .., List.prefix_refl _, List.prefix_refl _⟩
    exact hreceived.trans (loop_grows mgr hrb)

end SessionBase

/-! ## Any number of calls -/

/-- One call of `OnRecv`: what it is given for `pBuffer` and `recvSize`. -/
structure RecvCall where
  pBuffer : Option (Mem Byte)
  recvSize : Nat

/-- `OnRecv` with the bytes of a chunk at the front of the caller's zeroed
array. -/
def chunkCall (chunk : List Byte) : RecvCall := ⟨some (Mem.ofList 0 chunk), chunk.length⟩

/-- The session after calls of `OnRecv`. -/
def SessionBase.recvAll (mgr : PacketHandlerManager σ Msg) (s : SessionBase σ Msg)
    (calls : List RecvCall) : SessionBase σ Msg :=
  run (fun s call => s.onRecv mgr call.pBuffer call.recvSize) s calls

section Calls

variable (mgr : PacketHandlerManager σ Msg) {s : SessionBase σ Msg}

theorem recvAll_append (s : SessionBase σ Msg) (calls more : List RecvCall) :
    s.recvAll mgr (calls ++ more) = (s.recvAll mgr calls).recvAll mgr more :=
  run_append ..

theorem recvAll_concat (s : SessionBase σ Msg) (calls : List RecvCall) (call : RecvCall) :
    s.recvAll mgr (calls ++ [call]) =
      (s.recvAll mgr calls).onRecv mgr call.pBuffer call.recvSize :=
  run_append ..

/-- What every call preserves holds after any calls. -/
theorem recvAll_induction {mgr : PacketHandlerManager σ Msg} (Inv : SessionBase σ Msg → Prop)
    (hcall : ∀ (s : SessionBase σ Msg) (call : RecvCall), s.recvBuffer.Ordered → Inv s →
      Inv (s.onRecv mgr call.pBuffer call.recvSize))
    {s : SessionBase σ Msg} (hord : s.recvBuffer.Ordered) (hs : Inv s) (calls : List RecvCall) :
    (s.recvAll mgr calls).recvBuffer.Ordered ∧ Inv (s.recvAll mgr calls) := by
  refine run_invariant (fun s : SessionBase σ Msg => s.recvBuffer.Ordered ∧ Inv s) ?_ calls
    ⟨hord, hs⟩
  rintro t call ⟨hord, ht⟩
  exact ⟨SessionBase.onRecv_ordered mgr hord _ _, hcall t call hord ht⟩

theorem recvAll_ordered (hord : s.recvBuffer.Ordered) (calls : List RecvCall) :
    (s.recvAll mgr calls).recvBuffer.Ordered :=
  (recvAll_induction (fun _ => True) (fun _ _ _ _ => trivial) hord trivial calls).1

theorem recvAll_grows (hord : s.recvBuffer.Ordered) (calls : List RecvCall) :
    s.trace.Grows (s.recvAll mgr calls).trace :=
  (recvAll_induction (fun t => s.trace.Grows t.trace)
    (fun _ _ hord h => h.trans (SessionBase.onRecv_grows mgr hord _ _)) hord (.refl _) calls).2

end Calls

end ServerStudy
