import ServerStudy.Core.PartialMap
import ServerStudy.Logic.Chat
import ServerStudy.Logic.Receive

/-!
# The handler table as a partial map

The table has 65535 entries, one for each number but the last. `Register`
refuses a number above its size, which no `uint16` is, and `Handle` refuses
none. So both go past the table for the number 65535. For all others the
table is a partial map that keeps the first functor registered under a number.
-/

namespace ServerStudy.Theorems.HandlerTable

open ServerStudy.Core PacketHandlerManager

variable {σ Msg : Type}

/-- A call of `Register<T>`: the number and the functor of `T`. -/
abbrev Registration (σ Msg : Type) := UInt16 × PacketFunctor σ Msg

/-- The table after calls of `Register`. -/
def registerAll (mgr : PacketHandlerManager σ Msg) (registrations : List (Registration σ Msg)) :
    PacketHandlerManager σ Msg :=
  run (fun mgr r => (mgr.register r.2 r.1).2) mgr registrations

/-- The cleared table, filled by these calls, acts as a partial map on each of
them and on the packet at the head of the session's receive buffer. -/
structure ActsAsMap (mgr : PacketHandlerManager σ Msg) (registrations : List (Registration σ Msg))
    (s : SessionBase σ Msg) : Prop where
  registerInside : ∀ r ∈ registrations, ∀ i ∈ registerAccesses r.1, i < packetFunctorsSize
  handleInside : ∀ i ∈ handleAccesses s.recvBuffer, i < packetFunctorsSize
  register_iff : ∀ done r todo, registrations = done ++ r :: todo →
    (((registerAll mgr.clearPacketFunctors done).register r.2 r.1).1 = true ↔
      r.1.toNat < packetFunctorsSize ∧ r.1 ∉ done.map Prod.fst)
  refused : ∀ done r todo, registrations = done ++ r :: todo →
    ((registerAll mgr.clearPacketFunctors done).register r.2 r.1).1 = false →
    ((registerAll mgr.clearPacketFunctors done).register r.2 r.1).2 =
      registerAll mgr.clearPacketFunctors done
  /-- To the first functor registered under the number. -/
  passed : ∀ functor, registrations.lookup s.recvBuffer.getPacketNo = some functor →
    (registerAll mgr.clearPacketFunctors registrations).handle s = functor.handle s.enter
  unknown : registrations.lookup s.recvBuffer.getPacketNo = none →
    ((registerAll mgr.clearPacketFunctors registrations).handle s).1 = false ∧
      ((registerAll mgr.clearPacketFunctors registrations).handle s).2.recvBuffer = s.recvBuffer

/-! ## The code's table and the partial map -/

/-- No number is above the size of the table, so `Register` extends the map
whatever the number is. -/
theorem register_eq_extend (mgr : PacketHandlerManager σ Msg) (functor : PacketFunctor σ Msg)
    (no : UInt16) :
    (mgr.register functor no).1 = (extend mgr.packetFunctors no functor).1 ∧
      (mgr.register functor no).2.packetFunctors =
        (extend mgr.packetFunctors no functor).2 := by
  have hin : ¬ no.toNat > packetFunctorsSize := by
    have := no.toNat_lt
    unfold packetFunctorsSize
    omega
  unfold register extend
  rw [if_neg hin]
  cases mgr.packetFunctors no with
  | some _ => exact ⟨rfl, rfl⟩
  | none =>
      refine ⟨rfl, ?_⟩
      funext no'
      by_cases hno : no' = no
      · subst hno
        simp
      · simp [hno]

theorem packetFunctors_registerAll (mgr : PacketHandlerManager σ Msg)
    (registrations : List (Registration σ Msg)) :
    (registerAll mgr registrations).packetFunctors =
      extendAll mgr.packetFunctors registrations :=
  run_abs (fun m (r : Registration σ Msg) => (extend m r.1 r.2).2) (fun _ => True)
    PacketHandlerManager.packetFunctors
    (fun mgr r _ => ⟨trivial, (register_eq_extend mgr r.2 r.1).2⟩) registrations trivial

theorem cleared_of_lt (mgr : PacketHandlerManager σ Msg) {no : UInt16}
    (hno : no.toNat < packetFunctorsSize) :
    mgr.clearPacketFunctors.packetFunctors no = none := if_pos hno

/-- After any registrations a number of the table has the first functor
registered under it. -/
theorem packetFunctors_of_lt (mgr : PacketHandlerManager σ Msg)
    (registrations : List (Registration σ Msg)) {no : UInt16}
    (hno : no.toNat < packetFunctorsSize) :
    (registerAll mgr.clearPacketFunctors registrations).packetFunctors no =
      registrations.lookup no := by
  rw [packetFunctors_registerAll, extendAll_apply, cleared_of_lt mgr hno, Option.none_or]

theorem register_fst_iff_of_lt (mgr : PacketHandlerManager σ Msg)
    (registrations : List (Registration σ Msg)) (functor : PacketFunctor σ Msg) {no : UInt16}
    (hno : no.toNat < packetFunctorsSize) :
    ((registerAll mgr.clearPacketFunctors registrations).register functor no).1 = true ↔
      no ∉ registrations.map Prod.fst := by
  rw [(register_eq_extend _ functor no).1, extend_fst_iff, packetFunctors_registerAll,
    extendAll_eq_none_iff, cleared_of_lt mgr hno]
  simp

theorem register_refused (mgr : PacketHandlerManager σ Msg) (functor : PacketFunctor σ Msg)
    (no : UInt16) (h : (mgr.register functor no).1 = false) : (mgr.register functor no).2 = mgr := by
  obtain ⟨hfst, hsnd⟩ := register_eq_extend mgr functor no
  rw [hfst] at h
  rw [extend_refused h] at hsnd
  cases mgr
  exact congrArg PacketHandlerManager.mk hsnd

/-- The head packet goes to the functor the table has for its number. -/
theorem handle_eq (mgr : PacketHandlerManager σ Msg) (s : SessionBase σ Msg) :
    mgr.handle s =
      (mgr.packetFunctors s.recvBuffer.getPacketNo).elim (false, s.enter)
        (fun functor => functor.handle s.enter) := by
  rw [handle, SessionBase.enter_recvBuffer]
  cases mgr.packetFunctors s.recvBuffer.getPacketNo with
  | none => rfl
  | some _ => rfl

/-- Any calls of `Register` on a cleared table, then `Handle` on any packet:
the table acts as a partial map over the 16-bit numbers exactly when neither a
registered number nor that of the packet is 65535. -/
theorem handlerTable_actsAsMap_iff (mgr : PacketHandlerManager σ Msg)
    (registrations : List (Registration σ Msg)) (s : SessionBase σ Msg) :
    ActsAsMap mgr registrations s ↔
      (∀ r ∈ registrations, r.1 ≠ 65535) ∧ s.recvBuffer.getPacketNo ≠ 65535 := by
  have hlt : ∀ no : UInt16, no.toNat < packetFunctorsSize ↔ no ≠ 65535 := by
    intro no
    have hbound := no.toNat_lt
    have hlast : no = 65535 ↔ no.toNat = 65535 := by
      rw [← UInt16.toNat_inj]
      rfl
    rw [ne_eq, hlast]
    unfold packetFunctorsSize
    omega
  constructor
  · intro h
    refine ⟨fun r hr => (hlt r.1).mp ?_, (hlt _).mp (h.handleInside _ (by simp [handleAccesses]))⟩
    have hbound := r.1.toNat_lt
    refine h.registerInside r hr r.1.toNat ?_
    rw [registerAccesses, if_neg (by unfold packetFunctorsSize; omega)]
    exact List.mem_singleton_self _
  · rintro ⟨hregs, hno⟩
    have hin := (hlt _).mpr hno
    refine ⟨?_, ?_, ?_, ?_, ?_, ?_⟩
    · intro r hr i hi
      unfold registerAccesses at hi
      split at hi
      · cases hi
      · rw [List.mem_singleton.mp hi]
        exact (hlt r.1).mpr (hregs r hr)
    · intro i hi
      rw [List.mem_singleton.mp hi]
      exact hin
    · rintro done r todo rfl
      have hr := (hlt r.1).mpr (hregs r (by simp))
      rw [register_fst_iff_of_lt mgr done r.2 hr]
      exact ⟨fun h => ⟨hr, h⟩, fun h => h.2⟩
    · intro done r todo _ h
      exact register_refused _ r.2 r.1 h
    · intro functor hlookup
      rw [handle_eq, packetFunctors_of_lt mgr registrations hin, hlookup]
      rfl
    · intro hlookup
      rw [handle_eq, packetFunctors_of_lt mgr registrations hin, hlookup]
      exact ⟨rfl, rfl⟩

/-- A session that has received the head of a packet with the number 65535. -/
def lastNumberSession : ClientSession :=
  { SessionBase.new (fun _ => 0) openClient with
    recvBuffer := ((PacketBuffer.new fun _ => 0).appendBuffer
      (some (Mem.ofList 0 [4, 0, 255, 255])) 4).2 }

/-- With the table of the server, `Handle` looks the number up behind the
table. -/
theorem last_number_outside :
    ¬ ActsAsMap ⟨fun _ => none⟩ [(chatProtocolNumber, chatFunctor chatWire)]
      lastNumberSession := by
  intro h
  have hin := h.handleInside 65535 (by decide)
  exact absurd hin (by decide)

end ServerStudy.Theorems.HandlerTable
