import ServerStudy.Core.Framing

/-!
# Framed messages in a pipe

A sender queues messages as frames and puts the oldest on the wire; a receiver
collects bytes and takes off whole frames. `Pipe` says where the bytes of a
list of messages are: the first `taken` are gone, the others up to `wired` are
on the wire or with the receiver, cut anywhere, and the rest are queued. Every
move of either end keeps it, so that what is taken is always the next message.

`Interleaving` is the other half of such an account: a list put together from
two, each in its own order.
-/

namespace ServerStudy.Core

variable {α β : Type}

/-- The bytes of the messages after the first `taken`, queued from `wired` on. -/
structure Pipe (H : Header α) (enc : β → List α) (sent : List β) (wired taken : Nat)
    (queue wire buffer : List α) : Prop where
  frames : ∀ m ∈ sent, H.IsFrame (enc m)
  taken_le : taken ≤ wired
  wired_le : wired ≤ sent.length
  queued : queue = (sent.drop wired).flatMap enc
  moving : buffer ++ wire = ((sent.take wired).drop taken).flatMap enc

namespace Pipe

variable {H : Header α} {enc : β → List α} {sent : List β} {wired taken : Nat}
  {queue wire buffer : List α}

theorem empty (H : Header α) (enc : β → List α) : Pipe H enc [] 0 0 [] [] [] where
  frames _ hm := absurd hm List.not_mem_nil
  taken_le := Nat.le_refl _
  wired_le := Nat.le_refl _
  queued := rfl
  moving := rfl

/-- Nothing is missing: all bytes on their way are those of the messages that
are not taken. -/
theorem bytes (h : Pipe H enc sent wired taken queue wire buffer) :
    buffer ++ wire ++ queue = (sent.drop taken).flatMap enc := by
  have hsplit : sent.drop taken = (sent.take wired).drop taken ++ sent.drop wired := by
    have hle : taken ≤ (sent.take wired).length := by
      rw [List.length_take, Nat.min_eq_left h.wired_le]
      exact h.taken_le
    rw [← List.drop_append_of_le_length hle, List.take_append_drop]
  rw [h.moving, h.queued, hsplit, List.flatMap_append]

section Lengths

variable {limit : Nat} (hlimit : ∀ m ∈ sent, (enc m).length ≤ limit)

/-- Messages of at most `limit` bytes each. -/
theorem length_flatMap_le {ms : List β} (h : ∀ m ∈ ms, (enc m).length ≤ limit) :
    (ms.flatMap enc).length ≤ ms.length * limit := by
  induction ms with
  | nil => exact Nat.zero_le _
  | cons m ms ih =>
      have hhead := h m List.mem_cons_self
      have htail := ih fun m' hm' => h m' (List.mem_cons_of_mem _ hm')
      rw [List.flatMap_cons, List.length_append, List.length_cons, Nat.succ_mul]
      omega

include hlimit

/-- The queue is as long as its messages let it be. -/
theorem queue_le (h : Pipe H enc sent wired taken queue wire buffer) :
    queue.length ≤ (sent.length - wired) * limit := by
  rw [h.queued, ← List.length_drop]
  exact length_flatMap_le fun m hm => hlimit m (List.drop_subset _ _ hm)

/-- So are the bytes on the wire and at the receiver. -/
theorem moving_le (h : Pipe H enc sent wired taken queue wire buffer) :
    buffer.length + wire.length ≤ (wired - taken) * limit := by
  have hcount : ((sent.take wired).drop taken).length = wired - taken := by
    rw [List.length_drop, List.length_take, Nat.min_eq_left h.wired_le]
  rw [← List.length_append, h.moving, ← hcount]
  exact length_flatMap_le fun m hm =>
    hlimit m (List.take_subset _ _ (List.drop_subset _ _ hm))

end Lengths

/-- A new message is queued last. -/
theorem put (h : Pipe H enc sent wired taken queue wire buffer) {m : β}
    (hm : H.IsFrame (enc m)) :
    Pipe H enc (sent ++ [m]) wired taken (queue ++ enc m) wire buffer where
  frames m' hm' := by
    rcases List.mem_append.mp hm' with hold | hnew
    · exact h.frames m' hold
    · rw [List.mem_singleton.mp hnew]
      exact hm
  taken_le := h.taken_le
  wired_le := by
    rw [List.length_append]
    exact Nat.le_trans h.wired_le (Nat.le_add_right ..)
  queued := by
    rw [List.drop_append_of_le_length h.wired_le, List.flatMap_append, h.queued]
    simp
  moving := by
    rw [List.take_append_of_le_length h.wired_le]
    exact h.moving

/-- A queue that is not empty starts with the oldest message that is not on
the wire, and this is the one to go there. -/
theorem transmit (h : Pipe H enc sent wired taken queue wire buffer)
    (hlt : wired < sent.length) :
    ∃ m rest, sent[wired]? = some m ∧ queue = enc m ++ rest ∧
      Pipe H enc sent (wired + 1) taken rest (wire ++ enc m) buffer := by
  obtain ⟨m, hm⟩ : ∃ m, sent[wired]? = some m := ⟨_, List.getElem?_eq_getElem hlt⟩
  have hdrop : sent.drop wired = m :: sent.drop (wired + 1) := by
    rw [List.drop_eq_getElem_cons hlt]
    rw [List.getElem?_eq_getElem hlt] at hm
    cases hm
    rfl
  have htake : sent.take (wired + 1) = sent.take wired ++ [m] := by
    rw [List.take_add_one, hm]
    rfl
  refine ⟨m, (sent.drop (wired + 1)).flatMap enc, hm, ?_, ?_⟩
  · rw [h.queued, hdrop, List.flatMap_cons]
  · refine ⟨h.frames, Nat.le_succ_of_le h.taken_le, hlt, rfl, ?_⟩
    have hle : taken ≤ (sent.take wired).length := by
      rw [List.length_take, Nat.min_eq_left h.wired_le]
      exact h.taken_le
    rw [htake, List.drop_append_of_le_length hle, List.flatMap_append, ← h.moving,
      List.append_assoc]
    simp

/-- A queue with bytes in it holds a message. -/
theorem wired_lt (h : Pipe H enc sent wired taken queue wire buffer) (hne : queue ≠ []) :
    wired < sent.length := by
  by_contra hge
  rw [h.queued, List.drop_eq_nil_of_le (Nat.not_lt.mp hge)] at hne
  exact hne rfl

/-- Bytes move from the wire to the receiver. -/
theorem arrive {chunk more : List α}
    (h : Pipe H enc sent wired taken queue (chunk ++ more) buffer) :
    Pipe H enc sent wired taken queue more (buffer ++ chunk) where
  frames := h.frames
  taken_le := h.taken_le
  wired_le := h.wired_le
  queued := h.queued
  moving := by rw [List.append_assoc]; exact h.moving

/-- A complete head is the next message. -/
theorem take (h : Pipe H enc sent wired taken queue wire buffer) (hable : H.Complete buffer) :
    ∃ m rest, sent[taken]? = some m ∧ taken < wired ∧ buffer = enc m ++ rest ∧
      Pipe H enc sent wired (taken + 1) queue wire rest := by
  have hmem : ∀ m ∈ (sent.take wired).drop taken, H.IsFrame (enc m) := fun m hm =>
    h.frames m (List.take_subset _ _ (List.drop_subset _ _ hm))
  have hpre : buffer <+: ((sent.take wired).drop taken).flatMap enc ++ [] := by
    rw [List.append_nil, ← h.moving]
    exact List.prefix_append ..
  obtain ⟨m, rest, u, hdrop, hu, _⟩ :=
    Header.head_of_stream hmem H.not_complete_nil hpre hable
  have hlt : taken < (sent.take wired).length := by
    by_contra hge
    rw [List.drop_eq_nil_of_le (Nat.not_lt.mp hge)] at hdrop
    cases hdrop
  have hget : (sent.take wired)[taken]? = some m := by
    have hhead : ((sent.take wired).drop taken)[0]? = (sent.take wired)[taken]? := by
      rw [List.getElem?_drop, Nat.add_zero]
    rw [← hhead, hdrop]
    rfl
  have hwired : taken < wired := by
    rw [List.length_take, Nat.min_eq_left h.wired_le] at hlt
    exact hlt
  refine ⟨m, u, ?_, hwired, hu, h.frames, hwired, h.wired_le, h.queued, ?_⟩
  · rw [List.getElem?_take_of_lt hwired] at hget
    exact hget
  · have hnext : (sent.take wired).drop (taken + 1) = rest := by
      rw [← List.tail_drop, hdrop, List.tail_cons]
    have hmoving := h.moving
    rw [hdrop, List.flatMap_cons, hu, List.append_assoc] at hmoving
    rw [hnext]
    exact List.append_cancel_left hmoving

/-- With nothing on the wire and no whole frame at the receiver all that was
on the wire is taken. -/
theorem settled (h : Pipe H enc sent wired taken queue [] buffer)
    (hidle : ¬ H.Complete buffer) : taken = wired ∧ buffer = [] := by
  have hall := h.moving
  rw [List.append_nil] at hall
  have hdrop : (sent.take wired).drop taken = [] := by
    cases hcase : (sent.take wired).drop taken with
    | nil => rfl
    | cons m rest =>
        -- a first frame would be complete
        have hm : m ∈ sent := by
          refine List.take_subset wired _ (List.drop_subset taken _ ?_)
          rw [hcase]
          exact List.mem_cons_self
        rw [hcase, List.flatMap_cons] at hall
        rw [hall] at hidle
        exact absurd ((h.frames m hm).complete_append _) hidle
  have hle : wired ≤ taken := by
    have hlen := List.drop_eq_nil_iff.mp hdrop
    rw [List.length_take, Nat.min_eq_left h.wired_le] at hlen
    exact hlen
  refine ⟨Nat.le_antisymm h.taken_le hle, ?_⟩
  rw [hall, hdrop, List.flatMap_nil]

end Pipe

/-- The list is put together from the two, each in its own order. -/
inductive Interleaving : List β → List β → List β → Prop
  | nil : Interleaving [] [] []
  | left {l r both : List β} (m : β) :
      Interleaving l r both → Interleaving (l ++ [m]) r (both ++ [m])
  | right {l r both : List β} (m : β) :
      Interleaving l r both → Interleaving l (r ++ [m]) (both ++ [m])

theorem Interleaving.length_eq {l r both : List β} (h : Interleaving l r both) :
    both.length = l.length + r.length := by
  induction h with
  | nil => rfl
  | left m _ ih =>
      rw [List.length_append, List.length_append, ih, List.length_singleton]
      omega
  | right m _ ih =>
      rw [List.length_append, List.length_append, ih, List.length_singleton]
      omega

end ServerStudy.Core
