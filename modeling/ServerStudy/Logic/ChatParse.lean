import ServerStudy.Logic.Wire
import ServerStudy.Protobuf.Chat

/-!
# The loop of `MergePartialFromCodedStream`

The class reads its own field as `SkipField` would, so a pass of the loop reads
one field and merges it: the field `message` replaces the text, and any other is
kept with the unknown fields. The loop ends legitimately exactly where the array
does (`mergeLoop_sound`, `mergeLoop_complete`).
-/

namespace ServerStudy.Protobuf

open ServerStudy.Core CodedInputStream

/-- The text of a field that is `message`. -/
def UnknownField.message : UnknownField → Option Text
  | .lengthDelimited number value => if number = 1 then some value else none
  | _ => none

namespace Chat

/-- What a field does to the message it is read into. -/
def merge (chat : Chat) (field : UnknownField) : Chat :=
  match field.message with
  | some value => chat.setMessage value
  | none => chat.addUnknown field

/-- All that a run of fields does. -/
theorem foldl_merge (fields : UnknownFields) (chat : Chat) :
    (fields.foldl merge chat).message =
        (fields.filterMap UnknownField.message).getLast?.getD chat.message ∧
      (fields.foldl merge chat).hasMessage =
        (chat.hasMessage || (fields.filterMap UnknownField.message).getLast?.isSome) ∧
      (fields.foldl merge chat).unknownFields =
        chat.unknownFields ++ fields.filter fun field => field.message.isNone := by
  induction fields generalizing chat with
  | nil => simp
  | cons field fields ih =>
      obtain ⟨hmessage, hhas, hunknown⟩ := ih (chat.merge field)
      rw [List.foldl_cons, hmessage, hhas, hunknown]
      cases hfield : field.message with
      | none => simp [merge, hfield, addUnknown]
      | some value => simp [merge, hfield, setMessage, List.getLast?_cons]

/-- The array ends where a message may: within the limit for all messages, or
right behind the field `message`. -/
def LegitimateEnd (size : Nat) (fields : UnknownFields) : Prop :=
  size ≤ kDefaultTotalBytesLimit ∨ ∃ field, fields.getLast? = some field ∧ field.message.isSome

theorem LegitimateEnd.cons {size : Nat} {fields : UnknownFields} (field : UnknownField)
    (h : LegitimateEnd size fields) : LegitimateEnd size (field :: fields) := by
  rcases h with hsize | ⟨last, hlast, hmessage⟩
  · exact .inl hsize
  · exact .inr ⟨last, by rw [List.getLast?_cons, hlast, Option.getD_some], hmessage⟩

/-! ## The tag of the field -/

/-- The tag the loop compares with is that of field 1 as a string. -/
theorem tag_eq_iff (tag : UInt32) :
    tag = 10 ↔ getTagFieldNumber tag = 1 ∧ getTagWireType tag = some .lengthDelimited := by
  constructor
  · rintro rfl
    exact ⟨by decide, by decide⟩
  · rintro ⟨hnumber, htype⟩
    have hhigh : tag.toNat / 8 = 1 := by
      have hshift := congrArg UInt32.toNat hnumber
      have hbits : kTagTypeBits.toNat % 32 = 3 := rfl
      rw [getTagFieldNumber, UInt32.toNat_shiftRight, hbits, Nat.shiftRight_eq_div_pow] at hshift
      exact hshift
    have hlow : tag.toNat % 8 = 2 := by
      have hseven : (7 : UInt32).toNat = 2 ^ 3 - 1 := rfl
      have hand : (tag &&& 7).toNat = tag.toNat % 8 := by
        rw [UInt32.toNat_and, hseven, Nat.and_two_pow_sub_one_eq_mod]
      rw [getTagWireType, hand] at htype
      have hlt : tag.toNat % 8 < 8 := Nat.mod_lt _ (by decide)
      generalize tag.toNat % 8 = low at htype hlt ⊢
      revert htype
      revert hlt
      revert low
      decide
    apply UInt32.toNat_inj.mp
    show tag.toNat = 10
    omega

/-- Only behind that tag is there the field `message`. -/
theorem message_isSome_iff {inner : UnknownFields → List Byte → Prop} {tag : UInt32}
    {field : UnknownField} {body : List Byte} (h : Body inner tag field body) :
    field.message.isSome ↔ tag = 10 := by
  rw [tag_eq_iff]
  cases h with
  | varint htype _ => simp [UnknownField.message, htype]
  | fixed64 htype _ => simp [UnknownField.message, htype]
  | lengthDelimited htype _ _ _ =>
      rw [UnknownField.message]
      by_cases hnumber : getTagFieldNumber tag = 1
      · simp [hnumber, htype]
      · simp [hnumber]
  | group htype _ _ => simp [UnknownField.message, htype]
  | fixed32 htype _ => simp [UnknownField.message, htype]

/-- The class reads its field as `SkipField` would. -/
theorem skipField_ten (s : CodedInputStream) :
    skipField s 10 =
      (Chat.readString s).map fun r => (.lengthDelimited 1 r.1, r.2) := by
  have htype : getTagWireType 10 = some .lengthDelimited := by decide
  have hnumber : getTagFieldNumber 10 = 1 := by decide
  rw [skipField, skipFieldWith, htype, hnumber, Chat.readString]
  cases s.readVarint32 with
  | none => rfl
  | some r =>
      obtain ⟨length, s₁⟩ := r
      simp only
      cases s₁.readString length with
      | none => rfl
      | some r => rfl

/-! ## One pass -/

variable {s s₁ s₂ s' : CodedInputStream} {tag : UInt32} {field : UnknownField}
  {fields : UnknownFields} {chat chat' : Chat} {fuel : Nat}

/-- Whatever the cutoff said, tag 10 goes to the field and the others to
`handle_unusual`. -/
theorem mergeLoop_succ (hs : s.buffer ≤ s.bufferEnd) (htag : noted s.plainTag = (tag, s₁)) :
    mergeLoop (fuel + 1) chat s =
      if tag = 10 then
        match Chat.readString s₁ with
        | none => none
        | some (value, input) =>
            match input.expectAtEnd with
            | (true, input) => some (chat.setMessage value, input)
            | (false, input) => mergeLoop fuel (chat.setMessage value) input
      else handleUnusual (mergeLoop fuel) chat s₁ tag := by
  obtain ⟨below, hread, hbelow⟩ := readTagWithCutoff_eq hs 127
  rw [htag] at hread hbelow
  rw [mergeLoop, hread]
  by_cases hten : tag = 10
  · subst hten
    have hne : (10 : UInt32) ≠ 0 := by decide
    have hle : (10 : UInt32) ≤ 127 := by decide
    have hyes : below = true := (hbelow hne).mpr hle
    have hnumber : getTagFieldNumber 10 = 1 := by decide
    rw [hyes]
    exact ((if_pos hnumber).trans (if_pos rfl)).trans (if_pos rfl).symm
  · rw [if_neg hten]
    cases below with
    | false => rfl
    | true => simp only [if_neg hten, ite_self]

/-- The loop stops at a tag of 0 and at the end of a group. -/
theorem mergeLoop_of_stop (hs : s.buffer ≤ s.bufferEnd) (htag : noted s.plainTag = (tag, s₁))
    (hstop : tag = 0 ∨ getTagWireType tag = some .endGroup) :
    mergeLoop (fuel + 1) chat s = some (chat, s₁) := by
  have hten : tag ≠ 10 := by
    rintro rfl
    revert hstop
    decide
  rw [mergeLoop_succ hs htag, if_neg hten, handleUnusual]
  exact if_pos (by simpa using hstop)

/-- A field that cannot be read ends the loop. -/
theorem mergeLoop_of_none (hs : s.buffer ≤ s.bufferEnd) (htag : noted s.plainTag = (tag, s₁))
    (hgo : tag ≠ 0 ∧ getTagWireType tag ≠ some .endGroup) (hfield : skipField s₁ tag = none) :
    mergeLoop (fuel + 1) chat s = none := by
  rw [mergeLoop_succ hs htag]
  by_cases hten : tag = 10
  · rw [hten, skipField_ten, Option.map_eq_none_iff] at hfield
    rw [if_pos hten, hfield]
  · rw [if_neg hten, handleUnusual, if_neg (by simpa using hgo), hfield]

/-- A field that is read is merged, and the loop goes on unless it was the
field `message` and nothing is left. -/
theorem mergeLoop_of_some (hs : s.buffer ≤ s.bufferEnd) (htag : noted s.plainTag = (tag, s₁))
    (hgo : tag ≠ 0 ∧ getTagWireType tag ≠ some .endGroup)
    (hfield : skipField s₁ tag = some (field, s₂)) (hmessage : field.message.isSome ↔ tag = 10) :
    mergeLoop (fuel + 1) chat s =
      if field.message.isSome ∧ s₂.buffer = s₂.bufferEnd then
        some (chat.merge field, { s₂ with lastTag := 0, legitimateMessageEnd := true })
      else mergeLoop fuel (chat.merge field) s₂ := by
  rw [mergeLoop_succ hs htag]
  by_cases hten : tag = 10
  · rw [hten, skipField_ten, Option.map_eq_some_iff] at hfield
    obtain ⟨⟨value, s₃⟩, hread, heq⟩ := hfield
    cases heq
    rw [if_pos hten, hread]
    show (match s₃.expectAtEnd with
      | (true, input) => some (chat.setMessage value, input)
      | (false, input) => mergeLoop fuel (chat.setMessage value) input) = _
    rw [expectAtEnd]
    by_cases hend : s₃.buffer = s₃.bufferEnd
    · rw [if_pos hend, if_pos ⟨rfl, hend⟩]
      rfl
    · rw [if_neg hend, if_neg fun h => hend h.2]
      rfl
  · have hother : field.message = none := by
      rw [← Option.not_isSome_iff_eq_none, hmessage]
      exact hten
    rw [if_neg hten, handleUnusual, if_neg (by simpa using hgo), hfield,
      if_neg (by rw [hother]; exact fun h => Bool.false_ne_true h.1), merge, hother]

/-! ## The whole loop -/

/-- A tag of 0 with a legitimate end: nothing was left. -/
theorem nil_of_ended (hs : s.buffer ≤ s.bufferEnd) (hopen : s.legitimateMessageEnd = false)
    (htag : noted s.plainTag = (tag, s₁)) (hend : s₁.legitimateMessageEnd = true) :
    s.remaining = [] ∧ s.bufferEnd ≤ kDefaultTotalBytesLimit := by
  rw [plainTag] at htag
  by_cases hbuffer : s.buffer = s.bufferEnd
  · rw [if_pos hbuffer] at htag
    cases htag
    exact ⟨(remaining_eq_nil_iff hs).mpr hbuffer, of_decide_eq_true hend⟩
  · -- the flag is set at the end only
    rw [if_neg hbuffer] at htag
    have hsame : s₁.legitimateMessageEnd = s.legitimateMessageEnd := by
      cases hread : readVarint 10 s.remaining with
      | none => rw [hread] at htag; cases htag; rfl
      | some r => rw [hread] at htag; cases htag; rfl
    rw [hsame, hopen] at hend
    cases hend

theorem mergeLoop_sound (hs : s.buffer ≤ s.bufferEnd) (hopen : s.legitimateMessageEnd = false)
    (h : mergeLoop fuel chat s = some (chat', s')) (hend : s'.legitimateMessageEnd = true) :
    ∃ fields, Fields (levels s) fields s.remaining ∧ LegitimateEnd s.bufferEnd fields ∧
      chat' = fields.foldl merge chat := by
  induction fuel generalizing s chat with
  | zero => cases h
  | succ fuel ih =>
      obtain ⟨⟨tag, s₁⟩, htag⟩ : ∃ r, noted s.plainTag = r := ⟨_, rfl⟩
      by_cases hstop : tag = 0 ∨ getTagWireType tag = some .endGroup
      · rw [mergeLoop_of_stop hs htag hstop] at h
        cases h
        obtain ⟨hnil, hsize⟩ := nil_of_ended hs hopen htag hend
        refine ⟨[], ?_, .inl hsize, rfl⟩
        rw [hnil, fields_eq]
        exact .nil
      · have hgo : tag ≠ 0 ∧ getTagWireType tag ≠ some .endGroup := not_or.mp hstop
        obtain ⟨tb, rest, hbytes, hist, rfl⟩ := plainTag_sound hgo.1 htag
        cases hfield : skipField (s.after rest tag) tag with
        | none =>
            rw [mergeLoop_of_none hs htag hgo hfield] at h
            cases h
        | some r =>
            obtain ⟨field, s₂⟩ := r
            obtain ⟨body, rest₂, last, hbody, hformat, rfl⟩ :=
              skipField_sound (after_within ..) hfield
            have hrest := remaining_after hs tag hbytes
            have hmore : (s.after rest₂ last).remaining = rest₂ :=
              remaining_after (after_within rest tag) last hbody
            rw [mergeLoop_of_some hs htag hgo hfield (message_isSome_iff hformat)] at h
            have hfront : s.remaining = tb ++ (body ++ rest₂) := by
              rw [hbytes, ← hrest, hbody]
            by_cases hdone : field.message.isSome ∧
                ((s.after rest tag).after rest₂ last).buffer =
                  ((s.after rest tag).after rest₂ last).bufferEnd
            · rw [if_pos hdone] at h
              cases h
              have hnil : rest₂ = [] := by
                rw [← hmore, remaining_eq_nil_iff (after_within ..)]
                exact hdone.2
              refine ⟨[field], ?_, .inr ⟨field, rfl, hdone.1⟩, rfl⟩
              rw [hfront, hnil, fields_eq]
              exact .cons hist hformat .nil
            · rw [if_neg hdone] at h
              obtain ⟨fields, hfields, hlegit, rfl⟩ := ih (after_within ..) hopen h
              rw [hmore, fields_eq] at hfields
              refine ⟨field :: fields, ?_, hlegit.cons field, rfl⟩
              rw [hfront, fields_eq]
              exact .cons hist hformat hfields

theorem mergeLoop_complete (hs : s.buffer ≤ s.bufferEnd) (hfuel : s.remaining.length < fuel)
    (h : Fields (levels s) fields s.remaining) (chat : Chat) :
    ∃ s', mergeLoop fuel chat s = some (fields.foldl merge chat, s') ∧
      (LegitimateEnd s.bufferEnd fields → s'.legitimateMessageEnd = true) := by
  induction fuel generalizing s fields chat with
  | zero => exact absurd hfuel (Nat.not_lt_zero _)
  | succ fuel ih =>
      rw [fields_eq] at h
      generalize hbytes : s.remaining = bytes at h
      cases h with
      | nil =>
          have hbuffer := (remaining_eq_nil_iff hs).mp hbytes
          have htag : noted s.plainTag = (0, { s.ended with lastTag := 0 }) := by
            rw [plainTag, if_pos hbuffer]
            rfl
          refine ⟨_, mergeLoop_of_stop hs htag (.inl rfl), ?_⟩
          rintro (hsize | ⟨_, hlast, _⟩)
          · exact decide_eq_true hsize
          · cases hlast
      | @cons tb body more tag field fields hist hbody hmore =>
          have hpos := hist.length_pos
          rw [hbytes, List.length_append, List.length_append] at hfuel
          have htag := plainTag_complete hs hbytes hist
          have hrest := remaining_after hs tag hbytes
          obtain ⟨last, hfield⟩ :=
            skipField_complete (after_within (body ++ more) tag) hrest hbody
          have hleft := remaining_after (after_within (body ++ more) tag) last hrest
          rw [mergeLoop_of_some hs htag ⟨hist.ne_zero, hbody.not_endGroup⟩ hfield
            (message_isSome_iff hbody)]
          by_cases hdone : field.message.isSome ∧
              ((s.after (body ++ more) tag).after more last).buffer =
                ((s.after (body ++ more) tag).after more last).bufferEnd
          · rw [if_pos hdone]
            have hnil : more = [] := by
              rw [← hleft, remaining_eq_nil_iff (after_within ..)]
              exact hdone.2
            rw [hmore.nil_iff.mp hnil]
            exact ⟨_, rfl, fun _ => rfl⟩
          · rw [if_neg hdone]
            obtain ⟨s', hloop, hlegit⟩ := ih (after_within more last)
              (by rw [hleft]; omega) (by rw [hleft, fields_eq]; exact hmore) (chat.merge field)
            refine ⟨s', hloop, fun hclosed => hlegit ?_⟩
            rcases hclosed with hsize | ⟨f, hlast, hmessage⟩
            · exact .inl hsize
            · -- a last field that is `message` has others behind it, or the loop was done
              rw [List.getLast?_cons] at hlast
              cases hfields : fields.getLast? with
              | some f' =>
                  rw [hfields, Option.getD_some] at hlast
                  exact .inr ⟨f, hfields.trans hlast, hmessage⟩
              | none =>
                  rw [hfields, Option.getD_none] at hlast
                  cases hlast
                  have hempty := List.getLast?_eq_none_iff.mp hfields
                  have hnil := hmore.nil_iff.mpr hempty
                  refine absurd ⟨hmessage, ?_⟩ hdone
                  rw [← remaining_eq_nil_iff (after_within ..), hleft, hnil]

end Chat

end ServerStudy.Protobuf
