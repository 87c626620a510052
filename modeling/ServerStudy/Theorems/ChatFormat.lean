import ServerStudy.Logic.ChatParse
import ServerStudy.Logic.CodedOutput

/-!
# The format of Chat messages

What `ParseFromArray` of the generated class accepts, over any bytes a peer may
send, and what `SerializeToArray` writes: the parser accepts encodings of fields
with a `message` among them and nothing else, what is written is read back, and
no cut of it is accepted.
-/

namespace ServerStudy.Theorems.ChatFormat

open ServerStudy.Core ServerStudy.Protobuf CodedInputStream

/-! ## The readers -/

section Readers

variable {s : CodedInputStream}

/-- The slow loop and what it truncates to give a tag or 32 bits. -/
theorem readTagSlow_eq (hs : s.buffer ≤ s.bufferEnd) : s.readTagSlow = s.plainTag := by
  rw [readTagSlow, plainTag]
  by_cases hend : s.buffer = s.bufferEnd
  · rw [if_pos hend, if_pos hend, ended]
    have htotal : s.totalBytesRead = s.bufferEnd := rfl
    by_cases hle : kDefaultTotalBytesLimit ≤ s.totalBytesRead
    · rw [if_pos hle]
      congr 2
      exact decide_eq_decide.mpr (by omega)
    · rw [if_neg hle, decide_eq_true (by omega)]
  · rw [if_neg hend, if_neg hend, readVarint64_eq hs]
    cases readVarint 10 s.remaining with
    | none => rfl
    | some r =>
        simp only [Option.map_some, Prod.mk.injEq, and_true]
        apply UInt32.toNat_inj.mp
        rw [UInt64.toNat_toUInt32, UInt64.toNat_ofNat', UInt32.toNat_ofNat']
        omega

theorem plainTag_congr (memory : Mem Byte)
    (hbytes : (s.within memory).remaining = s.remaining) :
    (noted (s.within memory).plainTag).1 = (noted s.plainTag).1 ∧
      (noted (s.within memory).plainTag).2.buffer = (noted s.plainTag).2.buffer := by
  have hend' : (s.within memory).buffer = (s.within memory).bufferEnd ↔
      s.buffer = s.bufferEnd := Iff.rfl
  rw [noted, noted, plainTag, plainTag, hbytes]
  by_cases hend : s.buffer = s.bufferEnd
  · rw [if_pos hend, if_pos (hend'.mpr hend)]
    exact ⟨rfl, rfl⟩
  · rw [if_neg hend, if_neg fun h => hend (hend'.mp h)]
    cases readVarint 10 s.remaining with
    | none => exact ⟨rfl, rfl⟩
    | some r => exact ⟨rfl, rfl⟩

/-- Every fast path reads what the slow loop reads, and from the array alone:
what is in memory behind it makes no difference. -/
theorem fast_paths_agree (s : CodedInputStream) (hs : s.buffer ≤ s.bufferEnd) :
    s.readVarint64 = s.readVarint64Slow ∧
      s.readVarint32 = s.readVarint64Slow.map (fun r => (r.1.toUInt32, r.2)) ∧
      s.readTag = (s.readTagSlow.1, { s.readTagSlow.2 with lastTag := s.readTagSlow.1 }) ∧
      (∀ cutoff, (s.readTagWithCutoff cutoff).1.1 = s.readTag.1 ∧
        (s.readTagWithCutoff cutoff).2 = s.readTag.2 ∧
        (s.readTag.1 ≠ 0 →
          ((s.readTagWithCutoff cutoff).1.2 = true ↔ s.readTag.1 ≤ cutoff))) ∧
      ∀ memory : Mem Byte, (∀ i, i < s.bufferEnd → memory i = s.memory i) →
        (s.within memory).readVarint64.map (fun r => (r.1, r.2.buffer)) =
            s.readVarint64.map (fun r => (r.1, r.2.buffer)) ∧
          (s.within memory).readTag.1 = s.readTag.1 ∧
          (s.within memory).readTag.2.buffer = s.readTag.2.buffer := by
  refine ⟨?_, ?_, ?_, fun cutoff => ?_, fun memory hsame => ?_⟩
  · rw [readVarint64_eq hs, readVarint64Slow_eq hs]
  · rw [readVarint32_eq hs, readVarint64Slow_eq hs, Option.map_map]
    cases readVarint 10 s.remaining with
    | none => rfl
    | some r =>
        simp only [Option.map_some, Function.comp_apply, Option.some.injEq, Prod.mk.injEq, and_true]
        apply UInt32.toNat_inj.mp
        rw [UInt64.toNat_toUInt32, UInt64.toNat_ofNat', UInt32.toNat_ofNat']
        omega
  · rw [readTag_eq hs, readTagSlow_eq hs]
    rfl
  · obtain ⟨below, hread, hbelow⟩ := readTagWithCutoff_eq hs cutoff
    rw [hread, readTag_eq hs]
    exact ⟨rfl, rfl, hbelow⟩
  · have hbytes : (s.within memory).remaining = s.remaining :=
      Mem.slice_congr fun i hi => hsame _ (Nat.add_lt_of_lt_sub' hi)
    have hs' : (s.within memory).buffer ≤ (s.within memory).bufferEnd := hs
    refine ⟨?_, ?_, ?_⟩
    · rw [readVarint64_eq hs, readVarint64_eq hs', hbytes, Option.map_map, Option.map_map]
      rfl
    · rw [readTag_eq hs, readTag_eq hs']
      exact (plainTag_congr memory hbytes).1
    · rw [readTag_eq hs, readTag_eq hs']
      exact (plainTag_congr memory hbytes).2

/-- A varint of two bytes with garbage behind it. -/
theorem fast_paths_agree_two :
    (CodedInputStream.new (Mem.ofList 7 [0x96, 0x01]) 2).readVarint64 =
      (CodedInputStream.new (Mem.ofList 7 [0x96, 0x01]) 2).readVarint64Slow :=
  (fast_paths_agree (.new (Mem.ofList 7 [0x96, 0x01]) 2) (by decide)).1

end Readers

/-! ## What is accepted -/

section Accepted

variable {data : Mem Byte} {size : Nat} {chat : Chat}

/-- Fields in the array are merged into an empty message, which is returned if
its `message` is set and the array ends legitimately. -/
theorem parse_of_fields {fields : UnknownFields} (h : Fields 100 fields (data.slice 0 size))
    (hend : Chat.LegitimateEnd size fields)
    (hset : (fields.foldl Chat.merge Chat.clear).hasMessage = true) :
    Chat.parseFromArray data size = some (fields.foldl Chat.merge Chat.clear) := by
  have hlen : (CodedInputStream.new data size).remaining.length <
      (CodedInputStream.new data size).bufferSize + 1 := by
    rw [length_remaining]
    exact Nat.lt_succ_self _
  obtain ⟨s', hloop, hlegit⟩ := Chat.mergeLoop_complete (s := .new data size)
    (Nat.zero_le _) hlen h Chat.clear
  have hentire : s'.consumedEntireMessage = true := hlegit hend
  rw [Chat.parseFromArray, Chat.mergePartialFromCodedStream, hloop]
  simp only [Chat.isInitialized, hset, hentire, Bool.and_self, if_true]

theorem fields_of_parse (h : Chat.parseFromArray data size = some chat) :
    ∃ fields, Fields 100 fields (data.slice 0 size) ∧ Chat.LegitimateEnd size fields ∧
      chat = fields.foldl Chat.merge Chat.clear ∧ chat.hasMessage = true := by
  rw [Chat.parseFromArray] at h
  cases hmerge : Chat.clear.mergePartialFromCodedStream (.new data size) with
  | none => rw [hmerge] at h; cases h
  | some r =>
      obtain ⟨chat', s'⟩ := r
      simp only [hmerge] at h
      split at h
      · next hall =>
        cases h
        obtain ⟨hset, hentire⟩ := Bool.and_eq_true_iff.mp hall
        obtain ⟨fields, hfields, hend, hchat⟩ := Chat.mergeLoop_sound
          (s := .new data size) (Nat.zero_le _) rfl hmerge hentire
        exact ⟨fields, hfields, hend, hchat, hset⟩
      · cases h

/-- `ParseFromArray` accepts an array exactly if it is an encoding of fields,
with groups at most 100 deep, one of which is a `message`, and ends within the
limit for all messages or with a `message`. The last `message` is the text, and
all other fields are kept in their order. -/
theorem parseFromArray_iff (data : Mem Byte) (size : Nat) (chat : Chat) :
    Chat.parseFromArray data size = some chat ↔
      ∃ fields, Fields 100 fields (data.slice 0 size) ∧ Chat.LegitimateEnd size fields ∧
        (fields.filterMap UnknownField.message).getLast? = some chat.message ∧
        chat.unknownFields = fields.filter (fun field => field.message.isNone) ∧
        chat.hasMessage = true := by
  constructor
  · intro h
    obtain ⟨fields, hfields, hend, rfl, hset⟩ := fields_of_parse h
    obtain ⟨hmessage, hhas, hunknown⟩ := Chat.foldl_merge fields Chat.clear
    refine ⟨fields, hfields, hend, ?_, hunknown, hset⟩
    have hsome := hhas.symm.trans hset
    rw [show Chat.clear.hasMessage = false from rfl, Bool.false_or] at hsome
    obtain ⟨value, hvalue⟩ := Option.isSome_iff_exists.mp hsome
    rw [hmessage, hvalue, Option.getD_some]
  · rintro ⟨fields, hfields, hend, hmessage, hunknown, hset⟩
    obtain ⟨hmessage', hhas', hunknown'⟩ := Chat.foldl_merge fields Chat.clear
    have hchat : fields.foldl Chat.merge Chat.clear = chat := by
      refine Chat.ext ?_ ?_ (hunknown'.trans hunknown.symm)
      · rw [hmessage', hmessage, Option.getD_some]
      · rw [hhas', hmessage, Option.isSome_some, Bool.or_true, hset]
    have hset' : (fields.foldl Chat.merge Chat.clear).hasMessage = true := by
      rw [hchat]
      exact hset
    rw [parse_of_fields hfields hend hset', hchat]

/-- Two accepted arrays make one that is accepted, with the text of the second
and the unknown fields of both, unless it is past the limit for all messages. -/
theorem parse_concat (first second : List Byte) (chat₁ chat₂ : Chat)
    (h₁ : Chat.parseFromArray (Mem.ofList 0 first) first.length = some chat₁)
    (h₂ : Chat.parseFromArray (Mem.ofList 0 second) second.length = some chat₂)
    (hlimit : first.length + second.length ≤ kDefaultTotalBytesLimit) :
    Chat.parseFromArray (Mem.ofList 0 (first ++ second)) (first ++ second).length =
      some ⟨chat₂.message, true, chat₁.unknownFields ++ chat₂.unknownFields⟩ := by
  obtain ⟨fields₁, hfields₁, _, _, hunknown₁, _⟩ := (parseFromArray_iff ..).mp h₁
  obtain ⟨fields₂, hfields₂, _, hmessage₂, hunknown₂, _⟩ := (parseFromArray_iff ..).mp h₂
  rw [parseFromArray_iff]
  refine ⟨fields₁ ++ fields₂, ?_, .inl ?_, ?_, ?_, rfl⟩
  · rw [Mem.slice_ofList] at hfields₁ hfields₂ ⊢
    exact FieldSeq.append hfields₁ hfields₂
  · rw [List.length_append]
    exact hlimit
  · rw [List.filterMap_append, List.getLast?_append, hmessage₂]
    rfl
  · rw [List.filter_append, hunknown₁, hunknown₂]

/-- The texts h and i, the first with an unknown number in field 2. -/
theorem parse_concat_hi :
    Chat.parseFromArray (Mem.ofList 0 ([10, 1, 104, 16, 5] ++ [10, 1, 105])) 8 =
      some ⟨[105], true, [.varint 2 5]⟩ :=
  parse_concat [10, 1, 104, 16, 5] [10, 1, 105] ⟨[104], true, [.varint 2 5]⟩ ⟨[105], true, []⟩
    (by rfl) (by rfl) (by decide)

end Accepted

/-! ## What is written -/

section Written

variable {data : Mem Byte} {size : Nat} {message : Text}

theorem isVarint_varint {n : Nat} (h : n < 2 ^ 32) : IsVarint (varint 5 n) n := by
  have hread := readVarint_varint (show n < 128 ^ (4 + 1) by omega) []
  rw [List.append_nil] at hread
  exact readVarint_mono hread 5

theorem isTag_ten : IsTag [10] 10 := ⟨10, rfl, rfl, by decide⟩

/-- A message is written as one field. -/
theorem fields_serialize (h : message.length < 2 ^ 31) :
    Fields 100 [.lengthDelimited 1 message] (chatClass.serialize message) := by
  have htype : getTagWireType 10 = some .lengthDelimited := by decide
  have hlen : message.length = (UInt32.ofNat message.length).toNat := by
    rw [UInt32.toNat_ofNat']
    omega
  have hbytes : chatClass.serialize message =
      [10] ++ ((varint 5 message.length ++ message) ++ []) := by
    rw [serialize_eq (by omega), List.append_nil]
    rfl
  have hbody : Body (Inner 100) 10 (.lengthDelimited 1 message)
      (varint 5 message.length ++ message) :=
    .lengthDelimited htype (isVarint_varint (by omega)) hlen h
  rw [hbytes, fields_eq]
  exact .cons isTag_ten hbody .nil

theorem length_serialize (h : message.length < 2 ^ 31) :
    (chatClass.serialize message).length = 1 + varintSize32 message.length + message.length := by
  rw [serialize_eq (by omega), List.length_cons, List.length_append, length_varint5 h]
  omega

/-- What was written is parsed to the message alone. -/
theorem parse_serialized (h : message.length < 2 ^ 31)
    (hdata : data.slice 0 size = chatClass.serialize message) :
    Chat.parseFromArray data size = some ⟨message, true, []⟩ := by
  rw [parseFromArray_iff, hdata]
  exact ⟨_, fields_serialize h, .inr ⟨_, rfl, rfl⟩, rfl, rfl, rfl⟩

/-- The generated class is as the sessions assume it. -/
theorem chatClass_lawful : chatClass.Lawful where
  parse_serialize m hm := by
    show (Chat.parseFromArray _ _).map Chat.message = some m
    rw [parse_serialized hm (Mem.slice_ofList ..)]
    rfl
  byteSize m hm := length_serialize hm

/-- A message of less than 2 GB is written as `ByteSize()` counts it, in the
bytes of the wire format, and is read back from any array that holds them:
the text, and no unknown field. -/
theorem chat_round_trip (message : Text) (data : Mem Byte) (size : Nat)
    (hlen : message.length + 6 < 2 ^ 31)
    (hdata : data.slice 0 size = chatClass.serialize message) :
    chatClass.serialize message = chatWire.serialize message ∧
      size = 1 + varintSize32 message.length + message.length ∧
      Chat.parseFromArray data size = some ⟨message, true, []⟩ := by
  have hsize := congrArg List.length hdata
  rw [Mem.length_slice, length_serialize (by omega)] at hsize
  exact ⟨serialize_eq (by omega), hsize, parse_serialized (by omega) hdata⟩

/-- The text hi, with other bytes in memory behind the message. -/
theorem chat_round_trip_hi :
    Chat.parseFromArray (Mem.ofList 255 [10, 2, 104, 105]) 4 = some ⟨[104, 105], true, []⟩ :=
  (chat_round_trip [104, 105] (Mem.ofList 255 [10, 2, 104, 105]) 4 (by decide) (by decide)).2.2

/-- The first field of an array that starts with tag 10 is a string. -/
theorem first_of_ten {inner : UnknownFields → List Byte → Prop} {fields : UnknownFields}
    {bytes w : List Byte} (h : FieldSeq inner fields bytes) (hbytes : bytes = 10 :: w) :
    ∃ lb value rest n, w = lb ++ (value ++ rest) ∧ IsVarint lb n ∧
      value.length = (UInt32.ofNat n).toNat := by
  cases h with
  | nil => cases hbytes
  | @cons tb body rest tag field fields htag hbody hrest =>
      obtain ⟨n, hn, rfl, _⟩ := htag
      have hread := hn.read (body ++ rest)
      have hten : (10 : Byte).toNat < 128 := by decide
      rw [hbytes, readVarint_cons_of_lt hten] at hread
      cases hread
      have htype : getTagWireType (UInt32.ofNat (10 : Byte).toNat) = some .lengthDelimited := by
        decide
      cases hbody with
      | varint h _ => rw [htype] at h; cases h
      | fixed64 h _ => rw [htype] at h; cases h
      | @lengthDelimited lb value n _ hlength hlen _ =>
          exact ⟨lb, value, rest, n, List.append_assoc .., hlength, hlen⟩
      | group h _ _ => rw [htype] at h; cases h
      | fixed32 h _ => rw [htype] at h; cases h

/-- A message that was cut anywhere is not accepted. -/
theorem cut_message_refused (message : Text) (data : Mem Byte) (size k : Nat)
    (hlen : message.length + 6 < 2 ^ 31)
    (hdata : data.slice 0 size = chatClass.serialize message) (hk : k < size) :
    Chat.parseFromArray data k = none := by
  rw [Option.eq_none_iff_forall_ne_some]
  intro chat hparse
  obtain ⟨fields, hfields, _, hmessage, _⟩ := (parseFromArray_iff ..).mp hparse
  have hsize := congrArg List.length hdata
  rw [Mem.length_slice, length_serialize (by omega)] at hsize
  have hbytes : data.slice 0 k = (10 :: (varint 5 message.length ++ message)).take k := by
    rw [← serialize_eq (by omega), ← hdata, Mem.take_slice _ (by omega)]
  cases k with
  | zero =>
      -- nothing is left of it, and `message` is not set
      rw [fields_eq] at hfields
      rw [hfields.nil_iff.mp rfl] at hmessage
      cases hmessage
  | succ k =>
      rw [List.take_succ_cons] at hbytes
      rw [fields_eq] at hfields
      obtain ⟨lb, value, rest, n, hw, hn, hvalue⟩ := first_of_ten hfields hbytes
      have hwhole : lb ++ (value ++ (rest ++ (varint 5 message.length ++ message).drop k)) =
          varint 5 message.length ++ message := by
        rw [← List.append_assoc value, ← List.append_assoc lb, ← hw, List.take_append_drop]
      have hread := hn.read (value ++ (rest ++ (varint 5 message.length ++ message).drop k))
      rw [hwhole, (isVarint_varint (by omega)).read] at hread
      obtain ⟨rfl, htext⟩ := Prod.mk.inj (Option.some.inj hread)
      have htotal := congrArg List.length htext
      rw [UInt32.toNat_ofNat', Nat.mod_eq_of_lt (by omega)] at hvalue
      rw [List.length_append, List.length_append, List.length_drop, List.length_append,
        length_varint5 (by omega), hvalue] at htotal
      omega

/-- The message hi without its last byte. -/
theorem cut_message_refused_hi : Chat.parseFromArray (Mem.ofList 255 [10, 2, 104, 105]) 3 = none :=
  cut_message_refused [104, 105] (Mem.ofList 255 [10, 2, 104, 105]) 4 3 (by decide) (by decide)
    (by decide)

end Written

end ServerStudy.Theorems.ChatFormat
