import ServerStudy.Logic.CodedInput
import ServerStudy.Protobuf.WireFormat

/-!
# The wire format and `SkipField`

`Fields depth fields bytes`: the bytes are the encoding of the fields, with
groups nested at most `depth` deep. A number may be written longer than it need
be, in up to ten bytes, and what does not fit its type is dropped, so that one
list of fields has many encodings.

`SkipField` and `SkipMessage` read such bytes and no others: from what they
return the fields can be read off (`skipField_sound`), and fields that are there
are returned (`skipField_complete`).
-/

namespace ServerStudy.Protobuf

open ServerStudy.Core CodedInputStream

/-! ## The format -/

/-- The bytes of a number. -/
def IsVarint (bytes : List Byte) (n : Nat) : Prop := readVarint 10 bytes = some (n, [])

/-- The bytes of a tag, which is a number of 32 bits and not 0. -/
def IsTag (bytes : List Byte) (tag : UInt32) : Prop :=
  ∃ n, IsVarint bytes n ∧ tag = UInt32.ofNat n ∧ tag ≠ 0

/-- One field behind its tag, where `inner` is the format of a group's
fields. -/
inductive Body (inner : UnknownFields → List Byte → Prop) (tag : UInt32) :
    UnknownField → List Byte → Prop
  | varint {vb : List Byte} {n : Nat} (htype : getTagWireType tag = some .varint)
      (hvalue : IsVarint vb n) :
      Body inner tag (.varint (getTagFieldNumber tag) (UInt64.ofNat n)) vb
  | fixed64 {bytes : List Byte} (htype : getTagWireType tag = some .fixed64)
      (hlen : bytes.length = 8) :
      Body inner tag (.fixed64 (getTagFieldNumber tag) (UInt64.ofNat (ofLe bytes))) bytes
  | lengthDelimited {lb value : List Byte} {n : Nat}
      (htype : getTagWireType tag = some .lengthDelimited) (hlength : IsVarint lb n)
      (hlen : value.length = (UInt32.ofNat n).toNat) (hint : value.length < 2 ^ 31) :
      Body inner tag (.lengthDelimited (getTagFieldNumber tag) value) (lb ++ value)
  | group {fields : UnknownFields} {content eb : List Byte}
      (htype : getTagWireType tag = some .startGroup) (hinner : inner fields content)
      (hend : IsTag eb (makeTag (getTagFieldNumber tag) .endGroup)) :
      Body inner tag (.group (getTagFieldNumber tag) fields) (content ++ eb)
  | fixed32 {bytes : List Byte} (htype : getTagWireType tag = some .fixed32)
      (hlen : bytes.length = 4) :
      Body inner tag (.fixed32 (getTagFieldNumber tag) (UInt32.ofNat (ofLe bytes))) bytes

/-- One field after the other, each behind its tag. -/
inductive FieldSeq (inner : UnknownFields → List Byte → Prop) : UnknownFields → List Byte → Prop
  | nil : FieldSeq inner [] []
  | cons {tb body rest : List Byte} {tag : UInt32} {field : UnknownField}
      {fields : UnknownFields} (htag : IsTag tb tag) (hbody : Body inner tag field body)
      (hrest : FieldSeq inner fields rest) :
      FieldSeq inner (field :: fields) (tb ++ (body ++ rest))

/-- The fields of a message whose groups are nested at most `depth` deep. -/
def Fields : (depth : Nat) → UnknownFields → List Byte → Prop
  | 0 => FieldSeq fun _ _ => False
  | depth + 1 => FieldSeq (Fields depth)

/-- The format inside a group. -/
def Inner : (depth : Nat) → UnknownFields → List Byte → Prop
  | 0 => fun _ _ => False
  | depth + 1 => Fields depth

theorem fields_eq (depth : Nat) : Fields depth = FieldSeq (Inner depth) := by
  cases depth with
  | zero => rfl
  | succ depth => rfl

/-! ## Tags -/

/-- The type of a tag that was made is read back. -/
theorem getTagWireType_makeTag (number : UInt32) (type : WireType) :
    getTagWireType (makeTag number type) = some type := by
  have hseven : (7 : UInt32).toNat = 2 ^ 3 - 1 := rfl
  have hbits : kTagTypeBits.toNat = 3 := rfl
  have hlow : (makeTag number type &&& 7).toNat = type.value.toNat % 8 := by
    rw [makeTag, UInt32.toNat_and, hseven, Nat.and_two_pow_sub_one_eq_mod, UInt32.toNat_or,
      Nat.or_mod_two_pow, UInt32.toNat_shiftLeft, hbits, Nat.shiftLeft_eq]
    have hzero : number.toNat * 2 ^ (3 % 32) % 2 ^ 32 % 2 ^ 3 = 0 := by
      show number.toNat * 8 % 2 ^ 32 % 2 ^ 3 = 0
      omega
    rw [hzero, Nat.zero_or]
  rw [getTagWireType, hlow]
  cases type with
  | varint => rfl
  | fixed64 => rfl
  | lengthDelimited => rfl
  | startGroup => rfl
  | endGroup => rfl
  | fixed32 => rfl

theorem endTag_ne_zero (number : UInt32) : makeTag number .endGroup ≠ 0 := by
  intro hzero
  have htype := getTagWireType_makeTag number .endGroup
  rw [hzero] at htype
  cases htype

/-! ## Reading numbers and tags -/

theorem IsVarint.read {vb : List Byte} {n : Nat} (h : IsVarint vb n) (rest : List Byte) :
    readVarint 10 (vb ++ rest) = some (n, rest) := readVarint_append h rest

theorem IsVarint.length_pos {vb : List Byte} {n : Nat} (h : IsVarint vb n) : 0 < vb.length := by
  cases vb with
  | nil => cases h
  | cons b vb => exact Nat.succ_pos _

theorem IsTag.length_pos {tb : List Byte} {tag : UInt32} (h : IsTag tb tag) : 0 < tb.length := by
  obtain ⟨n, hn, _⟩ := h
  exact hn.length_pos

theorem isVarint_of_read {u rest : List Byte} {n : Nat} (h : readVarint 10 u = some (n, rest)) :
    ∃ vb, u = vb ++ rest ∧ IsVarint vb n := by
  obtain ⟨vb, hu, _, _, hread⟩ := readVarint_split h
  refine ⟨vb, hu, ?_⟩
  have hall := hread []
  rw [List.append_nil] at hall
  exact hall

/-! ## Fields in a row -/

/-- No fields take no bytes, and some fields take some. -/
theorem FieldSeq.nil_iff {inner : UnknownFields → List Byte → Prop} {fields : UnknownFields}
    {bytes : List Byte} (h : FieldSeq inner fields bytes) : bytes = [] ↔ fields = [] := by
  cases h with
  | nil => exact ⟨fun _ => rfl, fun _ => rfl⟩
  | cons htag _ _ =>
      have hpos := htag.length_pos
      constructor
      · intro hnil
        rw [(List.append_eq_nil_iff.mp hnil).1] at hpos
        exact absurd hpos (Nat.lt_irrefl _)
      · intro hnil
        cases hnil

/-- One array of fields behind another. -/
theorem FieldSeq.append {inner : UnknownFields → List Byte → Prop} {fields more : UnknownFields}
    {bytes rest : List Byte} (h : FieldSeq inner fields bytes) (hrest : FieldSeq inner more rest) :
    FieldSeq inner (fields ++ more) (bytes ++ rest) := by
  induction h with
  | nil => exact hrest
  | @cons tb body tail tag field fields htag hbody _ ih =>
      rw [List.append_assoc, List.append_assoc, List.cons_append]
      exact .cons htag hbody ih

namespace CodedInputStream

variable {s : CodedInputStream}

/-- The stream where these bytes are left and this was the last tag. -/
def after (s : CodedInputStream) (rest : List Byte) (tag : UInt32) : CodedInputStream :=
  { s.seek rest with lastTag := tag }

@[simp] theorem after_lastTag (rest : List Byte) (tag : UInt32) :
    (s.after rest tag).lastTag = tag := rfl

theorem after_within (rest : List Byte) (tag : UInt32) :
    (s.after rest tag).buffer ≤ (s.after rest tag).bufferEnd := Nat.sub_le ..

theorem remaining_after (hs : s.buffer ≤ s.bufferEnd) {front rest : List Byte} (tag : UInt32)
    (h : s.remaining = front ++ rest) : (s.after rest tag).remaining = rest := by
  have hsuffix : rest <:+ s.remaining := by
    rw [h]
    exact List.suffix_append ..
  show (s.seek rest).remaining = rest
  exact remaining_seek hs hsuffix

/-- A stream that moved on without a tag. -/
theorem not_at_end (hs : s.buffer ≤ s.bufferEnd) {front rest : List Byte}
    (h : s.remaining = front ++ rest) (hfront : 0 < front.length) : s.buffer ≠ s.bufferEnd := by
  intro hend
  rw [(remaining_eq_nil_iff hs).mpr hend] at h
  rw [(List.append_eq_nil_iff.mp h.symm).1] at hfront
  exact absurd hfront (Nat.lt_irrefl _)

/-- A tag that is there is read. -/
theorem plainTag_complete (hs : s.buffer ≤ s.bufferEnd) {tb rest : List Byte} {tag : UInt32}
    (h : s.remaining = tb ++ rest) (htag : IsTag tb tag) :
    noted s.plainTag = (tag, s.after rest tag) := by
  obtain ⟨n, hn, rfl, _⟩ := htag
  rw [plainTag, if_neg (not_at_end hs h hn.length_pos), h, hn.read]
  rfl

/-- A tag that is read and not 0 is there. -/
theorem plainTag_sound {tag : UInt32} {s' : CodedInputStream} (hne : tag ≠ 0)
    (h : noted s.plainTag = (tag, s')) :
    ∃ tb rest, s.remaining = tb ++ rest ∧ IsTag tb tag ∧ s' = s.after rest tag := by
  rw [plainTag] at h
  by_cases hend : s.buffer = s.bufferEnd
  · rw [if_pos hend] at h
    cases h
    exact absurd rfl hne
  · rw [if_neg hend] at h
    cases hread : readVarint 10 s.remaining with
    | none =>
        rw [hread] at h
        cases h
        exact absurd rfl hne
    | some r =>
        obtain ⟨n, rest⟩ := r
        rw [hread] at h
        cases h
        obtain ⟨tb, htb, hn⟩ := isVarint_of_read hread
        exact ⟨tb, rest, htb, ⟨n, hn, rfl, hne⟩, rfl⟩

end CodedInputStream

/-! ## What `SkipField` accepts -/

section Sound

variable {s s' : CodedInputStream} {tag : UInt32} {field : UnknownField} {fields : UnknownFields}

/-- How many more groups may be entered. -/
def levels (s : CodedInputStream) : Nat := defaultRecursionLimit - s.recursionDepth

/-- The fields of a group were read, and its end tag. -/
def ReadGroup (s : CodedInputStream) (fields : UnknownFields) (s' : CodedInputStream) : Prop :=
  ∃ content eb rest tag, s.remaining = content ++ (eb ++ rest) ∧ Fields (levels s) fields content ∧
    IsTag eb tag ∧ s' = s.after rest tag

/-- The field was read. -/
def ReadBody (s : CodedInputStream) (tag : UInt32) (field : UnknownField)
    (s' : CodedInputStream) : Prop :=
  ∃ body rest last, s.remaining = body ++ rest ∧ Body (Inner (levels s)) tag field body ∧
    s' = s.after rest last

theorem readVarint64_sound (hs : s.buffer ≤ s.bufferEnd) {value : UInt64}
    (h : s.readVarint64 = some (value, s')) :
    ∃ vb n rest, s.remaining = vb ++ rest ∧ IsVarint vb n ∧ value = UInt64.ofNat n ∧
      s' = s.after rest s.lastTag := by
  rw [readVarint64_eq hs, Option.map_eq_some_iff] at h
  obtain ⟨⟨n, rest⟩, hread, heq⟩ := h
  cases heq
  obtain ⟨vb, hvb, hn⟩ := isVarint_of_read hread
  exact ⟨vb, n, rest, hvb, hn, rfl, rfl⟩

theorem readVarint32_sound (hs : s.buffer ≤ s.bufferEnd) {value : UInt32}
    (h : s.readVarint32 = some (value, s')) :
    ∃ vb n rest, s.remaining = vb ++ rest ∧ IsVarint vb n ∧ value = UInt32.ofNat n ∧
      s' = s.after rest s.lastTag := by
  rw [readVarint32_eq hs, Option.map_eq_some_iff] at h
  obtain ⟨⟨n, rest⟩, hread, heq⟩ := h
  cases heq
  obtain ⟨vb, hvb, hn⟩ := isVarint_of_read hread
  exact ⟨vb, n, rest, hvb, hn, rfl, rfl⟩

theorem readString_sound (hs : s.buffer ≤ s.bufferEnd) {size : UInt32} {value : List Byte}
    (h : s.readString size = some (value, s')) :
    ∃ rest, s.remaining = value ++ rest ∧ value.length = size.toNat ∧ value.length < 2 ^ 31 ∧
      s' = s.after rest s.lastTag := by
  rw [readString_eq hs] at h
  split at h
  · next hfits =>
    cases h
    have hlen : (s.remaining.take size.toNat).length = size.toNat := by
      rw [List.length_take, Nat.min_eq_left hfits.2]
    exact ⟨s.remaining.drop size.toNat, (List.take_append_drop ..).symm, hlen,
      hlen.trans_lt hfits.1, rfl⟩
  · cases h

/-- The stream inside a group. -/
def deeper (s : CodedInputStream) : CodedInputStream :=
  { s with recursionDepth := s.recursionDepth + 1 }

theorem incrementRecursionDepth_eq (s : CodedInputStream) :
    s.incrementRecursionDepth = (decide (0 < levels s), deeper s) := by
  rw [incrementRecursionDepth, levels]
  congr 1
  exact decide_eq_decide.mpr (by show s.recursionDepth + 1 ≤ _ ↔ _; omega)

/-- Inside a group there is one level less. -/
theorem inner_of_pos (h : 0 < levels s) :
    Inner (levels s) = Fields (levels (deeper s)) := by
  have hlevels : levels s = levels (deeper s) + 1 := by
    have hdepth : (deeper s).recursionDepth = s.recursionDepth + 1 := rfl
    unfold levels at *
    omega
  rw [hlevels]
  rfl

@[simp] theorem decrement_lastTag (s : CodedInputStream) :
    s.decrementRecursionDepth.lastTag = s.lastTag := by
  unfold decrementRecursionDepth
  split
  · rfl
  · rfl

/-- The depth is as before the group. -/
theorem decrement_after (s : CodedInputStream) (rest : List Byte) (last : UInt32) :
    ((deeper s).after rest last).decrementRecursionDepth = s.after rest last := by
  rw [decrementRecursionDepth]
  exact if_pos (Nat.succ_pos s.recursionDepth)

theorem skipFieldWith_sound {skip : CodedInputStream → Option (UnknownFields × CodedInputStream)}
    (hskip : ∀ s fields s', s.buffer ≤ s.bufferEnd → skip s = some (fields, s') →
      s'.lastTag ≠ 0 → ReadGroup s fields s')
    (hs : s.buffer ≤ s.bufferEnd) (h : skipFieldWith skip s tag = some (field, s')) :
    ReadBody s tag field s' := by
  cases htype : getTagWireType tag with
  | none =>
      rw [skipFieldWith, htype] at h
      cases h
  | some type =>
      rw [skipFieldWith, htype] at h
      cases type with
      | varint =>
          cases hread : s.readVarint64 with
          | none => rw [hread] at h; cases h
          | some r =>
              obtain ⟨value, s₁⟩ := r
              rw [hread] at h
              cases h
              obtain ⟨vb, n, rest, hvb, hn, rfl, rfl⟩ := readVarint64_sound hs hread
              exact ⟨vb, rest, _, hvb, .varint htype hn, rfl⟩
      | fixed64 =>
          have hread := readLittleEndian64_eq hs
          by_cases hlen : 8 ≤ s.remaining.length
          · rw [if_pos hlen] at hread
            rw [hread] at h
            cases h
            exact ⟨s.remaining.take 8, s.remaining.drop 8, _, (List.take_append_drop ..).symm,
              .fixed64 htype (by rw [List.length_take, Nat.min_eq_left hlen]), rfl⟩
          · rw [if_neg hlen] at hread
            rw [hread] at h
            cases h
      | lengthDelimited =>
          cases hread : s.readVarint32 with
          | none => rw [hread] at h; cases h
          | some r =>
              obtain ⟨length, s₁⟩ := r
              obtain ⟨lb, n, rest, hlb, hn, rfl, rfl⟩ := readVarint32_sound hs hread
              rw [hread] at h
              cases hvalue : (s.after rest s.lastTag).readString (UInt32.ofNat n) with
              | none => simp only [hvalue] at h; cases h
              | some r =>
                  obtain ⟨value, s₂⟩ := r
                  simp only [hvalue] at h
                  cases h
                  obtain ⟨rest', hrest, hlen, hint, rfl⟩ :=
                    readString_sound (after_within ..) hvalue
                  rw [remaining_after hs _ hlb] at hrest
                  refine ⟨lb ++ value, rest', _, ?_, .lengthDelimited htype hn hlen hint, rfl⟩
                  rw [hlb, hrest, List.append_assoc]
      | startGroup =>
          rw [incrementRecursionDepth_eq] at h
          by_cases hlevels : 0 < levels s
          · rw [decide_eq_true hlevels] at h
            cases hfields : skip (deeper s) with
            | none => simp only [hfields] at h; cases h
            | some r =>
                obtain ⟨inner, s₁⟩ := r
                simp only [hfields] at h
                split at h
                · next hlast =>
                  cases h
                  have hlast : s₁.decrementRecursionDepth.lastTag = _ := of_decide_eq_true hlast
                  rw [decrement_lastTag] at hlast
                  obtain ⟨content, eb, rest, end', hbytes, hinner, hend, rfl⟩ :=
                    hskip (deeper s) _ _ hs hfields (by rw [hlast]; exact endTag_ne_zero _)
                  have hend' : end' = makeTag (getTagFieldNumber tag) .endGroup := hlast
                  rw [hend'] at hend
                  refine ⟨content ++ eb, rest, end', ?_, .group htype ?_ hend, ?_⟩
                  · rw [List.append_assoc]
                    exact hbytes
                  · rw [inner_of_pos hlevels]
                    exact hinner
                  · exact decrement_after ..
                · cases h
          · rw [decide_eq_false hlevels] at h
            cases h
      | endGroup => cases h
      | fixed32 =>
          have hread := readLittleEndian32_eq hs
          by_cases hlen : 4 ≤ s.remaining.length
          · rw [if_pos hlen] at hread
            rw [hread] at h
            cases h
            exact ⟨s.remaining.take 4, s.remaining.drop 4, _, (List.take_append_drop ..).symm,
              .fixed32 htype (by rw [List.length_take, Nat.min_eq_left hlen]), rfl⟩
          · rw [if_neg hlen] at hread
            rw [hread] at h
            cases h

theorem skipMessage_sound {fuel : Nat} (hs : s.buffer ≤ s.bufferEnd)
    (h : skipMessage fuel s = some (fields, s')) (hlast : s'.lastTag ≠ 0) :
    ReadGroup s fields s' := by
  induction fuel generalizing s fields s' with
  | zero => cases h
  | succ fuel ih =>
      rw [skipMessage, readTag_eq hs] at h
      obtain ⟨⟨tag, s₁⟩, htag⟩ : ∃ r, noted s.plainTag = r := ⟨_, rfl⟩
      have hlast₁ : s₁.lastTag = tag := by
        rw [noted] at htag
        cases htag
        rfl
      rw [htag] at h
      by_cases hzero : tag = 0
      · simp only [if_pos hzero] at h
        cases h
        exact absurd (hlast₁.trans hzero) hlast
      · obtain ⟨tb, rest, hbytes, hist, rfl⟩ := plainTag_sound hzero htag
        simp only [if_neg hzero] at h
        by_cases hend : getTagWireType tag = some .endGroup
        · rw [if_pos hend] at h
          cases h
          refine ⟨[], tb, rest, tag, hbytes, ?_, hist, rfl⟩
          rw [fields_eq]
          exact .nil
        · rw [if_neg hend] at h
          have hwithin : (s.after rest tag).buffer ≤ (s.after rest tag).bufferEnd :=
            after_within ..
          have hrest := remaining_after hs tag hbytes
          cases hfield : skipFieldWith (skipMessage fuel) (s.after rest tag) tag with
          | none => rw [hfield] at h; cases h
          | some r =>
              obtain ⟨field, s₂⟩ := r
              rw [hfield] at h
              obtain ⟨body, rest₂, last, hbody, hformat, rfl⟩ :=
                skipFieldWith_sound (fun _ _ _ hs h hlast => ih hs h hlast) hwithin hfield
              cases hmore : skipMessage fuel ((s.after rest tag).after rest₂ last) with
              | none => simp only [hmore] at h; cases h
              | some r =>
                  obtain ⟨fields', s₃⟩ := r
                  simp only [hmore] at h
                  cases h
                  obtain ⟨content, eb, rest₃, end', hcontent, hfields, hend', rfl⟩ :=
                    ih (after_within ..) hmore hlast
                  rw [remaining_after hwithin last hbody] at hcontent
                  rw [hrest] at hbody
                  refine ⟨tb ++ (body ++ content), eb, rest₃, end', ?_, ?_, hend', rfl⟩
                  · rw [hbytes, hbody, hcontent]
                    simp only [List.append_assoc]
                  · rw [fields_eq] at hfields ⊢
                    exact .cons hist hformat hfields

theorem skipField_sound (hs : s.buffer ≤ s.bufferEnd)
    (h : skipField s tag = some (field, s')) : ReadBody s tag field s' :=
  skipFieldWith_sound (fun _ _ _ hs h hlast => skipMessage_sound hs h hlast) hs h

end Sound

/-! ## What `SkipField` must accept -/

section Complete

variable {s : CodedInputStream} {tag : UInt32} {field : UnknownField} {fields : UnknownFields}

theorem readVarint64_complete (hs : s.buffer ≤ s.bufferEnd) {vb rest : List Byte} {n : Nat}
    (h : s.remaining = vb ++ rest) (hn : IsVarint vb n) :
    s.readVarint64 = some (UInt64.ofNat n, s.after rest s.lastTag) := by
  rw [readVarint64_eq hs, h, hn.read]
  rfl

theorem readVarint32_complete (hs : s.buffer ≤ s.bufferEnd) {vb rest : List Byte} {n : Nat}
    (h : s.remaining = vb ++ rest) (hn : IsVarint vb n) :
    s.readVarint32 = some (UInt32.ofNat n, s.after rest s.lastTag) := by
  rw [readVarint32_eq hs, h, hn.read]
  rfl

theorem readString_complete (hs : s.buffer ≤ s.bufferEnd) {size : UInt32}
    {value rest : List Byte} (h : s.remaining = value ++ rest) (hlen : value.length = size.toNat)
    (hint : value.length < 2 ^ 31) :
    s.readString size = some (value, s.after rest s.lastTag) := by
  have hfits : size.toNat < 2 ^ 31 ∧ size.toNat ≤ s.remaining.length := by
    rw [h, List.length_append, ← hlen]
    exact ⟨hint, Nat.le_add_right ..⟩
  rw [readString_eq hs, if_pos hfits, h, ← hlen, List.take_left, List.drop_left]
  rfl

theorem skipFieldWith_complete
    {skip : CodedInputStream → Option (UnknownFields × CodedInputStream)} {body rest : List Byte}
    (hskip : ∀ (s : CodedInputStream) fields content eb rest tag, s.buffer ≤ s.bufferEnd →
      content.length ≤ body.length → Fields (levels s) fields content →
      s.remaining = content ++ (eb ++ rest) → IsTag eb tag →
      getTagWireType tag = some .endGroup → skip s = some (fields, s.after rest tag))
    (hs : s.buffer ≤ s.bufferEnd) (hbytes : s.remaining = body ++ rest)
    (h : Body (Inner (levels s)) tag field body) :
    ∃ last, skipFieldWith skip s tag = some (field, s.after rest last) := by
  cases h with
  | varint htype hvalue =>
      refine ⟨s.lastTag, ?_⟩
      rw [skipFieldWith, htype]
      simp only [readVarint64_complete hs hbytes hvalue]
  | fixed64 htype hlen =>
      have hle : 8 ≤ s.remaining.length := by
        rw [hbytes, List.length_append]
        omega
      refine ⟨s.lastTag, ?_⟩
      rw [skipFieldWith, htype]
      simp only [readLittleEndian64_eq hs, if_pos hle]
      rw [hbytes, List.take_left' hlen, List.drop_left' hlen]
      rfl
  | @lengthDelimited lb value n htype hlength hlen hint =>
      have hlb : s.remaining = lb ++ (value ++ rest) := by
        rw [hbytes, List.append_assoc]
      have hvalue := readString_complete (after_within ..) (remaining_after hs s.lastTag hlb)
        hlen hint
      refine ⟨s.lastTag, ?_⟩
      rw [skipFieldWith, htype]
      simp only [readVarint32_complete hs hlb hlength, hvalue]
      rfl
  | @group inner content eb htype hinner hend =>
      have hlevels : 0 < levels s := by
        refine Nat.pos_of_ne_zero fun hzero => ?_
        rw [hzero] at hinner
        exact hinner
      have hcontent : (deeper s).remaining = content ++ (eb ++ rest) := by
        rw [← List.append_assoc]
        exact hbytes
      rw [inner_of_pos hlevels] at hinner
      have hfields := hskip (deeper s) inner content eb rest _ hs (by simp) hinner hcontent hend
        (getTagWireType_makeTag _ _)
      refine ⟨makeTag (getTagFieldNumber tag) .endGroup, ?_⟩
      rw [skipFieldWith, htype, incrementRecursionDepth_eq, decide_eq_true hlevels]
      simp only [hfields, decrement_after, lastTagWas, after_lastTag, decide_true, if_true]
  | fixed32 htype hlen =>
      have hle : 4 ≤ s.remaining.length := by
        rw [hbytes, List.length_append]
        omega
      refine ⟨s.lastTag, ?_⟩
      rw [skipFieldWith, htype]
      simp only [readLittleEndian32_eq hs, if_pos hle]
      rw [hbytes, List.take_left' hlen, List.drop_left' hlen]
      rfl

/-- A field's tag is not an end tag. -/
theorem Body.not_endGroup {inner : UnknownFields → List Byte → Prop} {body : List Byte}
    (h : Body inner tag field body) : getTagWireType tag ≠ some .endGroup := by
  intro hend
  cases h with
  | varint htype _ => rw [htype] at hend; cases hend
  | fixed64 htype _ => rw [htype] at hend; cases hend
  | lengthDelimited htype _ _ _ => rw [htype] at hend; cases hend
  | group htype _ _ => rw [htype] at hend; cases hend
  | fixed32 htype _ => rw [htype] at hend; cases hend

theorem IsTag.ne_zero {tb : List Byte} (h : IsTag tb tag) : tag ≠ 0 := by
  obtain ⟨n, _, _, hne⟩ := h
  exact hne

theorem skipMessage_complete {fuel : Nat} {content eb rest : List Byte}
    (hs : s.buffer ≤ s.bufferEnd) (hfuel : content.length < fuel)
    (h : Fields (levels s) fields content) (hbytes : s.remaining = content ++ (eb ++ rest))
    (htag : IsTag eb tag) (hend : getTagWireType tag = some .endGroup) :
    skipMessage fuel s = some (fields, s.after rest tag) := by
  induction fuel generalizing s fields content eb rest tag with
  | zero => exact absurd hfuel (Nat.not_lt_zero _)
  | succ fuel ih =>
      rw [fields_eq] at h
      rw [skipMessage, readTag_eq hs]
      cases h with
      | nil =>
          have hfront : s.remaining = eb ++ rest := hbytes
          rw [plainTag_complete hs hfront htag]
          simp only [if_neg htag.ne_zero, if_pos hend]
      | @cons tb body more first field fields hfirst hbody hmore =>
          have hfront : s.remaining = tb ++ (body ++ (more ++ (eb ++ rest))) := by
            rw [hbytes]
            simp only [List.append_assoc]
          have hpos := hfirst.length_pos
          rw [List.length_append, List.length_append] at hfuel
          have hwithin : (s.after (body ++ (more ++ (eb ++ rest))) first).buffer ≤
              (s.after (body ++ (more ++ (eb ++ rest))) first).bufferEnd := after_within ..
          have hrest := remaining_after hs first hfront
          obtain ⟨last, hfield⟩ := skipFieldWith_complete
            (fun s fields content eb rest tag hs hlen hfields hbytes htag hend =>
              ih hs (by omega) hfields hbytes htag hend) hwithin hrest hbody
          have htail := ih (after_within ..) (by omega) (fields_eq _ ▸ hmore)
            (remaining_after hwithin last hrest) htag hend
          rw [plainTag_complete hs hfront hfirst]
          simp only [if_neg hfirst.ne_zero, if_neg hbody.not_endGroup, hfield, htail]
          rfl

theorem skipField_complete {body rest : List Byte} (hs : s.buffer ≤ s.bufferEnd)
    (hbytes : s.remaining = body ++ rest) (h : Body (Inner (levels s)) tag field body) :
    ∃ last, skipField s tag = some (field, s.after rest last) := by
  have hlen := congrArg List.length hbytes
  rw [length_remaining, List.length_append] at hlen
  exact skipFieldWith_complete
    (fun s fields content eb rest tag hs hlen hfields hbytes htag hend =>
      skipMessage_complete hs (by omega) hfields hbytes htag hend) hs hbytes h

end Complete

end ServerStudy.Protobuf
