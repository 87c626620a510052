import ServerStudy.EcoClient.Input
import ServerStudy.Logic.Faults
import Mathlib.Data.List.TakeWhile

/-!
# Typed bytes and the lines they give

`typed` are the messages a client makes of its standard input. A `Console` is
the client and the server with that input in bytes; its runs are runs of the
system whose client is given the messages (`lines_of_reachable`).
-/

namespace ServerStudy

open ServerStudy.Core

/-! ## One reading -/

theorem length_fgetsLine_le (k : Nat) (stream : List Byte) : (fgetsLine k stream).length ≤ k := by
  induction k generalizing stream with
  | zero => exact Nat.le_refl _
  | succ k ih =>
      rcases stream with _ | ⟨c, stream⟩
      · exact Nat.zero_le _
      · rw [fgetsLine]
        split
        · exact Nat.succ_le_succ (Nat.zero_le k)
        · exact Nat.succ_le_succ (ih stream)

/-- A line without a line feed inside: all of it if there is room for its end,
the first `k` characters otherwise. -/
theorem fgetsLine_line {line : List Byte} (hline : (10 : Byte) ∉ line) (k : Nat)
    (rest : List Byte) :
    fgetsLine k (line ++ 10 :: rest) =
      if line.length < k then line ++ [10] else line.take k := by
  induction line generalizing k with
  | nil => cases k <;> rfl
  | cons c line ih =>
      obtain ⟨hc, hline⟩ := List.ne_and_not_mem_of_not_mem_cons hline
      rcases k with _ | k
      · rfl
      · rw [List.cons_append, fgetsLine, if_neg (Ne.symm hc), ih hline]
        simp only [List.length_cons, Nat.succ_lt_succ_iff]
        split <;> rfl

/-- What is left at the end of the input, without a line feed. -/
theorem fgetsLine_last {line : List Byte} (hline : (10 : Byte) ∉ line) {k : Nat}
    (hk : line.length ≤ k) : fgetsLine k line = line := by
  induction line generalizing k with
  | nil => cases k <;> rfl
  | cons c line ih =>
      obtain ⟨hc, hline⟩ := List.ne_and_not_mem_of_not_mem_cons hline
      rcases k with _ | k
      · cases hk
      · rw [fgetsLine, if_neg (Ne.symm hc), ih hline (Nat.succ_le_succ_iff.mp hk)]

/-- What `fgets` takes is the beginning of the stream, with a line feed at most at
its end; it goes up to a line feed, or to the end of the stream, or is full. -/
theorem fgetsLine_cut (k : Nat) (stream : List Byte) :
    ∃ rest, stream = fgetsLine k stream ++ rest ∧ (10 : Byte) ∉ (fgetsLine k stream).dropLast ∧
      ((fgetsLine k stream).getLast? = some 10 ∨ (fgetsLine k stream).length = k ∨ rest = []) := by
  induction k generalizing stream with
  | zero => exact ⟨stream, rfl, List.not_mem_nil, .inr (.inl rfl)⟩
  | succ k ih =>
      rcases stream with _ | ⟨c, stream⟩
      · exact ⟨[], rfl, List.not_mem_nil, .inr (.inr rfl)⟩
      by_cases hc : c = 10
      · rw [fgetsLine, if_pos hc, hc]
        exact ⟨stream, rfl, List.not_mem_nil, .inl rfl⟩
      obtain ⟨rest, hrest, hfeed, hend⟩ := ih stream
      rw [fgetsLine, if_neg hc]
      refine ⟨rest, congrArg (c :: ·) hrest, ?_, ?_⟩
      · rcases hline : fgetsLine k stream with _ | ⟨d, line⟩
        · exact List.not_mem_nil
        · rw [hline] at hfeed
          exact List.not_mem_cons_of_ne_of_not_mem (Ne.symm hc) hfeed
      · rcases hend with hlast | hfull | hnone
        · rw [List.getLast?_cons, hlast]
          exact .inl rfl
        · exact .inr (.inl (congrArg (· + 1) hfull))
        · exact .inr (.inr hnone)

theorem cString_eq_self {s : List Byte} (h : (0 : Byte) ∉ s) : cString s = s := by
  refine List.takeWhile_eq_self_iff.mpr fun c hc => ?_
  have hne : c ≠ 0 := fun h0 => h (h0 ▸ hc)
  simpa using hne

theorem cString_of_not_mem {s : List Byte} (h : (0 : Byte) ∉ s) (t : List Byte) :
    cString (s ++ 0 :: t) = s := by
  have hself : s.takeWhile (· ≠ 0) = s := cString_eq_self h
  rw [cString, List.takeWhile_append, if_pos (congrArg List.length hself),
    List.takeWhile_cons_of_neg (by simp), List.append_nil]

theorem length_cString_le (s t : List Byte) : (cString (s ++ 0 :: t)).length ≤ s.length := by
  rw [cString, List.takeWhile_append]
  split
  · rw [List.takeWhile_cons_of_neg (by simp), List.append_nil]
  · exact (List.takeWhile_prefix _).length_le

theorem zero_not_mem_cString (s : List Byte) : (0 : Byte) ∉ cString s := by
  intro h
  have hne := List.mem_takeWhile_imp h
  simp at hne

theorem cString_append_zeros (s : List Byte) {k : Nat} (hk : 0 < k) :
    cString (s ++ List.replicate k 0) = cString s := by
  obtain ⟨k, rfl⟩ := Nat.exists_eq_succ_of_ne_zero (by omega : k ≠ 0)
  rw [cString, List.takeWhile_append]
  split
  · rename_i hall
    rw [List.replicate_succ, List.takeWhile_cons_of_neg (by simp), List.append_nil]
    exact (List.takeWhile_prefix _).eq_of_length hall |>.symm
  · rfl

/-- One character less. -/
theorem cString_set {data s : List Byte} (hs : cString data = s) (hne : s ≠ []) :
    cString (data.set (s.length - 1) 0) = s.dropLast := by
  obtain ⟨rest, hrest⟩ : s <+: data := hs ▸ List.takeWhile_prefix _
  have hpos : 0 < s.length := List.length_pos_iff.mpr hne
  have hset : data.set (s.length - 1) 0 = s.dropLast ++ 0 :: rest := by
    rw [← hrest, List.set_append_left _ _ (by omega), List.dropLast_eq_take,
      List.set_eq_take_append_cons_drop, if_pos (by omega), Nat.sub_add_cancel hpos,
      List.drop_length, List.append_assoc]
    rfl
  rw [hset]
  exact cString_of_not_mem
    (fun hmem => zero_not_mem_cString data (hs ▸ List.mem_of_mem_dropLast hmem)) _

/-- A reading takes one line and cuts it twice: at its first zero, and its last
character. -/
theorem readLine_eq {stream line : List Byte} (h : stream ≠ [])
    (hline : fgetsLine 65534 stream = line) :
    readLine stream =
      if cString line = [] then .outOfRange
      else .line (cString line).dropLast (stream.drop line.length) := by
  have hlen : line.length ≤ 65534 := hline ▸ length_fgetsLine_le 65534 stream
  obtain ⟨data, hdata⟩ : ∃ data, data = line ++ List.replicate (maxBufSize - line.length) 0 :=
    ⟨_, rfl⟩
  have hstring : cString data = cString line := by
    rw [hdata]
    exact cString_append_zeros _ (by rw [maxBufSize]; omega)
  have hsize : data.length = 65535 := by
    rw [hdata, List.length_append, List.length_replicate, maxBufSize]
    omega
  have hshort : (cString line).length ≤ line.length := (List.takeWhile_prefix _).length_le
  have hread : readLine stream =
      if ((cString data).length + (2 ^ 32 - 1)) % 2 ^ 32 < data.length then
        .line (cString (data.set (((cString data).length + (2 ^ 32 - 1)) % 2 ^ 32) 0))
          (stream.drop line.length)
      else .outOfRange := by
    rw [hdata, ← hline, readLine, fgets, if_neg h]
    rfl
  rw [hread, hstring, hsize]
  by_cases hempty : cString line = []
  · rw [if_pos hempty, hempty]
    rfl
  · have hpos : 0 < (cString line).length := List.length_pos_iff.mpr hempty
    have hwrap : ((cString line).length + (2 ^ 32 - 1)) % 2 ^ 32 = (cString line).length - 1 := by
      omega
    rw [if_neg hempty, hwrap, if_pos (by omega), cString_set hstring hempty]

theorem readLine_nil : readLine [] = .again := rfl

/-- A reading that gives a line has taken at least one character. -/
theorem readLine_shrinks {stream rest : List Byte} {message : Text}
    (h : readLine stream = .line message rest) : rest.length < stream.length := by
  have hne : stream ≠ [] := by
    rintro rfl
    cases h
  rw [readLine_eq hne rfl] at h
  split at h
  · cases h
  · cases h
    have hfirst : fgetsLine 65534 stream ≠ [] := by
      obtain ⟨c, stream, rfl⟩ := List.exists_cons_of_ne_nil hne
      show (if c = 10 then [c] else c :: fgetsLine 65533 stream) ≠ []
      split <;> exact List.cons_ne_nil _ _
    have := List.length_pos_iff.mpr hfirst
    have := List.length_pos_iff.mpr hne
    rw [List.length_drop]
    omega

/-! ## The whole input -/

/-- The messages of an input, and whether reading it ends in the exception. -/
def typed (stream : List Byte) : List Text × Bool :=
  match h : readLine stream with
  | .again => ([], false)
  | .outOfRange => ([], true)
  | .line message rest =>
      have := readLine_shrinks h
      (message :: (typed rest).1, (typed rest).2)
termination_by stream.length

theorem typed_again {stream : List Byte} (h : readLine stream = .again) :
    typed stream = ([], false) := by
  rw [typed]
  split <;> rename_i hread <;> rw [h] at hread <;> cases hread

theorem typed_outOfRange {stream : List Byte} (h : readLine stream = .outOfRange) :
    typed stream = ([], true) := by
  rw [typed]
  split <;> rename_i hread <;> rw [h] at hread <;> cases hread

theorem typed_line {stream rest : List Byte} {message : Text}
    (h : readLine stream = .line message rest) :
    typed stream = (message :: (typed rest).1, (typed rest).2) := by
  rw [typed]
  split <;> rename_i hread <;> rw [h] at hread <;> cases hread
  rfl

/-- A line that comes through: short enough for its line feed to be read with
it, and without a zero. -/
def Typable (line : Text) : Prop := line.length ≤ 65533 ∧ (0 : Byte) ∉ line

instance (line : Text) : Decidable (Typable line) := inferInstanceAs (Decidable (_ ∧ _))

/-- Lines as they are typed. -/
def keys (lines : List Text) : List Byte := lines.flatMap (· ++ [10])

theorem keys_cons (line : Text) (lines : List Text) :
    keys (line :: lines) = line ++ 10 :: keys lines := by
  rw [keys, List.flatMap_cons, List.append_assoc]
  rfl

theorem readLine_typable {line : Text} (hfeed : (10 : Byte) ∉ line) (h : Typable line)
    (rest : List Byte) : readLine (line ++ 10 :: rest) = .line line rest := by
  have hread : fgetsLine 65534 (line ++ 10 :: rest) = line ++ [10] := by
    rw [fgetsLine_line hfeed, if_pos (by have := h.1; omega)]
  have hstring : cString (line ++ [10]) = line ++ [10] :=
    cString_eq_self (List.not_mem_append h.2 (by decide))
  have hne : line ++ [10] ≠ [] := List.concat_ne_nil _ _
  rw [readLine_eq (by simp) hread, hstring, if_neg hne, List.dropLast_concat]
  refine congrArg (Reading.line line) ?_
  have hjoin : line ++ 10 :: rest = (line ++ [10]) ++ rest := List.append_cons ..
  rw [hjoin, List.drop_left]

theorem readLine_keys {line : Text} (hfeed : (10 : Byte) ∉ line) (h : Typable line)
    (lines : List Text) : readLine (keys (line :: lines)) = .line line (keys lines) := by
  rw [keys_cons]
  exact readLine_typable hfeed h _

/-- Of any other line something is lost. -/
theorem readLine_not_typable {line : Text} (hfeed : (10 : Byte) ∉ line) (h : ¬ Typable line)
    (rest : List Byte) : readLine (line ++ 10 :: rest) = .outOfRange ∨
      ∃ message rest', readLine (line ++ 10 :: rest) = .line message rest' ∧
        message.length < line.length := by
  have hread := fgetsLine_line hfeed 65534 rest
  have hshort : (cString (fgetsLine 65534 (line ++ 10 :: rest))).length ≤ line.length := by
    by_cases hlong : line.length < 65534
    · -- the zero is in front of the line feed
      have hzero : (0 : Byte) ∈ line := by
        by_contra hno
        exact h ⟨by omega, hno⟩
      rw [hread, if_pos hlong]
      obtain ⟨before, after, rfl⟩ := List.append_of_mem hzero
      rw [List.append_assoc, List.cons_append, List.length_append]
      exact le_trans (length_cString_le before _) (Nat.le_add_right ..)
    · rw [hread, if_neg hlong]
      refine le_trans (List.takeWhile_prefix _).length_le ?_
      rw [List.length_take]
      omega
  rw [readLine_eq (by simp) rfl]
  split
  · exact Or.inl rfl
  · rename_i hne
    refine Or.inr ⟨_, _, rfl, ?_⟩
    have := List.length_pos_iff.mpr hne
    rw [List.length_dropLast]
    omega

/-- Lines that come through, and then whatever follows. -/
theorem typed_keys_append {lines : List Text} (hfeed : ∀ line ∈ lines, (10 : Byte) ∉ line)
    (h : ∀ line ∈ lines, Typable line) (rest : List Byte) :
    typed (keys lines ++ rest) = (lines ++ (typed rest).1, (typed rest).2) := by
  induction lines with
  | nil => rfl
  | cons line lines ih =>
      obtain ⟨hfeed₀, hfeed⟩ := List.forall_mem_cons.mp hfeed
      obtain ⟨h₀, h⟩ := List.forall_mem_cons.mp h
      rw [keys_cons, List.append_assoc, List.cons_append,
        typed_line (readLine_typable hfeed₀ h₀ _), ih hfeed h]
      rfl

/-- The messages are the lines exactly when all of them come through. -/
theorem typed_keys_eq_iff {lines : List Text} (hfeed : ∀ line ∈ lines, (10 : Byte) ∉ line) :
    (typed (keys lines)).1 = lines ↔ ∀ line ∈ lines, Typable line := by
  constructor
  · intro heq
    induction lines with
    | nil => exact fun _ h => absurd h List.not_mem_nil
    | cons line lines ih =>
        obtain ⟨hfeed₀, hfeed⟩ := List.forall_mem_cons.mp hfeed
        rw [keys_cons] at heq
        by_cases hgood : Typable line
        · rw [typed_line (readLine_typable hfeed₀ hgood _)] at heq
          exact List.forall_mem_cons.mpr ⟨hgood, ih hfeed (List.cons.inj heq).2⟩
        -- a line that does not come through differs in its place
        · exfalso
          rcases readLine_not_typable hfeed₀ hgood (keys lines) with hthrown | ⟨m, rest, hread, hlt⟩
          · rw [typed_outOfRange hthrown] at heq
            cases heq
          · rw [typed_line hread] at heq
            rw [(List.cons.inj heq).1] at hlt
            exact absurd hlt (Nat.lt_irrefl _)
  · intro h
    have := typed_keys_append hfeed h []
    rw [List.append_nil, typed_again readLine_nil] at this
    rw [this, List.append_nil]

/-- A last line without a line feed loses its last character. -/
theorem typed_unfinished {line : Text} (hfeed : (10 : Byte) ∉ line) (hzero : (0 : Byte) ∉ line)
    (hne : line ≠ []) (hlen : line.length ≤ 65534) : typed line = ([line.dropLast], false) := by
  have hstring : cString line = line := cString_eq_self hzero
  have hread : readLine line = .line line.dropLast [] := by
    rw [readLine_eq hne (fgetsLine_last hfeed hlen), hstring, if_neg hne, List.drop_length]
  rw [typed_line hread, typed_again readLine_nil]

/-- Without a zero every reading loses one character and no more. -/
theorem readLine_nonzero {stream : List Byte} (hne : stream ≠ []) (hzero : (0 : Byte) ∉ stream) :
    ∃ piece rest, stream = piece ++ rest ∧ readLine stream = .line piece.dropLast rest ∧
      piece ≠ [] ∧ piece.length ≤ 65534 ∧ (10 : Byte) ∉ piece.dropLast ∧
      (piece.getLast? = some 10 ∨ piece.length = 65534 ∨ rest = []) := by
  obtain ⟨rest, hcut, hfeed, hend⟩ := fgetsLine_cut 65534 stream
  have hlen := length_fgetsLine_le 65534 stream
  have hread := readLine_eq hne rfl
  revert hcut hfeed hend hlen hread
  generalize fgetsLine 65534 stream = piece
  intro hcut hfeed hend hlen hread
  have hstring : cString piece = piece :=
    cString_eq_self fun hmem => hzero (hcut ▸ List.mem_append_left _ hmem)
  have hpiece : piece ≠ [] := by
    rintro rfl
    rcases hend with hlast | hfull | hnone
    · cases hlast
    · cases hfull
    · exact hne (hcut.trans hnone)
  rw [hstring, if_neg hpiece] at hread
  refine ⟨piece, rest, hcut, ?_, hpiece, hlen, hfeed, hend⟩
  rw [hread, hcut, List.drop_left]

/-- An input without a zero is cut into pieces, and each gives a message. -/
inductive Pieces : List Byte → List (List Byte) → Prop
  | nil : Pieces [] []
  | cons {rest : List Byte} {pieces : List (List Byte)} (piece : List Byte) (hne : piece ≠ [])
      (hlen : piece.length ≤ 65534) (hfeed : (10 : Byte) ∉ piece.dropLast)
      (hend : piece.getLast? = some 10 ∨ piece.length = 65534 ∨ rest = [])
      (hrest : Pieces rest pieces) : Pieces (piece ++ rest) (piece :: pieces)

theorem Pieces.flatten {stream : List Byte} {pieces : List (List Byte)} (h : Pieces stream pieces) :
    pieces.flatten = stream := by
  induction h with
  | nil => rfl
  | cons piece _ _ _ _ _ ih => rw [List.flatten_cons, ih]

theorem Pieces.each {stream : List Byte} {pieces : List (List Byte)} (h : Pieces stream pieces) :
    ∀ piece ∈ pieces, piece ≠ [] ∧ piece.length ≤ 65534 ∧ (10 : Byte) ∉ piece.dropLast := by
  induction h with
  | nil => exact fun _ h => absurd h List.not_mem_nil
  | cons piece hne hlen hfeed _ _ ih => exact List.forall_mem_cons.mpr ⟨⟨hne, hlen, hfeed⟩, ih⟩

/-- Only the last piece may end early. -/
theorem Pieces.ends {stream : List Byte} {pieces : List (List Byte)} (h : Pieces stream pieces) :
    ∀ before piece after, pieces = before ++ piece :: after → after ≠ [] →
      piece.getLast? = some 10 ∨ piece.length = 65534 := by
  induction h with
  | nil =>
      rintro (_ | ⟨_, _⟩) piece after heq _ <;> cases heq
  | cons first _ _ _ hend hrest ih =>
      rintro (_ | ⟨_, before⟩) piece after heq hafter
      · cases heq
        rcases hend with hfeed | hfull | hnone
        · exact .inl hfeed
        · exact .inr hfull
        · cases hrest with
          | nil => exact absurd rfl hafter
          | cons next hne _ _ _ _ => exact absurd (List.append_eq_nil_iff.mp hnone).1 hne
      · cases heq
        exact ih before piece after rfl hafter

/-- The messages of an input without a zero: its pieces without their last characters. -/
theorem typed_pieces {stream : List Byte} (hzero : (0 : Byte) ∉ stream) :
    ∃ pieces, Pieces stream pieces ∧ typed stream = (pieces.map List.dropLast, false) := by
  induction stream using typed.induct with
  | case1 stream h =>
      by_cases hne : stream = []
      · exact ⟨[], hne ▸ .nil, typed_again h⟩
      · obtain ⟨_, _, _, hread, _⟩ := readLine_nonzero hne hzero
        cases h.symm.trans hread
  | case2 stream h =>
      have hne : stream ≠ [] := by
        rintro rfl
        cases h
      obtain ⟨_, _, _, hread, _⟩ := readLine_nonzero hne hzero
      cases h.symm.trans hread
  | case3 stream message rest h _ ih =>
      have hne : stream ≠ [] := by
        rintro rfl
        cases h
      obtain ⟨piece, rest', hcut, hread, hpiece, hlen, hfeed, hend⟩ := readLine_nonzero hne hzero
      cases h.symm.trans hread
      have hzero' : (0 : Byte) ∉ rest := fun hmem =>
        hzero (hcut ▸ List.mem_append_right _ hmem)
      obtain ⟨pieces, hpieces, htyped⟩ := ih hzero'
      refine ⟨piece :: pieces, hcut ▸ .cons piece hpiece hlen hfeed hend hpieces, ?_⟩
      rw [typed_line h, htyped]
      rfl

/-- A message is what is left of a line: short, and without a zero. -/
theorem typed_short (stream : List Byte) :
    ∀ message ∈ (typed stream).1, message.length < 65535 ∧ (0 : Byte) ∉ message := by
  induction stream using typed.induct with
  | case1 stream h =>
      rw [typed_again h]
      exact fun _ h => absurd h List.not_mem_nil
  | case2 stream h =>
      rw [typed_outOfRange h]
      exact fun _ h => absurd h List.not_mem_nil
  | case3 stream message rest h _ ih =>
      rw [typed_line h]
      refine List.forall_mem_cons.mpr ⟨?_, ih⟩
      have hne : stream ≠ [] := by
        rintro rfl
        cases h
      have hlen := length_fgetsLine_le 65534 stream
      have hstring :=
        (List.takeWhile_prefix (· ≠ (0 : Byte)) (l := fgetsLine 65534 stream)).length_le
      rw [readLine_eq hne rfl] at h
      split at h <;> cases h
      refine ⟨?_, fun hmem => zero_not_mem_cString _ (List.mem_of_mem_dropLast hmem)⟩
      rw [List.length_dropLast, cString]
      omega

/-! ## The client at its console -/

/-- The two parties, and the client's input in bytes. The lines of the client
itself are not used. -/
structure Console where
  echo : Echo
  stdin : List Byte
  /-- The client has ended by the exception. -/
  thrown : Bool

namespace Console

/-- One step: a line is read, the reading throws, or anything else. At the end
of its input the client goes round its loop without a step that shows. -/
inductive Step (codec : ChatCodec) (faults : Fault → Prop) : Console → Console → Prop
  | line (c : Console) (message : Text) (rest : List Byte)
      (hpoint : c.echo.client.point = .input) (halive : c.thrown = false)
      (hread : readLine c.stdin = .line message rest) :
      Step codec faults c
        { c with
          echo := { c.echo with client := c.echo.client.input codec message [] }
          stdin := rest }
  | throws (c : Console) (hpoint : c.echo.client.point = .input)
      (hread : readLine c.stdin = .outOfRange) : Step codec faults c { c with thrown := true }
  | moves (c : Console) {s : Echo} (hstep : Echo.FaultyStep codec faults c.echo s) :
      Step codec faults c { c with echo := s }

/-- A connected client before some input, and a new server. -/
structure Start (stdin : List Byte) (c : Console) : Prop where
  echo : Echo.Connected [] c.echo
  stdin : c.stdin = stdin
  alive : c.thrown = false

/-- The system for an input. -/
def system (codec : ChatCodec) (faults : Fault → Prop) (stdin : List Byte) : TSys Console where
  init := Start stdin
  step := Step codec faults

/-- What is still to be read, as lines. -/
def lines (c : Console) : List Text := if c.thrown then [] else (typed c.stdin).1

end Console

/-- The client with other lines to come. -/
def EcoClient.withLines (c : EcoClient) (lines : List Text) : EcoClient := { c with stdin := lines }

/-- The same state with the lines to come. -/
def Console.abs (c : Console) : Echo :=
  { c.echo with client := c.echo.client.withLines c.lines }

/-! The client's code does not look at the lines to come. -/

section WithLines

variable (codec : ChatCodec) (c : EcoClient) (lines : List Text)

theorem setPacket_withLines (message : Text) :
    (c.withLines lines).setPacket codec message =
      (c.setPacket codec message).withLines lines := by
  rcases hset : c.sendBuffer.setPacket (codec.packet message) with ⟨_ | _, sb⟩ <;>
    simp only [EcoClient.setPacket, EcoClient.withLines, hset]

theorem recv_withLines (chunk : List Byte) :
    (c.withLines lines).recv chunk = (c.recv chunk).withLines lines := by
  rcases happend : c.recvBuffer.appendBuffer (some (Mem.ofList 0 chunk))
    (UInt16.ofNat chunk.length) with ⟨_ | _, rb⟩ <;>
    simp only [EcoClient.recv, EcoClient.withLines, happend]

theorem take_withLines :
    (c.withLines lines).take codec = (c.take codec).withLines lines := by
  rcases hparse : codec.parseFromArray c.recvBuffer.payload with _ | message
  · simp only [EcoClient.take, EcoClient.withLines, hparse]
  · have htake : ∀ c' : EcoClient, c'.recvBuffer = c.recvBuffer → c'.take codec =
        EcoClient.setPacket codec
          { c' with recvBuffer := c.recvBuffer.consumePacket, parsed := c'.parsed ++ [message] }
          message := by
      intro c' hrecv
      rw [EcoClient.take, hrecv, hparse]
    rw [htake _ rfl, htake (c.withLines lines) rfl, ← setPacket_withLines]
    rfl

end WithLines

/-- No step but that of the input needs a line. -/
theorem Echo.FaultyStep.withLines {codec : ChatCodec} {faults : Fault → Prop} {s s' : Echo}
    (hnone : s.client.stdin = []) (hstep : FaultyStep codec faults s s') :
    s'.client.stdin = [] ∧ ∀ lines,
      FaultyStep codec faults { s with client := s.client.withLines lines }
        { s' with client := s'.client.withLines lines } := by
  cases hstep with
  | moves hmove =>
      cases hmove with
      | clientInput line rest hpoint hline => cases hnone.symm.trans hline
      | clientSend hpoint => exact ⟨hnone, fun _ => .moves (.clientSend _ hpoint)⟩
      | clientRecv chunk more hpoint hchannel hne hsize =>
          have hsame := recv_withLines s.client s.client.stdin chunk
          refine ⟨(congrArg EcoClient.stdin hsame).trans hnone, fun lines => ?_⟩
          rw [← recv_withLines]
          exact .moves (.clientRecv _ chunk more hpoint hchannel hne hsize)
      | clientTake hpoint =>
          have hsame := take_withLines codec s.client s.client.stdin
          refine ⟨(congrArg EcoClient.stdin hsame).trans hnone, fun lines => ?_⟩
          rw [← take_withLines]
          exact .moves (.clientTake _ hpoint)
      | serverRecv chunk more hpoint hchannel hne hsize =>
          exact ⟨hnone, fun _ => .moves (.serverRecv _ chunk more hpoint hchannel hne hsize)⟩
      | serverHandle hpoint => exact ⟨hnone, fun _ => .moves (.serverHandle _ hpoint)⟩
      | serverSend hpoint => exact ⟨hnone, fun _ => .moves (.serverSend _ hpoint)⟩
  | clientSendFails hfault hpoint =>
      exact ⟨hnone, fun _ => .clientSendFails _ hfault hpoint⟩
  | clientRecvFails hfault hpoint =>
      exact ⟨hnone, fun _ => .clientRecvFails _ hfault hpoint⟩
  | serverSendFails hfault hpoint =>
      exact ⟨hnone, fun _ => .serverSendFails _ hfault hpoint⟩

namespace Console

variable {codec : ChatCodec} {faults : Fault → Prop} {stdin : List Byte} {c c' : Console}

theorem stdin_nil (h : (system codec faults stdin).Reachable c) : c.echo.client.stdin = [] := by
  refine h.invariant (fun c => c.echo.client.stdin = []) (fun c hstart => ?_)
    fun c c' hc hstep => ?_
  · obtain ⟨_, _, hclient⟩ := hstart.echo.client
    rw [hclient]
    rfl
  · cases hstep with
    | line message rest hpoint halive hread =>
        exact congrArg EcoClient.stdin
          (setPacket_withLines codec { c.echo.client with stdin := [] } [] message)
    | throws hpoint hread => exact hc
    | moves hmove => exact (hmove.withLines hc).1

/-- A step at the console is a step with the lines, or does not show there. -/
theorem step_abs (h : (system codec faults stdin).Reachable c) (hstep : Step codec faults c c') :
    Echo.FaultyStep codec faults c.abs c'.abs ∨ c'.abs = c.abs := by
  cases hstep with
  | line message rest hpoint halive hread =>
      have hlines : c.lines = message :: (typed rest).1 := by
        rw [lines, halive, if_neg Bool.false_ne_true, typed_line hread]
      have hrest : lines { c with
          echo := { c.echo with client := c.echo.client.input codec message [] }
          stdin := rest } = (typed rest).1 := by
        rw [lines]
        exact if_neg (by rw [halive]; exact Bool.false_ne_true)
      have hsame := setPacket_withLines codec { c.echo.client with stdin := [] }
        (typed rest).1 message
      refine Or.inl ?_
      rw [abs, abs, hrest, hlines]
      show Echo.FaultyStep codec faults _ { c.echo with
        client := (EcoClient.setPacket codec { c.echo.client with stdin := [] } message).withLines
          (typed rest).1 }
      rw [← hsame]
      exact .moves (.clientInput _ message (typed rest).1 hpoint rfl)
  | throws hpoint hread =>
      have hlines : c.lines = [] := by
        rw [lines, typed_outOfRange hread]
        exact ite_self _
      exact Or.inr (by rw [abs, abs, hlines]; rfl)
  | moves hmove => exact Or.inl ((hmove.withLines (stdin_nil h)).2 c.lines)

/-- Every run at the console is a run with the lines that were typed. -/
theorem lines_of_reachable (h : (system codec faults stdin).Reachable c) :
    (Echo.faultySystem codec faults (typed stdin).1).Reachable c.abs := by
  refine h.simulates Console.abs (fun c hstart => ?_) fun c c' hc hstep => step_abs hc hstep
  obtain ⟨sendPast, recvPast, hclient⟩ := hstart.echo.client
  have hlines : c.lines = (typed stdin).1 := by
    rw [lines, hstart.alive, if_neg Bool.false_ne_true, hstart.stdin]
  refine ⟨⟨sendPast, recvPast, ?_⟩, fun message hm => (typed_short stdin message hm).1,
    hstart.echo.server, hstart.echo.upstream, hstart.echo.downstream⟩
  rw [abs, hlines, hclient]
  rfl

/-- An input of lines that come through is read line by line. -/
theorem keys_of_reachable {lines : List Text} (hfeed : ∀ line ∈ lines, (10 : Byte) ∉ line)
    (htypable : ∀ line ∈ lines, Typable line)
    (h : (system codec faults (keys lines)).Reachable c) :
    c.thrown = false ∧ ∃ before rest, lines = before ++ rest ∧ c.stdin = keys rest := by
  refine h.invariant (fun c => c.thrown = false ∧ ∃ before rest, lines = before ++ rest ∧
    c.stdin = keys rest) (fun c (hstart : Start (keys lines) c) =>
      ⟨hstart.alive, [], lines, rfl, hstart.stdin⟩) fun c c' hc hstep => ?_
  obtain ⟨halive, before, rest, hlines, hstdin⟩ := hc
  -- the next line, if there is one, comes through
  have hnext : c.stdin = [] ∨ ∃ line rest', rest = line :: rest' ∧
      readLine c.stdin = .line line (keys rest') := by
    rcases rest with _ | ⟨line, rest⟩
    · exact .inl hstdin
    · have hmem : line ∈ lines := hlines ▸ List.mem_append_right _ List.mem_cons_self
      exact .inr ⟨line, rest, rfl,
        hstdin ▸ readLine_keys (hfeed line hmem) (htypable line hmem) rest⟩
  cases hstep with
  | line message left hpoint _ hread =>
      rcases hnext with hnil | ⟨line, rest', rfl, hline⟩
      · rw [hnil] at hread
        cases hread
      · cases hread.symm.trans hline
        exact ⟨halive, before ++ [message], rest', hlines.trans (List.append_cons ..), rfl⟩
  | throws hpoint hread =>
      rcases hnext with hnil | ⟨line, rest', _, hline⟩
      · rw [hnil] at hread
        cases hread
      · cases hread.symm.trans hline
  | moves hmove => exact ⟨halive, before, rest, hlines, hstdin⟩

end Console

end ServerStudy
