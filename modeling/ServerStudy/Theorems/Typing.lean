import ServerStudy.Logic.Input
import ServerStudy.Theorems.Delivery

/-!
# From the keyboard to the replies

Which lines come through `fgets` and the cut of the last character
(`typed_comes_through`), what an input without a zero gives (`pieces_typed`),
and the two parties with the bytes typed at the one end and the messages parsed
at the other (`keys_to_replies`).
-/

namespace ServerStudy.Theorems.Typing

open ServerStudy.Core Echo
open Delivery (sendsFail hoStart account_of_reachable)

variable {codec : ChatCodec} {faults : Fault → Prop}

/-! ## Lines -/

/-- Lines of any length: the client sends exactly these if and only if each is
short enough for one `fgets` and has no zero. A last line without its line feed
loses a character, and nothing else is lost. -/
theorem typed_comes_through {lines : List Text} (hfeed : ∀ line ∈ lines, (10 : Byte) ∉ line) :
    ((typed (keys lines)).1 = lines ↔
      ∀ line ∈ lines, line.length ≤ 65533 ∧ (0 : Byte) ∉ line) ∧
    ((∀ line ∈ lines, line.length ≤ 65533 ∧ (0 : Byte) ∉ line) →
      ∀ last : Text, (10 : Byte) ∉ last → (0 : Byte) ∉ last → last ≠ [] → last.length ≤ 65534 →
        typed (keys lines ++ last) = (lines ++ [last.dropLast], false)) := by
  refine ⟨typed_keys_eq_iff hfeed, fun htypable last hlast hzero hne hlen => ?_⟩
  rw [typed_keys_append hfeed htypable, typed_unfinished hlast hzero hne hlen]

theorem hi_comes_through :
    ((typed (keys [[104, 105], []])).1 = [[104, 105], []] ↔
      ∀ line ∈ [[104, 105], []], line.length ≤ 65533 ∧ (0 : Byte) ∉ line) ∧
    typed (keys [[104, 105], []] ++ [104, 111]) = ([[104, 105], [], [104]], false) := by
  have hfeed : ∀ line ∈ ([[104, 105], []] : List Text), (10 : Byte) ∉ line := by decide
  obtain ⟨hlines, hlast⟩ := typed_comes_through hfeed
  exact ⟨hlines, hlast (by decide) [104, 111] (by decide) (by decide) (by decide) (by decide)⟩

/-- Any input without a zero is read without the exception, in pieces that end
at a line feed, or after 65534 characters, or with the input; every message is
its piece without the last character, whatever that is. -/
theorem pieces_typed {stream : List Byte} (hzero : (0 : Byte) ∉ stream) :
    ∃ pieces : List (List Byte), pieces.flatten = stream ∧
      typed stream = (pieces.map List.dropLast, false) ∧
      (∀ piece ∈ pieces, piece ≠ [] ∧ piece.length ≤ 65534 ∧ (10 : Byte) ∉ piece.dropLast) ∧
      ∀ before piece after, pieces = before ++ piece :: after → after ≠ [] →
        piece.getLast? = some 10 ∨ piece.length = 65534 := by
  obtain ⟨pieces, hpieces, htyped⟩ := typed_pieces hzero
  exact ⟨pieces, hpieces.flatten, htyped, hpieces.each, hpieces.ends⟩

theorem hi_pieces : ∃ pieces : List (List Byte), pieces.flatten = [104, 105, 10, 104, 111] ∧
    typed [104, 105, 10, 104, 111] = (pieces.map List.dropLast, false) ∧
    (∀ piece ∈ pieces, piece ≠ [] ∧ piece.length ≤ 65534 ∧ (10 : Byte) ∉ piece.dropLast) ∧
    ∀ before piece after, pieces = before ++ piece :: after → after ≠ [] →
      piece.getLast? = some 10 ∨ piece.length = 65534 :=
  pieces_typed (by decide)

/-! ## A run at the console -/

/-- A client at whose console hi and ho have been typed, and a new server. -/
def hiTyped : Console where
  echo := { hoStart with client := .new [] (fun _ => 0) (fun _ => 0) }
  stdin := keys [[104, 105], [104, 111]]
  thrown := false

/-- The client's `send` of hi has failed, and ho has been read. -/
def hoRead : Console where
  echo := { hiTyped.echo with
    client := (hiTyped.echo.client.input chatWire [104, 105] []).sendFailed.input chatWire
      [104, 111] [] }
  stdin := keys []
  thrown := false

/-- The server has a reply to hi. -/
def hiAnswered : Console :=
  { hoRead with
    echo := { hoRead.echo with
      client := hoRead.echo.client.send
      server := (hoRead.echo.server.recv [8, 0, 0, 0, 10, 2, 104, 105]).handle chatWire } }

theorem hiAnswered_reachable :
    (Console.system chatWire sendsFail (keys [[104, 105], [104, 111]])).Reachable hiAnswered := by
  have hstart : (Console.system chatWire sendsFail (keys [[104, 105], [104, 111]])).Reachable
      hiTyped := .init ⟨⟨⟨_, _, rfl⟩, by decide, ⟨_, _, _, rfl⟩, rfl, rfl⟩, rfl, rfl⟩
  have hhi := hstart.step (.line hiTyped [104, 105] (keys [[104, 111]]) rfl rfl
    (readLine_keys (by decide) (by decide) _))
  have hfailed := hhi.step
    (.moves _ (.clientSendFails _ Fault.noConfusion (by decide +kernel)))
  have hho := hfailed.step (.line _ [104, 111] (keys []) rfl rfl
    (readLine_keys (by decide) (by decide) _))
  have hsent := hho.step (.moves hoRead (.moves (.clientSend _ (by decide +kernel))))
  have hreceived := hsent.step (.moves _ (.moves (.serverRecv _ [8, 0, 0, 0, 10, 2, 104, 105] []
    (by decide +kernel) (by decide +kernel) (by decide) (by decide))))
  exact hreceived.step (.moves _ (.moves (.serverHandle _ (by decide +kernel))))

/-- In every run of the two parties with a console on which short lines are
typed, whichever calls fail, as long as nothing is refused and every message
fits a frame: the exception is not thrown; the bytes that have been read are
the lines sent, and the others stay; the requests are those lines and the
replies parsed, merged; and the client has parsed the first replies, which are
the first requests numbered. -/
theorem keys_to_replies (hcodec : codec.Lawful) {lines : List Text} {c : Console}
    (hfeed : ∀ line ∈ lines, (10 : Byte) ∉ line)
    (htypable : ∀ line ∈ lines, line.length ≤ 65533 ∧ (0 : Byte) ∉ line)
    (h : (Console.system codec faults (keys lines)).Reachable c)
    (hbounded : ∀ packet ∈ c.echo.client.built ++ c.echo.server.built, packet.byteSize ≤ 65531)
    (hclient : c.echo.client.refused = 0) (hserver : c.echo.server.refused = 0) :
    c.thrown = false ∧ ∃ sent rest requests replies,
      lines = sent ++ rest ∧ c.stdin = keys rest ∧
      c.echo.client.built = requests.map codec.packet ∧
      Interleaving sent c.echo.client.parsed requests ∧
      replies <+: Messages.numbered requests ∧ c.echo.client.parsed <+: replies := by
  obtain ⟨halive, before, rest, hlines, hstdin⟩ := Console.keys_of_reachable hfeed htypable h
  obtain ⟨_, requests, replies, cw, sw, ha⟩ :=
    account_of_reachable hcodec (Console.lines_of_reachable h) hbounded ⟨hclient, hserver⟩
  refine ⟨halive, before, rest, requests, replies, hlines, hstdin, ha.clientBuilt, ?_, ha.replied,
    ha.parsed⟩
  obtain ⟨sent, hsent, hmerge⟩ := ha.typed
  have hleft : c.lines = rest := by
    have hrest : ∀ line ∈ rest, line ∈ lines := fun line hline =>
      hlines ▸ List.mem_append_right _ hline
    rw [Console.lines, halive, if_neg Bool.false_ne_true, hstdin]
    exact (typed_keys_eq_iff fun line hline => hfeed line (hrest line hline)).mpr
      fun line hline => htypable line (hrest line hline)
  have hall : sent ++ rest = before ++ rest := by
    rw [← hlines, ← (typed_keys_eq_iff hfeed).mpr htypable, hsent]
    exact congrArg (sent ++ ·) hleft.symm
  rw [← List.append_cancel_right hall]
  exact hmerge

theorem hi_ho_to_replies : hiAnswered.thrown = false ∧ ∃ sent rest requests replies,
    [[104, 105], [104, 111]] = sent ++ rest ∧ hiAnswered.stdin = keys rest ∧
    hiAnswered.echo.client.built = requests.map chatWire.packet ∧
    Interleaving sent hiAnswered.echo.client.parsed requests ∧
    replies <+: Messages.numbered requests ∧ hiAnswered.echo.client.parsed <+: replies :=
  keys_to_replies chatWire_lawful (by decide) (by decide) hiAnswered_reachable
    (by decide +kernel) (by decide +kernel) (by decide +kernel)

end ServerStudy.Theorems.Typing
