import ServerStudy.Fmt.Formatter

/-!
# `LOG` (Shared/log.h)

A line is the time, the level, the function's name and the caller's format
string over its arguments. `LOG` catches nothing: what `fmt::format` throws
leaves through the caller.
-/

namespace ServerStudy

open ServerStudy.Core ServerStudy.Fmt

/-- `std::tm`, as far as a line shows it. -/
structure Tm where
  tm_year : Int32
  tm_mon : Int32
  tm_mday : Int32
  tm_hour : Int32
  tm_min : Int32
  tm_sec : Int32

def timeFormat : Text := text "{:04d}-{:02d}-{:02d} {:02d}:{:02d}:{:02d} "

def Tm.args (tm : Tm) : List Arg :=
  [.int (tm.tm_year + 1900), .int (tm.tm_mon + 1), .int tm.tm_mday, .int tm.tm_hour,
    .int tm.tm_min, .int tm.tm_sec]

/-- The line printed, or the message thrown. `m` and `m'` are what the two
buffers find in memory. -/
def LOG (m m' : Mem Byte) (tm : Tm) (logHeader funcName formatStr : Text) (args : List Arg) :
    Option (Except Text Text) := do
  let time ← format m timeFormat tm.args
  let shown ← format m' formatStr args
  some do
    let time ← time
    let shown ← shown
    .ok (time ++ logHeader ++ text "[" ++ funcName ++ text "] " ++ shown ++ text "\n")

/-- An execution character set: how the compiler writes the characters of a
literal. ASCII is written as it is, and nothing else with a zero or a brace. -/
structure CharSet where
  encode : Char → Text
  ascii : ∀ c : Char, c.toNat < 128 → encode c = [char c]
  braceFree : ∀ c : Char, 128 ≤ c.toNat → ∀ b ∈ encode c, b ≠ 0 ∧ b ≠ char '{' ∧ b ≠ char '}'

/-- A literal with its characters. -/
def CharSet.literal (cs : CharSet) (s : String) : Text := s.toList.flatMap cs.encode

/-- The format strings `LOG` is called with and how many arguments go with
each. -/
def logCalls : List (String × Nat) :=
  [("Not enough remain buffer.", 0), ("Not enough data.", 0), ("Not enough buffer size.", 0),
    ("Fail to truncate buffer. remain size: {}, truncate size: {}", 2),
    ("packet size is bigger than MAX_BUF_SIZE. packetSize: {}", 1),
    ("socket()", 0), ("connect error: {}", 1), ("[보낼 데이터]", 0),
    ("Fail to set packet to packetBuffer.", 0), ("send() error: {}", 1),
    ("[TCP Client] {} 바이트를 보냈습니다.", 1), ("recv error: {}", 1),
    ("Fail to append buffer.", 0), ("Fail to packet parse.", 0),
    ("[TCP Client] {} 바이트를 받았습니다.", 1), ("Fail to set packet.", 0),
    ("accept()", 0), ("client_sock success.", 0), ("Fail to SetPacket().", 0),
    ("OnRecv() pBuffer is nullptr.", 0),
    ("OnRecv() recvSize is bigger than MAX_BUF_SIZE. recvSize: {}", 1),
    ("OnRecv() AppendBuffer error.", 0), ("OnRecv() HandlerPacket failed. packetNumber: {}", 1),
    ("PacketParse error.", 0), ("ProtocolNumber is out of range. protocolNumber: {}", 1),
    ("Already registered protocol. protocolNumber: {}", 1),
    ("PacketHandler is not exist. packetNo: {}", 1),
    ("Initialize WSASock", 0), ("WSASock success.", 0), ("Initalize listen_sock", 0),
    ("socket success.", 0), ("bind() error: {}", 1), ("bind success.", 0),
    ("listen() error: {}", 1), ("listen success.", 0)]

end ServerStudy
